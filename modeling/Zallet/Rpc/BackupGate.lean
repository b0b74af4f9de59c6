import Zallet.Keystore.Locked
import Zallet.Keystore.Store
import Zallet.Rpc.Accounts

/-!
# The backup gate

The confirmation of backups in `KeyStore` (`zallet-core/src/components/keystore.rs`,
lines 591–632 and 676–783), `ensure_seed_is_backed_up` (json_rpc/utils.rs, lines 63–87)
and the gate of `z_getaddressforaccount` (json_rpc/methods/get_address_for_account.rs,
lines 51–94).

The gate asks for the seed that the account was derived from, while a confirmation is a
mark on a row of the mnemonics.

* `KeyedTables`: tables whose seeds are stored under 32 bytes, as every store leaves them.
* `marked_performAll`: what was confirmed stays confirmed in any run of stores.
* `remedy_iff`: a seed can be selected and confirmed for good iff it has a mnemonic.
* `refusals_have_remedy_iff`: the gate names a remedy that exists iff the account has no
  derivation or the keystore holds the mnemonic of its seed.
-/

namespace Zallet.Rpc.BackupGate

open Zallet.Common.KeyedTable Zallet.Common.Loop
open Zallet.Keystore (Crates Error ErrorKind MnemonicRow LegacySeedRow StoreOp)
open Zallet.Wallet Zallet.Rpc.Accounts

/-! ## The keystore -/

/-- The seeds are stored under fingerprints. -/
structure Keyed (tables : Keystore.Tables) : Prop where
  mnemonics : ∀ row ∈ tables.mnemonics, row.hdSeedFingerprint.length = 32
  legacySeeds : ∀ row ∈ tables.legacySeeds, row.hdSeedFingerprint.length = 32

abbrev KeyedTables := { tables : Keystore.Tables // Keyed tables }

/-- A keystore: its setting `require_backup`, and the tables or the error of reading
    them. -/
structure KeyStore where
  requireBackup : Bool
  db : Except Error KeyedTables

/-- The column of a row as a fingerprint, `SeedFingerprint::from_bytes`. -/
def readFingerprint (bytes : List UInt8) : Except Error SeedFingerprint :=
  if bytes.length = 32 then .ok ⟨bytes⟩
  else .error (ErrorKind.Generic.context "Invalid column type Blob")

/-- `list_seed_fingerprints` (lines 591–609). -/
def KeyStore.listSeedFingerprints (ks : KeyStore) : Except Error (List SeedFingerprint) := do
  let tables ← ks.db
  let rows ← tables.val.mnemonics.mapM fun row => readFingerprint row.hdSeedFingerprint
  pure rows.dedup

/-- `list_legacy_seed_fingerprints` (lines 612–632). -/
def KeyStore.listLegacySeedFingerprints (ks : KeyStore) : Except Error (List SeedFingerprint) := do
  let tables ← ks.db
  let rows ← tables.val.legacySeeds.mapM fun row => readFingerprint row.hdSeedFingerprint
  pure rows.dedup

/-- `backup_confirmed` (lines 681–697). -/
def KeyStore.backupConfirmed (ks : KeyStore) (seedFp : SeedFingerprint) : Except Error Bool := do
  let tables ← ks.db
  pure ((lookup MnemonicRow.hdSeedFingerprint seedFp.bytes tables.val.mnemonics).any
    MnemonicRow.backupConfirmed)

/-- `SeedSelectionError` (lines 179–191). -/
inductive SeedSelectionError
  | Database (e : Error)
  | NoSeeds
  | Ambiguous
  | Unknown
  deriving DecidableEq

/-- `select_seed` (lines 724–744). -/
def KeyStore.selectSeed (ks : KeyStore) (seedfp : Option SeedFingerprint) :
    Except SeedSelectionError SeedFingerprint := do
  let seedFps ← ks.listSeedFingerprints.mapError SeedSelectionError.Database
  match seedFps, seedfp with
  | [], _ => throw .NoSeeds
  | seedFps, some seedFp => if seedFp ∈ seedFps then pure seedFp else throw .Unknown
  | [seedFp], none => pure seedFp
  | _, none => throw .Ambiguous

/-- `backup_required` (lines 748–750). -/
def KeyStore.backupRequired (ks : KeyStore) (seedFp : SeedFingerprint) : Except Error Bool :=
  if ks.requireBackup then do
    let confirmed ← ks.backupConfirmed seedFp
    pure (!confirmed)
  else pure false

/-- A row after `SET backup_confirmed = TRUE WHERE hd_seed_fingerprint = ...`. -/
def confirmRow (seedFp : SeedFingerprint) (row : MnemonicRow) : MnemonicRow :=
  if row.hdSeedFingerprint = seedFp.bytes then { row with backupConfirmed := true } else row

theorem confirmRow_key (seedFp : SeedFingerprint) (row : MnemonicRow) :
    (confirmRow seedFp row).hdSeedFingerprint = row.hdSeedFingerprint := by
  unfold confirmRow
  split_ifs <;> rfl

/-- The tables after the update of `confirm_backup`. -/
def KeyedTables.confirm (tables : KeyedTables) (seedFp : SeedFingerprint) : KeyedTables where
  val := { tables.val with mnemonics := tables.val.mnemonics.map (confirmRow seedFp) }
  property :=
    { mnemonics := by
        intro row hrow
        obtain ⟨old, hold, rfl⟩ := List.mem_map.mp hrow
        rw [confirmRow_key]
        exact tables.property.mnemonics old hold
      legacySeeds := tables.property.legacySeeds }

/-- The message `err-keystore-no-such-mnemonic`. -/
def noSuchMnemonic (seedfp : String) : String :=
  "The wallet holds no mnemonic phrase with seed fingerprint " ++ seedfp ++ "."

section

variable (display : SeedFingerprint → String)

/-- `confirm_backup` (lines 758–783), and the keystore after it. -/
def KeyStore.confirmBackup (ks : KeyStore) (seedFp : SeedFingerprint) : Except Error KeyStore := do
  let tables ← ks.db
  let rows := tables.val.mnemonics.countP fun row => decide (row.hdSeedFingerprint = seedFp.bytes)
  if rows = 0 then throw (ErrorKind.Generic.context (noSuchMnemonic (display seedFp)))
  else pure { ks with db := .ok (tables.confirm seedFp) }

end

/-! ## The gate -/

section

variable (contextDisplay : String → Option String → String)

/-- The error of `ensure_seed_is_backed_up`. -/
def walletBackupRequired : RpcError :=
  LegacyCode.WalletBackupRequired.withMessage
    ("Error: Please acknowledge that you have backed up the wallet's emergency recovery phrase " ++
      "by using the zallet confirm-backup command first.")

/-- `map_err(|e| LegacyCode::Database.with_message(e.to_string()))` on an error of the
    keystore. -/
def keystoreAnswer {α : Type} (answer : Except Error α) : Except RpcError α :=
  answer.mapError fun e => LegacyCode.Database.withMessage (e.display contextDisplay)

/-- `ensure_seed_is_backed_up` (json_rpc/utils.rs, lines 70–87). -/
def ensureSeedIsBackedUp (ks : KeyStore) (seedFp : SeedFingerprint) : Except RpcError Unit := do
  let required ← keystoreAnswer contextDisplay (ks.backupRequired seedFp)
  if required then throw walletBackupRequired else pure ()

/-- The seed of the account's key derivation (lines 83–91). -/
def accountSeed (W : AccountReads) (accountId : AccountUuid) :
    Except RpcError (Option SeedFingerprint) := do
  let account ← database (W.getAccount accountId)
  pure ((account.bind fun account => account.source.keyDerivation).map
    Zip32Derivation.seedFingerprint)

/-- The gate (lines 83–94). -/
def backupGate (ks : KeyStore) (W : AccountReads) (accountId : AccountUuid) :
    Except RpcError Unit := do
  match ← accountSeed W accountId with
  | some seedFp => ensureSeedIsBackedUp contextDisplay ks seedFp
  | none => pure ()

variable (parseUuid : List Char → Option AccountUuid)

/-- The parameter `account` (lines 58–65). -/
def parseAccount (ks : KeyStore) (W : AccountReads) (account : JsonValue) :
    Except RpcError AccountUuid :=
  parseAccountParameter parseUuid W
    (keystoreAnswer contextDisplay ks.listLegacySeedFingerprints) account

/-- `z_getaddressforaccount` (lines 51–187): `derive` is what follows the gate. -/
def zGetaddressforaccount {Address : Type} (derive : AccountUuid → Except RpcError Address)
    (ks : KeyStore) (W : AccountReads) (account : JsonValue) : Except RpcError Address := do
  let accountId ← parseAccount contextDisplay parseUuid ks W account
  backupGate contextDisplay ks W accountId
  derive accountId

/-- The request is refused because of the seed. -/
def RefusedFor (ks : KeyStore) (W : AccountReads) (account : JsonValue)
    (seedFp : SeedFingerprint) : Prop :=
  ∃ accountId, parseAccount contextDisplay parseUuid ks W account = .ok accountId ∧
    accountSeed W accountId = .ok (some seedFp) ∧
    ensureSeedIsBackedUp contextDisplay ks seedFp = .error walletBackupRequired

end

/-! ## Later stores -/

section

variable {c : Crates} {tables tables' : Keystore.Tables} {op : StoreOp c}

/-- A seed is stored under a fingerprint. -/
theorem length_of_holdsSeed {recipients : List String} {seed : List UInt8} {row : LegacySeedRow}
    (h : Keystore.HoldsSeed c recipients seed row) : row.hdSeedFingerprint.length = 32 := by
  obtain ⟨hsome, hkey, -⟩ := h
  obtain ⟨seedFp, hfp⟩ := Option.isSome_iff_exists.mp hsome
  rw [← hkey, Keystore.fingerprintBytes, hfp]
  exact seedFp.length_eq

/-- What a store does to the seeds: it inserts a mnemonic or a legacy seed under a
    fingerprint, or leaves both tables as they are. -/
theorem perform_cases (h : op.perform tables = .ok tables') :
    (∃ row : MnemonicRow, row.hdSeedFingerprint.length = 32 ∧ tables' = { tables with
        mnemonics :=
          upsert MnemonicRow.hdSeedFingerprint MnemonicRow.confirm tables.mnemonics row }) ∨
      (∃ row : LegacySeedRow, row.hdSeedFingerprint.length = 32 ∧ tables' = { tables with
        legacySeeds :=
          upsert LegacySeedRow.hdSeedFingerprint (fun old _ => old) tables.legacySeeds row }) ∨
      (tables'.mnemonics = tables.mnemonics ∧ tables'.legacySeeds = tables.legacySeeds) := by
  cases op with
  | mnemonic m backup coins =>
    obtain ⟨row, -, hlen, rfl⟩ := Keystore.encryptAndStoreMnemonic_eq_ok h
    exact Or.inl ⟨row, hlen, rfl⟩
  | legacySeed seed coins =>
    obtain ⟨row, hrow, rfl⟩ := Keystore.encryptAndStoreLegacySeed_eq_ok h
    exact Or.inr (Or.inl ⟨row, length_of_holdsSeed hrow, rfl⟩)
  | saplingKey key coins =>
    obtain ⟨row, -, rfl⟩ := Keystore.encryptAndStoreSaplingKey_eq_ok h
    exact Or.inr (Or.inr ⟨rfl, rfl⟩)
  | transparentKeys keys =>
    obtain ⟨recipients, -, h⟩ := bind_eq_ok.mp h
    obtain ⟨rows, -, h⟩ := bind_eq_ok.mp h
    cases h
    exact Or.inr (Or.inr ⟨rfl, rfl⟩)

theorem keepsKey_confirm : KeepsKey MnemonicRow.hdSeedFingerprint MnemonicRow.confirm :=
  fun _ _ h => h

theorem length_upsert {α : Type} {key : α → List UInt8} {update : α → α → α} {rows : List α}
    {row : α} (hkey : KeepsKey key update) (h : ∀ r ∈ rows, (key r).length = 32)
    (hrow : (key row).length = 32) : ∀ r ∈ upsert key update rows row, (key r).length = 32 := by
  intro r hr
  obtain hmem | hnew := (mem_keys_upsert hkey).mp (List.mem_map_of_mem (f := key) hr)
  · obtain ⟨old, hold, hsame⟩ := List.mem_map.mp hmem
    rw [← hsame]
    exact h old hold
  · rw [hnew]
    exact hrow

theorem Keyed.perform (hk : Keyed tables) (h : op.perform tables = .ok tables') :
    Keyed tables' := by
  obtain ⟨row, hlen, rfl⟩ | ⟨row, hlen, rfl⟩ | ⟨hmnemonics, hlegacy⟩ := perform_cases h
  · exact ⟨length_upsert keepsKey_confirm hk.mnemonics hlen, hk.legacySeeds⟩
  · exact ⟨hk.mnemonics, length_upsert (keepsKey_ignore _) hk.legacySeeds hlen⟩
  · constructor
    · rw [hmnemonics]
      exact hk.mnemonics
    · rw [hlegacy]
      exact hk.legacySeeds

/-- The tables after a store that succeeds. -/
def KeyedTables.perform (tables : KeyedTables) (op : StoreOp c) : Except Error KeyedTables :=
  match h : op.perform tables.val with
  | .ok tables' => .ok ⟨tables', tables.property.perform h⟩
  | .error e => .error e

theorem KeyedTables.perform_eq_ok {tables tables' : KeyedTables}
    (h : tables.perform op = .ok tables') : op.perform tables.val = .ok tables'.val := by
  unfold KeyedTables.perform at h
  split at h
  case h_1 after hop =>
    cases h
    exact hop
  case h_2 => cases h

/-- The keystore after a store; one that fails leaves it as it is. -/
def KeyStore.perform (ks : KeyStore) (op : StoreOp c) : KeyStore :=
  match ks.db.bind fun tables => tables.perform op with
  | .ok tables => { ks with db := .ok tables }
  | .error _ => ks

def KeyStore.performAll (ks : KeyStore) (ops : List (StoreOp c)) : KeyStore :=
  ops.foldl KeyStore.perform ks

end

/-! ## What is confirmed stays confirmed -/

/-- The keystore has a mnemonic for the seed. -/
def Holds (tables : Keystore.Tables) (seedFp : SeedFingerprint) : Prop :=
  seedFp.bytes ∈ tables.mnemonics.map MnemonicRow.hdSeedFingerprint

/-- The keystore has a mnemonic for the seed, and it is confirmed. -/
structure Marked (tables : Keystore.Tables) (seedFp : SeedFingerprint) : Prop where
  held : Holds tables seedFp
  confirmed : ∀ row ∈ tables.mnemonics, row.hdSeedFingerprint = seedFp.bytes →
    row.backupConfirmed = true

section

variable {c : Crates} {seedFp : SeedFingerprint}

theorem confirm_confirmed (old row : MnemonicRow) (h : old.backupConfirmed = true) :
    (old.confirm row).backupConfirmed = true := by
  simp [MnemonicRow.confirm, h]

/-- The mark is one of the mnemonics. -/
theorem Marked.of_mnemonics {tables tables' : Keystore.Tables} (hm : Marked tables seedFp)
    (hsame : tables'.mnemonics = tables.mnemonics) : Marked tables' seedFp := by
  constructor
  · rw [Holds, hsame]
    exact hm.held
  · rw [hsame]
    exact hm.confirmed

/-- A store keeps the mark. -/
theorem Marked.perform {tables tables' : Keystore.Tables} {op : StoreOp c}
    (hm : Marked tables seedFp) (h : op.perform tables = .ok tables') : Marked tables' seedFp := by
  obtain ⟨row, -, rfl⟩ | ⟨row, -, rfl⟩ | ⟨hmnemonics, -⟩ := perform_cases h
  · constructor
    · show seedFp.bytes ∈ (upsert MnemonicRow.hdSeedFingerprint MnemonicRow.confirm tables.mnemonics
        row).map MnemonicRow.hdSeedFingerprint
      rw [mem_keys_upsert keepsKey_confirm]
      exact Or.inl hm.held
    · exact forall_upsert keepsKey_confirm hm.held (fun old h => confirm_confirmed old row h)
        hm.confirmed
  · exact hm.of_mnemonics rfl
  · exact hm.of_mnemonics hmnemonics

/-- `confirm_backup` sets the mark. -/
theorem marked_confirm {tables : KeyedTables} (h : Holds tables.val seedFp) :
    Marked (tables.confirm seedFp).val seedFp := by
  obtain ⟨row, hrow, hkey⟩ := List.mem_map.mp h
  constructor
  · refine List.mem_map.mpr ⟨confirmRow seedFp row, List.mem_map_of_mem hrow, ?_⟩
    rw [confirmRow_key, hkey]
  · intro row' hrow' hkey'
    obtain ⟨old, -, rfl⟩ := List.mem_map.mp hrow'
    rw [confirmRow_key] at hkey'
    rw [confirmRow, if_pos hkey']

theorem marked_perform {ks : KeyStore} {tables : KeyedTables} (op : StoreOp c)
    (hdb : ks.db = .ok tables) (hm : Marked tables.val seedFp) :
    ∃ tables', (ks.perform op).db = .ok tables' ∧ Marked tables'.val seedFp := by
  unfold KeyStore.perform
  rw [hdb]
  show ∃ tables', (match tables.perform op with
    | .ok tables => { ks with db := .ok tables }
    | .error _ => ks).db = .ok tables' ∧ Marked tables'.val seedFp
  cases hop : tables.perform op with
  | ok tables' => exact ⟨tables', rfl, hm.perform (KeyedTables.perform_eq_ok hop)⟩
  | error e => exact ⟨tables, hdb, hm⟩

/-- What was confirmed stays confirmed in a run of stores. -/
theorem marked_performAll {ks : KeyStore} {tables : KeyedTables} (ops : List (StoreOp c))
    (hdb : ks.db = .ok tables) (hm : Marked tables.val seedFp) :
    ∃ tables', (ks.performAll ops).db = .ok tables' ∧ Marked tables'.val seedFp := by
  induction ops generalizing ks tables with
  | nil => exact ⟨tables, hdb, hm⟩
  | cons op ops ih =>
    obtain ⟨tables', hdb', hm'⟩ := marked_perform op hdb hm
    exact ih hdb' hm'

end

/-! ## The remedy -/

section

variable {ks : KeyStore} {tables : KeyedTables} {seedFp : SeedFingerprint}

theorem mapM_readFingerprint {α : Type} {key : α → List UInt8} {rows : List α}
    (h : ∀ row ∈ rows, (key row).length = 32) :
    rows.mapM (fun row => readFingerprint (key row)) = .ok (rows.map fun row => ⟨key row⟩) := by
  induction rows with
  | nil => rfl
  | cons row rows ih =>
    have hrow : readFingerprint (key row) = .ok ⟨key row⟩ := if_pos (h row List.mem_cons_self)
    rw [List.mapM_cons, hrow, ih fun r hr => h r (List.mem_cons_of_mem _ hr)]
    rfl

/-- The keystore lists the seeds it has mnemonics for. -/
theorem mem_listSeedFingerprints (hdb : ks.db = .ok tables) :
    ∃ seedFps, ks.listSeedFingerprints = .ok seedFps ∧
      ∀ seedFp, seedFp ∈ seedFps ↔ Holds tables.val seedFp := by
  refine ⟨(tables.val.mnemonics.map fun row => ⟨row.hdSeedFingerprint⟩).dedup, ?_, ?_⟩
  · rw [KeyStore.listSeedFingerprints, hdb]
    show (do
      let rows ← tables.val.mnemonics.mapM fun row => readFingerprint row.hdSeedFingerprint
      pure rows.dedup : Except Error (List SeedFingerprint)) = _
    rw [mapM_readFingerprint tables.property.mnemonics]
    rfl
  · intro seedFp
    rw [List.mem_dedup, Holds, List.mem_map, List.mem_map]
    obtain ⟨bytes⟩ := seedFp
    simp

theorem selectSeed_some (hdb : ks.db = .ok tables) :
    ks.selectSeed (some seedFp) = .ok seedFp ↔ Holds tables.val seedFp := by
  obtain ⟨seedFps, hlist, hmem⟩ := mem_listSeedFingerprints hdb
  rw [← hmem seedFp, KeyStore.selectSeed, hlist]
  cases seedFps with
  | nil => simp [Except.mapError, bind, Except.bind, throw, throwThe, MonadExceptOf.throw]
  | cons first rest =>
    by_cases h : seedFp ∈ first :: rest
    · simp [Except.mapError, bind, Except.bind, pure, Except.pure, h]
    · simp [Except.mapError, bind, Except.bind, throw, throwThe, MonadExceptOf.throw, h]

theorem countP_eq_zero_iff :
    tables.val.mnemonics.countP (fun row => decide (row.hdSeedFingerprint = seedFp.bytes)) = 0 ↔
      ¬ Holds tables.val seedFp := by
  simp [List.countP_eq_zero, Holds]

/-- `confirm_backup` succeeds iff there is a mnemonic to confirm. -/
theorem confirmBackup_eq_ok {display : SeedFingerprint → String} (hdb : ks.db = .ok tables)
    {ks' : KeyStore} :
    ks.confirmBackup display seedFp = .ok ks' ↔
      Holds tables.val seedFp ∧ ks' = { ks with db := .ok (tables.confirm seedFp) } := by
  rw [KeyStore.confirmBackup, hdb]
  by_cases h : Holds tables.val seedFp
  · have hpos := countP_eq_zero_iff.not_left.mpr h
    rw [eq_comm (a := ks')]
    simp [bind, Except.bind, pure, Except.pure, h, hpos]
  · have hzero := countP_eq_zero_iff.mpr h
    simp [bind, Except.bind, throw, throwThe, MonadExceptOf.throw, h, hzero]

theorem Marked.backupConfirmed (hdb : ks.db = .ok tables) (hm : Marked tables.val seedFp) :
    ks.backupConfirmed seedFp = .ok true := by
  obtain ⟨row, hrow⟩ := exists_lookup hm.held
  obtain ⟨hmem, hkey⟩ := lookup_eq_some hrow
  simp [KeyStore.backupConfirmed, hdb, hrow, hm.confirmed row hmem hkey, bind, Except.bind, pure,
    Except.pure]

theorem backupConfirmed_of_not_holds (hdb : ks.db = .ok tables) (h : ¬ Holds tables.val seedFp) :
    ks.backupConfirmed seedFp = .ok false := by
  have hnone : lookup MnemonicRow.hdSeedFingerprint seedFp.bytes tables.val.mnemonics = none := by
    cases hrow : lookup MnemonicRow.hdSeedFingerprint seedFp.bytes tables.val.mnemonics with
    | none => rfl
    | some row =>
      obtain ⟨hmem, hkey⟩ := lookup_eq_some hrow
      exact absurd (List.mem_map.mpr ⟨row, hmem, hkey⟩) h
  simp [KeyStore.backupConfirmed, hdb, hnone, bind, Except.bind, pure, Except.pure]

theorem backupRequired_of_confirmed (h : ks.backupConfirmed seedFp = .ok true) :
    ks.backupRequired seedFp = .ok false := by
  rw [KeyStore.backupRequired, h]
  split_ifs <;> rfl

/-- The remedy that the refusal names: the seed can be selected and confirmed, and no
    store after that requires its backup again. -/
def Remedy (c : Crates) (display : SeedFingerprint → String) (ks : KeyStore)
    (seedFp : SeedFingerprint) : Prop :=
  ks.selectSeed (some seedFp) = .ok seedFp ∧
    ∃ ks', ks.confirmBackup display seedFp = .ok ks' ∧
      ∀ ops : List (StoreOp c), (ks'.performAll ops).backupRequired seedFp = .ok false

/-- The remedy exists iff the keystore has a mnemonic for the seed. -/
theorem remedy_iff {c : Crates} {display : SeedFingerprint → String} (hdb : ks.db = .ok tables) :
    Remedy c display ks seedFp ↔ Holds tables.val seedFp := by
  constructor
  · rintro ⟨hselect, -⟩
    exact (selectSeed_some hdb).mp hselect
  · intro h
    refine ⟨(selectSeed_some hdb).mpr h, _, (confirmBackup_eq_ok hdb).mpr ⟨h, rfl⟩, ?_⟩
    intro ops
    have hdb' : ({ ks with db := .ok (tables.confirm seedFp) } : KeyStore).db =
        .ok (tables.confirm seedFp) := rfl
    obtain ⟨tables', hafter, hm⟩ := marked_performAll ops hdb' (marked_confirm h)
    exact backupRequired_of_confirmed (hm.backupConfirmed hafter)

end

/-! ## The gate and the remedy -/

section

variable {contextDisplay : String → Option String → String}
  {parseUuid : List Char → Option AccountUuid} {display : SeedFingerprint → String}
  {ks : KeyStore} {W : AccountReads} {account : JsonValue} {seedFp : SeedFingerprint}

/-- The gate refuses a seed iff the setting is on and its backup is not confirmed. -/
theorem ensureSeedIsBackedUp_refuses :
    ensureSeedIsBackedUp contextDisplay ks seedFp = .error walletBackupRequired ↔
      ks.requireBackup = true ∧ ks.backupConfirmed seedFp = .ok false := by
  unfold ensureSeedIsBackedUp KeyStore.backupRequired
  cases ks.requireBackup with
  | false =>
    simp [keystoreAnswer, Except.mapError, bind, Except.bind, pure, Except.pure]
  | true =>
    cases ks.backupConfirmed seedFp with
    | ok confirmed =>
      cases confirmed with
      | false => exact ⟨fun _ => ⟨rfl, rfl⟩, fun _ => rfl⟩
      | true => simp [keystoreAnswer, Except.mapError, bind, Except.bind, pure, Except.pure]
    | error e =>
      simp [keystoreAnswer, Except.mapError, bind, Except.bind, walletBackupRequired,
        LegacyCode.withMessage, LegacyCode.code]

/-- A seed that needs no backup passes the gate. -/
theorem ensureSeedIsBackedUp_passes (h : ks.backupRequired seedFp = .ok false) :
    ensureSeedIsBackedUp contextDisplay ks seedFp = .ok () := by
  rw [ensureSeedIsBackedUp, h]
  rfl

/-- After the remedy the gate lets the seed pass, whatever is stored later. -/
theorem Remedy.opens {c : Crates} (h : Remedy c display ks seedFp) :
    ∃ ks', ks.confirmBackup display seedFp = .ok ks' ∧ ∀ ops : List (StoreOp c),
      ensureSeedIsBackedUp contextDisplay (ks'.performAll ops) seedFp = .ok () := by
  obtain ⟨-, ks', hconfirm, hafter⟩ := h
  exact ⟨ks', hconfirm, fun ops => ensureSeedIsBackedUp_passes (hafter ops)⟩

/-- A refused request ends in the error of the gate. -/
theorem zGetaddressforaccount_refused {Address : Type}
    {derive : AccountUuid → Except RpcError Address}
    (h : RefusedFor contextDisplay parseUuid ks W account seedFp) :
    zGetaddressforaccount contextDisplay parseUuid derive ks W account =
      .error walletBackupRequired := by
  obtain ⟨accountId, hparse, hseed, hgate⟩ := h
  rw [zGetaddressforaccount, hparse]
  show (do
    backupGate contextDisplay ks W accountId
    derive accountId) = _
  rw [backupGate, hseed]
  show (do
    ensureSeedIsBackedUp contextDisplay ks seedFp
    derive accountId) = _
  rw [hgate]
  rfl

/-- An account that a number names is not refused because of a legacy seed. -/
theorem refusedFor_number {n : List Char} {legacySeeds : List SeedFingerprint}
    (hlegacy : ks.listLegacySeedFingerprints = .ok legacySeeds)
    (h : RefusedFor contextDisplay parseUuid ks W (.Number n) seedFp) :
    seedFp ∉ legacySeeds := by
  obtain ⟨accountId, hparse, hseed, -⟩ := h
  rw [parseAccount, hlegacy] at hparse
  obtain ⟨-, -, account, derivation, hget, hder, hnot, -⟩ := accountOfNumber_numbered hparse
  rw [accountSeed, hget] at hseed
  have hfp : some derivation.seedFingerprint = some seedFp := by
    simpa [database, Except.mapError, bind, Except.bind, pure, Except.pure, hder] using hseed
  cases hfp
  exact hnot

variable (contextDisplay parseUuid) in
/-- If the account that the request names was derived from a seed, the keystore has the
    seed's mnemonic. -/
def Covered (ks : KeyStore) (W : AccountReads) (account : JsonValue) : Prop :=
  ks.requireBackup = true → ∀ accountId seedFp tables,
    parseAccount contextDisplay parseUuid ks W account = .ok accountId →
    accountSeed W accountId = .ok (some seedFp) →
    ks.db = .ok tables → Holds tables.val seedFp

/-- Where the account is not covered, the gate refuses it. -/
theorem refusedFor_of_not_holds {accountId : AccountUuid} {tables : KeyedTables}
    (hon : ks.requireBackup = true)
    (hparse : parseAccount contextDisplay parseUuid ks W account = .ok accountId)
    (hseed : accountSeed W accountId = .ok (some seedFp)) (hdb : ks.db = .ok tables)
    (hno : ¬ Holds tables.val seedFp) :
    RefusedFor contextDisplay parseUuid ks W account seedFp := by
  have hconf : ks.backupConfirmed seedFp = .ok false := backupConfirmed_of_not_holds hdb hno
  exact ⟨accountId, hparse, hseed, ensureSeedIsBackedUp_refuses.mpr ⟨hon, hconf⟩⟩

theorem db_of_backupConfirmed {confirmed : Bool} (h : ks.backupConfirmed seedFp = .ok confirmed) :
    ∃ tables, ks.db = .ok tables := by
  obtain ⟨tables, hdb, -⟩ := bind_eq_ok.mp h
  exact ⟨tables, hdb⟩

/-- Every refusal of a request names a remedy that exists iff the account is covered. -/
theorem refusals_have_remedy_iff (c : Crates) (display : SeedFingerprint → String)
    (contextDisplay : String → Option String → String)
    (parseUuid : List Char → Option AccountUuid) (ks : KeyStore) (W : AccountReads)
    (account : JsonValue) :
    (∀ seedFp, RefusedFor contextDisplay parseUuid ks W account seedFp →
      Remedy c display ks seedFp) ↔ Covered contextDisplay parseUuid ks W account := by
  constructor
  · intro h hon accountId seedFp tables hparse hseed hdb
    by_contra hno
    have hremedy := h seedFp (refusedFor_of_not_holds hon hparse hseed hdb hno)
    exact hno ((remedy_iff hdb).mp hremedy)
  · rintro hcovered seedFp ⟨accountId, hparse, hseed, hgate⟩
    obtain ⟨hon, hconf⟩ := ensureSeedIsBackedUp_refuses.mp hgate
    obtain ⟨tables, hdb⟩ := db_of_backupConfirmed hconf
    exact (remedy_iff hdb).mpr (hcovered hon accountId seedFp tables hparse hseed hdb)

end

/-! ## An account of a legacy seed -/

namespace Legacy

/-- The fingerprint of a seed that was imported without a mnemonic. -/
def legacySeedFp : SeedFingerprint := ⟨List.replicate 32 8⟩

/-- A keystore that holds that seed and no mnemonic. -/
def keyStore : KeyStore where
  requireBackup := true
  db := .ok
    { val :=
        { ageRecipients := ["age1recipient"], mnemonics := [],
          legacySeeds := [⟨legacySeedFp.bytes, 166 :: legacySeedFp.bytes⟩],
          saplingKeys := [], transparentKeys := [], addresses := [] }
      property := ⟨by simp, by simp [legacySeedFp]⟩ }

/-- The wallet's account at the index that `zcashd` used for such a seed. -/
def accounts : AccountReads where
  getAccountIds := .ok [7]
  getAccount id :=
    if id = 7 then
      .ok (some ⟨7, "legacy", .Imported (.Spending (some ⟨legacySeedFp, zcashLegacyAccount⟩)),
        ⟨"uview1"⟩, 419200⟩)
    else .ok none

def accountText : List Char := "00000000-0000-0000-0000-000000000007".toList

def parseUuid (text : List Char) : Option AccountUuid :=
  if text = accountText then some 7 else none

def contextDisplay (kind : String) (_ : Option String) : String := kind

def display (seedFp : SeedFingerprint) : String := toString seedFp.bytes

/-- The account is refused a new address because of its seed, and there is nothing to
    confirm. -/
theorem refused_without_remedy :
    keyStore.requireBackup = true ∧
      RefusedFor contextDisplay parseUuid keyStore accounts (.String accountText) legacySeedFp ∧
      ¬ Remedy Keystore.OneOfEach.crates display keyStore legacySeedFp := by
  refine ⟨rfl, ⟨7, rfl, rfl, ?_⟩, ?_⟩
  · exact ensureSeedIsBackedUp_refuses.mpr ⟨rfl, rfl⟩
  · intro hremedy
    have hheld : Holds _ legacySeedFp := (remedy_iff rfl).mp hremedy
    simp [Holds] at hheld

end Legacy

end Zallet.Rpc.BackupGate
