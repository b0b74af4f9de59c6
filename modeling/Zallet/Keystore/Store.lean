import Zallet.Keystore.Decrypt

/-!
# Storing key material

The store operations of `KeyStore` (`zallet-core/src/components/keystore.rs`, lines
555–584, 634–674 and 785–921) and what the lookups return after a run of them.

* `Written`: what a run of store operations, some of which may fail, leaves.
* `Backs`: its invariant. Every row holds an item that was stored, encrypted to the
  recipients, and every item has a row.
* `returns_stored`: after such a run a lookup returns an item stored under the key
  asked for.
* `decrypt_binds` adds what the lookups return on arbitrary tables.
-/

namespace Zallet.Keystore

open Zallet.Chain (TransparentAddress)
open Zallet.Common Zallet.Common.KeyedTable Zallet.Common.Loop

variable {c : Crates}

/-! ## Storing -/

section

variable (c : Crates)

/-- The first line of `KeystoreError::MissingRecipients`. -/
def missingRecipients : String :=
  "The wallet has not been set up to store key material securely."

/-- The message `err-failed-seed-fingerprinting`. -/
def failedSeedFingerprinting : String :=
  "Zallet was unable to import invalid seed data, likely due to the seed having\n" ++
    "an invalid length."

/-- `KeyStore::encryptor` (lines 555–584). -/
def Tables.encryptor (tables : Tables) : Except Error (List c.Recipient) := do
  let recipients ← generic (c.readRecipients tables.ageRecipients)
  if tables.ageRecipients.isEmpty then throw (ErrorKind.Generic.context missingRecipients)
  else pure recipients

/-- A phrase that is stored again stays as it is, and keeps its confirmation. -/
def MnemonicRow.confirm (old row : MnemonicRow) : MnemonicRow :=
  { old with backupConfirmed := old.backupConfirmed || row.backupConfirmed }

/-- `KeyStore::encrypt_and_store_mnemonic` (lines 641–674). A mnemonic without a
    fingerprint would be a panic. -/
def encryptAndStoreMnemonic (mnemonic : c.Mnemonic) (backup : BackupStatus) (coins : ℕ)
    (tables : Tables) : Except Error Tables := do
  let recipients ← tables.encryptor c
  match c.fromSeed (c.toSeed mnemonic) with
  | none => throw (ErrorKind.Generic.context "valid length")
  | some seedFp =>
    let encryptedMnemonic ←
      generic (c.encrypt recipients coins (Text.utf8 (c.intoPhrase mnemonic)))
    let row := ⟨seedFp.bytes, encryptedMnemonic, backup.isConfirmed⟩
    pure { tables with
      mnemonics := upsert MnemonicRow.hdSeedFingerprint MnemonicRow.confirm tables.mnemonics row }

/-- `KeyStore::encrypt_and_store_legacy_seed` (lines 786–815). -/
def encryptAndStoreLegacySeed (legacySeed : List UInt8) (coins : ℕ) (tables : Tables) :
    Except Error Tables := do
  let recipients ← tables.encryptor c
  match c.fromSeed legacySeed with
  | none => throw (ErrorKind.Generic.context failedSeedFingerprinting)
  | some seedFp =>
    let encryptedLegacySeed ← generic (c.encrypt recipients coins legacySeed)
    let row := ⟨seedFp.bytes, encryptedLegacySeed⟩
    pure { tables with
      legacySeeds :=
        upsert LegacySeedRow.hdSeedFingerprint (fun old _ => old) tables.legacySeeds row }

/-- `KeyStore::encrypt_and_store_standalone_sapling_key` (lines 823–864); the insertion
    in a wallet transaction (lines 1311–1313) runs the same statement. -/
def encryptAndStoreStandaloneSaplingKey (saplingKey : c.ExtendedSpendingKey) (coins : ℕ)
    (tables : Tables) : Except Error Tables := do
  let recipients ← tables.encryptor c
  let encryptedSaplingExtsk ← generic (c.encrypt recipients coins (c.extskToBytes saplingKey))
  let row := ⟨c.dfvkToBytes (c.toDfvk saplingKey), encryptedSaplingExtsk⟩
  pure { tables with
    saplingKeys := upsert SaplingKeyRow.dfvk (fun _ row => row) tables.saplingKeys row }

/-- `Encryptor::encrypt_standalone_transparent_key` (lines 1229–1241), for each key of a
    batch. -/
def encryptStandaloneTransparentKeys (recipients : List c.Recipient)
    (keys : List (c.SecretKey × ℕ)) : Except Error (List TransparentKeyRow) :=
  keys.mapM fun key => do
    let encryptedKeyBytes ← generic (c.encrypt recipients key.2 (c.secretBytes key.1))
    pure ⟨c.serialize (c.publicKey key.1), encryptedKeyBytes⟩

/-- `KeyStore::store_encrypted_standalone_transparent_keys` (lines 886–921). -/
def storeEncryptedStandaloneTransparentKeys (keys : List TransparentKeyRow) (tables : Tables) :
    Tables :=
  { tables with
    transparentKeys :=
      keys.foldl (upsert TransparentKeyRow.pubkey fun old _ => old) tables.transparentKeys }

/-- A store operation of the keystore. -/
inductive StoreOp
  | mnemonic (mnemonic : c.Mnemonic) (backup : BackupStatus) (coins : ℕ)
  | legacySeed (seed : List UInt8) (coins : ℕ)
  | saplingKey (key : c.ExtendedSpendingKey) (coins : ℕ)
  | transparentKeys (keys : List (c.SecretKey × ℕ))

end

def StoreOp.perform (tables : Tables) : StoreOp c → Except Error Tables
  | mnemonic m backup coins => encryptAndStoreMnemonic c m backup coins tables
  | legacySeed seed coins => encryptAndStoreLegacySeed c seed coins tables
  | saplingKey key coins => encryptAndStoreStandaloneSaplingKey c key coins tables
  | transparentKeys keys => do
    let recipients ← tables.encryptor c
    let encrypted ← encryptStandaloneTransparentKeys c recipients keys
    pure (storeEncryptedStandaloneTransparentKeys encrypted tables)

/-- What was stored by successful operations. -/
structure Stored (c : Crates) where
  mnemonics : List c.Mnemonic
  legacySeeds : List (List UInt8)
  saplingKeys : List c.ExtendedSpendingKey
  transparentKeys : List c.SecretKey

def Stored.empty : Stored c := ⟨[], [], [], []⟩

/-- The items of an operation are stored. -/
def Stored.add (stored : Stored c) : StoreOp c → Stored c
  | .mnemonic mnemonic _ _ => { stored with mnemonics := stored.mnemonics ++ [mnemonic] }
  | .legacySeed seed _ => { stored with legacySeeds := stored.legacySeeds ++ [seed] }
  | .saplingKey key _ => { stored with saplingKeys := stored.saplingKeys ++ [key] }
  | .transparentKeys keys =>
    { stored with transparentKeys := stored.transparentKeys ++ keys.map Prod.fst }

/-- `tables` is what a run of store operations, some of which may have failed, left of
    `start`, and `stored` what they stored. -/
inductive Written (start : Tables) : Tables → Stored c → Prop
  | start : Written start start .empty
  | stored {tables tables' : Tables} {stored : Stored c} (op : StoreOp c) :
      Written start tables stored → op.perform tables = .ok tables' →
      Written start tables' (stored.add op)
  | failed {tables : Tables} {stored : Stored c} {e : Error} (op : StoreOp c) :
      Written start tables stored → op.perform tables = .error e → Written start tables stored

/-- Perform the operations one after the other. -/
def StoreOp.run : List (StoreOp c) → Tables × Stored c → Tables × Stored c
  | [], w => w
  | op :: ops, w =>
    match op.perform w.1 with
    | .ok tables => run ops (tables, w.2.add op)
    | .error _ => run ops w

theorem Written.run {start : Tables} {w : Tables × Stored c} (h : Written start w.1 w.2)
    (ops : List (StoreOp c)) :
    Written start (StoreOp.run ops w).1 (StoreOp.run ops w).2 := by
  induction ops generalizing w with
  | nil => exact h
  | cons op ops ih =>
    unfold StoreOp.run
    cases hop : op.perform w.1 with
    | error e => exact ih h
    | ok tables => exact ih (h.stored op hop)

/-! ## What a run of store operations leaves -/

/-- The ciphertext is an encryption of the plaintext to the recipients. -/
def EncryptedTo (c : Crates) (recipients : List String) (plaintext ciphertext : List UInt8) : Prop :=
  ∃ parsed coins, c.readRecipients recipients = .ok parsed ∧
    c.encrypt parsed coins plaintext = .ok ciphertext

/-- The identities are in memory and open what is encrypted to the recipients. -/
def Unlocks (c : Crates) (identities : List Identity) (recipients : List String) : Prop :=
  identities ≠ [] ∧ ∀ plaintext ciphertext, EncryptedTo c recipients plaintext ciphertext →
    c.decrypt identities ciphertext = .ok plaintext

/-- The key of a seed's row; a seed that is stored has a fingerprint. -/
def fingerprintBytes (c : Crates) (seed : List UInt8) : List UInt8 :=
  (c.fromSeed seed).elim [] SeedFingerprint.bytes

section

variable (c) (recipients : List String)

def HoldsMnemonic (mnemonic : c.Mnemonic) (row : MnemonicRow) : Prop :=
  fingerprintBytes c (c.toSeed mnemonic) = row.hdSeedFingerprint ∧
    EncryptedTo c recipients (Text.utf8 (c.intoPhrase mnemonic)) row.encryptedMnemonic

def HoldsSeed (seed : List UInt8) (row : LegacySeedRow) : Prop :=
  (c.fromSeed seed).isSome = true ∧ fingerprintBytes c seed = row.hdSeedFingerprint ∧
    EncryptedTo c recipients seed row.encryptedLegacySeed

def HoldsSaplingKey (key : c.ExtendedSpendingKey) (row : SaplingKeyRow) : Prop :=
  c.dfvkToBytes (c.toDfvk key) = row.dfvk ∧
    EncryptedTo c recipients (c.extskToBytes key) row.encryptedSaplingExtsk

def HoldsTransparentKey (key : c.SecretKey) (row : TransparentKeyRow) : Prop :=
  c.serialize (c.publicKey key) = row.pubkey ∧
    EncryptedTo c recipients (c.secretBytes key) row.encryptedTransparentPrivkey

end

/-- The invariant of a run of store operations: each table backs what was stored in
    it, and the other tables are as they were. -/
structure Backs (start tables : Tables) (stored : Stored c) : Prop where
  mnemonics : Backed MnemonicRow.hdSeedFingerprint (HoldsMnemonic c start.ageRecipients)
    (fun m => fingerprintBytes c (c.toSeed m)) stored.mnemonics tables.mnemonics
  legacySeeds : Backed LegacySeedRow.hdSeedFingerprint (HoldsSeed c start.ageRecipients)
    (fingerprintBytes c) stored.legacySeeds tables.legacySeeds
  saplingKeys : Backed SaplingKeyRow.dfvk (HoldsSaplingKey c start.ageRecipients)
    (fun k => c.dfvkToBytes (c.toDfvk k)) stored.saplingKeys tables.saplingKeys
  transparentKeys : Backed TransparentKeyRow.pubkey (HoldsTransparentKey c start.ageRecipients)
    (fun k => c.serialize (c.publicKey k)) stored.transparentKeys tables.transparentKeys
  ageRecipients : tables.ageRecipients = start.ageRecipients
  addresses : tables.addresses = start.addresses

theorem encryptor_eq_ok {tables : Tables} {parsed : List c.Recipient} :
    tables.encryptor c = .ok parsed ↔
      c.readRecipients tables.ageRecipients = .ok parsed ∧ tables.ageRecipients ≠ [] := by
  simp only [Tables.encryptor, bind_eq_ok, generic_eq_ok]
  cases tables.ageRecipients with
  | nil => simp [throw, throwThe, MonadExceptOf.throw]
  | cons r rs => simp [pure, Except.pure]

theorem encryptAndStoreMnemonic_eq_ok {mnemonic : c.Mnemonic} {backup : BackupStatus} {coins : ℕ}
    {tables tables' : Tables}
    (h : encryptAndStoreMnemonic c mnemonic backup coins tables = .ok tables') :
    ∃ row, HoldsMnemonic c tables.ageRecipients mnemonic row ∧ row.hdSeedFingerprint.length = 32 ∧
      tables' = { tables with
        mnemonics :=
          upsert MnemonicRow.hdSeedFingerprint MnemonicRow.confirm tables.mnemonics row } := by
  obtain ⟨parsed, hparsed, h⟩ := bind_eq_ok.mp h
  cases hfp : c.fromSeed (c.toSeed mnemonic) with
  | none =>
    rw [hfp] at h
    cases h
  | some seedFp =>
    rw [hfp] at h
    obtain ⟨ciphertext, hciphertext, h⟩ := bind_eq_ok.mp h
    rw [generic_eq_ok] at hciphertext
    cases h
    refine ⟨_, ⟨?_, parsed, coins, (encryptor_eq_ok.mp hparsed).1, hciphertext⟩,
      seedFp.length_eq, rfl⟩
    rw [fingerprintBytes, hfp, Option.elim_some]

theorem encryptAndStoreLegacySeed_eq_ok {seed : List UInt8} {coins : ℕ} {tables tables' : Tables}
    (h : encryptAndStoreLegacySeed c seed coins tables = .ok tables') :
    ∃ row, HoldsSeed c tables.ageRecipients seed row ∧
      tables' = { tables with
        legacySeeds :=
          upsert LegacySeedRow.hdSeedFingerprint (fun old _ => old) tables.legacySeeds row } := by
  obtain ⟨parsed, hparsed, h⟩ := bind_eq_ok.mp h
  cases hfp : c.fromSeed seed with
  | none =>
    rw [hfp] at h
    cases h
  | some seedFp =>
    rw [hfp] at h
    obtain ⟨ciphertext, hciphertext, h⟩ := bind_eq_ok.mp h
    rw [generic_eq_ok] at hciphertext
    cases h
    refine ⟨_, ⟨?_, ?_, parsed, coins, (encryptor_eq_ok.mp hparsed).1, hciphertext⟩, rfl⟩
    · rw [hfp, Option.isSome_some]
    · rw [fingerprintBytes, hfp, Option.elim_some]

theorem encryptAndStoreSaplingKey_eq_ok {key : c.ExtendedSpendingKey} {coins : ℕ}
    {tables tables' : Tables}
    (h : encryptAndStoreStandaloneSaplingKey c key coins tables = .ok tables') :
    ∃ row, HoldsSaplingKey c tables.ageRecipients key row ∧
      tables' = { tables with
        saplingKeys := upsert SaplingKeyRow.dfvk (fun _ row => row) tables.saplingKeys row } := by
  obtain ⟨parsed, hparsed, h⟩ := bind_eq_ok.mp h
  obtain ⟨ciphertext, hciphertext, h⟩ := bind_eq_ok.mp h
  rw [generic_eq_ok] at hciphertext
  cases h
  exact ⟨_, ⟨rfl, parsed, coins, (encryptor_eq_ok.mp hparsed).1, hciphertext⟩, rfl⟩

/-- A batch of transparent keys is encrypted row by row. -/
theorem encryptTransparentKeys_eq_ok {recipients : List String} {parsed : List c.Recipient}
    (hparsed : c.readRecipients recipients = .ok parsed) {keys : List (c.SecretKey × ℕ)}
    {rows : List TransparentKeyRow}
    (h : encryptStandaloneTransparentKeys c parsed keys = .ok rows) :
    List.Forall₂ (fun key row => HoldsTransparentKey c recipients key row ∧
      c.serialize (c.publicKey key) = row.pubkey) (keys.map Prod.fst) rows := by
  rw [List.forall₂_map_left_iff]
  refine (forall₂_of_mapM h).imp fun key row hrow => ?_
  obtain ⟨ciphertext, hciphertext, hrow⟩ := bind_eq_ok.mp hrow
  rw [generic_eq_ok] at hciphertext
  cases hrow
  exact ⟨⟨rfl, parsed, key.2, hparsed, hciphertext⟩, rfl⟩

/-- A store operation keeps the invariant. -/
theorem Backs.perform {start tables tables' : Tables} {stored : Stored c}
    (hb : Backs start tables stored) {op : StoreOp c} (h : op.perform tables = .ok tables') :
    Backs start tables' (stored.add op) := by
  cases op with
  | mnemonic m backup coins =>
    obtain ⟨row, hrow, -, rfl⟩ := encryptAndStoreMnemonic_eq_ok h
    rw [hb.ageRecipients] at hrow
    have hkey : KeepsKey MnemonicRow.hdSeedFingerprint MnemonicRow.confirm := fun _ _ h => h
    refine { hb with mnemonics := ?_ }
    exact hb.mnemonics.upsert hkey (fun _ _ _ _ _ hold _ => Or.inl hold) hrow hrow.1
  | legacySeed seed coins =>
    obtain ⟨row, hrow, rfl⟩ := encryptAndStoreLegacySeed_eq_ok h
    rw [hb.ageRecipients] at hrow
    refine { hb with legacySeeds := ?_ }
    exact hb.legacySeeds.upsert (keepsKey_ignore _) (preserves_ignore _ _) hrow hrow.2.1
  | saplingKey key coins =>
    obtain ⟨row, hrow, rfl⟩ := encryptAndStoreSaplingKey_eq_ok h
    rw [hb.ageRecipients] at hrow
    refine { hb with saplingKeys := ?_ }
    exact hb.saplingKeys.upsert (fun _ _ _ => rfl) (fun _ _ _ _ _ _ hnew => Or.inr hnew) hrow hrow.1
  | transparentKeys keys =>
    obtain ⟨parsed, hparsed, h⟩ := bind_eq_ok.mp h
    obtain ⟨rows, hrows, h⟩ := bind_eq_ok.mp h
    cases h
    have hread := (encryptor_eq_ok.mp hparsed).1
    rw [hb.ageRecipients] at hread
    refine { hb with transparentKeys := ?_ }
    exact hb.transparentKeys.foldl_upsert (keepsKey_ignore _) (preserves_ignore _ _)
      (encryptTransparentKeys_eq_ok hread hrows)

/-- No keys are stored yet. -/
structure Tables.NoKeys (tables : Tables) : Prop where
  mnemonics : tables.mnemonics = []
  legacySeeds : tables.legacySeeds = []
  saplingKeys : tables.saplingKeys = []
  transparentKeys : tables.transparentKeys = []

theorem Written.backs {start tables : Tables} {stored : Stored c} (hstart : start.NoKeys)
    (h : Written start tables stored) : Backs start tables stored := by
  induction h with
  | start =>
    refine ⟨?_, ?_, ?_, ?_, rfl, rfl⟩
    · exact hstart.mnemonics ▸ .nil
    · exact hstart.legacySeeds ▸ .nil
    · exact hstart.saplingKeys ▸ .nil
    · exact hstart.transparentKeys ▸ .nil
  | stored op _ hop ih => exact ih.perform hop
  | failed op _ _ ih => exact ih

/-! ## What the lookups return after a run -/

theorem decryptString_eq_ok {identities : List Identity} {ciphertext : List UInt8}
    {text : List Char} (h : c.decrypt identities ciphertext = .ok (Text.utf8 text)) :
    decryptString c identities ciphertext = .ok text := by
  have htext : Text.fromUtf8 (Text.utf8 text) = some text := Text.fromUtf8_eq_some.mpr rfl
  refine bind_eq_ok.mpr ⟨_, h, ?_⟩
  rw [htext]
  rfl

/-- A seed with a fingerprint is known by its bytes. -/
theorem fromSeed_eq_some {seed : List UInt8} {seedFp : SeedFingerprint}
    (h : (c.fromSeed seed).isSome = true) :
    c.fromSeed seed = some seedFp ↔ fingerprintBytes c seed = seedFp.bytes := by
  obtain ⟨⟨bytes, hbytes⟩, hfp⟩ := Option.isSome_iff_exists.mp h
  obtain ⟨bytes', hbytes'⟩ := seedFp
  rw [fingerprintBytes, hfp]
  simp

/-- A lookup under the key of a stored item returns a stored item with that key. -/
structure Returns (ks : KeyStore) (tables : Tables) (stored : Stored c) : Prop where
  mnemonic : ∀ m ∈ stored.mnemonics, ∀ seedFp, c.fromSeed (c.toSeed m) = some seedFp →
    ∃ m' ∈ stored.mnemonics, c.fromSeed (c.toSeed m') = some seedFp ∧
      ks.decryptMnemonic c seedFp = .ok (c.intoPhrase m') ∧
      ks.decryptSeed c seedFp = .ok (c.toSeed m')
  legacySeed : ∀ seed ∈ stored.legacySeeds, ∀ seedFp, c.fromSeed seed = some seedFp →
    ∃ seed' ∈ stored.legacySeeds, c.fromSeed seed' = some seedFp ∧
      ks.decryptLegacySeed c seedFp = .ok seed'
  saplingKey : ∀ k ∈ stored.saplingKeys, ∀ address,
    (c.decryptDiversifier (c.toDfvk k) address).isSome = true →
    ∃ k' ∈ stored.saplingKeys, (c.decryptDiversifier (c.toDfvk k') address).isSome = true ∧
      ks.decryptStandaloneSaplingKey c address = .ok (some k')
  transparentKey : tables.AddressesBound c → ∀ k ∈ stored.transparentKeys,
    tables.Links c (c.publicKey k) (c.fromPubkey (c.publicKey k)) →
    ∃ k' ∈ stored.transparentKeys, c.fromPubkey (c.publicKey k') = c.fromPubkey (c.publicKey k) ∧
      ks.decryptStandaloneTransparentKey c (c.fromPubkey (c.publicKey k)) = .ok k'

section

variable {start tables : Tables} {stored : Stored c} {ks : KeyStore}

theorem Backs.mnemonic (hc : c.Lawful) (hb : Backs start tables stored)
    (hdb : ks.db = .ok tables) (hids : Unlocks c ks.identities start.ageRecipients)
    {m : c.Mnemonic} (hm : m ∈ stored.mnemonics) {seedFp : SeedFingerprint}
    (hfp : c.fromSeed (c.toSeed m) = some seedFp) :
    ∃ m' ∈ stored.mnemonics, c.fromSeed (c.toSeed m') = some seedFp ∧
      ks.decryptMnemonic c seedFp = .ok (c.intoPhrase m') ∧
      ks.decryptSeed c seedFp = .ok (c.toSeed m') := by
  obtain ⟨row, hrow, hkey, m', hm', hheld, henc⟩ := hb.mnemonics.lookup hm
  have hbytes : fingerprintBytes c (c.toSeed m) = seedFp.bytes :=
    (fromSeed_eq_some (hc.seed m)).mp hfp
  have hfp' : c.fromSeed (c.toSeed m') = some seedFp := by
    rw [fromSeed_eq_some (hc.seed m'), hheld, hkey, hbytes]
  have hphrase : ks.decryptMnemonic c seedFp = .ok (c.intoPhrase m') := by
    rw [hbytes] at hrow
    refine decryptMnemonic_eq_ok.mpr ⟨hids.1, tables, row, hdb, hrow, ?_, m', hc.phrase m', hfp'⟩
    exact decryptString_eq_ok (hids.2 _ _ henc)
  refine ⟨m', hm', hfp', hphrase, ?_⟩
  exact decryptSeed_eq_ok.mpr ⟨c.intoPhrase m', m', hphrase, hc.phrase m', rfl⟩

theorem Backs.legacySeed (hb : Backs start tables stored)
    (hdb : ks.db = .ok tables) (hids : Unlocks c ks.identities start.ageRecipients)
    {seed : List UInt8} (hseed : seed ∈ stored.legacySeeds) {seedFp : SeedFingerprint}
    (hfp : c.fromSeed seed = some seedFp) :
    ∃ seed' ∈ stored.legacySeeds, c.fromSeed seed' = some seedFp ∧
      ks.decryptLegacySeed c seedFp = .ok seed' := by
  obtain ⟨row, hrow, hkey, seed', hseed', hsome, hheld, henc⟩ := hb.legacySeeds.lookup hseed
  have hbytes : fingerprintBytes c seed = seedFp.bytes := by
    rw [fingerprintBytes, hfp, Option.elim_some]
  have hfp' : c.fromSeed seed' = some seedFp := by
    rw [fromSeed_eq_some hsome, hheld, hkey, hbytes]
  rw [hbytes] at hrow
  exact ⟨seed', hseed', hfp', decryptLegacySeed_eq_ok.mpr
    ⟨hids.1, tables, row, hdb, hrow, hids.2 _ _ henc, hfp'⟩⟩

theorem Backs.saplingKey (hc : c.Lawful) (hb : Backs start tables stored)
    (hdb : ks.db = .ok tables) (hids : Unlocks c ks.identities start.ageRecipients)
    {k : c.ExtendedSpendingKey} (hk : k ∈ stored.saplingKeys) {address : c.PaymentAddress}
    (howns : (c.decryptDiversifier (c.toDfvk k) address).isSome = true) :
    ∃ k' ∈ stored.saplingKeys, (c.decryptDiversifier (c.toDfvk k') address).isSome = true ∧
      ks.decryptStandaloneSaplingKey c address = .ok (some k') := by
  obtain ⟨own, hown, hdfvk⟩ := List.mem_map.mp (hb.saplingKeys.kept k hk)
  -- The row of `k` owns the address, so the scan stops at some row.
  have hsome : (tables.saplingKeys.find? (rowOwns c address)).isSome = true := by
    rw [List.find?_isSome]
    exact ⟨own, hown, by rw [rowOwns_of_key hc hdfvk.symm]; exact howns⟩
  obtain ⟨row, hrow⟩ := Option.isSome_iff_exists.mp hsome
  obtain ⟨k', hk', hheld, henc⟩ := hb.saplingKeys.held row (List.mem_of_find?_eq_some hrow)
  have howns' : (c.decryptDiversifier (c.toDfvk k') address).isSome = true := by
    rw [← rowOwns_of_key hc hheld]
    exact List.find?_some hrow
  have hextsk : decryptStandaloneSaplingExtsk c ks.identities row.encryptedSaplingExtsk = .ok k' :=
    decryptStandaloneSaplingExtsk_eq_ok.mpr ⟨_, hids.2 _ _ henc, hc.extsk k'⟩
  exact ⟨k', hk', howns', decryptSaplingKey_eq_ok.mpr
    ⟨hids.1, tables, row, hdb, hrow, hextsk, hheld⟩⟩

theorem Backs.transparentKey (hc : c.Lawful) (hb : Backs start tables stored)
    (hdb : ks.db = .ok tables) (hids : Unlocks c ks.identities start.ageRecipients)
    (hbound : tables.AddressesBound c) {k : c.SecretKey} (hk : k ∈ stored.transparentKeys)
    (hlinks : tables.Links c (c.publicKey k) (c.fromPubkey (c.publicKey k))) :
    ∃ k' ∈ stored.transparentKeys, c.fromPubkey (c.publicKey k') = c.fromPubkey (c.publicKey k) ∧
      ks.decryptStandaloneTransparentKey c (c.fromPubkey (c.publicKey k)) = .ok k' := by
  obtain ⟨own, hown, hpubkey⟩ := List.mem_map.mp (hb.transparentKeys.kept k hk)
  have hmem : own ∈ tables.joined (c.encodeAddress (c.fromPubkey (c.publicKey k))) :=
    mem_joined.mpr ⟨hown, by rw [hpubkey]; exact hlinks⟩
  obtain ⟨row, hrow⟩ := Option.isSome_iff_exists.mp
    (List.isSome_head?.mpr (List.ne_nil_of_mem hmem))
  obtain ⟨hrowmem, hrowlinks⟩ := mem_joined.mp (List.mem_of_mem_head? hrow)
  obtain ⟨k', hk', hheld, henc⟩ := hb.transparentKeys.held row hrowmem
  have haddress : c.fromPubkey (c.publicKey k') = c.fromPubkey (c.publicKey k) := by
    rw [← hheld] at hrowlinks
    exact Tables.Links.fromPubkey hc hrowlinks hbound
  have hsk : decryptStandaloneTransparentPrivkey c ks.identities row.encryptedTransparentPrivkey =
      .ok k' :=
    decryptStandaloneTransparentPrivkey_eq_ok.mpr ⟨_, hids.2 _ _ henc, hc.secretKey k'⟩
  exact ⟨k', hk', haddress, decryptTransparentKey_eq_ok.mpr
    ⟨hids.1, tables, row, hdb, hrow, hsk, hheld⟩⟩

/-- After a run of store operations a lookup under the key of a stored item returns a
    stored item with that key. -/
theorem returns_stored (hc : c.Lawful) (hstart : start.NoKeys) (hw : Written start tables stored)
    (hdb : ks.db = .ok tables) (hids : Unlocks c ks.identities start.ageRecipients) :
    Returns ks tables stored where
  mnemonic _ hm _ hfp := (hw.backs hstart).mnemonic hc hdb hids hm hfp
  legacySeed _ hseed _ hfp := (hw.backs hstart).legacySeed hdb hids hseed hfp
  saplingKey _ hk _ howns := (hw.backs hstart).saplingKey hc hdb hids hk howns
  transparentKey hbound _ hk hlinks := (hw.backs hstart).transparentKey hc hdb hids hbound hk hlinks

end

/-- A lookup returns only what was asked for, whatever the tables hold; the lookup of a
    transparent key relies on the `addresses` row. After a run of store operations
    every stored item can be looked up. -/
theorem decrypt_binds (hc : c.Lawful) (ks : KeyStore) :
    (∀ seedFp phrase, ks.decryptMnemonic c seedFp = .ok phrase →
      ∃ mnemonic, c.fromPhrase phrase = .ok mnemonic ∧
        c.fromSeed (c.toSeed mnemonic) = some seedFp) ∧
    (∀ seedFp seed, ks.decryptSeed c seedFp = .ok seed → c.fromSeed seed = some seedFp) ∧
    (∀ seedFp seed, ks.decryptLegacySeed c seedFp = .ok seed → c.fromSeed seed = some seedFp) ∧
    (∀ address extsk, ks.decryptStandaloneSaplingKey c address = .ok (some extsk) →
      (c.decryptDiversifier (c.toDfvk extsk) address).isSome = true) ∧
    (∀ address secretKey, ks.decryptStandaloneTransparentKey c address = .ok secretKey →
      ∃ tables, ks.db = .ok tables ∧ tables.Links c (c.publicKey secretKey) address ∧
        (tables.AddressesBound c → c.fromPubkey (c.publicKey secretKey) = address)) ∧
    (∀ start tables, ∀ stored : Stored c, start.NoKeys → Written start tables stored →
      ks.db = .ok tables → Unlocks c ks.identities start.ageRecipients →
      Returns ks tables stored) := by
  refine ⟨fun _ _ => decryptMnemonic_bound, fun _ _ => decryptSeed_bound,
    fun _ _ => decryptLegacySeed_bound, fun _ _ => decryptSaplingKey_bound hc, ?_, ?_⟩
  · intro address secretKey h
    obtain ⟨tables, hdb, hlinks⟩ := decryptTransparentKey_linked h
    exact ⟨tables, hdb, hlinks, hlinks.fromPubkey hc⟩
  · intro start tables stored hstart hw hdb hids
    exact returns_stored hc hstart hw hdb hids

/-! ## A keystore with one item of each kind -/

namespace OneOfEach

abbrev Bytes (n : ℕ) : Type := { bytes : List UInt8 // bytes.length = n }

def bytesOf (n : ℕ) (bytes : List UInt8) : Option (Bytes n) :=
  if h : bytes.length = n then some ⟨bytes, h⟩ else none

theorem bytesOf_val {n : ℕ} (b : Bytes n) : bytesOf n b.val = some b :=
  dif_pos b.property

def charOf (b : UInt8) : Char := Char.ofNat b.toNat

def byteOf (char : Char) : UInt8 := UInt8.ofNat char.toNat

theorem byteOf_charOf (b : UInt8) : byteOf (charOf b) = b := by
  rw [byteOf, charOf, Text.toNat_charOf, UInt8.ofNat_toNat]

def intoPhrase (mnemonic : Bytes 32) : List Char := mnemonic.val.map charOf

def fromPhrase (phrase : List Char) : Except String (Bytes 32) :=
  match bytesOf 32 (phrase.map byteOf) with
  | some mnemonic => .ok mnemonic
  | none => .error "invalid word count"

theorem fromPhrase_intoPhrase (m : Bytes 32) : fromPhrase (intoPhrase m) = .ok m := by
  have hbytes : (intoPhrase m).map byteOf = m.val := by
    simp [intoPhrase, List.map_map, Function.comp_def, byteOf_charOf]
  rw [fromPhrase, hbytes, bytesOf_val]

def fromSeed (seed : List UInt8) : Option SeedFingerprint :=
  if h : seed.length = 32 then some ⟨seed, h⟩ else none

theorem fromSeed_isSome (m : Bytes 32) : (fromSeed m.val).isSome = true := by
  rw [fromSeed, dif_pos m.property, Option.isSome_some]

def encodeAddress : TransparentAddress → String
  | .PublicKeyHash hash => String.ofList ('1' :: List.replicate hash.toNat 'a')
  | .ScriptHash hash => String.ofList ('3' :: List.replicate hash.toNat 'a')

/-- Seeds of 32 bytes are their own fingerprints, and a key is its public key. A
    ciphertext is a mark and the plaintext. -/
def crates : Crates where
  Recipient := String
  Mnemonic := Bytes 32
  ExtendedSpendingKey := Bytes 128
  DiversifiableFullViewingKey := Bytes 128
  PaymentAddress := List UInt8
  SecretKey := UInt8
  PublicKey := UInt8
  readRecipients := .ok
  encrypt _ _ plaintext := .ok (166 :: plaintext)
  decrypt
    | _ :: _, 166 :: plaintext => .ok plaintext
    | _, _ => .error "No matching keys found"
  fromPhrase := fromPhrase
  intoPhrase := intoPhrase
  toSeed mnemonic := mnemonic.val
  fromSeed := fromSeed
  extskToBytes key := key.val
  extskFromBytes := bytesOf 128
  toDfvk key := key
  dfvkToBytes key := key.val
  dfvkFromBytes := bytesOf 128
  decryptDiversifier dfvk address := if dfvk.val.take 4 = address then some 0 else none
  skFromSlice
    | [b] => .ok b
    | _ => .error "malformed or out-of-range secret key"
  secretBytes key := [key]
  publicKey key := key
  serialize key := [key]
  fromPubkey key := .PublicKeyHash (BitVec.ofNat 160 key.toNat)
  encodeAddress := encodeAddress

theorem encodeAddress_injective : Function.Injective encodeAddress := by
  intro a b h
  cases a <;> cases b <;> rw [encodeAddress, encodeAddress, String.ofList_inj, List.cons.injEq] at h
  · have hlen := congrArg List.length h.2
    rw [List.length_replicate, List.length_replicate] at hlen
    rw [BitVec.eq_of_toNat_eq hlen]
  · exact absurd h.1 (by decide)
  · exact absurd h.1 (by decide)
  · have hlen := congrArg List.length h.2
    rw [List.length_replicate, List.length_replicate] at hlen
    rw [BitVec.eq_of_toNat_eq hlen]

theorem lawful : crates.Lawful where
  phrase := fromPhrase_intoPhrase
  seed := fromSeed_isSome
  extsk k := bytesOf_val k
  dfvk d := bytesOf_val d
  dfvk_length d := d.property
  secretKey _ := rfl
  serialize _ _ h := (List.cons.inj h).1
  encodeAddress := encodeAddress_injective

def start : Tables := ⟨["age1recipient"], [], [], [], [], [⟨some [1], some "1a"⟩]⟩

/-- One operation of each kind, and a batch that stores its key twice. -/
def ops : List (StoreOp crates) :=
  [.mnemonic (⟨List.replicate 32 7, rfl⟩ : Bytes 32) .Confirmed 0,
    .legacySeed (List.replicate 32 8) 0,
    .saplingKey (⟨List.replicate 128 9, rfl⟩ : Bytes 128) 0,
    .transparentKeys [((1 : UInt8), 0), ((1 : UInt8), 1)]]

def tables : Tables := (StoreOp.run ops (start, .empty)).1

def stored : Stored crates := (StoreOp.run ops (start, .empty)).2

theorem unlocks : Unlocks crates [⟨"AGE-SECRET-KEY-1"⟩] start.ageRecipients := by
  refine ⟨by decide, ?_⟩
  rintro plaintext ciphertext ⟨parsed, coins, -, h⟩
  cases h
  rfl

theorem noKeys : start.NoKeys := ⟨rfl, rfl, rfl, rfl⟩

/-- Everything that was stored can be looked up. -/
theorem decrypt_binds_stored : Returns ⟨[⟨"AGE-SECRET-KEY-1"⟩], .ok tables⟩ tables stored :=
  (decrypt_binds lawful ⟨[⟨"AGE-SECRET-KEY-1"⟩], .ok tables⟩).2.2.2.2.2 start tables stored
    noKeys (Written.start.run ops) rfl unlocks

/-- The row of the imported key after its address was edited. -/
def edited : Tables := { tables with addresses := [⟨some [1], some "1aa"⟩] }

/-- The lookup of the other address returns the key, which is not the key of that
    address. -/
theorem edited_address_row :
    (⟨[⟨"AGE-SECRET-KEY-1"⟩], .ok edited⟩ : KeyStore).decryptStandaloneTransparentKey crates
      (.PublicKeyHash 2) = .ok (1 : UInt8) ∧
    crates.fromPubkey (crates.publicKey (1 : UInt8)) ≠ .PublicKeyHash 2 := by
  refine ⟨rfl, ?_⟩
  decide

end OneOfEach

end Zallet.Keystore
