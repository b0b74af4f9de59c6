import Zallet.Chain.Types
import Zallet.Common.KeyedTable
import Zallet.Common.Loop
import Zallet.Common.Text
import Zallet.Keystore.Relock

/-!
# Stored key material

The lookups of `KeyStore` that decrypt key material
(`zallet-core/src/components/keystore.rs`, lines 923–1019 and 1043–1161, with the
helpers of lines 1335–1468), over the keystore's tables and the wallet's `addresses`
table, with which the lookup of a transparent key joins.

`Crates` is what the keystore uses of `age`, `bip0039`, `zip32`, `sapling`,
`secp256k1` and `zcash_keys`. The randomness of an encryption is an argument.

* `decryptMnemonic_bound`, `decryptSeed_bound`, `decryptLegacySeed_bound`,
  `decryptSaplingKey_bound`: whatever the tables hold, these lookups return only what
  was asked for.
* `decryptTransparentKey_linked`: the lookup of a transparent key returns the key that
  the `addresses` table links to the address, which is the key of the address where
  that row is bound to it.
-/

namespace Zallet.Keystore

open Zallet.Chain (TransparentAddress)
open Zallet.Common Zallet.Common.KeyedTable Zallet.Common.Loop

/-! ## Errors -/

/-- `ErrorKind` (error.rs, lines 35–48); the payload of `RpcCli` is its text. -/
inductive ErrorKind
  | Generic
  | Init
  | Chain
  | RpcCli (text : String)
  | Sync
  deriving DecidableEq

/-- `Error` (error.rs, lines 71–73): its kind and the text of its source. -/
structure Error where
  kind : ErrorKind
  source : Option String
  deriving DecidableEq

/-- `ErrorKind::context`. -/
def ErrorKind.context (kind : ErrorKind) (source : String) : Error := ⟨kind, some source⟩

/-- The message `err-wallet-locked`. -/
def walletLocked : String := "Wallet is locked"

/-- The message `err-keystore-key-material-mismatch`. -/
def keyMaterialMismatch : String :=
  "Decrypted key material does not match the fingerprint it is stored under. The wallet\n" ++
    "database is corrupted or has been tampered with."

/-! ## Keys and tables -/

structure SeedFingerprint where
  bytes : List UInt8
  length_eq : bytes.length = 32
  deriving DecidableEq

inductive BackupStatus
  | Confirmed
  | Unconfirmed
  deriving DecidableEq

/-- `BackupStatus::is_confirmed` (lines 173–177). -/
def BackupStatus.isConfirmed : BackupStatus → Bool
  | Confirmed => true
  | Unconfirmed => false

/-- The types and functions of other crates. `fromPhrase` and `intoPhrase` are those of
    `Mnemonic::<English>`, `toSeed` is `to_seed("")`, and `encodeAddress` encodes for
    the wallet's network. -/
structure Crates where
  Recipient : Type
  Mnemonic : Type
  ExtendedSpendingKey : Type
  DiversifiableFullViewingKey : Type
  PaymentAddress : Type
  SecretKey : Type
  PublicKey : Type
  readRecipients : List String → Except String (List Recipient)
  encrypt : List Recipient → ℕ → List UInt8 → Except String (List UInt8)
  decrypt : List Identity → List UInt8 → Except String (List UInt8)
  fromPhrase : List Char → Except String Mnemonic
  intoPhrase : Mnemonic → List Char
  toSeed : Mnemonic → List UInt8
  fromSeed : List UInt8 → Option SeedFingerprint
  extskToBytes : ExtendedSpendingKey → List UInt8
  extskFromBytes : List UInt8 → Option ExtendedSpendingKey
  toDfvk : ExtendedSpendingKey → DiversifiableFullViewingKey
  dfvkToBytes : DiversifiableFullViewingKey → List UInt8
  dfvkFromBytes : List UInt8 → Option DiversifiableFullViewingKey
  decryptDiversifier : DiversifiableFullViewingKey → PaymentAddress → Option ℕ
  skFromSlice : List UInt8 → Except String SecretKey
  secretBytes : SecretKey → List UInt8
  publicKey : SecretKey → PublicKey
  serialize : PublicKey → List UInt8
  fromPubkey : PublicKey → TransparentAddress
  encodeAddress : TransparentAddress → String

/-- What the keystore relies on of these crates. -/
structure Crates.Lawful (c : Crates) : Prop where
  phrase : ∀ m, c.fromPhrase (c.intoPhrase m) = .ok m
  seed : ∀ m, (c.fromSeed (c.toSeed m)).isSome = true
  extsk : ∀ k, c.extskFromBytes (c.extskToBytes k) = some k
  dfvk : ∀ d, c.dfvkFromBytes (c.dfvkToBytes d) = some d
  dfvk_length : ∀ d, (c.dfvkToBytes d).length = 128
  secretKey : ∀ k, c.skFromSlice (c.secretBytes k) = .ok k
  serialize : Function.Injective c.serialize
  encodeAddress : Function.Injective c.encodeAddress

/-- A row of `ext_zallet_keystore_mnemonics`. -/
structure MnemonicRow where
  hdSeedFingerprint : List UInt8
  encryptedMnemonic : List UInt8
  backupConfirmed : Bool
  deriving DecidableEq

/-- A row of `ext_zallet_keystore_legacy_seeds`. -/
structure LegacySeedRow where
  hdSeedFingerprint : List UInt8
  encryptedLegacySeed : List UInt8
  deriving DecidableEq

/-- A row of `ext_zallet_keystore_standalone_sapling_keys`. -/
structure SaplingKeyRow where
  dfvk : List UInt8
  encryptedSaplingExtsk : List UInt8
  deriving DecidableEq

/-- A row of `ext_zallet_keystore_standalone_transparent_keys`. -/
structure TransparentKeyRow where
  pubkey : List UInt8
  encryptedTransparentPrivkey : List UInt8
  deriving DecidableEq

/-- The two columns of the wallet's `addresses` table that the keystore reads. -/
structure AddressRow where
  importedTransparentReceiverPubkey : Option (List UInt8)
  cachedTransparentReceiverAddress : Option String
  deriving DecidableEq

structure Tables where
  ageRecipients : List String
  mnemonics : List MnemonicRow
  legacySeeds : List LegacySeedRow
  saplingKeys : List SaplingKeyRow
  transparentKeys : List TransparentKeyRow
  addresses : List AddressRow
  deriving DecidableEq

/-- A keystore: the identities in memory, and the tables or the error of reading them. -/
structure KeyStore where
  identities : List Identity
  db : Except Error Tables

/-! ## Decrypting -/

section

variable (c : Crates)

/-- `map_err(|e| ErrorKind::Generic.context(e))`. -/
def generic {α : Type} : Except String α → Except Error α :=
  Except.mapError ErrorKind.Generic.context

/-- A `query_row`: the first row, or `QueryReturnedNoRows`. -/
def queryRow {α : Type} : Option α → Except Error α
  | some row => .ok row
  | none => .error (ErrorKind.Generic.context "Query returned no rows")

/-- `seed_matches_fingerprint` (lines 1342–1345). -/
def seedMatchesFingerprint (seed : List UInt8) (seedFp : SeedFingerprint) : Bool :=
  (c.fromSeed seed).any fun fp => decide (fp.bytes = seedFp.bytes)

/-- `mnemonic_matches_fingerprint` (lines 1351–1361). -/
def mnemonicMatchesFingerprint (mnemonic : List Char) (seedFp : SeedFingerprint) :
    Except Error Bool := do
  let parsed ← generic (c.fromPhrase mnemonic)
  pure (seedMatchesFingerprint c (c.toSeed parsed) seedFp)

/-- `decrypt_string` (lines 1363–1386). -/
def decryptString (identities : List Identity) (ciphertext : List UInt8) :
    Except String (List Char) := do
  let bytes ← c.decrypt identities ciphertext
  match Text.fromUtf8 bytes with
  | some text => pure text
  | none => throw "stream did not contain valid UTF-8"

/-- `decrypt_standalone_sapling_extsk` (lines 1428–1454). -/
def decryptStandaloneSaplingExtsk (identities : List Identity) (ciphertext : List UInt8) :
    Except Error c.ExtendedSpendingKey := do
  let bytes ← generic (c.decrypt identities ciphertext)
  match c.extskFromBytes bytes with
  | some extsk => pure extsk
  | none => throw (ErrorKind.Generic.context "Invalid Sapling extended spending key")

/-- `decrypt_standalone_transparent_privkey` (lines 1457–1468). -/
def decryptStandaloneTransparentPrivkey (identities : List Identity) (ciphertext : List UInt8) :
    Except Error c.SecretKey := do
  let secret ← generic (c.decrypt identities ciphertext)
  generic (c.skFromSlice secret)

/-- The check that some identities are in memory. -/
def KeyStore.unlockedIdentities (ks : KeyStore) : Except Error (List Identity) :=
  if ks.identities.isEmpty then .error (ErrorKind.Generic.context walletLocked) else .ok ks.identities

/-- `KeyStore::decrypt_mnemonic` (lines 924–960). -/
def KeyStore.decryptMnemonic (ks : KeyStore) (seedFp : SeedFingerprint) :
    Except Error (List Char) := do
  let identities ← ks.unlockedIdentities
  let tables ← ks.db
  let row ← queryRow (lookup MnemonicRow.hdSeedFingerprint seedFp.bytes tables.mnemonics)
  let mnemonic ← generic (decryptString c identities row.encryptedMnemonic)
  let matched ← mnemonicMatchesFingerprint c mnemonic seedFp
  if matched then pure mnemonic else throw (ErrorKind.Generic.context keyMaterialMismatch)

/-- `KeyStore::decrypt_seed` (lines 963–975). -/
def KeyStore.decryptSeed (ks : KeyStore) (seedFp : SeedFingerprint) :
    Except Error (List UInt8) := do
  let mnemonic ← ks.decryptMnemonic c seedFp
  let parsed ← generic (c.fromPhrase mnemonic)
  pure (c.toSeed parsed)

/-- `KeyStore::decrypt_legacy_seed` (lines 983–1019). -/
def KeyStore.decryptLegacySeed (ks : KeyStore) (seedFp : SeedFingerprint) :
    Except Error (List UInt8) := do
  let identities ← ks.unlockedIdentities
  let tables ← ks.db
  let row ← queryRow (lookup LegacySeedRow.hdSeedFingerprint seedFp.bytes tables.legacySeeds)
  let legacySeed ← generic (c.decrypt identities row.encryptedLegacySeed)
  if seedMatchesFingerprint c legacySeed seedFp then pure legacySeed
  else throw (ErrorKind.Generic.context keyMaterialMismatch)

/-- The viewing key of a row, if its column holds one (lines 1081–1086). -/
def rowDfvk (row : SaplingKeyRow) : Option c.DiversifiableFullViewingKey :=
  if row.dfvk.length = 128 then c.dfvkFromBytes row.dfvk else none

/-- The row holds a viewing key that owns the address (lines 1087–1089). -/
def rowOwns (address : c.PaymentAddress) (row : SaplingKeyRow) : Bool :=
  (rowDfvk c row).any fun dfvk => (c.decryptDiversifier dfvk address).isSome

/-- `KeyStore::decrypt_standalone_sapling_key` (lines 1050–1111). -/
def KeyStore.decryptStandaloneSaplingKey (ks : KeyStore) (address : c.PaymentAddress) :
    Except Error (Option c.ExtendedSpendingKey) := do
  let identities ← ks.unlockedIdentities
  let tables ← ks.db
  match tables.saplingKeys.find? (rowOwns c address) with
  | none => pure none
  | some row =>
    let extsk ← decryptStandaloneSaplingExtsk c identities row.encryptedSaplingExtsk
    if c.dfvkToBytes (c.toDfvk extsk) = row.dfvk then pure (some extsk)
    else throw (ErrorKind.Generic.context keyMaterialMismatch)

/-- The rows of `transparentKeys` joined with the rows of `addresses` that carry the
    address (lines 1128–1131). A `NULL` joins with nothing. -/
def Tables.joined (tables : Tables) (address : String) : List TransparentKeyRow :=
  tables.transparentKeys.flatMap fun key =>
    (tables.addresses.filter fun row =>
      decide (row.importedTransparentReceiverPubkey = some key.pubkey ∧
        row.cachedTransparentReceiverAddress = some address)).map fun _ => key

/-- `KeyStore::decrypt_standalone_transparent_key` (lines 1114–1161). -/
def KeyStore.decryptStandaloneTransparentKey (ks : KeyStore) (address : TransparentAddress) :
    Except Error c.SecretKey := do
  let identities ← ks.unlockedIdentities
  let tables ← ks.db
  let row ← queryRow (tables.joined (c.encodeAddress address)).head?
  let secretKey ← decryptStandaloneTransparentPrivkey c identities row.encryptedTransparentPrivkey
  if c.serialize (c.publicKey secretKey) = row.pubkey then pure secretKey
  else throw (ErrorKind.Generic.context keyMaterialMismatch)

end

/-! ## What the lookups return -/

variable {c : Crates}

theorem generic_eq_ok {α : Type} {x : Except String α} {a : α} :
    generic x = .ok a ↔ x = .ok a :=
  mapError_eq_ok

theorem queryRow_eq_ok {α : Type} {row : Option α} {r : α} :
    queryRow row = .ok r ↔ row = some r := by
  cases row <;> simp [queryRow]

/-- A check of the decrypted material. -/
theorem check_eq_ok {α : Type} {p : Prop} [Decidable p] {e : Error} {a b : α} :
    (if p then pure a else throw e : Except Error α) = .ok b ↔ p ∧ a = b := by
  by_cases h : p
  · rw [if_pos h]
    simp [h, pure, Except.pure]
  · rw [if_neg h]
    simp [h, throw, throwThe, MonadExceptOf.throw]

theorem unlockedIdentities_eq_ok {ks : KeyStore} {identities : List Identity} :
    ks.unlockedIdentities = .ok identities ↔ ks.identities ≠ [] ∧ identities = ks.identities := by
  unfold KeyStore.unlockedIdentities
  cases ks.identities with
  | nil => simp
  | cons identity rest => simp [eq_comm]

theorem seedMatchesFingerprint_iff {seed : List UInt8} {seedFp : SeedFingerprint} :
    seedMatchesFingerprint c seed seedFp = true ↔ c.fromSeed seed = some seedFp := by
  unfold seedMatchesFingerprint
  cases c.fromSeed seed with
  | none => simp
  | some fp =>
    obtain ⟨bytes, hbytes⟩ := fp
    obtain ⟨bytes', hbytes'⟩ := seedFp
    simp

theorem mnemonicMatchesFingerprint_eq_ok {mnemonic : List Char} {seedFp : SeedFingerprint} :
    mnemonicMatchesFingerprint c mnemonic seedFp = .ok true ↔
      ∃ parsed, c.fromPhrase mnemonic = .ok parsed ∧ c.fromSeed (c.toSeed parsed) = some seedFp := by
  simp only [mnemonicMatchesFingerprint, bind_eq_ok, generic_eq_ok, pure, Except.pure,
    Except.ok.injEq, seedMatchesFingerprint_iff]

/-- When `decrypt_mnemonic` succeeds, and with what. -/
theorem decryptMnemonic_eq_ok {ks : KeyStore} {seedFp : SeedFingerprint} {phrase : List Char} :
    ks.decryptMnemonic c seedFp = .ok phrase ↔
      ks.identities ≠ [] ∧ ∃ tables row, ks.db = .ok tables ∧
        lookup MnemonicRow.hdSeedFingerprint seedFp.bytes tables.mnemonics = some row ∧
        decryptString c ks.identities row.encryptedMnemonic = .ok phrase ∧
        ∃ parsed, c.fromPhrase phrase = .ok parsed ∧ c.fromSeed (c.toSeed parsed) = some seedFp := by
  simp only [KeyStore.decryptMnemonic, bind_eq_ok, unlockedIdentities_eq_ok, queryRow_eq_ok,
    generic_eq_ok, check_eq_ok]
  constructor
  · rintro ⟨_, ⟨hids, rfl⟩, tables, hdb, row, hrow, mnemonic, hdec, matched, hmatch, hm, rfl⟩
    subst hm
    exact ⟨hids, tables, row, hdb, hrow, hdec, mnemonicMatchesFingerprint_eq_ok.mp hmatch⟩
  · rintro ⟨hids, tables, row, hdb, hrow, hdec, hparsed⟩
    exact ⟨_, ⟨hids, rfl⟩, tables, hdb, row, hrow, phrase, hdec, true,
      mnemonicMatchesFingerprint_eq_ok.mpr hparsed, rfl, rfl⟩

/-- `decrypt_mnemonic` returns only a phrase with the fingerprint asked for. -/
theorem decryptMnemonic_bound {ks : KeyStore} {seedFp : SeedFingerprint} {phrase : List Char}
    (h : ks.decryptMnemonic c seedFp = .ok phrase) :
    ∃ mnemonic, c.fromPhrase phrase = .ok mnemonic ∧
      c.fromSeed (c.toSeed mnemonic) = some seedFp := by
  obtain ⟨-, -, -, -, -, -, hparsed⟩ := decryptMnemonic_eq_ok.mp h
  exact hparsed

theorem decryptSeed_eq_ok {ks : KeyStore} {seedFp : SeedFingerprint} {seed : List UInt8} :
    ks.decryptSeed c seedFp = .ok seed ↔
      ∃ phrase mnemonic, ks.decryptMnemonic c seedFp = .ok phrase ∧
        c.fromPhrase phrase = .ok mnemonic ∧ c.toSeed mnemonic = seed := by
  simp only [KeyStore.decryptSeed, bind_eq_ok, generic_eq_ok, pure, Except.pure, Except.ok.injEq]
  constructor
  · rintro ⟨phrase, hphrase, mnemonic, hmnemonic, hseed⟩
    exact ⟨phrase, mnemonic, hphrase, hmnemonic, hseed⟩
  · rintro ⟨phrase, mnemonic, hphrase, hmnemonic, hseed⟩
    exact ⟨phrase, hphrase, mnemonic, hmnemonic, hseed⟩

/-- `decrypt_seed` returns only a seed with the fingerprint asked for. -/
theorem decryptSeed_bound {ks : KeyStore} {seedFp : SeedFingerprint} {seed : List UInt8}
    (h : ks.decryptSeed c seedFp = .ok seed) : c.fromSeed seed = some seedFp := by
  obtain ⟨phrase, mnemonic, hphrase, hmnemonic, rfl⟩ := decryptSeed_eq_ok.mp h
  obtain ⟨mnemonic', hmnemonic', hfp⟩ := decryptMnemonic_bound hphrase
  rw [hmnemonic, Except.ok.injEq] at hmnemonic'
  rwa [hmnemonic']

theorem decryptLegacySeed_eq_ok {ks : KeyStore} {seedFp : SeedFingerprint} {seed : List UInt8} :
    ks.decryptLegacySeed c seedFp = .ok seed ↔
      ks.identities ≠ [] ∧ ∃ tables row, ks.db = .ok tables ∧
        lookup LegacySeedRow.hdSeedFingerprint seedFp.bytes tables.legacySeeds = some row ∧
        c.decrypt ks.identities row.encryptedLegacySeed = .ok seed ∧
        c.fromSeed seed = some seedFp := by
  simp only [KeyStore.decryptLegacySeed, bind_eq_ok, unlockedIdentities_eq_ok, queryRow_eq_ok,
    generic_eq_ok, check_eq_ok, seedMatchesFingerprint_iff]
  constructor
  · rintro ⟨_, ⟨hids, rfl⟩, tables, hdb, row, hrow, legacySeed, hdec, hfp, rfl⟩
    exact ⟨hids, tables, row, hdb, hrow, hdec, hfp⟩
  · rintro ⟨hids, tables, row, hdb, hrow, hdec, hfp⟩
    exact ⟨_, ⟨hids, rfl⟩, tables, hdb, row, hrow, seed, hdec, hfp, rfl⟩

/-- `decrypt_legacy_seed` returns only a seed with the fingerprint asked for. -/
theorem decryptLegacySeed_bound {ks : KeyStore} {seedFp : SeedFingerprint} {seed : List UInt8}
    (h : ks.decryptLegacySeed c seedFp = .ok seed) : c.fromSeed seed = some seedFp := by
  obtain ⟨-, -, -, -, -, -, hfp⟩ := decryptLegacySeed_eq_ok.mp h
  exact hfp

theorem decryptStandaloneSaplingExtsk_eq_ok {identities : List Identity} {ciphertext : List UInt8}
    {extsk : c.ExtendedSpendingKey} :
    decryptStandaloneSaplingExtsk c identities ciphertext = .ok extsk ↔
      ∃ bytes, c.decrypt identities ciphertext = .ok bytes ∧ c.extskFromBytes bytes = some extsk := by
  simp only [decryptStandaloneSaplingExtsk, bind_eq_ok, generic_eq_ok]
  refine exists_congr fun bytes => and_congr_right fun _ => ?_
  cases c.extskFromBytes bytes with
  | none => simp [throw, throwThe, MonadExceptOf.throw]
  | some k => simp [pure, Except.pure]

theorem decryptSaplingKey_eq_ok {ks : KeyStore} {address : c.PaymentAddress}
    {extsk : c.ExtendedSpendingKey} :
    ks.decryptStandaloneSaplingKey c address = .ok (some extsk) ↔
      ks.identities ≠ [] ∧ ∃ tables row, ks.db = .ok tables ∧
        tables.saplingKeys.find? (rowOwns c address) = some row ∧
        decryptStandaloneSaplingExtsk c ks.identities row.encryptedSaplingExtsk = .ok extsk ∧
        c.dfvkToBytes (c.toDfvk extsk) = row.dfvk := by
  simp only [KeyStore.decryptStandaloneSaplingKey, bind_eq_ok, unlockedIdentities_eq_ok]
  constructor
  · rintro ⟨_, ⟨hids, rfl⟩, tables, hdb, h⟩
    cases hrow : tables.saplingKeys.find? (rowOwns c address) with
    | none =>
      rw [hrow] at h
      cases h
    | some row =>
      rw [hrow] at h
      obtain ⟨k, hk, h⟩ := bind_eq_ok.mp h
      obtain ⟨hdfvk, hsome⟩ := check_eq_ok.mp h
      rw [Option.some.injEq] at hsome
      subst hsome
      exact ⟨hids, tables, row, hdb, hrow, hk, hdfvk⟩
  · rintro ⟨hids, tables, row, hdb, hrow, hk, hdfvk⟩
    refine ⟨_, ⟨hids, rfl⟩, tables, hdb, ?_⟩
    rw [hrow]
    exact bind_eq_ok.mpr ⟨extsk, hk, check_eq_ok.mpr ⟨hdfvk, rfl⟩⟩

/-- The row of a key owns the addresses that the key owns. -/
theorem rowOwns_of_key (hc : c.Lawful) {address : c.PaymentAddress} {extsk : c.ExtendedSpendingKey}
    {row : SaplingKeyRow} (hrow : c.dfvkToBytes (c.toDfvk extsk) = row.dfvk) :
    rowOwns c address row = (c.decryptDiversifier (c.toDfvk extsk) address).isSome := by
  have hdfvk : rowDfvk c row = some (c.toDfvk extsk) := by
    rw [rowDfvk, ← hrow, if_pos (hc.dfvk_length _), hc.dfvk]
  rw [rowOwns, hdfvk, Option.any_some]

/-- `decrypt_standalone_sapling_key` returns only a key that owns the address. -/
theorem decryptSaplingKey_bound (hc : c.Lawful) {ks : KeyStore} {address : c.PaymentAddress}
    {extsk : c.ExtendedSpendingKey}
    (h : ks.decryptStandaloneSaplingKey c address = .ok (some extsk)) :
    (c.decryptDiversifier (c.toDfvk extsk) address).isSome = true := by
  obtain ⟨-, tables, row, -, hrow, -, hdfvk⟩ := decryptSaplingKey_eq_ok.mp h
  rw [← rowOwns_of_key hc hdfvk]
  exact List.find?_some hrow

/-- The `addresses` table has a row that links the key to the address. -/
def Tables.Links (tables : Tables) (c : Crates) (pubkey : c.PublicKey)
    (address : TransparentAddress) : Prop :=
  ⟨some (c.serialize pubkey), some (c.encodeAddress address)⟩ ∈ tables.addresses

/-- Every imported key of the `addresses` table is the key of its row's address. -/
def Tables.AddressesBound (tables : Tables) (c : Crates) : Prop :=
  ∀ pubkey address, ⟨some pubkey, some address⟩ ∈ tables.addresses →
    ∃ key, c.serialize key = pubkey ∧ c.encodeAddress (c.fromPubkey key) = address

theorem mem_joined {tables : Tables} {address : String} {row : TransparentKeyRow} :
    row ∈ tables.joined address ↔
      row ∈ tables.transparentKeys ∧ ⟨some row.pubkey, some address⟩ ∈ tables.addresses := by
  simp only [Tables.joined, List.mem_flatMap, List.mem_map, List.mem_filter, decide_eq_true_eq]
  constructor
  · rintro ⟨key, hkey, ⟨pubkey, cached⟩, ⟨hmem, hpubkey, hcached⟩, rfl⟩
    subst hpubkey hcached
    exact ⟨hkey, hmem⟩
  · rintro ⟨hkey, hmem⟩
    exact ⟨row, hkey, _, ⟨hmem, rfl, rfl⟩, rfl⟩

theorem decryptStandaloneTransparentPrivkey_eq_ok {identities : List Identity}
    {ciphertext : List UInt8} {secretKey : c.SecretKey} :
    decryptStandaloneTransparentPrivkey c identities ciphertext = .ok secretKey ↔
      ∃ secret, c.decrypt identities ciphertext = .ok secret ∧
        c.skFromSlice secret = .ok secretKey := by
  simp only [decryptStandaloneTransparentPrivkey, bind_eq_ok, generic_eq_ok]

theorem decryptTransparentKey_eq_ok {ks : KeyStore} {address : TransparentAddress}
    {secretKey : c.SecretKey} :
    ks.decryptStandaloneTransparentKey c address = .ok secretKey ↔
      ks.identities ≠ [] ∧ ∃ tables row, ks.db = .ok tables ∧
        (tables.joined (c.encodeAddress address)).head? = some row ∧
        decryptStandaloneTransparentPrivkey c ks.identities row.encryptedTransparentPrivkey =
          .ok secretKey ∧
        c.serialize (c.publicKey secretKey) = row.pubkey := by
  simp only [KeyStore.decryptStandaloneTransparentKey, bind_eq_ok, unlockedIdentities_eq_ok,
    queryRow_eq_ok, check_eq_ok]
  constructor
  · rintro ⟨_, ⟨hids, rfl⟩, tables, hdb, row, hrow, sk, hsk, hpubkey, rfl⟩
    exact ⟨hids, tables, row, hdb, hrow, hsk, hpubkey⟩
  · rintro ⟨hids, tables, row, hdb, hrow, hsk, hpubkey⟩
    exact ⟨_, ⟨hids, rfl⟩, tables, hdb, row, hrow, secretKey, hsk, hpubkey, rfl⟩

/-- `decrypt_standalone_transparent_key` returns only a key that the `addresses` table
    links to the address. -/
theorem decryptTransparentKey_linked {ks : KeyStore} {address : TransparentAddress}
    {secretKey : c.SecretKey} (h : ks.decryptStandaloneTransparentKey c address = .ok secretKey) :
    ∃ tables, ks.db = .ok tables ∧ tables.Links c (c.publicKey secretKey) address := by
  obtain ⟨-, tables, row, hdb, hrow, -, hpubkey⟩ := decryptTransparentKey_eq_ok.mp h
  have hmem := mem_joined.mp (List.mem_of_mem_head? hrow)
  rw [← hpubkey] at hmem
  exact ⟨tables, hdb, hmem.2⟩

/-- Where the `addresses` table is bound, a linked key is the key of the address. -/
theorem Tables.Links.fromPubkey (hc : c.Lawful) {tables : Tables} {pubkey : c.PublicKey}
    {address : TransparentAddress} (h : tables.Links c pubkey address)
    (hbound : tables.AddressesBound c) : c.fromPubkey pubkey = address := by
  obtain ⟨key, hkey, haddress⟩ := hbound _ _ h
  rw [hc.serialize hkey] at haddress
  exact hc.encodeAddress haddress

end Zallet.Keystore
