import Zallet.Keystore.Store
import Zallet.Migrate.ZcashdWallet

/-!
# The secrets of a document

`KeyStoreSecretSink` (`zallet-core/src/components/keystore/zewif.rs`, lines 46–219), which
stores the seeds, transparent keys and Sapling keys of a document in the keystore. A key is
compared with what the entry records before it is stored, a seed only afterwards.

* `Slot`, `held`: the rows of the four tables, by their keys.
* `store_cases`: what a call does.
* `verifies_iff`: when a call is verified before it stores.
* `held_storeAll`: what a list of entries leaves.
* `orderFree_iff`: when the order of the entries does not matter.
-/

namespace Zallet.Keystore.Sink

open Zallet.Common Zallet.Common.KeyedTable Zallet.Common.Loop
open Zallet.Keystore
open Zallet.Migrate (SeedEntry SeedMaterial MnemonicLanguage TransparentKeyEntry SaplingKeyEntry)

/-! ## The sink -/

set_option linter.dupNamespace false in
/-- `SecretSinkError` (lines 235–260). -/
inductive SecretSinkError
  | UnsupportedMnemonicLanguage
  | InvalidMnemonic (text : String)
  | SeedFingerprintEncoding (recorded : String)
  | SeedFingerprintMismatch (recorded : String)
  | TransparentKeyDecoding
  | TransparentKeyMismatch
  | SaplingKeyDecoding (text : String)
  | SaplingKeyMismatch
  | Keystore (e : Error)
  deriving DecidableEq

/-- An entry of the secret store of a document. -/
inductive Entry
  | Seed (entry : SeedEntry)
  | TransparentKey (entry : TransparentKeyEntry)
  | SaplingKey (entry : SaplingKeyEntry)
  deriving DecidableEq

variable {c : Crates}

/-- The encodings of other crates, for the network of the sink. -/
structure Codecs (c : Crates) where
  /-- `CheckedHrpstring::new::<Bech32m>`: the part before the data, and the data. -/
  checkedHrpstring : String → Option (String × List UInt8)
  /-- `transparent::Key::decode_base58`: a key and whether it is compressed. -/
  decodeBase58 : String → Option (c.SecretKey × Bool)
  serializeUncompressed : c.PublicKey → List UInt8
  decodeExtendedSpendingKey : String → Except String c.ExtendedSpendingKey
  /-- `encode_extended_full_viewing_key` of the viewing key of a spending key. -/
  encodeExtendedFullViewingKey : c.ExtendedSpendingKey → String

section

variable (K : Codecs c)

/-- `SEED_FINGERPRINT_HRP`. -/
def seedFingerprintHrp : String := "zip32seedfp"

/-- `decode_seed_fingerprint` (lines 51–59). -/
def decodeSeedFingerprint (fingerprint : String) : Option SeedFingerprint := do
  let (hrp, bytes) ← K.checkedHrpstring fingerprint
  if hrp = seedFingerprintHrp then
    if h : bytes.length = 32 then some ⟨bytes, h⟩ else none
  else none

/-- `check_fingerprint` (lines 107–122). -/
def checkFingerprint (recorded : String) (computed : List UInt8) :
    Except SecretSinkError Unit :=
  match decodeSeedFingerprint K recorded with
  | none => .error (.SeedFingerprintEncoding recorded)
  | some decoded =>
    if decoded.bytes = computed then .ok () else .error (.SeedFingerprintMismatch recorded)

/-- The tables are written unless the database fails. -/
def written (fault : Option Error) (tables : Except Error Tables) : Except Error Tables := do
  let tables ← tables
  match fault with
  | some e => .error e
  | none => .ok tables

/-- The seed of an entry is stored, and its fingerprint is returned (lines 129–160). -/
def storeMaterial (coins : ℕ) (fault : Option Error) (tables : Tables) :
    SeedMaterial → Except SecretSinkError (List UInt8 × Tables)
  | .Bip39Mnemonic phrase language =>
    if language.any fun language => decide (language ≠ .English) then
      .error .UnsupportedMnemonicLanguage
    else do
      let mnemonic ← (c.fromPhrase phrase.toList).mapError .InvalidMnemonic
      let tables ← (written fault
        (encryptAndStoreMnemonic c mnemonic .Unconfirmed coins tables)).mapError .Keystore
      .ok (fingerprintBytes c (c.toSeed mnemonic), tables)
  | .LegacySeed bytes => do
    let tables ←
      (written fault (encryptAndStoreLegacySeed c bytes coins tables)).mapError .Keystore
    .ok (fingerprintBytes c bytes, tables)

/-- `store_seed` (lines 128–162). -/
def storeSeed (entry : SeedEntry) (coins : ℕ) (fault : Option Error) (tables : Tables) :
    Except SecretSinkError Unit × Tables :=
  match storeMaterial (c := c) coins fault tables entry.material with
  | .error e => (.error e, tables)
  | .ok (computed, tables) => (checkFingerprint K entry.fingerprint computed, tables)

/-- The outcome of a call that writes last. -/
def commit (tables : Tables) :
    Except SecretSinkError Tables → Except SecretSinkError Unit × Tables
  | .error e => (.error e, tables)
  | .ok tables => (.ok (), tables)

/-- The comparison of a transparent key (lines 174–182). -/
def transparentMatches (key : c.SecretKey) (compressed : Bool) (pubkey : List UInt8) : Bool :=
  if compressed then decide (c.serialize (c.publicKey key) = pubkey)
  else decide (K.serializeUncompressed (c.publicKey key) = pubkey)

/-- `store_transparent_key` (lines 164–193), with the recipients of the encryptor of the
    sink. -/
def storeTransparentKey (recipients : List c.Recipient) (entry : TransparentKeyEntry) (coins : ℕ)
    (fault : Option Error) (tables : Tables) : Except SecretSinkError Unit × Tables :=
  commit tables <|
    match K.decodeBase58 entry.spendingKey with
    | none => .error .TransparentKeyDecoding
    | some (key, compressed) =>
      if transparentMatches K key compressed entry.pubkey then do
        let encrypted ←
          (encryptStandaloneTransparentKeys c recipients [(key, coins)]).mapError .Keystore
        (written fault (.ok (storeEncryptedStandaloneTransparentKeys encrypted tables))).mapError
          .Keystore
      else .error .TransparentKeyMismatch

/-- `store_sapling_key` (lines 195–219). -/
def storeSaplingKey (entry : SaplingKeyEntry) (coins : ℕ) (fault : Option Error)
    (tables : Tables) : Except SecretSinkError Unit × Tables :=
  commit tables do
    let extsk ← (K.decodeExtendedSpendingKey entry.spendingKey).mapError .SaplingKeyDecoding
    if K.encodeExtendedFullViewingKey extsk = entry.fvk then
      (written fault (encryptAndStoreStandaloneSaplingKey c extsk coins tables)).mapError .Keystore
    else .error .SaplingKeyMismatch

/-- A call of the sink. -/
def store (recipients : List c.Recipient) (coins : ℕ) (fault : Option Error) (tables : Tables) :
    Entry → Except SecretSinkError Unit × Tables
  | .Seed entry => storeSeed K entry coins fault tables
  | .TransparentKey entry => storeTransparentKey K recipients entry coins fault tables
  | .SaplingKey entry => storeSaplingKey K entry coins fault tables

/-- The calls for a list of entries, each with the coins of its encryption. -/
def storeAll (recipients : List c.Recipient) : List (Entry × ℕ) → Tables → Tables
  | [], tables => tables
  | (entry, coins) :: rest, tables =>
    storeAll recipients rest (store K recipients coins none tables entry).2

end

/-! ## The rows by their keys -/

/-- The key of a row, in one of the four tables. -/
inductive Slot
  | mnemonic (seedFp : List UInt8)
  | legacySeed (seedFp : List UInt8)
  | transparentKey (pubkey : List UInt8)
  | saplingKey (dfvk : List UInt8)
  deriving DecidableEq

/-- A row that is there is kept when its key is stored again, but for Sapling keys. -/
def Slot.keeps : Slot → Bool
  | .saplingKey _ => false
  | _ => true

/-- What a row holds; a row without the flag counts as unconfirmed. -/
structure Held where
  ciphertext : List UInt8
  confirmed : Bool
  deriving DecidableEq

def held (tables : Tables) : Slot → Option Held
  | .mnemonic seedFp => (lookup MnemonicRow.hdSeedFingerprint seedFp tables.mnemonics).map
      fun row => ⟨row.encryptedMnemonic, row.backupConfirmed⟩
  | .legacySeed seedFp => (lookup LegacySeedRow.hdSeedFingerprint seedFp tables.legacySeeds).map
      fun row => ⟨row.encryptedLegacySeed, false⟩
  | .transparentKey pubkey => (lookup TransparentKeyRow.pubkey pubkey tables.transparentKeys).map
      fun row => ⟨row.encryptedTransparentPrivkey, false⟩
  | .saplingKey dfvk => (lookup SaplingKeyRow.dfvk dfvk tables.saplingKeys).map
      fun row => ⟨row.encryptedSaplingExtsk, false⟩

/-- A ciphertext is stored. -/
def put (tables : Tables) (ciphertext : List UInt8) : Slot → Tables
  | .mnemonic seedFp => { tables with
      mnemonics := upsert MnemonicRow.hdSeedFingerprint MnemonicRow.confirm tables.mnemonics
        ⟨seedFp, ciphertext, false⟩ }
  | .legacySeed seedFp => { tables with
      legacySeeds := upsert LegacySeedRow.hdSeedFingerprint (fun old _ => old) tables.legacySeeds
        ⟨seedFp, ciphertext⟩ }
  | .transparentKey pubkey => { tables with
      transparentKeys := upsert TransparentKeyRow.pubkey (fun old _ => old) tables.transparentKeys
        ⟨pubkey, ciphertext⟩ }
  | .saplingKey dfvk => { tables with
      saplingKeys := upsert SaplingKeyRow.dfvk (fun _ row => row) tables.saplingKeys
        ⟨dfvk, ciphertext⟩ }

/-- What is under a key after a ciphertext was stored. -/
def putHeld (ciphertext : List UInt8) (slot : Slot) (old : Option Held) : Held :=
  if slot.keeps then old.getD ⟨ciphertext, false⟩ else ⟨ciphertext, false⟩

theorem MnemonicRow.confirm_unconfirmed {old : MnemonicRow} {seedFp ciphertext : List UInt8} :
    old.confirm ⟨seedFp, ciphertext, false⟩ = old := by
  simp [MnemonicRow.confirm]

theorem held_put (tables : Tables) (ciphertext : List UInt8) (slot slot' : Slot) :
    held (put tables ciphertext slot) slot' =
      if slot' = slot then some (putHeld ciphertext slot (held tables slot)) else held tables slot' := by
  cases slot with
  | mnemonic seedFp =>
    cases slot' with
    | mnemonic seedFp' =>
      have hkey : KeepsKey MnemonicRow.hdSeedFingerprint MnemonicRow.confirm := fun _ _ h => h
      simp only [held, put, lookup_upsert hkey, MnemonicRow.confirm_unconfirmed, Slot.mnemonic.injEq]
      split_ifs with h
      · subst h
        cases lookup MnemonicRow.hdSeedFingerprint seedFp' tables.mnemonics <;> rfl
      · rfl
    | _ => rfl
  | legacySeed seedFp =>
    cases slot' with
    | legacySeed seedFp' =>
      simp only [held, put, lookup_upsert (keepsKey_ignore _), Slot.legacySeed.injEq]
      split_ifs with h
      · subst h
        cases lookup LegacySeedRow.hdSeedFingerprint seedFp' tables.legacySeeds <;> rfl
      · rfl
    | _ => rfl
  | transparentKey pubkey =>
    cases slot' with
    | transparentKey pubkey' =>
      simp only [held, put, lookup_upsert (keepsKey_ignore _), Slot.transparentKey.injEq]
      split_ifs with h
      · subst h
        cases lookup TransparentKeyRow.pubkey pubkey' tables.transparentKeys <;> rfl
      · rfl
    | _ => rfl
  | saplingKey dfvk =>
    cases slot' with
    | saplingKey dfvk' =>
      have hkey : KeepsKey SaplingKeyRow.dfvk fun _ row => row := fun _ _ _ => rfl
      simp only [held, put, lookup_upsert hkey, Slot.saplingKey.injEq]
      split_ifs with h
      · subst h
        cases lookup SaplingKeyRow.dfvk dfvk' tables.saplingKeys <;> rfl
      · rfl
    | _ => rfl

@[simp] theorem put_ageRecipients {tables : Tables} {ciphertext : List UInt8} {slot : Slot} :
    (put tables ciphertext slot).ageRecipients = tables.ageRecipients := by
  cases slot <;> rfl

@[simp] theorem put_addresses {tables : Tables} {ciphertext : List UInt8} {slot : Slot} :
    (put tables ciphertext slot).addresses = tables.addresses := by
  cases slot <;> rfl

/-- Storing under a key that is kept changes nothing if there is a row. -/
theorem put_eq_self_iff {tables : Tables} {ciphertext : List UInt8} {slot : Slot}
    (hkeeps : slot.keeps = true) :
    put tables ciphertext slot = tables ↔ (held tables slot).isSome := by
  constructor
  · intro h
    rw [← h, held_put, if_pos rfl]
    rfl
  · intro h
    cases slot with
    | mnemonic seedFp =>
      rw [held, Option.isSome_map, lookup_isSome_iff] at h
      rw [put, upsert_of_mem h fun _ => MnemonicRow.confirm_unconfirmed]
    | legacySeed seedFp =>
      rw [held, Option.isSome_map, lookup_isSome_iff] at h
      rw [put, upsert_of_mem h fun _ => rfl]
    | transparentKey pubkey =>
      rw [held, Option.isSome_map, lookup_isSome_iff] at h
      rw [put, upsert_of_mem h fun _ => rfl]
    | saplingKey dfvk => cases hkeeps

/-! ## What a call does -/

section

variable (K : Codecs c)

/-- What the call would store, where the checks pass that come before. -/
def toStore : Entry → Option (Slot × List UInt8)
  | .Seed entry =>
    match entry.material with
    | .Bip39Mnemonic phrase language =>
      if language.any fun language => decide (language ≠ .English) then none
      else
        match c.fromPhrase phrase.toList with
        | .ok mnemonic => (c.fromSeed (c.toSeed mnemonic)).map fun seedFp =>
            (.mnemonic seedFp.bytes, Text.utf8 (c.intoPhrase mnemonic))
        | .error _ => none
    | .LegacySeed bytes => (c.fromSeed bytes).map fun seedFp => (.legacySeed seedFp.bytes, bytes)
  | .TransparentKey entry =>
    match K.decodeBase58 entry.spendingKey with
    | some (key, compressed) =>
      if transparentMatches K key compressed entry.pubkey then
        some (.transparentKey (c.serialize (c.publicKey key)), c.secretBytes key)
      else none
    | none => none
  | .SaplingKey entry =>
    match K.decodeExtendedSpendingKey entry.spendingKey with
    | .ok extsk =>
      if K.encodeExtendedFullViewingKey extsk = entry.fvk then
        some (.saplingKey (c.dfvkToBytes (c.toDfvk extsk)), c.extskToBytes extsk)
      else none
    | .error _ => none

/-- The check that comes after, of the key of the row that was written. -/
def checkAfter (slot : Slot) : Entry → Except SecretSinkError Unit
  | .Seed entry =>
    match slot with
    | .mnemonic seedFp | .legacySeed seedFp => checkFingerprint K entry.fingerprint seedFp
    | _ => .ok ()
  | _ => .ok ()

/-- The ciphertext that a call writes, unless the encryption or the database fails. -/
def cipher (recipients : List c.Recipient) (coins : ℕ) (fault : Option Error)
    (plaintext : List UInt8) : Except Error (List UInt8) :=
  match generic (c.encrypt recipients coins plaintext), fault with
  | .error e, _ => .error e
  | .ok _, some e => .error e
  | .ok ciphertext, none => .ok ciphertext

/-- What a call does: it rejects the entry, it fails, or it writes. -/
inductive Calls (recipients : List c.Recipient) (coins : ℕ) (fault : Option Error) (tables : Tables)
    (entry : Entry) : Except SecretSinkError Unit × Tables → Prop
  | rejected (e : SecretSinkError) : toStore K entry = none →
      Calls recipients coins fault tables entry (.error e, tables)
  | failed (slot : Slot) (plaintext : List UInt8) (e : Error) :
      toStore K entry = some (slot, plaintext) → cipher recipients coins fault plaintext = .error e →
      Calls recipients coins fault tables entry (.error (.Keystore e), tables)
  | written (slot : Slot) (plaintext ciphertext : List UInt8) :
      toStore K entry = some (slot, plaintext) →
      cipher recipients coins fault plaintext = .ok ciphertext →
      Calls recipients coins fault tables entry (checkAfter K slot entry, put tables ciphertext slot)

variable {recipients : List c.Recipient} {coins : ℕ} {fault : Option Error} {tables : Tables}

theorem written_cipher {plaintext : List UInt8} (f : List UInt8 → Tables) :
    written fault (do
        let ciphertext ← generic (c.encrypt recipients coins plaintext)
        pure (f ciphertext)) =
      (cipher recipients coins fault plaintext).map f := by
  unfold cipher
  cases generic (c.encrypt recipients coins plaintext) with
  | error e => rfl
  | ok ciphertext => cases fault <;> rfl

theorem written_mnemonic (h : tables.encryptor c = .ok recipients) {mnemonic : c.Mnemonic}
    {seedFp : SeedFingerprint} (hseed : c.fromSeed (c.toSeed mnemonic) = some seedFp) :
    written fault (encryptAndStoreMnemonic c mnemonic .Unconfirmed coins tables) =
      (cipher recipients coins fault (Text.utf8 (c.intoPhrase mnemonic))).map
        fun ciphertext => put tables ciphertext (.mnemonic seedFp.bytes) := by
  rw [← written_cipher, encryptAndStoreMnemonic, h, hseed]
  rfl

theorem written_legacySeed (h : tables.encryptor c = .ok recipients) {seed : List UInt8}
    {seedFp : SeedFingerprint} (hseed : c.fromSeed seed = some seedFp) :
    written fault (encryptAndStoreLegacySeed c seed coins tables) =
      (cipher recipients coins fault seed).map
        fun ciphertext => put tables ciphertext (.legacySeed seedFp.bytes) := by
  rw [← written_cipher, encryptAndStoreLegacySeed, h, hseed]
  rfl

theorem written_saplingKey (h : tables.encryptor c = .ok recipients) {key : c.ExtendedSpendingKey} :
    written fault (encryptAndStoreStandaloneSaplingKey c key coins tables) =
      (cipher recipients coins fault (c.extskToBytes key)).map
        fun ciphertext => put tables ciphertext (.saplingKey (c.dfvkToBytes (c.toDfvk key))) := by
  rw [← written_cipher, encryptAndStoreStandaloneSaplingKey, h]
  rfl

theorem calls_seed {fingerprint : String} {material : SeedMaterial}
    (h : tables.encryptor c = .ok recipients) :
    Calls K recipients coins fault tables (.Seed ⟨fingerprint, material⟩)
      (storeSeed K ⟨fingerprint, material⟩ coins fault tables) := by
  cases material with
  | Bip39Mnemonic phrase language =>
    unfold storeSeed storeMaterial
    by_cases hlanguage : (language.any fun language => decide (language ≠ .English)) = true
    · simp only [hlanguage, if_true]
      exact .rejected _ (by simp only [toStore, hlanguage, if_true])
    · simp only [hlanguage]
      cases hphrase : c.fromPhrase phrase.toList with
      | error text => exact .rejected _ (by simp only [toStore, hlanguage, hphrase]; rfl)
      | ok mnemonic =>
        cases hseed : c.fromSeed (c.toSeed mnemonic) with
        | none =>
          simp only [Except.mapError, bind, Except.bind, written, encryptAndStoreMnemonic, h, hseed]
          exact .rejected _ (by simp only [toStore, hlanguage, hphrase, hseed]; rfl)
        | some seedFp =>
          have hstore : toStore K (.Seed ⟨fingerprint, .Bip39Mnemonic phrase language⟩) =
              some (.mnemonic seedFp.bytes, Text.utf8 (c.intoPhrase mnemonic)) := by
            simp only [toStore, hlanguage, hphrase, hseed]
            rfl
          simp only [Except.mapError, bind, Except.bind, written_mnemonic h hseed, fingerprintBytes,
            hseed, Option.elim_some]
          cases hcipher : cipher recipients coins fault (Text.utf8 (c.intoPhrase mnemonic)) with
          | error e => exact .failed _ _ e hstore hcipher
          | ok ciphertext => exact .written _ _ _ hstore hcipher
  | LegacySeed bytes =>
    unfold storeSeed storeMaterial
    cases hseed : c.fromSeed bytes with
    | none =>
      simp only [Except.mapError, bind, Except.bind, written, encryptAndStoreLegacySeed, h, hseed]
      exact .rejected _ (by simp only [toStore, hseed]; rfl)
    | some seedFp =>
      have hstore : toStore K (.Seed ⟨fingerprint, .LegacySeed bytes⟩) =
          some (.legacySeed seedFp.bytes, bytes) := by
        simp only [toStore, hseed, Option.map_some]
      simp only [Except.mapError, bind, Except.bind, written_legacySeed h hseed, fingerprintBytes,
        hseed, Option.elim_some]
      cases hcipher : cipher recipients coins fault bytes with
      | error e => exact .failed _ _ e hstore hcipher
      | ok ciphertext => exact .written _ _ _ hstore hcipher

theorem calls_transparentKey (entry : TransparentKeyEntry) :
    Calls K recipients coins fault tables (.TransparentKey entry)
      (storeTransparentKey K recipients entry coins fault tables) := by
  unfold storeTransparentKey
  cases hkey : K.decodeBase58 entry.spendingKey with
  | none => exact .rejected _ (by simp only [toStore, hkey])
  | some decoded =>
    obtain ⟨key, compressed⟩ := decoded
    by_cases hmatches : transparentMatches K key compressed entry.pubkey = true
    · have hstore : toStore K (.TransparentKey entry) =
          some (.transparentKey (c.serialize (c.publicKey key)), c.secretBytes key) := by
        simp only [toStore, hkey, hmatches, if_true]
      simp only [hmatches, if_true, encryptStandaloneTransparentKeys, List.mapM_cons, List.mapM_nil]
      cases hencrypt : generic (c.encrypt recipients coins (c.secretBytes key)) with
      | error e =>
        exact .failed _ _ e hstore (by simp only [cipher, hencrypt])
      | ok ciphertext =>
        cases hfault : fault with
        | some e => exact .failed _ _ e hstore (by simp only [cipher, hencrypt])
        | none => exact .written _ _ ciphertext hstore (by simp only [cipher, hencrypt])
    · simp only [hmatches]
      exact .rejected _ (by simp only [toStore, hkey, hmatches]; rfl)

theorem calls_saplingKey (h : tables.encryptor c = .ok recipients) (entry : SaplingKeyEntry) :
    Calls K recipients coins fault tables (.SaplingKey entry)
      (storeSaplingKey K entry coins fault tables) := by
  unfold storeSaplingKey
  cases hkey : K.decodeExtendedSpendingKey entry.spendingKey with
  | error text => exact .rejected _ (by simp only [toStore, hkey])
  | ok extsk =>
    by_cases hmatches : K.encodeExtendedFullViewingKey extsk = entry.fvk
    · have hstore : toStore K (.SaplingKey entry) =
          some (.saplingKey (c.dfvkToBytes (c.toDfvk extsk)), c.extskToBytes extsk) := by
        simp only [toStore, hkey, hmatches, if_true]
      simp only [Except.mapError, bind, Except.bind, hmatches, if_true, written_saplingKey h]
      cases hcipher : cipher recipients coins fault (c.extskToBytes extsk) with
      | error e => exact .failed _ _ e hstore hcipher
      | ok ciphertext => exact .written _ _ _ hstore hcipher
    · simp only [Except.mapError, bind, Except.bind, hmatches, if_false]
      exact .rejected _ (by simp only [toStore, hkey, hmatches]; rfl)

variable (coins fault) in
/-- A call rejects the entry, fails, or writes one row. -/
theorem calls_store (h : tables.encryptor c = .ok recipients) (entry : Entry) :
    Calls K recipients coins fault tables entry (store K recipients coins fault tables entry) := by
  cases entry with
  | Seed entry => exact calls_seed K h
  | TransparentKey entry => exact calls_transparentKey K entry
  | SaplingKey entry => exact calls_saplingKey K h entry

end

/-! ## Specification -/

/-- The public key and the viewing key that entries record. -/
structure Recorded (K : Codecs c) where
  publicKey : List UInt8 → Option c.PublicKey
  viewingKey : String → Option c.DiversifiableFullViewingKey
  publicKey_serialize : ∀ pk, publicKey (c.serialize pk) = some pk
  publicKey_uncompressed : ∀ pk, publicKey (K.serializeUncompressed pk) = some pk
  viewingKey_encode : ∀ extsk,
    viewingKey (K.encodeExtendedFullViewingKey extsk) = some (c.toDfvk extsk)

section

variable {K : Codecs c} (R : Recorded K)

/-- The key that an entry records. -/
def Recorded.slot : Entry → Option Slot
  | .Seed ⟨fingerprint, .Bip39Mnemonic _ _⟩ =>
    (decodeSeedFingerprint K fingerprint).map fun seedFp => .mnemonic seedFp.bytes
  | .Seed ⟨fingerprint, .LegacySeed _⟩ =>
    (decodeSeedFingerprint K fingerprint).map fun seedFp => .legacySeed seedFp.bytes
  | .TransparentKey entry =>
    (R.publicKey entry.pubkey).map fun pk => .transparentKey (c.serialize pk)
  | .SaplingKey entry => (R.viewingKey entry.fvk).map fun dfvk => .saplingKey (c.dfvkToBytes dfvk)

variable (K)

/-- The secret of an entry. -/
def secret : Entry → Option (List UInt8)
  | .Seed ⟨_, .Bip39Mnemonic phrase _⟩ =>
    (c.fromPhrase phrase.toList).toOption.map fun mnemonic => Text.utf8 (c.intoPhrase mnemonic)
  | .Seed ⟨_, .LegacySeed bytes⟩ => some bytes
  | .TransparentKey entry => (K.decodeBase58 entry.spendingKey).map fun key => c.secretBytes key.1
  | .SaplingKey entry =>
    (K.decodeExtendedSpendingKey entry.spendingKey).toOption.map c.extskToBytes

variable {K} (identities : List Identity)

/-- A call that fails changes nothing, and one that succeeds leaves the secret of the entry
    under the key that it records, and changes nothing else. -/
structure Verifies (tables : Tables) (entry : Entry)
    (outcome : Except SecretSinkError Unit × Tables) : Prop where
  error : ∀ e, outcome.1 = .error e → outcome.2 = tables
  ok : outcome.1 = .ok () → ∃ slot plaintext, R.slot entry = some slot ∧
    secret K entry = some plaintext ∧
    (∃ row ∈ held outcome.2 slot, c.decrypt identities row.ciphertext = .ok plaintext) ∧
    (∀ slot' ≠ slot, held outcome.2 slot' = held tables slot') ∧
    outcome.2.ageRecipients = tables.ageRecipients ∧ outcome.2.addresses = tables.addresses

/-- Where the call would write, there is a row already if the recorded fingerprint is not
    that of the seed; and a row that is there and is kept holds the secret. -/
def VerifiedFirst (recipients : List c.Recipient) (coins : ℕ) (fault : Option Error)
    (tables : Tables) (entry : Entry) : Prop :=
  ∀ slot plaintext ciphertext, toStore K entry = some (slot, plaintext) →
    cipher recipients coins fault plaintext = .ok ciphertext →
    (checkAfter K slot entry ≠ .ok () → (held tables slot).isSome) ∧
    (checkAfter K slot entry = .ok () → slot.keeps = true → ∀ row ∈ held tables slot,
      c.decrypt identities row.ciphertext = .ok plaintext)

end

/-! ## Verifying a call -/

section

variable {K : Codecs c} {R : Recorded K} {identities : List Identity}
  {recipients : List c.Recipient} {coins : ℕ} {fault : Option Error} {tables : Tables}
  {entry : Entry} {slot : Slot} {plaintext ciphertext : List UInt8}

theorem secret_of_toStore (h : toStore K entry = some (slot, plaintext)) :
    secret K entry = some plaintext := by
  cases entry with
  | Seed entry =>
    obtain ⟨fingerprint, material⟩ := entry
    cases material with
    | Bip39Mnemonic phrase language =>
      simp only [toStore] at h
      split_ifs at h
      cases hphrase : c.fromPhrase phrase.toList with
      | error text => simp [hphrase] at h
      | ok mnemonic =>
        rw [hphrase] at h
        obtain ⟨seedFp, -, heq⟩ := Option.map_eq_some_iff.mp h
        cases heq
        simp only [secret, hphrase]
        rfl
    | LegacySeed bytes =>
      obtain ⟨seedFp, -, heq⟩ := Option.map_eq_some_iff.mp h
      cases heq
      rfl
  | TransparentKey entry =>
    simp only [toStore] at h
    cases hkey : K.decodeBase58 entry.spendingKey with
    | none => simp [hkey] at h
    | some decoded =>
      simp only [hkey] at h
      split_ifs at h
      cases h
      simp only [secret, hkey, Option.map_some]
  | SaplingKey entry =>
    simp only [toStore] at h
    cases hkey : K.decodeExtendedSpendingKey entry.spendingKey with
    | error text => simp [hkey] at h
    | ok extsk =>
      simp only [hkey] at h
      split_ifs at h
      cases h
      simp only [secret, hkey]
      rfl

theorem checkFingerprint_eq_ok {recorded : String} {computed : List UInt8} :
    checkFingerprint K recorded computed = .ok () ↔
      ∃ seedFp, decodeSeedFingerprint K recorded = some seedFp ∧ seedFp.bytes = computed := by
  unfold checkFingerprint
  cases decodeSeedFingerprint K recorded with
  | none => simp
  | some decoded =>
    by_cases h : decoded.bytes = computed <;> simp [h]

/-- The row is written under the key that the entry records if the check passes. -/
theorem slot_of_toStore (h : toStore K entry = some (slot, plaintext))
    (hcheck : checkAfter K slot entry = .ok ()) : R.slot entry = some slot := by
  cases entry with
  | Seed entry =>
    obtain ⟨fingerprint, material⟩ := entry
    cases material with
    | Bip39Mnemonic phrase language =>
      simp only [toStore] at h
      split_ifs at h
      cases hphrase : c.fromPhrase phrase.toList with
      | error text => simp [hphrase] at h
      | ok mnemonic =>
        rw [hphrase] at h
        obtain ⟨seedFp, -, heq⟩ := Option.map_eq_some_iff.mp h
        cases heq
        obtain ⟨decoded, hdecoded, hbytes⟩ := checkFingerprint_eq_ok.mp hcheck
        simp only [Recorded.slot, hdecoded, hbytes, Option.map_some]
    | LegacySeed bytes =>
      obtain ⟨seedFp, -, heq⟩ := Option.map_eq_some_iff.mp h
      cases heq
      obtain ⟨decoded, hdecoded, hbytes⟩ := checkFingerprint_eq_ok.mp hcheck
      simp only [Recorded.slot, hdecoded, hbytes, Option.map_some]
  | TransparentKey entry =>
    simp only [toStore] at h
    cases hkey : K.decodeBase58 entry.spendingKey with
    | none => simp [hkey] at h
    | some decoded =>
      obtain ⟨key, compressed⟩ := decoded
      simp only [hkey] at h
      split_ifs at h with hmatches
      cases h
      have hpubkey : R.publicKey entry.pubkey = some (c.publicKey key) := by
        unfold transparentMatches at hmatches
        split_ifs at hmatches
        · rw [← of_decide_eq_true hmatches, R.publicKey_serialize]
        · rw [← of_decide_eq_true hmatches, R.publicKey_uncompressed]
      simp only [Recorded.slot, hpubkey, Option.map_some]
  | SaplingKey entry =>
    simp only [toStore] at h
    cases hkey : K.decodeExtendedSpendingKey entry.spendingKey with
    | error text => simp [hkey] at h
    | ok extsk =>
      simp only [hkey] at h
      split_ifs at h with hmatches
      cases h
      simp only [Recorded.slot, ← hmatches, R.viewingKey_encode, Option.map_some]

/-- Only seeds are checked afterwards. -/
theorem keeps_of_checkAfter (h : checkAfter K slot entry ≠ .ok ()) : slot.keeps = true := by
  cases slot with
  | saplingKey dfvk => cases entry <;> exact absurd rfl h
  | _ => rfl

/-- What was encrypted can be decrypted. -/
theorem decrypt_cipher (hsink : tables.encryptor c = .ok recipients)
    (hids : Unlocks c identities tables.ageRecipients)
    (h : cipher recipients coins fault plaintext = .ok ciphertext) :
    c.decrypt identities ciphertext = .ok plaintext := by
  refine hids.2 _ _ ⟨recipients, coins, (encryptor_eq_ok.mp hsink).1, ?_⟩
  unfold cipher at h
  cases hencrypt : generic (c.encrypt recipients coins plaintext) with
  | error e => simp [hencrypt] at h
  | ok ciphertext' =>
    cases fault with
    | some e => simp [hencrypt] at h
    | none =>
      rw [hencrypt] at h
      cases h
      exact generic_eq_ok.mp hencrypt

/-- A call that writes under a key leaves the secret there unless another row is kept. -/
theorem decrypts_put_iff (hdecrypt : c.decrypt identities ciphertext = .ok plaintext) :
    (∃ row ∈ held (put tables ciphertext slot) slot,
        c.decrypt identities row.ciphertext = .ok plaintext) ↔
      (slot.keeps = true → ∀ row ∈ held tables slot,
        c.decrypt identities row.ciphertext = .ok plaintext) := by
  rw [held_put, if_pos rfl, putHeld]
  cases hkeeps : slot.keeps with
  | false => simp [hdecrypt]
  | true =>
    cases held tables slot with
    | none => simp [hdecrypt]
    | some row => simp

/-- A call is verified before it stores exactly if it would not write, or writes what it
    should. -/
theorem verifies_iff (hsink : tables.encryptor c = .ok recipients)
    (hids : Unlocks c identities tables.ageRecipients) :
    Verifies R identities tables entry (store K recipients coins fault tables entry) ↔
      VerifiedFirst (K := K) identities recipients coins fault tables entry := by
  have hcalls := calls_store K coins fault hsink entry
  generalize store K recipients coins fault tables entry = outcome at hcalls
  cases hcalls with
  | rejected e hnone =>
    refine iff_of_true ⟨fun _ _ => rfl, fun h => by cases h⟩ fun _ _ _ hstore => ?_
    cases hnone.symm.trans hstore
  | failed slot plaintext e hstore hfailed =>
    refine iff_of_true ⟨fun _ _ => rfl, fun h => by cases h⟩ fun _ _ _ hstore' hcipher => ?_
    cases Option.some.inj (hstore.symm.trans hstore')
    cases hfailed.symm.trans hcipher
  | written slot plaintext ciphertext hstore hcipher =>
    have hdecrypt := decrypt_cipher hsink hids hcipher
    have hfirst : VerifiedFirst (K := K) identities recipients coins fault tables entry ↔
        (checkAfter K slot entry ≠ .ok () → (held tables slot).isSome) ∧
        (checkAfter K slot entry = .ok () → slot.keeps = true → ∀ row ∈ held tables slot,
          c.decrypt identities row.ciphertext = .ok plaintext) := by
      constructor
      · exact fun h => h slot plaintext ciphertext hstore hcipher
      · intro h slot' plaintext' ciphertext' hstore' _
        cases Option.some.inj (hstore.symm.trans hstore')
        exact h
    rw [hfirst]
    cases hcheck : checkAfter K slot entry with
    | error e =>
      have hkeeps : slot.keeps = true := keeps_of_checkAfter (by rw [hcheck]; simp)
      constructor
      · intro h
        exact ⟨fun _ => (put_eq_self_iff hkeeps).mp (h.error e rfl), fun h => by cases h⟩
      · rintro ⟨hsome, -⟩
        exact ⟨fun _ _ => (put_eq_self_iff hkeeps).mpr (hsome (by simp)), fun h => by cases h⟩
    | ok _ =>
      have hslot : R.slot entry = some slot := slot_of_toStore hstore hcheck
      constructor
      · intro h
        refine ⟨fun hne => absurd rfl hne, fun _ => ?_⟩
        obtain ⟨slot', plaintext', hslot', hsecret, hrow, -⟩ := h.ok rfl
        cases hslot.symm.trans hslot'
        cases (secret_of_toStore hstore).symm.trans hsecret
        exact (decrypts_put_iff hdecrypt).mp hrow
      · rintro ⟨-, hkept⟩
        refine ⟨fun _ h => (by cases h), fun _ => ⟨slot, plaintext, hslot, secret_of_toStore hstore,
          (decrypts_put_iff hdecrypt).mpr (hkept rfl), fun slot' hne => ?_, by simp, by simp⟩⟩
        rw [held_put, if_neg hne]

end

/-! ## The order of the entries -/

section

variable (identities : List Identity)

/-- What a keystore holds under a key, up to the randomness of the ciphertexts. -/
def contents (tables : Tables) (slot : Slot) : Option (Except String (List UInt8) × Bool) :=
  (held tables slot).map fun row => (c.decrypt identities row.ciphertext, row.confirmed)

/-- The keystores hold the same. -/
structure SameContents (c : Crates) (tables tables' : Tables) : Prop where
  contents : ∀ slot, contents (c := c) identities tables slot = contents (c := c) identities tables' slot
  ageRecipients : tables.ageRecipients = tables'.ageRecipients
  addresses : tables.addresses = tables'.addresses

/-- A list of entries, with coins for each, in any order and with repetitions. -/
def Arranges (entries : List Entry) (l : List (Entry × ℕ)) : Prop :=
  ∀ entry, entry ∈ l.map Prod.fst ↔ entry ∈ entries

variable (K : Codecs c)

/-- The order and the repetitions of the entries do not matter. -/
def OrderFree (recipients : List c.Recipient) (tables : Tables) (entries : List Entry) : Prop :=
  ∀ l l', Arranges entries l → Arranges entries l' →
    SameContents identities c (storeAll K recipients l tables) (storeAll K recipients l' tables)

/-- The entry is written under the key, as far as the encryption goes. -/
def Writes (recipients : List c.Recipient) (entry : Entry) (slot : Slot) (plaintext : List UInt8) :
    Prop :=
  toStore K entry = some (slot, plaintext) ∧
    ∃ coins ciphertext, c.encrypt recipients coins plaintext = .ok ciphertext

/-- No two entries are written under one key with different secrets, unless a row that is
    there is kept. -/
def OneSecret (recipients : List c.Recipient) (tables : Tables) (entries : List Entry) : Prop :=
  ∀ entry ∈ entries, ∀ entry' ∈ entries, ∀ slot plaintext plaintext',
    Writes K recipients entry slot plaintext → Writes K recipients entry' slot plaintext' →
    (slot.keeps = true → held tables slot = none) → plaintext = plaintext'

end

section

variable {K : Codecs c} {identities : List Identity} {recipients : List c.Recipient}
  {tables : Tables} {entry : Entry} {coins : ℕ} {slot : Slot} {plaintext : List UInt8}

/-- Whether an encryption succeeds does not depend on its coins. -/
def CoinFree (c : Crates) : Prop :=
  ∀ recipients coins coins' plaintext,
    (c.encrypt recipients coins plaintext).isOk = (c.encrypt recipients coins' plaintext).isOk

theorem cipher_eq_ok {ciphertext : List UInt8} :
    cipher (c := c) recipients coins none plaintext = .ok ciphertext ↔
      c.encrypt recipients coins plaintext = .ok ciphertext := by
  rw [← generic_eq_ok]
  unfold cipher
  cases generic (c.encrypt recipients coins plaintext) <;> simp

variable (coins) in
theorem cipher_of_writes (hcoins : CoinFree c) (h : Writes K recipients entry slot plaintext) :
    ∃ ciphertext, cipher recipients coins none plaintext = .ok ciphertext := by
  obtain ⟨-, coins', ciphertext, hencrypt⟩ := h
  have hok := hcoins recipients coins coins' plaintext
  rw [hencrypt] at hok
  cases hcoins : c.encrypt recipients coins plaintext with
  | error e =>
    rw [hcoins] at hok
    cases hok
  | ok ciphertext' => exact ⟨ciphertext', cipher_eq_ok.mpr hcoins⟩

/-- What is under a key after a call that does not fail from outside: it was written, or is
    as before. -/
theorem store_cases (hsink : tables.encryptor c = .ok recipients)
    (hids : Unlocks c identities tables.ageRecipients) (entry : Entry) (coins : ℕ) :
    (∃ slot plaintext ciphertext, Writes K recipients entry slot plaintext ∧
        c.decrypt identities ciphertext = .ok plaintext ∧
        (store K recipients coins none tables entry).2 = put tables ciphertext slot) ∨
      ((∀ slot plaintext ciphertext, toStore K entry = some (slot, plaintext) →
          cipher recipients coins none plaintext ≠ .ok ciphertext) ∧
        (store K recipients coins none tables entry).2 = tables) := by
  have hcalls := calls_store K coins none hsink entry
  generalize store K recipients coins none tables entry = outcome at hcalls
  cases hcalls with
  | rejected e hnone =>
    refine Or.inr ⟨fun _ _ _ hstore => ?_, rfl⟩
    cases hnone.symm.trans hstore
  | failed slot plaintext e hstore hfailed =>
    refine Or.inr ⟨fun _ _ _ hstore' hcipher => ?_, rfl⟩
    cases Option.some.inj (hstore.symm.trans hstore')
    cases hfailed.symm.trans hcipher
  | written slot plaintext ciphertext hstore hcipher =>
    exact Or.inl ⟨slot, plaintext, ciphertext, ⟨hstore, coins, ciphertext, cipher_eq_ok.mp hcipher⟩,
      decrypt_cipher hsink hids hcipher, rfl⟩

/-- A call leaves the parts that it does not write. -/
theorem store_frame (hsink : tables.encryptor c = .ok recipients)
    (hids : Unlocks c identities tables.ageRecipients) (entry : Entry) (coins : ℕ) :
    (store K recipients coins none tables entry).2.ageRecipients = tables.ageRecipients ∧
      (store K recipients coins none tables entry).2.addresses = tables.addresses := by
  obtain ⟨slot, plaintext, ciphertext, -, -, heq⟩ | ⟨-, heq⟩ :=
    store_cases (K := K) hsink hids entry coins
  · simp [heq]
  · simp [heq]

theorem encryptor_congr {tables' : Tables} (h : tables'.ageRecipients = tables.ageRecipients) :
    tables'.encryptor c = tables.encryptor c := by
  rw [Tables.encryptor, Tables.encryptor, h]

/-- The entries that are written under a key. -/
def Writers (K : Codecs c) (recipients : List c.Recipient) (l : List (Entry × ℕ)) (slot : Slot)
    (plaintext : List UInt8) : Prop :=
  ∃ entry ∈ l.map Prod.fst, Writes K recipients entry slot plaintext

/-- What a list of entries leaves under a key: what was there, where it is kept or no entry
    is written, and otherwise the secret of an entry. -/
theorem held_storeAll (hcoins : CoinFree c) (hsink : tables.encryptor c = .ok recipients)
    (hids : Unlocks c identities tables.ageRecipients) (l : List (Entry × ℕ)) (slot : Slot) :
    (((slot.keeps = true ∧ (held tables slot).isSome) ∨
        ∀ plaintext, ¬ Writers K recipients l slot plaintext) ∧
      held (storeAll K recipients l tables) slot = held tables slot) ∨
    (¬ (slot.keeps = true ∧ (held tables slot).isSome) ∧ ∃ plaintext ciphertext,
      Writers K recipients l slot plaintext ∧ c.decrypt identities ciphertext = .ok plaintext ∧
      held (storeAll K recipients l tables) slot = some ⟨ciphertext, false⟩) := by
  induction l generalizing tables with
  | nil => exact Or.inl ⟨Or.inr fun _ ⟨_, h, _⟩ => by simp at h, rfl⟩
  | cons first rest ih =>
    obtain ⟨entry, coins⟩ := first
    obtain ⟨hrecipients, -⟩ := store_frame (K := K) hsink hids entry coins
    have hsink' := (encryptor_congr (c := c) hrecipients).trans hsink
    have hids' := hids
    rw [← hrecipients] at hids'
    have hrest := ih hsink' hids'
    have hmore {plaintext : List UInt8} (h : Writers K recipients rest slot plaintext) :
        Writers K recipients ((entry, coins) :: rest) slot plaintext := by
      obtain ⟨other, hother, hwrites⟩ := h
      exact ⟨other, List.mem_cons_of_mem _ hother, hwrites⟩
    have hnone (hfirst : ∀ plaintext, ¬ Writes K recipients entry slot plaintext)
        (h : ∀ plaintext, ¬ Writers K recipients rest slot plaintext) :
        ∀ plaintext, ¬ Writers K recipients ((entry, coins) :: rest) slot plaintext := by
      rintro plaintext ⟨other, hother, hwrites⟩
      obtain rfl | hother := List.mem_cons.mp hother
      · exact hfirst plaintext hwrites
      · exact h plaintext ⟨other, hother, hwrites⟩
    change _ ∧ held (storeAll K recipients rest _) slot = _ ∨
      _ ∧ ∃ plaintext ciphertext, _ ∧ _ ∧ held (storeAll K recipients rest _) slot = _
    obtain ⟨slot', plaintext', ciphertext', hwrites, hdecrypt, heq⟩ | ⟨hnot, heq⟩ :=
      store_cases (K := K) hsink hids entry coins
    · rw [heq] at hrest ⊢
      rw [held_put] at hrest
      by_cases hslot : slot = slot'
      · subst hslot
        rw [if_pos rfl, putHeld] at hrest
        by_cases hkept : slot.keeps = true ∧ (held tables slot).isSome = true
        · -- The row that is there stays.
          obtain ⟨row, hrow⟩ := Option.isSome_iff_exists.mp hkept.2
          simp only [hkept.1, hrow, if_true, Option.getD_some, Option.isSome_some, and_self,
            true_or, true_and, not_true_eq_false, false_and, or_false] at hrest
          exact Or.inl ⟨Or.inl hkept, by rw [hrest, hrow]⟩
        · -- The entry is written, and stays unless a later one replaces it.
          have hput : (if slot.keeps = true then (held tables slot).getD ⟨ciphertext', false⟩
              else ⟨ciphertext', false⟩) = (⟨ciphertext', false⟩ : Held) := by
            split_ifs with hkeeps
            · rw [Option.not_isSome_iff_eq_none.mp fun h => hkept ⟨hkeeps, h⟩, Option.getD_none]
            · rfl
          rw [hput] at hrest
          obtain ⟨-, hheld⟩ | ⟨-, plaintext, ciphertext, hwriter, hdec, hheld⟩ := hrest
          · exact Or.inr ⟨hkept, plaintext', ciphertext', ⟨entry, List.mem_cons_self, hwrites⟩,
              hdecrypt, hheld⟩
          · exact Or.inr ⟨hkept, plaintext, ciphertext, hmore hwriter, hdec, hheld⟩
      · rw [if_neg hslot] at hrest
        refine hrest.imp (fun ⟨h, hheld⟩ => ⟨h.imp_right (hnone fun plaintext h => ?_), hheld⟩)
          fun ⟨hkept, plaintext, ciphertext, hwriter, h⟩ => ⟨hkept, plaintext, ciphertext,
            hmore hwriter, h⟩
        have hsame := Option.some.inj (hwrites.1.symm.trans h.1)
        exact hslot (congrArg Prod.fst hsame).symm
    · rw [heq] at hrest ⊢
      refine hrest.imp (fun ⟨h, hheld⟩ => ⟨h.imp_right (hnone fun plaintext h => ?_), hheld⟩)
        fun ⟨hkept, plaintext, ciphertext, hwriter, h⟩ => ⟨hkept, plaintext, ciphertext,
          hmore hwriter, h⟩
      obtain ⟨ciphertext, hcipher⟩ := cipher_of_writes coins hcoins h
      exact hnot slot plaintext ciphertext h.1 hcipher

/-- The recipients and the addresses are left as they are. -/
theorem storeAll_frame (hsink : tables.encryptor c = .ok recipients)
    (hids : Unlocks c identities tables.ageRecipients) (l : List (Entry × ℕ)) :
    (storeAll K recipients l tables).ageRecipients = tables.ageRecipients ∧
      (storeAll K recipients l tables).addresses = tables.addresses := by
  induction l generalizing tables with
  | nil => exact ⟨rfl, rfl⟩
  | cons first rest ih =>
    obtain ⟨entry, coins⟩ := first
    obtain ⟨hrecipients, haddresses⟩ := store_frame (K := K) hsink hids entry coins
    have hids' := hids
    rw [← hrecipients] at hids'
    obtain ⟨hrecipients', haddresses'⟩ := ih ((encryptor_congr hrecipients).trans hsink) hids'
    exact ⟨hrecipients'.trans hrecipients, haddresses'.trans haddresses⟩

theorem writers_congr {entries : List Entry} {l l' : List (Entry × ℕ)} (h : Arranges entries l)
    (h' : Arranges entries l') :
    Writers K recipients l slot plaintext ↔ Writers K recipients l' slot plaintext :=
  exists_congr fun entry => and_congr_left fun _ => (h entry).trans (h' entry).symm

/-- Where no two entries compete for a key their order does not matter. -/
theorem orderFree_of_oneSecret (hcoins : CoinFree c) (hsink : tables.encryptor c = .ok recipients)
    (hids : Unlocks c identities tables.ageRecipients) {entries : List Entry}
    (h : OneSecret K recipients tables entries) :
    OrderFree identities K recipients tables entries := by
  intro l l' hl hl'
  obtain ⟨hrecipients, haddresses⟩ := storeAll_frame (K := K) hsink hids l
  obtain ⟨hrecipients', haddresses'⟩ := storeAll_frame (K := K) hsink hids l'
  refine ⟨fun slot => ?_, hrecipients.trans hrecipients'.symm, haddresses.trans haddresses'.symm⟩
  unfold contents
  obtain ⟨hcase, hheld⟩ | ⟨hkept, plaintext, ciphertext, hwriter, hdecrypt, hheld⟩ :=
      held_storeAll (K := K) hcoins hsink hids l slot <;>
    obtain ⟨hcase', hheld'⟩ | ⟨hkept', plaintext', ciphertext', hwriter', hdecrypt', hheld'⟩ :=
      held_storeAll (K := K) hcoins hsink hids l' slot
  · rw [hheld, hheld']
  · obtain hkept | hnone := hcase
    · exact absurd hkept hkept'
    · exact absurd ((writers_congr hl' hl).mp hwriter') (hnone plaintext')
  · obtain hkept' | hnone := hcase'
    · exact absurd hkept' hkept
    · exact absurd ((writers_congr hl hl').mp hwriter) (hnone plaintext)
  · obtain ⟨entry, hentry, hwrites⟩ := hwriter
    obtain ⟨entry', hentry', hwrites'⟩ := hwriter'
    have hsame := h entry ((hl entry).mp hentry) entry' ((hl' entry').mp hentry') slot plaintext
      plaintext' hwrites hwrites' fun hkeeps =>
        Option.not_isSome_iff_eq_none.mp fun hsome => hkept ⟨hkeeps, hsome⟩
    rw [hheld, hheld', Option.map_some, Option.map_some, hdecrypt, hdecrypt', hsame]

/-- A call for an entry that is written. -/
theorem store_writes (hcoins : CoinFree c) (hsink : tables.encryptor c = .ok recipients)
    (hids : Unlocks c identities tables.ageRecipients)
    (h : Writes K recipients entry slot plaintext) (coins : ℕ) :
    ∃ ciphertext, c.decrypt identities ciphertext = .ok plaintext ∧
      (store K recipients coins none tables entry).2 = put tables ciphertext slot := by
  obtain ⟨slot', plaintext', ciphertext, hwrites, hdecrypt, heq⟩ | ⟨hnot, -⟩ :=
    store_cases (K := K) hsink hids entry coins
  · cases Option.some.inj (h.1.symm.trans hwrites.1)
    exact ⟨ciphertext, hdecrypt, heq⟩
  · obtain ⟨ciphertext, hcipher⟩ := cipher_of_writes coins hcoins h
    exact absurd hcipher (hnot slot plaintext ciphertext h.1)

theorem storeAll_append (l l' : List (Entry × ℕ)) (tables : Tables) :
    storeAll K recipients (l ++ l') tables = storeAll K recipients l' (storeAll K recipients l tables) := by
  induction l generalizing tables with
  | nil => rfl
  | cons first rest ih => exact ih _

/-- The first of the entries keeps its row, where there was none. -/
theorem contents_first (hcoins : CoinFree c) (hsink : tables.encryptor c = .ok recipients)
    (hids : Unlocks c identities tables.ageRecipients)
    (h : Writes K recipients entry slot plaintext) (hkeeps : slot.keeps = true)
    (hnone : held tables slot = none) (l : List (Entry × ℕ)) :
    contents (c := c) identities (storeAll K recipients ((entry, 0) :: l) tables) slot =
      some (.ok plaintext, false) := by
  obtain ⟨ciphertext, hdecrypt, heq⟩ := store_writes hcoins hsink hids h 0
  have hheld : held (put tables ciphertext slot) slot = some ⟨ciphertext, false⟩ := by
    rw [held_put, if_pos rfl, putHeld, if_pos hkeeps, hnone, Option.getD_none]
  have hsink' : (put tables ciphertext slot).encryptor c = .ok recipients :=
    (encryptor_congr put_ageRecipients).trans hsink
  have hids' : Unlocks c identities (put tables ciphertext slot).ageRecipients := by
    rw [put_ageRecipients]
    exact hids
  have hkept : slot.keeps = true ∧ (held (put tables ciphertext slot) slot).isSome = true :=
    ⟨hkeeps, by rw [hheld]; rfl⟩
  obtain ⟨-, hfinal⟩ | ⟨hnot, -⟩ := held_storeAll (K := K) hcoins hsink' hids' l slot
  · rw [contents, storeAll, heq, hfinal, hheld, Option.map_some, hdecrypt]
  · exact absurd hkept hnot

/-- The last of the entries replaces a row that is not kept. -/
theorem contents_last (hcoins : CoinFree c) (hsink : tables.encryptor c = .ok recipients)
    (hids : Unlocks c identities tables.ageRecipients)
    (h : Writes K recipients entry slot plaintext) (hkeeps : slot.keeps = false)
    (l : List (Entry × ℕ)) :
    contents (c := c) identities (storeAll K recipients (l ++ [(entry, 0)]) tables) slot =
      some (.ok plaintext, false) := by
  obtain ⟨hrecipients, -⟩ := storeAll_frame (K := K) hsink hids l
  have hids' := hids
  rw [← hrecipients] at hids'
  obtain ⟨ciphertext, hdecrypt, heq⟩ :=
    store_writes hcoins ((encryptor_congr hrecipients).trans hsink) hids' h 0
  rw [contents, storeAll_append, storeAll, storeAll, heq, held_put, if_pos rfl, putHeld, hkeeps,
    if_neg Bool.false_ne_true, Option.map_some, hdecrypt]

/-- The order of the entries does not matter exactly if no two of them compete for a key. -/
theorem orderFree_iff (hcoins : CoinFree c) (hsink : tables.encryptor c = .ok recipients)
    (hids : Unlocks c identities tables.ageRecipients) {entries : List Entry} :
    OrderFree identities K recipients tables entries ↔ OneSecret K recipients tables entries := by
  refine ⟨fun h => ?_, orderFree_of_oneSecret hcoins hsink hids⟩
  intro entry hentry entry' hentry' slot plaintext plaintext' hwrites hwrites' hnone
  let all := entries.map fun entry => (entry, 0)
  have hall {e : Entry} : e ∈ all.map Prod.fst ↔ e ∈ entries := by simp [all]
  have hfirst {e : Entry} (he : e ∈ entries) : Arranges entries ((e, 0) :: all) := fun e' => by
    rw [List.map_cons, List.mem_cons, hall]
    exact ⟨fun h => h.elim (fun heq => heq ▸ he) id, Or.inr⟩
  have hlast {e : Entry} (he : e ∈ entries) : Arranges entries (all ++ [(e, 0)]) := fun e' => by
    rw [List.map_append, List.mem_append, hall, List.map_singleton, List.mem_singleton]
    exact ⟨fun h => h.elim id fun heq => heq ▸ he, Or.inl⟩
  cases hkeeps : slot.keeps with
  | true =>
    have hsame := (h _ _ (hfirst hentry) (hfirst hentry')).contents slot
    rw [contents_first hcoins hsink hids hwrites hkeeps (hnone hkeeps),
      contents_first hcoins hsink hids hwrites' hkeeps (hnone hkeeps)] at hsame
    simpa using hsame
  | false =>
    have hsame := (h _ _ (hlast hentry) (hlast hentry')).contents slot
    rw [contents_last hcoins hsink hids hwrites hkeeps,
      contents_last hcoins hsink hids hwrites' hkeeps] at hsame
    simpa using hsame

/-- Every call is verified before it stores, and the order of the entries of a list does not
    matter, exactly if each call would write only what it should and no two entries compete
    for a key. -/
theorem sink_iff (R : Recorded K) (hcoins : CoinFree c)
    (hsink : tables.encryptor c = .ok recipients)
    (hids : Unlocks c identities tables.ageRecipients) (entry : Entry) (coins : ℕ)
    (fault : Option Error) (entries : List Entry) :
    (Verifies R identities tables entry (store K recipients coins fault tables entry) ↔
        VerifiedFirst (K := K) identities recipients coins fault tables entry) ∧
      (OrderFree identities K recipients tables entries ↔
        OneSecret K recipients tables entries) :=
  ⟨verifies_iff hsink hids, orderFree_iff hcoins hsink hids⟩

end

/-! ## A seed with another fingerprint -/

namespace OtherFingerprint

open Zallet.Keystore.OneOfEach (crates Bytes bytesOf bytesOf_val byteOf charOf byteOf_charOf start unlocks)

def textBytes (text : String) : List UInt8 := text.toList.map byteOf

/-- Every encoding is the bytes themselves. -/
def codecs : Codecs crates where
  checkedHrpstring text := some (seedFingerprintHrp, textBytes text)
  decodeBase58 text := (textBytes text).head?.map fun key => (key, true)
  serializeUncompressed pk := [4, pk]
  decodeExtendedSpendingKey text :=
    match bytesOf 128 (textBytes text) with
    | some extsk => .ok extsk
    | none => .error "invalid length"
  encodeExtendedFullViewingKey extsk := String.ofList (extsk.val.map charOf)

theorem viewingKey_encode (extsk : Bytes 128) :
    bytesOf 128 (textBytes (String.ofList (extsk.val.map charOf))) = some extsk := by
  have hbytes : textBytes (String.ofList (extsk.val.map charOf)) = extsk.val := by
    simp [textBytes, String.toList_ofList, Function.comp_def, byteOf_charOf]
  rw [hbytes, bytesOf_val]

def recorded : Recorded codecs where
  publicKey
    | [pk] | [4, pk] => some pk
    | _ => none
  viewingKey text := bytesOf 128 (textBytes text)
  publicKey_serialize _ := rfl
  publicKey_uncompressed _ := rfl
  viewingKey_encode := viewingKey_encode

/-- A seed and a fingerprint that it may be recorded under. -/
def entry (recorded : Char) : Entry :=
  .Seed ⟨String.ofList (List.replicate 32 recorded), .LegacySeed (List.replicate 32 98)⟩

theorem coinFree : CoinFree crates := fun _ _ _ _ => rfl

theorem sink_iff_recorded :
    (Verifies recorded [⟨"AGE-SECRET-KEY-1"⟩] start (entry 'b')
        (store codecs ["age1recipient"] 0 none start (entry 'b')) ↔
      VerifiedFirst (K := codecs) [⟨"AGE-SECRET-KEY-1"⟩] ["age1recipient"] 0 none start (entry 'b')) ∧
    (OrderFree [⟨"AGE-SECRET-KEY-1"⟩] codecs ["age1recipient"] start [entry 'b', entry 'b'] ↔
      OneSecret codecs ["age1recipient"] start [entry 'b', entry 'b']) :=
  sink_iff recorded coinFree rfl unlocks (entry 'b') 0 none [entry 'b', entry 'b']

/-- The call for a seed with another fingerprint fails, and the seed is stored. -/
theorem stored_unverified :
    (store codecs ["age1recipient"] 0 none start (entry 'a')).1 =
        .error (.SeedFingerprintMismatch (String.ofList (List.replicate 32 'a'))) ∧
      (store codecs ["age1recipient"] 0 none start (entry 'a')).2.legacySeeds =
        [⟨List.replicate 32 98, 166 :: List.replicate 32 98⟩] ∧
      start.legacySeeds = [] :=
  ⟨rfl, rfl, rfl⟩

end OtherFingerprint

end Zallet.Keystore.Sink
