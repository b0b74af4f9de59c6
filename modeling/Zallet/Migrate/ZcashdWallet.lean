import Zallet.Rpc.Imports

/-!
# Migrating a `zcashd` wallet

`migrate_zcashd_wallet`
(`zallet-core/src/commands/migrate_zcashd_wallet.rs`, lines 235–596) from the ZeWIF
document on, with the keystore sink it uses
(`zallet-core/src/components/keystore/zewif.rs`, lines 127–222).

A run writes to the keystore, imports the document in one transaction of the wallet
database and registers the watch-only pubkeys in further ones. `migrate` runs it
on a `Store` and keeps the store when it fails. `Run.fault` says which of its
calls fail; a call that fails has written nothing.

* `Codecs` are the parsers and derivations of other crates, and `Importer` is
  `import_wallet`: it writes nothing, or it adds an account for each account of
  the document that it does not skip, derived from the seed that the key source
  names.
* An account of the wallet database is known by its position.
* The wallets of a document are flattened: every loop of the command goes over
  all their accounts.
* The dump of `wallet.dat`, transactions, birthdays and the address book are left
  out: no account, key or pubkey depends on them. `Run.birthday` is the height that
  the chain reads lead to, or their error.
-/

namespace Zallet.Migrate

open Zallet.Rpc (SeedFingerprint PublicKey Dfvk ExtendedSpendingKey Zip32Derivation)
open Zallet.Chain (TransparentAddress)

/-! ## The document -/

inductive NetworkType
  | Main
  | Test
  | Regtest
  deriving DecidableEq

inductive MnemonicLanguage
  | English
  | other (name : String)
  deriving DecidableEq

inductive SeedMaterial
  | Bip39Mnemonic (phrase : String) (language : Option MnemonicLanguage)
  | LegacySeed (bytes : List UInt8)
  deriving DecidableEq

/-- `zewif::SeedEntry`; a fingerprint of the document is its encoding. -/
structure SeedEntry where
  fingerprint : String
  material : SeedMaterial
  deriving DecidableEq

structure TransparentKeyEntry where
  pubkey : List UInt8
  spendingKey : String
  deriving DecidableEq

structure SaplingKeyEntry where
  fvk : String
  spendingKey : String
  deriving DecidableEq

/-- `zewif::SecretStore`, without the Sprout and unified keys, which the sink
    ignores. -/
structure SecretStore where
  seeds : List SeedEntry
  transparentKeys : List TransparentKeyEntry
  saplingKeys : List SaplingKeyEntry
  deriving DecidableEq

inductive Secrets
  | Plain (store : SecretStore)
  | Encrypted
  deriving DecidableEq

inductive KeySource
  | Derived (seedFingerprint : String) (accountIndex : ℕ) (legacyAddressIndex : Option ℕ)
  | Imported
  deriving DecidableEq

/-- `zewif::ProtocolAddress`. -/
inductive ProtocolAddress
  | Transparent (spendAuthority : Bool) (pubkey : Option (List UInt8))
  | other
  deriving DecidableEq

/-- `zewif::AccountViewingKey`, by its encoding. -/
structure AccountViewingKey where
  encoding : String
  deriving DecidableEq

structure Account where
  name : String
  viewingKey : AccountViewingKey
  keySource : Option KeySource
  provenance : Option String
  addresses : List ProtocolAddress
  deriving DecidableEq

structure Document where
  network : NetworkType
  accounts : List Account
  secrets : Option Secrets
  deriving DecidableEq

/-! ## The store -/

/-- `AccountSource` of the wallet database, with its key source. -/
inductive AccountSource
  | Derived (derivation : Zip32Derivation) (keySource : Option String)
  | Imported (keySource : Option String)
  deriving DecidableEq

structure WalletAccount where
  name : String
  source : AccountSource
  deriving DecidableEq

/-- The wallet database: its accounts, the transparent keys and the watch-only
    pubkeys registered with them, and the addresses marked exposed. -/
structure Db where
  accounts : List WalletAccount
  keys : Finset (ℕ × PublicKey)
  watch : Finset (ℕ × PublicKey)
  exposed : List (TransparentAddress × ℕ)
  deriving DecidableEq

/-- The tables of the keystore, by their primary keys. -/
structure Keystore where
  mnemonics : Finset SeedFingerprint
  legacySeeds : Finset SeedFingerprint
  transparentKeys : Finset PublicKey
  saplingKeys : Finset Dfvk
  deriving DecidableEq

structure Store where
  network : NetworkType
  db : Db
  keystore : Keystore
  deriving DecidableEq

/-! ## Errors and other crates -/

inductive SecretSinkError
  | UnsupportedMnemonicLanguage
  | InvalidMnemonic (text : String)
  | SeedFingerprintEncoding (recorded : String)
  | SeedFingerprintMismatch (recorded : String)
  | TransparentKeyDecoding
  | TransparentKeyMismatch
  | SaplingKeyDecoding (text : String)
  | SaplingKeyMismatch
  | Keystore (text : String)
  deriving DecidableEq

inductive AccountSkipReason
  | SproutViewingKey
  | TransparentAddressSetWithoutSeed
  deriving DecidableEq

inductive TransparentKeySkipReason
  | UncompressedPubKey
  | NoOwningAccount
  deriving DecidableEq

inductive MigrateError
  | Wrapped (text : String)
  | Import (text : String)
  | SecretSink (e : SecretSinkError)
  | EncryptedSecrets
  | NetworkMismatch (walletNetwork dbNetwork : NetworkType)
  | Database (text : String)
  | MultiImportDisabled
  | DuplicateImport (seedFingerprint : SeedFingerprint)
  | NothingImported (documentAccountCount : ℕ)
  | PartialImport (skippedAccounts : List (String × AccountSkipReason))
      (skippedTransparentKeys : List (Option String × TransparentKeySkipReason))
  deriving DecidableEq

/-- A decoded transparent spending key. -/
structure TransparentKey where
  pubkey : PublicKey
  compressed : Bool
  serializeUncompressed : List UInt8
  deriving DecidableEq

structure Codecs where
  /-- `encode_seed_fingerprint`. -/
  encodeSeedFingerprint : SeedFingerprint → String
  /-- `decode_seed_fingerprint`. -/
  decodeSeedFingerprint : String → Option SeedFingerprint
  /-- `zcashd::derive_mnemonic`. -/
  deriveMnemonic : List UInt8 → Option String
  /-- `Mnemonic::from_phrase`. -/
  fromPhrase : String → Except String Unit
  /-- The fingerprint of the seed of a phrase. -/
  phraseFingerprint : String → SeedFingerprint
  /-- `SeedFingerprint::from_seed` of a legacy seed. -/
  legacyFingerprint : List UInt8 → Option SeedFingerprint
  /-- `transparent::Key::decode_base58`. -/
  decodeTransparentKey : String → Option TransparentKey
  /-- `decode_extended_spending_key`. -/
  decodeSaplingKey : String → Except String ExtendedSpendingKey
  /-- The encoding of the full viewing key of a Sapling key. -/
  encodeFvk : ExtendedSpendingKey → String
  dfvk : ExtendedSpendingKey → Dfvk
  /-- `PublicKey::from_slice`. -/
  parsePublicKey : List UInt8 → Option PublicKey
  /-- `TransparentAddress::from_pubkey`. -/
  fromPubkey : PublicKey → TransparentAddress

/-- `import_wallet`. -/
structure Importer where
  /-- Whether an account is skipped, by its viewing key and whether its key
      source is a seed. -/
  skip : AccountViewingKey → Bool → Option AccountSkipReason
  /-- The transparent keys of the secret store that belong to an account. -/
  keysOf : Document → Account → List PublicKey
  skippedKeys : Document → List (Option String × TransparentKeySkipReason)
  /-- A failure, after which nothing was written. -/
  refuses : Db → Document → Option String

/-! ## The runs -/

/-- The calls of a run that may fail. -/
inductive Step
  | DbHandle
  | Chain
  | AccountIds
  | GetAccount (i : ℕ)
  | Encryptor
  | StoreSeed (i : ℕ)
  | StoreTransparentKey (i : ℕ)
  | StoreSaplingKey (i : ℕ)
  | SeedIsReferenced
  | DeleteMnemonic
  | ImportPubkeys (i : ℕ)
  | MarkExposed (i : ℕ)
  deriving DecidableEq

/-- The options of a run and what happens to it from outside. -/
structure Run where
  allowMultipleWalletImports : Bool
  allowPartialImport : Bool
  /-- The phrase that `mint_legacy_mnemonic` would draw. -/
  mint : String
  birthday : Except String ℕ
  fault : Step → Option String

/-- A call that fails as the run says. -/
def Run.ask (run : Run) (step : Step) (error : String → MigrateError) : Except MigrateError Unit :=
  match run.fault step with
  | some text => .error (error text)
  | none => .ok ()

/-- `ZCASHD_LEGACY_ACCOUNT_INDEX`. -/
def zcashdLegacyAccountIndex : ℕ := 0x7FFFFFFF

/-- `ZCASHD_LEGACY_SOURCE`. -/
def zcashdLegacySource : String := "zcashd_legacy"

/-- `ZCASHD_MNEMONIC_SOURCE`. -/
def zcashdMnemonicSource : String := "zcashd_mnemonic"

/-- The seed store and the mnemonic seed that a run uses, and whether it minted
    the seed. -/
structure Roots where
  secretStore : Option SecretStore
  mnemonicFp : Option String
  mintedSeed : Bool
  deriving DecidableEq

def SecretStore.addSeed (store : SecretStore) (entry : SeedEntry) : SecretStore :=
  { store with seeds := store.seeds ++ [entry] }

def mnemonicEntry (K : Codecs) (phrase : String) : SeedEntry :=
  ⟨K.encodeSeedFingerprint (K.phraseFingerprint phrase), .Bip39Mnemonic phrase (some .English)⟩

/-- The mnemonic seed of a secret store, derived from the legacy seed if need be
    (lines 307–344). -/
def normalize (K : Codecs) (store : SecretStore) :
    Except MigrateError (SecretStore × Option String) :=
  let mnemonicFp := store.seeds.findSome? fun entry =>
    match entry.material with
    | .Bip39Mnemonic .. => some entry.fingerprint
    | .LegacySeed _ => none
  let legacySeed := store.seeds.findSome? fun entry =>
    match entry.material with
    | .LegacySeed bytes => some bytes
    | .Bip39Mnemonic .. => none
  match mnemonicFp, legacySeed with
  | some fp, _ => .ok (store, some fp)
  | none, some bytes =>
    match K.deriveMnemonic bytes with
    | none => .error (.Wrapped "err-failed-seed-fingerprinting")
    | some phrase =>
      .ok (store.addSeed (mnemonicEntry K phrase), some (mnemonicEntry K phrase).fingerprint)
  | none, none => .ok (store, none)

def Account.isDerived (account : Account) : Bool :=
  match account.keySource with
  | some (.Derived ..) => true
  | _ => false

/-- `is_seedless_legacy_account` (lines 808–811). -/
def Account.isSeedlessLegacyAccount (account : Account) : Bool :=
  account.provenance == some zcashdLegacySource && !account.isDerived

/-- `has_seedless_legacy_account` (lines 798–804). -/
def hasSeedlessLegacyAccount (document : Document) : Bool :=
  document.accounts.any Account.isSeedlessLegacyAccount

/-- The secrets of the document and its mnemonic seed (lines 302–346). -/
def ownRoots (K : Codecs) (document : Document) :
    Except MigrateError (Option SecretStore × Option String) :=
  match document.secrets with
  | some .Encrypted => .error .EncryptedSecrets
  | some (.Plain store) => (normalize K store).map fun (store, fp) => (some store, fp)
  | none => .ok (none, none)

/-- Whether a run mints a seed. -/
def mints (document : Document) (own : Option SecretStore × Option String) : Prop :=
  own.2 = none ∧ hasSeedlessLegacyAccount document = true

instance (document : Document) (own : Option SecretStore × Option String) :
    Decidable (mints document own) :=
  inferInstanceAs (Decidable (_ ∧ _))

/-- The secrets that a run works with (lines 347–361). -/
def rootsOf (K : Codecs) (mint : String) (document : Document) : Except MigrateError Roots := do
  let own ← ownRoots K document
  if mints document own then
    .ok ⟨some ((own.1.getD ⟨[], [], []⟩).addSeed (mnemonicEntry K mint)),
      some (mnemonicEntry K mint).fingerprint, true⟩
  else .ok ⟨own.1, own.2, false⟩

/-- The seed fingerprint of an account from a `zcashd` wallet (lines 371–382). -/
def zcashdSeed (account : WalletAccount) : Option SeedFingerprint :=
  match account.source with
  | .Derived derivation (some source) =>
    if source = zcashdMnemonicSource ∨ source = zcashdLegacySource then
      some derivation.seedFingerprint
    else none
  | _ => none

/-- `existing_zcashd_sourced_accounts` (lines 365–387). -/
def existingSeeds (db : Db) : List SeedFingerprint := db.accounts.filterMap zcashdSeed

/-- The reads of the loop over the accounts. -/
def readAccounts (run : Run) (n : ℕ) : Except MigrateError Unit := do
  run.ask .AccountIds .Database
  (List.range n).forM fun i => run.ask (.GetAccount i) .Database

/-- The check for an earlier import (lines 388–398). -/
def checkDuplicate (K : Codecs) (run : Run) (db : Db) (mnemonicFp : Option String) :
    Except MigrateError Unit :=
  if existingSeeds db = [] then .ok ()
  else if run.allowMultipleWalletImports then
    match mnemonicFp.bind K.decodeSeedFingerprint with
    | some fp => if fp ∈ existingSeeds db then .error (.DuplicateImport fp) else .ok ()
    | none => .ok ()
  else .error .MultiImportDisabled

/-- The key source of an account in the enriched document (lines 957–985). -/
def enrichedKeySource (mnemonicFp : Option String) (account : Account) : Option KeySource :=
  match mnemonicFp, account.keySource with
  | some fp, some (.Derived seed index legacyAddressIndex) =>
    if index = zcashdLegacyAccountIndex ∧ seed ≠ fp then
      some (.Derived fp zcashdLegacyAccountIndex legacyAddressIndex)
    else account.keySource
  | some fp, _ =>
    if account.isSeedlessLegacyAccount then some (.Derived fp zcashdLegacyAccountIndex none)
    else account.keySource
  | none, _ => account.keySource

/-- `enriched_document` (lines 938–1018). -/
def enrichedDocument (document : Document) (roots : Roots) : Document where
  network := document.network
  accounts := document.accounts.map fun account =>
    { account with keySource := enrichedKeySource roots.mnemonicFp account }
  secrets := roots.secretStore.map .Plain

/-- What a run imports. -/
structure Plan where
  document : Document
  roots : Roots
  exposureHeight : ℕ
  deriving DecidableEq

/-- `check_network` (lines 215–233). -/
def checkNetwork (document : Document) (store : Store) : Except MigrateError Unit :=
  if document.network = store.network then .ok ()
  else .error (.NetworkMismatch document.network store.network)

/-- The part of a run before its first write (lines 243–479). -/
def prepare (K : Codecs) (run : Run) (document : Document) (store : Store) :
    Except MigrateError Plan := do
  run.ask .DbHandle .Wrapped
  checkNetwork document store
  run.ask .Chain .Wrapped
  let roots ← rootsOf K run.mint document
  readAccounts run store.db.accounts.length
  checkDuplicate K run store.db roots.mnemonicFp
  let exposureHeight ← run.birthday.mapError .Wrapped
  run.ask .Encryptor .Wrapped
  .ok ⟨enrichedDocument document roots, roots, exposureHeight⟩

/-! ## The keystore sink -/

/-- The result of a step that keeps the store when it fails. -/
abbrev Outcome (α : Type) := Except MigrateError α × Store

def Outcome.andThen {α β : Type} (r : Outcome α) (f : α → Store → Outcome β) : Outcome β :=
  match r with
  | (.error e, s) => (.error e, s)
  | (.ok a, s) => f a s

/-- The steps of a loop over a list, each with its position. -/
def forEach {α : Type} (f : ℕ → α → Store → Outcome Unit) : ℕ → List α → Store → Outcome Unit
  | _, [], s => (.ok (), s)
  | i, a :: rest, s => (f i a s).andThen fun _ s => forEach f (i + 1) rest s

/-- `check_fingerprint` (lines 107–122). -/
def checkFingerprint (K : Codecs) (recorded : String) (computed : SeedFingerprint) :
    Except MigrateError Unit :=
  match K.decodeSeedFingerprint recorded with
  | none => .error (.SecretSink (.SeedFingerprintEncoding recorded))
  | some decoded =>
    if decoded = computed then .ok () else .error (.SecretSink (.SeedFingerprintMismatch recorded))

def Store.addMnemonic (s : Store) (fp : SeedFingerprint) : Store :=
  { s with keystore := { s.keystore with mnemonics := insert fp s.keystore.mnemonics } }

def Store.addLegacySeed (s : Store) (fp : SeedFingerprint) : Store :=
  { s with keystore := { s.keystore with legacySeeds := insert fp s.keystore.legacySeeds } }

/-- `store_seed` (lines 130–163): the seed is stored before its fingerprint is
    checked. -/
def storeSeed (K : Codecs) (run : Run) (i : ℕ) (entry : SeedEntry) (s : Store) : Outcome Unit :=
  match entry.material with
  | .Bip39Mnemonic phrase language =>
    if language.any (· ≠ .English) then (.error (.SecretSink .UnsupportedMnemonicLanguage), s)
    else
      match K.fromPhrase phrase, run.fault (.StoreSeed i) with
      | .error text, _ => (.error (.SecretSink (.InvalidMnemonic text)), s)
      | .ok _, some text => (.error (.SecretSink (.Keystore text)), s)
      | .ok _, none => (checkFingerprint K entry.fingerprint (K.phraseFingerprint phrase),
          s.addMnemonic (K.phraseFingerprint phrase))
  | .LegacySeed bytes =>
    match K.legacyFingerprint bytes, run.fault (.StoreSeed i) with
    | none, _ => (.error (.SecretSink (.Keystore "err-failed-seed-fingerprinting")), s)
    | some _, some text => (.error (.SecretSink (.Keystore text)), s)
    | some fp, none => (checkFingerprint K entry.fingerprint fp, s.addLegacySeed fp)

/-- The serialization that a transparent key is stored under. -/
def TransparentKey.serialize (key : TransparentKey) : List UInt8 :=
  if key.compressed then key.pubkey.bytes else key.serializeUncompressed

/-- `store_transparent_key` (lines 165–193). -/
def storeTransparentKey (K : Codecs) (run : Run) (i : ℕ) (entry : TransparentKeyEntry) (s : Store) :
    Outcome Unit :=
  match K.decodeTransparentKey entry.spendingKey with
  | none => (.error (.SecretSink .TransparentKeyDecoding), s)
  | some key =>
    if key.serialize ≠ entry.pubkey then (.error (.SecretSink .TransparentKeyMismatch), s)
    else
      match run.fault (.StoreTransparentKey i) with
      | some text => (.error (.SecretSink (.Keystore text)), s)
      | none => (.ok (), { s with keystore :=
          { s.keystore with transparentKeys := insert key.pubkey s.keystore.transparentKeys } })

/-- `store_sapling_key` (lines 195–218). -/
def storeSaplingKey (K : Codecs) (run : Run) (i : ℕ) (entry : SaplingKeyEntry) (s : Store) :
    Outcome Unit :=
  match K.decodeSaplingKey entry.spendingKey with
  | .error text => (.error (.SecretSink (.SaplingKeyDecoding text)), s)
  | .ok extsk =>
    if K.encodeFvk extsk ≠ entry.fvk then (.error (.SecretSink .SaplingKeyMismatch), s)
    else
      match run.fault (.StoreSaplingKey i) with
      | some text => (.error (.SecretSink (.Keystore text)), s)
      | none => (.ok (), { s with keystore :=
          { s.keystore with saplingKeys := insert (K.dfvk extsk) s.keystore.saplingKeys } })

/-- The secrets of the document go to the keystore (migrate_zcashd_wallet.rs,
    lines 480–512). -/
def persist (K : Codecs) (run : Run) (document : Document) (s : Store) : Outcome Unit :=
  match document.secrets with
  | some (.Plain store) =>
    (forEach (storeSeed K run) 0 store.seeds s).andThen fun _ s =>
      (forEach (storeTransparentKey K run) 0 store.transparentKeys s).andThen fun _ s =>
        forEach (storeSaplingKey K run) 0 store.saplingKeys s
  | _ => (.ok (), s)

/-! ## The import -/

structure ImportedAccount where
  name : String
  account : ℕ
  deriving DecidableEq

/-- `ZewifImportReport`, without its counters. -/
structure Report where
  importedAccounts : List ImportedAccount
  skippedAccounts : List (String × AccountSkipReason)
  skippedTransparentKeys : List (Option String × TransparentKeySkipReason)
  deriving DecidableEq

/-- The account of the wallet database that an account of the document becomes. A
    fingerprint that does not decode names no seed. -/
def walletAccount (K : Codecs) (account : Account) : WalletAccount where
  name := account.name
  source :=
    match account.keySource with
    | some (.Derived seed index _) =>
      match K.decodeSeedFingerprint seed with
      | some fp => .Derived ⟨fp, index⟩ account.provenance
      | none => .Imported account.provenance
    | _ => .Imported account.provenance

/-- The accounts of a document that are not skipped. -/
def Importer.accepted (I : Importer) (document : Document) : List Account :=
  document.accounts.filter fun account => (I.skip account.viewingKey account.isDerived).isNone

def Importer.skipped (I : Importer) (document : Document) : List (String × AccountSkipReason) :=
  document.accounts.filterMap fun account =>
    (I.skip account.viewingKey account.isDerived).map (account.name, ·)

/-- The keys registered with the accounts from position `n` on. -/
def Importer.newKeys (I : Importer) (document : Document) (n : ℕ) : List (ℕ × PublicKey) :=
  ((I.accepted document).zipIdx n).flatMap fun (account, i) =>
    (I.keysOf document account).map (i, ·)

/-- The imported accounts of the report, if the first one is at position `n`. -/
def Importer.imported (I : Importer) (document : Document) (n : ℕ) : List ImportedAccount :=
  ((I.accepted document).zipIdx n).map fun (account, i) => ⟨account.name, i⟩

/-- `import_wallet`. -/
def importWallet (K : Codecs) (I : Importer) (document : Document) (s : Store) : Outcome Report :=
  match I.refuses s.db document with
  | some text => (.error (.Import text), s)
  | none =>
    (.ok ⟨I.imported document s.db.accounts.length, I.skipped document, I.skippedKeys document⟩,
      { s with db := { s.db with
          accounts := s.db.accounts ++ (I.accepted document).map (walletAccount K)
          keys := s.db.keys ∪ (I.newKeys document s.db.accounts.length).toFinset } })

/-- `seed_is_referenced` (lines 759–772), where its reads succeed. -/
def seedIsReferenced (db : Db) (seedFp : SeedFingerprint) : Bool :=
  db.accounts.any fun account =>
    match account.source with
    | .Derived derivation _ => derivation.seedFingerprint == seedFp
    | .Imported _ => false

/-- `remove_provisional_mnemonic` (lines 715–756) for a minted seed. -/
def removeProvisionalMnemonic (K : Codecs) (run : Run) (mnemonicFp : String) (s : Store) : Store :=
  match K.decodeSeedFingerprint mnemonicFp with
  | none => s
  | some decoded =>
    if run.fault .SeedIsReferenced ≠ none ∨ run.fault .DeleteMnemonic ≠ none then s
    else if seedIsReferenced s.db decoded then s
    else { s with keystore := { s.keystore with mnemonics := s.keystore.mnemonics.erase decoded } }

/-- The secrets and an import, with the minted seed taken back if they fail
    (lines 480–559). -/
def persistAndImportWith (K : Codecs) (importDocument : Document → Store → Outcome Report)
    (run : Run) (plan : Plan) (s : Store) : Outcome Report :=
  match (persist K run plan.document s).andThen fun _ s => importDocument plan.document s with
  | (.ok report, s) => (.ok report, s)
  | (.error e, s) =>
    match plan.roots.mintedSeed, plan.roots.mnemonicFp with
    | true, some fp => (.error e, removeProvisionalMnemonic K run fp s)
    | _, _ => (.error e, s)

def persistAndImport (K : Codecs) (I : Importer) (run : Run) (plan : Plan) (s : Store) :
    Outcome Report :=
  persistAndImportWith K (importWallet K I) run plan s

/-! ## After the import -/

/-- The watch-only pubkeys of an account (lines 661–679). -/
def watchPubkeys (K : Codecs) (account : Account) : List PublicKey :=
  account.addresses.filterMap fun
    | .Transparent false (some pubkey) =>
      if pubkey.length = 33 then K.parsePublicKey pubkey else none
    | _ => none

/-- `accounts_by_name` (lines 649–653): of two accounts of one name the later is
    kept. -/
def Report.accountsByName (report : Report) (name : String) : Option ℕ :=
  (report.importedAccounts.reverse.find? (·.name = name)).map (·.account)

/-- One turn of the loop of `register_watch_pubkeys` (lines 657–701). -/
def registerWatchPubkeys (K : Codecs) (run : Run) (report : Report) (exposureHeight : ℕ) (i : ℕ)
    (account : Account) (s : Store) : Outcome Unit :=
  match report.accountsByName account.name with
  | none => (.ok (), s)
  | some id =>
    if watchPubkeys K account = [] then (.ok (), s)
    else
      match run.fault (.ImportPubkeys i) with
      | some text => (.error (.Database text), s)
      | none =>
        let s := { s with db := { s.db with
          watch := s.db.watch ∪ ((watchPubkeys K account).map (id, ·)).toFinset } }
        match run.fault (.MarkExposed i) with
        | some text => (.error (.Database text), s)
        | none => (.ok (), { s with db := { s.db with
            exposed := s.db.exposed ++
              (watchPubkeys K account).map fun pk => (K.fromPubkey pk, exposureHeight) } })

/-- `check_import_report` (lines 1090–1112). -/
def checkImportReport (report : Report) (documentAccountCount : ℕ) (allowPartialImport : Bool) :
    Except MigrateError Unit :=
  if documentAccountCount > 0 ∧ report.importedAccounts = [] then
    .error (.NothingImported documentAccountCount)
  else if (report.skippedAccounts ≠ [] ∨ report.skippedTransparentKeys ≠ []) ∧
      allowPartialImport = false then
    .error (.PartialImport report.skippedAccounts report.skippedTransparentKeys)
  else .ok ()

/-- The part of a run after the import has committed (lines 574–594). -/
def finish (K : Codecs) (run : Run) (plan : Plan) (report : Report) (s : Store) : Outcome Unit :=
  (forEach (registerWatchPubkeys K run report plan.exposureHeight) 0 plan.document.accounts s).andThen
    fun _ s =>
      (checkImportReport report plan.document.accounts.length run.allowPartialImport, s)

/-- `migrate_zcashd_wallet` (lines 235–596), from the document on. -/
def migrateWith (K : Codecs) (importDocument : Document → Store → Outcome Report) (run : Run)
    (document : Document) (s : Store) : Outcome Unit :=
  match prepare K run document s with
  | .error e => (.error e, s)
  | .ok plan =>
    (persistAndImportWith K importDocument run plan s).andThen fun report s =>
      finish K run plan report s

def migrate (K : Codecs) (I : Importer) (run : Run) (document : Document) (s : Store) :
    Outcome Unit :=
  migrateWith K (importWallet K I) run document s

end Zallet.Migrate
