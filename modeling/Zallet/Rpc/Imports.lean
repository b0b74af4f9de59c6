import Zallet.Effect.History
import Zallet.Rpc.AsyncOp
import Zallet.Wallet.Types

/-!
# Adding accounts, keys and addresses

The calls that add something to the wallet (`zallet-core/src/components`,
directory `json_rpc/methods` unless said otherwise): `z_recoveraccounts`
(recover_accounts.rs), `z_importkey` (import_key.rs), `z_importviewingkey`
(import_viewing_key.rs), `z_importaddress` (z_import_address.rs),
`z_getnewaccount` (get_new_account.rs) and the `import-address` command
(zallet-core/src/commands/import_address.rs).

A call is a program over its calls of the keystore, the chain, the wallet
database and the decryptor. Each of them may fail, and then nothing was written.

* `Codecs` are the parsers and key derivations of other crates. They are
  functions of their argument: the network never changes.
* An error of another crate is its text.
* `Tables` is what an import writes: the accounts, the tracked transparent
  addresses and the standalone Sapling keys of the keystore. A rewind changes the
  scan queue only, which is not part of it.
-/

namespace Zallet.Rpc

open Zallet.Effect Zallet.Chain Zallet.Wallet

/-! ## Data -/

structure SeedFingerprint where
  bytes : List UInt8
  deriving DecidableEq

structure Seed where
  bytes : List UInt8
  deriving DecidableEq

/-- `UnifiedFullViewingKey`, by its encoding. -/
structure Ufvk where
  encoding : String
  deriving DecidableEq

structure ExtendedSpendingKey where
  bytes : List UInt8
  deriving DecidableEq

structure ExtendedFullViewingKey where
  bytes : List UInt8
  deriving DecidableEq

/-- `DiversifiableFullViewingKey`. -/
structure Dfvk where
  bytes : List UInt8
  deriving DecidableEq

structure PublicKey where
  bytes : List UInt8
  deriving DecidableEq

/-- A redeem script, by its code. -/
structure Redeem where
  code : List UInt8
  deriving DecidableEq

structure Zip32Derivation where
  seedFingerprint : SeedFingerprint
  accountIndex : ℕ
  deriving DecidableEq

inductive AccountPurpose
  | Spending (derivation : Option Zip32Derivation)
  | ViewOnly
  deriving DecidableEq

inductive AccountSource
  | Derived (derivation : Zip32Derivation)
  | Imported (purpose : AccountPurpose)
  deriving DecidableEq

/-- `AccountSource::key_derivation`. -/
def AccountSource.keyDerivation : AccountSource → Option Zip32Derivation
  | Derived derivation => some derivation
  | Imported (.Spending derivation) => derivation
  | Imported .ViewOnly => none

/-- `Account::purpose`. -/
def AccountSource.purpose : AccountSource → AccountPurpose
  | Derived derivation => .Spending (some derivation)
  | Imported purpose => purpose

structure Account where
  id : AccountUuid
  name : String
  source : AccountSource
  ufvk : Ufvk
  birthday : ℕ
  deriving DecidableEq

/-- `AccountBirthday`. -/
structure AccountBirthday where
  priorChainState : ChainState
  recoverUntil : Option ℕ
  deriving DecidableEq

/-- `AccountBirthday::height`. -/
def AccountBirthday.height (birthday : AccountBirthday) : ℕ :=
  birthday.priorChainState.blockHeight + 1

/-- `EncryptedStandaloneSaplingKey` (keystore.rs, lines 1282–1285). -/
structure EncryptedStandaloneSaplingKey where
  dfvk : Dfvk
  encryptedSaplingExtsk : List UInt8
  deriving DecidableEq

/-- The errors of the JSON-RPC interface that the calls use
    (server/error.rs, lines 13–76). -/
inductive LegacyCode
  | Misc
  | Wallet
  | InvalidAddressOrKey
  | InvalidParameter
  | WalletUnlockNeeded
  | WalletBackupRequired
  | Database
  | InWarmup
  deriving DecidableEq

def LegacyCode.code : LegacyCode → ℤ
  | Misc => -1
  | Wallet => -4
  | InvalidAddressOrKey => -5
  | InvalidParameter => -8
  | WalletUnlockNeeded => -13
  | WalletBackupRequired => -18
  | Database => -20
  | InWarmup => -28

/-- `LegacyCode::with_message` and `with_static`. -/
def LegacyCode.withMessage (code : LegacyCode) (message : String) : RpcError := ⟨code.code, message⟩

/-- `ErrorCode::InvalidParams` of the JSON-RPC crate. -/
def invalidParams : RpcError := ⟨-32602, "Invalid params"⟩

/-- An `ErrorCode::InternalError` with a message. -/
def internalError (message : String) : RpcError := ⟨-32603, message⟩

/-- The error of a command: its kind and the name of its message, or the text
    of its source. -/
inductive CommandError
  | Generic (text : String)
  | Chain (text : String)
  deriving DecidableEq

/-- The parsers and derivations of the crates the calls use. -/
structure Codecs where
  parseUuid : String → Option AccountUuid
  parseSeedFingerprint : String → Except String SeedFingerprint
  hexDecode : String → Option (List UInt8)
  publicKeyFromSlice : List UInt8 → Option PublicKey
  fromPubkey : PublicKey → TransparentAddress
  hash160 : List UInt8 → BitVec 160
  parseRedeem : List UInt8 → Option Redeem
  encodeAddress : TransparentAddress → String
  decodeAddress : String → Option TransparentAddress
  decodeExtendedSpendingKey : String → Except String ExtendedSpendingKey
  decodeExtendedFullViewingKey : String → Except String ExtendedFullViewingKey
  toExtendedFullViewingKey : ExtendedSpendingKey → ExtendedFullViewingKey
  /-- The encoding of the key's default payment address. -/
  defaultAddress : ExtendedFullViewingKey → String
  fromSaplingExtendedFullViewingKey : ExtendedFullViewingKey → Except String Ufvk
  seedFingerprint : Seed → SeedFingerprint

/-! ## The calls of other components -/

/-- The calls of the keystore, the chain, the wallet database and the
    decryptor. `importSaplingKey` is the transaction of `z_importkey`
    (import_key.rs, lines 174–201). -/
inductive ImportOp
  | isLocked
  | listSeedFingerprints
  | backupRequired (seedFp : SeedFingerprint)
  | decryptSeed (seedFp : SeedFingerprint)
  | encryptStandaloneSaplingKey (extsk : ExtendedSpendingKey)
  | lockDatadir
  | openDatabase
  | buildChain
  | snapshot
  | tip (view : ℕ)
  | treeStateAsOf (view : ℕ) (height : ℕ)
  | chainHeight
  | getAccount (account : AccountUuid)
  | getAccountIds
  | getAccountForUfvk (ufvk : Ufvk)
  | getAccountBirthday (account : AccountUuid)
  | createAccount (name : String) (seed : Seed) (birthday : AccountBirthday)
  | importAccountHd (name : String) (seed : Seed) (accountIndex : ℕ) (birthday : AccountBirthday)
  | importAccountUfvk (name : String) (ufvk : Ufvk) (birthday : AccountBirthday)
      (purpose : AccountPurpose)
  | importSaplingKey (name : String) (ufvk : Ufvk) (birthday : Option AccountBirthday)
      (key : EncryptedStandaloneSaplingKey)
  | importStandaloneTransparentPubkey (account : AccountUuid) (pubkey : PublicKey)
  | importStandaloneTransparentScript (account : AccountUuid) (script : Redeem)
  | importStandaloneTransparentAddress (account : AccountUuid) (address : TransparentAddress)
  | rewindToChainState (chainState : ChainState)
  | reloadKeys
  deriving DecidableEq

/-- `ImportError` (import_key.rs, lines 74–77). -/
inductive ImportError
  | Database (text : String)
  | Keystore (text : String)
  deriving DecidableEq

@[reducible] def ImportOp.Ret : ImportOp → Type
  | isLocked => Bool
  | listSeedFingerprints => Except String (List SeedFingerprint)
  | backupRequired _ => Except String Bool
  | decryptSeed _ => Except String Seed
  | encryptStandaloneSaplingKey _ => Except String EncryptedStandaloneSaplingKey
  | lockDatadir => Except CommandError Unit
  | openDatabase => Except CommandError Unit
  | buildChain => Except CommandError Unit
  | snapshot => Except String ℕ
  | tip _ => Except String ChainBlock
  | treeStateAsOf _ _ => Except String (Option ChainState)
  | chainHeight => Except String (Option ℕ)
  | getAccount _ => Except String (Option Account)
  | getAccountIds => Except String (List AccountUuid)
  | getAccountForUfvk _ => Except String (Option Account)
  | getAccountBirthday _ => Except String ℕ
  | createAccount _ _ _ => Except String Account
  | importAccountHd _ _ _ _ => Except String Account
  | importAccountUfvk _ _ _ _ => Except String Account
  | importSaplingKey _ _ _ _ => Except ImportError Unit
  | importStandaloneTransparentPubkey _ _ => Except String Unit
  | importStandaloneTransparentScript _ _ => Except String Unit
  | importStandaloneTransparentAddress _ _ => Except String Unit
  | rewindToChainState _ => Except String Unit
  | reloadKeys => Option Unit

@[reducible] def importSig : Sig := ⟨ImportOp, ImportOp.Ret⟩

/-- `.map_err(|e| code.with_message(e.to_string()))`. -/
def askRpc {α : Type} (code : LegacyCode) (p : Prog importSig (Except String α)) :
    ExceptT RpcError (Prog importSig) α :=
  liftE code.withMessage p

/-- `Option::ok_or`. -/
def okOr {ε α : Type} (e : ε) : Option α → ExceptT ε (Prog importSig) α
  | some a => pure a
  | none => throw e

/-- `Result::map_err` on the result of a pure function. -/
def mapErr {ε δ α : Type} (f : δ → ε) : Except δ α → ExceptT ε (Prog importSig) α
  | .ok a => pure a
  | .error e => throw (f e)

/-! ## Shared steps -/

/-- `ensure_wallet_is_unlocked` (json_rpc/utils.rs, lines 52–61). -/
def ensureWalletIsUnlocked : ExceptT RpcError (Prog importSig) Unit := do
  if ← lift (Prog.call (S := importSig) .isLocked) then
    throw (LegacyCode.WalletUnlockNeeded.withMessage
      "Error: Please enter the wallet passphrase with walletpassphrase first.")
  else pure ()

/-- `ensure_seed_is_backed_up` (json_rpc/utils.rs, lines 70–87). -/
def ensureSeedIsBackedUp (seedFp : SeedFingerprint) : ExceptT RpcError (Prog importSig) Unit := do
  if ← askRpc .Database (Prog.call (S := importSig) (.backupRequired seedFp)) then
    throw (LegacyCode.WalletBackupRequired.withMessage
      "Error: Please acknowledge that you have backed up the wallet's emergency recovery phrase by using the zallet confirm-backup command first.")
  else pure ()

/-- `parse_seedfp` (json_rpc/utils.rs, lines 221–235): the current encoding, or
    the reversed bytes of 32 bytes of hex. -/
def parseSeedfp (K : Codecs) (seedfp : String) : Except String SeedFingerprint :=
  match K.parseSeedFingerprint seedfp with
  | .ok fp => .ok fp
  | .error e =>
    match K.hexDecode seedfp with
    | some hash => if hash.length = 32 then .ok ⟨hash.reverse⟩ else .error e
    | none => .error e

/-- `parse_seedfp_parameter` (json_rpc/utils.rs, lines 214–218). -/
def parseSeedfpParameter (K : Codecs) (seedfp : String) :
    ExceptT RpcError (Prog importSig) SeedFingerprint :=
  mapErr (fun e => LegacyCode.InvalidParameter.withMessage ("Invalid seed fingerprint: " ++ e))
    (parseSeedfp K seedfp)

/-- `ChainState::empty`. -/
def ChainState.empty (height : ℕ) (hash : BlockHash) : ChainState :=
  ⟨height, hash, ⟨[], 0⟩, ⟨[], 0⟩, ⟨[], 0⟩⟩

/-- `fetch_account_birthday` (json_rpc/utils.rs, lines 157–205). -/
def fetchAccountBirthday (height : ℕ) : ExceptT RpcError (Prog importSig) AccountBirthday :=
  if height = 0 then pure ⟨ChainState.empty 0 0, none⟩
  else do
    let view ← liftE (fun e => internalError ("Failed to obtain a chain snapshot: " ++ e))
      (Prog.call (S := importSig) .snapshot)
    let chainState ← liftE
      (fun e =>
        internalError ("Failed to get treestate at height " ++ toString (height - 1) ++ ": " ++ e))
      (Prog.call (S := importSig) (.treeStateAsOf view (height - 1)))
    let chainState ← okOr
      (internalError ("No treestate available at height " ++ toString (height - 1))) chainState
    pure ⟨chainState, none⟩

/-- Have the decryptor load the viewing keys; a shut down engine is only
    logged. -/
def reloadKeys : ExceptT RpcError (Prog importSig) Unit := do
  let _ ← lift (Prog.call (S := importSig) .reloadKeys)
  pure ()

/-! ## `z_recoveraccounts` -/

/-- `AccountParameter` (recover_accounts.rs, lines 26–32). -/
structure AccountParameter where
  name : String
  seedfp : String
  zip32AccountIndex : ℕ
  birthdayHeight : ℕ
  deriving DecidableEq

/-- An entry of `account_args` (line 103). -/
structure AccountArgs where
  name : String
  seedFp : SeedFingerprint
  accountIndex : ℕ
  birthday : AccountBirthday

/-- `zip32::AccountId::try_from`. -/
def accountIdTryFrom (index : ℕ) : Except String ℕ :=
  if index < 2 ^ 31 then .ok index else .error "out of range integral type conversion attempted"

/-- The arguments for the wallet of one account (lines 72–104). -/
def accountArgs (K : Codecs) (view recoverUntil : ℕ) (account : AccountParameter) :
    ExceptT RpcError (Prog importSig) AccountArgs := do
  let seedFp ← parseSeedfpParameter K account.seedfp
  let accountIndex ← mapErr
    (fun e => LegacyCode.InvalidParameter.withMessage ("Invalid ZIP 32 account index: " ++ e))
    (accountIdTryFrom account.zip32AccountIndex)
  let treestateHeight := account.birthdayHeight - 1
  let chainState ← liftE
    (fun e => LegacyCode.InvalidParameter.withMessage
      ("Failed to get treestate at height " ++ toString treestateHeight ++ ": " ++ e))
    (Prog.call (S := importSig) (.treeStateAsOf view treestateHeight))
  let chainState ← okOr
    (LegacyCode.InvalidParameter.withMessage
      ("Account birthday height " ++ toString account.birthdayHeight ++
        " does not exist in the chain"))
    chainState
  pure ⟨account.name, seedFp, accountIndex, ⟨chainState, some recoverUntil⟩⟩

/-- The loop over the accounts (lines 71–104). -/
def allAccountArgs (K : Codecs) (view recoverUntil : ℕ) :
    List AccountParameter → ExceptT RpcError (Prog importSig) (List AccountArgs)
  | [] => pure []
  | account :: rest => do
    let args ← accountArgs K view recoverUntil account
    let others ← allAccountArgs K view recoverUntil rest
    pure (args :: others)

/-- Fetch the seeds that are not among `seeds` yet (lines 107–119). -/
def fetchSeeds : List AccountArgs → List (SeedFingerprint × Seed) →
    ExceptT RpcError (Prog importSig) (List (SeedFingerprint × Seed))
  | [], seeds => pure seeds
  | args :: rest, seeds =>
    match seeds.lookup args.seedFp with
    | some _ => fetchSeeds rest seeds
    | none => do
      ensureSeedIsBackedUp args.seedFp
      let seed ← askRpc .Database (Prog.call (S := importSig) (.decryptSeed args.seedFp))
      fetchSeeds rest ((args.seedFp, seed) :: seeds)

/-- Import the accounts (lines 122–138). The missing seed is the panic of
    `expect`. -/
def importAccounts (seeds : List (SeedFingerprint × Seed)) :
    List AccountArgs → ExceptT RpcError (Prog importSig) (List (AccountUuid × SeedFingerprint × ℕ))
  | [] => pure []
  | args :: rest => do
    let seed ← okOr (internalError "present") (seeds.lookup args.seedFp)
    let account ← askRpc .Database
      (Prog.call (S := importSig) (.importAccountHd args.name seed args.accountIndex args.birthday))
    let others ← importAccounts seeds rest
    pure ((account.id, args.seedFp, args.accountIndex) :: others)

/-- What `z_recoveraccounts` does before it imports anything (lines 61–119). -/
def recoverPrepare (K : Codecs) (accounts : List AccountParameter) :
    ExceptT RpcError (Prog importSig) (List AccountArgs × List (SeedFingerprint × Seed)) := do
  ensureWalletIsUnlocked
  let view ← askRpc .Database (Prog.call (S := importSig) .snapshot)
  let height ← askRpc .Database (Prog.call (S := importSig) .chainHeight)
  let recoverUntil ← okOr (LegacyCode.InWarmup.withMessage "Wallet sync required") height
  let args ← allAccountArgs K view recoverUntil accounts
  let seeds ← fetchSeeds args []
  pure (args, seeds)

/-- `z_recoveraccounts` (lines 54–148). -/
def recoverAccounts (K : Codecs) (accounts : List AccountParameter) :
    ExceptT RpcError (Prog importSig) (List (AccountUuid × SeedFingerprint × ℕ)) := do
  let (args, seeds) ← recoverPrepare K accounts
  let accounts ← importAccounts seeds args
  reloadKeys
  pure accounts

/-! ## `z_importkey` and `z_importviewingkey` -/

/-- The `rescan` parameter of the key imports. -/
inductive RescanPolicy
  | Yes
  | No
  | WhenKeyIsNew
  deriving DecidableEq

/-- `validate_rescan` (import_key.rs, lines 40–48) and `RescanPolicy::parse`
    (import_viewing_key.rs, lines 48–57). -/
def RescanPolicy.parse : Option String → Except RpcError RescanPolicy
  | none => .ok .WhenKeyIsNew
  | some "whenkeyisnew" => .ok .WhenKeyIsNew
  | some "yes" => .ok .Yes
  | some "no" => .ok .No
  | some _ => .error (LegacyCode.InvalidParameter.withMessage
      "Invalid rescan value. Must be \"yes\", \"no\", or \"whenkeyisnew\".")

/-- `u32::try_from` of a start height. -/
def heightTryFrom (height : ℕ) : Except RpcError ℕ :=
  if height < 2 ^ 32 then .ok height
  else .error (LegacyCode.InvalidParameter.withMessage "Block height out of range.")

/-- `decode_key_and_address` (import_key.rs, lines 53–68). -/
def decodeKeyAndAddress (K : Codecs) (key : String) :
    Except RpcError (ExtendedSpendingKey × String) :=
  match K.decodeExtendedSpendingKey key with
  | .ok extsk => .ok (extsk, K.defaultAddress (K.toExtendedFullViewingKey extsk))
  | .error e => .error (LegacyCode.InvalidAddressOrKey.withMessage ("Invalid spending key: " ++ e))

/-- The birthday of a key that is new to the wallet, `none` for a key it
    holds (import_key.rs, lines 143–167). -/
def importKeyBirthday (rescan : RescanPolicy) (startHeight : ℕ) (chainTip : Option ℕ)
    (isNewKey : Bool) : ExceptT RpcError (Prog importSig) (Option AccountBirthday) :=
  if isNewKey then do
    let birthday ← fetchAccountBirthday
      (match rescan with
        | .Yes => startHeight
        | .WhenKeyIsNew => startHeight
        | .No => chainTip.getD 0)
    pure (some birthday)
  else pure none

/-- `ImportError` as an RPC error (import_key.rs, lines 198–201). -/
def importErrorRpc : ImportError → RpcError
  | .Database e => LegacyCode.Database.withMessage e
  | .Keystore e => LegacyCode.Wallet.withMessage e

/-- `z_importkey` (import_key.rs, lines 90–217). -/
def importKey (K : Codecs) (key : String) (rescan : Option String) (startHeight : Option ℕ) :
    ExceptT RpcError (Prog importSig) String := do
  let rescan ← mapErr id (RescanPolicy.parse rescan)
  let startHeight ← mapErr id (heightTryFrom (startHeight.getD 0))
  let chainTip ← askRpc .Database (Prog.call (S := importSig) .chainHeight)
  if rescan ≠ .No ∧ chainTip.any (· < startHeight) then
    throw (LegacyCode.InvalidParameter.withMessage "Block height out of range.")
  else do
    let (extsk, address) ← mapErr id (decodeKeyAndAddress K key)
    let encryptedKey ← askRpc .Wallet
      (Prog.call (S := importSig) (.encryptStandaloneSaplingKey extsk))
    let ufvk ← mapErr LegacyCode.Wallet.withMessage
      (K.fromSaplingExtendedFullViewingKey (K.toExtendedFullViewingKey extsk))
    let existing ← askRpc .Database (Prog.call (S := importSig) (.getAccountForUfvk ufvk))
    let birthday ← importKeyBirthday rescan startHeight chainTip existing.isNone
    liftE importErrorRpc (Prog.call (S := importSig)
      (.importSaplingKey ("Imported Sapling key " ++ String.ofList (address.toList.take 16)) ufvk
        birthday encryptedKey))
    reloadKeys
    pure address

/-- `decode_vkey_and_address` (import_viewing_key.rs, lines 64–78). -/
def decodeVkeyAndAddress (K : Codecs) (vkey : String) :
    Except RpcError (ExtendedFullViewingKey × String) :=
  match K.decodeExtendedFullViewingKey vkey with
  | .ok extfvk => .ok (extfvk, K.defaultAddress extfvk)
  | .error e => .error (LegacyCode.InvalidAddressOrKey.withMessage ("Invalid viewing key: " ++ e))

/-- `z_importviewingkey` for a key that is known to the wallet, or not
    (import_viewing_key.rs, lines 119–158). -/
def importUfvk (address : String) (ufvk : Ufvk) (rescan : RescanPolicy)
    (startHeight chainTip : Option ℕ) : Option Account → ExceptT RpcError (Prog importSig) Unit
  | some account =>
    match account.source.purpose with
    | .Spending _ => throw (LegacyCode.Wallet.withMessage
        ("The wallet already contains the private key for this viewing key (address: " ++ address
          ++ ")"))
    | .ViewOnly => pure ()
  | none => do
    let birthday ← fetchAccountBirthday
      (match rescan with
        | .Yes => startHeight.getD 0
        | .WhenKeyIsNew => startHeight.getD 0
        | .No => startHeight.getD (chainTip.getD 0))
    let _ ← askRpc .Database (Prog.call (S := importSig)
      (.importAccountUfvk ("Imported Sapling viewing key " ++ address) ufvk birthday .ViewOnly))
    pure ()

/-- `z_importviewingkey` (import_viewing_key.rs, lines 80–164). -/
def importViewingKey (K : Codecs) (vkey : String) (rescan : Option String)
    (startHeight : Option ℕ) : ExceptT RpcError (Prog importSig) String := do
  let rescan ← mapErr id (RescanPolicy.parse rescan)
  let startHeight ← mapErr id ((startHeight.map heightTryFrom).elim (.ok none) (·.map some))
  let chainTip ← askRpc .Database (Prog.call (S := importSig) .chainHeight)
  if startHeight.any (fun height => chainTip.any (· < height)) then
    throw (LegacyCode.InvalidParameter.withMessage "Block height out of range.")
  else do
    let (extfvk, address) ← mapErr id (decodeVkeyAndAddress K vkey)
    let ufvk ← mapErr LegacyCode.Wallet.withMessage (K.fromSaplingExtendedFullViewingKey extfvk)
    let existing ← askRpc .Database (Prog.call (S := importSig) (.getAccountForUfvk ufvk))
    importUfvk address ufvk rescan startHeight chainTip existing
    pure address

/-! ## `z_importaddress` and `import-address` -/

/-- `ResultType` (z_import_address.rs, lines 27–33). -/
structure ImportedAddress where
  kind : String
  address : String
  deriving DecidableEq

/-- `ParsedImport` (lines 118–127). -/
inductive ParsedImport
  | P2pkh (pubkey : PublicKey) (result : ImportedAddress)
  | P2sh (script : Redeem) (result : ImportedAddress)
  deriving DecidableEq

/-- `ParseImportError` (lines 132–137). -/
inductive ParseImportError
  | InvalidHex
  | NotKeyOrScript
  deriving DecidableEq

/-- `parse_import_rpc_error` (lines 141–150). -/
def parseImportRpcError (hexData : String) : ParseImportError → RpcError
  | .InvalidHex => LegacyCode.InvalidParameter.withMessage "Invalid hex encoding"
  | .NotKeyOrScript => LegacyCode.InvalidParameter.withMessage
      ("Unrecognized input (not a valid pubkey or redeem script): " ++ hexData)

/-- `parse_import` (lines 155–183). -/
def parseImport (K : Codecs) (hexData : String) : Except ParseImportError ParsedImport :=
  match K.hexDecode hexData with
  | none => .error .InvalidHex
  | some bytes =>
    match K.publicKeyFromSlice bytes with
    | some pubkey => .ok (.P2pkh pubkey ⟨"p2pkh", K.encodeAddress (K.fromPubkey pubkey)⟩)
    | none =>
      match K.parseRedeem bytes with
      | some script =>
        .ok (.P2sh script ⟨"p2sh", K.encodeAddress (.ScriptHash (K.hash160 bytes))⟩)
      | none => .error .NotKeyOrScript

/-- The import of a public key or a redeem script (z_import_address.rs, lines
    69–82; commands/import_address.rs, lines 96–107). -/
def importParsed {ε : Type} (dbError : String → ε) (account : AccountUuid) :
    ParsedImport → ExceptT ε (Prog importSig) ImportedAddress
  | .P2pkh pubkey result => do
    liftE dbError (Prog.call (S := importSig) (.importStandaloneTransparentPubkey account pubkey))
    pure result
  | .P2sh script result => do
    liftE dbError (Prog.call (S := importSig) (.importStandaloneTransparentScript account script))
    pure result

/-- The rescan after an address import (z_import_address.rs, lines 85–101;
    commands/import_address.rs, lines 114–134). The two differ in their errors
    only. -/
def rescan {ε : Type} (dbError chainError : String → ε) (noChainState : ε) (rewindError : String → ε)
    (account : AccountUuid) : ExceptT ε (Prog importSig) Unit := do
  let birthday ← liftE dbError (Prog.call (S := importSig) (.getAccountBirthday account))
  let view ← liftE chainError (Prog.call (S := importSig) .snapshot)
  let chainState ← liftE chainError (Prog.call (S := importSig) (.treeStateAsOf view (birthday - 1)))
  let chainState ← okOr noChainState chainState
  liftE rewindError (Prog.call (S := importSig) (.rewindToChainState chainState))

/-- `z_importaddress` (z_import_address.rs, lines 42–104). -/
def zImportAddress (K : Codecs) (account hexData : String) (wantRescan : Option Bool) :
    ExceptT RpcError (Prog importSig) ImportedAddress := do
  let accountId ← okOr invalidParams (K.parseUuid account)
  let parsed ← mapErr (parseImportRpcError hexData) (parseImport K hexData)
  let result ← importParsed LegacyCode.Database.withMessage accountId parsed
  if wantRescan.getD true then
    rescan LegacyCode.Database.withMessage LegacyCode.Database.withMessage
      (LegacyCode.Database.withMessage "chain state unavailable for rescan")
      (fun e => LegacyCode.Misc.withMessage ("Rescan failed: " ++ e)) accountId
  else pure ()
  pure result

/-- `ZCASH_LEGACY_ACCOUNT`. -/
def zcashLegacyAccount : ℕ := 0x7fffffff

/-- `is_legacy_pool_account` (json_rpc/payments.rs, lines 1116–1122). -/
def isLegacyPoolAccount (derivation : Zip32Derivation) (legacySeedFp : SeedFingerprint) : Bool :=
  derivation.seedFingerprint == legacySeedFp && derivation.accountIndex == zcashLegacyAccount

/-- The loop of `legacy_pool_account` (json_rpc/payments.rs, lines
    1167–1190). -/
def legacyPoolFrom (legacySeedFp : SeedFingerprint) :
    List AccountUuid → ExceptT CommandError (Prog importSig) Account
  | [] => throw (.Generic "err-import-address-legacy-not-found")
  | id :: rest => do
    let account ← liftE CommandError.Generic (Prog.call (S := importSig) (.getAccount id))
    let account ← okOr (CommandError.Generic "Account vanished mid-call") account
    if account.source.keyDerivation.any (isLegacyPoolAccount · legacySeedFp) then pure account
    else legacyPoolFrom legacySeedFp rest

/-- `legacy_pool_account` (json_rpc/payments.rs, lines 1158–1191), with the
    errors of the command. -/
def legacyPoolAccount (legacySeedFp : Option SeedFingerprint) :
    ExceptT CommandError (Prog importSig) Account := do
  let legacySeedFp ← okOr (.Generic "err-import-address-legacy-disabled") legacySeedFp
  let ids ← liftE CommandError.Generic (Prog.call (S := importSig) .getAccountIds)
  legacyPoolFrom legacySeedFp ids

/-- `ImportAddressCmd` (cli.rs, lines 319–346). -/
structure ImportAddressCmd where
  data : String
  account : Option AccountUuid
  noRescan : Bool
  deriving DecidableEq

/-- The account of the command (commands/import_address.rs, lines 33–54). -/
def commandAccount (legacySeedFp : Option SeedFingerprint) :
    Option AccountUuid → ExceptT CommandError (Prog importSig) AccountUuid
  | some uuid => do
    let account ← liftE CommandError.Generic (Prog.call (S := importSig) (.getAccount uuid))
    let _ ← okOr (CommandError.Generic "err-account-not-found") account
    pure uuid
  | none => do
    let account ← legacyPoolAccount legacySeedFp
    pure account.id

/-- `ImportData` (commands/import_address.rs, lines 58–61). -/
inductive ImportData
  | Address (address : TransparentAddress)
  | KeyMaterial (parsed : ParsedImport)
  deriving DecidableEq

/-- The data to import (commands/import_address.rs, lines 62–74). -/
def parseImportData (K : Codecs) (data : String) : Except CommandError ImportData :=
  match K.decodeAddress data with
  | some address => .ok (.Address address)
  | none =>
    match parseImport K data with
    | .ok parsed => .ok (.KeyMaterial parsed)
    | .error .InvalidHex => .error (.Generic "err-import-address-unrecognized")
    | .error .NotKeyOrScript => .error (.Generic "err-import-address-not-key-or-script")

/-- The kind of an address (commands/import_address.rs, lines 90–93). -/
def addressKind : TransparentAddress → String
  | .PublicKeyHash _ => "p2pkh"
  | .ScriptHash _ => "p2sh"

/-- The import of the data (commands/import_address.rs, lines 84–108). -/
def importData (K : Codecs) (account : AccountUuid) :
    ImportData → ExceptT CommandError (Prog importSig) ImportedAddress
  | .Address address => do
    liftE CommandError.Generic
      (Prog.call (S := importSig) (.importStandaloneTransparentAddress account address))
    pure ⟨addressKind address, K.encodeAddress address⟩
  | .KeyMaterial parsed => importParsed CommandError.Generic account parsed

/-- `ImportAddressCmd::run_with` (commands/import_address.rs, lines 25–139). -/
def importAddress (K : Codecs) (legacySeedFp : Option SeedFingerprint) (cmd : ImportAddressCmd) :
    ExceptT CommandError (Prog importSig) ImportedAddress := do
  liftE id (Prog.call (S := importSig) .lockDatadir)
  liftE id (Prog.call (S := importSig) .openDatabase)
  let account ← commandAccount legacySeedFp cmd.account
  let parsed ← mapErr id (parseImportData K cmd.data)
  if cmd.noRescan then importData K account parsed
  else do
    -- The chain is built before anything is written.
    liftE id (Prog.call (S := importSig) .buildChain)
    let result ← importData K account parsed
    rescan CommandError.Generic CommandError.Chain
      (CommandError.Chain "err-import-address-no-chain-state") CommandError.Generic account
    pure result

/-! ## `z_getnewaccount` -/

/-- `SeedSelectionError` as an RPC error, and `KeyStore::select_seed`
    (keystore.rs, lines 726–744; get_new_account.rs, lines 83–92). -/
def selectSeed (seedfp : Option SeedFingerprint) :
    ExceptT RpcError (Prog importSig) SeedFingerprint := do
  let seedFps ← askRpc .Database (Prog.call (S := importSig) .listSeedFingerprints)
  match seedFps, seedfp with
  | [], _ => throw (LegacyCode.Wallet.withMessage
      "Wallet does not contain any seeds to generate accounts with")
  | seedFps, some seedFp =>
    if seedFp ∈ seedFps then pure seedFp
    else throw (LegacyCode.InvalidParameter.withMessage
      "seedfp does not match any seed in the wallet")
  | [seedFp], none => pure seedFp
  | _, none => throw (LegacyCode.InvalidParameter.withMessage
      "Wallet has more than one seed; seedfp argument must be provided")

/-- `seedfp.map(parse_seedfp_parameter).transpose()` (get_new_account.rs, line
    47). -/
def parseSeedfpOption (K : Codecs) :
    Option String → ExceptT RpcError (Prog importSig) (Option SeedFingerprint)
  | none => pure none
  | some seedfp => do
    let fp ← parseSeedfpParameter K seedfp
    pure (some fp)

/-- `z_getnewaccount` (get_new_account.rs, lines 39–114). The missing tree
    state is the panic of `expect`. -/
def getNewAccount (K : Codecs) (accountName : String) (seedfp : Option String) :
    ExceptT RpcError (Prog importSig) AccountUuid := do
  ensureWalletIsUnlocked
  let seedfp ← parseSeedfpOption K seedfp
  let view ← askRpc .Database (Prog.call (S := importSig) .snapshot)
  let height ← askRpc .Database (Prog.call (S := importSig) .chainHeight)
  let height ← okOr (LegacyCode.InWarmup.withMessage "Wallet sync required") height
  let tip ← askRpc .Database (Prog.call (S := importSig) (.tip view))
  let treestateHeight := min height tip.height - 1
  let chainState ← liftE
    (fun e => LegacyCode.InvalidParameter.withMessage
      ("Failed to get treestate at height " ++ toString treestateHeight ++ ": " ++ e))
    (Prog.call (S := importSig) (.treeStateAsOf view treestateHeight))
  let chainState ← okOr (internalError "always in range") chainState
  let seedFp ← selectSeed seedfp
  ensureSeedIsBackedUp seedFp
  let seed ← askRpc .Database (Prog.call (S := importSig) (.decryptSeed seedFp))
  let account ← askRpc .Database
    (Prog.call (S := importSig) (.createAccount accountName seed ⟨chainState, none⟩))
  reloadKeys
  pure account.id

end Zallet.Rpc
