import Zallet.Common.Loop
import Zallet.Wallet.Types

/-!
# Unspent outputs

`z_listunspent` (`json_rpc/methods/list_unspent.rs`, lines 105–481), with
`parse_as_of_height` and `parse_minconf` of `json_rpc/utils.rs`, lines 319–348.

The wallet database and the address types are those of other crates:
`UnspentWallet` has the functions that are called. An identifier stands for its
text, and a value for its two renderings.

* `keys_listUnspent`: what is reported of the outputs that the wallet holds.
* `listUnspent_honours_iff`: the address filter is honoured exactly if every
  transparent output in range is at a listed address, and every note in range
  that one listed address matches is matched by all of them.
-/

namespace Zallet.Rpc.ListUnspent

open Zallet.Chain Zallet.Wallet Zallet.Common.Loop

/-! ## Addresses -/

structure SaplingAddress where
  bytes : List UInt8
  deriving DecidableEq

structure OrchardAddress where
  bytes : List UInt8
  deriving DecidableEq

/-- `zcash_keys::address::Receiver`. -/
inductive Receiver
  | Orchard (address : OrchardAddress)
  | Sapling (address : SaplingAddress)
  | Transparent (address : TransparentAddress)
  deriving DecidableEq

structure UnifiedAddress where
  orchard : Option OrchardAddress
  sapling : Option SaplingAddress
  transparent : Option TransparentAddress
  deriving DecidableEq

/-- `zcash_keys::address::Address`. -/
inductive Address
  | Sapling (address : SaplingAddress)
  | Transparent (address : TransparentAddress)
  | Unified (address : UnifiedAddress)
  | Tex (hash : BitVec 160)
  deriving DecidableEq

def Address.toSaplingAddress : Address → Option SaplingAddress
  | Sapling address => some address
  | Unified address => address.sapling
  | Transparent _ => none
  | Tex _ => none

def Address.asUnderstoodUnifiedReceivers : Address → List Receiver
  | Sapling address => [.Sapling address]
  | Transparent address => [.Transparent address]
  | Unified address =>
    (address.orchard.map Receiver.Orchard).toList ++
      (address.sapling.map Receiver.Sapling).toList ++
      (address.transparent.map Receiver.Transparent).toList
  | Tex hash => [.Transparent (.PublicKeyHash hash)]

/-! ## The wallet -/

/-- The value pool of an output, with the name it is reported under. -/
inductive Pool
  | transparent
  | sapling
  | orchard
  | ironwood
  deriving DecidableEq

def Pool.name : Pool → String
  | transparent => "transparent"
  | sapling => "sapling"
  | orchard => "orchard"
  | ironwood => "ironwood"

/-- `zip32::Scope`. -/
inductive Scope
  | External
  | Internal
  deriving DecidableEq

inductive CoinbaseFilter
  | NonCoinbaseOnly
  | CoinbaseOnly
  deriving DecidableEq

structure ConfirmationsPolicy where
  trusted : ℕ
  untrusted : ℕ
  allowZeroConfShielding : Bool
  deriving DecidableEq

/-- `ConfirmationsPolicy::new_symmetrical`. -/
def ConfirmationsPolicy.newSymmetrical (minConfirmations : ℕ) (allowZeroConfShielding : Bool) :
    ConfirmationsPolicy :=
  ⟨minConfirmations, minConfirmations, allowZeroConfShielding⟩

/-- `TransparentKeyScope::INTERNAL`. -/
def TransparentKeyScope.INTERNAL : Wallet.TransparentKeyScope := 1

/-- `WalletTransparentOutput`. -/
structure WalletTransparentOutput where
  txid : TxId
  n : ℕ
  minedHeight : Option ℕ
  recipientAddress : TransparentAddress
  /-- The address of the script of the `TxOut`. -/
  txoutRecipientAddress : Option TransparentAddress
  value : ℕ
  deriving DecidableEq

/-- `ReceivedNote`, with its recipient. -/
structure ReceivedNote (R : Type) where
  txid : TxId
  outputIndex : ℕ
  recipient : R
  spendingKeyScope : Scope
  value : ℕ
  deriving DecidableEq

structure ReceivedNotes where
  sapling : List (ReceivedNote SaplingAddress)
  orchard : List (ReceivedNote OrchardAddress)
  ironwood : List (ReceivedNote OrchardAddress)
  deriving DecidableEq

/-- `Memo`, by its encoding and its text. -/
structure Memo where
  encoding : String
  text : Option String
  deriving DecidableEq

/-- An account of the wallet, of which the purpose is read. -/
structure AccountPurpose where
  isSpending : Bool
  deriving DecidableEq

/-- The functions of the wallet database and of the address types. -/
structure UnspentWallet where
  decode : String → Option Address
  encodeTransparent : TransparentAddress → String
  encodeSapling : SaplingAddress → String
  /-- The encoding of a unified address with an Orchard receiver alone. -/
  encodeOrchard : OrchardAddress → String
  chainHeight : Except String (Option ℕ)
  getAccountIds : Except String (List AccountUuid)
  getAccount : AccountUuid → Except String (Option AccountPurpose)
  getTransparentReceivers : AccountUuid → Except String (List TransparentAddress)
  getSpendableTransparentOutputs : TransparentAddress → ℕ → ConfirmationsPolicy → CoinbaseFilter →
    Except String (List WalletTransparentOutput)
  getTransparentAddressMetadata : AccountUuid → TransparentAddress →
    Except String (Option TransparentAddressMetadata)
  selectUnspentNotes : AccountUuid → ℕ → Except String ReceivedNotes
  getMemo : TxId → Pool → ℕ → Except String (Option Memo)
  getTxHeight : TxId → Except String (Option ℕ)

/-! ## Errors and arguments -/

/-- `ErrorObjectOwned`. -/
structure ErrorObject where
  code : ℤ
  message : String
  data : Option String
  deriving DecidableEq

/-- `LegacyCode::InvalidParameter`. -/
def invalidParameterCode : ℤ := -8

/-- `LegacyCode::Database`. -/
def databaseCode : ℤ := -20

/-- `RpcErrorCode::InternalError`. -/
def internalError : ErrorObject := ⟨-32603, "Internal error", none⟩

/-- A call of the wallet database under its name in the error. -/
def orDatabase {α : Type} (message : String) (r : Except String α) : Except ErrorObject α :=
  r.mapError fun e => ⟨databaseCode, message, some e⟩

/-- The greatest `u32`. -/
def maxU32 : ℕ := 2 ^ 32 - 1

/-- `parse_as_of_height`. -/
def parseAsOfHeight : Option ℤ → Except ErrorObject (Option ℕ)
  | none => .ok none
  | some h =>
    if h = -1 then .ok none
    else if h < 0 then
      .error ⟨invalidParameterCode,
        "Can not perform the query as of a negative block height", none⟩
    else if h = 0 then
      .error ⟨invalidParameterCode,
        "Can not perform the query as of the genesis block", none⟩
    else if h ≤ maxU32 then .ok (some h.toNat)
    else .error ⟨invalidParameterCode, "`as_of_height` parameter out of range", none⟩

/-- `parse_minconf`. -/
def parseMinconf (minconf : Option ℕ) (defaultMinconf : ℕ) (asOfHeight : Option ℕ) :
    Except ErrorObject ℕ :=
  match minconf with
  | none => .ok defaultMinconf
  | some d =>
    if d = 0 ∧ asOfHeight.isSome then
      .error ⟨invalidParameterCode,
        "Require a minimum of 1 confirmation when `asOfHeight` is provided", none⟩
    else .ok d

/-- `confirmation_count` (lines 118–125). -/
def confirmationCount (targetHeight : ℕ) (minedHeight : Option ℕ) : ℕ :=
  minedHeight.elim 0 fun h => targetHeight - h

/-- `confirmations_in_range` (lines 127–138). -/
def confirmationsInRange (confirmations minconf : ℕ) (maxconf : Option ℕ) : Bool :=
  minconf ≤ confirmations && maxconf.all fun c => confirmations ≤ c

/-! ## The outputs of an account -/

structure UnspentOutput where
  txid : TxId
  pool : Pool
  outindex : ℕ
  confirmations : ℕ
  isWatchOnly : Bool
  address : Option String
  accountUuid : AccountUuid
  walletInternal : Bool
  generated : Option Bool
  value : ℕ
  memo : Option String
  memoStr : Option String
  deriving DecidableEq

/-- The local variables that the loops over the outputs read. -/
structure Query where
  addresses : List Address
  minconf : ℕ
  maxconf : Option ℕ
  targetHeight : ℕ

/-- The policy for a `minconf` (lines 153–156). -/
def confirmationsPolicyOf (minconf : ℕ) : ConfirmationsPolicy :=
  if minconf = 0 then .newSymmetrical 1 true else .newSymmetrical minconf false

def Query.inRange (q : Query) (minedHeight : Option ℕ) : Bool :=
  confirmationsInRange (confirmationCount q.targetHeight minedHeight) q.minconf q.maxconf

section

variable (W : UnspentWallet)

/-- The transparent outputs of an address and whether each is of a coinbase
    transaction (lines 230–253). -/
def addressUtxos (q : Query) (addr : TransparentAddress) :
    Except ErrorObject (List (WalletTransparentOutput × Bool)) :=
  collect (fun filter => do
      let outputs ← orDatabase "WalletDb::get_spendable_transparent_outputs failed"
        (W.getSpendableTransparentOutputs addr q.targetHeight (confirmationsPolicyOf q.minconf)
          filter.1)
      .ok (outputs.map fun utxo => (utxo, filter.2)))
    [(CoinbaseFilter.NonCoinbaseOnly, false), (.CoinbaseOnly, true)]

/-- The transparent outputs of an account (lines 214–256). -/
def accountUtxos (q : Query) (accountId : AccountUuid) :
    Except ErrorObject (List (WalletTransparentOutput × Bool)) := do
  let receivers ← orDatabase "WalletDb::get_transparent_receivers failed"
    (W.getTransparentReceivers accountId)
  collect (addressUtxos W q) receivers

/-- Whether an address of the account is internal. -/
def transparentInternal (accountId : AccountUuid) (addr : TransparentAddress) :
    Except ErrorObject Bool := do
  let metadata ← orDatabase "WalletDb::get_transparent_address_metadata failed"
    (W.getTransparentAddressMetadata accountId addr)
  .ok (metadata.any fun m => m.scope == some TransparentKeyScope.INTERNAL)

/-- The loop over the transparent outputs (lines 258–291). -/
def transparentOutputs (q : Query) (accountId : AccountUuid) (isWatchOnly : Bool)
    (utxos : List (WalletTransparentOutput × Bool)) : Except ErrorObject (List UnspentOutput) :=
  collect (fun (utxo, generated) =>
    if q.inRange utxo.minedHeight = false then .ok []
    else do
      let walletInternal ← transparentInternal W accountId utxo.recipientAddress
      .ok [{ txid := utxo.txid
             pool := .transparent
             outindex := utxo.n
             confirmations := confirmationCount q.targetHeight utxo.minedHeight
             isWatchOnly := isWatchOnly
             address := utxo.txoutRecipientAddress.map W.encodeTransparent
             accountUuid := accountId
             walletInternal := walletInternal
             generated := some generated
             value := utxo.value
             memo := none
             memoStr := none }]) utxos

/-- `get_mined_height` (lines 335–343). -/
def minedHeightOf (txid : TxId) : Except ErrorObject (Option ℕ) :=
  orDatabase "WalletDb::get_tx_height failed" (W.getTxHeight txid)

/-- `get_memo` (lines 311–333). -/
def memoOf (txid : TxId) (pool : Pool) (outputIndex : ℕ) :
    Except ErrorObject (String × Option String) := do
  let memo ← orDatabase "WalletDb::get_memo failed" (W.getMemo txid pool outputIndex)
  .ok (memo.elim ("TODO: Always enhance every note", none) fun memo => (memo.encoding, memo.text))

/-- The loop over the notes of a pool that the filter lets through. -/
def shieldedOutputs {R : Type} (pool : Pool) (matchesAll : List Address → R → Bool)
    (encode : R → String) (q : Query) (accountId : AccountUuid) (isWatchOnly : Bool)
    (notes : List (ReceivedNote R)) : Except ErrorObject (List UnspentOutput) :=
  collect (fun note => do
    let minedHeight ← minedHeightOf W note.txid
    if q.inRange minedHeight = false then .ok []
    else
      let isInternal := note.spendingKeyScope == .Internal
      let (memo, memoStr) ← memoOf W note.txid pool note.outputIndex
      .ok [{ txid := note.txid
             pool := pool
             outindex := note.outputIndex
             confirmations := confirmationCount q.targetHeight minedHeight
             isWatchOnly := isWatchOnly
             address := if isInternal then none else some (encode note.recipient)
             accountUuid := accountId
             walletInternal := isInternal
             generated := none
             value := note.value
             memo := some memo
             memoStr := memoStr }])
    (notes.filter fun note => matchesAll q.addresses note.recipient)

def saplingMatches (addresses : List Address) (recipient : SaplingAddress) : Bool :=
  addresses.all fun addr => addr.toSaplingAddress == some recipient

def orchardMatches (addresses : List Address) (recipient : OrchardAddress) : Bool :=
  addresses.all fun addr => addr.asUnderstoodUnifiedReceivers.any fun r =>
    match r with
    | .Orchard address => address == recipient
    | _ => false

/-- Lines 345–379. -/
def saplingOutputs := shieldedOutputs W .sapling saplingMatches W.encodeSapling

/-- Lines 381–426. -/
def orchardOutputs := shieldedOutputs W .orchard orchardMatches W.encodeOrchard

/-- Lines 428–477: Ironwood notes are received at Orchard addresses. -/
def ironwoodOutputs := shieldedOutputs W .ironwood orchardMatches W.encodeOrchard

/-- One turn of the loop over the accounts (lines 193–478). -/
def accountOutputs (q : Query) (accountId : AccountUuid) :
    Except ErrorObject (List UnspentOutput) := do
  let account ← orDatabase "WalletDb::get_account failed" (W.getAccount accountId)
  match account with
  | none => .error internalError
  | some account =>
    let isWatchOnly := !account.isSpending
    let utxos ← accountUtxos W q accountId
    let transparent ← transparentOutputs W q accountId isWatchOnly utxos
    let notes ← orDatabase "WalletDb::select_unspent_notes failed"
      (W.selectUnspentNotes accountId q.targetHeight)
    let sapling ← saplingOutputs W q accountId isWatchOnly notes.sapling
    let orchard ← orchardOutputs W q accountId isWatchOnly notes.orchard
    let ironwood ← ironwoodOutputs W q accountId isWatchOnly notes.ironwood
    .ok (transparent ++ sapling ++ orchard ++ ironwood)

/-! ## The call -/

def decodeAddresses : List String → Except ErrorObject (List Address)
  | [] => .ok []
  | addr :: rest =>
    match W.decode addr with
    | none => .error ⟨invalidParameterCode, "Not a valid Zcash address", some addr⟩
    | some address => (decodeAddresses rest).map (address :: ·)

/-- The height of the query (lines 173–191). -/
def targetHeightOf (asOfHeight : Option ℕ) : Except ErrorObject (Option ℕ) := do
  let height ← match asOfHeight with
    | none => orDatabase "WalletDb::chain_height failed" W.chainHeight
    | some h => .ok (some h)
  .ok (height.map fun h => min (h + 1) maxU32)

/-- The arguments, parsed; `none` if the wallet has no chain height. -/
def parseQuery (minconf maxconf : Option ℕ) (addresses : Option (List String))
    (asOfHeight : Option ℤ) : Except ErrorObject (Option Query) := do
  let asOfHeight ← parseAsOfHeight asOfHeight
  let minconf ← parseMinconf minconf 1 asOfHeight
  let addresses ← decodeAddresses W (addresses.getD [])
  let targetHeight ← targetHeightOf W asOfHeight
  .ok (targetHeight.map fun targetHeight => ⟨addresses, minconf, maxconf, targetHeight⟩)

/-- `z_listunspent` (lines 142–481). -/
def listUnspent (minconf maxconf : Option ℕ) (addresses : Option (List String))
    (asOfHeight : Option ℤ) : Except ErrorObject (List UnspentOutput) := do
  let query ← parseQuery W minconf maxconf addresses asOfHeight
  match query with
  | none => .ok []
  | some q =>
    let accountIds ← orDatabase "WalletDb::get_account_ids failed" W.getAccountIds
    collect (accountOutputs W q) accountIds

end

/-! ## The outputs of the wallet -/

/-- An unspent output that the wallet holds. -/
structure HeldOutput where
  pool : Pool
  txid : TxId
  index : ℕ
  receiver : Receiver
  minedHeight : Option ℕ
  deriving DecidableEq

abbrev OutputKey := Pool × TxId × ℕ

def HeldOutput.key (h : HeldOutput) : OutputKey := (h.pool, h.txid, h.index)

def UnspentOutput.key (o : UnspentOutput) : OutputKey := (o.pool, o.txid, o.outindex)

def heldUtxo (utxo : WalletTransparentOutput × Bool) : HeldOutput :=
  ⟨.transparent, utxo.1.txid, utxo.1.n, .Transparent utxo.1.recipientAddress, utxo.1.minedHeight⟩

/-- The height that the wallet has for a transaction. -/
def UnspentWallet.minedHeight (W : UnspentWallet) (txid : TxId) : Option ℕ :=
  match W.getTxHeight txid with
  | .ok height => height
  | .error _ => none

def heldNote {R : Type} (W : UnspentWallet) (pool : Pool) (receiver : R → Receiver)
    (note : ReceivedNote R) : HeldOutput :=
  ⟨pool, note.txid, note.outputIndex, receiver note.recipient, W.minedHeight note.txid⟩

/-- The lists of the wallet hold each of its unspent outputs once. The transparent
    ones may leave out those below `minconf`. -/
structure ReturnsEachOnce (W : UnspentWallet) (q : Query) (held : List HeldOutput) : Prop where
  distinct : (held.map HeldOutput.key).Nodup
  transparent : ∀ ids utxos, W.getAccountIds = .ok ids →
    (∀ id ∈ ids, accountUtxos W q id = .ok (utxos id)) →
    ((ids.flatMap utxos).map heldUtxo).Perm (held.filter fun h => h.pool == .transparent &&
      decide (q.minconf ≤ confirmationCount q.targetHeight h.minedHeight))
  sapling : ∀ ids (notes : AccountUuid → ReceivedNotes), W.getAccountIds = .ok ids →
    (∀ id ∈ ids, W.selectUnspentNotes id q.targetHeight = .ok (notes id)) →
    ((ids.flatMap fun id => (notes id).sapling).map (heldNote W .sapling .Sapling)).Perm
      (held.filter fun h => h.pool == .sapling)
  orchard : ∀ ids (notes : AccountUuid → ReceivedNotes), W.getAccountIds = .ok ids →
    (∀ id ∈ ids, W.selectUnspentNotes id q.targetHeight = .ok (notes id)) →
    ((ids.flatMap fun id => (notes id).orchard).map (heldNote W .orchard .Orchard)).Perm
      (held.filter fun h => h.pool == .orchard)
  ironwood : ∀ ids (notes : AccountUuid → ReceivedNotes), W.getAccountIds = .ok ids →
    (∀ id ∈ ids, W.selectUnspentNotes id q.targetHeight = .ok (notes id)) →
    ((ids.flatMap fun id => (notes id).ironwood).map (heldNote W .ironwood .Orchard)).Perm
      (held.filter fun h => h.pool == .ironwood)

/-- An output was received at an address or at a receiver of it. -/
def Address.received (addr : Address) (h : HeldOutput) : Bool :=
  decide (h.receiver ∈ addr.asUnderstoodUnifiedReceivers)

/-- What the method reports of an output. -/
def Query.reports (q : Query) (h : HeldOutput) : Bool :=
  q.inRange h.minedHeight && (h.pool == .transparent || q.addresses.all (·.received h))

def Query.reportedKeys (q : Query) (l : List HeldOutput) : List OutputKey :=
  (l.filter q.reports).map HeldOutput.key

/-- What the filter asks for. -/
def Query.asksFor (q : Query) (h : HeldOutput) : Bool :=
  q.inRange h.minedHeight && q.addresses.any (·.received h)

/-! ## The filters -/

theorem saplingMatches_eq (addresses : List Address) (note : HeldOutput)
    (recipient : SaplingAddress) (h : note.receiver = .Sapling recipient) :
    saplingMatches addresses recipient = addresses.all (·.received note) := by
  unfold saplingMatches
  congr 1
  funext addr
  rw [Address.received, h, Bool.eq_iff_iff, beq_iff_eq, decide_eq_true_eq]
  cases addr with
  | Sapling address => simp [Address.toSaplingAddress, Address.asUnderstoodUnifiedReceivers, eq_comm]
  | Transparent address => simp [Address.toSaplingAddress, Address.asUnderstoodUnifiedReceivers]
  | Unified address =>
    simp [Address.toSaplingAddress, Address.asUnderstoodUnifiedReceivers, Option.mem_toList]
  | Tex hash => simp [Address.toSaplingAddress, Address.asUnderstoodUnifiedReceivers]

theorem orchardMatches_eq (addresses : List Address) (note : HeldOutput)
    (recipient : OrchardAddress) (h : note.receiver = .Orchard recipient) :
    orchardMatches addresses recipient = addresses.all (·.received note) := by
  unfold orchardMatches
  congr 1
  funext addr
  rw [Address.received, h, Bool.eq_iff_iff, List.any_eq_true, decide_eq_true_eq]
  constructor
  · rintro ⟨r, hr, hmatch⟩
    cases r with
    | Orchard address => rwa [← beq_iff_eq.mp hmatch]
    | Sapling address => cases hmatch
    | Transparent address => cases hmatch
  · intro hr
    exact ⟨_, hr, beq_self_eq_true _⟩

/-! ## One account -/

theorem orDatabase_eq_ok {α : Type} {message : String} {r : Except String α} {a : α} :
    orDatabase message r = .ok a ↔ r = .ok a :=
  mapError_eq_ok

/-- The keys of what a loop over notes reports. -/
theorem keys_shieldedOutputs {R : Type} {W : UnspentWallet} {pool : Pool}
    {matchesAll : List Address → R → Bool} {encode : R → String} {receiver : R → Receiver} {q : Query}
    {id : AccountUuid} {isWatchOnly : Bool} {notes : List (ReceivedNote R)}
    {outs : List UnspentOutput} (hpool : pool ≠ .transparent)
    (hmatch : ∀ note : ReceivedNote R, matchesAll q.addresses note.recipient =
      q.addresses.all (·.received (heldNote W pool receiver note)))
    (h : shieldedOutputs W pool matchesAll encode q id isWatchOnly notes = .ok outs) :
    outs.map UnspentOutput.key = q.reportedKeys (notes.map (heldNote W pool receiver)) := by
  obtain ⟨g, hg, rfl⟩ := collect_eq_ok.mp h
  have hturn : ∀ note ∈ notes.filter (fun note => matchesAll q.addresses note.recipient),
      (g note).map UnspentOutput.key = if q.inRange (W.minedHeight note.txid) then
        [(heldNote W pool receiver note).key] else [] := by
    intro note hnote
    obtain ⟨minedHeight, hmined, hbody⟩ := bind_eq_ok.mp (hg note hnote)
    have hheight : W.minedHeight note.txid = minedHeight := by
      rw [UnspentWallet.minedHeight, orDatabase_eq_ok.mp hmined]
    rw [hheight]
    cases hrange : q.inRange minedHeight with
    | false =>
      rw [if_pos hrange] at hbody
      rw [← Except.ok.inj hbody]
      rfl
    | true =>
      rw [if_neg (by simp [hrange])] at hbody
      obtain ⟨memo, -, hout⟩ := bind_eq_ok.mp hbody
      rw [← Except.ok.inj hout]
      rfl
  rw [map_flatMap_eq_filter hturn, List.filter_filter, Query.reportedKeys, List.filter_map,
    List.map_map]
  congr 1
  refine List.filter_congr fun note _ => ?_
  have hne : ((heldNote W pool receiver note).pool == .transparent) = false :=
    beq_eq_false_iff_ne.mpr hpool
  simp only [Function.comp_apply, Query.reports, hne, Bool.false_or, hmatch note]
  rfl

theorem keys_transparentOutputs {W : UnspentWallet} {q : Query} {id : AccountUuid}
    {isWatchOnly : Bool} {utxos : List (WalletTransparentOutput × Bool)} {outs : List UnspentOutput}
    (h : transparentOutputs W q id isWatchOnly utxos = .ok outs) :
    outs.map UnspentOutput.key = q.reportedKeys (utxos.map heldUtxo) := by
  obtain ⟨g, hg, rfl⟩ := collect_eq_ok.mp h
  have hturn : ∀ utxo ∈ utxos, (g utxo).map UnspentOutput.key =
      if q.inRange utxo.1.minedHeight then [(heldUtxo utxo).key] else [] := by
    intro utxo hutxo
    have hbody := hg utxo hutxo
    cases hrange : q.inRange utxo.1.minedHeight with
    | false =>
      simp only [hrange, if_true] at hbody
      rw [← Except.ok.inj hbody]
      rfl
    | true =>
      simp only [hrange, Bool.true_eq_false, if_false] at hbody
      obtain ⟨walletInternal, -, hout⟩ := bind_eq_ok.mp hbody
      rw [← Except.ok.inj hout]
      rfl
  rw [map_flatMap_eq_filter hturn, Query.reportedKeys, List.filter_map, List.map_map]
  congr 1
  refine List.filter_congr fun utxo _ => ?_
  have hpool : ((heldUtxo utxo).pool == .transparent) = true := rfl
  simp only [Function.comp_apply, Query.reports, hpool, Bool.true_or, Bool.and_true]
  rfl

/-- What the turn of an account has read, and what it reports of each pool. -/
structure AccountParts (W : UnspentWallet) (q : Query) (id : AccountUuid) (isWatchOnly : Bool)
    (utxos : List (WalletTransparentOutput × Bool)) (notes : ReceivedNotes)
    (transparent sapling orchard ironwood : List UnspentOutput) : Prop where
  accountUtxos : accountUtxos W q id = .ok utxos
  transparentOutputs : transparentOutputs W q id isWatchOnly utxos = .ok transparent
  selectUnspentNotes : W.selectUnspentNotes id q.targetHeight = .ok notes
  saplingOutputs : saplingOutputs W q id isWatchOnly notes.sapling = .ok sapling
  orchardOutputs : orchardOutputs W q id isWatchOnly notes.orchard = .ok orchard
  ironwoodOutputs : ironwoodOutputs W q id isWatchOnly notes.ironwood = .ok ironwood

theorem accountOutputs_eq_ok {W : UnspentWallet} {q : Query} {id : AccountUuid}
    {outs : List UnspentOutput} (h : accountOutputs W q id = .ok outs) :
    ∃ isWatchOnly utxos notes transparent sapling orchard ironwood,
      AccountParts W q id isWatchOnly utxos notes transparent sapling orchard ironwood ∧
        outs = transparent ++ sapling ++ orchard ++ ironwood := by
  obtain ⟨account, -, h⟩ := bind_eq_ok.mp h
  cases account with
  | none => cases h
  | some account =>
    obtain ⟨utxos, hutxos, h⟩ := bind_eq_ok.mp h
    obtain ⟨transparent, htransparent, h⟩ := bind_eq_ok.mp h
    obtain ⟨notes, hnotes, h⟩ := bind_eq_ok.mp h
    obtain ⟨sapling, hsapling, h⟩ := bind_eq_ok.mp h
    obtain ⟨orchard, horchard, h⟩ := bind_eq_ok.mp h
    obtain ⟨ironwood, hironwood, h⟩ := bind_eq_ok.mp h
    exact ⟨!account.isSpending, utxos, notes, transparent, sapling, orchard, ironwood,
      ⟨hutxos, htransparent, orDatabase_eq_ok.mp hnotes, hsapling, horchard, hironwood⟩,
      (Except.ok.inj h).symm⟩

/-- The keys of what is reported of the outputs of an account. -/
theorem keys_accountOutputs {W : UnspentWallet} {q : Query} {id : AccountUuid}
    {outs : List UnspentOutput} (h : accountOutputs W q id = .ok outs) :
    ∃ utxos notes, accountUtxos W q id = .ok utxos ∧
      W.selectUnspentNotes id q.targetHeight = .ok notes ∧
      outs.map UnspentOutput.key =
        q.reportedKeys (utxos.map heldUtxo) ++
        q.reportedKeys (notes.sapling.map (heldNote W .sapling .Sapling)) ++
        q.reportedKeys (notes.orchard.map (heldNote W .orchard .Orchard)) ++
        q.reportedKeys (notes.ironwood.map (heldNote W .ironwood .Orchard)) := by
  obtain ⟨isWatchOnly, utxos, notes, transparent, sapling, orchard, ironwood, hparts, rfl⟩ :=
    accountOutputs_eq_ok h
  refine ⟨utxos, notes, hparts.accountUtxos, hparts.selectUnspentNotes, ?_⟩
  rw [List.map_append, List.map_append, List.map_append,
    keys_transparentOutputs hparts.transparentOutputs,
    keys_shieldedOutputs (by simp) (fun note => saplingMatches_eq _ _ _ rfl) hparts.saplingOutputs,
    keys_shieldedOutputs (by simp) (fun note => orchardMatches_eq _ _ _ rfl) hparts.orchardOutputs,
    keys_shieldedOutputs (by simp) (fun note => orchardMatches_eq _ _ _ rfl) hparts.ironwoodOutputs]

/-! ## All accounts -/

/-- The four pools of a filtered list. -/
theorem perm_pools (p : HeldOutput → Bool) (held : List HeldOutput) :
    ((held.filter fun h => h.pool == .transparent && p h) ++
      (held.filter fun h => h.pool == .sapling && p h) ++
      (held.filter fun h => h.pool == .orchard && p h) ++
      held.filter fun h => h.pool == .ironwood && p h).Perm (held.filter p) := by
  have hsplit : held.filter p = held.filter fun h =>
      (((h.pool == .transparent && p h) || (h.pool == .sapling && p h)) ||
        (h.pool == .orchard && p h)) || (h.pool == .ironwood && p h) := by
    refine List.filter_congr fun h _ => ?_
    cases h.pool <;> cases p h <;> rfl
  rw [hsplit]
  refine List.Perm.symm ((perm_filter_or ?_ held).trans (List.Perm.append_right _
    ((perm_filter_or ?_ held).trans (List.Perm.append_right _ (perm_filter_or ?_ held)))))
  all_goals
    intro h
    cases h.pool <;> cases p h <;> decide

/-- The method reports of each output it holds what `Query.reports` says, and
    nothing else. -/
theorem keys_listUnspent {W : UnspentWallet} {q : Query} {held : List HeldOutput}
    (hreturns : ReturnsEachOnce W q held) {ids : List AccountUuid}
    (hids : W.getAccountIds = .ok ids) {outs : List UnspentOutput}
    (h : collect (accountOutputs W q) ids = .ok outs) :
    (outs.map UnspentOutput.key).Perm (q.reportedKeys held) := by
  obtain ⟨g, hg, rfl⟩ := collect_eq_ok.mp h
  have hex := fun id hid => keys_accountOutputs (hg id hid)
  have : Nonempty ReceivedNotes := ⟨⟨[], [], []⟩⟩
  choose! utxos notes hutxos hnotes hkeys using hex
  have hflat : ∀ lists : AccountUuid → List HeldOutput,
      ids.flatMap (fun id => q.reportedKeys (lists id)) = q.reportedKeys (ids.flatMap lists) := by
    intro lists
    simp only [Query.reportedKeys, List.filter_flatMap, List.map_flatMap]
  have hperm : ∀ l l' : List HeldOutput, l.Perm l' →
      (q.reportedKeys l).Perm (q.reportedKeys l') := fun l l' h => (h.filter _).map _
  have hpools : ((ids.flatMap g).map UnspentOutput.key).Perm
      (q.reportedKeys ((ids.flatMap utxos).map heldUtxo) ++
        q.reportedKeys ((ids.flatMap fun id => (notes id).sapling).map
          (heldNote W .sapling .Sapling)) ++
        q.reportedKeys ((ids.flatMap fun id => (notes id).orchard).map
          (heldNote W .orchard .Orchard)) ++
        q.reportedKeys ((ids.flatMap fun id => (notes id).ironwood).map
          (heldNote W .ironwood .Orchard))) := by
    rw [List.map_flatMap, List.flatMap_congr hkeys]
    simp only [List.map_flatMap, ← hflat]
    refine (List.flatMap_append_perm ids _ _).symm.trans (List.Perm.append_right _ ?_)
    refine (List.flatMap_append_perm ids _ _).symm.trans (List.Perm.append_right _ ?_)
    exact (List.flatMap_append_perm ids _ _).symm
  refine hpools.trans ?_
  refine (((hperm _ _ (hreturns.transparent ids utxos hids hutxos)).append
    (hperm _ _ (hreturns.sapling ids notes hids hnotes))).append
    (hperm _ _ (hreturns.orchard ids notes hids hnotes))).append
    (hperm _ _ (hreturns.ironwood ids notes hids hnotes)) |>.trans ?_
  have hrange : ∀ h : HeldOutput, q.reports h = true →
      q.minconf ≤ confirmationCount q.targetHeight h.minedHeight := by
    intro h hreports
    simp only [Query.reports, Query.inRange, confirmationsInRange, Bool.and_eq_true,
      decide_eq_true_eq] at hreports
    exact hreports.1.1
  have habsorb : (held.filter fun h => h.pool == .transparent &&
      decide (q.minconf ≤ confirmationCount q.targetHeight h.minedHeight)).filter q.reports =
      held.filter fun h => h.pool == .transparent && q.reports h := by
    rw [List.filter_filter]
    refine List.filter_congr fun h _ => ?_
    cases hreports : q.reports h with
    | false => simp
    | true => simp [hrange h hreports]
  have hpool : ∀ pool : Pool, (held.filter fun h => h.pool == pool).filter q.reports =
      held.filter fun h => h.pool == pool && q.reports h := by
    intro pool
    rw [List.filter_filter]
    exact List.filter_congr fun h _ => Bool.and_comm _ _
  simp only [Query.reportedKeys, habsorb, hpool, ← List.map_append]
  exact (perm_pools q.reports held).map _

/-! ## The filter -/

/-- The outputs for which a list of addresses is filtered as it should be: in range,
    a transparent output is at one of them, and a note is at none or at all of
    them. -/
def FilterHolds (q : Query) (held : List HeldOutput) : Prop :=
  ∀ h ∈ held, q.inRange h.minedHeight = true →
    (h.pool = .transparent → ∃ addr ∈ q.addresses, addr.received h = true) ∧
    (h.pool ≠ .transparent → ∀ addr ∈ q.addresses, addr.received h = true →
      ∀ other ∈ q.addresses, other.received h = true)

theorem reports_eq_asksFor_iff {q : Query} (hne : q.addresses ≠ []) (h : HeldOutput) :
    q.reports h = q.asksFor h ↔ (q.inRange h.minedHeight = true →
      (h.pool = .transparent → ∃ addr ∈ q.addresses, addr.received h = true) ∧
      (h.pool ≠ .transparent → ∀ addr ∈ q.addresses, addr.received h = true →
        ∀ other ∈ q.addresses, other.received h = true)) := by
  unfold Query.reports Query.asksFor
  cases q.inRange h.minedHeight with
  | false => simp
  | true =>
    by_cases hpool : h.pool = .transparent
    · simp only [hpool, beq_self_eq_true, Bool.true_or, Bool.and_true, Bool.true_and, forall_const,
        ne_eq, not_true_eq_false, false_implies, and_true]
      rw [eq_comm, List.any_eq_true]
    · have hne' : (h.pool == .transparent) = false := beq_eq_false_iff_ne.mpr hpool
      obtain ⟨addr, haddr⟩ := List.exists_mem_of_ne_nil _ hne
      simp only [hne', Bool.false_or, Bool.true_and, hpool, false_implies, true_and, ne_eq,
        not_false_eq_true, forall_const]
      rw [Bool.eq_iff_iff, List.all_eq_true, List.any_eq_true]
      constructor
      · rintro ⟨-, hany⟩ a ha hreceived
        exact hany ⟨a, ha, hreceived⟩
      · intro hall
        exact ⟨fun h => ⟨addr, haddr, h addr haddr⟩, fun ⟨a, ha, hreceived⟩ =>
          hall a ha hreceived⟩

theorem decodeAddresses_ne_nil {W : UnspentWallet} {texts : List String} {addresses : List Address}
    (hne : texts ≠ []) (h : decodeAddresses W texts = .ok addresses) : addresses ≠ [] := by
  cases texts with
  | nil => exact absurd rfl hne
  | cons text texts =>
    rw [decodeAddresses] at h
    split at h
    · cases h
    · cases hrest : decodeAddresses W texts with
      | error e =>
        rw [hrest] at h
        cases h
      | ok rest =>
        rw [hrest] at h
        rw [← Except.ok.inj h]
        simp

theorem parseQuery_ne_nil {W : UnspentWallet} {minconf maxconf : Option ℕ} {texts : List String}
    {asOfHeight : Option ℤ} {q : Query} (hne : texts ≠ [])
    (h : parseQuery W minconf maxconf (some texts) asOfHeight = .ok (some q)) :
    q.addresses ≠ [] := by
  obtain ⟨height, -, h⟩ := bind_eq_ok.mp h
  obtain ⟨minconf', -, h⟩ := bind_eq_ok.mp h
  obtain ⟨addresses, haddresses, h⟩ := bind_eq_ok.mp h
  obtain ⟨target, -, h⟩ := bind_eq_ok.mp h
  obtain ⟨targetHeight, -, hq⟩ := Option.map_eq_some_iff.mp (Except.ok.inj h)
  rw [← hq]
  exact decodeAddresses_ne_nil hne haddresses

/-- **The address filter.** For a list of valid addresses, each unspent output that
    was received at one of them and has its confirmations in range is reported
    once, and nothing else, exactly if the filter holds of the outputs in range. -/
theorem listUnspent_honours_iff (W : UnspentWallet) (minconf maxconf : Option ℕ)
    (texts : List String) (asOfHeight : Option ℤ) (hne : texts ≠ []) (query : Option Query)
    (hquery : parseQuery W minconf maxconf (some texts) asOfHeight = .ok query)
    (held : List HeldOutput) (hreturns : ∀ q ∈ query, ReturnsEachOnce W q held)
    (result : List UnspentOutput)
    (hresult : listUnspent W minconf maxconf (some texts) asOfHeight = .ok result) :
    match query with
    | none => result = []
    | some q => (result.map UnspentOutput.key).Perm
        ((held.filter q.asksFor).map HeldOutput.key) ↔ FilterHolds q held := by
  obtain ⟨query', hquery', hresult⟩ := bind_eq_ok.mp hresult
  obtain rfl : query' = query := Except.ok.inj (hquery'.symm.trans hquery)
  cases query' with
  | none => exact (Except.ok.inj hresult).symm
  | some q =>
    obtain ⟨ids, hids, hcollect⟩ := bind_eq_ok.mp hresult
    have hreturns := hreturns q rfl
    have hkeys := keys_listUnspent hreturns (orDatabase_eq_ok.mp hids) hcollect
    have hfilters := perm_filter_iff hreturns.distinct q.reports q.asksFor
    constructor
    · intro hperm h hmem
      have heq := hfilters.mp (hkeys.symm.trans hperm) h hmem
      exact (reports_eq_asksFor_iff (parseQuery_ne_nil hne hquery) h).mp heq
    · intro hholds
      refine hkeys.trans (hfilters.mpr fun h hmem => ?_)
      exact (reports_eq_asksFor_iff (parseQuery_ne_nil hne hquery) h).mpr (hholds h hmem)

/-! ## Internal addresses -/

/-- The two filters return the outputs of an address. -/
theorem mem_addressUtxos {W : UnspentWallet} {q : Query} {addr : TransparentAddress}
    {utxos : List (WalletTransparentOutput × Bool)} (h : addressUtxos W q addr = .ok utxos)
    {utxo : WalletTransparentOutput} : (∃ generated, (utxo, generated) ∈ utxos) ↔
      ∃ outputs coinbaseFilter, W.getSpendableTransparentOutputs addr q.targetHeight
        (confirmationsPolicyOf q.minconf) coinbaseFilter = .ok outputs ∧ utxo ∈ outputs := by
  obtain ⟨g, hg, rfl⟩ := collect_eq_ok.mp h
  have hfilter : ∀ filter ∈ [(CoinbaseFilter.NonCoinbaseOnly, false), (.CoinbaseOnly, true)],
      ∃ outputs, W.getSpendableTransparentOutputs addr q.targetHeight
        (confirmationsPolicyOf q.minconf) filter.1 = .ok outputs ∧
        g filter = outputs.map fun utxo => (utxo, filter.2) := by
    intro filter hmem
    obtain ⟨outputs, houtputs, hout⟩ := bind_eq_ok.mp (hg filter hmem)
    exact ⟨outputs, orDatabase_eq_ok.mp houtputs, (Except.ok.inj hout).symm⟩
  constructor
  · rintro ⟨generated, hmem⟩
    obtain ⟨filter, hin, hmem⟩ := List.mem_flatMap.mp hmem
    obtain ⟨outputs, houtputs, hgen⟩ := hfilter filter hin
    rw [hgen, List.mem_map] at hmem
    obtain ⟨utxo', hutxo, heq⟩ := hmem
    exact ⟨outputs, filter.1, houtputs, (Prod.mk.inj heq).1 ▸ hutxo⟩
  · rintro ⟨outputs, coinbaseFilter, houtputs, hutxo⟩
    have hin : ∃ generated, (coinbaseFilter, generated) ∈
        [(CoinbaseFilter.NonCoinbaseOnly, false), (.CoinbaseOnly, true)] := by
      cases coinbaseFilter <;> simp
    obtain ⟨generated, hin⟩ := hin
    obtain ⟨outputs', houtputs', hgen⟩ := hfilter _ hin
    obtain rfl := Except.ok.inj (houtputs.symm.trans houtputs')
    refine ⟨generated, List.mem_flatMap.mpr ⟨_, hin, ?_⟩⟩
    rw [hgen]
    exact List.mem_map_of_mem hutxo

/-- The outputs that the wallet returns for the receivers of an account. -/
theorem mem_accountUtxos {W : UnspentWallet} {q : Query} {id : AccountUuid}
    {utxos : List (WalletTransparentOutput × Bool)} (h : accountUtxos W q id = .ok utxos)
    {utxo : WalletTransparentOutput} : (∃ generated, (utxo, generated) ∈ utxos) ↔
      ∃ receivers addr coinbaseFilter outputs, W.getTransparentReceivers id = .ok receivers ∧
        addr ∈ receivers ∧ W.getSpendableTransparentOutputs addr q.targetHeight
          (confirmationsPolicyOf q.minconf) coinbaseFilter = .ok outputs ∧ utxo ∈ outputs := by
  obtain ⟨receivers, hreceivers, h⟩ := bind_eq_ok.mp h
  rw [orDatabase_eq_ok] at hreceivers
  obtain ⟨g, hg, rfl⟩ := collect_eq_ok.mp h
  constructor
  · rintro ⟨generated, hmem⟩
    obtain ⟨addr, haddr, hmem⟩ := List.mem_flatMap.mp hmem
    obtain ⟨outputs, coinbaseFilter, houtputs, hutxo⟩ :=
      (mem_addressUtxos (hg addr haddr)).mp ⟨generated, hmem⟩
    exact ⟨receivers, addr, coinbaseFilter, outputs, hreceivers, haddr, houtputs, hutxo⟩
  · rintro ⟨receivers', addr, coinbaseFilter, outputs, hreceivers', haddr, houtputs, hutxo⟩
    obtain rfl := Except.ok.inj (hreceivers.symm.trans hreceivers')
    obtain ⟨generated, hmem⟩ :=
      (mem_addressUtxos (hg addr haddr)).mpr ⟨outputs, coinbaseFilter, houtputs, hutxo⟩
    exact ⟨generated, List.mem_flatMap.mpr ⟨addr, haddr, hmem⟩⟩

/-- No output in range is at an internal address that can be reported. -/
def NoInternalUtxo (W : UnspentWallet) (q : Query) : Prop :=
  ∀ ids id receivers addr coinbaseFilter outputs utxo metadata,
    W.getAccountIds = .ok ids → id ∈ ids → W.getTransparentReceivers id = .ok receivers →
    addr ∈ receivers → W.getSpendableTransparentOutputs addr q.targetHeight
      (confirmationsPolicyOf q.minconf) coinbaseFilter = .ok outputs →
    utxo ∈ outputs → q.inRange utxo.minedHeight = true →
    W.getTransparentAddressMetadata id utxo.recipientAddress = .ok (some metadata) →
    metadata.scope = some TransparentKeyScope.INTERNAL → utxo.txoutRecipientAddress = none

/-- An internal output is reported without an address. -/
def UnspentOutput.Hidden (o : UnspentOutput) : Prop := o.walletInternal = true → o.address = none

theorem hidden_shieldedOutputs {R : Type} {W : UnspentWallet} {pool : Pool}
    {matchesAll : List Address → R → Bool} {encode : R → String} {q : Query} {id : AccountUuid}
    {isWatchOnly : Bool} {notes : List (ReceivedNote R)} {outs : List UnspentOutput}
    (h : shieldedOutputs W pool matchesAll encode q id isWatchOnly notes = .ok outs) :
    ∀ o ∈ outs, o.Hidden := by
  obtain ⟨g, hg, rfl⟩ := collect_eq_ok.mp h
  intro o ho
  obtain ⟨note, hnote, ho⟩ := List.mem_flatMap.mp ho
  obtain ⟨minedHeight, -, hbody⟩ := bind_eq_ok.mp (hg note hnote)
  split at hbody
  · rw [← Except.ok.inj hbody] at ho
    cases ho
  · obtain ⟨memo, -, hout⟩ := bind_eq_ok.mp hbody
    rw [← Except.ok.inj hout, List.mem_singleton] at ho
    rw [ho]
    exact fun hinternal => if_pos hinternal

/-- No output in range of a list is at an internal address that can be reported. -/
def NoInternalIn (W : UnspentWallet) (q : Query) (id : AccountUuid)
    (utxos : List (WalletTransparentOutput × Bool)) : Prop :=
  ∀ utxo generated metadata, (utxo, generated) ∈ utxos → q.inRange utxo.minedHeight = true →
    W.getTransparentAddressMetadata id utxo.recipientAddress = .ok (some metadata) →
    metadata.scope = some TransparentKeyScope.INTERNAL → utxo.txoutRecipientAddress = none

/-- The transparent outputs of an account are hidden if none in range is at an
    internal address. -/
theorem hidden_transparentOutputs_iff {W : UnspentWallet} {q : Query} {id : AccountUuid}
    {isWatchOnly : Bool} {utxos : List (WalletTransparentOutput × Bool)} {outs : List UnspentOutput}
    (h : transparentOutputs W q id isWatchOnly utxos = .ok outs) :
    (∀ o ∈ outs, o.Hidden) ↔ NoInternalIn W q id utxos := by
  obtain ⟨g, hg, rfl⟩ := collect_eq_ok.mp h
  constructor
  · intro hall utxo generated metadata hutxo hrange hmetadata hscope
    have hbody := hg _ hutxo
    simp only [hrange, Bool.true_eq_false, if_false] at hbody
    obtain ⟨walletInternal, hinternal, hout⟩ := bind_eq_ok.mp hbody
    have htrue : walletInternal = true := by
      rw [transparentInternal, hmetadata] at hinternal
      rw [← Except.ok.inj hinternal]
      simp [hscope]
    have hmem := List.mem_flatMap.mpr ⟨_, hutxo, (Except.ok.inj hout) ▸ List.mem_singleton_self _⟩
    have haddress := hall _ hmem htrue
    exact Option.map_eq_none_iff.mp haddress
  · intro hall o ho
    obtain ⟨⟨utxo, generated⟩, hutxo, ho⟩ := List.mem_flatMap.mp ho
    have hbody := hg _ hutxo
    cases hrange : q.inRange utxo.minedHeight with
    | false =>
      simp only [hrange, if_true] at hbody
      rw [← Except.ok.inj hbody] at ho
      cases ho
    | true =>
      simp only [hrange, Bool.true_eq_false, if_false] at hbody
      obtain ⟨walletInternal, hinternal, hout⟩ := bind_eq_ok.mp hbody
      rw [← Except.ok.inj hout, List.mem_singleton] at ho
      rw [ho]
      intro htrue
      obtain ⟨metadata, hmetadata, hscope⟩ := bind_eq_ok.mp hinternal
      rw [orDatabase_eq_ok] at hmetadata
      cases metadata with
      | none =>
        rw [← Except.ok.inj hscope] at htrue
        cases htrue
      | some metadata =>
        rw [← Except.ok.inj hscope] at htrue
        have hnone := hall utxo generated metadata hutxo hrange hmetadata (by simpa using htrue)
        exact Option.map_eq_none_iff.mpr hnone

theorem hidden_accountOutputs_iff {W : UnspentWallet} {q : Query} {id : AccountUuid}
    {outs : List UnspentOutput} (h : accountOutputs W q id = .ok outs) :
    ∃ utxos, accountUtxos W q id = .ok utxos ∧
      ((∀ o ∈ outs, o.Hidden) ↔ NoInternalIn W q id utxos) := by
  obtain ⟨isWatchOnly, utxos, notes, transparent, sapling, orchard, ironwood, hparts, rfl⟩ :=
    accountOutputs_eq_ok h
  refine ⟨utxos, hparts.accountUtxos, ?_⟩
  rw [← hidden_transparentOutputs_iff hparts.transparentOutputs]
  simp only [List.forall_mem_append]
  exact ⟨fun h => h.1.1.1, fun h => ⟨⟨⟨h, hidden_shieldedOutputs hparts.saplingOutputs⟩,
    hidden_shieldedOutputs hparts.orchardOutputs⟩, hidden_shieldedOutputs hparts.ironwoodOutputs⟩⟩

/-- The method hides every internal output exactly if none of its transparent ones is
    at an internal address. -/
theorem listUnspent_hidden_iff {W : UnspentWallet} {minconf maxconf : Option ℕ}
    {texts : Option (List String)} {asOfHeight : Option ℤ} {query : Option Query}
    {result : List UnspentOutput}
    (hquery : parseQuery W minconf maxconf texts asOfHeight = .ok query)
    (hresult : listUnspent W minconf maxconf texts asOfHeight = .ok result) :
    (∀ o ∈ result, o.Hidden) ↔ ∀ q ∈ query, NoInternalUtxo W q := by
  obtain ⟨query', hquery', hresult⟩ := bind_eq_ok.mp hresult
  obtain rfl : query' = query := Except.ok.inj (hquery'.symm.trans hquery)
  cases query' with
  | none =>
    rw [← Except.ok.inj hresult]
    simp
  | some q =>
    obtain ⟨ids, hids, hcollect⟩ := bind_eq_ok.mp hresult
    rw [orDatabase_eq_ok] at hids
    obtain ⟨g, hg, rfl⟩ := collect_eq_ok.mp hcollect
    constructor
    · intro hall q' hq'
      obtain rfl := Option.mem_some_iff.mp hq'
      intro ids' id receivers addr coinbaseFilter outputs utxo metadata hids' hid hreceivers haddr
        houtputs hutxo
      obtain rfl := Except.ok.inj (hids.symm.trans hids')
      obtain ⟨utxos, hutxos, hiff⟩ := hidden_accountOutputs_iff (hg id hid)
      obtain ⟨generated, hmem⟩ := (mem_accountUtxos hutxos).mpr
        ⟨receivers, addr, coinbaseFilter, outputs, hreceivers, haddr, houtputs, hutxo⟩
      have hhidden : ∀ o ∈ g id, o.Hidden := fun o ho =>
        hall o (List.mem_flatMap.mpr ⟨id, hid, ho⟩)
      exact hiff.mp hhidden utxo generated metadata hmem
    · intro hall o ho
      obtain ⟨id, hid, ho⟩ := List.mem_flatMap.mp ho
      obtain ⟨utxos, hutxos, hiff⟩ := hidden_accountOutputs_iff (hg id hid)
      refine hiff.mpr ?_ o ho
      intro utxo generated metadata hmem hrange hmetadata hscope
      obtain ⟨receivers, addr, coinbaseFilter, outputs, hreceivers, haddr, houtputs, hutxo⟩ :=
        (mem_accountUtxos hutxos).mp ⟨generated, hmem⟩
      exact hall q rfl ids id receivers addr coinbaseFilter outputs utxo metadata hids hid
        hreceivers haddr houtputs hutxo hrange hmetadata hscope

/-! ## A wallet with an output and a note -/

namespace TwoOutputs

def tAddr : TransparentAddress := .PublicKeyHash 1

def zAddr : SaplingAddress := ⟨[2]⟩

def utxo : WalletTransparentOutput := ⟨7, 0, some 90, tAddr, some tAddr, 500⟩

def note : ReceivedNote SaplingAddress := ⟨8, 1, zAddr, .External, 700⟩

/-- One account with one output and one note, at height 99. -/
def wallet : UnspentWallet where
  decode text :=
    if text = "t1" then some (.Transparent tAddr)
    else if text = "zs1" then some (.Sapling zAddr)
    else none
  encodeTransparent _ := "t1"
  encodeSapling _ := "zs1"
  encodeOrchard _ := "u1"
  chainHeight := .ok (some 99)
  getAccountIds := .ok [1]
  getAccount _ := .ok (some ⟨true⟩)
  getTransparentReceivers _ := .ok [tAddr]
  getSpendableTransparentOutputs _ _ _ coinbaseFilter :=
    .ok (if coinbaseFilter = .NonCoinbaseOnly then [utxo] else [])
  getTransparentAddressMetadata _ _ := .ok (some ⟨some 0⟩)
  selectUnspentNotes _ _ := .ok ⟨[note], [], []⟩
  getMemo _ _ _ := .ok none
  getTxHeight txid := .ok (if txid = 8 then some 91 else none)

def held : List HeldOutput :=
  [⟨.transparent, 7, 0, .Transparent tAddr, some 90⟩, ⟨.sapling, 8, 1, .Sapling zAddr, some 91⟩]

def query (addresses : List Address) : Query := ⟨addresses, 1, none, 100⟩

theorem returnsEachOnce (addresses : List Address) :
    ReturnsEachOnce wallet (query addresses) held := by
  have hids : ∀ ids, wallet.getAccountIds = .ok ids → ids = [1] :=
    fun ids h => (Except.ok.inj h).symm
  have hutxos : ∀ utxos, accountUtxos wallet (query addresses) 1 = .ok utxos →
      utxos = [(utxo, false)] := fun utxos h => (Except.ok.inj h).symm
  have hnotes : ∀ (ids : List AccountUuid) (notes : AccountUuid → ReceivedNotes), ids = [1] →
      (∀ id ∈ ids, wallet.selectUnspentNotes id 100 = .ok (notes id)) →
      notes 1 = ⟨[note], [], []⟩ := by
    rintro ids notes rfl h
    exact (Except.ok.inj (h 1 List.mem_cons_self)).symm
  refine ⟨by decide, ?_, ?_, ?_, ?_⟩
  · intro ids utxos h hall
    obtain rfl := hids ids h
    rw [List.flatMap_cons, hutxos _ (hall 1 List.mem_cons_self)]
    exact List.Perm.refl _
  all_goals
    intro ids notes h hall
    obtain rfl := hids ids h
    rw [List.flatMap_cons, hnotes _ notes rfl hall]
    exact List.Perm.refl _

/-- A listed transparent address keeps the note out and lets its output through. -/
theorem listUnspent_honours_iff_transparent :
    ∃ result, listUnspent wallet none none (some ["t1"]) none = .ok result ∧
      (result.map UnspentOutput.key).Perm
        ((held.filter (query [.Transparent tAddr]).asksFor).map HeldOutput.key) := by
  refine ⟨_, rfl, ?_⟩
  have hiff := listUnspent_honours_iff wallet none none ["t1"] none (by simp)
    (some (query [.Transparent tAddr])) rfl held
    (fun q h => (Option.mem_some_iff.mp h) ▸ returnsEachOnce _) _ rfl
  have hholds : FilterHolds (query [.Transparent tAddr]) held := by
    unfold FilterHolds
    decide
  exact hiff.mpr hholds

/-- With both addresses listed, the note is not reported. -/
theorem listUnspent_two_addresses :
    ∃ result, listUnspent wallet none none (some ["t1", "zs1"]) none = .ok result ∧
      ¬ (result.map UnspentOutput.key).Perm
        ((held.filter (query [.Transparent tAddr, .Sapling zAddr]).asksFor).map
          HeldOutput.key) := by
  refine ⟨_, rfl, ?_⟩
  decide

end TwoOutputs

end Zallet.Rpc.ListUnspent
