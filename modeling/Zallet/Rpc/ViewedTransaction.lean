import Zallet.Common.Panics
import Zallet.Rpc.GetRawTransaction
import Zallet.Rpc.ViewTransaction

/-!
# Viewing a whole transaction

`z_viewtransaction` (`json_rpc/methods/view_transaction.rs`, lines 295–1038) with the spends,
`WalletTxInfo::fetch` (lines 1052–1138) and the fee, on what `ViewTransaction` has of the
viewing keys and the outputs. The wallet and the view of the chain answer as they like.

The indices are 16-bit counters. There may be more transparent inputs and outputs than that;
the shielded parts of a transaction are fewer in every valid one.

`Faithful` is what a report has to show, and `Clear` is when the call gives one.
-/

namespace Zallet.Rpc.ViewedTransaction

open Zallet.Chain Zallet.Wallet Zallet.Common.Loop Zallet.Common.Panics
open Zallet.Rpc.GetRawTransaction (decodeHash hashText)
open Zallet.Rpc.ListUnspent Zallet.Rpc.ViewTransaction

/-! ## Transactions, the wallet and the view -/

/-- `is_coinbase` of a bundle: a single input, whose outpoint is null. -/
def isCoinbase (vin : List OutPoint) : Bool :=
  match vin with
  | [prevout] => decide (prevout = ⟨0, 2 ^ 32 - 1⟩)
  | _ => false

abbrev Nullifier := BitVec 256

/-- A transaction of the wallet. -/
structure StoredTx (SaplingOutput OrchardAction : Type)
    extends ViewedTx SaplingOutput OrchardAction where
  vin : List OutPoint
  saplingSpends : List Nullifier
  version : ℕ
  expiryHeight : ℕ
  /-- `fee_paid`, given the values of the outputs that the inputs spend. -/
  feePaid : (OutPoint → Option ℕ) → Except String (Option ℕ)
  /-- The fee is only unknown with the value of an input, or for a coinbase transaction. -/
  feePaid_none : ∀ {values}, feePaid values = .ok none →
    isCoinbase vin = true ∨ ∃ prevout ∈ vin, values prevout = none
  saplingSpends_lt : saplingSpends.length < 65536
  saplingOutputs_lt : saplingOutputs.length < 65536
  orchardActions_lt : orchardActions.length < 65536
  ironwoodActions_lt : ironwoodActions.length < 65536

/-- `OutputInfo` (line 420). -/
structure OutputInfo where
  txid : TxId
  index : ℕ
  account : AccountUuid
  address : Option String
  value : ℕ
  deriving DecidableEq

structure TxWallet (SaplingIvk OrchardIvk SaplingOutput OrchardAction : Type)
    extends ViewWallet SaplingIvk OrchardIvk SaplingOutput OrchardAction where
  getTransaction : TxId → Except String (Option (StoredTx SaplingOutput OrchardAction))
  nullifier : OrchardAction → Nullifier
  /-- The row of the received notes with a nullifier. -/
  noteWithNullifier : Pool → Nullifier → Except String (Option OutputInfo)
  getTxHeight : TxId → Except String (Option ℕ)
  /-- The rows of `v_transactions`: an account and the change of its balance. -/
  accountRows : TxId → Except String (List (AccountUuid × ℤ))
  /-- The text of `ChainHeightUnknown`. -/
  chainHeightUnknown : String

/-- A block of the view. -/
structure Block where
  hash : BlockHash
  time : ℕ
  vtx : List TxId
  deriving DecidableEq

/-- The answers of the view. A transaction is known by the outputs of its transparent
    bundle. -/
structure View where
  tip : Except String ℕ
  getTransaction : TxId → Except String (Option (Option (List (Option TransparentAddress × ℕ))))
  getBlock : ℕ → Except String (Option Block)

/-! ## The result -/

structure Spend where
  pool : Pool
  tIn : Option ℕ
  spend : Option ℕ
  action : Option ℕ
  txidPrev : TxId
  tOutPrev : Option ℕ
  outputPrev : Option ℕ
  actionPrev : Option ℕ
  accountUuid : Option AccountUuid
  address : Option String
  value : ℕ
  deriving DecidableEq

structure WalletTxInfo where
  status : String
  confirmations : ℤ
  generated : Option Bool
  blockhash : Option (List Char)
  blockindex : Option ℕ
  blocktime : Option ℕ
  expiryheight : ℕ
  deriving DecidableEq

/-- `Transaction` (lines 58–125). -/
structure Transaction extends WalletTxInfo where
  txid : List Char
  version : ℕ
  fee : Option ℕ
  spends : List Spend
  outputs : List ViewedOutput
  accounts : List (AccountUuid × ℤ)
  deriving DecidableEq

/-- The call ends in an error of the interface, or panics. -/
abbrev CallFailure := Stopped ErrorObject

/-- An outcome whose error is that of the call. -/
def orError {α : Type} (x : Except ErrorObject α) : Except CallFailure α := x.mapError .Error

/-- `Zatoshis::const_from_u64`. -/
def constFromU64 (value : ℕ) : Except CallFailure ℕ :=
  if value ≤ maxMoney then .ok value else .error (.Panic "assertion failed: amount <= MAX_MONEY")

section

variable {SaplingIvk OrchardIvk SaplingOutput OrchardAction : Type}

variable (V : TxWallet SaplingIvk OrchardIvk SaplingOutput OrchardAction) (view : View)
  (overflowChecks : Bool) (tx : StoredTx SaplingOutput OrchardAction)

/-! ## The spends -/

/-- The output that an input spends (lines 684–695). -/
def previousOutput (prevout : OutPoint) : Except CallFailure (Option TransparentAddress × ℕ) :=
  match view.getTransaction prevout.txid with
  | .ok (some prevTx) =>
    match prevTx.bind fun vout => vout[prevout.n]? with
    | some output => .ok output
    | none => .error (.Panic "Zaino should have rejected this earlier")
  | .ok none => .error (.Panic "internal error: entered unreachable code")
  | .error _ => .error (.Panic "not yet implemented")

/-- The account of an address (lines 698–705). An account whose metadata cannot be read
    counts as well. -/
def accountOf (accountIds : List AccountUuid) (address : TransparentAddress) :
    Option AccountUuid :=
  accountIds.find? fun account =>
    match V.getTransparentAddressMetadata account address with
    | .ok none => false
    | _ => true

/-- The spend of an output (lines 716–730). -/
def inputSpend (accountIds : List AccountUuid) (prevout : OutPoint) (idx : UInt16)
    (output : Option TransparentAddress × ℕ) : Spend where
  pool := .transparent
  tIn := some idx.toNat
  spend := none
  action := none
  txidPrev := prevout.txid
  tOutPrev := some prevout.n
  outputPrev := none
  actionPrev := none
  accountUuid := output.1.bind (accountOf V accountIds)
  address := output.1.map V.encodeTransparent
  value := output.2

/-- One turn of the loop over the transparent inputs (lines 679–731). -/
def transparentSpend (accountIds : List AccountUuid) (prevout : OutPoint) (idx : UInt16) :
    Except CallFailure ((OutPoint × ℕ) × Spend) := do
  let output ← previousOutput view prevout
  .ok ((prevout, output.2), inputSpend V accountIds prevout idx output)

/-- The transparent inputs, which a coinbase transaction has none of (lines 673–734). -/
def transparentSpends (accountIds : List AccountUuid) :
    Except CallFailure (List ((OutPoint × ℕ) × Spend)) :=
  if isCoinbase tx.vin then .ok []
  else countedLoop overflowChecks (transparentSpend V view accountIds) 0 tx.vin

/-- `output_with_nullifier` (lines 421–464). -/
def outputWithNullifier (pool : Pool) (nf : Nullifier) : Except CallFailure (Option OutputInfo) := do
  match ← orError ((V.noteWithNullifier pool nf).mapError fun e =>
      ⟨databaseCode, "Failed to fetch spent note: " ++ e, none⟩) with
  | none => .ok none
  | some row => do
    let value ← constFromU64 row.value
    .ok (some { row with value := value })

/-- The spend of a note. An index is one of an output or of an action. -/
def noteSpend (pool : Pool) (position : ℕ → Option ℕ × Option ℕ) (idx : ℕ) (note : OutputInfo) :
    Spend where
  pool := pool
  tIn := none
  spend := (position idx).1
  action := (position idx).2
  txidPrev := note.txid
  tOutPrev := none
  outputPrev := (position note.index).1
  actionPrev := (position note.index).2
  accountUuid := some note.account
  address := note.address
  value := note.value

/-- One turn of the loop over the shielded spends of a pool. -/
def shieldedSpend (pool : Pool) (position : ℕ → Option ℕ × Option ℕ) (spend : Nullifier × ℕ) :
    Except CallFailure (List Spend) := do
  match ← outputWithNullifier V pool spend.1 with
  | none => .ok []
  | some note => .ok [noteSpend pool position spend.2 note]

/-- The loop over the shielded spends of a pool. -/
def shieldedSpends (pool : Pool) (position : ℕ → Option ℕ × Option ℕ)
    (nullifiers : List Nullifier) : Except CallFailure (List Spend) :=
  collect (shieldedSpend V pool position) nullifiers.zipIdx

/-- The Sapling spends (lines 736–761). -/
def saplingViewedSpends : Except CallFailure (List Spend) :=
  shieldedSpends V .sapling (fun idx => (some idx, none)) tx.saplingSpends

/-- `orchard_family_spends` (lines 513–537). -/
def orchardFamilySpends (pool : Pool) (actions : List OrchardAction) :
    Except CallFailure (List Spend) :=
  shieldedSpends V pool (fun idx => (none, some idx)) (actions.map V.nullifier)

/-- `transparent_input_values`. -/
def transparentInputValues (inputs : List (OutPoint × ℕ)) : OutPoint → Option ℕ :=
  inputs.foldl (fun values input => Function.update values input.1 (some input.2)) fun _ => none

/-- The spends of the shielded pools (lines 736–779). -/
def shieldedViewedSpends : Except CallFailure (List Spend) := do
  let sapling ← saplingViewedSpends V tx
  let orchard ← orchardFamilySpends V .orchard tx.orchardActions
  let ironwood ← orchardFamilySpends V .ironwood tx.ironwoodActions
  .ok (sapling ++ orchard ++ ironwood)

/-- The values of the spent outputs by their outpoints, and the spends (lines 673–779). -/
def viewSpends (accountIds : List AccountUuid) :
    Except CallFailure ((OutPoint → Option ℕ) × List Spend) := do
  let inputs ← transparentSpends V view overflowChecks tx accountIds
  let shielded ← shieldedViewedSpends V tx
  .ok (transparentInputValues (inputs.map Prod.fst), inputs.map Prod.snd ++ shielded)

/-! ## The outputs -/

/-- The transparent outputs (lines 781–833). -/
def transparentOutputs (accountIds : List AccountUuid) (fundedByThisWallet : Bool) :
    Except CallFailure (List ViewedOutput) :=
  countedLoop overflowChecks (fun output idx =>
    .ok (transparentViewed V.toViewWallet accountIds fundedByThisWallet idx.toNat output)) 0 tx.vout

/-- One turn of the loop over the shielded outputs of a pool. The value of a note is checked
    once its recipient is known. -/
def shieldedOutput {Ivk Out Addr : Type} (pool : Pool)
    (decrypt : Ivk → Out → Option (Decrypted Addr)) (recover : Ovk → Out → Option (Decrypted Addr))
    (encode : Addr → String) (position : ℕ → Option ℕ × Option ℕ)
    (ivks : List (AccountUuid × Ivk × Scope)) (ovks : List (Ovk × Scope)) (txid : TxId)
    (output : Out × ℕ) : Except CallFailure (List ViewedOutput) :=
  match seen decrypt recover ivks ovks output.1 with
  | none => .ok []
  | some (note, accountUuid, addr, memo) => do
    let address ← orError (sentToAddress V.toViewWallet txid pool output.2 (addr.map encode))
    let value ← constFromU64 note.value
    .ok [{ pool := pool
           tOut := none
           output := (position output.2).1
           action := (position output.2).2
           accountUuid := accountUuid
           address := address
           outgoing := some accountUuid.isNone
           walletInternal := address.isNone
           value := value
           memo := some memo.encoding
           memoStr := memo.text }]

/-- The loop over the shielded outputs of a pool. -/
def shieldedOutputs {Ivk Out Addr : Type} (pool : Pool)
    (decrypt : Ivk → Out → Option (Decrypted Addr)) (recover : Ovk → Out → Option (Decrypted Addr))
    (encode : Addr → String) (position : ℕ → Option ℕ × Option ℕ)
    (ivks : List (AccountUuid × Ivk × Scope)) (ovks : List (Ovk × Scope)) (txid : TxId)
    (outputs : List Out) : Except CallFailure (List ViewedOutput) :=
  collect (shieldedOutput V pool decrypt recover encode position ivks ovks txid) outputs.zipIdx

/-- The Sapling outputs (lines 835–945). -/
def saplingOutputsOf (keys : ViewingKeys SaplingIvk OrchardIvk) :
    Except CallFailure (List ViewedOutput) :=
  shieldedOutputs V .sapling V.decryptSapling V.recoverSapling V.encodeSapling
    (fun idx => (some idx, none)) keys.saplingIvks keys.ovks tx.txid tx.saplingOutputs

/-- `orchard_family_outputs` (lines 541–671). -/
def orchardFamilyOutputsOf (keys : ViewingKeys SaplingIvk OrchardIvk) (pool : Pool)
    (actions : List OrchardAction) : Except CallFailure (List ViewedOutput) :=
  shieldedOutputs V pool (V.decryptOrchard pool) (V.recoverOrchard pool) V.encodeOrchard
    (fun idx => (none, some idx)) keys.orchardIvks keys.ovks tx.txid actions

/-- The outputs of the shielded pools (lines 835–966). -/
def shieldedViewedOutputs (keys : ViewingKeys SaplingIvk OrchardIvk) :
    Except CallFailure (List ViewedOutput) := do
  let sapling ← saplingOutputsOf V tx keys
  let orchard ← orchardFamilyOutputsOf V tx keys .orchard tx.orchardActions
  let ironwood ← orchardFamilyOutputsOf V tx keys .ironwood tx.ironwoodActions
  .ok (sapling ++ orchard ++ ironwood)

/-- The outputs (lines 781–966). -/
def viewOutputs (accountIds : List AccountUuid) (keys : ViewingKeys SaplingIvk OrchardIvk)
    (fundedByThisWallet : Bool) : Except CallFailure (List ViewedOutput) := do
  let transparent ← transparentOutputs V overflowChecks tx accountIds fundedByThisWallet
  let shielded ← shieldedViewedOutputs V tx keys
  .ok (transparent ++ shielded)

/-! ## The place in the chain -/

/-- `is_expired_tx` (lines 1140–1150). -/
def isExpiredTx (height : ℕ) : Bool :=
  if tx.expiryHeight = 0 ∨ isCoinbase tx.vin = true then false
  else decide (tx.expiryHeight < height)

/-- `TX_EXPIRING_SOON_THRESHOLD`. -/
def txExpiringSoonThreshold : ℕ := 3

/-- `is_expiring_soon_tx` (lines 1152–1157). -/
def isExpiringSoonTx (nextHeight : ℕ) : Bool :=
  isExpiredTx tx (nextHeight + txExpiringSoonThreshold)

/-- The status of a transaction that is not mined (lines 1111–1120). -/
def unminedStatus (chainHeight : ℕ) : String :=
  match isExpiredTx tx chainHeight, isExpiringSoonTx tx (chainHeight + 1) with
  | false, true => "expiringsoon"
  | true, _ => "expired"
  | _, _ => "waiting"

/-- The block of the view at the height that the wallet has for the transaction
    (lines 1088–1092). -/
def minedBlock (height : ℕ) : Except String Block :=
  match view.getBlock height with
  | .error _ => .error V.chainHeightUnknown
  | .ok none => .error V.chainHeightUnknown
  | .ok (some block) => .ok block

/-- `WalletTxInfo::fetch` (lines 1052–1138). -/
def WalletTxInfo.fetch (chainHeight : ℕ) : Except String WalletTxInfo := do
  let minedHeight ← V.getTxHeight tx.txid
  let generated := if isCoinbase tx.vin then some true else none
  match minedHeight with
  | some height => do
    let block ← minedBlock V view height
    .ok { status := "mined"
          confirmations := (chainHeight + 1 - height : ℕ)
          generated := generated
          blockhash := some (hashText block.hash)
          blockindex := block.vtx.findIdx? fun txid => decide (txid = tx.txid)
          blocktime := some block.time
          expiryheight := tx.expiryHeight }
  | none =>
    .ok { status := unminedStatus tx chainHeight
          confirmations := -1
          generated := generated
          blockhash := none
          blockindex := none
          blocktime := none
          expiryheight := tx.expiryHeight }

/-- The effects of the transaction on the accounts (lines 983–1018). -/
def accountEffects : Except String (List (AccountUuid × ℤ)) := do
  let rows ← V.accountRows tx.txid
  rows.mapM fun row =>
    if row.2.natAbs ≤ maxMoney then .ok row else .error "Balance out of range"

/-- What is reported besides the spends and the outputs (lines 968–1018). -/
def viewInfo (values : OutPoint → Option ℕ) :
    Except ErrorObject (WalletTxInfo × Option ℕ × List (AccountUuid × ℤ)) := do
  let chainTip ← orDatabaseText view.tip
  let info ← orDatabaseText (WalletTxInfo.fetch V view tx chainTip)
  let fee ← (tx.feePaid values).mapError fun e =>
    ⟨databaseCode, "Failed to compute fee: " ++ e, none⟩
  let accounts ← orDatabaseText (accountEffects V tx)
  .ok (info, fee, accounts)

/-! ## The call -/

/-- What the call reads. -/
structure Request (SaplingIvk OrchardIvk SaplingOutput OrchardAction : Type) where
  view : View
  tx : StoredTx SaplingOutput OrchardAction
  accountIds : List AccountUuid
  keys : ViewingKeys SaplingIvk OrchardIvk

/-- The transaction, the accounts and the viewing keys (lines 301–418). -/
def readRequest (snapshot : Except String View) (txidStr : List Char) :
    Except ErrorObject (Request SaplingIvk OrchardIvk SaplingOutput OrchardAction) := do
  let txid ← (decodeHash txidStr).elim (.error ⟨invalidParameterCode, "invalid txid", none⟩) .ok
  let view ← orDatabaseText snapshot
  match ← orDatabaseText (V.getTransaction txid) with
  | none => .error ⟨-5, "Invalid or non-wallet transaction id", none⟩
  | some tx => do
    let accountIds ← orDatabaseText V.getAccountIds
    let keys ← viewingKeys V.toViewWallet
    .ok ⟨view, tx, accountIds, keys⟩

/-- The call on what it has read (lines 670–1038). -/
def report (txidStr : List Char)
    (request : Request SaplingIvk OrchardIvk SaplingOutput OrchardAction) :
    Except CallFailure Transaction := do
  let ⟨view, tx, accountIds, keys⟩ := request
  let (values, spends) ← viewSpends V view overflowChecks tx accountIds
  let fundedByThisWallet := spends.any fun spend => spend.accountUuid.isSome
  let outputs ← viewOutputs V overflowChecks tx accountIds keys fundedByThisWallet
  let (info, fee, accounts) ← orError (viewInfo V view tx values)
  .ok { info with
    txid := txidStr.map Char.toLower
    version := tx.version &&& 0x7FFFFFFF
    fee := fee
    spends := spends
    outputs := outputs
    accounts := accounts }

/-- `z_viewtransaction` (lines 295–1038). -/
def call (snapshot : Except String View) (txidStr : List Char) :
    Except CallFailure Transaction := do
  let request ← orError (readRequest V snapshot txidStr)
  report V overflowChecks txidStr request

end

/-! ## Faithful reports -/

/-- The places that are reported are the viewable ones, each once. -/
structure Reports (viewable : Pool → ℕ → Prop) (places : List (Pool × Option ℕ)) : Prop where
  nodup : places.Nodup
  mem_iff : ∀ place, place ∈ places ↔ ∃ pool i, place = (pool, some i) ∧ viewable pool i

/-- The pool of a spend and its index there. -/
def Spend.place (s : Spend) : Pool × Option ℕ := (s.pool, s.tIn.or (s.spend.or s.action))

/-- The pool of an output and its index there. -/
def outputPlace (o : ViewedOutput) : Pool × Option ℕ := (o.pool, o.tOut.or (o.output.or o.action))

/-- The output at an outpoint, where the view has it. -/
def foundOutput (view : View) (prevout : OutPoint) : Option (Option TransparentAddress × ℕ) :=
  match view.getTransaction prevout.txid with
  | .ok (some (some vout)) => vout[prevout.n]?
  | _ => none

/-- What the keys see of an output, with the text of its recipient. -/
def seenText {Ivk Out Addr : Type} (decrypt : Ivk → Out → Option (Decrypted Addr))
    (recover : Ovk → Out → Option (Decrypted Addr)) (encode : Addr → String)
    (ivks : List (AccountUuid × Ivk × Scope)) (ovks : List (Ovk × Scope)) (output : Out) :
    Option (Note × Option AccountUuid × Option String × Memo) :=
  (seen decrypt recover ivks ovks output).map
    fun (note, account, addr, memo) => (note, account, addr.map encode, memo)

section

variable {SaplingIvk OrchardIvk SaplingOutput OrchardAction : Type}

variable (V : TxWallet SaplingIvk OrchardIvk SaplingOutput OrchardAction) (view : View)
  (overflowChecks : Bool) (tx : StoredTx SaplingOutput OrchardAction)
  (keys : ViewingKeys SaplingIvk OrchardIvk)

/-- The nullifiers of a shielded pool. -/
def nullifiers : Pool → List Nullifier
  | .transparent => []
  | .sapling => tx.saplingSpends
  | .orchard => tx.orchardActions.map V.nullifier
  | .ironwood => tx.ironwoodActions.map V.nullifier

/-- What the keys of the wallet see of the outputs of a shielded pool. -/
def seenOutputs :
    Pool → List (Option (Note × Option AccountUuid × Option String × Memo))
  | .transparent => []
  | .sapling => tx.saplingOutputs.map
    (seenText V.decryptSapling V.recoverSapling V.encodeSapling keys.saplingIvks keys.ovks)
  | .orchard => tx.orchardActions.map (seenText (V.decryptOrchard .orchard)
    (V.recoverOrchard .orchard) V.encodeOrchard keys.orchardIvks keys.ovks)
  | .ironwood => tx.ironwoodActions.map (seenText (V.decryptOrchard .ironwood)
    (V.recoverOrchard .ironwood) V.encodeOrchard keys.orchardIvks keys.ovks)

/-- The inputs that the wallet can view: those of the transparent bundle, and the notes that
    it has received. -/
def ViewableSpend : Pool → ℕ → Prop
  | .transparent, i => isCoinbase tx.vin = false ∧ i < tx.vin.length
  | pool, i => ∃ nf note, (nullifiers V tx pool)[i]? = some nf ∧
      V.noteWithNullifier pool nf = .ok (some note)

/-- The outputs that the wallet can view: the transparent ones, and those that a key sees. -/
def ViewableOutput : Pool → ℕ → Prop
  | .transparent, i => i < tx.vout.length
  | pool, i => ∃ output, (seenOutputs V tx keys pool)[i]? = some (some output)

/-- The spend is the input at its place. -/
def DescribesSpend (s : Spend) : Prop :=
  match s.place with
  | (.transparent, some i) => ∃ prevout output, tx.vin[i]? = some prevout ∧
      foundOutput view prevout = some output ∧ s.txidPrev = prevout.txid ∧
      s.tOutPrev = some prevout.n ∧ s.value = output.2
  | (pool, some i) => ∃ nf note, (nullifiers V tx pool)[i]? = some nf ∧
      V.noteWithNullifier pool nf = .ok (some note) ∧ s.txidPrev = note.txid ∧
      s.accountUuid = some note.account ∧ s.address = note.address ∧ s.value = note.value
  | (_, none) => False

/-- The output reported is the one at its place. -/
def DescribesOutput (o : ViewedOutput) : Prop :=
  match outputPlace o with
  | (.transparent, some i) => ∃ address, tx.vout[i]? = some (address, o.value) ∧
      o.address = address.map V.encodeTransparent
  | (pool, some i) => ∃ note account address memo,
      (seenOutputs V tx keys pool)[i]? = some (some (note, account, address, memo)) ∧
      o.accountUuid = account ∧ o.value = note.value ∧ o.memo = some memo.encoding
  | (_, none) => False

/-- The report shows what the wallet can view of the transaction, and its place. -/
structure Faithful (result : Transaction) : Prop where
  spends : Reports (ViewableSpend V tx) (result.spends.map Spend.place)
  spends_described : ∀ s ∈ result.spends, DescribesSpend V view tx s
  outputs : Reports (ViewableOutput V tx keys) (result.outputs.map outputPlace)
  outputs_described : ∀ o ∈ result.outputs, DescribesOutput V tx keys o
  fee : result.fee = none →
    isCoinbase tx.vin = true ∨ ∃ prevout ∈ tx.vin, foundOutput view prevout = none
  block : ∀ hash, result.blockhash = some hash → ∃ height block i,
    view.getBlock height = .ok (some block) ∧ hashText block.hash = hash ∧
      result.blockindex = some i ∧ block.vtx[i]? = some tx.txid

/-! ## Where they are -/

/-- The values of the notes that are read in order: none is too large before the first read
    that fails. -/
def NotesFit : List (Except String (Option ℕ)) → Prop
  | [] => True
  | .error _ :: _ => True
  | .ok none :: reads => NotesFit reads
  | .ok (some value) :: reads => value ≤ maxMoney ∧ NotesFit reads

/-- No read fails. -/
def AllRead (reads : List (Except String (Option ℕ))) : Prop :=
  ∀ read ∈ reads, ∃ value, read = .ok value

/-- The lookups of the notes that a pool spends. -/
def spendReads (pool : Pool) : List (Except String (Option ℕ)) :=
  (nullifiers V tx pool).map fun nf => (V.noteWithNullifier pool nf).map (·.map OutputInfo.value)

/-- The lookup of the recipient of an output, if the wallet sees it. -/
def outputRead (txid : TxId) (pool : Pool)
    (output : Option (Note × Option AccountUuid × Option String × Memo) × ℕ) :
    Except String (Option ℕ) :=
  match output.1 with
  | none => .ok none
  | some (note, _) => (V.sentTo txid pool output.2).map fun _ => some note.value

/-- The lookups of the recipients of the outputs of a pool. -/
def outputReads (pool : Pool) : List (Except String (Option ℕ)) :=
  (seenOutputs V tx keys pool).zipIdx.map (outputRead V tx.txid pool)

def allSpendReads : List (Except String (Option ℕ)) :=
  spendReads V tx .sapling ++ spendReads V tx .orchard ++ spendReads V tx .ironwood

def allOutputReads : List (Except String (Option ℕ)) :=
  outputReads V tx keys .sapling ++ outputReads V tx keys .orchard ++ outputReads V tx keys .ironwood

/-- The values of the outputs that the inputs spend. -/
def spentValues (prevout : OutPoint) : Option ℕ :=
  if isCoinbase tx.vin = false ∧ prevout ∈ tx.vin then (foundOutput view prevout).map Prod.snd
  else none

/-- The reads for the place of the transaction, its fee and its effects succeed. -/
structure InfoRead : Prop where
  tip : ∃ tip, view.tip = .ok tip
  height : ∃ height, V.getTxHeight tx.txid = .ok height ∧
    ∀ h ∈ height, ∃ block, view.getBlock h = .ok (some block)
  fee : ∃ fee, tx.feePaid (spentValues view tx) = .ok fee
  accounts : ∃ rows, V.accountRows tx.txid = .ok rows ∧ ∀ row ∈ rows, row.2.natAbs ≤ maxMoney

/-- The call is answered. -/
structure Answered : Prop where
  spends : AllRead (allSpendReads V tx)
  outputs : AllRead (allOutputReads V tx keys)
  info : InfoRead V view tx

/-- Nothing goes wrong in the call before an error ends it. -/
structure Clear : Prop where
  found : isCoinbase tx.vin = false → ∀ prevout ∈ tx.vin, (foundOutput view prevout).isSome
  inputs_counted : isCoinbase tx.vin = false → overflowChecks = true → tx.vin.length < 65536
  spends_fit : NotesFit (allSpendReads V tx)
  outputs_counted : AllRead (allSpendReads V tx) → overflowChecks = true → tx.vout.length < 65536
  outputs_fit : AllRead (allSpendReads V tx) → NotesFit (allOutputReads V tx keys)
  numbered : Answered V view tx keys →
    (isCoinbase tx.vin = false → tx.vin.length ≤ 65536) ∧ tx.vout.length ≤ 65536
  placed : Answered V view tx keys → ∀ height block,
    V.getTxHeight tx.txid = .ok (some height) → view.getBlock height = .ok (some block) →
    tx.txid ∈ block.vtx

end

end Zallet.Rpc.ViewedTransaction
