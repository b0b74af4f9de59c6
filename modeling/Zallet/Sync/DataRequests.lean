import Zallet.Sync.Machine

/-!
# The data request task

`data_requests` (`sync.rs`, lines 1197–1403) waits for the chain tip to
advance and then services what the wallet asks for: the status of a
transaction, the transaction itself, and whether an output it tracks has been
spent.

How spends are found depends on the build. With a spend index
(`spendIndex = true`) the wallet asks for the spender of an outpoint.
Without one it asks for the transactions that involve an address, and
`serviceAddressRequest` looks at the address's unspent outputs first.
-/

namespace Zallet.Sync

open Zallet.Effect Zallet.Common Zallet.Chain Zallet.Wallet

/-- `address_request_bounds` (lines 1203–1217): the heights to query and the
    height to report as checked. -/
def addressRequestBounds (blockRangeStart : ℕ) (blockRangeEnd : Option ℕ) (viewTip : ℕ) :
    HeightRange × ℕ :=
  let tipExclusive := viewTip + 1
  let stop := (blockRangeEnd.map fun e => min e tipExclusive).getD tipExclusive
  let stop := max stop blockRangeStart
  (⟨blockRangeStart, stop⟩, stop - 1)

/-- A transaction is fetched and, if the backend has it, stored
    (lines 1267–1273 and 1379–1390). -/
def storeTransaction (view : ChainView) (txid : TxId) : SyncM Unit := do
  match ← chain (.getTransaction view txid) with
  | some tx => db (.decryptAndStoreTransaction tx.inner tx.minedHeight)
  | none => pure ()

/-- The loop over the transactions of an address (lines 1266–1274). -/
def storeTransactions (view : ChainView) : List TxId → SyncM Unit
  | [] => pure ()
  | txid :: rest => do
    storeTransaction view txid
    storeTransactions view rest

/-- The history of an address is fetched if one of the wallet's outputs there
    has been spent (lines 1261–1275). -/
def recordSpends (view : ChainView) (address : TransparentAddress) (range : HeightRange)
    (anySpent : Bool) : SyncM Unit :=
  if anySpent then do
    let txids ← chain (.getAddressTxIds view address range)
    storeTransactions view txids
  else pure ()

/-- `service_address_request` (lines 1229–1281). -/
def serviceAddressRequest (view : ChainView) (request : TransactionsInvolvingAddress)
    (viewTip : ℕ) : SyncM Unit := do
  let bounds := addressRequestBounds request.blockRangeStart request.blockRangeEnd viewTip
  let chainUnspent ← chain (.getAddressUnspentOutpoints view request.address)
  let ourOutputs ← db (.getSpendableTransparentOutputs request.address (viewTip + 1))
  let anySpent := ourOutputs.any fun outpoint => !chainUnspent.contains outpoint
  recordSpends view request.address bounds.1 anySpent
  db (.notifyAddressChecked request bounds.2)

/-- The `GetStatus` arm (lines 1307–1321). -/
def getStatus (view : ChainView) (txid : TxId) : SyncM Unit := do
  match ← chainTry (.getTransactionStatus view txid) with
  | .ok status => db (.setTransactionStatus txid status)
  | .error (.InvalidData source) => throw (.Chain (.InvalidData source))
  | .error _ => pure ()

/-- The `Enhancement` arm (lines 1322–1352). -/
def enhance (view : ChainView) (txid : TxId) : SyncM Unit := do
  match ← chainTry (.getTransaction view txid) with
  | .ok (some tx) => db (.decryptAndStoreTransaction tx.inner tx.minedHeight)
  | .ok none => db (.setTransactionStatus txid .TxidNotRecognized)
  | .error (.InvalidData source) => throw (.Chain (.InvalidData source))
  | .error _ => pure ()

/-- The `GetSpendingTx` arm (lines 1369–1399). -/
def getSpendingTx (view : ChainView) (viewTip : ℕ) (outpoint : OutPoint) : SyncM Unit := do
  match ← chainTry (.outpointSpendStatus view outpoint) with
  | .ok .Unspent => db (.notifyOutputVerifiedUnspent outpoint viewTip)
  | .ok (.SpentBy txid) => storeTransaction view txid
  | .ok .SpentSpenderUnknown => pure ()
  | .error _ => pure ()

/-- The `match` on a request (lines 1306–1400). The request for a spender
    exists with a spend index only. -/
def serviceRequest (spendIndex : Bool) (view : ChainView) (viewTip : ℕ) :
    TransactionDataRequest → SyncM Unit
  | .GetStatus txid => if isNull txid then pure () else getStatus view txid
  | .Enhancement txid => if isNull txid then pure () else enhance view txid
  | .TransactionsInvolvingAddress request =>
    if spendIndex then pure ()
    else do
      let _ ← attempt (serviceAddressRequest view request viewTip)
      pure ()
  | .GetSpendingTx outpoint => if spendIndex then getSpendingTx view viewTip outpoint else pure ()

/-- The loop over the requests. -/
def serviceRequests (spendIndex : Bool) (view : ChainView) (viewTip : ℕ) :
    List TransactionDataRequest → SyncM Unit
  | [] => pure ()
  | request :: rest => do
    serviceRequest spendIndex view viewTip request
    serviceRequests spendIndex view viewTip rest

/-- One turn of the loop of `data_requests`. -/
def dataRequestsTurn (spendIndex : Bool) (_ : Unit) : SyncM (ControlFlow Unit Unit) := do
  perform .notified
  let view ← chain .snapshot
  let requests ← db .transactionDataRequests
  if requests.isEmpty then pure (.Continue ())
  else do
    let tip ← chain (.tip view)
    serviceRequests spendIndex view tip.height requests
    pure (.Continue ())

/-- `data_requests` (lines 1286–1403), for `n` turns of its loop. -/
def dataRequests (spendIndex : Bool) (n : ℕ) : SyncM (ControlFlow Unit Unit) :=
  turns (dataRequestsTurn spendIndex) n ()

/-- The height reported as checked is at most the view's tip, or just below
    the requested range. -/
theorem addressRequestBounds_le (blockRangeStart : ℕ) (blockRangeEnd : Option ℕ) (viewTip : ℕ) :
    (addressRequestBounds blockRangeStart blockRangeEnd viewTip).2 ≤
      max viewTip (blockRangeStart - 1) := by
  unfold addressRequestBounds
  cases blockRangeEnd with
  | none =>
    simp only [Option.map_none, Option.getD_none]
    omega
  | some e =>
    simp only [Option.map_some, Option.getD_some]
    omega

/-- The heights queried are those up to the height reported. -/
theorem mem_addressRequestBounds {blockRangeStart viewTip h : ℕ} {blockRangeEnd : Option ℕ}
    (hs : blockRangeStart ≤ h)
    (hh : h ≤ (addressRequestBounds blockRangeStart blockRangeEnd viewTip).2) (hpos : 0 < h) :
    h < (addressRequestBounds blockRangeStart blockRangeEnd viewTip).1.stop := by
  unfold addressRequestBounds at hh ⊢
  simp only at hh ⊢
  omega

/-! ## Bounds -/

/-- The operations of `data_requests`: reads, and calls that store
    transactions and watermarks. -/
def SyncOp.Requests : SyncOp → Prop
  | chain _ => True
  | db (.getSpendableTransparentOutputs _ _) => True
  | db .transactionDataRequests => True
  | db (.decryptAndStoreTransaction _ _) => True
  | db (.setTransactionStatus _ _) => True
  | db (.notifyAddressChecked _ _) => True
  | db (.notifyOutputVerifiedUnspent _ _) => True
  | notified => True
  | _ => False

section within

variable {B : Bounds syncSig SyncError} (hops : ∀ o : SyncOp, o.Requests → B.ops o)
  (herrors : ∀ e, B.errors e)

include hops herrors

theorem within_storeTransaction (view : ChainView) (txid : TxId) :
    Within B (storeTransaction view txid) := by
  unfold storeTransaction
  refine (within_chain (hops _ (by trivial)) fun _ _ => herrors _).bind fun tx => ?_
  cases tx with
  | none => exact Within.pure ()
  | some tx => exact within_db (hops _ (by trivial)) fun _ => herrors _

theorem within_serviceAddressRequest (view : ChainView) (request : TransactionsInvolvingAddress)
    (viewTip : ℕ) : Within B (serviceAddressRequest view request viewTip) := by
  have hstore : ∀ txids, Within B (storeTransactions view txids) := by
    intro txids
    induction txids with
    | nil => exact Within.pure ()
    | cons txid rest ih =>
      exact (within_storeTransaction hops herrors view txid).bind fun _ => ih
  unfold serviceAddressRequest
  refine (within_chain (hops _ (by trivial)) fun _ _ => herrors _).bind fun chainUnspent => ?_
  refine (within_db (hops _ (by trivial)) fun _ => herrors _).bind fun ourOutputs => ?_
  refine Within.bind ?_ fun _ => within_db (hops _ (by trivial)) fun _ => herrors _
  unfold recordSpends
  split
  · refine (within_chain (hops _ (by trivial)) fun _ _ => herrors _).bind fun txids => ?_
    exact hstore txids
  · exact Within.pure ()

theorem within_serviceRequest (spendIndex : Bool) (view : ChainView) (viewTip : ℕ)
    (request : TransactionDataRequest) :
    Within B (serviceRequest spendIndex view viewTip request) := by
  have hread : ∀ o : ChainOp, Within B (chainTry o) := fun o => within_perform (hops _ (by trivial))
  have hwrite : ∀ o : DbOp, (SyncOp.db o).Requests → Within B (db o) := fun o ho =>
    within_db (hops _ ho) fun _ => herrors _
  unfold serviceRequest
  split
  · split
    · exact Within.pure ()
    · refine (hread _).bind fun r => ?_
      split
      · exact hwrite _ trivial
      · exact Within.throw (herrors _)
      · exact Within.pure ()
  · split
    · exact Within.pure ()
    · refine (hread _).bind fun r => ?_
      split
      · exact hwrite _ trivial
      · exact hwrite _ trivial
      · exact Within.throw (herrors _)
      · exact Within.pure ()
  · split
    · exact Within.pure ()
    · exact (within_serviceAddressRequest hops herrors view _ viewTip).attempt.bind
        fun _ => Within.pure ()
  · split
    · refine (hread _).bind fun r => ?_
      split
      · exact hwrite _ trivial
      · exact within_storeTransaction hops herrors view _
      · exact Within.pure ()
      · exact Within.pure ()
    · exact Within.pure ()

theorem within_dataRequests (spendIndex : Bool) (n : ℕ) : Within B (dataRequests spendIndex n) := by
  have hall : ∀ view viewTip requests,
      Within B (serviceRequests spendIndex view viewTip requests) := by
    intro view viewTip requests
    induction requests with
    | nil => exact Within.pure ()
    | cons request rest ih =>
      exact (within_serviceRequest hops herrors spendIndex view viewTip request).bind fun _ => ih
  refine Within.turns (fun _ => ?_) n ()
  unfold dataRequestsTurn
  refine (within_perform (hops _ (by trivial))).bind fun _ => ?_
  refine (within_chain (hops _ (by trivial)) fun _ _ => herrors _).bind fun view => ?_
  refine (within_db (hops _ (by trivial)) fun _ => herrors _).bind fun requests => ?_
  split
  · exact Within.pure _
  · refine (within_chain (hops _ (by trivial)) fun _ _ => herrors _).bind fun tip => ?_
    exact (hall view tip.height requests).bind fun _ => Within.pure _

end within

end Zallet.Sync
