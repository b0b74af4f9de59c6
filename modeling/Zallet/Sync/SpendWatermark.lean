import Zallet.Sync.DataRequests
import Zallet.Zebra.Transactions

/-!
# What the spend watermarks promise

`data_requests` tells the wallet up to which height the spends of an address
(`notify_address_checked`) or of an output (`notify_output_verified_unspent`) are
known; the range below is not queried again. `SpendWorld` is what such a
watermark is about: the transactions the wallet has stored and the outputs it
tracks. Other tasks store transactions and track outputs at any time
(`spendRely`).

A watermark can hide a spend in two ways (`watermark_hides_spend`), and
`spendWatermark_sound` is the guarantee for the runs in which neither happens:

* `service_address_request` skips a listed transaction that the backend does not
  have at the moment, and reports the address as checked all the same.
* Where an output or an address is looked up, the answer speaks for the best
  chain of that moment (`zebra/src/chain.rs`, lines 589–604; the address queries
  of `zaino/src/chain.rs`, lines 725–768), while the height reported is that of
  the captured view. After a reorg the best chain may not spend what the view's
  chain spends.

`Spends` is what the blocks hold, and `spendContract` what the reads promise of
it; `not_spent_of_unspent` says that the code of the Zebra backend keeps the
promise. `seen`, `listed`, `asked` and `view` are history that no program reads.
-/

namespace Zallet.Sync

open Zallet.Effect Zallet.Common Zallet.Chain Zallet.Wallet

/-- The transactions of each block, the outputs each of them spends and the address
    of each output. -/
structure Spends where
  txids : BlockHash → List TxId
  inputs : TxId → List OutPoint
  address : OutPoint → TransparentAddress

/-- What the watermarks are about. -/
structure SpendWorld where
  /-- The transactions the wallet has stored. -/
  stored : TxId → Prop
  /-- The outputs the wallet tracks. -/
  tracked : OutPoint → Prop
  /-- The outputs it tracked at an address when they were last read. -/
  seen : TransparentAddress → OutPoint → Prop
  /-- The transactions last listed for an address. -/
  listed : List TxId
  /-- The best chain. -/
  best : ChainView
  /-- What it was when the unspent outputs of an address were last read. -/
  asked : ChainView
  /-- The view of the current turn. -/
  view : Option ChainView

variable (T : BlockTree BlockHash) (L : Spends) (txidOf : Transaction → TxId)

/-- The view's chain spends the output in its block at `height`, with the
    transaction `txid`. -/
def SpentIn (view : ChainView) (outpoint : OutPoint) (height : ℕ) (txid : TxId) : Prop :=
  height ≤ view.tip.height ∧ txid ∈ L.txids (view.hashAt T height) ∧ outpoint ∈ L.inputs txid

/-- The view's chain spends the output. -/
def Spent (view : ChainView) (outpoint : OutPoint) : Prop :=
  ∃ height txid, SpentIn T L view outpoint height txid

/-- What the operations of `data_requests` answer and do. The lookups of an output
    and of an address are answered from the best chain; a backend that answers
    from its snapshot does so where the best chain is that of the view. An output
    that is left out of the spendable ones is one the wallet has stored a spend
    of. -/
def spendContract : Contract syncSig SpendWorld
  | .chain .snapshot, w, r, w' =>
    (∀ view, r = .ok view → view.WF T) ∧ w' = { w with view := r.toOption }
  | .chain (.tip view), w, r, w' => (∀ block, r = .ok block → block = view.tip) ∧ w' = w
  | .chain (.getTransaction _ txid), w, r, w' =>
    (∀ tx, r = .ok (some tx) → txidOf tx.inner = txid) ∧ w' = w
  | .chain (.outpointSpendStatus _ outpoint), w, r, w' =>
    (r = .ok .Unspent → ¬ Spent T L w.best outpoint) ∧ w' = w
  | .chain (.getAddressUnspentOutpoints _ _), w, r, w' =>
    (∀ unspent, r = .ok unspent → ∀ outpoint ∈ unspent, ¬ Spent T L w.best outpoint) ∧
      w' = { w with listed := [], asked := w.best }
  | .chain (.getAddressTxIds _ address range), w, r, w' =>
    (∀ txids, r = .ok txids → ∀ outpoint height txid, L.address outpoint = address →
      range.start ≤ height → height < range.stop → SpentIn T L w.best outpoint height txid →
      txid ∈ txids) ∧ w' = { w with listed := r.toOption.getD [] }
  | .db (.getSpendableTransparentOutputs address _), w, r, w' =>
    (∀ outputs, r = .ok outputs → ∀ outpoint, w.tracked outpoint → L.address outpoint = address →
      outpoint ∉ outputs → ∃ txid, w.stored txid ∧ outpoint ∈ L.inputs txid) ∧
      w' = { w with seen := Function.update w.seen address w.tracked }
  | .db (.decryptAndStoreTransaction tx _), w, r, w' =>
    w' = { w with stored := fun txid => w.stored txid ∨ (r = .ok () ∧ txid = txidOf tx) }
  | .panic _, _, _, _ => False
  | _, w, _, w' => w' = w

/-- What each block holds, for the state service of the Zebra backend. -/
def Spends.ledger (creates : BlockHash → List OutPoint) : Zebra.Ledger where
  txids := L.txids
  creates := creates
  spends hash := (L.txids hash).flatMap L.inputs

theorem spentOn_ledger_iff {T : BlockTree BlockHash} {L : Spends}
    (creates : BlockHash → List OutPoint) {best : ChainView} {outpoint : OutPoint} :
    Zebra.SpentOn T (L.ledger creates) best.tip outpoint ↔ Spent T L best outpoint := by
  constructor
  · rintro ⟨height, hle, hmem⟩
    obtain ⟨txid, htxid, hin⟩ := List.mem_flatMap.mp hmem
    exact ⟨height, txid, hle, htxid, hin⟩
  · rintro ⟨height, txid, hle, htxid, hin⟩
    exact ⟨height, hle, List.mem_flatMap.mpr ⟨txid, htxid, hin⟩⟩

/-- The `outpoint_spend_status` of the Zebra backend answers for the best chain of
    its lookup, whatever view it is called on. -/
theorem not_spent_of_unspent {T : BlockTree BlockHash} {L : Spends}
    {creates : BlockHash → List OutPoint} {view : Zebra.ZebraChainView} {best : ChainView}
    {outpoint : OutPoint} {rely : Zebra.ViewWorld → Zebra.ViewWorld → Prop}
    {w w' : Zebra.ViewWorld} {τ : List (Event Zebra.viewSig)}
    (h : Run (Zebra.viewContract.under rely) (view.outpointSpendStatus outpoint).run w τ
      (.ok .Unspent) w')
    (hbest : ∀ ev ∈ τ, Zebra.Answered T (L.ledger creates) best.tip ev.op ev.ret) :
    ¬ Spent T L best outpoint := by
  have hstatus := wp_run_under Zebra.wpE_outpointSpendStatus_pinned
    (Zebra.run_answered h hbest) .Unspent rfl
  rw [← spentOn_ledger_iff creates]
  exact (hstatus.mp rfl).2

/-- What the other tasks and the network do: they store transactions, track
    outputs and move the best chain. -/
structure spendRely (w w' : SpendWorld) : Prop where
  stored : ∀ txid, w.stored txid → w'.stored txid
  seen : w'.seen = w.seen
  listed : w'.listed = w.listed
  asked : w'.asked = w.asked
  view : w'.view = w.view

/-- The condition on a step. A listed transaction is there when it is fetched. What
    the view's chain spends, of the outputs looked up, the best chain spent too
    when it was asked: of an output by itself, of the outputs the wallet can spend,
    and, where the history of the address is listed, in the heights asked for. An
    output that is left out as spent was spent by no mined transaction that the
    wallet has not stored. -/
def Complete : (o : SyncOp) → SpendWorld → o.Ret → Prop
  | .chain (.getTransaction _ txid), w, r => txid ∈ w.listed → r ≠ .ok none
  | .chain (.outpointSpendStatus view outpoint), w, _ =>
    Spent T L view outpoint → Spent T L w.best outpoint
  | .db (.getSpendableTransparentOutputs address _), w, r =>
    ∀ outputs view, r = .ok outputs → w.view = some view → ∀ outpoint, w.tracked outpoint →
      L.address outpoint = address →
        (outpoint ∈ outputs → Spent T L view outpoint → Spent T L w.asked outpoint) ∧
        (outpoint ∉ outputs →
          ∀ height txid, SpentIn T L view outpoint height txid → w.stored txid)
  | .chain (.getAddressTxIds view address range), w, _ =>
    ∀ outpoint height txid, w.seen address outpoint → L.address outpoint = address →
      range.start ≤ height → height < range.stop → SpentIn T L view outpoint height txid →
      ¬ w.stored txid → ∃ height', range.start ≤ height' ∧ height' < range.stop ∧
        SpentIn T L w.best outpoint height' txid
  | _, _, _ => True

/-- What a watermark promises. The one of an address is about the outputs that were
    tracked when they were read. -/
def WatermarkOk : SyncOp → SpendWorld → Prop
  | .db (.notifyAddressChecked request asOfHeight), w => ∃ view, w.view = some view ∧
    asOfHeight ≤ max view.tip.height (request.blockRangeStart - 1) ∧
    ∀ outpoint, w.seen request.address outpoint → L.address outpoint = request.address →
      ∀ height txid, request.blockRangeStart ≤ height → height ≤ asOfHeight →
        SpentIn T L view outpoint height txid → w.stored txid
  | .db (.notifyOutputVerifiedUnspent outpoint asOfHeight), w => ∃ view, w.view = some view ∧
    asOfHeight ≤ view.tip.height ∧
    ∀ height ≤ asOfHeight, ∀ txid, ¬ SpentIn T L view outpoint height txid
  | _, _ => True

/-! ## One request -/

theorem spendRely.refl (w : SpendWorld) : spendRely w w := ⟨fun _ h => h, rfl, rfl, rfl, rfl⟩

theorem spendRely.trans {w₁ w₂ w₃ : SpendWorld} (h₁ : spendRely w₁ w₂) (h₂ : spendRely w₂ w₃) :
    spendRely w₁ w₃ :=
  ⟨fun txid h => h₂.stored txid (h₁.stored txid h), h₂.seen.trans h₁.seen,
    h₂.listed.trans h₁.listed, h₂.asked.trans h₁.asked, h₂.view.trans h₁.view⟩

/-- The contract of a run whose steps are all complete. -/
def completeContract : Contract syncSig SpendWorld :=
  (spendContract T L txidOf).restrict (Complete T L)

section requests

variable {T : BlockTree BlockHash} {L : Spends} {txidOf : Transaction → TxId} {w : SpendWorld}
  {view : ChainView}

/-- A transaction that is fetched is stored. -/
theorem wpE_storeTransaction (txid : TxId) :
    wpE (completeContract T L txidOf) spendRely (WatermarkOk T L)
      (fun r w' => spendRely w w' ∧ (txid ∈ w.listed → r = .ok () → w'.stored txid))
      (storeTransaction view txid) w := by
  unfold storeTransaction
  rw [wpE_bind, wpE_chain]
  intro w₁ hw₁
  refine ⟨trivial, ?_⟩
  rintro (e | tx) w₂ ⟨⟨htx, rfl⟩, hcomplete⟩
  · exact ⟨hw₁, fun _ h => by cases h⟩
  cases tx with
  | none =>
    refine ⟨hw₁, fun hlisted _ => ?_⟩
    exact absurd rfl (hcomplete (hw₁.listed ▸ hlisted))
  | some tx =>
    refine (wpE_db (o := .decryptAndStoreTransaction tx.inner tx.minedHeight)).mpr fun w₃ hw₃ =>
      ⟨trivial, ?_⟩
    rintro r w₄ ⟨rfl, -⟩
    refine ⟨(hw₁.trans hw₃).trans ⟨fun _ h => Or.inl h, rfl, rfl, rfl, rfl⟩,
      fun _ hr => Or.inr ?_⟩
    cases r with
    | error e => cases hr
    | ok u => exact ⟨rfl, (htx tx rfl).symm⟩

/-- Every listed transaction is stored. -/
theorem wpE_storeTransactions (txids : List TxId) (hlisted : ∀ txid ∈ txids, txid ∈ w.listed) :
    wpE (completeContract T L txidOf) spendRely (WatermarkOk T L)
      (fun r w' => spendRely w w' ∧ (r = .ok () → ∀ txid ∈ txids, w'.stored txid))
      (storeTransactions view txids) w := by
  induction txids generalizing w with
  | nil => exact ⟨spendRely.refl w, fun _ txid h => absurd h List.not_mem_nil⟩
  | cons txid rest ih =>
    rw [List.forall_mem_cons] at hlisted
    rw [storeTransactions, wpE_bind]
    refine wpE_post (wpE_storeTransaction txid) ?_
    rintro (e | u) w₁ ⟨hw₁, hstored⟩
    · exact ⟨hw₁, fun h => by cases h⟩
    have hrest : ∀ x ∈ rest, x ∈ w₁.listed := by
      rw [hw₁.listed]
      exact hlisted.2
    refine wpE_post (ih hrest) ?_
    rintro r w₂ ⟨hw₂, hall⟩
    refine ⟨hw₁.trans hw₂, fun hr => ?_⟩
    rw [List.forall_mem_cons]
    exact ⟨hw₂.stored _ (hstored hlisted.1 rfl), hall hr⟩

/-- If an output has been spent, the transactions of the range that spend outputs
    tracked at the address are stored. -/
theorem wpE_recordSpends (address : TransparentAddress) (range : HeightRange) (anySpent : Bool) :
    wpE (completeContract T L txidOf) spendRely (WatermarkOk T L)
      (fun r w' => (∀ txid, w.stored txid → w'.stored txid) ∧ w'.seen = w.seen ∧
        w'.view = w.view ∧ (r = .ok () → anySpent = true → ∀ outpoint height txid,
          w.seen address outpoint → L.address outpoint = address → range.start ≤ height →
          height < range.stop → SpentIn T L view outpoint height txid → w'.stored txid))
      (recordSpends view address range anySpent) w := by
  unfold recordSpends
  cases anySpent with
  | false => exact ⟨fun _ h => h, rfl, rfl, fun _ h => by cases h⟩
  | true =>
    rw [if_pos rfl, wpE_bind, wpE_chain]
    intro w₁ hw₁
    refine ⟨trivial, ?_⟩
    rintro (e | txids) w₂ ⟨⟨htxids, rfl⟩, hagree⟩
    · exact ⟨hw₁.stored, hw₁.seen, hw₁.view, fun h => by cases h⟩
    refine wpE_post (wpE_storeTransactions txids fun _ h => h) ?_
    rintro r w₃ ⟨hw₃, hall⟩
    refine ⟨fun txid h => hw₃.stored _ (hw₁.stored _ h), hw₃.seen.trans hw₁.seen,
      hw₃.view.trans hw₁.view, fun hr _ outpoint height txid hseen haddr hstart hstop hspent => ?_⟩
    by_cases hbefore : w₁.stored txid
    · exact hw₃.stored txid hbefore
    · -- the best chain that was asked has the transaction in the range too
      rw [← hw₁.seen] at hseen
      obtain ⟨height', hstart', hstop', hbest⟩ :=
        hagree outpoint height txid hseen haddr hstart hstop hspent hbefore
      exact hall hr txid (htxids txids rfl outpoint height' txid haddr hstart' hstop' hbest)

/-- The genesis block spends nothing. -/
def NoGenesisSpend (T : BlockTree BlockHash) (L : Spends) : Prop :=
  ∀ hash, T.height hash = 0 → ∀ txid ∈ L.txids hash, L.inputs txid = []

theorem SpentIn.pos {outpoint : OutPoint} {height : ℕ} {txid : TxId} (hview : view.WF T)
    (hgenesis : NoGenesisSpend T L) (h : SpentIn T L view outpoint height txid) : 0 < height := by
  obtain ⟨hle, hmem, hin⟩ := h
  by_contra hzero
  have hheight : T.height (view.hashAt T height) = 0 := by
    rw [ChainView.WF.height_hashAt hview hle]
    omega
  rw [hgenesis _ hheight txid hmem] at hin
  exact absurd hin List.not_mem_nil

theorem wpE_serviceAddressRequest (hview : view.WF T) (hgenesis : NoGenesisSpend T L)
    (request : TransactionsInvolvingAddress) (hw : w.view = some view) :
    wpE (completeContract T L txidOf) spendRely (WatermarkOk T L)
      (fun _ w' => w'.view = some view)
      (serviceAddressRequest view request view.tip.height) w := by
  unfold serviceAddressRequest
  rw [wpE_bind, wpE_chain]
  intro w₁ hw₁
  refine ⟨trivial, ?_⟩
  rintro (e | unspent) w₂ ⟨⟨hunspent, rfl⟩, -⟩
  · exact hw₁.view.trans hw
  show wpE _ _ _ _ (db _ >>= _) _
  rw [wpE_bind, wpE_db]
  intro w₃ hw₃
  have hview₃ : w₃.view = some view := hw₃.view.trans (hw₁.view.trans hw)
  have hasked₃ : w₃.asked = w₁.best := hw₃.asked
  refine ⟨trivial, ?_⟩
  rintro (e | outputs) w₄ ⟨⟨-, rfl⟩, hcomplete⟩
  · exact hview₃
  show wpE _ _ _ _ (recordSpends _ _ _ _ >>= _) _
  rw [wpE_bind]
  refine wpE_post (wpE_recordSpends request.address _ _) ?_
  rintro (e | u) w₅ ⟨hstored, hseen, hview₅, hrecorded⟩
  · exact hview₅.trans hview₃
  refine (wpE_db (o := .notifyAddressChecked _ _)).mpr fun w₆ hw₆ => ?_
  have hview₆ : w₆.view = some view := hw₆.view.trans (hview₅.trans hview₃)
  refine ⟨⟨view, hview₆, addressRequestBounds_le _ _ _, ?_⟩, ?_⟩
  · intro outpoint htracked haddr height txid hstart hle hspent
    have hnow : Function.update w₃.seen request.address w₃.tracked request.address =
        w₃.tracked := Function.update_self ..
    have hseen₆ : w₆.seen request.address = w₃.tracked := by
      rw [hw₆.seen, hseen]
      exact hnow
    rw [hseen₆] at htracked
    obtain ⟨hagree, hleft⟩ := hcomplete outputs view rfl hview₃ outpoint htracked haddr
    -- either the output is spendable for the wallet, or its spend was stored before
    by_cases hmem : outpoint ∈ outputs
    · have hnot : outpoint ∉ unspent := by
        intro h
        apply hunspent unspent rfl outpoint h
        rw [← hasked₃]
        exact hagree hmem ⟨height, txid, hspent⟩
      have hany : (outputs.any fun outpoint => !unspent.contains outpoint) = true := by
        rw [List.any_eq_true]
        exact ⟨outpoint, hmem, by simpa using hnot⟩
      have hseen₄ : Function.update w₃.seen request.address w₃.tracked request.address outpoint := by
        rw [hnow]
        exact htracked
      refine hw₆.stored txid (hrecorded rfl hany outpoint height txid hseen₄ haddr hstart ?_ hspent)
      exact mem_addressRequestBounds hstart hle (hspent.pos hview hgenesis)
    · exact hw₆.stored txid (hstored txid (hleft hmem height txid hspent))
  · rintro r w₇ ⟨rfl, -⟩
    exact hview₆

theorem wpE_getSpendingTx (outpoint : OutPoint) (hw : w.view = some view) :
    wpE (completeContract T L txidOf) spendRely (WatermarkOk T L)
      (fun _ w' => w'.view = some view)
      (getSpendingTx view view.tip.height outpoint) w := by
  unfold getSpendingTx
  rw [wpE_bind, wpE_chainTry]
  intro w₁ hw₁
  have hview₁ : w₁.view = some view := hw₁.view.trans hw
  refine ⟨trivial, ?_⟩
  rintro r w₂ ⟨⟨hunspent, rfl⟩, hagree⟩
  match r, hunspent with
  | .error e, _ => exact hview₁
  | .ok .SpentSpenderUnknown, _ => exact hview₁
  | .ok (.SpentBy txid), _ =>
    refine wpE_post (wpE_storeTransaction txid) ?_
    rintro r w₃ ⟨hw₃, -⟩
    exact hw₃.view.trans hview₁
  | .ok .Unspent, hunspent =>
    refine (wpE_db (o := .notifyOutputVerifiedUnspent _ _)).mpr fun w₃ hw₃ => ?_
    have hview₃ : w₃.view = some view := hw₃.view.trans hview₁
    refine ⟨⟨view, hview₃, le_rfl, fun height _ txid hspent => ?_⟩, ?_⟩
    · exact hunspent rfl (hagree ⟨height, txid, hspent⟩)
    rintro r w₄ ⟨rfl, -⟩
    exact hview₃

/-- The other arms write no watermark. -/
theorem wpE_serviceRequest (hview : view.WF T) (hgenesis : NoGenesisSpend T L) (spendIndex : Bool)
    (request : TransactionDataRequest) (hw : w.view = some view) :
    wpE (completeContract T L txidOf) spendRely (WatermarkOk T L)
      (fun _ w' => w'.view = some view)
      (serviceRequest spendIndex view view.tip.height request) w := by
  cases request with
  | GetStatus txid =>
    show wpE _ _ _ _ (if isNull txid then _ else _) w
    split
    · exact hw
    unfold getStatus
    rw [wpE_bind, wpE_chainTry]
    intro w₁ hw₁
    have hview₁ : w₁.view = some view := hw₁.view.trans hw
    refine ⟨trivial, ?_⟩
    rintro r w₂ ⟨rfl, -⟩
    match r with
    | .ok status =>
      refine (wpE_db (o := .setTransactionStatus _ _)).mpr fun w₃ hw₃ => ⟨trivial, ?_⟩
      rintro r w₄ ⟨rfl, -⟩
      exact hw₃.view.trans hview₁
    | .error (.InvalidData source) => exact hview₁
    | .error (.Unavailable _) => exact hview₁
    | .error (.Backend _) => exact hview₁
  | Enhancement txid =>
    show wpE _ _ _ _ (if isNull txid then _ else _) w
    split
    · exact hw
    unfold enhance
    rw [wpE_bind, wpE_chainTry]
    intro w₁ hw₁
    have hview₁ : w₁.view = some view := hw₁.view.trans hw
    refine ⟨trivial, ?_⟩
    rintro r w₂ ⟨⟨-, rfl⟩, -⟩
    match r with
    | .ok (some tx) =>
      refine (wpE_db (o := .decryptAndStoreTransaction _ _)).mpr fun w₃ hw₃ => ⟨trivial, ?_⟩
      rintro r w₄ ⟨rfl, -⟩
      exact hw₃.view.trans hview₁
    | .ok none =>
      refine (wpE_db (o := .setTransactionStatus _ _)).mpr fun w₃ hw₃ => ⟨trivial, ?_⟩
      rintro r w₄ ⟨rfl, -⟩
      exact hw₃.view.trans hview₁
    | .error (.InvalidData source) => exact hview₁
    | .error (.Unavailable _) => exact hview₁
    | .error (.Backend _) => exact hview₁
  | TransactionsInvolvingAddress request =>
    cases spendIndex with
    | true => exact hw
    | false =>
      show wpE _ _ _ _ (attempt _ >>= _) w
      rw [wpE_bind, wpE_attempt]
      exact wpE_serviceAddressRequest hview hgenesis request hw
  | GetSpendingTx outpoint =>
    cases spendIndex with
    | true => exact wpE_getSpendingTx outpoint hw
    | false => exact hw

theorem wpE_serviceRequests (hview : view.WF T) (hgenesis : NoGenesisSpend T L) (spendIndex : Bool)
    (requests : List TransactionDataRequest) (hw : w.view = some view) :
    wpE (completeContract T L txidOf) spendRely (WatermarkOk T L) (fun _ _ => True)
      (serviceRequests spendIndex view view.tip.height requests) w := by
  induction requests generalizing w with
  | nil => trivial
  | cons request rest ih =>
    rw [serviceRequests, wpE_bind]
    refine wpE_post (wpE_serviceRequest hview hgenesis spendIndex request hw) ?_
    rintro (e | u) w₁ hw₁
    · trivial
    · exact ih hw₁

theorem wpE_dataRequestsTurn (hgenesis : NoGenesisSpend T L) (spendIndex : Bool) :
    wpE (completeContract T L txidOf) spendRely (WatermarkOk T L) (fun _ _ => True)
      (dataRequestsTurn spendIndex ()) w := by
  unfold dataRequestsTurn
  rw [wpE_bind]
  refine (wpE_perform (o := .notified)).mpr fun w₁ _ => ⟨trivial, ?_⟩
  rintro r w₂ -
  show wpE _ _ _ _ (chain _ >>= _) w₂
  rw [wpE_bind, wpE_chain]
  refine fun w₃ _ => ⟨trivial, ?_⟩
  rintro (e | view) w₄ ⟨⟨hview, rfl⟩, -⟩
  · trivial
  show wpE _ _ _ _ (db _ >>= _) _
  rw [wpE_bind, wpE_db]
  intro w₅ hw₅
  have hview₅ : w₅.view = some view := hw₅.view
  refine ⟨trivial, ?_⟩
  rintro (e | requests) w₆ ⟨rfl, -⟩
  · trivial
  show wpE _ _ _ _ (if List.isEmpty requests then _ else _) _
  split
  · trivial
  rw [wpE_bind, wpE_chain]
  intro w₇ hw₇
  have hview₇ : w₇.view = some view := hw₇.view.trans hview₅
  refine ⟨trivial, ?_⟩
  rintro (e | tip) w₈ ⟨⟨htip, rfl⟩, -⟩
  · trivial
  obtain rfl : tip = view.tip := htip tip rfl
  show wpE _ _ _ _ (serviceRequests _ _ _ _ >>= _) _
  rw [wpE_bind]
  refine wpE_post (wpE_serviceRequests (hview view rfl) hgenesis spendIndex requests hview₇) ?_
  rintro (e | u) w₉ -
  · trivial
  · trivial

/-- Every watermark of a run of `data_requests` keeps its promise. -/
theorem wpE_dataRequests (hgenesis : NoGenesisSpend T L) (spendIndex : Bool) (n : ℕ) :
    wpE (completeContract T L txidOf) spendRely (WatermarkOk T L) (fun _ _ => True)
      (dataRequests spendIndex n) w := by
  have hbody : ∀ (u : Unit) (w : SpendWorld), True →
      wpE (completeContract T L txidOf) spendRely (WatermarkOk T L)
        (turnPost (fun _ _ => True) fun _ _ => True) (dataRequestsTurn spendIndex u) w := by
    intro u w _
    refine wpE_post (wpE_dataRequestsTurn hgenesis spendIndex) ?_
    rintro (e | flow) w' -
    · trivial
    · cases flow <;> trivial
  exact wpE_post (wpE_turns hbody n () w trivial) fun _ _ _ => trivial

end requests

section runs

/-- A view of fork 1 at height 5. -/
def viewFive : ChainView := ⟨⟨5, forkBlock 1 5⟩⟩

/-- The output of the example, and its address. -/
def outputThree : OutPoint := ⟨3, 0⟩

def addressZero : TransparentAddress := .PublicKeyHash 0

/-- Transaction 7 spends the output in block 4 of fork 1. -/
def spendsAtFour : Spends where
  txids hash := if hash = forkBlock 1 4 then [7] else []
  inputs txid := if txid = 7 then [outputThree] else []
  address _ := addressZero

def requestFromOne : TransactionsInvolvingAddress := ⟨addressZero, 1, none⟩

/-- The first byte of a transaction numbers it. -/
def firstByte (tx : Transaction) : TxId := BitVec.ofNat 256 (tx.raw.headD 0).toNat

/-- The wallet tracks the output and has stored nothing. -/
def unspentWorld (seen : Bool) (listed : List TxId) (view : Option ChainView) : SpendWorld where
  stored _ := False
  tracked outpoint := outpoint = outputThree
  seen address outpoint := seen = true ∧ address = addressZero ∧ outpoint = outputThree
  listed := listed
  best := viewFive
  asked := viewFive
  view := view

theorem spent_at_four : SpentIn (forkTree 2) spendsAtFour viewFive outputThree 4 7 := by
  have hhash : viewFive.hashAt (forkTree 2) 4 = forkBlock 1 4 := by decide +kernel
  refine ⟨by decide, ?_, by simp [spendsAtFour]⟩
  rw [hhash]
  simp [spendsAtFour]

/-- Block 4 is the only one with a spend. -/
theorem spent_only_by_seven {view : ChainView} {outpoint : OutPoint} {height : ℕ} {txid : TxId}
    (h : SpentIn (forkTree 2) spendsAtFour view outpoint height txid) : txid = 7 := by
  obtain ⟨-, hmem, -⟩ := h
  simp only [spendsAtFour] at hmem
  split at hmem
  · exact List.mem_singleton.mp hmem
  · exact absurd hmem List.not_mem_nil

theorem seen_unspentWorld (listed : List TxId) (view : Option ChainView) :
    (unspentWorld true listed view).seen =
      Function.update (unspentWorld false listed view).seen addressZero
        (unspentWorld false listed view).tracked := by
  funext address outpoint
  by_cases h : address = addressZero
  · subst h
    simp [unspentWorld]
  · simp [unspentWorld, h]

/-- A step in which the other tasks do nothing. -/
theorem under_refl {C : Contract syncSig SpendWorld} {o : SyncOp} {w w' : SpendWorld} {r : o.Ret}
    (h : C o w r w') : C.under spendRely o w r w' := ⟨w, spendRely.refl w, h⟩

/-- The first steps of a turn: the address has a request, the output there has been
    spent, and the history of the address lists the spender. -/
structure ListingSteps (C : Contract syncSig SpendWorld) : Prop where
  notified : C .notified (unspentWorld false [] none) () (unspentWorld false [] none)
  snapshot : C (.chain .snapshot) (unspentWorld false [] none) (.ok viewFive)
    (unspentWorld false [] (some viewFive))
  requests : C (.db .transactionDataRequests) (unspentWorld false [] (some viewFive))
    (.ok [.TransactionsInvolvingAddress requestFromOne]) (unspentWorld false [] (some viewFive))
  tip : C (.chain (.tip viewFive)) (unspentWorld false [] (some viewFive)) (.ok viewFive.tip)
    (unspentWorld false [] (some viewFive))
  unspent : C (.chain (.getAddressUnspentOutpoints viewFive addressZero))
    (unspentWorld false [] (some viewFive)) (.ok []) (unspentWorld false [] (some viewFive))
  outputs : C (.db (.getSpendableTransparentOutputs addressZero 6))
    (unspentWorld false [] (some viewFive)) (.ok [outputThree])
    (unspentWorld true [] (some viewFive))
  txids : C (.chain (.getAddressTxIds viewFive addressZero ⟨1, 6⟩))
    (unspentWorld true [] (some viewFive)) (.ok [7]) (unspentWorld true [7] (some viewFive))

theorem listingSteps_complete :
    ListingSteps (completeContract (forkTree 2) spendsAtFour firstByte) where
  notified := ⟨rfl, trivial⟩
  snapshot := by
    refine ⟨⟨fun view h => ?_, rfl⟩, trivial⟩
    cases h
    show (forkTree 2).height (forkBlock 1 5) = 5
    decide +kernel
  requests := ⟨rfl, trivial⟩
  tip := by
    refine ⟨⟨fun block h => ?_, rfl⟩, trivial⟩
    cases h
    rfl
  unspent := by
    refine ⟨⟨fun unspent h outpoint hmem => ?_, rfl⟩, trivial⟩
    cases h
    exact absurd hmem List.not_mem_nil
  outputs := by
    refine ⟨⟨?_, ?_⟩, ?_⟩
    · intro outputs h outpoint htracked _ hnot
      cases h
      exact absurd (List.mem_singleton.mpr htracked) hnot
    · rw [← seen_unspentWorld]
      rfl
    · intro outputs view h hview outpoint htracked _
      cases h
      cases hview
      exact ⟨fun _ hspent => hspent, fun hnot => absurd (List.mem_singleton.mpr htracked) hnot⟩
  txids := by
    refine ⟨⟨?_, rfl⟩, ?_⟩
    · intro txids h outpoint height txid _ _ _ hspent
      cases h
      exact List.mem_singleton.mpr (spent_only_by_seven hspent)
    · intro outpoint height txid _ _ hstart hstop hspent _
      exact ⟨height, hstart, hstop, hspent⟩

/-- The best chain has moved to fork 0 after the view was captured. -/
def reorgedWorld : SpendWorld :=
  { unspentWorld false [] (some viewFive) with best := ⟨⟨5, forkBlock 0 5⟩⟩ }

theorem not_spent_on_fork : ¬ Spent (forkTree 2) spendsAtFour reorgedWorld.best outputThree := by
  rintro ⟨height, txid, hle, hmem, -⟩
  have hother : ∀ h ≤ 5, reorgedWorld.best.hashAt (forkTree 2) h ≠ forkBlock 1 4 := by
    decide +kernel
  simp only [spendsAtFour] at hmem
  rw [if_neg (hother height hle)] at hmem
  exact List.not_mem_nil hmem

/-- The output is looked up after the reorg: it is reported as unspent up to
    height 5, although block 4 of the view's chain spends it. -/
theorem performs_verifiedUnspent :
    Performs ((spendContract (forkTree 2) spendsAtFour firstByte).under spendRely)
      (dataRequests true 1).run (unspentWorld false [] none)
      (.db (.notifyOutputVerifiedUnspent outputThree 5)) reorgedWorld := by
  have hsteps := listingSteps_complete
  have h₁ : spendContract (forkTree 2) spendsAtFour firstByte (.db .transactionDataRequests)
      (unspentWorld false [] (some viewFive)) (.ok [.GetSpendingTx outputThree])
      (unspentWorld false [] (some viewFive)) := rfl
  have h₂ : (spendContract (forkTree 2) spendsAtFour firstByte).under spendRely
      (.chain (.outpointSpendStatus viewFive outputThree))
      (unspentWorld false [] (some viewFive)) (.ok .Unspent) reorgedWorld :=
    ⟨reorgedWorld, ⟨fun _ h => h, rfl, rfl, rfl, rfl⟩, fun _ => not_spent_on_fork, rfl⟩
  exact ⟨_, _, .step (under_refl hsteps.notified.1) (.step (under_refl hsteps.snapshot.1)
    (.step (under_refl h₁) (.step (under_refl hsteps.tip.1) (.step h₂ (.refl _ _)))))⟩

end runs

end Zallet.Sync
