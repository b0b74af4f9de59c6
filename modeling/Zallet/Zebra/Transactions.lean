import Zallet.Chain.Compatibility
import Zallet.Zebra.Reads

/-!
# Transaction reads and the captured history

`get_transaction`, `get_transaction_status` and `outpoint_spend_status` look a
transaction or an output up in the best chain of the moment, while `resolve`
answers with the captured tip's chain. `transactionReads_pinned_iff` says for
every run when the two are one history; `transaction_above_tip` is a run in which
they are not.

`Ledger` is what the blocks hold, and `Answered` what the state service promises
of a lookup in the best chain that ends in `best`.
-/

namespace Zallet.Zebra

open Zallet.Effect Zallet.Common Zallet.Chain

/-- What each block holds: its transactions, and the outputs it creates and
    spends. -/
structure Ledger where
  txids : BlockHash → List TxId
  creates : BlockHash → List OutPoint
  spends : BlockHash → List OutPoint

section

variable (T : BlockTree BlockHash) (L : Ledger)

/-- The chain that ends in `tip` has the transaction in its block at `height`. -/
def MinedAt (tip : ChainBlock) (txid : TxId) (height : ℕ) : Prop :=
  height ≤ tip.height ∧ txid ∈ L.txids (T.ancestor tip.hash height)

/-- A block of the chain that ends in `tip` creates the output. -/
def CreatedOn (tip : ChainBlock) (outpoint : OutPoint) : Prop :=
  ∃ height ≤ tip.height, outpoint ∈ L.creates (T.ancestor tip.hash height)

/-- A block of the chain that ends in `tip` spends the output. -/
def SpentOn (tip : ChainBlock) (outpoint : OutPoint) : Prop :=
  ∃ height ≤ tip.height, outpoint ∈ L.spends (T.ancestor tip.hash height)

/-- The lookups in the best chain that ends in `best`: `Transaction` and
    `UnspentBestChainUtxo` of the state service. -/
def Answered (best : ChainBlock) : (o : ViewOp) → o.Ret → Prop
  | .read (.transaction txid), .ok (some mined) => MinedAt T L best txid mined.height
  | .read (.transaction txid), .ok none => ∀ height, ¬ MinedAt T L best txid height
  | .read (.isUnspent outpoint), .ok unspent =>
    unspent = true ↔ CreatedOn T L best outpoint ∧ ¬ SpentOn T L best outpoint
  | _, _ => True

end

section pinned

variable {T : BlockTree BlockHash} {L : Ledger} {view : ZebraChainView} {best : ChainBlock}
  {params : Parameters} {codec : TxCodec} {txid : TxId} {outpoint : OutPoint} {w : ViewWorld}

/-- The contract of a view whose lookups are answered from the chain of `best`. -/
def answeredContract (T : BlockTree BlockHash) (L : Ledger) (best : ChainBlock) :
    Contract viewSig ViewWorld :=
  viewContract.restrict fun o _ r => Answered T L best o r

/-- A run whose lookups are all answered from the chain of `best`. -/
theorem run_answered {α : Type} {rely : ViewWorld → ViewWorld → Prop} {p : Prog viewSig α}
    {w w' : ViewWorld} {τ : List (Event viewSig)} {a : α}
    (h : Run (viewContract.under rely) p w τ a w')
    (hans : ∀ ev ∈ τ, Answered T L best ev.op ev.ret) :
    Run ((answeredContract T L best).under rely) p w τ a w' := by
  have hrestrict := Reaches.restrict (K := fun o _ r => Answered T L best o r) h
    fun ev hev _ => hans ev hev
  refine hrestrict.mono ?_
  rintro o w r w' ⟨⟨w₁, hw₁, hC⟩, hK⟩
  exact ⟨w₁, hw₁, hC, hK⟩

/-- A transaction that is reported as mined is in the best chain at that height, and
    comes with the hash of the captured chain. -/
def MinedFrom (T : BlockTree BlockHash) (L : Ledger) (best : ChainBlock) (view : ZebraChainView)
    (txid : TxId) (r : Except ChainError (Option ChainTx)) : Prop :=
  ∀ c height, r = .ok (some c) → c.minedHeight = some height →
    MinedAt T L best txid height ∧ c.blockHash =
      if height ≤ view.tip.height then some (T.ancestor view.tip.hash height) else none

theorem minedFrom_error (e : ChainError) : MinedFrom T L best view txid (.error e) :=
  fun c height h => by cases h

theorem minedFrom_unmined {c : ChainTx} (hc : c.minedHeight = none) :
    MinedFrom T L best view txid (.ok (some c)) := by
  intro c' height h hheight
  cases h
  rw [hc] at hheight
  cases hheight

/-- Parsing a transaction on the way to a result. -/
theorem wpE_parse_minedFrom {α : Type} {rely : ViewWorld → ViewWorld → Prop}
    {ok : ViewOp → ViewWorld → Prop} {parsed : Except ChainError α}
    {f : α → ViewM (Option ChainTx)}
    (hf : ∀ a, wpE (answeredContract T L best) rely ok
      (fun r _ => MinedFrom T L best view txid r) (f a) w) :
    wpE (answeredContract T L best) rely ok (fun r _ => MinedFrom T L best view txid r)
      (ofOutcome parsed >>= f) w := by
  rw [wpE_bind, wpE_ofOutcome]
  cases parsed with
  | error e => exact minedFrom_error e
  | ok a => exact hf a

theorem wpE_mempoolTransaction_unmined :
    wpE (answeredContract T L best) (PinnedRely T view) (PinnedOk T view)
      (fun r _ => MinedFrom T L best view txid r) (view.mempoolTransaction params codec txid) w := by
  unfold ZebraChainView.mempoolTransaction
  rw [wpE_bind]
  refine wpE_read.mpr fun w₁ _ => ⟨trivial, ?_⟩
  rintro (e | mempool) w₂ -
  · exact minedFrom_error e
  show wpE _ _ _ _ (if txid ∈ mempool then _ else _) w₂
  by_cases hmem : txid ∈ mempool
  · rw [if_pos hmem, wpE_bind]
    refine wpE_read.mpr fun w₃ _ => ⟨trivial, ?_⟩
    rintro (e | rawHex) w₄ -
    · exact minedFrom_error e
    · exact wpE_parse_minedFrom fun raw => wpE_parse_minedFrom fun inner => minedFrom_unmined rfl
  · rw [if_neg hmem]
    exact fun c height h => by cases h

theorem wpE_getTransaction_pinned (hview : Captured T view) (hw : PinnedWorld T view w) :
    wpE (answeredContract T L best) (PinnedRely T view) (PinnedOk T view)
      (fun r _ => MinedFrom T L best view txid r) (view.getTransaction params codec txid) w := by
  unfold ZebraChainView.getTransaction
  rw [wpE_bind]
  refine wpE_read.mpr fun w₁ hrely => ⟨trivial, ?_⟩
  have hw₁ := hrely hw
  rintro (e | mined) w₂ ⟨⟨-, rfl⟩, hans⟩
  · exact minedFrom_error e
  cases mined with
  | some mined =>
    have hmined : MinedAt T L best txid mined.height := hans
    refine wpE_parse_minedFrom fun inner => ?_
    rw [wpE_bind]
    have hresolve := wp_anti (wpE_resolve hview mined.height hw₁)
      (D := answeredContract T L best) (fun _ _ _ _ h => h.1) (fun _ _ h => h)
    refine wpE_post hresolve ?_
    rintro (e | hash) w₃ ⟨-, hres⟩
    · exact minedFrom_error e
    · intro c height hc hheight
      cases hc
      obtain rfl : mined.height = height := Option.some.inj hheight
      exact ⟨hmined, hres hash rfl⟩
  | none =>
    show wpE _ _ _ _ (read _ >>= _) w₂
    rw [wpE_bind]
    refine wpE_read.mpr fun w₃ _ => ⟨trivial, ?_⟩
    rintro (e | side) w₄ -
    · exact minedFrom_error e
    cases side with
    | some side => exact wpE_parse_minedFrom fun inner => minedFrom_unmined rfl
    | none => exact wpE_mempoolTransaction_unmined

theorem wpE_getTransactionStatus_pinned {rely : ViewWorld → ViewWorld → Prop} :
    wpE (answeredContract T L best) rely (fun _ _ => True)
      (fun r _ => ∀ height, r = .ok (.Mined height) → MinedAt T L best txid height)
      (view.getTransactionStatus txid) w := by
  unfold ZebraChainView.getTransactionStatus
  rw [wpE_bind]
  refine wpE_read.mpr fun w₁ _ => ⟨trivial, ?_⟩
  rintro (e | mined) w₂ ⟨-, hans⟩
  · exact fun height h => by cases h
  cases mined with
  | some mined =>
    intro height h
    cases h
    exact hans
  | none =>
    show wpE _ _ _ _ (read _ >>= _) w₂
    rw [wpE_bind]
    refine wpE_read.mpr fun w₃ _ => ⟨trivial, ?_⟩
    rintro (e | side) w₄ -
    · exact fun height h => by cases h
    cases side with
    | some side => exact fun height h => by cases h
    | none =>
      show wpE _ _ _ _ (read _ >>= _) w₄
      rw [wpE_bind]
      refine wpE_read.mpr fun w₅ _ => ⟨trivial, ?_⟩
      rintro (e | mempool) w₆ -
      · exact fun height h => by cases h
      · intro height h
        have hstatus : (if txid ∈ mempool then TransactionStatus.NotInMainChain
            else .TxidNotRecognized) = .Mined height := Except.ok.inj h
        split at hstatus <;> cases hstatus

theorem wpE_outpointSpendStatus_pinned {rely : ViewWorld → ViewWorld → Prop} :
    wpE (answeredContract T L best) rely (fun _ _ => True)
      (fun r _ => ∀ status, r = .ok status →
        (status = .Unspent ↔ CreatedOn T L best outpoint ∧ ¬ SpentOn T L best outpoint))
      (view.outpointSpendStatus outpoint) w := by
  unfold ZebraChainView.outpointSpendStatus
  rw [wpE_bind]
  refine wpE_read.mpr fun w₁ _ => ⟨trivial, ?_⟩
  rintro (e | unspent) w₂ ⟨-, hans⟩
  · exact fun status h => by cases h
  have hunspent : unspent = true ↔ CreatedOn T L best outpoint ∧ ¬ SpentOn T L best outpoint := hans
  cases unspent with
  | true =>
    intro status h
    cases h
    exact ⟨fun _ => hunspent.mp rfl, fun _ => rfl⟩
  | false =>
    have hnot : ¬ (CreatedOn T L best outpoint ∧ ¬ SpentOn T L best outpoint) :=
      fun h => by cases hunspent.mpr h
    show wpE _ _ _ _ (read _ >>= _) w₂
    rw [wpE_bind]
    refine wpE_read.mpr fun w₃ _ => ⟨trivial, ?_⟩
    rintro (e | spender) w₄ -
    · exact fun status h => by cases h
    cases spender with
    | some txid =>
      intro status h
      cases h
      exact ⟨(by cases ·), fun h => absurd h hnot⟩
    | none =>
      intro status h
      cases h
      exact ⟨(by cases ·), fun h => absurd h hnot⟩

end pinned

/-- For every run of the three reads, whatever the backend and the other clones of
    the view do between its steps, `best` being the tip of the best chain when the
    lookup was answered: what is reported as mined is in the captured history
    exactly if the best chain has the transaction nowhere the captured chain does
    not; and an output is reported unspent exactly if the captured chain does not
    spend it if and only if the best chain has it as an unspent output exactly
    then. -/
theorem transactionReads_pinned_iff {T : BlockTree BlockHash} {L : Ledger}
    {tip best : ChainBlock} {params : Parameters} {codec : TxCodec} {txid : TxId}
    (outpoint : OutPoint) {w : ViewWorld} (htip : T.height tip.hash = tip.height)
    (hw : PinnedWorld T (ZebraChainView.ofTip tip).1 w)
    (honce : ∀ h h', MinedAt T L best txid h → MinedAt T L best txid h' → h = h') :
    (∀ τ c w' height,
      Run (viewContract.under (PinnedRely T (ZebraChainView.ofTip tip).1))
        ((ZebraChainView.ofTip tip).1.getTransaction params codec txid).run w τ (.ok (some c)) w' →
      (∀ ev ∈ τ, Answered T L best ev.op ev.ret) → c.minedHeight = some height →
      ((height ≤ tip.height ∧ c.blockHash = some (T.ancestor tip.hash height) ∧
          txid ∈ L.txids (T.ancestor tip.hash height)) ↔
        ∀ h, MinedAt T L best txid h → MinedAt T L tip txid h)) ∧
    (∀ τ w' height,
      Run (viewContract.under (PinnedRely T (ZebraChainView.ofTip tip).1))
        ((ZebraChainView.ofTip tip).1.getTransactionStatus txid).run w τ (.ok (.Mined height)) w' →
      (∀ ev ∈ τ, Answered T L best ev.op ev.ret) →
      ((height ≤ tip.height ∧ txid ∈ L.txids (T.ancestor tip.hash height)) ↔
        ∀ h, MinedAt T L best txid h → MinedAt T L tip txid h)) ∧
    ∀ τ w' status,
      Run (viewContract.under (PinnedRely T (ZebraChainView.ofTip tip).1))
        ((ZebraChainView.ofTip tip).1.outpointSpendStatus outpoint).run w τ (.ok status) w' →
      (∀ ev ∈ τ, Answered T L best ev.op ev.ret) →
      ((status = .Unspent ↔ ¬ SpentOn T L tip outpoint) ↔
        (CreatedOn T L best outpoint ∧ ¬ SpentOn T L best outpoint ↔ ¬ SpentOn T L tip outpoint)) := by
  have hview := captured_ofTip htip
  -- the best chain has the transaction at one height at most
  have hsame : ∀ height, MinedAt T L best txid height →
      (MinedAt T L tip txid height ↔ ∀ h, MinedAt T L best txid h → MinedAt T L tip txid h) := by
    intro height hbest
    refine ⟨fun htip h hh => ?_, fun h => h height hbest⟩
    rw [honce h height hh hbest]
    exact htip
  refine ⟨?_, ?_, ?_⟩
  · intro τ c w' height hrun hans hheight
    obtain ⟨hbest, hhash⟩ := wp_run_under (wpE_getTransaction_pinned hview hw)
      (run_answered hrun hans) c height rfl hheight
    rw [← hsame height hbest]
    refine ⟨fun h => ⟨h.1, h.2.2⟩, fun h => ⟨h.1, ?_, h.2⟩⟩
    rw [hhash]
    exact if_pos h.1
  · intro τ w' height hrun hans
    have hbest := wp_run_under wpE_getTransactionStatus_pinned (run_answered hrun hans) height rfl
    exact hsame height hbest
  · intro τ w' status hrun hans
    have hstatus := wp_run_under wpE_outpointSpendStatus_pinned (run_answered hrun hans) status rfl
    rw [hstatus]

/-! ## Runs -/

/-- The best chain that ends in `best` has one transaction, in its block at
    `height`, and no outputs. -/
def oneTransaction (best : ChainBlock) (height : ℕ) : Reader
  | .transaction txid => .ok (if txid = 7 then some ⟨[1], height, 0⟩ else none)
  | .isUnspent _ => .ok false
  | q => headersOf (forkTree 2) best q

/-- The ledger of the transaction's block. -/
def oneTransactionLedger (hash : BlockHash) : Ledger where
  txids h := if h = hash then [7] else []
  creates _ := []
  spends _ := []

theorem oneTransaction_answered {best : ChainBlock} {height : ℕ} (hle : height ≤ best.height)
    (q : Query) :
    Answered (forkTree 2) (oneTransactionLedger ((forkTree 2).ancestor best.hash height)) best
      (.read q) (oneTransaction best height q) := by
  cases q with
  | transaction txid =>
    by_cases htx : txid = 7
    · subst htx
      exact ⟨hle, by simp [oneTransactionLedger]⟩
    · have hnone : oneTransaction best height (.transaction txid) = .ok none :=
        congrArg Except.ok (if_neg htx)
      rw [hnone]
      rintro h ⟨-, hmem⟩
      simp only [oneTransactionLedger] at hmem
      split at hmem
      · exact htx (List.mem_singleton.mp hmem)
      · exact absurd hmem List.not_mem_nil
  | isUnspent outpoint =>
    constructor
    · intro h
      cases h
    · rintro ⟨⟨h, -, hmem⟩, -⟩
      exact absurd hmem List.not_mem_nil
  | _ => trivial

/-- The transaction is in one block only. -/
theorem oneTransaction_once {best : ChainBlock} {height h : ℕ}
    (hbest : (forkTree 2).height best.hash = best.height) (hle : height ≤ best.height)
    (hmined : MinedAt (forkTree 2)
      (oneTransactionLedger ((forkTree 2).ancestor best.hash height)) best 7 h) :
    h = height := by
  obtain ⟨hh, hmem⟩ := hmined
  simp only [oneTransactionLedger] at hmem
  split at hmem
  · rename_i heq
    have hheights := congrArg (forkTree 2).height heq
    rwa [BlockTree.height_ancestor (by omega), BlockTree.height_ancestor (by omega)] at hheights
  · exact absurd hmem List.not_mem_nil

/-- The answers of a backend whose lookups are those of the chain of `best`. -/
theorem answer_answered {T : BlockTree BlockHash} {L : Ledger} {best : ChainBlock} {R : Reader}
    {rely : ViewWorld → ViewWorld → Prop} (hrely : ∀ w, rely w w)
    (hR : ∀ q, Answered T L best (.read q) (R q)) :
    (answer R).Keeps ((answeredContract T L best).under rely) (ViewWorld.mk R) := by
  intro o cache r cache' h
  refine ⟨_, hrely _, answer_keeps R o cache r cache' h, ?_⟩
  cases o with
  | read q =>
    obtain rfl : r = R q := (answer_keeps R _ cache r cache' h).1
    exact hR q
  | _ => trivial

/-- A run of the answers is a run of the view, with all its lookups answered. -/
theorem exec_answered {α : Type} {T : BlockTree BlockHash} {L : Ledger} {best : ChainBlock}
    {view : ZebraChainView} {R : Reader} (hR : ∀ q, Answered T L best (.read q) (R q)) {n : ℕ}
    {p : Prog viewSig α} {cache : SortedMap ℕ BlockHash} {a : α}
    (ha : (exec (answer R) n p cache).2.1.result = some a) :
    ∃ τ w', Run (viewContract.under (PinnedRely T view)) p ⟨R, cache⟩ τ a w' ∧
      ∀ ev ∈ τ, Answered T L best ev.op ev.ret := by
  have hkeeps : (answer R).Keeps ((answeredContract T L best).under (PinnedRely T view))
      (ViewWorld.mk R) := answer_answered (fun _ h => h) hR
  have hrun := exec_run hkeeps ha
  refine ⟨_, _, hrun.mono ?_, fun ev hev => ?_⟩
  · rintro o w r w' ⟨w₁, hw₁, hC, -⟩
    exact ⟨w₁, hw₁, hC⟩
  · obtain ⟨w₁, w₂, w₃, -, -, hans⟩ := hrun.allowed ev hev
    exact hans

/-- A block with the transaction is mined on top of the captured tip: the
    transaction is reported as mined above the tip, without a block hash. -/
theorem transaction_above_tip :
    ∃ τ c w', Run (viewContract.under (PinnedRely (forkTree 2) (ZebraChainView.ofTip tipFive).1))
        ((ZebraChainView.ofTip tipFive).1.getTransaction upToCanopy anyBytes 7).run
        ⟨oneTransaction ⟨6, forkBlock 1 6⟩ 6, (ZebraChainView.ofTip tipFive).2⟩ τ (.ok (some c)) w' ∧
      (∀ ev ∈ τ, Answered (forkTree 2) (oneTransactionLedger (forkBlock 1 6)) ⟨6, forkBlock 1 6⟩
        ev.op ev.ret) ∧
      c.minedHeight = some 6 ∧ c.blockHash = none ∧ ¬ 6 ≤ tipFive.height := by
  have hexec : (exec (answer (oneTransaction ⟨6, forkBlock 1 6⟩ 6)) 9
      ((ZebraChainView.ofTip tipFive).1.getTransaction upToCanopy anyBytes 7).run
      (ZebraChainView.ofTip tipFive).2).2.1.result =
        some (.ok (some ⟨⟨[1]⟩, [1], none, some 6, some 0⟩)) := by
    decide +kernel
  have hself : (forkTree 2).ancestor (forkBlock 1 6) 6 = forkBlock 1 6 := by decide +kernel
  have hR := fun q => oneTransaction_answered (show 6 ≤ (ChainBlock.mk 6 (forkBlock 1 6)).height
    from le_rfl) q
  rw [hself] at hR
  obtain ⟨τ, w', hrun, hans⟩ := exec_answered hR hexec
  exact ⟨τ, _, w', hrun, hans, rfl, rfl, by decide⟩

/-- The best chain has not moved: the transaction of block 4 is reported with the
    hash of the captured chain. -/
theorem transactionReads_pinned_four :
    ∃ τ c w', Run (viewContract.under (PinnedRely (forkTree 2) (ZebraChainView.ofTip tipFive).1))
        ((ZebraChainView.ofTip tipFive).1.getTransaction upToCanopy anyBytes 7).run
        ⟨oneTransaction tipFive 4, (ZebraChainView.ofTip tipFive).2⟩ τ (.ok (some c)) w' ∧
      c.minedHeight = some 4 ∧ 4 ≤ tipFive.height ∧
      c.blockHash = some ((forkTree 2).ancestor tipFive.hash 4) := by
  have hexec : (exec (answer (oneTransaction tipFive 4)) 9
      ((ZebraChainView.ofTip tipFive).1.getTransaction upToCanopy anyBytes 7).run
      (ZebraChainView.ofTip tipFive).2).2.1.result =
        some (.ok (some ⟨⟨[1]⟩, [1], some (forkBlock 1 4), some 4, some 0⟩)) := by
    decide +kernel
  have hR := fun q => oneTransaction_answered (show 4 ≤ tipFive.height by decide) q
  obtain ⟨τ, w', hrun, hans⟩ := exec_answered hR hexec
  have htip : (forkTree 2).height tipFive.hash = tipFive.height := by decide +kernel
  have hpin : Pinned (forkTree 2) (ZebraChainView.ofTip tipFive).1 (oneTransaction tipFive 4) := by
    have hheaders : Pinned (forkTree 2) (ZebraChainView.ofTip tipFive).1
        (headersOf (forkTree 2) tipFive) :=
      headersOf_pinned fun height hle => ⟨hle.trans (Nat.sub_le _ _), rfl⟩
    exact ⟨hheaders.headers, hheaders.final⟩
  have hiff := (transactionReads_pinned_iff ⟨7, 0⟩ htip (pinnedWorld_ofTip htip hpin)
    fun h h' hh hh' => (oneTransaction_once htip (by decide) hh).trans
      (oneTransaction_once htip (by decide) hh').symm).1 τ _ w' 4 hrun hans rfl
  obtain ⟨hle, hhash, -⟩ := hiff.mpr fun h hh => hh
  exact ⟨τ, _, w', hrun, rfl, hle, hhash⟩

end Zallet.Zebra
