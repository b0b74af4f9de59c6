import Zallet.Chain.Compatibility
import Zallet.Zaino.View
import Zallet.Zebra.Reads

/-!
# Transactions and their status

`get_transaction` and `get_transaction_status` classify a transaction by two
lookups of their own. For one fixed chain state the two agree in the `zebra`
backend; in the `zaino` backend they do exactly when a transaction is not placed
by an orphaned block (`transactionReads_agree_iff`).
-/

namespace Zallet.Backends

open Zallet.Effect Zallet.Common Zallet.Chain Zallet.Zebra Zallet.Zaino
open Zallet.Common.Loop (bind_eq_ok mapError_eq_ok)

/-- The two reads agree: a mined height is the status's, a transaction found only
    in side-chain blocks has none, and an unknown transaction is not
    recognized. -/
structure Agree (sideOnly : Prop) (tx : Except ChainError (Option ChainTx))
    (status : Except ChainError TransactionStatus) : Prop where
  mined : ∀ c height, tx = .ok (some c) → c.minedHeight = some height →
    status = .ok (.Mined height)
  side : sideOnly → ∀ c, tx = .ok (some c) → c.minedHeight = none
  unknown : tx = .ok none → status = .ok .TxidNotRecognized

/-! ## `zebra` -/

/-- The other clones of the view fill the cache while the chain state stays. -/
def sameState (w w' : ViewWorld) : Prop := w'.reader = w.reader

/-- What the status read answers in a chain state. -/
def zebraStatus (R : Reader) (txid : TxId) : Except ChainError TransactionStatus := do
  match ← R (.transaction txid) with
  | some mined => pure (.Mined mined.height)
  | none => do
    match ← R (.sideChainTransaction txid) with
    | some _ => pure .NotInMainChain
    | none => do
      let mempool ← R .getRawMempool
      pure (if txid ∈ mempool then .NotInMainChain else .TxidNotRecognized)

section zebra

variable {view : ZebraChainView} {params : Parameters} {codec : Zebra.TxCodec} {txid : TxId}
  {R : Reader} {w : ViewWorld}

/-- A read in a fixed chain state. -/
theorem wpE_read_same {q : Query} {Q : Except ChainError q.Out → ViewWorld → Prop}
    (hw : w.reader = R) (hQ : ∀ w', w'.reader = R → Q (R q) w') :
    wpE viewContract sameState (fun _ _ => True) Q (read q) w := by
  refine wpE_read.mpr fun w₁ hsame => ⟨trivial, ?_⟩
  rintro r w₂ ⟨rfl, rfl⟩
  have hR : w₂.reader = R := Eq.trans hsame hw
  rw [hR]
  exact hQ w₂ hR

theorem wpE_getTransactionStatus (hw : w.reader = R) :
    wpE viewContract sameState (fun _ _ => True) (fun r _ => r = zebraStatus R txid)
      (view.getTransactionStatus txid) w := by
  unfold ZebraChainView.getTransactionStatus zebraStatus
  rw [wpE_bind]
  refine wpE_read_same hw fun w₁ hw₁ => ?_
  cases R (.transaction txid) with
  | error e => rfl
  | ok mined =>
    cases mined with
    | some mined => rfl
    | none =>
      show wpE _ _ _ _ (read _ >>= _) w₁
      rw [wpE_bind]
      refine wpE_read_same hw₁ fun w₂ hw₂ => ?_
      cases R (.sideChainTransaction txid) with
      | error e => rfl
      | ok side =>
        cases side with
        | some side => rfl
        | none =>
          show wpE _ _ _ _ (read _ >>= _) w₂
          rw [wpE_bind]
          refine wpE_read_same hw₂ fun w₃ _ => ?_
          cases R .getRawMempool <;> rfl

/-- What `get_transaction` answers in a chain state, as far as the status of the
    transaction goes. -/
def Placed (R : Reader) (txid : TxId) (r : Except ChainError (Option ChainTx)) : Prop :=
  (∀ c, r = .ok (some c) →
    (∃ mined, R (.transaction txid) = .ok (some mined) ∧ c.minedHeight = some mined.height) ∨
      (R (.transaction txid) = .ok none ∧ c.minedHeight = none)) ∧
  (r = .ok none → zebraStatus R txid = .ok .TxidNotRecognized)

theorem placed_error (e : ChainError) : Placed R txid (.error e) :=
  ⟨fun c h => (by cases h), fun h => (by cases h)⟩

/-- A transaction that is not mined. -/
theorem placed_unmined {c : ChainTx} (h : R (.transaction txid) = .ok none)
    (hc : c.minedHeight = none) : Placed R txid (.ok (some c)) := by
  refine ⟨fun c' heq => ?_, fun h => by cases h⟩
  cases heq
  exact Or.inr ⟨h, hc⟩

/-- Parsing a transaction on the way to a placed result. -/
theorem wpE_parse {α : Type} {parsed : Except ChainError α} {f : α → ViewM (Option ChainTx)}
    (hf : ∀ a, wpE viewContract sameState (fun _ _ => True) (fun r _ => Placed R txid r) (f a) w) :
    wpE viewContract sameState (fun _ _ => True) (fun r _ => Placed R txid r)
      (ofOutcome parsed >>= f) w := by
  rw [wpE_bind, wpE_ofOutcome]
  cases parsed with
  | error e => exact placed_error e
  | ok a => exact hf a

theorem wpE_mempoolTransaction (hw : w.reader = R) (htx : R (.transaction txid) = .ok none)
    (hside : R (.sideChainTransaction txid) = .ok none) :
    wpE viewContract sameState (fun _ _ => True) (fun r _ => Placed R txid r)
      (view.mempoolTransaction params codec txid) w := by
  unfold ZebraChainView.mempoolTransaction
  rw [wpE_bind]
  refine wpE_read_same hw fun w₁ hw₁ => ?_
  cases hpool : R .getRawMempool with
  | error e => exact placed_error e
  | ok mempool =>
    show wpE _ _ _ _ (if txid ∈ mempool then _ else _) w₁
    by_cases hmem : txid ∈ mempool
    · rw [if_pos hmem, wpE_bind]
      refine wpE_read_same hw₁ fun w₂ _ => ?_
      cases R (.getRawTransaction txid) with
      | error e => exact placed_error e
      | ok rawHex =>
        exact wpE_parse fun raw => wpE_parse fun inner => placed_unmined htx rfl
    · rw [if_neg hmem]
      refine ⟨fun c h => (by cases h), fun _ => ?_⟩
      unfold zebraStatus
      rw [htx]
      show (R (.sideChainTransaction txid) >>= _) = _
      rw [hside]
      show (R .getRawMempool >>= _) = _
      rw [hpool]
      show Except.ok _ = _
      rw [if_neg hmem]

theorem wpE_getTransaction (hw : w.reader = R) :
    wpE viewContract sameState (fun _ _ => True) (fun r _ => Placed R txid r)
      (view.getTransaction params codec txid) w := by
  unfold ZebraChainView.getTransaction
  rw [wpE_bind]
  refine wpE_read_same hw fun w₁ hw₁ => ?_
  cases htx : R (.transaction txid) with
  | error e => exact placed_error e
  | ok mined =>
    cases mined with
    | some mined =>
      refine wpE_parse fun inner => ?_
      rw [wpE_bind]
      have hresolve : wpE viewContract sameState (fun _ _ => True) (fun r w => _ ∧ True)
          (view.resolve mined.height) w₁ :=
        wpE_of_within (within_resolve mined.height) trivial (fun _ _ _ _ => trivial)
          (fun _ _ _ _ => ⟨trivial, fun _ _ _ => ⟨trivial, trivial⟩⟩)
      refine wpE_post hresolve fun r w₂ _ => ?_
      cases r with
      | error e => exact placed_error e
      | ok blockHash =>
        refine ⟨fun c h => ?_, fun h => by cases h⟩
        cases h
        exact Or.inl ⟨mined, htx, rfl⟩
    | none =>
      show wpE _ _ _ _ (read _ >>= _) w₁
      rw [wpE_bind]
      refine wpE_read_same hw₁ fun w₂ hw₂ => ?_
      cases hside : R (.sideChainTransaction txid) with
      | error e => exact placed_error e
      | ok side =>
        cases side with
        | some side => exact wpE_parse fun inner => placed_unmined htx rfl
        | none => exact wpE_mempoolTransaction hw₂ htx hside

/-- The two reads of a `zebra` view in one chain state. -/
theorem zebra_agree {w₁ w₁' w₂ w₂' : ViewWorld} {τ₁ τ₂ : List (Event viewSig)}
    {tx : Except ChainError (Option ChainTx)} {status : Except ChainError TransactionStatus}
    (h₁ : w₁.reader = R) (h₂ : w₂.reader = R)
    (htx : Run (viewContract.under sameState) (view.getTransaction params codec txid).run w₁ τ₁ tx
      w₁')
    (hstatus : Run (viewContract.under sameState) (view.getTransactionStatus txid).run w₂ τ₂ status
      w₂') :
    Agree (R (.transaction txid) = .ok none ∧ ∃ side, R (.sideChainTransaction txid) = .ok (some side))
      tx status := by
  obtain ⟨hplaced, hunknown⟩ := wp_run_under (wpE_getTransaction h₁) htx
  have hread := wp_run_under (wpE_getTransactionStatus h₂) hstatus
  obtain rfl : status = zebraStatus R txid := hread
  refine ⟨fun c height hc hheight => ?_, fun hside c hc => ?_, hunknown⟩
  · rcases hplaced c hc with ⟨mined, hmined, hm⟩ | ⟨-, hnone⟩
    · rw [hheight] at hm
      obtain rfl : height = mined.height := Option.some.inj hm
      unfold zebraStatus
      rw [hmined]
      rfl
    · rw [hheight] at hnone
      cases hnone
  · rcases hplaced c hc with ⟨mined, hmined, -⟩ | ⟨-, hnone⟩
    · rw [hside.1] at hmined
      cases hmined
    · exact hnone

end zebra

/-! ## `zaino` -/

section zaino

variable {index : Index} {params : Parameters} {ids : BranchIds} {codec : Zaino.TxCodec}
  {txid : TxId}

/-- The transaction is only in blocks off the best chain. -/
def OrphanedOnly (index : Index) (txid : TxId) : Prop :=
  ∃ orphans, index.getTransactionStatus txid = .ok (none, orphans) ∧ orphans ≠ [] ∧
    ∀ location ∈ orphans, ∃ hash height, location = .Block hash height

/-- A transaction that can be fetched is not placed by an orphaned block, and one
    that the index does not have is nowhere. -/
def NotOrphaned (index : Index) (params : Parameters) (ids : BranchIds) (codec : Zaino.TxCodec)
    (txid : TxId) : Prop :=
  (∀ tx, index.fetchTransaction params ids codec txid = .ok (some tx) →
    ∀ hash height rest,
      index.getTransactionStatus txid ≠ .ok (none, .Block hash height :: rest)) ∧
  (index.fetchTransaction params ids codec txid = .ok none →
    index.getTransactionStatus txid = .ok (none, []))

theorem getTransaction_none :
    index.getTransaction params ids codec txid = .ok none ↔
      index.fetchTransaction params ids codec txid = .ok none := by
  unfold Index.getTransaction
  rw [bind_eq_ok]
  constructor
  · rintro ⟨fetched, hfetch, h⟩
    cases fetched with
    | none => exact hfetch
    | some tx =>
      obtain ⟨locations, -, h⟩ := bind_eq_ok.mp h
      obtain ⟨time, -, h⟩ := bind_eq_ok.mp h
      cases h
  · exact fun hfetch => ⟨none, hfetch, rfl⟩

/-- A transaction that is returned was fetched, and placed by its locations. -/
theorem getTransaction_some {c : ChainTx}
    (h : index.getTransaction params ids codec txid = .ok (some c)) :
    ∃ tx locations, index.fetchTransaction params ids codec txid = .ok (some tx) ∧
      index.getTransactionStatus txid = .ok locations ∧
      c.minedHeight = (Index.placement locations).2.1 := by
  unfold Index.getTransaction at h
  obtain ⟨fetched, hfetch, h⟩ := bind_eq_ok.mp h
  cases fetched with
  | none => cases h
  | some tx =>
    obtain ⟨locations, hlocations, h⟩ := bind_eq_ok.mp h
    obtain ⟨time, -, h⟩ := bind_eq_ok.mp h
    rw [mapError_eq_ok] at hlocations
    cases h
    exact ⟨tx, locations, hfetch, hlocations, rfl⟩

/-- A transaction placed by an orphaned block is returned with that block's
    height. -/
theorem getTransaction_orphaned {inner : Transaction} {raw : List UInt8} {hash : BlockHash}
    {height : ℕ} {rest : List NonBestChainLocation}
    (hfetch : index.fetchTransaction params ids codec txid = .ok (some (inner, raw)))
    (hlocations : index.getTransactionStatus txid = .ok (none, .Block hash height :: rest)) :
    index.getTransaction params ids codec txid =
      .ok (some ⟨inner, raw, some hash, some height, none⟩) := by
  unfold Index.getTransaction
  rw [hfetch]
  show (index.getTransactionStatus txid).mapError ChainError.Backend >>= _ = _
  rw [hlocations]
  rfl

theorem transactionStatus_notRecognized :
    index.transactionStatus txid = .ok .TxidNotRecognized ↔
      index.getTransactionStatus txid = .ok (none, []) := by
  unfold Index.transactionStatus
  cases index.getTransactionStatus txid with
  | error e => simp [Except.mapError, Except.map]
  | ok locations =>
    obtain ⟨best, orphans⟩ := locations
    match best, orphans with
    | some (.Block _ _), _ => simp [Except.mapError, Except.map, Index.statusOf]
    | some .Mempool, _ => simp [Except.mapError, Except.map, Index.statusOf]
    | none, [] => simp [Except.mapError, Except.map, Index.statusOf]
    | none, _ :: _ => simp [Except.mapError, Except.map, Index.statusOf]

/-- The two reads of a `zaino` view. -/
theorem zaino_agree_iff :
    Agree (OrphanedOnly index txid) (index.getTransaction params ids codec txid)
        (index.transactionStatus txid) ↔
      NotOrphaned index params ids codec txid := by
  constructor
  · intro h
    refine ⟨fun tx hfetch hash height rest hlocations => ?_, fun hfetch => ?_⟩
    · have hmined := h.mined _ height (getTransaction_orphaned hfetch hlocations) rfl
      unfold Index.transactionStatus at hmined
      rw [hlocations] at hmined
      cases hmined
    · exact transactionStatus_notRecognized.mp (h.unknown (getTransaction_none.mpr hfetch))
  · rintro ⟨horphaned, habsent⟩
    refine ⟨fun c height hc hheight => ?_, fun hside c hc => ?_, fun hnone => ?_⟩
    · obtain ⟨tx, ⟨best, orphans⟩, hfetch, hlocations, hplaced⟩ := getTransaction_some hc
      rw [hheight] at hplaced
      unfold Index.transactionStatus
      rw [hlocations]
      match best, orphans, hlocations, hplaced with
      | some (.Block _ _), _, _, hplaced =>
        cases hplaced
        rfl
      | none, .Block _ _ :: _, hlocations, _ => exact absurd hlocations (horphaned tx hfetch _ _ _)
    · obtain ⟨tx, locations, hfetch, hlocations, -⟩ := getTransaction_some hc
      obtain ⟨orphans, hstatus, hne, hblocks⟩ := hside
      cases orphans with
      | nil => exact absurd rfl hne
      | cons location rest =>
        obtain ⟨hash, height, rfl⟩ := hblocks location List.mem_cons_self
        exact absurd hstatus (horphaned tx hfetch hash height rest)
    · exact transactionStatus_notRecognized.mpr (habsent (getTransaction_none.mp hnone))

end zaino

/-- For every transaction and every fixed chain state, the two reads agree in the
    `zebra` backend, and in the `zaino` backend exactly when the transaction is
    not placed by an orphaned block. -/
theorem transactionReads_agree_iff (params : Parameters) (txid : TxId) :
    (∀ (codec : Zebra.TxCodec) (view : ZebraChainView) (R : Reader) (w₁ w₁' w₂ w₂' : ViewWorld)
        (τ₁ τ₂ : List (Event viewSig)) (tx : Except ChainError (Option ChainTx))
        (status : Except ChainError TransactionStatus),
      w₁.reader = R → w₂.reader = R →
      Run (viewContract.under sameState) (view.getTransaction params codec txid).run w₁ τ₁ tx w₁' →
      Run (viewContract.under sameState) (view.getTransactionStatus txid).run w₂ τ₂ status w₂' →
      Agree
        (R (.transaction txid) = .ok none ∧ ∃ side, R (.sideChainTransaction txid) = .ok (some side))
        tx status) ∧
    ∀ (ids : BranchIds) (codec : Zaino.TxCodec) (index : Index),
      Agree (OrphanedOnly index txid) (index.getTransaction params ids codec txid)
          (index.transactionStatus txid) ↔
        NotOrphaned index params ids codec txid :=
  ⟨fun _ _ _ _ _ _ _ _ _ _ _ h₁ h₂ => zebra_agree h₁ h₂, fun _ _ _ => zaino_agree_iff⟩

/-! ## Runs -/

/-- A backend with one transaction, mined at height 4 of fork 1. -/
def minedAtFour : Reader
  | .transaction txid => .ok (if txid = 7 then some ⟨[1], 4, 0⟩ else none)
  | q => headersOf (forkTree 2) tipFive q

/-- The transaction is read with its height, and its status is that height. -/
theorem transactionReads_agree_mined :
    ∃ τ₁ tx w₁ τ₂ status w₂,
      Run (viewContract.under sameState)
        ((ZebraChainView.ofTip tipFive).1.getTransaction upToCanopy anyBytes 7).run
        ⟨minedAtFour, (ZebraChainView.ofTip tipFive).2⟩ τ₁ (.ok (some tx)) w₁ ∧
      Run (viewContract.under sameState)
        ((ZebraChainView.ofTip tipFive).1.getTransactionStatus 7).run
        ⟨minedAtFour, (ZebraChainView.ofTip tipFive).2⟩ τ₂ status w₂ ∧
      tx.minedHeight = some 4 ∧ status = .ok (.Mined 4) := by
  have hkeeps : (answer minedAtFour).Keeps (viewContract.under sameState)
      (ViewWorld.mk minedAtFour) := answer_keeps_under fun _ => rfl
  have htx : (exec (answer minedAtFour) 9
      ((ZebraChainView.ofTip tipFive).1.getTransaction upToCanopy anyBytes 7).run
      (ZebraChainView.ofTip tipFive).2).2.1.result =
        some (.ok (some ⟨⟨[1]⟩, [1], some (forkBlock 1 4), some 4, some 0⟩)) := by
    decide +kernel
  have hstatus : (exec (answer minedAtFour) 9
      ((ZebraChainView.ofTip tipFive).1.getTransactionStatus 7).run
      (ZebraChainView.ofTip tipFive).2).2.1.result = some (.ok (.Mined 4)) := by
    decide +kernel
  have hrun₁ := exec_run hkeeps htx
  have hrun₂ := exec_run hkeeps hstatus
  have hagree := (transactionReads_agree_iff upToCanopy 7).1 anyBytes _ minedAtFour _ _ _ _ _ _ _ _
    rfl rfl hrun₁ hrun₂
  exact ⟨_, _, _, _, _, _, hrun₁, hrun₂, rfl, hagree.mined _ 4 rfl rfl⟩

/-- An index with one transaction, in a block of height 5 that was reorged
    away. -/
def orphanedAtFive : Index where
  bestChaintip := .ok tipFive
  getBlockHash _ := .ok none
  getTreestate _ := .ok fun _ => none
  getRawTransaction txid := .ok (if txid = 7 then some ([1], none) else none)
  getTransactionStatus txid :=
    .ok (none, if txid = 7 then [.Block (forkBlock 0 5) 5] else [])
  getBlock _ := none

/-- The orphaned transaction is returned as mined at height 5, while its status
    is that it is not in the main chain. -/
theorem zaino_mines_orphan :
    ¬ Agree (OrphanedOnly orphanedAtFive 7)
      (orphanedAtFive.getTransaction upToCanopy branchNumbers
        ⟨fun bytes _ => .ok ⟨bytes⟩, fun _ => .ok 0⟩ 7)
      (orphanedAtFive.transactionStatus 7) := by
  intro h
  have hstatus := h.mined ⟨⟨[1]⟩, [1], some (forkBlock 0 5), some 5, none⟩ 5 (by decide +kernel) rfl
  revert hstatus
  decide +kernel

end Zallet.Backends
