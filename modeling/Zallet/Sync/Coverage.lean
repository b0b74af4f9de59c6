import Zallet.Effect.History
import Zallet.Sync.Batches
import Zallet.Sync.CatchUp
import Zallet.Sync.Gate

/-!
# Which task scans which height

`steady_state` scans the blocks above its `prev_tip`, `recover_history` the
suggested ranges below the boundary. `z_importaddress` with a rescan
(`z_import_address.rs`, lines 72–101) discards the blocks of the wallet from an
account's birthday on, through a connection of its own, and tells neither of
them. A discarded block at or above the boundary is scanned again by nobody:
`Recoverable` excludes exactly that.

* `Covered`: the invariant. Every height from the boundary up to `prev_tip`, and
  up to each checkpoint of the wallet, has been scanned.
* `wpE_steadyState_cover`, `wpE_recoverHistory_cover`: the two tasks.
* `no_gap`: every interleaving.

The scan queue's part of the database is `QueueState`: `update_chain_tip` and
`put_blocks` raise the recorded chain tip, and `truncate_to_height` sets it back
to the height it lands on. `Checkpointed` says where `put_blocks` leaves
checkpoints.
-/

namespace Zallet.Sync

open Zallet.Effect Zallet.Common Zallet.Chain Zallet.Wallet

/-- `put_blocks` adds checkpoints only at the blocks it stores, and at the block
    before them. -/
def Checkpointed : SyncOp → WalletDb → WalletDb → Prop
  | .db (.putBlocks _ blocks), d, d' =>
    ∀ c ∈ d'.checkpoints, c ∈ d.checkpoints ∨ ∃ b ∈ blocks, c = b.height ∨ c + 1 = b.height
  | _, _, _ => True

/-- The chain tip that the database has recorded, and whether `steady_state` has
    truncated the wallet and not yet set `prev_tip`. -/
structure QueueState where
  chainTip : ℕ
  rewinding : Prop

/-- The effect of each operation on the queue. -/
def QueueState.step : (o : SyncOp) → SyncWorld → o.Ret → SyncWorld → QueueState → QueueState
  | .db (.updateChainTip height), _, .ok _, _, q => { q with chainTip := max q.chainTip height }
  | .db (.putBlocks _ blocks), _, .ok _, _, q =>
    { q with chainTip := (blocks.map (·.height)).foldr max q.chainTip }
  | .db (.truncateToHeight _), _, .ok landed, _, q => ⟨min q.chainTip landed, True⟩
  | .setPrevTip _, _, _, _, q => { q with rewinding := False }
  | _, _, _, _, q => q

/-- The operations of the two tasks, with the scan queue. -/
def coverContract (T : BlockTree BlockHash) : Contract syncSig (SyncWorld × QueueState) :=
  Contract.observed (fun o w r w' => contract T o w r w' ∧ Checkpointed o w.db w'.db)
    QueueState.step

/-- `z_importaddress` rewinds the wallet to the block before an account's
    birthday, in the worlds and to the heights that `allowed` admits. -/
def rescans (allowed : SyncWorld → ℕ → Prop) (w w' : SyncWorld × QueueState) : Prop :=
  ∃ height, allowed w.1 height ∧ w' = ({ w.1 with db := w.1.db.truncate height }, w.2)

/-- All that the rewind discards is below the boundary, where `recover_history`
    scans it again. -/
def Recoverable (w : SyncWorld) (height : ℕ) : Prop :=
  ∀ h, height < h → w.boundary ≤ h → w.db.blocks h = none

/-! ## The invariant -/

/-- A height that `recover_history` does not scan. -/
def Owned (w : SyncWorld) (h : ℕ) : Prop :=
  (∃ birthday, w.db.birthday = some birthday ∧ birthday ≤ h) ∧ w.boundary ≤ h

/-- Those heights have been scanned, up to `n`. -/
def Filled (w : SyncWorld) (n : ℕ) : Prop := ∀ h, Owned w h → h ≤ n → (w.db.blocks h).isSome

/-- They have been scanned up to `n`, and the queue knows `n`. -/
def ScannedTo (n : ℕ) (w : SyncWorld × QueueState) : Prop := Filled w.1 n ∧ n ≤ w.2.chainTip

/-- Nothing is missing up to a checkpoint nor, unless the wallet is being
    rewound, up to `prev_tip`. -/
structure Covered (w : SyncWorld × QueueState) : Prop where
  checkpoints : ∀ c ∈ w.1.db.checkpoints, ScannedTo c w
  prevTip : ¬ w.2.rewinding → ScannedTo w.1.prevTip.height w

/-- Before a block is stored, the heights below it have been scanned. -/
def FilledBelow (w : SyncWorld) (blocks : List ScannedBlock) : Prop :=
  ∀ b ∈ blocks, ∀ h, Owned w h → h < b.height → (w.db.blocks h).isSome

/-- What an operation leaves alone that neither moves `prev_tip` nor changes the
    blocks of the wallet. -/
structure Unmoved (o : SyncOp) (w w' : SyncWorld × QueueState) : Prop where
  db : w'.1.db = w.1.db
  prevTip : w'.1.prevTip = w.1.prevTip
  boundary : w.1.boundary ≤ w'.1.boundary
  sameBoundary : (∀ height, o ≠ .updateBoundary height) → w'.1.boundary = w.1.boundary
  chainTip : w.2.chainTip ≤ w'.2.chainTip
  rewinding : w'.2.rewinding = w.2.rewinding

theorem le_foldr_max {heights : List ℕ} {tip n : ℕ} (h : n ∈ tip :: heights) :
    n ≤ heights.foldr max tip := by
  induction heights with
  | nil => exact (List.mem_singleton.mp h).le
  | cons height rest ih =>
    rw [List.foldr_cons]
    rcases List.mem_cons.mp h with rfl | h
    · exact (ih List.mem_cons_self).trans (le_max_right _ _)
    · rcases List.mem_cons.mp h with rfl | h
      · exact le_max_left _ _
      · exact (ih (List.mem_cons_of_mem _ h)).trans (le_max_right _ _)

section steps

variable {T : BlockTree BlockHash} {o : SyncOp} {w w' : SyncWorld × QueueState} {r : o.Ret}

/-- All that an operation of a task can do. -/
theorem coverContract_cases (h : coverContract T o w r w') :
    Unmoved o w w' ∨
      (∃ block, o = .setPrevTip block ∧
        w' = ({ w.1 with prevTip := block }, { w.2 with rewinding := False })) ∨
      (∃ height landed, o = .db (.truncateToHeight height) ∧ landed ∈ w.1.db.checkpoints ∧
        w' = ({ w.1 with db := w.1.db.truncate landed }, ⟨min w.2.chainTip landed, True⟩)) ∨
      ∃ fromState blocks checkpoints, o = .db (.putBlocks fromState blocks) ∧
        (∀ c ∈ checkpoints,
          c ∈ w.1.db.checkpoints ∨ ∃ b ∈ blocks, c = b.height ∨ c + 1 = b.height) ∧
        w' = ({ w.1 with db := { w.1.db.put blocks with checkpoints := checkpoints } },
          { w.2 with chainTip := (blocks.map (·.height)).foldr max w.2.chainTip }) := by
  obtain ⟨w, q⟩ := w
  obtain ⟨w', q'⟩ := w'
  obtain ⟨⟨hC, hmarks⟩, hq⟩ := h
  simp only at hC hmarks hq ⊢
  subst hq
  cases o with
  | db o =>
    obtain ⟨d, ha, rfl⟩ := hC
    cases o with
    | truncateToHeight height =>
      cases r with
      | ok landed =>
        obtain ⟨hrewind, rfl⟩ := ha
        exact Or.inr (Or.inr (Or.inl ⟨height, landed, rfl, hrewind.1, rfl⟩))
      | error e =>
        obtain ⟨-, rfl⟩ := ha
        exact Or.inl ⟨rfl, rfl, le_rfl, fun _ => rfl, le_rfl, rfl⟩
    | putBlocks fromState blocks =>
      cases r with
      | ok u =>
        obtain ⟨-, checkpoints, rfl⟩ := ha
        exact Or.inr (Or.inr (Or.inr ⟨fromState, blocks, checkpoints, rfl, hmarks, rfl⟩))
      | error e =>
        obtain ⟨-, rfl⟩ := ha
        exact Or.inl ⟨rfl, rfl, le_rfl, fun _ => rfl, le_rfl, rfl⟩
    | updateChainTip height =>
      cases r with
      | ok u =>
        obtain rfl : d = w.db := ha
        exact Or.inl ⟨rfl, rfl, le_rfl, fun _ => rfl, le_max_left _ _, rfl⟩
      | error e =>
        obtain ⟨-, rfl⟩ := ha
        exact Or.inl ⟨rfl, rfl, le_rfl, fun _ => rfl, le_rfl, rfl⟩
    | _ =>
      rcases WalletDb.acts_cases ha with rfl | ⟨height, landed, ho, -⟩ | ⟨fromState, blocks, _, ho, -⟩
      · exact Or.inl ⟨rfl, rfl, le_rfl, fun _ => rfl, le_rfl, rfl⟩
      · cases ho
      · cases ho
  | setPrevTip block =>
    obtain rfl : w' = { w with prevTip := block } := hC
    exact Or.inr (Or.inl ⟨block, rfl, rfl⟩)
  | updateBoundary tipHeight =>
    obtain rfl : w' = { w with boundary := updateBoundary w.boundary tipHeight } := hC
    exact Or.inl ⟨rfl, rfl, le_max_left _ _, fun h => absurd rfl (h tipHeight), le_rfl, rfl⟩
  | _ =>
    rcases contract_cases hC with rfl | ⟨s, -, rfl⟩ | ⟨block, ho, -⟩ | ⟨tipHeight, ho, -⟩ |
      ⟨height, landed, ho, -⟩ | ⟨fromState, blocks, checkpoints, ho, -⟩
    · exact Or.inl ⟨rfl, rfl, le_rfl, fun _ => rfl, le_rfl, rfl⟩
    · exact Or.inl ⟨rfl, rfl, le_rfl, fun _ => rfl, le_rfl, rfl⟩
    · cases ho
    · cases ho
    · cases ho
    · cases ho

/-- What is scanned stays scanned while the boundary does not fall. -/
theorem Filled.mono {v v' : SyncWorld} {n : ℕ} (h : Filled v n)
    (hbirthday : v'.db.birthday = v.db.birthday) (hboundary : v.boundary ≤ v'.boundary)
    (hblocks : ∀ k, v.boundary ≤ k → (v.db.blocks k).isSome → (v'.db.blocks k).isSome) :
    Filled v' n := by
  rintro k ⟨hb, hk⟩ hkn
  rw [hbirthday] at hb
  exact hblocks k (hboundary.trans hk) (h k ⟨hb, hboundary.trans hk⟩ hkn)

theorem ScannedTo.unmoved {n : ℕ} (h : ScannedTo n w) (hw : Unmoved o w w') : ScannedTo n w' := by
  refine ⟨h.1.mono (by rw [hw.db]) hw.boundary ?_, h.2.trans hw.chainTip⟩
  rw [hw.db]
  exact fun _ _ => id

/-- Discarding blocks leaves what was scanned up to the height that is kept. -/
theorem Filled.truncate {v : SyncWorld} {n height : ℕ} (h : Filled v n) (hn : n ≤ height) :
    Filled { v with db := v.db.truncate height } n := by
  intro k hk hkn
  show ((v.db.truncate height).blocks k).isSome
  rw [WalletDb.truncate_blocks, if_pos (hkn.trans hn)]
  exact h k hk hkn

/-- Storing blocks above scanned heights. -/
theorem Filled.put {v : SyncWorld} {blocks : List ScannedBlock} {checkpoints : List ℕ}
    (hbelow : FilledBelow v blocks) {b : ScannedBlock} (hb : b ∈ blocks) :
    Filled { v with db := { v.db.put blocks with checkpoints := checkpoints } } b.height := by
  rintro k ⟨hbirthday, hk⟩ hkb
  have hk' : Owned v k := by
    simp only [WalletDb.put_birthday] at hbirthday
    exact ⟨hbirthday, hk⟩
  show ((v.db.put blocks).blocks k).isSome
  rcases hkb.lt_or_eq with hlt | rfl
  · exact WalletDb.put_blocks_mono (hbelow b hb k hk' hlt)
  · exact WalletDb.put_blocks_isSome v.db hb

/-- The operations keep the invariant, if blocks are stored above scanned heights
    only and `prev_tip` is set to a height that has been reached. -/
theorem Covered.step (hput : ∀ fromState blocks, o = .db (.putBlocks fromState blocks) →
      FilledBelow w.1 blocks)
    (hset : ∀ block, o = .setPrevTip block → ScannedTo block.height w)
    (h : coverContract T o w r w') (hw : Covered w) : Covered w' := by
  rcases coverContract_cases h with hu | ⟨block, rfl, rfl⟩ | ⟨height, landed, rfl, hlanded, rfl⟩ |
    ⟨fromState, blocks, checkpoints, rfl, hcheckpoints, rfl⟩
  · constructor
    · intro c hc
      rw [hu.db] at hc
      exact (hw.checkpoints c hc).unmoved hu
    · intro hr
      rw [hu.rewinding] at hr
      rw [hu.prevTip]
      exact (hw.prevTip hr).unmoved hu
  · exact ⟨hw.checkpoints, fun _ => hset block rfl⟩
  · constructor
    · intro c hc
      obtain ⟨hc, hle⟩ := List.mem_filter.mp hc
      have hle := of_decide_eq_true hle
      obtain ⟨hfilled, htip⟩ := hw.checkpoints c hc
      exact ⟨hfilled.truncate hle, le_min htip hle⟩
    · exact fun hr => absurd trivial hr
  · have hbelow := hput fromState blocks rfl
    have hkeep : ∀ n, Filled w.1 n →
        Filled { w.1 with db := { w.1.db.put blocks with checkpoints := checkpoints } } n :=
      fun n hn => hn.mono (by simp) le_rfl fun k _ => WalletDb.put_blocks_mono
    have htip : ∀ n, n ≤ w.2.chainTip → n ≤ (blocks.map (·.height)).foldr max w.2.chainTip :=
      fun n hn => hn.trans (le_foldr_max List.mem_cons_self)
    have hstored : ∀ b ∈ blocks, b.height ≤ (blocks.map (·.height)).foldr max w.2.chainTip :=
      fun b hb => le_foldr_max (List.mem_cons_of_mem _ (List.mem_map_of_mem hb))
    constructor
    · intro c hc
      rcases hcheckpoints c hc with hc | ⟨b, hb, hcb⟩
      · exact ⟨hkeep c (hw.checkpoints c hc).1, htip c (hw.checkpoints c hc).2⟩
      · have hcb : c ≤ b.height := by omega
        refine ⟨?_, hcb.trans (hstored b hb)⟩
        exact fun k hk hkc => Filled.put hbelow hb k hk (hkc.trans hcb)
    · exact fun hr => ⟨hkeep _ (hw.prevTip hr).1, htip _ (hw.prevTip hr).2⟩

/-- A rewind that leaves the blocks from the boundary on alone keeps the
    invariant. -/
theorem Covered.rescan (hw : Covered w) (h : rescans Recoverable w w') : Covered w' := by
  obtain ⟨height, hrecoverable, rfl⟩ := h
  have hkeep : ∀ n, Filled w.1 n → Filled { w.1 with db := w.1.db.truncate height } n := by
    intro n hn
    refine hn.mono rfl le_rfl fun k hk hsome => ?_
    show ((w.1.db.truncate height).blocks k).isSome
    rw [WalletDb.truncate_blocks]
    by_cases hle : k ≤ height
    · rwa [if_pos hle]
    · rw [hrecoverable k (by omega) hk] at hsome
      cases hsome
  constructor
  · intro c hc
    have hc := (List.mem_filter.mp hc).1
    exact ⟨hkeep c (hw.checkpoints c hc).1, (hw.checkpoints c hc).2⟩
  · exact fun hr => ⟨hkeep _ (hw.prevTip hr).1, (hw.prevTip hr).2⟩

end steps

/-! ## `recover_history` -/

/-- `recover_history` stores blocks below the boundary, and nothing else that
    matters here. -/
def historyOk : SyncOp → SyncWorld → Prop
  | .db (.putBlocks _ blocks), w => ∀ b ∈ blocks, b.height < w.boundary
  | .db (.truncateToHeight _), _ => False
  | .setPrevTip _, _ => False
  | .updateBoundary _, _ => False
  | _, _ => True

/-- The boundary only rises. -/
def BoundaryRises (w w' : SyncWorld) : Prop := w.boundary ≤ w'.boundary

/-- The operations of `recover_history` besides scanning. -/
def aside : Bounds syncSig SyncError where
  ops
    | .db (.putBlocks _ _) => False
    | .db (.truncateToHeight _) => False
    | .setPrevTip _ => False
    | .updateBoundary _ => False
    | _ => True
  answers _ _ := True
  errors _ := True

theorem lookups_aside : Lookups aside where
  reads o ho := by
    unfold aside
    simp only
    split
    · exact ho
    · exact ho
    · exact ho
    · exact ho
    · trivial
  chainError _ _ _ := trivial
  otherError _ _ := trivial

theorem historyOk_of_aside {o : SyncOp} (ho : aside.ops o) (w : SyncWorld) : historyOk o w := by
  fun_cases historyOk o w with
  | case1 => exact ho.elim
  | case2 => exact ho.elim
  | case3 => exact ho.elim
  | case4 => exact ho.elim
  | case5 => trivial

theorem mem_batches_stop {U : Upstream} {batchSize : ℕ} {r b : ScanRange}
    (hb : b ∈ batches U batchSize r) : b.blockRange.stop ≤ r.blockRange.stop := by
  unfold batches at hb
  generalize r.blockRange.stop - r.blockRange.start + 1 = n at hb
  induction n generalizing r with
  | zero => cases hb
  | succ n ih =>
    rw [batchesUpTo] at hb
    cases hs : U.splitAt r (r.blockRange.start + batchSize) with
    | none =>
      rw [hs] at hb
      rw [List.mem_singleton.mp hb]
    | some p =>
      obtain ⟨cur, next⟩ := p
      obtain ⟨-, hlt, hcur, hnext⟩ := splitAt_some hs
      rw [hs] at hb
      rcases List.mem_cons.mp hb with rfl | hb
      · rw [hcur]
        exact hlt.le
      · have := ih hb
        rwa [hnext] at this

section history

variable {T : BlockTree BlockHash} {bound : ℕ} {w : SyncWorld} {α : Type}

/-- While the boundary is at least `bound`, `p` stores only blocks below it. -/
def BelowBound (T : BlockTree BlockHash) (bound : ℕ) (p : SyncM α) : Prop :=
  Sustains (contract T) BoundaryRises historyOk (fun w => bound ≤ w.boundary)
    (fun _ w => bound ≤ w.boundary) p

theorem reading_belowBound : Reading BoundaryRises historyOk fun w => bound ≤ w.boundary where
  stable _ _ h hr := h.trans hr
  allowed _ w ho _ := historyOk_of_aside (lookups_aside.reads _ ho) w

theorem belowBound_of_aside {p : SyncM α} (hp : Within aside p) : BelowBound T bound p := by
  refine Sustains.of_within hp (fun _ _ h hr => h.trans hr) ?_ fun _ _ _ h => h
  intro o w₁ ho hw₁
  refine ⟨historyOk_of_aside ho w₁, fun r w₂ hC => ⟨trivial, ?_⟩⟩
  rcases contract_cases hC with rfl | ⟨s, -, rfl⟩ | ⟨block, rfl, -⟩ | ⟨tipHeight, rfl, -⟩ |
    ⟨height, landed, rfl, -⟩ | ⟨fromState, blocks, checkpoints, rfl, -⟩
  · exact hw₁
  · exact hw₁
  · exact ho.elim
  · exact ho.elim
  · exact ho.elim
  · exact ho.elim

variable (U : Upstream) (shutdownHeight : Option ℕ)

/-- A range that ends at or below the boundary is stored below it. -/
theorem belowBound_scanBlocks (view : ChainView) {scanRange : ScanRange}
    (hrange : scanRange.blockRange.stop ≤ bound) :
    BelowBound T bound (scanBlocks U view scanRange shutdownHeight) := by
  intro w hw
  refine wpE_scanBlocks U reading_belowBound view scanRange shutdownHeight hw (fun _ _ => hw)
    (fun _ h => h) ?_ fun _ _ h _ => h
  intro boundary fromState scanned w₁ hw₁ hclamp hids
  constructor
  · intro b hb
    have hmem : (b.height, b.hash) ∈ scanned.map fun s => (s.height, s.hash) :=
      List.mem_map_of_mem (f := fun s : ScannedBlock => (s.height, s.hash)) hb
    rw [hids, ChainView.mem_ids] at hmem
    have hlt := hmem.2.1
    have hspec := clampToBoundary_spec scanRange.blockRange shutdownHeight
    rw [hclamp] at hspec
    cases boundary with
    | none =>
      simp only [Option.getD_none] at hlt
      omega
    | some stop =>
      have hstop := hspec.2.2
      simp only [Option.getD_some] at hlt
      omega
  · rintro r w₂ ⟨d, -, rfl⟩
    cases r with
    | ok u => exact hw₁
    | error e => exact hw₁

theorem belowBound_scanWithRetries {scanRange : ScanRange}
    (hrange : scanRange.blockRange.stop ≤ bound) (backoffs : List ℕ) :
    BelowBound T bound (scanWithRetries U scanRange shutdownHeight backoffs) := by
  have hsnapshot : BelowBound T bound (chain .snapshot) :=
    belowBound_of_aside (within_chain (by trivial) fun _ _ => trivial)
  induction backoffs with
  | nil =>
    rw [scanWithRetries]
    exact hsnapshot.bind fun view => belowBound_scanBlocks U shutdownHeight view hrange
  | cons backoff rest ih =>
    rw [scanWithRetries]
    refine hsnapshot.bind fun view => ?_
    refine ((belowBound_scanBlocks U shutdownHeight view hrange).attempt fun _ _ h => h).bind
      fun outcome => ?_
    cases outcome with
    | ok outcome => exact belowBound_of_aside (Within.pure _)
    | error e =>
      simp only
      split
      · exact (belowBound_of_aside (within_perform (by trivial))).bind fun _ => ih
      · exact belowBound_of_aside (Within.throw trivial)

theorem belowBound_recoverBatches {ranges : List ScanRange}
    (hranges : ∀ r ∈ ranges, r.blockRange.stop ≤ bound) :
    BelowBound T bound (recoverBatches U shutdownHeight ranges) := by
  induction ranges with
  | nil => exact belowBound_of_aside (Within.pure ())
  | cons scanRange rest ih =>
    rw [List.forall_mem_cons] at hranges
    rw [recoverBatches]
    refine (belowBound_scanWithRetries U shutdownHeight hranges.1 _).bind fun flow => ?_
    cases flow with
    | Break boundary => exact belowBound_of_aside (Within.pure ())
    | Continue u =>
      refine (belowBound_of_aside (lookups_aside.db (by trivial))).bind fun fullyScanned => ?_
      refine (belowBound_of_aside (within_perform (by trivial))).bind fun _ => ?_
      refine (belowBound_of_aside (lookups_aside.db (by trivial))).bind fun latestRanges => ?_
      split
      · exact belowBound_of_aside (Within.pure ())
      · exact ih hranges.2

/-- A turn of `recover_history` stores blocks below the boundary it has loaded,
    which is at most the current one. -/
theorem wpE_recoverTurn_cover (batchSize : ℕ) (u : Unit) (w : SyncWorld) :
    wpE (contract T) BoundaryRises historyOk (fun _ _ => True)
      (recoverTurn U batchSize shutdownHeight u) w := by
  unfold recoverTurn
  rw [wpE_bind]
  refine wpE_perform.mpr fun w₁ _ => ⟨trivial, ?_⟩
  rintro bound w₂ ⟨rfl, rfl⟩
  have hlisted : BelowBound T w₂.boundary (db .suggestScanRanges) :=
    belowBound_of_aside (lookups_aside.db (by trivial))
  refine wpE_post (hlisted.bind (fun suggested => ?_) w₂ le_rfl) fun _ _ _ => trivial
  cases hselect : selectHistoricRange U suggested w₂.boundary with
  | none => exact (belowBound_of_aside (within_perform (by trivial))).bind fun _ => .pure _
  | some scanRange =>
    obtain ⟨s, -, -, hs⟩ := selectHistoricRange_some hselect
    refine (belowBound_recoverBatches U shutdownHeight fun b hb => ?_).bind fun _ => .pure _
    have hle := mem_batches_stop hb
    rw [hs] at hle
    exact hle.trans (Nat.min_le_right _ _)

theorem wpE_recoverHistory_cover (batchSize n : ℕ) (w : SyncWorld) :
    wpE (contract T) BoundaryRises historyOk (fun _ _ => True)
      (recoverHistory U batchSize shutdownHeight n) w := by
  unfold recoverHistory
  rw [wpE_bind]
  refine wpE_perform.mpr fun w₁ _ => ⟨trivial, fun r w₂ _ => ?_⟩
  rw [andThen_ok]
  refine wpE_post (wpE_turns (I := fun _ _ => True) (Q := fun _ _ => True) ?_ n () w₂ trivial)
    fun _ _ _ => trivial
  intro u w₃ _
  refine wpE_post (wpE_recoverTurn_cover U shutdownHeight batchSize u w₃) fun r w₄ _ => ?_
  match r with
  | .ok (.Continue _) => trivial
  | .ok (.Break _) => trivial
  | .error _ => trivial

end history

/-! ## `steady_state` -/

/-- The world as the other tasks leave it to `steady_state`: they discard no
    block from the boundary on. -/
structure WorldRely (w w' : SyncWorld) : Prop where
  prevTip : w'.prevTip = w.prevTip
  boundary : w'.boundary = w.boundary
  birthday : w'.db.birthday = w.db.birthday
  blocks : ∀ h, w.boundary ≤ h → (w.db.blocks h).isSome → (w'.db.blocks h).isSome

/-- What `steady_state` relies on. -/
structure CoverRely (w w' : SyncWorld × QueueState) : Prop where
  world : WorldRely w.1 w'.1
  chainTip : w.2.chainTip ≤ w'.2.chainTip
  rewinding : w'.2.rewinding = w.2.rewinding

/-- What `steady_state` guarantees. A turn starts only when no rewind is left
    half done. -/
def steadyOk : SyncOp → SyncWorld × QueueState → Prop
  | .chain .snapshot, w => ¬ w.2.rewinding
  | .setPrevTip block, w => ScannedTo block.height w
  | .db (.putBlocks _ blocks), w => FilledBelow w.1 blocks
  | _, _ => True

/-- The operations of `steady_state` about which there is nothing to show. -/
def unmoving : Bounds syncSig SyncError where
  ops
    | .chain .snapshot => False
    | .setPrevTip _ => False
    | .db (.putBlocks _ _) => False
    | .db (.truncateToHeight _) => False
    | _ => True
  answers _ _ := True
  errors _ := True

theorem lookups_unmoving : Lookups unmoving where
  reads o ho := by
    unfold unmoving
    simp only
    split
    · exact ho
    · exact ho
    · exact ho
    · exact ho
    · trivial
  chainError _ _ _ := trivial
  otherError _ _ := trivial

theorem steadyOk_of_unmoving {o : SyncOp} (ho : unmoving.ops o) (w : SyncWorld × QueueState) :
    steadyOk o w := by
  fun_cases steadyOk o w with
  | case1 => exact ho.elim
  | case2 => exact ho.elim
  | case3 => exact ho.elim
  | case4 => trivial

theorem Filled.rely {w w' : SyncWorld} {n : ℕ} (h : Filled w n) (hr : WorldRely w w') :
    Filled w' n :=
  h.mono hr.birthday hr.boundary.ge hr.blocks

theorem ScannedTo.rely {w w' : SyncWorld × QueueState} {n : ℕ} (h : ScannedTo n w)
    (hr : CoverRely w w') : ScannedTo n w' :=
  ⟨h.1.rely hr.world, h.2.trans hr.chainTip⟩

/-- The operations of `steady_state`, in worlds that satisfy the invariant. -/
def assumingCovered (T : BlockTree BlockHash) : Contract syncSig (SyncWorld × QueueState) :=
  (coverContract T).restrict fun _ w _ => Covered w

section steady

variable {T : BlockTree BlockHash} {w : SyncWorld × QueueState}

theorem unmoving_unmoved {o : SyncOp} (ho : unmoving.ops o) {w w' : SyncWorld × QueueState} {r : o.Ret}
    (h : assumingCovered T o w r w') : Unmoved o w w' := by
  rcases coverContract_cases h.1 with hu | ⟨block, rfl, -⟩ | ⟨height, landed, rfl, -⟩ |
    ⟨fromState, blocks, checkpoints, rfl, -⟩
  · exact hu
  · exact ho.elim
  · exact ho.elim
  · exact ho.elim

/-- A unmoving program leaves a rewind as it is. -/
theorem wpE_unmoving {α : Type} {p : SyncM α} (hp : Within unmoving p)
    {Q : Except SyncError α → SyncWorld × QueueState → Prop}
    (hQ : ∀ r w', w'.2.rewinding = w.2.rewinding → Q r w') :
    wpE (assumingCovered T) CoverRely steadyOk Q p w := by
  refine wpE_post (wpE_of_within (I := fun w' => w'.2.rewinding = w.2.rewinding) hp rfl ?_ ?_)
    fun r w' h => hQ r w' h.2
  · exact fun w₁ w₂ h₁ h₂ => h₂.rewinding.trans h₁
  · intro o w₁ ho h₁
    refine ⟨steadyOk_of_unmoving ho w₁, fun r w₂ hC => ⟨trivial, ?_⟩⟩
    exact (unmoving_unmoved ho hC).rewinding.trans h₁

/-- A unmoving operation leaves what has been reached. -/
theorem wpE_unmoving_perform {o : SyncOp} (ho : unmoving.ops o) {n : ℕ} (hw : ScannedTo n w)
    {Q : Except SyncError o.Ret → SyncWorld × QueueState → Prop}
    (hQ : ∀ r w', ScannedTo n w' → Q (.ok r) w') :
    wpE (assumingCovered T) CoverRely steadyOk Q (perform o) w := by
  refine wpE_perform.mpr fun w₁ hr => ⟨steadyOk_of_unmoving ho w₁, fun r w₂ hC => ?_⟩
  exact hQ r w₂ ((hw.rely hr).unmoved (unmoving_unmoved ho hC))

/-- Reading `prev_tip`, when no rewind is left half done. -/
theorem wpE_getPrevTip_cover (hw : ¬ w.2.rewinding)
    {Q : Except SyncError ChainBlock → SyncWorld × QueueState → Prop}
    (hQ : ∀ w', ¬ w'.2.rewinding → ScannedTo w'.1.prevTip.height w' →
      Q (.ok w'.1.prevTip) w') :
    wpE (assumingCovered T) CoverRely steadyOk Q (perform .getPrevTip) w := by
  refine wpE_perform.mpr fun w₁ hr => ⟨trivial, ?_⟩
  rintro r ⟨w₂, q₂⟩ ⟨⟨⟨⟨rfl, hw₂⟩, -⟩, hq⟩, hcovered⟩
  obtain rfl : w₂ = w₁.1 := hw₂
  obtain rfl : q₂ = w₁.2 := hq
  have hw₁ : ¬ w₁.2.rewinding := by
    rw [hr.rewinding]
    exact hw
  exact hQ w₁ hw₁ (hcovered.prevTip hw₁)

/-- Setting `prev_tip` ends a rewind. -/
theorem wpE_setPrevTip_cover {block : ChainBlock} (hw : ScannedTo block.height w)
    {Q : Except SyncError Unit → SyncWorld × QueueState → Prop}
    (hQ : ∀ w', ¬ w'.2.rewinding → Q (.ok ()) w') :
    wpE (assumingCovered T) CoverRely steadyOk Q (perform (.setPrevTip block)) w := by
  refine wpE_perform.mpr fun w₁ hr => ⟨hw.rely hr, ?_⟩
  rintro r ⟨w₂, q₂⟩ ⟨⟨-, hq⟩, -⟩
  obtain rfl : q₂ = { w₁.2 with rewinding := False } := hq
  exact hQ _ not_false

/-- A truncation lands on a checkpoint, up to which nothing is missing. -/
theorem truncate_scannedTo {height landed : ℕ} {w w' : SyncWorld × QueueState}
    (h : assumingCovered T (.db (.truncateToHeight height)) w (.ok landed) w') :
    ScannedTo landed w' := by
  obtain ⟨w', q'⟩ := w'
  obtain ⟨⟨⟨⟨d, ⟨hrewind, rfl⟩, hw⟩, -⟩, hq⟩, hcovered⟩ := h
  obtain rfl : w' = { w.1 with db := w.1.db.truncate landed } := hw
  obtain rfl : q' = ⟨min w.2.chainTip landed, True⟩ := hq
  obtain ⟨hfilled, htip⟩ := hcovered.checkpoints landed hrewind.1
  exact ⟨hfilled.truncate le_rfl, le_min htip le_rfl⟩

/-- `truncate_to_wallet_checkpoint` resumes where nothing is missing. If it fails,
    the rewind may be left half done, but `steady_state` does not retry. -/
theorem wpE_truncateToWalletCheckpoint_cover (target : ℕ)
    {Q : Except SyncError ChainBlock → SyncWorld × QueueState → Prop}
    (hQ : ∀ block w', ScannedTo block.height w' → Q (.ok block) w')
    (hE : ∀ e w', isRetryable e = false → e.NoConflict → Q (.error e) w') :
    wpE (assumingCovered T) CoverRely steadyOk Q (truncateToWalletCheckpoint target) w := by
  have hfails : ∀ {o : DbOp} {w w' : SyncWorld × QueueState} {e : SqliteClientError},
      (∀ fromState blocks, o ≠ .putBlocks fromState blocks) →
      assumingCovered T (.db o) w (.error e) w' → SyncError.NoConflict (.Other e) := by
    rintro o w w' e ho ⟨⟨⟨⟨d, ⟨hf, -⟩, -⟩, -⟩, -⟩, -⟩
    exact noConflict_of_fails ho hf
  unfold truncateToWalletCheckpoint
  rw [wpE_bind]
  have hlands : ∀ landed w', ScannedTo landed w' →
      wpE (assumingCovered T) CoverRely steadyOk Q
        (db (.getBlockHash landed) >>= fun hash =>
          ofOutcome (resumePoint landed (hash.map fun h => (landed, h)))) w' := by
    intro landed w₁ hscanned
    rw [wpE_bind]
    refine wpE_db.mpr fun w₂ hr => ⟨trivial, fun r w₃ hC => ?_⟩
    cases r with
    | error e => exact hE _ w₃ rfl (hfails (by simp) hC)
    | ok hash =>
      show Q _ w₃
      cases hash with
      | none => exact hE _ w₃ rfl (SyncError.noConflict_chain _)
      | some hash =>
        exact hQ ⟨landed, hash⟩ w₃ ((hscanned.rely hr).unmoved (unmoving_unmoved (by trivial) hC))
  unfold truncateOrLowest
  rw [wpE_bind]
  refine wpE_dbTry.mpr fun w₁ _ => ⟨trivial, fun r w₂ hC => ?_⟩
  rw [andThen_ok]
  split
  · exact hlands _ w₂ (truncate_scannedTo hC)
  · refine wpE_db.mpr fun w₃ _ => ⟨trivial, fun r w₄ hC' => ?_⟩
    cases r with
    | ok landed => exact hlands landed w₄ (truncate_scannedTo hC')
    | error e => exact hE _ w₄ rfl (hfails (by simp) hC')
  · exact hE _ w₂ rfl (hfails (by simp) hC)

/-- What is asked of the operations of a scan, without the queue. -/
def scanOk : SyncOp → SyncWorld → Prop
  | .chain .snapshot, _ => False
  | .setPrevTip _, _ => False
  | .db (.putBlocks _ blocks), w => FilledBelow w blocks
  | _, _ => True

theorem reading_scanOk {n : ℕ} : Reading WorldRely scanOk fun w => Filled w n where
  stable _ _ h hr := h.rely hr
  allowed o w ho _ := by
    fun_cases scanOk o w with
    | case1 => exact ho
    | case2 => exact ho
    | case3 => exact ho.elim
    | case4 => trivial

/-- The operations of a scan leave a rewind as it is. -/
def scanOnly : Bounds syncSig SyncError where
  ops o := unmoving.ops o ∨ ∃ fromState blocks, o = .db (.putBlocks fromState blocks)
  answers _ _ := True
  errors _ := True

theorem scanning_scanOnly : Scanning scanOnly where
  reads o ho := Or.inl (lookups_unmoving.reads o ho)
  chainError _ _ _ := trivial
  otherError _ _ := trivial
  puts fromState blocks := Or.inr ⟨fromState, blocks, rfl⟩
  streamError _ _ _ _ _ _ := trivial

theorem scanOnly_rewinding {o : SyncOp} (ho : scanOnly.ops o) {w w' : SyncWorld × QueueState}
    {r : o.Ret} (h : assumingCovered T o w r w') : w'.2.rewinding = w.2.rewinding := by
  rcases ho with ho | ⟨fromState, blocks, rfl⟩
  · exact (unmoving_unmoved ho h).rewinding
  · rcases coverContract_cases h.1 with hu | ⟨block, ho, -⟩ | ⟨height, landed, ho, -⟩ |
      ⟨fromState, blocks, checkpoints, -, -, rfl⟩
    · exact hu.rewinding
    · cases ho
    · cases ho
    · rfl

variable (U : Upstream) (shutdownHeight : Option ℕ)

/-- `scan_block` fills the height of its block, if it is the one after what has
    been scanned. -/
theorem wpE_scanBlock_cover (view : ChainView) (block : Block) {n : ℕ}
    (hblock : block.claimedHeight = n + 1) (hw : Filled w.1 n)
    {Q : Except SyncError (ControlFlow ℕ Unit) → SyncWorld × QueueState → Prop}
    (hQ : ∀ w', w'.2.rewinding = w.2.rewinding → Filled w'.1 (n + 1) →
      Q (.ok (.Continue ())) w')
    (hB : ∀ boundary w', w'.2.rewinding = w.2.rewinding → Q (.ok (.Break boundary)) w')
    (hE : ∀ e w', w'.2.rewinding = w.2.rewinding → Q (.error e) w') :
    wpE (assumingCovered T) CoverRely steadyOk Q (scanBlock U view block shutdownHeight) w := by
  have hscan : wpE (contract T) WorldRely scanOk
      (fun r w' => r = .ok (.Continue ()) → Filled w' (n + 1))
      (scanBlock U view block shutdownHeight) w.1 := by
    refine wpE_scanBlock U reading_scanOk view block shutdownHeight hw ?_ ?_ ?_
    · intro h _ _ hr
      cases hr
    · intro fromState scanned w₁ hfilled _ hheight _
      have hbelow : FilledBelow w₁ [scanned] := by
        intro b hb h howned hlt
        rw [List.mem_singleton.mp hb, hheight, hblock] at hlt
        exact hfilled h howned (by omega)
      refine ⟨hbelow, ?_⟩
      rintro r w₂ ⟨d, ha, rfl⟩
      cases r with
      | error e =>
        intro hr
        cases hr
      | ok u =>
        intro _
        obtain ⟨-, checkpoints, rfl⟩ := ha
        have hfilled' := @Filled.put w₁ [scanned] checkpoints hbelow scanned
          (List.mem_singleton_self scanned)
        rwa [hheight, hblock] at hfilled'
    · intro e w₁ _ _ hr
      cases hr
  have hkeep : wpE (assumingCovered T) CoverRely (fun _ _ => True)
      (fun _ w' => w'.2.rewinding = w.2.rewinding) (scanBlock U view block shutdownHeight) w := by
    refine wpE_post (wpE_of_within (I := fun w' => w'.2.rewinding = w.2.rewinding)
      (within_scanBlock U scanning_scanOnly view block shutdownHeight) rfl ?_ ?_) fun _ _ h => h.2
    · exact fun w₁ w₂ h₁ h₂ => h₂.rewinding.trans h₁
    · intro o w₁ ho h₁
      exact ⟨trivial, fun r w₂ hC => ⟨trivial, (scanOnly_rewinding ho hC).trans h₁⟩⟩
  have hfilled : wp (assumingCovered T) CoverRely _ _ (scanBlock U view block shutdownHeight) w :=
    wp_along Prod.fst (fun o w r w' h => h.1.1.1) (fun w w' h => h.world) hscan
  have hboth := wp_and hfilled hkeep
  refine wp_mono hboth ?_ ?_
  · intro o w₁ ho
    fun_cases scanOk o w₁.1 with
    | case1 => exact ho.elim
    | case2 => exact ho.elim
    | case3 => exact ho
    | case4 =>
      fun_cases steadyOk o w₁ with
      | case1 => exact ho.elim
      | case2 => exact ho.elim
      | case3 => exact ho
      | case4 => trivial
  · rintro r w₁ ⟨hfilled, hr⟩
    match r with
    | .error e => exact hE e w₁ hr
    | .ok (.Break boundary) => exact hB boundary w₁ hr
    | .ok (.Continue ()) => exact hQ w₁ hr (hfilled rfl)

/-- What a failed iteration leaves: a rewind that is half done, only if the
    error ends the task or is handled by another rewind. -/
def FailsLate (e : SyncError) (w : SyncWorld × QueueState) : Prop :=
  w.2.rewinding → isRetryable e = false ∧ e.NoConflict

theorem FailsLate.of_not {e : SyncError} (h : ¬ w.2.rewinding) : FailsLate e w :=
  fun hr => absurd hr h

/-- `p` starts with no rewind half done and leaves one only if it fails. -/
def Steady (T : BlockTree BlockHash) {α : Type} (p : SyncM α) : Prop :=
  Sustains (assumingCovered T) CoverRely steadyOk (fun w => ¬ w.2.rewinding) FailsLate p

theorem steady_of_unmoving {α : Type} {p : SyncM α} (hp : Within unmoving p) : Steady T p := by
  intro w hw
  refine wpE_unmoving hp fun r w' hr => ?_
  have hw' : ¬ w'.2.rewinding := by
    rw [hr]
    exact hw
  cases r with
  | ok a => exact hw'
  | error e => exact FailsLate.of_not hw'

theorem steady_applyBlocks (view : ChainView) (blocks : List Block) :
    Steady T (applyBlocks U view shutdownHeight blocks) := by
  induction blocks with
  | nil => exact Sustains.pure _
  | cons block rest ih =>
    intro w hw
    rw [applyBlocks, wpE_bind]
    refine wpE_getPrevTip_cover hw fun w₁ hw₁ hscanned => ?_
    rw [andThen_ok, wpE_bind]
    refine wpE_assert (fun hheight => ?_) fun _ _ _ => trivial
    rw [andThen_ok, wpE_bind]
    refine wpE_scanBlock_cover U shutdownHeight view block hheight hscanned.1 ?_ ?_ ?_
    · intro w₂ hr₂ hfilled
      show wpE _ _ _ _ (db (.updateChainTip block.claimedHeight) >>= _) w₂
      rw [wpE_bind]
      refine wpE_db.mpr fun w₃ hr₃ => ⟨trivial, fun r w₄ hC => ?_⟩
      have hu := unmoving_unmoved (by trivial) hC
      have hw₄ : ¬ w₄.2.rewinding := by
        rw [hu.rewinding, hr₃.rewinding, hr₂]
        exact hw₁
      cases r with
      | error e => exact FailsLate.of_not hw₄
      | ok u =>
        -- the queue knows the height now
        have htip : block.claimedHeight ≤ w₄.2.chainTip := by
          rw [hC.1.2]
          exact le_max_right _ _
        have hfilled₄ : Filled w₄.1 block.claimedHeight := by
          rw [hheight]
          refine (hfilled.rely hr₃.world).mono (by rw [hu.db]) hu.boundary ?_
          rw [hu.db]
          exact fun _ _ => id
        show wpE _ _ _ _ (perform (.setPrevTip ⟨block.claimedHeight, block.header.hash⟩) >>= _) w₄
        rw [wpE_bind]
        exact wpE_setPrevTip_cover ⟨hfilled₄, htip⟩ fun w₅ hw₅ => ih w₅ hw₅
    · intro boundary w₂ hr₂
      show ¬ w₂.2.rewinding
      rw [hr₂]
      exact hw₁
    · intro e w₂ hr₂
      refine FailsLate.of_not ?_
      rw [hr₂]
      exact hw₁

/-- A rewind, up to `prev_tip` after it. -/
theorem wpE_resume_cover {block : ChainBlock} (hw : ScannedTo block.height w)
    {Q : Except SyncError Unit → SyncWorld × QueueState → Prop}
    (hQ : ∀ w', ¬ w'.2.rewinding → Q (.ok ()) w') :
    wpE (assumingCovered T) CoverRely steadyOk Q
      (perform (.status (.beginRecovery block.height)) >>= fun _ =>
        perform (.setPrevTip block)) w := by
  rw [wpE_bind]
  refine wpE_unmoving_perform (by trivial) hw fun _ w₁ hw₁ => ?_
  rw [andThen_ok]
  exact wpE_setPrevTip_cover hw₁ hQ

theorem steady_rewindToForkPoint (forkPoint prevTip : ChainBlock) :
    Steady T (rewindToForkPoint forkPoint prevTip) := by
  intro w hw
  unfold rewindToForkPoint
  split
  · rw [wpE_bind]
    refine wpE_assert (fun _ => ?_) fun _ _ _ => trivial
    rw [andThen_ok, wpE_bind]
    refine wpE_truncateToWalletCheckpoint_cover _ ?_ fun e w₁ hr hn _ => ⟨hr, hn⟩
    intro resumeFrom w₁ hscanned
    exact wpE_resume_cover hscanned fun w₂ hw₂ => hw₂
  · exact hw

theorem steady_iterationOn (view : ChainView) :
    Steady T (iterationOn U view shutdownHeight) := by
  have happly : Steady T (applyToTip U view shutdownHeight) := by
    unfold applyToTip
    refine Sustains.bind (steady_of_unmoving (within_perform (by trivial))) fun prevTip => ?_
    refine Sustains.bind (steady_of_unmoving (lookups_unmoving.chain (by trivial))) fun stream => ?_
    refine (steady_applyBlocks U shutdownHeight view stream.blocks).bind fun flow => ?_
    cases flow with
    | Break boundary => exact Sustains.pure _
    | Continue u =>
      refine Sustains.bind (steady_of_unmoving ?_) fun _ => Sustains.pure _
      unfold endOfStream
      split
      · exact Within.throw trivial
      · exact Within.pure ()
  have hfinish : ∀ currentTip tipChanged,
      Steady T (finishIteration view currentTip tipChanged shutdownHeight) := by
    intro currentTip tipChanged
    unfold finishIteration
    split
    · exact Sustains.pure _
    · refine Sustains.bind (steady_of_unmoving ?_) fun _ => Sustains.pure _
      refine within_reachTip ?_ lookups_unmoving view tipChanged trivial fun _ => trivial
      intro o ho
      cases o with
      | status s => trivial
      | updateBoundary tipHeight => trivial
      | notifyOne => trivial
      | notified => trivial
      | sleep millis => trivial
      | tick => trivial
      | yieldNow => trivial
      | _ => exact ho.elim
  have hassert : ∀ (c : Prop) [Decidable c] message, Steady T (assert c message) :=
    fun c _ message w hw => wpE_assert (fun _ => hw) fun _ _ _ => trivial
  unfold iterationOn
  refine Sustains.bind (steady_of_unmoving (lookups_unmoving.chain (by trivial))) fun currentTip => ?_
  refine Sustains.bind (steady_of_unmoving (within_perform (by trivial))) fun prevTip => ?_
  split
  · refine Sustains.bind ?_ fun flow => ?_
    · unfold followTip
      refine Sustains.bind (steady_of_unmoving (within_announceTip (fun _ => trivial) trivial
        (fun _ => trivial) currentTip)) fun _ => ?_
      refine Sustains.bind (steady_of_unmoving (within_perform (by trivial))) fun prevTip => ?_
      refine Sustains.bind (steady_of_unmoving (within_locateForkPoint lookups_unmoving view prevTip))
        fun forkPoint => ?_
      refine (hassert _ _).bind fun _ => ?_
      exact (steady_rewindToForkPoint forkPoint prevTip).bind fun _ => happly
    · cases flow with
      | Break boundary => exact Sustains.pure _
      | Continue u => exact hfinish _ _
  · exact hfinish _ _

/-- A turn begins with no rewind half done. -/
theorem wpE_snapshot_cover (hw : ¬ w.2.rewinding)
    {Q : Except SyncError ChainView → SyncWorld × QueueState → Prop}
    (hQ : ∀ r w', ¬ w'.2.rewinding → Q r w') :
    wpE (assumingCovered T) CoverRely steadyOk Q (chain .snapshot) w := by
  refine wpE_chain.mpr fun w₁ hr => ?_
  have hw₁ : ¬ w₁.2.rewinding := by
    rw [hr.rewinding]
    exact hw
  refine ⟨hw₁, ?_⟩
  rintro r ⟨w₂, q₂⟩ ⟨⟨-, hq⟩, -⟩
  obtain rfl : q₂ = w₁.2 := hq
  exact hQ _ _ hw₁

theorem steady_snapshot : Steady T (chain .snapshot) :=
  fun _ hw => wpE_snapshot_cover hw fun r _ h => by
    cases r with
    | ok view => exact h
    | error e => exact FailsLate.of_not h

theorem steady_resolveConflict (height : ℕ) : Steady T (resolveConflict height) := by
  unfold resolveConflict
  refine Sustains.bind (steady_of_unmoving (lookups_unmoving.db (by trivial))) fun hash => ?_
  refine Sustains.bind (steady_of_unmoving (within_okOr trivial hash)) fun hash => ?_
  refine steady_snapshot.bind fun view => ?_
  refine Sustains.bind (steady_of_unmoving (within_locateForkPoint lookups_unmoving view _))
    fun forkPoint => ?_
  intro w hw
  rw [wpE_bind]
  refine wpE_truncateToWalletCheckpoint_cover _ ?_ fun e w₁ hr hn _ => ⟨hr, hn⟩
  intro resumeFrom w₁ hscanned
  exact wpE_resume_cover hscanned fun w₂ hw₂ => hw₂

/-- Another rewind repairs one that was left half done. -/
theorem wpE_resolveDivergence_cover (recovery : TreeRecovery)
    {Q : Except SyncError TreeRecovery → SyncWorld × QueueState → Prop}
    (hQ : ∀ a w', ¬ w'.2.rewinding → Q (.ok a) w') (hE : ∀ e w', Q (.error e) w') :
    wpE (assumingCovered T) CoverRely steadyOk Q (resolveDivergence recovery) w := by
  unfold resolveDivergence
  rw [wpE_bind]
  refine wpE_unmoving (within_perform (by trivial)) fun r w₁ _ => ?_
  cases r with
  | error e => exact hE e w₁
  | ok prevTip =>
    rw [andThen_ok, wpE_bind]
    unfold recoverFromTreeDivergence
    rw [wpE_bind]
    refine wpE_unmoving (lookups_unmoving.db (by trivial)) fun r w₂ _ => ?_
    cases r with
    | error e => exact hE e w₂
    | ok birthday =>
      rw [andThen_ok]
      simp only
      rw [wpE_bind, wpE_okOr]
      refine ⟨fun target _ => ?_, fun _ => hE _ w₂⟩
      rw [andThen_ok, wpE_bind]
      refine wpE_truncateToWalletCheckpoint_cover _ ?_ fun e w₃ _ _ => hE e w₃
      intro resumeFrom w₃ hscanned
      rw [andThen_ok]
      split
      · exact hE _ w₃
      · show wpE _ _ _ Q (perform (.status (.beginRecovery resumeFrom.height)) >>= _) w₃
        rw [wpE_bind]
        refine wpE_unmoving_perform (by trivial) hscanned fun _ w₄ hw₄ => ?_
        rw [andThen_ok, wpE_bind]
        exact wpE_setPrevTip_cover hw₄ fun w₅ hw₅ => hQ _ w₅ hw₅

/-- After a turn that does not end the task, no rewind is left half done. -/
theorem wpE_handleOutcome_cover (recovery : TreeRecovery)
    (outcome : Except SyncError (ControlFlow ℕ Unit))
    (hw : sustained (fun w => ¬ w.2.rewinding) FailsLate outcome w) :
    wpE (assumingCovered T) CoverRely steadyOk
      (fun r w' => ∀ flow, r = .ok flow → ¬ w'.2.rewinding) (handleOutcome recovery outcome) w := by
  have hsteady : ∀ {p : SyncM (ControlFlow Unit TreeRecovery)}, Steady T p → ¬ w.2.rewinding →
      wpE (assumingCovered T) CoverRely steadyOk
        (fun r w' => ∀ flow, r = .ok flow → ¬ w'.2.rewinding) p w := by
    intro p hp hw
    refine wpE_post (hp w hw) fun r w' hr => ?_
    rintro flow rfl
    exact hr
  match outcome with
  | .ok (.Continue ()) =>
    exact hsteady
      (Sustains.bind (steady_of_unmoving (within_perform (by trivial))) fun _ => Sustains.pure _) hw
  | .ok (.Break _) => exact hsteady (Sustains.pure _) hw
  | .error e =>
    rcases e.arms with hr | ⟨height, rfl⟩ | ⟨hn, hr, ht⟩ | hf
    · rw [handleOutcome_retryable recovery hr]
      refine hsteady
        (Sustains.bind (steady_of_unmoving (within_perform (by trivial))) fun _ => Sustains.pure _) ?_
      intro hrewinding
      rw [(hw hrewinding).1] at hr
      cases hr
    · rw [handleOutcome_conflict]
      refine hsteady ((steady_resolveConflict height).bind fun _ => Sustains.pure _) ?_
      exact fun hrewinding => (hw hrewinding).2 height rfl
    · rw [handleOutcome_divergence recovery hn hr ht, wpE_bind]
      refine wpE_resolveDivergence_cover recovery ?_ ?_
      · rintro a w' hw' flow -
        exact hw'
      · rintro e' w' flow hr
        cases hr
    · rw [handleOutcome_fatal recovery hf]
      rintro flow hr
      cases hr

/-- `steady_state`, started where the wallet has been scanned up to `prevTip`. -/
theorem wpE_steadyState_cover (prevTip : ChainBlock) (n : ℕ) (hw : ScannedTo prevTip.height w) :
    wpE (assumingCovered T) CoverRely steadyOk (fun _ _ => True)
      (steadyState U prevTip shutdownHeight n) w := by
  unfold steadyState
  rw [wpE_bind]
  refine wpE_setPrevTip_cover hw fun w₁ hw₁ => ?_
  rw [andThen_ok, wpE_bind]
  refine wpE_unmoving (within_perform (by trivial)) fun r w₂ hr₂ => ?_
  cases r with
  | error e => trivial
  | ok u =>
    rw [andThen_ok]
    refine wpE_post (wpE_turns (I := fun _ w => ¬ w.2.rewinding) (Q := fun _ _ => True) ?_ n default
      w₂ (by rw [hr₂]; exact hw₁)) fun _ _ _ => trivial
    intro recovery w₃ hw₃
    unfold steadyTurn steadyStateIteration
    rw [wpE_bind, wpE_attempt]
    refine wpE_post ((steady_snapshot.bind fun view =>
      steady_iterationOn U shutdownHeight view) w₃ hw₃) fun outcome w₄ hw₄ => ?_
    rw [andThen_ok]
    refine wpE_post (wpE_handleOutcome_cover recovery outcome hw₄) fun r w₅ hw₅ => ?_
    match r with
    | .ok (.Continue recovery') => exact hw₅ _ rfl
    | .ok (.Break _) => trivial
    | .error _ => trivial

end steady

/-! ## Every interleaving -/

/-- The wallet as `initialize` hands it over at the tip. -/
structure CaughtUp (w : SyncWorld) (chainTip : ℕ) : Prop where
  scanned : Filled w w.prevTip.height
  chainTip : w.prevTip.height ≤ chainTip
  checkpoints : ∀ c ∈ w.db.checkpoints, c ≤ w.prevTip.height

/-- `suggest_scan_ranges` returns exactly the unscanned heights, from the wallet's
    birthday up to the recorded chain tip. -/
def Suggests (w : SyncWorld × QueueState) (ranges : List ScanRange) : Prop :=
  ∀ h, (∃ r ∈ ranges, ScanRange.Has r h) ↔
    (∃ birthday, w.1.db.birthday = some birthday ∧ birthday ≤ h) ∧ h ≤ w.2.chainTip ∧
      w.1.db.blocks h = none

/-- The heights from the birthday up to `prev_tip` have been scanned. -/
def FullyCovered (w : SyncWorld) : Prop :=
  ∀ birthday, w.db.birthday = some birthday →
    ∀ h, birthday ≤ h → h ≤ w.prevTip.height → (w.db.blocks h).isSome

/-- What each task may do. -/
def coverOk : SyncTask → SyncOp → SyncWorld × QueueState → Prop
  | .steadyState => steadyOk
  | .recoverHistory => fun o w => historyOk o w.1

/-- What each task relies on. -/
def coverRely : SyncTask → SyncWorld × QueueState → SyncWorld × QueueState → Prop
  | .steadyState => CoverRely
  | .recoverHistory => fun w w' => BoundaryRises w.1 w'.1

section every

variable {T : BlockTree BlockHash} {U : Upstream} {w w' : SyncWorld × QueueState}

/-- When `initialize` finds no range to scan, the heights it leaves to
    `steady_state` have been scanned. -/
theorem filled_of_selectInitialScanRange {ranges : List ScanRange}
    (hnone : selectInitialScanRange U ranges w.1.prevTip.height w.1.boundary = none)
    (hranges : Suggests w ranges)
    (hpriority : ∀ r ∈ ranges, ScanPriority.Historic.rank ≤ r.priority.rank)
    (htip : w.1.prevTip.height ≤ w.2.chainTip) : Filled w.1 w.1.prevTip.height := by
  rintro h ⟨hbirthday, hboundary⟩ hle
  by_contra hsome
  have hunscanned : w.1.db.blocks h = none := by simpa using hsome
  obtain ⟨r, hr, hhas⟩ := (hranges h).mpr ⟨hbirthday, hle.trans htip, hunscanned⟩
  exact selectInitialScanRange_eq_none.mp hnone r hr h
    ⟨hhas, hle, Or.inr ⟨hpriority r hr, hboundary⟩⟩

/-- `recover_history` stores blocks where there is nothing to ask of
    `steady_state`. -/
theorem filledBelow_of_lt_boundary {v : SyncWorld} {blocks : List ScannedBlock}
    (h : ∀ b ∈ blocks, b.height < v.boundary) : FilledBelow v blocks := by
  intro b hb k hk hlt
  have hbelow := h b hb
  have := hk.2
  omega

theorem Covered.task {i : SyncTask} {o : SyncOp} {r : o.Ret} (hw : Covered w)
    (hok : coverOk i o w) (h : coverContract T o w r w') : Covered w' := by
  refine hw.step ?_ ?_ h
  · rintro fromState blocks rfl
    cases i with
    | steadyState => exact hok
    | recoverHistory => exact filledBelow_of_lt_boundary hok
  · rintro block rfl
    cases i with
    | steadyState => exact hok
    | recoverHistory => exact hok.elim

/-- `recover_history` stays within what `steady_state` relies on. -/
theorem historyOk_rely {o : SyncOp} {r : o.Ret} (hok : historyOk o w.1)
    (h : coverContract T o w r w') : CoverRely w w' := by
  rcases coverContract_cases h with hu | ⟨block, rfl, -⟩ | ⟨height, landed, rfl, -⟩ |
    ⟨fromState, blocks, checkpoints, rfl, -, rfl⟩
  · have hboundary : ∀ height, o ≠ .updateBoundary height := by
      rintro height rfl
      exact hok
    refine ⟨⟨hu.prevTip, hu.sameBoundary hboundary, by rw [hu.db], ?_⟩, hu.chainTip, hu.rewinding⟩
    rw [hu.db]
    exact fun _ _ => id
  · exact hok.elim
  · exact hok.elim
  · exact ⟨⟨rfl, rfl, by simp, fun k _ => WalletDb.put_blocks_mono⟩,
      le_foldr_max List.mem_cons_self, rfl⟩

/-- So does a rewind that leaves the blocks from the boundary on alone. -/
theorem rescan_rely (h : rescans Recoverable w w') : CoverRely w w' := by
  obtain ⟨height, hrecoverable, rfl⟩ := h
  refine ⟨⟨rfl, rfl, rfl, fun k hk hsome => ?_⟩, le_rfl, rfl⟩
  show ((w.1.db.truncate height).blocks k).isSome
  rw [WalletDb.truncate_blocks]
  by_cases hle : k ≤ height
  · rwa [if_pos hle]
  · rw [hrecoverable k (by omega) hk] at hsome
    cases hsome

theorem boundaryRises_step {o : SyncOp} {r : o.Ret} (h : coverContract T o w r w') :
    BoundaryRises w.1 w'.1 := by
  rcases coverContract_cases h with hu | ⟨block, -, rfl⟩ | ⟨height, landed, -, -, rfl⟩ |
    ⟨fromState, blocks, checkpoints, -, -, rfl⟩
  · exact hu.boundary
  · exact le_rfl
  · exact le_rfl
  · exact le_rfl

theorem CoverRely.trans {w₁ w₂ w₃ : SyncWorld × QueueState} (h₁ : CoverRely w₁ w₂)
    (h₂ : CoverRely w₂ w₃) : CoverRely w₁ w₃ where
  world :=
    { prevTip := h₂.world.prevTip.trans h₁.world.prevTip
      boundary := h₂.world.boundary.trans h₁.world.boundary
      birthday := h₂.world.birthday.trans h₁.world.birthday
      blocks := fun h hb hs =>
        h₂.world.blocks h (h₁.world.boundary.le.trans hb) (h₁.world.blocks h hb hs) }
  chainTip := h₁.chainTip.trans h₂.chainTip
  rewinding := h₂.rewinding.trans h₁.rewinding

theorem wp_coverTasks (batchSize : ℕ) (shutdownHeight : Option ℕ) (n m : ℕ) {prevTip : ChainBlock}
    (hw : ScannedTo prevTip.height w) (i : SyncTask) :
    wp (assumingCovered T) (coverRely i) (coverOk i) (fun _ _ => True)
      (syncTasks U batchSize shutdownHeight prevTip n m i) w := by
  cases i with
  | steadyState =>
    show wpE (assumingCovered T) CoverRely steadyOk (fun _ _ => True)
      (steadyState U prevTip shutdownHeight n >>= fun _ => pure ()) w
    rw [wpE_bind]
    refine wpE_post (wpE_steadyState_cover U shutdownHeight prevTip n hw) fun r w' _ => ?_
    cases r with
    | ok a => trivial
    | error e => trivial
  | recoverHistory =>
    have hp : wpE (contract T) BoundaryRises historyOk (fun _ _ => True)
        (recoverHistory U batchSize shutdownHeight m >>= fun _ => pure ()) w.1 := by
      rw [wpE_bind]
      refine wpE_post (wpE_recoverHistory_cover U shutdownHeight batchSize m w.1) fun r w' _ => ?_
      cases r with
      | ok a => trivial
      | error e => trivial
    exact wp_along Prod.fst (fun o w r w' h => h.1.1.1) (fun w w' h => h) hp

/-- Every interleaving of the two tasks, with any chain tips and with rescans
    that discard only blocks below the boundary: `steady_state` starts each turn
    with no rewind half done, and unless one is, whenever no suggested range
    reaches below the boundary, every height from the wallet's birthday up to
    `prev_tip` has been scanned. -/
theorem no_gap (T : BlockTree BlockHash) (U : Upstream) (batchSize : ℕ)
    (shutdownHeight : Option ℕ) (n m : ℕ) (w : SyncWorld) (chainTip : ℕ)
    (hw : CaughtUp w chainTip)
    (c : Pool syncSig (SyncWorld × QueueState) SyncTask (Except SyncError Unit))
    (h : Pool.Reach (fun _ => coverContract T) (rescans Recoverable)
      ⟨syncTasks U batchSize shutdownHeight w.prevTip n m, (w, ⟨chainTip, False⟩)⟩ c) :
    ((c.progs .steadyState).next = some (.chain .snapshot) → ¬ c.world.2.rewinding) ∧
    (¬ c.world.2.rewinding → ∀ ranges, Suggests c.world ranges →
      selectHistoricRange U ranges c.world.1.boundary = none → FullyCovered c.world.1) := by
  have hstart : ScannedTo w.prevTip.height (w, (⟨chainTip, False⟩ : QueueState)) :=
    ⟨hw.scanned, hw.chainTip⟩
  have hcovered : Covered (w, (⟨chainTip, False⟩ : QueueState)) := by
    refine ⟨fun c hc => ?_, fun _ => hstart⟩
    have hle := hw.checkpoints c hc
    exact ⟨fun k hk hkc => hw.scanned k hk (hkc.trans hle), hle.trans hw.chainTip⟩
  have htrans : ∀ i (w₁ w₂ w₃ : SyncWorld × QueueState), coverRely i w₁ w₂ → coverRely i w₂ w₃ →
      coverRely i w₁ w₃ := by
    intro i w₁ w₂ w₃ h₁ h₂
    cases i with
    | steadyState => exact CoverRely.trans h₁ h₂
    | recoverHistory => exact le_trans h₁ h₂
  have hrefl : ∀ i (w : SyncWorld × QueueState), coverRely i w w := by
    intro i w
    cases i with
    | steadyState => exact ⟨⟨rfl, rfl, rfl, fun _ _ => id⟩, le_rfl, rfl⟩
    | recoverHistory => exact le_rfl
  have hguar : ∀ i j, i ≠ j → ∀ o (w : SyncWorld × QueueState) r w', coverOk j o w →
      coverContract T o w r w' → coverRely i w w' := by
    intro i j hij o w r w' hok hC
    cases i with
    | recoverHistory => exact boundaryRises_step hC
    | steadyState =>
      cases j with
      | steadyState => exact absurd rfl hij
      | recoverHistory => exact historyOk_rely hok hC
  have henv : ∀ i w w', rescans Recoverable w w' → coverRely i w w' := by
    intro i w w' he
    cases i with
    | steadyState => exact rescan_rely he
    | recoverHistory =>
      obtain ⟨height, -, rfl⟩ := he
      exact le_rfl
  have hstep : ∀ i o (w : SyncWorld × QueueState) r w', coverOk i o w →
      coverContract T o w r w' → Covered w → Covered w' :=
    fun _ _ _ _ _ hok hC hw => hw.task hok hC
  have hrescan : ∀ w w', rescans Recoverable w w' → Covered w → Covered w' :=
    fun _ _ he hw => hw.rescan he
  have hwps := wp_coverTasks (T := T) (U := U) batchSize shutdownHeight n m hstart
  obtain ⟨hc, hwp⟩ := Pool.assume_inv (C := fun _ => coverContract T) (Q := fun _ _ _ => True)
    (c := ⟨syncTasks U batchSize shutdownHeight w.prevTip n m, (w, ⟨chainTip, False⟩)⟩)
    htrans hrefl hguar henv hstep hrescan hwps hcovered h
  constructor
  · intro hnext
    obtain ⟨k, hk⟩ := Prog.next_eq_some.mp hnext
    obtain ⟨w₁, hw₁, hwp₁⟩ := hwp .steadyState
    rw [hk] at hwp₁
    exact (hwp₁ _ hw₁).1
  · intro hr ranges hranges hnone birthday hb k hbk hkt
    obtain ⟨hfilled, htip⟩ := hc.prevTip hr
    by_cases hk : c.world.1.boundary ≤ k
    · exact hfilled k ⟨⟨birthday, hb, hbk⟩, hk⟩ hkt
    · -- below the boundary an unscanned height would be suggested
      by_contra hsome
      have hunscanned : c.world.1.db.blocks k = none := by simpa using hsome
      obtain ⟨r, hr, hstart, hstop⟩ :=
        (hranges k).mpr ⟨⟨birthday, hb, hbk⟩, hkt.trans htip, hunscanned⟩
      unfold selectHistoricRange at hnone
      rw [List.head?_eq_none_iff, List.filterMap_eq_nil_iff] at hnone
      have hdropped := hnone r hr
      rw [U.truncateEnd_eq, if_pos (by omega)] at hdropped
      cases hdropped

end every

/-! ## Executions -/

/-- The operations that leave the database, the boundary and the recorded chain
    tip alone. -/
def leavesQueue : SyncOp → Bool
  | .db (.updateChainTip _) => false
  | .db (.truncateToHeight _) => false
  | .db (.putBlocks _ _) => false
  | .updateBoundary _ => false
  | _ => true

theorem leavesQueue_step {T : BlockTree BlockHash} {o : SyncOp} {w w' : SyncWorld × QueueState}
    {r : o.Ret} (ho : leavesQueue o = true) (h : coverContract T o w r w') :
    w'.1.db = w.1.db ∧ w'.1.boundary = w.1.boundary ∧ w'.2.chainTip = w.2.chainTip ∧
      (w'.2.rewinding → w.2.rewinding) := by
  have hq : w'.2.chainTip = w.2.chainTip ∧ (w'.2.rewinding → w.2.rewinding) := by
    rw [h.2]
    fun_cases QueueState.step o w.1 r w'.1 w.2 with
    | case1 => cases ho
    | case2 => cases ho
    | case3 => cases ho
    | case4 => exact ⟨rfl, False.elim⟩
    | case5 => exact ⟨rfl, id⟩
  rcases coverContract_cases h with hu | ⟨block, rfl, rfl⟩ | ⟨height, landed, rfl, -⟩ |
    ⟨fromState, blocks, checkpoints, rfl, -⟩
  · refine ⟨hu.db, hu.sameBoundary ?_, hq⟩
    rintro height rfl
    cases ho
  · exact ⟨rfl, rfl, hq⟩
  · cases ho
  · cases ho

theorem leavesQueue_reaches {T : BlockTree BlockHash} {α : Type} {p p' : Prog syncSig α}
    {w w' : SyncWorld × QueueState} {τ : List (Event syncSig)}
    (h : Reaches (coverContract T) p w τ p' w') (hτ : ∀ ev ∈ τ, leavesQueue ev.op = true) :
    w'.1.db = w.1.db ∧ w'.1.boundary = w.1.boundary ∧ w'.2.chainTip = w.2.chainTip ∧
      (w'.2.rewinding → w.2.rewinding) := by
  induction h with
  | refl p w => exact ⟨rfl, rfl, rfl, id⟩
  | step hC _ ih =>
    rw [List.forall_mem_cons] at hτ
    obtain ⟨hd, hb, ht, hr⟩ := leavesQueue_step hτ.1 hC
    obtain ⟨hd', hb', ht', hr'⟩ := ih hτ.2
    exact ⟨hd'.trans hd, hb'.trans hb, ht'.trans ht, fun h => hr (hr' h)⟩

/-- The operations that store blocks or discard them. -/
def movesBlocks : SyncOp → Bool
  | .db (.truncateToHeight _) => true
  | .db (.putBlocks _ _) => true
  | _ => false

theorem movesBlocks_reaches {T : BlockTree BlockHash} {α : Type} {p p' : Prog syncSig α}
    {w w' : SyncWorld × QueueState} {τ : List (Event syncSig)}
    (h : Reaches (coverContract T) p w τ p' w') (hτ : ∀ ev ∈ τ, movesBlocks ev.op = false) :
    w'.1.db = w.1.db := by
  induction h with
  | refl p w => rfl
  | step hC _ ih =>
    rw [List.forall_mem_cons] at hτ
    rw [ih hτ.2]
    rcases coverContract_cases hC with hu | ⟨block, rfl, rfl⟩ | ⟨height, landed, rfl, -⟩ |
      ⟨fromState, blocks, checkpoints, rfl, -⟩
    · exact hu.db
    · rfl
    · cases hτ.1
    · cases hτ.1

/-- The operations that raise the recorded chain tip to at most `bound`, and discard
    nothing. -/
def raisesAtMost (bound : ℕ) : SyncOp → Bool
  | .db (.updateChainTip height) => decide (height ≤ bound)
  | .db (.truncateToHeight _) => false
  | .db (.putBlocks _ blocks) => blocks.all fun b => decide (b.height ≤ bound)
  | _ => true

theorem foldr_max_le {blocks : List ScannedBlock} {tip bound : ℕ} (htip : tip ≤ bound)
    (h : ∀ b ∈ blocks, b.height ≤ bound) : (blocks.map (·.height)).foldr max tip ≤ bound := by
  induction blocks with
  | nil => exact htip
  | cons b blocks ih =>
    rw [List.forall_mem_cons] at h
    exact max_le h.1 (ih h.2)

theorem raisesAtMost_step {T : BlockTree BlockHash} {o : SyncOp} {w w' : SyncWorld × QueueState}
    {r : o.Ret} {bound : ℕ} (ho : raisesAtMost bound o = true) (h : coverContract T o w r w')
    (htip : w.2.chainTip ≤ bound) (hr : ¬ w.2.rewinding) :
    w'.2.chainTip ≤ bound ∧ ¬ w'.2.rewinding := by
  rw [h.2]
  revert htip hr
  fun_cases QueueState.step o w.1 r w'.1 w.2 with
  | case1 height =>
    intro htip hr
    exact ⟨max_le htip (of_decide_eq_true ho), hr⟩
  | case2 fromState blocks =>
    intro htip hr
    have hall : ∀ b ∈ blocks, b.height ≤ bound := by simpa [raisesAtMost] using ho
    exact ⟨foldr_max_le htip hall, hr⟩
  | case3 => cases ho
  | case4 =>
    intro htip _
    exact ⟨htip, id⟩
  | case5 =>
    intro htip hr
    exact ⟨htip, hr⟩

theorem raisesAtMost_reaches {T : BlockTree BlockHash} {α : Type} {p p' : Prog syncSig α}
    {w w' : SyncWorld × QueueState} {τ : List (Event syncSig)} {bound : ℕ}
    (h : Reaches (coverContract T) p w τ p' w') (hτ : ∀ ev ∈ τ, raisesAtMost bound ev.op = true)
    (htip : w.2.chainTip ≤ bound) (hr : ¬ w.2.rewinding) :
    w'.2.chainTip ≤ bound ∧ ¬ w'.2.rewinding := by
  induction h with
  | refl p w => exact ⟨htip, hr⟩
  | step hC _ ih =>
    rw [List.forall_mem_cons] at hτ
    obtain ⟨htip₁, hr₁⟩ := raisesAtMost_step hτ.1 hC htip hr
    exact ih hτ.2 htip₁ hr₁

/-- A script stores checkpoints as `put_blocks` does. -/
theorem replay_checkpointed (s : Script) : Handler.Keeps s.replay
    (fun o w r w' => contract s.tree o w r w' ∧ Checkpointed o w.db w'.db) Replay.world := by
  intro o σ r σ' h
  refine ⟨s.replay_keeps o σ r σ' h, ?_⟩
  cases o with
  | db o =>
    cases o with
    | putBlocks fromState blocks =>
      intro c hc
      simp only [Script.replay] at h
      split at h
      · split at h
        · cases h
          exact Or.inl hc
        · cases h
      · cases h
        cases hf : blocks.find? fun b => (σ.world.db.blocks b.height).any (· ≠ b.hash) with
        | some b =>
          simp only [Script.dbAnswer, hf] at hc
          exact Or.inl hc
        | none =>
          simp only [Script.dbAnswer, hf, List.mem_append, List.mem_map] at hc
          rcases hc with hc | ⟨b, hb, rfl⟩
          · exact Or.inl hc
          · exact Or.inr ⟨b, hb, Or.inl rfl⟩
    | _ => trivial
  | _ => trivial

/-! ## A rescan below the boundary -/

/-- A wallet born at height 1 that has reached the tip 2. -/
def behind : SyncWorld where
  db := ⟨fun h => if 1 ≤ h ∧ h ≤ 2 then some (forkBlock 0 h) else none, [2], some 1⟩
  signals := .initial
  prevTip := ⟨2, forkBlock 0 2⟩
  boundary := updateBoundary 0 2

theorem behind_caughtUp : CaughtUp behind 2 where
  scanned := by
    rintro h ⟨⟨birthday, hb, hle⟩, -⟩ hh
    obtain rfl : birthday = 1 := (Option.some.inj hb).symm
    have hrange : 1 ≤ h ∧ h ≤ 2 := ⟨hle, hh⟩
    simp [behind, hrange]
  chainTip := le_rfl
  checkpoints := by simp [behind]

/-- The queue suggests what the rescan discards. -/
def rescannedLow : Script :=
  { Script.quiet (forkTree 6) with suggestions := [⟨⟨1, 3⟩, .Historic⟩] }

/-- The tasks, for one turn each. -/
def turnsLow : SyncTask → Prog syncSig (Except SyncError Unit) :=
  syncTasks .watchNothing 10 none behind.prevTip 1 1

/-- The chain has grown to height 103, and `steady_state` has raised the boundary to 3. -/
def raised : Prog syncSig (Except SyncError Unit) × Replay :=
  (exec rescannedLow.replay 6 (turnsLow .steadyState)
    ⟨behind, List.replicate 2 (.ok ⟨⟨103, forkBlock 0 103⟩⟩)⟩).2

/-- A rescan for an account born at height 1 comes in between. -/
def discarded : Replay :=
  { raised.2 with world := { raised.2.world with db := raised.2.world.db.truncate 0 } }

/-- `steady_state` goes on with its turn, up to the tip. -/
def scannedOn : Prog syncSig (Except SyncError Unit) × Replay :=
  (exec rescannedLow.replay 1000 raised.1 discarded).2

/-- `recover_history` takes a turn. -/
def recovered : Prog syncSig (Except SyncError Unit) × Replay :=
  (exec rescannedLow.replay 100 (turnsLow .recoverHistory) scannedOn.2).2

/-- Then nothing is missing. -/
theorem recovered_suggests {q : QueueState} (htip : q.chainTip ≤ 103) :
    Suggests (recovered.2.world, q) [] := by
  have hbirthday : recovered.2.world.db.birthday = some 1 := by decide +kernel
  have hall : ∀ h ∈ List.range' 1 103, (recovered.2.world.db.blocks h).isSome := by
    decide +kernel
  intro h
  constructor
  · rintro ⟨r, hr, -⟩
    cases hr
  · rintro ⟨⟨birthday, hb, hle⟩, hh, hnone⟩
    simp only at hb hh hnone
    rw [hbirthday] at hb
    obtain rfl : 1 = birthday := Option.some.inj hb
    have hsome := hall h (List.mem_range'_1.mpr ⟨hle, by omega⟩)
    rw [hnone] at hsome
    cases hsome

/-- A rescan discards the blocks 1 and 2 while `steady_state` is more than 100 blocks behind
    the tip: `recover_history` scans them again. -/
theorem no_gap_rescanned :
    ∃ c₁ w₂ c, Pool.Reach (fun _ => coverContract (forkTree 6)) (rescans Recoverable)
        ⟨turnsLow, (behind, ⟨2, False⟩)⟩ c₁ ∧
      rescans Recoverable c₁.world w₂ ∧ (c₁.world.1.db.blocks 2).isSome ∧
      w₂.1.db.blocks 2 = none ∧
      Pool.Reach (fun _ => coverContract (forkTree 6)) (rescans Recoverable) ⟨c₁.progs, w₂⟩ c ∧
      (∀ i, (c.progs i).result = some (.ok ())) ∧ c.world.1.prevTip.height = 103 ∧
      FullyCovered c.world.1 := by
  have hraise := exec_reaches (replay_checkpointed rescannedLow) 6 (turnsLow .steadyState)
    ⟨behind, List.replicate 2 (.ok ⟨⟨103, forkBlock 0 103⟩⟩)⟩
  have hscan := exec_run (replay_checkpointed rescannedLow) (n := 1000) (p := raised.1)
    (s := discarded) (a := .ok ()) (by decide +kernel)
  have hrecover := exec_run (replay_checkpointed rescannedLow) (n := 100)
    (p := turnsLow .recoverHistory) (s := scannedOn.2) (a := .ok ()) (by decide +kernel)
  have hscannedOn : (exec rescannedLow.replay 1000 raised.1 discarded).2 = scannedOn := by
    rw [scannedOn]
  have hrecovered : (exec rescannedLow.replay 100 (turnsLow .recoverHistory) scannedOn.2).2 =
      recovered := by
    rw [recovered]
  rw [hscannedOn] at hscan
  rw [hrecovered] at hrecover
  obtain ⟨q₁, hraise⟩ := hraise.observed QueueState.step ⟨2, False⟩
  obtain ⟨q₂, hscan⟩ := hscan.observed QueueState.step q₁
  obtain ⟨q₃, hrecover⟩ := hrecover.observed QueueState.step q₂
  -- no block is stored before the rescan, and all it discards is below the boundary
  have hd : raised.2.world.db = behind.db := movesBlocks_reaches hraise (by decide +kernel)
  have hrescan : rescans Recoverable (raised.2.world, q₁) (discarded.world, q₁) := by
    refine ⟨0, fun h _ hboundary => ?_, rfl⟩
    have hthree : raised.2.world.boundary = 3 := by decide +kernel
    rw [hthree] at hboundary
    have hout : ¬ (1 ≤ h ∧ h ≤ 2) := by omega
    rw [hd]
    simp [behind, hout]
  -- the queue knows the tip 103
  have hknown : q₁.chainTip ≤ 103 ∧ ¬ q₁.rewinding :=
    raisesAtMost_reaches hraise (by decide +kernel) (by decide) not_false
  obtain ⟨ht₁, hr₁⟩ := hknown
  obtain ⟨ht₂, hr₂⟩ := raisesAtMost_reaches hscan (by decide +kernel) ht₁ hr₁
  obtain ⟨ht₃, hr₃⟩ := raisesAtMost_reaches hrecover (by decide +kernel) ht₂ hr₂
  let before : SyncTask → Prog syncSig (Except SyncError Unit) :=
    Function.update turnsLow .steadyState raised.1
  have hfirst : Pool.Reach (fun _ => coverContract (forkTree 6)) (rescans Recoverable)
      ⟨turnsLow, (behind, ⟨2, False⟩)⟩ ⟨before, (raised.2.world, q₁)⟩ :=
    Pool.reach_of_reaches (i := SyncTask.steadyState) hraise turnsLow rfl
  have hscanned : Pool.Reach (fun _ => coverContract (forkTree 6)) (rescans Recoverable)
      ⟨before, (discarded.world, q₁)⟩ ⟨_, (scannedOn.2.world, q₂)⟩ :=
    Pool.reach_of_reaches (i := SyncTask.steadyState) hscan before (Function.update_self ..)
  have hrest := hscanned.trans (Pool.reach_of_reaches (i := SyncTask.recoverHistory) hrecover _ rfl)
  have hreach := hfirst.trans ((Relation.ReflTransGen.single (.env hrescan)).trans hrest)
  have hdone : ∀ i, ((Function.update (Function.update before .steadyState (.pure (.ok ())))
      .recoverHistory (.pure (.ok ()))) i).result = some (.ok ()) := by
    intro i
    cases i with
    | steadyState => rfl
    | recoverHistory => rfl
  have hselect : ∀ boundary, selectHistoricRange .watchNothing [] boundary = none := fun _ => rfl
  obtain ⟨-, hcovers⟩ :=
    no_gap (forkTree 6) .watchNothing 10 none 1 1 behind 2 behind_caughtUp _ hreach
  dsimp only at hcovers
  have hfull := hcovers hr₃ [] (recovered_suggests ht₃) (hselect _)
  have hgone : discarded.world.db.blocks 2 = none := by decide +kernel
  have htip : recovered.2.world.prevTip.height = 103 := by decide +kernel
  refine ⟨_, _, _, hfirst, hrescan, ?_, hgone, hrest, hdone, ?_, ?_⟩
  · dsimp only
    rw [hd]
    rfl
  · dsimp only
    exact htip
  · dsimp only
    exact hfull

/-! ## A rescan at the tip -/

/-- A wallet born at height 100 that has reached the tip 200. -/
def atTip : SyncWorld where
  db := ⟨fun h => if 100 ≤ h ∧ h ≤ 200 then some (forkBlock 0 h) else none, [200], some 100⟩
  signals := .initial
  prevTip := ⟨200, forkBlock 0 200⟩
  boundary := updateBoundary 0 200

theorem atTip_caughtUp : CaughtUp atTip 200 where
  scanned := by
    rintro h ⟨⟨birthday, hb, hle⟩, -⟩ hh
    obtain rfl : birthday = 100 := (Option.some.inj hb).symm
    have hrange : 100 ≤ h ∧ h ≤ 200 := ⟨hle, hh⟩
    simp [atTip, hrange]
  chainTip := le_rfl
  checkpoints := by simp [atTip]

/-- After the rescan the queue suggests what was discarded. -/
def rescanned : Script :=
  { Script.quiet (forkTree 6) with suggestions := [⟨⟨100, 201⟩, .Historic⟩] }

/-- The tasks, for one turn each. -/
def turnEach : SyncTask → Prog syncSig (Except SyncError Unit) :=
  syncTasks .watchNothing 10 none atTip.prevTip 1 1

/-- The world after a rescan for an account born at height 100. -/
def afterImport : Replay :=
  ⟨{ atTip with db := atTip.db.truncate 99 }, [.ok ⟨⟨200, forkBlock 0 200⟩⟩]⟩

/-- The world after a turn of `steady_state` in which the tip has not changed. -/
def afterSteady : Replay := (exec rescanned.replay 30 (turnEach .steadyState) afterImport).2.2

/-- The world after a turn of `recover_history`, too. -/
def afterHistory : Replay := (exec rescanned.replay 30 (turnEach .recoverHistory) afterSteady).2.2

/-- After the rescan `steady_state` takes a turn in which the tip has not changed,
    and `recover_history` one in which it finds no range: the discarded heights
    are not scanned again. -/
theorem gap_after_rescan : CaughtUp atTip 200 ∧
    ∃ c ranges, Pool.Reach (fun _ => coverContract (forkTree 6)) (rescans fun _ _ => True)
        ⟨syncTasks .watchNothing 10 none atTip.prevTip 1 1, (atTip, ⟨200, False⟩)⟩ c ∧
      (∀ i, (c.progs i).result = some (.ok ())) ∧ ¬ c.world.2.rewinding ∧
      c.world.1.prevTip = atTip.prevTip ∧ Suggests c.world ranges ∧
      selectHistoricRange .watchNothing ranges c.world.1.boundary = none ∧
      ¬ FullyCovered c.world.1 := by
  have hrescan : Pool.Step (fun _ => coverContract (forkTree 6)) (rescans fun _ _ => True)
      ⟨turnEach, (atTip, ⟨200, False⟩)⟩ ⟨turnEach, (afterImport.world, ⟨200, False⟩)⟩ :=
    .env ⟨99, trivial, rfl⟩
  have hsteady := exec_run (replay_checkpointed rescanned) (n := 30) (p := turnEach .steadyState)
    (s := afterImport) (a := .ok ()) (by decide +kernel)
  have hhistory := exec_run (replay_checkpointed rescanned) (n := 30)
    (p := turnEach .recoverHistory) (s := afterSteady) (a := .ok ()) (by decide +kernel)
  obtain ⟨q₁, hsteady⟩ := hsteady.observed QueueState.step ⟨200, False⟩
  obtain ⟨q₂, hhistory⟩ := hhistory.observed QueueState.step q₁
  obtain ⟨hd₁, hb₁, ht₁, hr₁⟩ := leavesQueue_reaches hsteady (by decide +kernel)
  obtain ⟨hd₂, hb₂, ht₂, hr₂⟩ := leavesQueue_reaches hhistory (by decide +kernel)
  have hd : afterHistory.world.db = afterImport.world.db := hd₂.trans hd₁
  have ht : q₂.chainTip = 200 := ht₂.trans ht₁
  have hreach := ((Relation.ReflTransGen.single hrescan).trans
    (Pool.reach_of_reaches (i := SyncTask.steadyState) hsteady turnEach rfl)).trans
    (Pool.reach_of_reaches (i := SyncTask.recoverHistory) hhistory _ rfl)
  have hdone : ∀ i, ((Function.update (Function.update turnEach .steadyState (.pure (.ok ())))
      .recoverHistory (.pure (.ok ()))) i).result = some (.ok ()) := by
    intro i
    cases i with
    | steadyState => rfl
    | recoverHistory => rfl
  have hprevTip : afterHistory.world.prevTip = atTip.prevTip := by decide +kernel
  have hsuggests : Suggests (afterHistory.world, q₂) [⟨⟨100, 201⟩, .Historic⟩] := by
    intro h
    rw [hd, ht]
    constructor
    · rintro ⟨r, hr, hle, hlt⟩
      obtain rfl := List.mem_singleton.mp hr
      simp only at hle hlt
      have hout : ¬ h ≤ 99 := by omega
      exact ⟨⟨100, rfl, hle⟩, by omega, by simp [afterImport, hout]⟩
    · rintro ⟨⟨birthday, hb, hle⟩, htip, -⟩
      obtain rfl : birthday = 100 := (Option.some.inj hb).symm
      exact ⟨_, List.mem_singleton_self _, hle, Nat.lt_succ_of_le htip⟩
  have hselect : selectHistoricRange .watchNothing [⟨⟨100, 201⟩, .Historic⟩]
      afterHistory.world.boundary = none := by decide +kernel
  have hgap : ¬ FullyCovered afterHistory.world := by
    intro hfull
    have h150 := hfull 100 (by rw [hd]; rfl) 150 (by decide) (by rw [hprevTip]; decide)
    rw [hd] at h150
    exact absurd h150 (by decide +kernel)
  exact ⟨atTip_caughtUp, ⟨_, (afterHistory.world, q₂)⟩, _, hreach, hdone, fun h => hr₁ (hr₂ h),
    hprevTip, hsuggests, hselect, hgap⟩

end Zallet.Sync
