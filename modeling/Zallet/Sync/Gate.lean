import Zallet.Effect.Pool
import Zallet.Sync.OneChain
import Zallet.Sync.RecoverHistory

/-!
# The spend and balance gate

The JSON-RPC layer lets a caller spend or read balances when the published
status is `Synced`. `steady_state` and `recover_history` write the four signals
behind it one at a time, while the database changes in steps of its own.

`GateHistory` records, as ghost state, whether `steady_state` has removed blocks
and not yet come to the tip of a captured view again. A reader can see `Synced`
in that time in two ways, and `Gated` excludes exactly these:

* All three recovery paths truncate the wallet first and announce the recovery
  afterwards.
* A rewind that finds no checkpoint at or below the fork point lands on the
  lowest one. If that is a block of the old fork at or above the new tip, there
  is nothing to apply and the tip is announced all the same.

`wpE_steadyState_gate` says that otherwise `steady_state` ends a recovery only
at the tip of a view, whatever the other tasks do, and `gate_covers_rewinds` is
about every interleaving.
-/

namespace Zallet.Sync

open Zallet.Effect Zallet.Common Zallet.Chain Zallet.Wallet

/-- The view `steady_state` captured last, and whether it has removed blocks
    and not come to the tip of a captured view since. -/
structure GateHistory where
  view : Option ChainView
  rewound : Prop

/-- A rewind to `landed` removes a block. -/
def Removes (d : WalletDb) (landed : ℕ) : Prop := ∃ h, landed < h ∧ d.blocks h ≠ none

/-- The history of `steady_state`, operation by operation. The blocks up to the
    tip of a view are there again when `prev_tip` is that tip: the last block
    applied, or a block the wallet has been rewound to. -/
def GateHistory.step : (o : SyncOp) → SyncWorld → o.Ret → SyncWorld → GateHistory → GateHistory
  | .chain .snapshot, w, .ok view, _, g => ⟨some view, g.rewound ∧ w.prevTip ≠ view.tip⟩
  | .db (.truncateToHeight _), w, .ok landed, _, g => ⟨g.view, g.rewound ∨ Removes w.db landed⟩
  | .setPrevTip block, _, _, _, g =>
    ⟨g.view, g.rewound ∧ ∀ view, g.view = some view → block ≠ view.tip⟩
  | _, _, _, _, g => g

/-- Blocks are removed only while a recovery is announced, or before the tip
    has first been reached; and while blocks are missing, an iteration starts
    to apply blocks below the tip of its view. -/
def Gated : (o : SyncOp) → SyncWorld × GateHistory → o.Ret → Prop
  | .db (.truncateToHeight _), w, .ok landed =>
    Removes w.1.db landed → w.1.signals.recovering.isSome ∨ w.1.signals.tipReached = false
  | .chain (.streamBlocksToTip view _), w, _ =>
    w.2.rewound → w.1.prevTip.height < view.tip.height
  | _, _, _ => True

/-- The two tasks that write the signals. -/
inductive SyncTask
  | steadyState
  | recoverHistory
  deriving DecidableEq

/-- Their operations, with the history of `steady_state` recorded. `K` is what
    is assumed of the steps of `steady_state`. -/
def gateContract (T : BlockTree BlockHash)
    (K : (o : SyncOp) → SyncWorld × GateHistory → o.Ret → Prop) :
    SyncTask → Contract syncSig (SyncWorld × GateHistory)
  | .steadyState => ((contract T).observed GateHistory.step).restrict K
  | .recoverHistory => (contract T).observed fun _ _ _ _ g => g

/-- The programs of the two tasks, for `n` and `m` turns. -/
def syncTasks (U : Upstream) (batchSize : ℕ) (shutdownHeight : Option ℕ) (prevTip : ChainBlock)
    (n m : ℕ) : SyncTask → Prog syncSig (Except SyncError Unit)
  | .steadyState => (steadyState U prevTip shutdownHeight n >>= fun _ => pure ()).run
  | .recoverHistory => (recoverHistory U batchSize shutdownHeight m >>= fun _ => pure ()).run

/-- Other connections change the database. -/
def otherConnections (w w' : SyncWorld × GateHistory) : Prop :=
  ∃ d, w' = ({ w.1 with db := d }, w.2)

/-! ## What `steady_state` relies on and guarantees -/

/-- The other tasks touch neither `prev_tip` nor the history. -/
def GateRely (w w' : SyncWorld × GateHistory) : Prop :=
  w'.1.prevTip = w.1.prevTip ∧ w'.2 = w.2

/-- A recovery is ended, and the tip announced, only when no block is missing. -/
def GateOk (o : SyncOp) (w : SyncWorld × GateHistory) : Prop :=
  o = .status .markTipReached ∨ o = .status .endRecovery → ¬ w.2.rewound

/-- While an iteration works on `view` and blocks are missing, `prev_tip` is not
    its tip. -/
structure OnTrack (view : ChainView) (w : SyncWorld × GateHistory) : Prop where
  captured : w.2.view = some view
  rewound : w.2.rewound → w.1.prevTip ≠ view.tip

theorem OnTrack.rely {view : ChainView} {w w' : SyncWorld × GateHistory} (h : OnTrack view w)
    (hr : GateRely w w') : OnTrack view w' := by
  obtain ⟨hp, hg⟩ := hr
  exact ⟨by rw [hg]; exact h.captured, by rw [hg, hp]; exact h.rewound⟩

/-- The operations that touch neither `prev_tip` nor the history, and announce
    nothing. -/
def neutral : Bounds syncSig SyncError where
  ops
    | .chain .snapshot => False
    | .db (.truncateToHeight _) => False
    | .setPrevTip _ => False
    | .status .markTipReached => False
    | .status .endRecovery => False
    | _ => True
  answers _ _ := True
  errors _ := True

theorem scanning_neutral : Scanning neutral where
  reads o ho := by
    unfold neutral
    simp only
    split
    · exact ho
    · exact ho
    · exact ho
    · exact ho
    · exact ho
    · trivial
  chainError _ _ _ := trivial
  otherError _ _ := trivial
  puts _ _ := trivial
  streamError _ _ _ _ _ _ := trivial

theorem neutral_step {o : SyncOp} (ho : neutral.ops o) (w w' : SyncWorld) (r : o.Ret)
    (g : GateHistory) : GateHistory.step o w r w' g = g := by
  fun_cases GateHistory.step o w r w' g with
  | case1 => exact ho.elim
  | case2 => exact ho.elim
  | case3 => exact ho.elim
  | case4 => rfl

theorem neutral_ok {o : SyncOp} (ho : neutral.ops o) (w : SyncWorld × GateHistory) :
    GateOk o w := by
  rintro (rfl | rfl)
  · exact ho.elim
  · exact ho.elim

theorem neutral_prevTip {T : BlockTree BlockHash} {o : SyncOp} (ho : neutral.ops o)
    {w w' : SyncWorld} {r : o.Ret} (h : contract T o w r w') : w'.prevTip = w.prevTip := by
  rcases contract_cases h with rfl | ⟨s, -, rfl⟩ | ⟨block, rfl, -⟩ | ⟨tipHeight, -, rfl⟩ |
    ⟨height, landed, -, -, rfl⟩ | ⟨fromState, blocks, checkpoints, -, -, rfl⟩
  · rfl
  · rfl
  · exact ho.elim
  · rfl
  · rfl
  · rfl

/-- A block can only become missing through a rewind. -/
theorem GateHistory.step_rewound {o : SyncOp} {w w' : SyncWorld} {r : o.Ret} {g : GateHistory}
    (h : (GateHistory.step o w r w' g).rewound) :
    g.rewound ∨ ((∃ height, o = .db (.truncateToHeight height)) ∧
      (Gated o (w, g) r → w.signals.recovering.isSome ∨ w.signals.tipReached = false)) := by
  revert h
  fun_cases GateHistory.step o w r w' g with
  | case1 w view => exact fun h => Or.inl h.1
  | case2 height w landed =>
    rintro (h | h)
    · exact Or.inl h
    · exact Or.inr ⟨⟨height, rfl⟩, fun hK => hK h⟩
  | case3 block => exact fun h => Or.inl h.1
  | case4 => exact fun h => Or.inl h

theorem GateHistory.step_view {o : SyncOp} {w w' : SyncWorld} {r : o.Ret} {g : GateHistory}
    (ho : o ≠ .chain .snapshot) : (GateHistory.step o w r w' g).view = g.view := by
  fun_cases GateHistory.step o w r w' g with
  | case1 w view => exact absurd rfl ho
  | case2 => rfl
  | case3 => rfl
  | case4 => rfl

/-- A program that captures no view and announces nothing. -/
def quietRewind : Bounds syncSig SyncError where
  ops o := o ≠ .chain .snapshot ∧ o ≠ .status .markTipReached ∧ o ≠ .status .endRecovery
  answers _ _ := True
  errors _ := True

theorem lookups_quietRewind : Lookups quietRewind where
  reads o ho := ⟨fun h => by rw [h] at ho; exact ho, fun h => by rw [h] at ho; exact ho,
    fun h => by rw [h] at ho; exact ho⟩
  chainError _ _ _ := trivial
  otherError _ _ := trivial

/-- A program that rewinds nothing. -/
def noRewind : Bounds syncSig SyncError where
  ops o := ∀ height, o ≠ .db (.truncateToHeight height)
  answers _ _ := True
  errors _ := True

theorem lookups_noRewind : Lookups noRewind where
  reads o ho height h := by
    rw [h] at ho
    exact ho
  chainError _ _ _ := trivial
  otherError _ _ := trivial

section steady

variable {T : BlockTree BlockHash} {w : SyncWorld × GateHistory}

/-- A neutral program leaves `prev_tip` and the history as they are. -/
theorem wpE_neutral {α : Type} {p : SyncM α} (hp : Within neutral p)
    {Q : Except SyncError α → SyncWorld × GateHistory → Prop}
    (hQ : ∀ r w', GateRely w w' → Q r w') :
    wpE (gateContract T Gated .steadyState) GateRely GateOk Q p w := by
  refine wpE_post (wpE_of_within (I := GateRely w) hp ⟨rfl, rfl⟩ ?_ ?_) fun r w' h => hQ r w' h.2
  · rintro w₁ w₂ ⟨hp₁, hg₁⟩ ⟨hp₂, hg₂⟩
    exact ⟨hp₂.trans hp₁, hg₂.trans hg₁⟩
  · rintro o w₁ ho ⟨hp₁, hg₁⟩
    refine ⟨neutral_ok ho w₁, fun r w₂ hC => ⟨trivial, ?_⟩⟩
    obtain ⟨⟨hC, hg⟩, -⟩ := hC
    exact ⟨(neutral_prevTip ho hC).trans hp₁, by rw [hg, neutral_step ho, hg₁]⟩

theorem wpE_getPrevTip_gate {Q : Except SyncError ChainBlock → SyncWorld × GateHistory → Prop}
    (hQ : ∀ w', GateRely w w' → Q (.ok w'.1.prevTip) w') :
    wpE (gateContract T Gated .steadyState) GateRely GateOk Q (perform .getPrevTip) w := by
  refine wpE_perform.mpr fun w₁ hw => ⟨neutral_ok (by trivial) w₁, ?_⟩
  rintro r ⟨w₂, g₂⟩ ⟨⟨⟨rfl, hw₂⟩, hg⟩, -⟩
  obtain rfl : w₂ = w₁.1 := hw₂
  obtain rfl : g₂ = w₁.2 := hg
  exact hQ w₁ hw

/-- Setting `prev_tip` puts the iteration back on track. -/
theorem wpE_setPrevTip_gate {view : ChainView} (block : ChainBlock)
    (hview : w.2.view = some view)
    {Q : Except SyncError Unit → SyncWorld × GateHistory → Prop}
    (hQ : ∀ w', OnTrack view w' → w'.1.prevTip = block → Q (.ok ()) w') :
    wpE (gateContract T Gated .steadyState) GateRely GateOk Q (perform (.setPrevTip block)) w := by
  refine wpE_perform.mpr fun w₁ hw => ⟨?_, ?_⟩
  · rintro (h | h)
    · cases h
    · cases h
  · rintro r ⟨w₂, g₂⟩ ⟨⟨hw₂, hg⟩, -⟩
    have hg' : g₂ = ⟨w₁.2.view,
        w₁.2.rewound ∧ ∀ view, w₁.2.view = some view → block ≠ view.tip⟩ := hg
    have hw₂' : w₂ = { w₁.1 with prevTip := block } := hw₂
    rw [hw.2] at hg'
    refine hQ _ ⟨?_, ?_⟩ ?_
    · rw [hg']
      exact hview
    · rw [hg', hw₂']
      exact fun h => h.2 view hview
    · rw [hw₂']

variable (U : Upstream) {view : ChainView} {shutdownHeight : Option ℕ}

/-- The apply loop, started below the tip, ends at the tip if the stream is
    complete: then no block is missing. -/
theorem wpE_applyBlocks_gate (hwf : view.WF T) (blocks : List Block) {failure : Option ChainError}
    (hstream : Streams T view (view.tip.height + 1) (w.1.prevTip.height + 1) blocks failure)
    (hview : w.2.view = some view)
    (hbelow : w.2.rewound → w.1.prevTip.height < view.tip.height)
    {Q : Except SyncError (ControlFlow ℕ Unit) → SyncWorld × GateHistory → Prop}
    (hQ : ∀ w', (failure = none → ¬ w'.2.rewound) → Q (.ok (.Continue ())) w')
    (hB : ∀ boundary w', Q (.ok (.Break boundary)) w') (hE : ∀ e w', Q (.error e) w') :
    wpE (gateContract T Gated .steadyState) GateRely GateOk Q
      (applyBlocks U view shutdownHeight blocks) w := by
  induction blocks generalizing w with
  | nil =>
    refine hQ w ?_
    rintro rfl hr
    have hle : view.tip.height + 1 ≤ w.1.prevTip.height + 1 := hstream
    have := hbelow hr
    omega
  | cons block rest ih =>
    obtain ⟨hlt, hheight, hhash, hrest⟩ := hstream
    rw [applyBlocks, wpE_bind]
    refine wpE_getPrevTip_gate fun w₁ hw₁ => ?_
    rw [andThen_ok, wpE_bind]
    refine wpE_assert (fun _ => ?_) fun _ w' _ => neutral_ok (by trivial) w'
    rw [andThen_ok, wpE_bind]
    refine wpE_neutral (within_scanBlock U scanning_neutral view block shutdownHeight)
      fun r w₂ hw₂ => ?_
    cases r with
    | error e => exact hE e w₂
    | ok flow =>
      cases flow with
      | Break boundary => exact hB boundary w₂
      | Continue _ =>
        show wpE _ _ _ Q (db (.updateChainTip block.claimedHeight) >>= _) w₂
        rw [wpE_bind]
        refine wpE_neutral (within_db (by trivial) fun _ => trivial) fun r w₃ hw₃ => ?_
        cases r with
        | error e => exact hE e w₃
        | ok _ =>
          rw [andThen_ok, wpE_bind]
          have hview₃ : w₃.2.view = some view := by rw [hw₃.2, hw₂.2, hw₁.2, hview]
          refine wpE_setPrevTip_gate _ hview₃ fun w₄ hon₄ hp₄ => ?_
          refine ih ?_ hon₄.captured ?_
          · rw [hp₄, hheight]
            exact hrest
          · -- the block at the height of the tip is the tip
            intro hr
            have hne := hon₄.rewound hr
            rw [hp₄] at hne ⊢
            show block.claimedHeight < view.tip.height
            by_contra hge
            have htip : block.claimedHeight = view.tip.height := by omega
            apply hne
            rw [hhash, ← hheight, htip, hwf.hashAt_tip]

theorem wpE_applyToTip_gate (hwf : view.WF T) (hw : OnTrack view w)
    {Q : Except SyncError (ControlFlow ℕ Unit) → SyncWorld × GateHistory → Prop}
    (hQ : ∀ w', ¬ w'.2.rewound → Q (.ok (.Continue ())) w')
    (hB : ∀ boundary w', Q (.ok (.Break boundary)) w') (hE : ∀ e w', Q (.error e) w') :
    wpE (gateContract T Gated .steadyState) GateRely GateOk Q
      (applyToTip U view shutdownHeight) w := by
  unfold applyToTip
  rw [wpE_bind]
  refine wpE_getPrevTip_gate fun w₁ hw₁ => ?_
  rw [andThen_ok, wpE_bind]
  refine wpE_chain.mpr fun w₂ hw₂ => ⟨neutral_ok (by trivial) w₂, ?_⟩
  rintro r ⟨w₃, g₃⟩ ⟨⟨⟨hserves, hw₃⟩, hg₃⟩, hbelow⟩
  obtain rfl : w₃ = w₂.1 := hw₃
  obtain rfl : g₃ = w₂.2 := hg₃
  have hon : OnTrack view w₂ := (hw.rely hw₁).rely hw₂
  cases r with
  | error e => exact hE _ _
  | ok stream =>
    show wpE _ _ _ Q (applyBlocks U view shutdownHeight stream.blocks >>= _) w₂
    rw [wpE_bind]
    rw [← hw₂.1] at hserves
    refine wpE_applyBlocks_gate U hwf stream.blocks hserves hon.captured hbelow ?_ hB hE
    intro w₄ hend
    show wpE _ _ _ Q (endOfStream stream.failure >>= _) w₄
    rw [wpE_bind]
    cases hf : stream.failure with
    | some e => exact hE _ w₄
    | none => exact hQ w₄ (hend hf)

/-- The rewind, and `prev_tip` after it. -/
theorem wpE_rewindToForkPoint_gate (forkPoint prevTip : ChainBlock) (hw : OnTrack view w)
    {Q : Except SyncError Unit → SyncWorld × GateHistory → Prop}
    (hQ : ∀ w', OnTrack view w' → Q (.ok ()) w') (hE : ∀ e w', Q (.error e) w') :
    wpE (gateContract T Gated .steadyState) GateRely GateOk Q
      (rewindToForkPoint forkPoint prevTip) w := by
  unfold rewindToForkPoint
  split
  · rw [wpE_bind]
    refine wpE_assert (fun _ => ?_) fun _ w' _ => neutral_ok (by trivial) w'
    rw [andThen_ok, wpE_bind]
    -- the rewind leaves the captured view as it is
    have hp := within_truncateToWalletCheckpoint lookups_quietRewind (by simp [quietRewind])
      forkPoint.height
    refine wpE_post (wpE_of_within (I := fun w => w.2.view = some view) hp hw.captured ?_ ?_) ?_
    · rintro w₁ w₂ hv ⟨-, hg⟩
      rw [hg]
      exact hv
    · intro o w₁ ho hv
      refine ⟨fun h => absurd h (not_or.mpr ho.2), fun r w₂ hC => ⟨trivial, ?_⟩⟩
      rw [hC.1.2, GateHistory.step_view ho.1]
      exact hv
    · rintro r w₁ ⟨-, hv⟩
      cases r with
      | error e => exact hE e w₁
      | ok resumeFrom =>
        rw [andThen_ok, wpE_bind]
        refine wpE_neutral (within_perform (by trivial)) fun r w₂ hw₂ => ?_
        cases r with
        | error e => exact hE e w₂
        | ok _ =>
          rw [andThen_ok]
          refine wpE_setPrevTip_gate _ (by rw [hw₂.2]; exact hv) fun w₃ hon _ => ?_
          exact hQ w₃ hon
  · exact hQ w hw

/-- Without a missing block, the end of the iteration may announce the tip. -/
theorem wpE_finishIteration_gate (tipChanged : Bool) (hw : ¬ w.2.rewound) :
    wpE (gateContract T Gated .steadyState) GateRely GateOk (fun _ _ => True)
      (finishIteration view view.tip tipChanged shutdownHeight) w := by
  have hp : Within noRewind (finishIteration view view.tip tipChanged shutdownHeight) := by
    unfold finishIteration
    split
    · exact Within.pure _
    · refine (within_reachTip ?_ lookups_noRewind view tipChanged ?_ ?_).bind fun _ => Within.pure _
      · rintro o ho height rfl
        exact ho
      · simp [noRewind]
      · simp [noRewind]
  refine wpE_post (wpE_of_within (I := fun w => ¬ w.2.rewound) hp hw ?_ ?_) fun _ _ _ => trivial
  · rintro w₁ w₂ hr ⟨-, hg⟩
    rw [hg]
    exact hr
  · intro o w₁ ho hr
    refine ⟨fun _ => hr, fun r w₂ hC => ⟨trivial, fun hr₂ => ?_⟩⟩
    rw [hC.1.2] at hr₂
    rcases GateHistory.step_rewound hr₂ with h | ⟨⟨height, rfl⟩, -⟩
    · exact hr h
    · exact ho height rfl

theorem wpE_iterationOn_gate (hwf : view.WF T) (hw : OnTrack view w) :
    wpE (gateContract T Gated .steadyState) GateRely GateOk (fun _ _ => True)
      (iterationOn U view shutdownHeight) w := by
  unfold iterationOn
  rw [wpE_bind]
  refine wpE_chain.mpr fun w₁ hw₁ => ⟨neutral_ok (by trivial) w₁, ?_⟩
  rintro r ⟨w₂, g₂⟩ ⟨⟨⟨hserves, hw₂⟩, hg₂⟩, -⟩
  obtain rfl : w₂ = w₁.1 := hw₂
  obtain rfl : g₂ = w₁.2 := hg₂
  have hon : OnTrack view w₁ := hw.rely hw₁
  cases r with
  | error e => trivial
  | ok currentTip =>
    obtain rfl : currentTip = view.tip := hserves
    show wpE _ _ _ _ (perform .getPrevTip >>= _) w₁
    rw [wpE_bind]
    refine wpE_getPrevTip_gate fun w₃ hw₃ => ?_
    have hon₃ := hon.rely hw₃
    rw [andThen_ok]
    split
    · unfold followTip
      rw [wpE_bind, wpE_bind]
      refine wpE_neutral (within_announceTip (fun _ => trivial) (by trivial) (fun _ => trivial) _)
        fun r w₄ hw₄ => ?_
      cases r with
      | error e => trivial
      | ok _ =>
        rw [andThen_ok, wpE_bind]
        refine wpE_getPrevTip_gate fun w₅ hw₅ => ?_
        rw [andThen_ok, wpE_bind]
        refine wpE_neutral (within_locateForkPoint scanning_neutral.toLookups view _)
          fun r w₆ hw₆ => ?_
        cases r with
        | error e => trivial
        | ok forkPoint =>
          rw [andThen_ok, wpE_bind]
          refine wpE_assert (fun _ => ?_) fun _ w' _ => neutral_ok (by trivial) w'
          rw [andThen_ok, wpE_bind]
          have hon₆ := ((hon₃.rely hw₄).rely hw₅).rely hw₆
          refine wpE_rewindToForkPoint_gate _ _ hon₆ (fun w₇ hon₇ => ?_) fun _ _ => trivial
          rw [andThen_ok]
          refine wpE_applyToTip_gate U hwf hon₇ (fun w₈ hr => ?_) (fun _ _ => trivial) fun _ _ => trivial
          exact wpE_finishIteration_gate true hr
    · rename_i heq
      rw [not_not] at heq
      exact wpE_finishIteration_gate false fun hr => hon₃.rewound hr heq.symm

/-- Capturing a view starts an iteration on track. -/
theorem wpE_steadyStateIteration_gate :
    wpE (gateContract T Gated .steadyState) GateRely GateOk (fun _ _ => True)
      (steadyStateIteration U shutdownHeight) w := by
  unfold steadyStateIteration
  rw [wpE_bind]
  refine wpE_chain.mpr fun w₁ _ => ⟨?_, ?_⟩
  · rintro (h | h)
    · cases h
    · cases h
  · rintro r ⟨w₂, g₂⟩ ⟨⟨⟨hserves, hw₂⟩, hg₂⟩, -⟩
    cases r with
    | error e => trivial
    | ok view =>
      refine wpE_iterationOn_gate U hserves ?_
      have hg : g₂ = ⟨some view, w₁.2.rewound ∧ w₁.1.prevTip ≠ view.tip⟩ := hg₂
      have hw : w₂ = w₁.1 := hw₂
      refine ⟨by rw [hg], ?_⟩
      rw [hg, hw]
      exact fun h => h.2

/-- Handling an outcome announces nothing. -/
theorem wpE_handleOutcome_gate (recovery : TreeRecovery)
    (outcome : Except SyncError (ControlFlow ℕ Unit)) :
    wpE (gateContract T Gated .steadyState) GateRely GateOk (fun _ _ => True)
      (handleOutcome recovery outcome) w := by
  have hB : Handling ⟨fun o => o ≠ .status .markTipReached ∧ o ≠ .status .endRecovery,
      fun _ _ => True, fun _ => True⟩ :=
    { reads := fun o ho => ⟨fun h => by rw [h] at ho; exact ho, fun h => by rw [h] at ho; exact ho⟩
      chainError := fun _ _ _ => trivial
      otherError := fun _ _ => trivial
      snapshot := by simp
      truncates := by simp
      getPrevTip := by simp
      setPrevTip := by simp
      begins := by simp
      pause := by simp }
  refine wpE_post (wpE_of_within (I := fun _ => True) (within_handleOutcome hB recovery outcome)
    trivial (fun _ _ _ _ => trivial) ?_) fun _ _ _ => trivial
  exact fun o w₁ ho _ => ⟨fun h => absurd h (not_or.mpr ho), fun _ _ _ => ⟨trivial, trivial⟩⟩

/-- `steady_state` announces the tip, and ends a recovery, only when no block
    is missing. -/
theorem wpE_steadyState_gate (prevTip : ChainBlock) (n : ℕ) :
    wpE (gateContract T Gated .steadyState) GateRely GateOk (fun _ _ => True)
      (steadyState U prevTip shutdownHeight n) w := by
  have hop : ∀ o : SyncOp, o ≠ .status .markTipReached → o ≠ .status .endRecovery →
      ∀ w, wpE (gateContract T Gated .steadyState) GateRely GateOk (fun _ _ => True) (perform o) w := by
    intro o h₁ h₂ w
    refine wpE_perform.mpr fun w₁ _ => ⟨?_, fun _ _ _ => trivial⟩
    exact fun h => absurd h (not_or.mpr ⟨h₁, h₂⟩)
  unfold steadyState
  rw [wpE_bind]
  refine wpE_post (hop _ (by simp) (by simp) w) fun r w₁ _ => ?_
  cases r with
  | error e => trivial
  | ok _ =>
    rw [andThen_ok, wpE_bind]
    refine wpE_post (hop _ (by simp) (by simp) w₁) fun r w₂ _ => ?_
    cases r with
    | error e => trivial
    | ok _ =>
      rw [andThen_ok]
      refine wpE_post (wpE_turns (I := fun _ _ => True) (Q := fun _ _ => True) ?_ n default w₂
        trivial) fun _ _ _ => trivial
      intro recovery w₃ _
      unfold steadyTurn
      rw [wpE_bind, wpE_attempt]
      refine wpE_post (wpE_steadyStateIteration_gate U) fun outcome w₄ _ => ?_
      rw [andThen_ok]
      refine wpE_post (wpE_handleOutcome_gate recovery outcome) fun r w₅ _ => ?_
      match r with
      | .ok (.Continue _) => trivial
      | .ok (.Break _) => trivial
      | .error _ => trivial

end steady

/-! ## `recover_history` and every interleaving -/

/-- `recover_history` rewinds nothing, leaves `prev_tip` alone and announces
    nothing. -/
def historyOnly : Bounds syncSig SyncError where
  ops o := neutral.ops o ∨ o = .chain .snapshot
  answers _ _ := True
  errors _ := True

theorem recovering_historyOnly : Recovering historyOnly where
  reads o ho := Or.inl (scanning_neutral.reads o ho)
  chainError _ _ _ := trivial
  otherError _ _ := trivial
  puts _ _ := Or.inl trivial
  streamError _ _ _ _ _ _ := trivial
  snapshot := Or.inr rfl
  publish _ := Or.inl trivial
  pause _ := Or.inl trivial
  tick := Or.inl trivial
  boundary := Or.inl trivial

/-- What the two tasks may do, for the invariant of the gate. -/
def taskOk : SyncTask → SyncOp → SyncWorld × GateHistory → Prop
  | .steadyState => GateOk
  | .recoverHistory => fun o _ => historyOnly.ops o

/-- What each task relies on. -/
def taskRely : SyncTask → SyncWorld × GateHistory → SyncWorld × GateHistory → Prop
  | .steadyState => GateRely
  | .recoverHistory => fun _ _ => True

/-- While blocks are missing, a recovery is announced or the tip has not been
    reached yet. -/
def GateClosed (w : SyncWorld × GateHistory) : Prop :=
  w.2.rewound → w.1.signals.recovering.isSome ∨ w.1.signals.tipReached = false

section every

variable {T : BlockTree BlockHash}

theorem wp_syncTasks (U : Upstream) (batchSize : ℕ) (shutdownHeight : Option ℕ)
    (prevTip : ChainBlock) (n m : ℕ) (w : SyncWorld × GateHistory) (i : SyncTask) :
    wp (gateContract T Gated i) (taskRely i) (taskOk i) (fun _ _ => True)
      (syncTasks U batchSize shutdownHeight prevTip n m i) w := by
  cases i with
  | steadyState =>
    show wpE (gateContract T Gated .steadyState) GateRely GateOk (fun _ _ => True)
      (steadyState U prevTip shutdownHeight n >>= fun _ => pure ()) w
    rw [wpE_bind]
    refine wpE_post (wpE_steadyState_gate U prevTip n) fun r w' _ => ?_
    cases r with
    | ok a => trivial
    | error e => trivial
  | recoverHistory =>
    have hp : Within historyOnly (recoverHistory U batchSize shutdownHeight m >>= fun _ => pure ()) :=
      (within_recoverHistory U recovering_historyOnly batchSize shutdownHeight m).bind
        fun _ => Within.pure _
    refine wpE_post (wpE_of_within (I := fun _ => True) hp trivial (fun _ _ _ _ => trivial) ?_)
      fun _ _ _ => trivial
    exact fun o w₁ ho _ => ⟨ho, fun _ _ _ => ⟨trivial, trivial⟩⟩

/-- `recover_history` stays within what `steady_state` relies on. -/
theorem historyOnly_rely {o : SyncOp} (ho : historyOnly.ops o) {w w' : SyncWorld × GateHistory}
    {r : o.Ret} (h : gateContract T Gated .recoverHistory o w r w') : GateRely w w' := by
  obtain ⟨hC, hg⟩ := h
  refine ⟨?_, hg⟩
  rcases ho with ho | rfl
  · exact neutral_prevTip ho hC
  · have hw : w'.1 = w.1 := hC.2
    rw [hw]

/-- Only the end of a recovery withdraws its announcement, and only the
    announcement of the tip sets `tip_reached`. -/
theorem signals_closed {o : SyncOp} {w w' : SyncWorld} {r : o.Ret} (h : contract T o w r w')
    (hmark : o ≠ .status .markTipReached) (hend : o ≠ .status .endRecovery)
    (hw : w.signals.recovering.isSome ∨ w.signals.tipReached = false) :
    w'.signals.recovering.isSome ∨ w'.signals.tipReached = false := by
  rcases contract_cases h with rfl | ⟨s, rfl, rfl⟩ | ⟨block, -, rfl⟩ | ⟨tipHeight, -, rfl⟩ |
    ⟨height, landed, -, -, rfl⟩ | ⟨fromState, blocks, checkpoints, -, -, rfl⟩
  · exact hw
  · cases s with
    | setTip tip => exact hw
    | setFullySynced height => exact hw
    | markTipReached => exact absurd rfl hmark
    | beginRecovery height => exact Or.inl rfl
    | endRecovery => exact absurd rfl hend
  · exact hw
  · exact hw
  · exact hw
  · exact hw

theorem GateClosed.step {i : SyncTask} {o : SyncOp} {w w' : SyncWorld × GateHistory} {r : o.Ret}
    (hok : taskOk i o w) (h : gateContract T Gated i o w r w') (hw : GateClosed w) :
    GateClosed w' := by
  intro hr
  cases i with
  | steadyState =>
    obtain ⟨⟨hC, hg⟩, hK⟩ := h
    rw [hg] at hr
    have hrewound := GateHistory.step_rewound hr
    by_cases ho : o = .status .markTipReached ∨ o = .status .endRecovery
    · -- nothing is missing when the tip is announced
      rcases hrewound with h | ⟨⟨height, rfl⟩, -⟩
      · exact absurd h (hok ho)
      · rcases ho with ho | ho
        · cases ho
        · cases ho
    · rw [not_or] at ho
      refine signals_closed hC ho.1 ho.2 ?_
      rcases hrewound with h | ⟨-, h⟩
      · exact hw h
      · exact h hK
  | recoverHistory =>
    obtain ⟨hC, hg⟩ := h
    rw [hg] at hr
    have hrank : o ≠ .status .markTipReached ∧ o ≠ .status .endRecovery := by
      rcases hok with hok | rfl
      · exact ⟨fun h => by rw [h] at hok; exact hok, fun h => by rw [h] at hok; exact hok⟩
      · simp
    exact signals_closed hC hrank.1 hrank.2 (hw hr)

theorem gateClosed_of_reach (U : Upstream) (batchSize : ℕ) (shutdownHeight : Option ℕ)
    (prevTip : ChainBlock) (n m : ℕ) {w : SyncWorld × GateHistory} (hw : GateClosed w)
    {c : Pool syncSig (SyncWorld × GateHistory) SyncTask (Except SyncError Unit)}
    (h : Pool.Reach (gateContract T Gated) otherConnections
      ⟨syncTasks U batchSize shutdownHeight prevTip n m, w⟩ c) : GateClosed c.world := by
  refine Pool.world_inv ?_ ?_ ?_ ?_ ?_ ?_
    (wp_syncTasks U batchSize shutdownHeight prevTip n m w) hw h
  · intro i w₁ w₂ w₃ h₁ h₂
    cases i with
    | steadyState => exact ⟨h₂.1.trans h₁.1, h₂.2.trans h₁.2⟩
    | recoverHistory => trivial
  · intro i w
    cases i with
    | steadyState => exact ⟨rfl, rfl⟩
    | recoverHistory => trivial
  · intro i j hij o w r w' hok hC
    cases i with
    | recoverHistory => trivial
    | steadyState =>
      cases j with
      | steadyState => exact absurd rfl hij
      | recoverHistory => exact historyOnly_rely hok hC
  · rintro i w w' ⟨d, rfl⟩
    cases i with
    | steadyState => exact ⟨rfl, rfl⟩
    | recoverHistory => trivial
  · exact fun i o w r w' hok hC hI => hI.step hok hC
  · rintro w w' ⟨d, rfl⟩ hI
    exact hI

/-- Whatever the interleaving of the two tasks and the other connections to
    the database: while blocks that `steady_state` removed are missing, no
    reader sees `Synced`, provided it removes blocks only while a recovery is
    announced or before the tip has first been reached, and never starts to apply
    blocks at or above the tip while blocks are missing. -/
theorem gate_covers_rewinds (T : BlockTree BlockHash) (U : Upstream) (batchSize : ℕ)
    (shutdownHeight : Option ℕ) (prevTip : ChainBlock) (n m : ℕ) (w : SyncWorld)
    (c : Pool syncSig (SyncWorld × GateHistory) SyncTask (Except SyncError Unit))
    (h : Pool.Reach (gateContract T Gated) otherConnections
      ⟨syncTasks U batchSize shutdownHeight prevTip n m, (w, ⟨none, False⟩)⟩ c)
    (hr : c.world.2.rewound) (tolerance : ℕ) :
    c.world.1.signals.status tolerance ≠ .Synced := by
  intro hs
  obtain ⟨hrec, htip⟩ := SyncSignals.status_synced hs
  have hclosed := gateClosed_of_reach U batchSize shutdownHeight prevTip n m
    (w := (w, ⟨none, False⟩)) (fun h => h.elim) h
  rcases hclosed hr with h₁ | h₁
  · rw [hrec] at h₁
    cases h₁
  · rw [htip] at h₁
    cases h₁

end every

/-! ## Rewinds -/

/-- Every operation but a rewind and the streaming of blocks. -/
def beforeRewind : SyncOp → Bool
  | .db (.truncateToHeight _) => false
  | .chain (.streamBlocksToTip _ _) => false
  | _ => true

theorem gated_beforeRewind {o : SyncOp} {w : SyncWorld × GateHistory} {r : o.Ret}
    (h : beforeRewind o = true) : Gated o w r := by
  fun_cases Gated o w r with
  | case1 => cases h
  | case2 => cases h
  | case3 => trivial

/-- The view captured last, after one more event. -/
def viewAfter (view : Option ChainView) : Event syncSig → Option ChainView
  | ⟨.chain .snapshot, .ok view'⟩ => some view'
  | _ => view

/-- A step that captures no view and does not set `prev_tip` to the tip of
    `view`. -/
def staysAway (view : ChainView) (ev : Event syncSig) : Bool :=
  match ev.op with
  | .chain .snapshot => false
  | .setPrevTip block => decide (block ≠ view.tip)
  | _ => true

/-- A rewind to `landed`, perhaps at the second attempt, after which `prev_tip`
    does not become the tip of `view`. -/
def rewindsAway (view : ChainView) (landed : ℕ) : List (Event syncSig) → Bool
  | ⟨.db (.truncateToHeight _), .error _⟩ :: τ => rewindsAway view landed τ
  | ⟨.db (.truncateToHeight _), .ok landed'⟩ :: τ =>
    decide (landed' = landed) && τ.all (staysAway view)
  | _ => false

theorem GateHistory.view_step (o : SyncOp) (w w' : SyncWorld) (r : o.Ret) (g : GateHistory) :
    (GateHistory.step o w r w' g).view = viewAfter g.view ⟨o, r⟩ := by
  fun_cases GateHistory.step o w r w' g with
  | case1 => rfl
  | case2 => rfl
  | case3 => rfl
  | case4 =>
    rename_i hother _ _
    unfold viewAfter
    split
    · rename_i h
      cases h
      exact (hother _ rfl HEq.rfl).elim
    · rfl

/-- Blocks stay missing in a step that stays away from the tip. -/
theorem GateHistory.rewound_step {o : SyncOp} {w w' : SyncWorld} {r : o.Ret} {g : GateHistory}
    {view : ChainView} (hev : staysAway view ⟨o, r⟩ = true) (hview : g.view = some view)
    (hr : g.rewound) : (GateHistory.step o w r w' g).rewound := by
  fun_cases GateHistory.step o w r w' g with
  | case1 => cases hev
  | case2 => exact Or.inl hr
  | case3 block =>
    refine ⟨hr, fun view' hview' => ?_⟩
    rw [hview] at hview'
    rw [← Option.some.inj hview']
    exact of_decide_eq_true hev
  | case4 => exact hr

section observed

variable {T : BlockTree BlockHash} {p q : Prog syncSig (Except SyncError Unit)}
  {w w' : SyncWorld × GateHistory} {τ : List (Event syncSig)}

theorem reaches_view (h : Reaches ((contract T).observed GateHistory.step) p w τ q w') :
    w'.2.view = τ.foldl viewAfter w.2.view := by
  induction h with
  | refl p w => rfl
  | step hC _ ih =>
    rw [List.foldl_cons, ← GateHistory.view_step, ← hC.2]
    exact ih

theorem reaches_rewound (h : Reaches ((contract T).observed GateHistory.step) p w τ q w')
    {view : ChainView} (hτ : τ.all (staysAway view) = true) (hview : w.2.view = some view)
    (hr : w.2.rewound) : w'.2.rewound := by
  induction h with
  | refl p w => exact hr
  | step hC _ ih =>
    rw [List.all_cons, Bool.and_eq_true] at hτ
    refine ih hτ.2 ?_ ?_
    · rw [hC.2, GateHistory.step_view, hview]
      rintro rfl
      cases hτ.1
    · rw [hC.2]
      exact GateHistory.rewound_step hτ.1 hview hr

/-- A rewind that removes blocks, and then no return to the tip. -/
theorem reaches_rewindsAway (h : Reaches ((contract T).observed GateHistory.step) p w τ q w')
    {view : ChainView} {landed : ℕ} (hτ : rewindsAway view landed τ = true)
    (hview : w.2.view = some view) (hremoves : Removes w.1.db landed) : w'.2.rewound := by
  induction h with
  | refl p w => cases hτ
  | @step o k w w₁ w₂ r τ q hC hrest ih =>
    unfold rewindsAway at hτ
    split at hτ
    · -- a rewind that fails changes nothing
      rename_i hev
      cases hev
      obtain ⟨⟨d, ⟨-, rfl⟩, hw₁⟩, hg⟩ := hC
      refine ih hτ ?_ ?_
      · rw [hg]
        exact hview
      · rw [hw₁]
        exact hremoves
    · rename_i hev
      cases hev
      rw [Bool.and_eq_true] at hτ
      obtain rfl := of_decide_eq_true hτ.1
      refine reaches_rewound hrest hτ.2 ?_ ?_
      · rw [hC.2]
        exact hview
      · rw [hC.2]
        exact Or.inr hremoves
    · cases hτ

end observed

section scripts

variable (s : Script) (tasks : SyncTask → Prog syncSig (Except SyncError Unit))

/-- `steady_state` on a script, up to its first rewind. -/
def toRewind (steps : ℕ) (σ : Replay) :
    List (Event syncSig) × Prog syncSig (Except SyncError Unit) × Replay :=
  exec (s.replay.restrict fun o _ => beforeRewind o) steps (tasks .steadyState) σ

/-- The interleaving in which `recover_history` waits and `steady_state` comes
    to its first rewind. -/
theorem reach_toRewind {K : (o : SyncOp) → SyncWorld × GateHistory → o.Ret → Prop}
    (hK : ∀ o w r, beforeRewind o = true → K o w r) (steps : ℕ) (σ : Replay) :
    ∃ g : GateHistory, g.view = (toRewind s tasks steps σ).1.foldl viewAfter none ∧
      Pool.Reach (gateContract s.tree K) otherConnections ⟨tasks, (σ.world, ⟨none, False⟩)⟩
        ⟨Function.update tasks .steadyState (toRewind s tasks steps σ).2.1,
          ((toRewind s tasks steps σ).2.2.world, g)⟩ := by
  have hkeeps : (s.replay.restrict fun o _ => beforeRewind o).Keeps
      ((contract s.tree).restrict fun o _ _ => beforeRewind o = true) Replay.world :=
    s.replay_keeps.restrict fun _ _ _ h => h
  have hreach := exec_reaches hkeeps steps (tasks .steadyState) σ
  obtain ⟨g, hobs⟩ := hreach.observed GateHistory.step ⟨none, False⟩
  refine ⟨g, reaches_view (hobs.mono fun _ _ _ _ h => ⟨h.1.1, h.2⟩), ?_⟩
  have hgate : Reaches (gateContract s.tree K .steadyState) _ _ _ _ _ :=
    hobs.mono fun o w r _ h => ⟨⟨h.1.1, h.2⟩, hK o w r h.1.2⟩
  exact Pool.reach_of_reaches (i := .steadyState) hgate tasks rfl

/-- The first rewind, if it removes blocks. -/
theorem reach_rewind {K : (o : SyncOp) → SyncWorld × GateHistory → o.Ret → Prop}
    (hK : ∀ o w r, beforeRewind o = true → K o w r) (steps height landed : ℕ) (σ : Replay)
    {σ' : Replay} (hσ : (toRewind s tasks steps σ).2.2 = σ')
    (hnext : (toRewind s tasks steps σ).2.1.next = some (.db (.truncateToHeight height)))
    (hrewind : σ'.world.db.IsRewind height landed) (hremoves : Removes σ'.world.db landed)
    (hK' : ∀ g, K (.db (.truncateToHeight height)) (σ'.world, g) (.ok landed)) :
    ∃ c, Pool.Reach (gateContract s.tree K) otherConnections
        ⟨tasks, (σ.world, ⟨none, False⟩)⟩ c ∧
      c.world.1.signals = σ'.world.signals ∧ c.world.2.rewound := by
  obtain ⟨g, -, hreach⟩ := reach_toRewind s tasks hK steps σ
  obtain ⟨k, hk⟩ := Prog.next_eq_some.mp hnext
  rw [hσ, hk] at hreach
  have hC : gateContract s.tree K .steadyState (.db (.truncateToHeight height))
      (σ'.world, g) (.ok landed) ({ σ'.world with db := σ'.world.db.truncate landed },
        ⟨g.view, g.rewound ∨ Removes σ'.world.db landed⟩) :=
    ⟨⟨⟨_, ⟨hrewind, rfl⟩, rfl⟩, rfl⟩, hK' g⟩
  have hnow : Function.update tasks .steadyState
      (Prog.op (S := syncSig) (.db (.truncateToHeight height)) k) .steadyState =
      .op (.db (.truncateToHeight height)) k := Function.update_self ..
  exact ⟨_, hreach.tail (.thread .steadyState hnow hC), rfl, Or.inr hremoves⟩

/-- A first rewind that removes blocks, and a run on from there that does not
    come to the tip of the view. -/
theorem reach_rewindsAway (steps landed : ℕ) (view : ChainView) (σ : Replay) {σ' : Replay}
    (hσ : (toRewind s tasks steps σ).2.2 = σ')
    (hview : (toRewind s tasks steps σ).1.foldl viewAfter none = some view)
    (hremoves : Removes σ'.world.db landed)
    (haway : rewindsAway view landed
      (exec s.replay steps (toRewind s tasks steps σ).2.1 σ').1 = true) :
    ∃ c, Pool.Reach (gateContract s.tree fun _ _ _ => True) otherConnections
        ⟨tasks, (σ.world, ⟨none, False⟩)⟩ c ∧
      c.world.1.signals =
        (exec s.replay steps (toRewind s tasks steps σ).2.1 σ').2.2.world.signals ∧
      c.world.2.rewound := by
  obtain ⟨g, hg, hreach⟩ := reach_toRewind s tasks (K := fun _ _ _ => True)
    (fun _ _ _ _ => trivial) steps σ
  rw [hσ] at hreach
  have hrest := exec_reaches s.replay_keeps steps (toRewind s tasks steps σ).2.1 σ'
  obtain ⟨g', hobs⟩ := hrest.observed GateHistory.step g
  have hrewound := reaches_rewindsAway hobs haway (hg.trans hview) hremoves
  have hgate : Reaches (gateContract s.tree (fun _ _ _ => True) .steadyState) _ _ _ _ _ :=
    hobs.mono fun _ _ _ _ h => ⟨h, trivial⟩
  have hpool : Pool.Reach (gateContract s.tree fun _ _ _ => True) otherConnections _ _ :=
    Pool.reach_of_reaches hgate
      (Function.update tasks .steadyState (toRewind s tasks steps σ).2.1) (Function.update_self ..)
  exact ⟨_, hreach.trans hpool, rfl, hrewound⟩

end scripts

/-- A wallet that has not reached the tip yet rewinds: no reader sees
    `Synced`. -/
theorem gate_covers_rewinds_catching_up :
    ∃ c, Pool.Reach (gateContract (forkTree 6) Gated) otherConnections
        ⟨syncTasks .watchNothing 10 none ⟨10, forkBlock 1 10⟩ 1 1,
          (followedFork [6, 8, 9, 10], ⟨none, False⟩)⟩ c ∧
      c.world.2.rewound ∧ c.world.1.signals.status 10 ≠ .Synced := by
  have htip : (toRewind (.quiet (forkTree 6))
      (syncTasks .watchNothing 10 none ⟨10, forkBlock 1 10⟩ 1 1) 40
      (reorged [6, 8, 9, 10])).2.2.world.signals.tipReached = false := by decide +kernel
  obtain ⟨c, hreach, -, hr⟩ := reach_rewind (K := Gated) (.quiet (forkTree 6))
    (syncTasks .watchNothing 10 none ⟨10, forkBlock 1 10⟩ 1 1) (fun _ _ _ => gated_beforeRewind)
    40 6 6 (reorged [6, 8, 9, 10]) rfl (by decide +kernel) (by decide +kernel)
    ⟨10, by decide +kernel⟩ fun _ _ => Or.inr htip
  exact ⟨c, hreach, hr, gate_covers_rewinds _ _ _ _ _ _ _ _ c hreach hr 10⟩

/-- A wallet that has reached the tip of fork 1 sees the backend move to
    fork 0. -/
def reorgedAtTip : Replay :=
  ⟨followedFork [6, 8, 9, 10], [.ok ⟨⟨10, forkBlock 1 10⟩⟩, .ok ⟨⟨9, forkBlock 0 9⟩⟩]⟩

/-- The two ways in which a reader sees `Synced` while blocks are missing. The
    blocks are removed before the recovery is announced; and a wallet without a
    checkpoint below height 9, which has not reached the tip yet, is left on
    block 9 of the old fork when it comes to a tip of that height. -/
theorem gate_misses_rewind :
    (∃ c, Pool.Reach (gateContract (forkTree 6) fun _ _ _ => True) otherConnections
        ⟨syncTasks .watchNothing 10 none ⟨10, forkBlock 1 10⟩ 2 1,
          (followedFork [6, 8, 9, 10], ⟨none, False⟩)⟩ c ∧
      c.world.2.rewound ∧ c.world.1.signals.status 0 = .Synced) ∧
    ∃ c, Pool.Reach (gateContract (forkTree 6) fun _ _ _ => True) otherConnections
        ⟨syncTasks .watchNothing 10 none ⟨10, forkBlock 1 10⟩ 1 1,
          (followedFork [9, 10], ⟨none, False⟩)⟩ c ∧
      c.world.2.rewound ∧ c.world.1.signals.status 0 = .Synced := by
  constructor
  · obtain ⟨c, hreach, hs, hr⟩ := reach_rewind (K := fun _ _ _ => True) (.quiet (forkTree 6))
      (syncTasks .watchNothing 10 none ⟨10, forkBlock 1 10⟩ 2 1) (fun _ _ _ _ => trivial)
      60 6 6 reorgedAtTip rfl (by decide +kernel) (by decide +kernel) ⟨10, by decide +kernel⟩
      fun _ => trivial
    refine ⟨c, hreach, hr, ?_⟩
    rw [hs]
    decide +kernel
  · obtain ⟨c, hreach, hs, hr⟩ := reach_rewindsAway (.quiet (forkTree 6))
      (syncTasks .watchNothing 10 none ⟨10, forkBlock 1 10⟩ 1 1) 40 9 ⟨⟨9, forkBlock 0 9⟩⟩
      (reorged [9, 10]) rfl (by decide +kernel) ⟨10, by decide +kernel⟩ (by decide +kernel)
    refine ⟨c, hreach, hr, ?_⟩
    rw [hs]
    decide +kernel

end Zallet.Sync
