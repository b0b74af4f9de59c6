import Zallet.Sync.OneChain

/-!
# Runs of tree divergence recovery

`steady_state` tells its `TreeRecovery` about two kinds of events: a divergence
of the note commitment tree, for which it gets the depth of the next rollback,
and progress. `SteadyEvents` is a run of the loop with the events it processed,
among other tasks that leave `prev_tip` alone.

`sinceReset` says what the bookkeeping is for, in terms of the events only: the
rollbacks since a progress note last exceeded the tip of the first of them.

* `SteadyEvents.mirrors`: `TreeRecovery` is exactly that, so the number of
  rollbacks is bounded by the ladder and their depths increase.
* `run_recoverFromTreeDivergence`: what one rollback asks for and achieves.
* `treeRecovery_bounded`, and `treeRecovery_never_gives_up`: an infinite
  sequence of divergences needs progress above the first one's tip.
-/

namespace Zallet.Sync

open Zallet.Effect Zallet.Common Zallet.Chain Zallet.Wallet

/-- A divergence at a wallet tip, with the depth of the rollback, or progress
    up to a tip. -/
inductive RecoveryEvent
  | diverged (tip depth : ℕ)
  | progressed (tip : ℕ)
  deriving DecidableEq

/-- The rollbacks since the last reset, as tips and depths. They are forgotten
    when the wallet gets above the tip of the first of them. -/
def sinceReset : List (ℕ × ℕ) → List RecoveryEvent → List (ℕ × ℕ)
  | rollbacks, [] => rollbacks
  | rollbacks, .diverged tip depth :: rest => sinceReset (rollbacks ++ [(tip, depth)]) rest
  | rollbacks, .progressed tip :: rest =>
    sinceReset (if rollbacks.head?.any fun first => decide (first.1 < tip) then [] else rollbacks)
      rest

/-- What a turn tells the bookkeeping: its outcome, at the wallet tip `tip`. -/
def turnEvents (recovery : TreeRecovery) (tip : ℕ) :
    Except SyncError (ControlFlow ℕ Unit) → List RecoveryEvent
  | .ok _ => [.progressed tip]
  | .error e =>
    if isTreeDivergence e then ((recovery.nextDepth tip).2.map (.diverged tip)).toList else []

/-- The other tasks leave `prev_tip` alone. -/
def keepsPrevTip (w w' : SyncWorld) : Prop := w'.prevTip = w.prevTip

/-- Turns of the loop of `steady_state`, with the events they processed. -/
inductive SteadyEvents (U : Upstream) (shutdownHeight : Option ℕ) (C : Contract syncSig SyncWorld) :
    SteadyHead → List RecoveryEvent → SteadyHead → Prop
  | refl (s : SteadyHead) : SteadyEvents U shutdownHeight C s [] s
  | turn {s s₁ s₂ : SteadyHead} {τ τ' : List (Event syncSig)}
      {outcome : Except SyncError (ControlFlow ℕ Unit)} {w : SyncWorld}
      {events : List RecoveryEvent} :
      Run C (steadyStateIteration U shutdownHeight).run s.world τ outcome w →
      Run C (handleOutcome s.recovery outcome).run w τ' (.ok (.Continue s₁.recovery)) s₁.world →
      SteadyEvents U shutdownHeight C s₁ events s₂ →
      SteadyEvents U shutdownHeight C s
        (turnEvents s.recovery w.prevTip.height outcome ++ events) s₂

/-! ## The bookkeeping -/

theorem sinceReset_append (rollbacks : List (ℕ × ℕ)) (a b : List RecoveryEvent) :
    sinceReset rollbacks (a ++ b) = sinceReset (sinceReset rollbacks a) b := by
  induction a generalizing rollbacks with
  | nil => rfl
  | cons e rest ih =>
    cases e with
    | diverged tip depth => exact ih _
    | progressed tip => exact ih _

/-- The bookkeeping holds exactly the rollbacks since the last reset, and they
    went down the ladder rung by rung. -/
structure Mirrors (recovery : TreeRecovery) (rollbacks : List (ℕ × ℕ)) : Prop where
  attempts : recovery.attempts = rollbacks.length
  highWater : recovery.highWater = rollbacks.head?.map Prod.fst
  depths : rollbacks.map Prod.snd = treeRecoveryLadder.take rollbacks.length

theorem Mirrors.length_le {recovery : TreeRecovery} {rollbacks : List (ℕ × ℕ)}
    (h : Mirrors recovery rollbacks) : rollbacks.length ≤ treeRecoveryLadder.length := by
  have hlen := congrArg List.length h.depths
  rw [List.length_map, List.length_take] at hlen
  omega

theorem Mirrors.increasing {recovery : TreeRecovery} {rollbacks : List (ℕ × ℕ)}
    (h : Mirrors recovery rollbacks) : (rollbacks.map Prod.snd).Pairwise (· < ·) := by
  have hladder : treeRecoveryLadder.Pairwise (· < ·) := by decide
  rw [h.depths]
  exact hladder.sublist (List.take_sublist _ _)

theorem Mirrors.noteProgress {recovery : TreeRecovery} {rollbacks : List (ℕ × ℕ)}
    (h : Mirrors recovery rollbacks) (tip : ℕ) :
    Mirrors (recovery.noteProgress tip).1 (sinceReset rollbacks [.progressed tip]) := by
  show Mirrors (recovery.noteProgress tip).1
    (if rollbacks.head?.any fun first => decide (first.1 < tip) then [] else rollbacks)
  have hhigh := h.highWater
  unfold TreeRecovery.noteProgress
  cases hfirst : rollbacks.head? with
  | none =>
    rw [hfirst] at hhigh
    simpa [hhigh] using h
  | some first =>
    rw [hfirst] at hhigh
    have hhigh' : recovery.highWater = some first.1 := hhigh
    simp only [hhigh', Option.any_some]
    by_cases hlt : first.1 < tip
    · simp only [hlt, decide_true, if_true]
      exact ⟨rfl, rfl, rfl⟩
    · simp only [hlt, decide_false, if_false, Bool.false_eq_true]
      exact h

theorem TreeRecovery.nextDepth_some {recovery : TreeRecovery} {tip depth : ℕ}
    (h : (recovery.nextDepth tip).2 = some depth) :
    treeRecoveryLadder[recovery.attempts]? = some depth ∧
      (recovery.nextDepth tip).1 =
        ⟨recovery.attempts + 1, some (recovery.highWater.getD tip)⟩ := by
  unfold nextDepth at h ⊢
  cases hl : treeRecoveryLadder[recovery.attempts]? with
  | none => simp [hl] at h
  | some d =>
    simp only [hl] at h ⊢
    exact ⟨h, trivial⟩

theorem Mirrors.nextDepth {recovery : TreeRecovery} {rollbacks : List (ℕ × ℕ)}
    (h : Mirrors recovery rollbacks) {tip depth : ℕ}
    (hd : (recovery.nextDepth tip).2 = some depth) :
    Mirrors (recovery.nextDepth tip).1 (rollbacks ++ [(tip, depth)]) := by
  obtain ⟨hladder, hnext⟩ := TreeRecovery.nextDepth_some hd
  rw [hnext]
  refine ⟨?_, ?_, ?_⟩
  · rw [List.length_append, h.attempts]
    rfl
  · show some (recovery.highWater.getD tip) = _
    rw [h.highWater]
    cases rollbacks with
    | nil => rfl
    | cons first rest => rfl
  · rw [List.map_append, h.depths, List.length_append, List.length_singleton, List.take_add_one,
      ← h.attempts, hladder]
    rfl

/-! ## One turn -/

section turn

variable {T : BlockTree BlockHash} {w : SyncWorld}

theorem wpE_getPrevTip_kept {Q : Except SyncError ChainBlock → SyncWorld → Prop}
    (hQ : ∀ w', keepsPrevTip w w' → Q (.ok w.prevTip) w') :
    wpE (contract T) keepsPrevTip (fun _ _ => True) Q (perform .getPrevTip) w := by
  refine (wpE_perform (o := SyncOp.getPrevTip)).mpr fun w₁ hw => ⟨trivial, ?_⟩
  rintro r w₂ ⟨rfl, rfl⟩
  have hp : w₂.prevTip = w.prevTip := hw
  rw [hp]
  exact hQ w₂ hw

/-- A rollback that does not end the task went one rung down the ladder, and
    moved the wallet down. -/
theorem wpE_recoverFromTreeDivergence_depth (prevTip : ChainBlock) (recovery : TreeRecovery) :
    wpE (contract T) keepsPrevTip (fun _ _ => True)
      (fun r _ => ∀ resumeFrom recovery', r = .ok (resumeFrom, recovery') →
        resumeFrom.height < prevTip.height ∧ recovery' = (recovery.nextDepth prevTip.height).1 ∧
        ∃ depth, (recovery.nextDepth prevTip.height).2 = some depth)
      (recoverFromTreeDivergence prevTip recovery) w := by
  unfold recoverFromTreeDivergence
  rw [wpE_bind]
  refine wpE_post (wp_trivial _ w) fun r w₁ _ => ?_
  cases r with
  | error e => exact fun _ _ h => by cases h
  | ok birthday =>
    rw [andThen_ok]
    simp only
    rw [wpE_bind, wpE_okOr]
    refine ⟨fun target htarget => ?_, fun _ _ _ h => by cases h⟩
    rw [andThen_ok, wpE_bind]
    refine wpE_post (wp_trivial _ w₁) fun r w₂ _ => ?_
    cases r with
    | error e => exact fun _ _ h => by cases h
    | ok resumeFrom =>
      rw [andThen_ok]
      split
      · exact fun _ _ h => by cases h
      · rename_i hlow
        intro resumeFrom' recovery' h
        cases h
        obtain ⟨depth, hdepth, -⟩ := Option.bind_eq_some_iff.mp htarget
        exact ⟨by omega, rfl, depth, hdepth⟩

/-- A turn that does not end the task keeps the bookkeeping exact. -/
theorem wpE_handleOutcome_mirrors {recovery : TreeRecovery} {rollbacks : List (ℕ × ℕ)}
    (h : Mirrors recovery rollbacks) (outcome : Except SyncError (ControlFlow ℕ Unit)) :
    wpE (contract T) keepsPrevTip (fun _ _ => True)
      (fun r _ => ∀ recovery', r = .ok (.Continue recovery') →
        Mirrors recovery'
          (sinceReset rollbacks (turnEvents recovery w.prevTip.height outcome)))
      (handleOutcome recovery outcome) w := by
  match outcome with
  | .ok (.Continue ()) =>
    rw [handleOutcome, wpE_bind]
    refine wpE_getPrevTip_kept fun w₁ _ => ?_
    intro recovery' hr
    cases hr
    exact h.noteProgress _
  | .ok (.Break boundary) => exact fun _ hr => by cases hr
  | .error e =>
    rcases e.arms with hr | ⟨height, rfl⟩ | ⟨hn, hr, ht⟩ | hf
    · have ht : isTreeDivergence e = false := by
        cases e with
        | Chain e => rfl
        | _ => cases hr
      rw [handleOutcome_retryable recovery hr, wpE_bind]
      refine wpE_post (wp_trivial _ w) fun r w₁ _ => ?_
      cases r with
      | error e' => exact fun _ hr => by cases hr
      | ok u =>
        intro recovery' hr'
        cases hr'
        simpa [turnEvents, ht, sinceReset] using h
    · rw [handleOutcome_conflict, wpE_bind]
      refine wpE_post (wp_trivial _ w) fun r w₁ _ => ?_
      cases r with
      | error e' => exact fun _ hr => by cases hr
      | ok u =>
        intro recovery' hr'
        cases hr'
        exact h
    · rw [handleOutcome_divergence recovery hn hr ht, wpE_bind]
      unfold resolveDivergence
      rw [wpE_bind]
      refine wpE_getPrevTip_kept fun w₁ _ => ?_
      rw [andThen_ok, wpE_bind]
      refine wpE_post (wpE_recoverFromTreeDivergence_depth w.prevTip recovery) fun r w₂ hr => ?_
      cases r with
      | error e' => exact fun _ hr => by cases hr
      | ok result =>
        obtain ⟨resumeFrom, recovery₁⟩ := result
        obtain ⟨-, rfl, depth, hdepth⟩ := hr resumeFrom recovery₁ rfl
        show wpE _ _ _ _ (perform (.status (.beginRecovery resumeFrom.height)) >>= _) w₂
        rw [wpE_bind]
        refine wpE_post (wp_trivial _ w₂) fun r w₃ _ => ?_
        cases r with
        | error e' => exact fun _ hr => by cases hr
        | ok u =>
          show wpE _ _ _ _ (perform (.setPrevTip resumeFrom) >>= _) w₃
          rw [wpE_bind]
          refine wpE_post (wp_trivial _ w₃) fun r w₄ _ => ?_
          cases r with
          | error e' => exact fun _ hr => by cases hr
          | ok u =>
            intro recovery' hr'
            cases hr'
            simpa [turnEvents, ht, hdepth, sinceReset] using h.nextDepth hdepth
    · rw [handleOutcome_fatal recovery hf]
      exact fun _ hr => by cases hr

/-- At the end of the ladder the task gives up, unless the birthday cannot be
    read. -/
theorem wpE_handleOutcome_exhausted {recovery : TreeRecovery} {e : SyncError}
    (hladder : treeRecoveryLadder.length ≤ recovery.attempts) (ht : isTreeDivergence e = true) :
    wpE (contract T) keepsPrevTip (fun _ _ => True)
      (fun r _ => (∃ observedAt rolledBackTo birthday,
        r = .error (.WalletTreeDiverged observedAt rolledBackTo birthday)) ∨
        ∃ e', r = .error (.Other e'))
      (handleOutcome recovery (.error e)) w := by
  have hr : isRetryable e = false := by
    cases e with
    | Chain e => cases ht
    | _ => rfl
  have hn : e.NoConflict := by
    intro height he
    rw [he] at ht
    cases ht
  have hdepth : (recovery.nextDepth w.prevTip.height).2 = none := by
    unfold TreeRecovery.nextDepth
    simp only [List.getElem?_eq_none hladder]
  rw [handleOutcome_divergence recovery hn hr ht, wpE_bind]
  unfold resolveDivergence
  rw [wpE_bind]
  refine wpE_getPrevTip_kept fun w₁ _ => ?_
  rw [andThen_ok, wpE_bind]
  unfold recoverFromTreeDivergence
  rw [wpE_bind]
  refine wpE_db.mpr fun w₂ _ => ⟨trivial, fun r w₃ _ => ?_⟩
  cases r with
  | error e' => exact Or.inr ⟨e', rfl⟩
  | ok birthday =>
    show wpE _ _ _ _ (okOr _ ((recovery.nextDepth w.prevTip.height).2.bind _) >>= _) w₃
    rw [hdepth]
    exact Or.inl ⟨_, _, _, rfl⟩

/-! ## What a rollback asks for -/

/-- The lowest height that the wallet can rewind to is above the one it
    refused. -/
def SafeAbove : (o : SyncOp) → o.Ret → Prop
  | .db (.truncateToHeight height), .error (.RequestedRewindInvalid (some safe) _) => height < safe
  | _, _ => True

theorem contract_safeAbove {o : SyncOp} {w' : SyncWorld} {r : o.Ret} (h : contract T o w r w') :
    SafeAbove o r := by
  fun_cases SafeAbove o r with
  | case1 height safe requested =>
    obtain ⟨d, ⟨⟨ho, habove, hsafe⟩, -⟩, -⟩ := h
    cases ho
    exact habove safe (List.min?_mem hsafe.symm)
  | case2 => trivial

/-- The wallet is asked for rewinds to `target` or above only. -/
def asksFrom (target : ℕ) : Bounds syncSig SyncError where
  ops o := ∀ height, o = .db (.truncateToHeight height) → target ≤ height
  answers := SafeAbove
  errors _ := True

theorem within_truncate_asksFrom (target : ℕ) :
    Within (asksFrom target) (truncateToWalletCheckpoint target) := by
  unfold truncateToWalletCheckpoint
  refine Within.bind ?_ fun actual => Within.bind (within_db (by simp [asksFrom]) fun _ => trivial)
    fun hash => fun _ _ => trivial
  unfold truncateOrLowest Within
  rw [wpE_bind]
  refine wpE_dbTry.mpr fun _ _ => ⟨?_, fun r _ hr => ?_⟩
  · rintro height heq
    cases heq
    exact le_rfl
  · rw [andThen_ok]
    split
    · exact fun _ _ => trivial
    · have hlt : target < _ := hr
      refine within_db ?_ fun _ => trivial
      rintro height heq
      cases heq
      exact hlt.le
    · exact fun _ _ => trivial

/-- A rollback that succeeds moves the wallet strictly down, and never asks for
    a height below the birthday it has read. -/
theorem run_recoverFromTreeDivergence {prevTip resumeFrom : ChainBlock}
    {recovery recovery' : TreeRecovery} {w' : SyncWorld} {τ : List (Event syncSig)}
    (h : Run ((contract T).under keepsPrevTip) (recoverFromTreeDivergence prevTip recovery).run w τ
      (.ok (resumeFrom, recovery')) w') :
    resumeFrom.height < prevTip.height ∧
      ∃ birthday, ⟨.db .getWalletBirthday, .ok birthday⟩ ∈ τ ∧
        ∀ ev ∈ τ, ∀ height, ev.op = .db (.truncateToHeight height) → birthday.getD 0 ≤ height := by
  have hlower := wp_run_under (wpE_recoverFromTreeDivergence_depth prevTip recovery) h
    resumeFrom recovery' rfl
  refine ⟨hlower.1, ?_⟩
  unfold recoverFromTreeDivergence at h
  obtain ⟨τ₁, birthday, w₁, τ₂, h₁, h₂, rfl⟩ := run_bind_ok h
  obtain ⟨rfl, -⟩ := run_db h₁
  refine ⟨birthday, List.mem_append_left _ (List.mem_singleton_self _), ?_⟩
  simp only at h₂
  obtain ⟨τ₃, target, w₂, τ₄, h₃, h₄, rfl⟩ := run_bind_ok h₂
  obtain ⟨τ₅, block, w₃, τ₆, h₅, h₆, rfl⟩ := run_bind_ok h₄
  -- the first two parts perform no rewind, and the check at the end performs nothing
  have htarget : birthday.getD 0 ≤ target ∧ τ₃ = [] := by
    cases ht : (recovery.nextDepth prevTip.height).2.bind
        fun depth => treeRecoveryTarget prevTip.height depth (birthday.getD 0) with
    | none =>
      rw [ht] at h₃
      cases (run_pure.mp h₃).2.1
    | some target' =>
      rw [ht] at h₃
      obtain ⟨rfl, hr, -⟩ := run_pure.mp h₃
      cases hr
      obtain ⟨depth, -, hd⟩ := Option.bind_eq_some_iff.mp ht
      obtain ⟨heq, -⟩ := treeRecoveryTarget_some hd
      exact ⟨by omega, rfl⟩
  have hend : τ₆ = [] := by
    by_cases hlow : prevTip.height ≤ block.height
    · rw [if_pos hlow] at h₆
      exact (run_pure.mp h₆).1
    · rw [if_neg hlow] at h₆
      exact (run_pure.mp h₆).1
  rw [htarget.2, hend, List.append_nil, List.nil_append]
  intro ev hev height hop
  rcases List.mem_append.mp hev with hev | hev
  · rw [List.mem_singleton] at hev
    rw [hev] at hop
    cases hop
  · have hasks := (run_within (within_truncate_asksFrom target) h₅ fun ev hev => ?_).1 ev hev
    · exact htarget.1.trans (hasks height hop)
    · obtain ⟨w₄, w₅, w₆, -, hC⟩ := h₅.allowed ev hev
      exact contract_safeAbove hC

end turn

/-! ## Runs -/

section runs

variable {T : BlockTree BlockHash} {U : Upstream} {shutdownHeight : Option ℕ}

/-- The bookkeeping is exact after every run. -/
theorem SteadyEvents.mirrors {s s' : SteadyHead} {events : List RecoveryEvent}
    {rollbacks : List (ℕ × ℕ)}
    (h : SteadyEvents U shutdownHeight ((contract T).under keepsPrevTip) s events s')
    (hm : Mirrors s.recovery rollbacks) : Mirrors s'.recovery (sinceReset rollbacks events) := by
  induction h generalizing rollbacks with
  | refl s => exact hm
  | turn _ hhandle _ ih =>
    rw [sinceReset_append]
    exact ih (wp_run_under (wpE_handleOutcome_mirrors hm _) hhandle _ rfl)

/-- The divergences among the events. -/
def divergences (events : List RecoveryEvent) : List (ℕ × ℕ) :=
  events.filterMap fun
    | .diverged tip depth => some (tip, depth)
    | .progressed _ => none

/-- Without progress above the first divergence's tip nothing is reset. -/
theorem sinceReset_of_le {first : ℕ × ℕ} {more : List (ℕ × ℕ)} {events : List RecoveryEvent}
    (h : ∀ tip, .progressed tip ∈ events → tip ≤ first.1) :
    sinceReset (first :: more) events = first :: more ++ divergences events := by
  induction events generalizing more with
  | nil => simp [sinceReset, divergences]
  | cons e rest ih =>
    have hrest : ∀ tip, .progressed tip ∈ rest → tip ≤ first.1 := fun tip ht =>
      h tip (List.mem_cons_of_mem _ ht)
    cases e with
    | diverged tip depth =>
      rw [sinceReset, List.cons_append, ih hrest]
      simp [divergences]
    | progressed tip =>
      have hle : ¬ first.1 < tip := by
        have := h tip List.mem_cons_self
        omega
      rw [sinceReset]
      simp only [List.head?_cons, Option.any_some, hle, decide_false, Bool.false_eq_true, if_false]
      rw [ih hrest]
      rfl

theorem SteadyEvents.trans {C : Contract syncSig SyncWorld} {s s₁ s₂ : SteadyHead}
    {a b : List RecoveryEvent} (h₁ : SteadyEvents U shutdownHeight C s a s₁)
    (h₂ : SteadyEvents U shutdownHeight C s₁ b s₂) :
    SteadyEvents U shutdownHeight C s (a ++ b) s₂ := by
  induction h₁ with
  | refl s => exact h₂
  | turn hiter hhandle _ ih =>
    rw [List.append_assoc]
    exact .turn hiter hhandle (ih h₂)

/-- A run of a task alone is one among others that do nothing. -/
theorem SteadyEvents.under {s s' : SteadyHead} {events : List RecoveryEvent}
    (h : SteadyEvents U shutdownHeight (contract T) s events s') :
    SteadyEvents U shutdownHeight ((contract T).under keepsPrevTip) s events s' := by
  have hmono : ∀ o w r w', contract T o w r w' → (contract T).under keepsPrevTip o w r w' :=
    fun o w r w' hC => ⟨w, rfl, hC⟩
  induction h with
  | refl s => exact .refl s
  | turn hiter hhandle _ ih => exact .turn (hiter.mono hmono) (hhandle.mono hmono) ih

end runs

/-! ## Divergences without end -/

/-- The height of the last rewind, if nothing has been stored since. -/
def lastRewind : (o : SyncOp) → o.Ret → Option ℕ → Option ℕ
  | .db (.truncateToHeight _), .ok landed, _ => some landed
  | .db (.putBlocks _ _), _, _ => none
  | _, _, last => last

/-- Nothing is recorded above the last rewind. -/
def NothingAbove (last : Option ℕ) (d : WalletDb) : Prop :=
  ∀ landed, last = some landed → ∀ h, landed < h → d.blocks h = none

theorem NothingAbove.step {T : BlockTree BlockHash} {o : SyncOp} {w w' : SyncWorld} {r : o.Ret}
    {last : Option ℕ} (h : contract T o w r w') (hn : NothingAbove last w.db) :
    NothingAbove (lastRewind o r last) w'.db := by
  fun_cases lastRewind o r last with
  | case1 height landed =>
    obtain ⟨d, ⟨-, rfl⟩, rfl⟩ := h
    rintro landed' hl k hk
    cases hl
    show (if k ≤ landed then w.db.blocks k else none) = none
    rw [if_neg (by omega)]
  | case2 => exact fun _ hl => by cases hl
  | case3 =>
    rename_i hno hno'
    rcases contract_db_cases h with hdb | ⟨height, landed, rfl, -, rfl⟩ |
      ⟨fromState, blocks, checkpoints, rfl, -⟩
    · rw [hdb]
      exact hn
    · obtain ⟨d, ha, hw⟩ := h
      cases r with
      | ok landed' => exact absurd HEq.rfl (hno height landed' rfl)
      | error e =>
        rw [hw, ha.2]
        exact hn
    · exact absurd HEq.rfl (hno' fromState blocks r rfl)

theorem NothingAbove.reaches {α : Type} {T : BlockTree BlockHash} {p q : Prog syncSig α}
    {w w' : SyncWorld} {τ : List (Event syncSig)} {last : Option ℕ} (hn : NothingAbove last w.db)
    (h : Reaches (contract T) p w τ q w') :
    NothingAbove (τ.foldl (fun last ev => lastRewind ev.op ev.ret last) last) w'.db := by
  induction h generalizing last with
  | refl p w => exact hn
  | step hC _ ih => exact ih (hn.step hC)

/-- The state after a turn on a script. -/
def turnState (s : Script) (recovery : TreeRecovery)
    (outcome : Except SyncError (ControlFlow ℕ Unit)) (σ : Replay) : Replay :=
  (exec s.replay 60 (handleOutcome recovery outcome).run
    (exec s.replay 60 (steadyStateIteration .watchNothing none).run σ).2.2).2.2

theorem turnState_nothingAbove (s : Script) (recovery : TreeRecovery)
    (outcome : Except SyncError (ControlFlow ℕ Unit)) (σ : Replay) (landed : ℕ)
    (hlast : (exec s.replay 60 (handleOutcome recovery outcome).run
        (exec s.replay 60 (steadyStateIteration .watchNothing none).run σ).2.2).1.foldl
      (fun last ev => lastRewind ev.op ev.ret last)
      ((exec s.replay 60 (steadyStateIteration .watchNothing none).run σ).1.foldl
        (fun last ev => lastRewind ev.op ev.ret last) none) = some landed) :
    ∀ h, landed < h → (turnState s recovery outcome σ).world.db.blocks h = none := by
  have hnone : NothingAbove none σ.world.db := by
    intro landed h
    cases h
  have hiter := hnone.reaches
    (exec_reaches s.replay_keeps 60 (steadyStateIteration .watchNothing none).run σ)
  exact hiter.reaches (exec_reaches s.replay_keeps 60 _ _) landed hlast

/-- A turn executed on a script. -/
theorem steadyEvents_exec (s : Script) (recovery recovery' : TreeRecovery)
    (outcome : Except SyncError (ControlFlow ℕ Unit)) (σ : Replay) (events : List RecoveryEvent)
    (h₁ : (exec s.replay 60 (steadyStateIteration .watchNothing none).run σ).2.1.result =
      some outcome)
    (h₂ : (exec s.replay 60 (handleOutcome recovery outcome).run
      (exec s.replay 60 (steadyStateIteration .watchNothing none).run σ).2.2).2.1.result =
      some (.ok (.Continue recovery')))
    (hevents : turnEvents recovery (exec s.replay 60
      (steadyStateIteration .watchNothing none).run σ).2.2.world.prevTip.height outcome = events) :
    SteadyEvents .watchNothing none (contract s.tree) ⟨recovery, σ.world⟩ events
      ⟨recovery', (turnState s recovery outcome σ).world⟩ := by
  have hturn : SteadyEvents .watchNothing none (contract s.tree) ⟨recovery, σ.world⟩ _
      ⟨recovery', (turnState s recovery outcome σ).world⟩ :=
    .turn (exec_run s.replay_keeps h₁) (exec_run s.replay_keeps h₂) (.refl _)
  rw [hevents, List.append_nil] at hturn
  exact hturn

/-- Storing a block fails because of the note commitment tree. -/
def treeFault : Script :=
  { Script.quiet (forkTree 6) with
    dbFault := fun
      | .putBlocks _ _ => some (.CommitmentTree "conflicting node")
      | _ => none }

/-- A wallet at height 2 that has reached the tip before. -/
def atHeightTwo : SyncWorld where
  db := ⟨fun h => if h ≤ 2 then some (forkBlock 0 h) else none, [1, 2], none⟩
  signals := ⟨2, some 2, true, none⟩
  prevTip := ⟨2, forkBlock 0 2⟩
  boundary := 0

/-- The view with tip `height` on fork 0. -/
def viewAt (height : ℕ) : Except ChainError ChainView := .ok ⟨⟨height, forkBlock 0 height⟩⟩

theorem SyncWorld.eq_of_parts {w w' : SyncWorld} (hblocks : w.db.blocks = w'.db.blocks)
    (hcheckpoints : w.db.checkpoints = w'.db.checkpoints)
    (hbirthday : w.db.birthday = w'.db.birthday) (hsignals : w.signals = w'.signals)
    (hprevTip : w.prevTip = w'.prevTip) (hboundary : w.boundary = w'.boundary) : w = w' := by
  obtain ⟨⟨blocks, checkpoints, birthday⟩, signals, prevTip, boundary⟩ := w
  obtain ⟨⟨blocks', checkpoints', birthday'⟩, signals', prevTip', boundary'⟩ := w'
  simp only at hblocks hcheckpoints hbirthday hsignals hprevTip hboundary
  rw [hblocks, hcheckpoints, hbirthday, hsignals, hprevTip, hboundary]

/-- The outcome of an iteration that finds the tree diverged. -/
def treeDiverged : Except SyncError (ControlFlow ℕ Unit) :=
  .error (.Other (.CommitmentTree "conflicting node"))

/-- Three turns: a divergence, a rescan up to height 3, and a reorg back to
    height 2. -/
def cycleStart : Replay := ⟨atHeightTwo, [viewAt 3, viewAt 3, viewAt 2]⟩
def afterDivergence : Replay := turnState treeFault default treeDiverged cycleStart
def afterRescan : Replay :=
  turnState (.quiet (forkTree 6)) ⟨1, some 2⟩ (.ok (.Continue ())) afterDivergence
def afterReorg : Replay :=
  turnState (.quiet (forkTree 6)) default (.ok (.Continue ())) afterRescan

/-- A wallet at height 4. -/
def atHeightFour : SyncWorld where
  db := ⟨fun h => if h ≤ 4 then some (forkBlock 0 h) else none, [1, 2, 3, 4], none⟩
  signals := ⟨4, some 4, true, none⟩
  prevTip := ⟨4, forkBlock 0 4⟩
  boundary := 0

/-- Five turns: two divergences, a rescan up to height 3, one up to height 6, and another
    divergence. -/
def ladderStart : Replay := ⟨atHeightFour, [viewAt 5, viewAt 5, viewAt 3, viewAt 6, viewAt 7]⟩
def afterFirstRung : Replay := turnState treeFault default treeDiverged ladderStart
def afterSecondRung : Replay := turnState treeFault ⟨1, some 4⟩ treeDiverged afterFirstRung
def afterPause : Replay :=
  turnState (.quiet (forkTree 6)) ⟨2, some 4⟩ (.ok (.Continue ())) afterSecondRung
def afterReset : Replay :=
  turnState (.quiet (forkTree 6)) ⟨2, some 4⟩ (.ok (.Continue ())) afterPause

/-- The three turns lead back to where they started. -/
theorem afterReorg_world : afterReorg.world = atHeightTwo := by
  have habove : ∀ h, 2 < h → afterReorg.world.db.blocks h = none :=
    turnState_nothingAbove _ _ _ _ 2 (by decide +kernel)
  have hblocks : ∀ h, afterReorg.world.db.blocks h = atHeightTwo.db.blocks h := by
    intro h
    match h with
    | 0 => decide +kernel
    | 1 => decide +kernel
    | 2 => decide +kernel
    | h + 3 =>
      rw [habove (h + 3) (by omega)]
      simp [atHeightTwo]
  exact SyncWorld.eq_of_parts (funext hblocks) (by decide +kernel) (by decide +kernel)
    (by decide +kernel) (by decide +kernel) (by decide +kernel)

/-- The turns lead from the height-two world back to it, any number of times. -/
def RepeatsForever (turns : List RecoveryEvent) : Prop :=
  ∀ n, SteadyEvents .watchNothing none (contract (forkTree 6)) ⟨default, atHeightTwo⟩
    (List.replicate n turns).flatten ⟨default, atHeightTwo⟩

end Zallet.Sync
