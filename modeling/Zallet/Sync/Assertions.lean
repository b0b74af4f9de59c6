import Zallet.Sync.Initialize
import Zallet.Sync.OneChain

/-!
# The assertions of the steady-state task

`steady_state_iteration` asserts that the fork point is not above the new tip,
that it is below `prev_tip` unless it is `prev_tip`, and that every applied
block is one above `prev_tip`. A failed assertion ends the wallet process.

The third one always holds. The first two compare three things that need not
belong together: the hashes the wallet records, `prev_tip`, and a new view.
`Trackable` says what they have to do with each other, for a wallet that
records each hash at the height of its block (`AtHeights`).

* `Trackable.forkPoint`: both assertions on the fork point hold.
* `OneChain.trackable`: a wallet on one chain, whose birthday is not above
  `prev_tip`, can be compared with every view.
* `SteadyTurns.atHeights`: `AtHeights` is an invariant of whole runs.
* `steadyState_never_panics`: whole runs, from `initialize` on.
-/

namespace Zallet.Sync

open Zallet.Effect Zallet.Common Zallet.Chain Zallet.Wallet

/-- Every hash is recorded at the height of its block. -/
def AtHeights (T : BlockTree BlockHash) (d : WalletDb) : Prop :=
  ∀ h hash, d.blocks h = some hash → T.height hash = h

/-- The wallet's history up to `prevTip` can be compared with `view`: if
    nothing is recorded at the sampled heights, the view is not shorter; if the
    hash recorded at the height of `prevTip` is on the view's chain, it is that
    of `prevTip`; and if the wallet was born above `prevTip` and no sampled
    hash is on the view's chain, then neither is its block at the birthday. -/
structure Trackable (T : BlockTree BlockHash) (d : WalletDb) (prevTip : ChainBlock)
    (view : ChainView) : Prop where
  fresh : (∀ h ∈ locatorBlockHeights prevTip.height, d.blocks h = none) →
    prevTip.height ≤ view.tip.height
  recorded : ∀ hash, d.blocks prevTip.height = some hash → T.OnChain view.tip.hash hash →
    hash = prevTip.hash
  birthday : ∀ b, d.birthday = some b → prevTip.height < b → b ≤ view.tip.height →
    d.blocks b = some (view.hashAt T b) →
    (∃ h ∈ locatorBlockHeights prevTip.height, d.blocks h ≠ none) →
    ∃ h ∈ locatorBlockHeights prevTip.height, ∃ hash, d.blocks h = some hash ∧
      T.OnChain view.tip.hash hash

section pure

variable {T : BlockTree BlockHash} {d : WalletDb} {prevTip block : ChainBlock} {view : ChainView}

theorem AtHeights.truncate (h : AtHeights T d) (height : ℕ) : AtHeights T (d.truncate height) := by
  intro k hash hr
  rw [WalletDb.truncate_blocks] at hr
  by_cases hk : k ≤ height
  · rw [if_pos hk] at hr
    exact h k hash hr
  · rw [if_neg hk] at hr
    cases hr

/-- Blocks of well-formed views are recorded at their heights. -/
theorem AtHeights.extends {d' : WalletDb} {views : List ChainView} (h : AtHeights T d)
    (hext : Extends T views d d') (hviews : ∀ v ∈ views, v.WF T) : AtHeights T d' := by
  intro k hash hr
  rcases hext.adds k hash hr with hr | ⟨v, hv, hle, rfl⟩
  · exact h k hash hr
  · exact (hviews v hv).height_hashAt hle

/-- The two assertions on the fork point. -/
theorem Trackable.forkPoint (h : Trackable T d prevTip view) (hheights : AtHeights T d)
    (hview : view.WF T) (hfork : IsForkPoint T view d prevTip block) :
    block.height ≤ view.tip.height ∧ (block ≠ prevTip → block.height < prevTip.height) := by
  cases hfork with
  | located hf =>
    obtain ⟨hmem, hchain, hheight⟩ := ChainView.forkPoint_some hf
    obtain ⟨k, hk, hr⟩ := mem_walletLocator_iff.mp hmem
    refine ⟨?_, fun hne => ?_⟩
    · have := hchain.1
      rw [hheight]
      rwa [hview] at this
    · have hle := le_of_mem_locatorBlockHeights hk
      have hk' : block.height = k := by rw [hheight, hheights k _ hr]
      by_contra hlt
      have heq : k = prevTip.height := by omega
      rw [heq] at hr hk'
      refine hne ?_
      have hhash := h.recorded _ hr hchain
      cases block
      cases prevTip
      simp only at hk' hhash
      rw [hk', hhash]
  | fresh hempty =>
    refine ⟨h.fresh fun k hk => ?_, fun hne => absurd rfl hne⟩
    cases hr : d.blocks k with
    | none => rfl
    | some hash =>
      have hmem := mem_walletLocator_iff.mpr ⟨k, hk, hr⟩
      rw [hempty] at hmem
      cases hmem
  | steppedBack hne hnone hge hmax hr hle hhash =>
    refine ⟨hle, fun _ => ?_⟩
    -- no locator entry is on the chain, so the walk did not end at `prevTip`
    have hoff : ∀ k ∈ locatorBlockHeights prevTip.height, ∀ hash, d.blocks k = some hash →
        ¬ T.OnChain view.tip.hash hash := fun k hk hash hkr =>
      ChainView.forkPoint_none hnone hash (mem_walletLocator_iff.mpr ⟨k, hk, hkr⟩)
    have hon : T.OnChain view.tip.hash block.hash := by
      rw [← hhash]
      exact hview.onChain hle
    by_contra hlt
    have hgt : prevTip.height < block.height := by
      by_contra hgt
      have heq : block.height = prevTip.height := by omega
      exact hoff _ (by rw [heq]; exact tip_mem_locatorBlockHeights _) _ hr hon
    have hb : d.birthday.getD 0 = block.height := by omega
    obtain ⟨b, hbirthday⟩ : ∃ b, d.birthday = some b := by
      cases hbirth : d.birthday with
      | some b => exact ⟨b, rfl⟩
      | none =>
        rw [hbirth, Option.getD_none] at hb
        omega
    rw [hbirthday, Option.getD_some] at hb
    obtain ⟨hash, hmem⟩ := List.exists_mem_of_ne_nil _ hne
    obtain ⟨k, hk, hkr⟩ := mem_walletLocator_iff.mp hmem
    obtain ⟨k', hk', hash', hkr', hon'⟩ := h.birthday b hbirthday (by omega) (by omega)
      (by rw [hb, hr, hhash]) ⟨k, hk, by rw [hkr]; exact Option.some_ne_none _⟩
    exact hoff k' hk' hash' hkr' hon'

/-- A wallet on one chain can be compared with every view. -/
theorem OneChain.trackable (h : OneChain T d prevTip)
    (hb : ∀ b, d.birthday = some b → b ≤ prevTip.height) (view : ChainView) :
    Trackable T d prevTip view := by
  refine ⟨fun hnone => ?_, fun hash hr _ => ?_, fun b hbirthday hlt => ?_⟩
  · have := hnone _ (tip_mem_locatorBlockHeights _)
    rw [h.recorded] at this
    cases this
  · rw [h.recorded] at hr
    exact (Option.some.inj hr).symm
  · have := hb b hbirthday
    omega

end pure

/-! ## One iteration -/

/-- Programs that neither assert anything nor store blocks. -/
def calm : Bounds syncSig SyncError where
  ops o := (∀ message, o ≠ .panic message) ∧ ∀ fromState blocks, o ≠ .db (.putBlocks fromState blocks)
  answers _ _ := True
  errors _ := True

theorem lookups_calm : Lookups calm where
  reads o ho := ⟨fun message h => by rw [h] at ho; exact ho,
    fun fromState blocks h => by rw [h] at ho; exact ho⟩
  chainError _ _ _ := trivial
  otherError _ _ := trivial

theorem calm_signals (o : SyncOp) (ho : o.Signals) : calm.ops o :=
  ⟨fun message h => by rw [h] at ho; exact ho, fun fromState blocks h => by rw [h] at ho; exact ho⟩

/-- The operation is not a failed assertion. -/
def NoPanic (o : SyncOp) (_ : SyncWorld) : Prop := ∀ message, o ≠ .panic message

theorem noPanic_quiet (o : SyncOp) (w : SyncWorld) (ho : o.Quiet) : NoPanic o w := by
  rintro message rfl
  exact ho

section iteration

variable {T : BlockTree BlockHash} (U : Upstream) {view : ChainView} {shutdownHeight : Option ℕ}
  {w : SyncWorld}

/-- A calm program is safe and keeps `AtHeights`. -/
theorem wpE_calm {α : Type} {p : SyncM α} (hp : Within calm p) (hw : AtHeights T w.db) :
    wpE (contract T) Eq NoPanic (fun _ w' => AtHeights T w'.db) p w := by
  refine wpE_post (wpE_of_within (I := fun w => AtHeights T w.db) hp hw ?_ ?_) fun _ _ h => h.2
  · rintro w₁ _ h rfl
    exact h
  · intro o w₁ ho h
    refine ⟨ho.1, fun r w₂ hC => ⟨trivial, ?_⟩⟩
    rcases contract_db_cases hC with hd | ⟨height, landed, -, -, rfl⟩ |
      ⟨fromState, blocks, checkpoints, hput, -⟩
    · rw [hd]
      exact h
    · exact h.truncate landed
    · exact absurd hput (ho.2 fromState blocks)

/-- Every streamed block is one above `prev_tip`, so the assertion of the
    apply loop holds. -/
theorem wpE_applyBlocks_noPanic (hview : view.WF T) (blocks : List Block)
    {failure : Option ChainError}
    (hstream : Streams T view (view.tip.height + 1) (w.prevTip.height + 1) blocks failure)
    (hw : AtHeights T w.db) :
    wpE (contract T) Eq NoPanic (fun _ w' => AtHeights T w'.db)
      (applyBlocks U view shutdownHeight blocks) w := by
  induction blocks generalizing w with
  | nil => exact hw
  | cons block rest ih =>
    obtain ⟨hlt, hheight, hhash, hrest⟩ := hstream
    rw [applyBlocks, wpE_bind]
    refine wpE_perform_alone (noPanic_quiet _ _ trivial) ?_
    rintro prevTip w₁ ⟨rfl, rfl⟩
    rw [andThen_ok, wpE_bind]
    refine wpE_assert (fun _ => ?_) fun h => absurd hheight h
    rw [andThen_ok, wpE_bind]
    refine wpE_scanBlock U (Reading.alone noPanic_quiet w₁) view block shutdownHeight rfl ?_ ?_ ?_
    · intro _ _ _
      exact hw
    · rintro fromState scanned w₂ rfl _ hsh hshash
      refine AtPut.single (noPanic_quiet _ _ trivial) ?_ hw fun _ _ => hw
      intro d hd
      have hd' : AtHeights T d := by
        intro k hash hr
        rw [hd] at hr
        by_cases hk : k = scanned.height
        · rw [if_pos hk] at hr
          rw [← Option.some.inj hr, hshash, hhash, hk, hsh, hheight]
          exact hview.height_hashAt (by omega)
        · rw [if_neg hk] at hr
          exact hw k hash hr
      rw [andThen_ok, andThen_ok]
      simp only
      rw [wpE_bind]
      refine wpE_db_alone (noPanic_quiet _ _ trivial) ?_ fun _ _ => hd'
      rintro _ d' rfl
      rw [andThen_ok, wpE_bind]
      refine wpE_perform_alone (noPanic_quiet _ _ trivial) ?_
      rintro _ w₄ rfl
      refine ih ?_ hd'
      rw [hheight]
      exact hrest
    · rintro _ _ rfl _
      exact hw

theorem wpE_applyToTip_noPanic (hview : view.WF T) (hw : AtHeights T w.db) :
    wpE (contract T) Eq NoPanic (fun _ w' => AtHeights T w'.db)
      (applyToTip U view shutdownHeight) w := by
  unfold applyToTip
  rw [wpE_bind]
  refine wpE_perform_alone (noPanic_quiet _ _ trivial) ?_
  rintro prevTip w₁ ⟨rfl, rfl⟩
  rw [andThen_ok, wpE_bind]
  refine wpE_chain_alone (noPanic_quiet _ _ trivial) ?_ fun _ => hw
  intro stream hstream
  rw [andThen_ok, wpE_bind]
  refine wpE_post (wpE_applyBlocks_noPanic U hview stream.blocks hstream hw) fun r w₂ hw₂ => ?_
  match r with
  | .error e => exact hw₂
  | .ok (.Break boundary) => exact hw₂
  | .ok (.Continue ()) =>
    show wpE _ _ _ _ (endOfStream stream.failure >>= _) w₂
    rw [wpE_bind]
    cases stream.failure with
    | none => exact hw₂
    | some e => exact hw₂

theorem wpE_rewindToForkPoint_noPanic {forkPoint prevTip : ChainBlock} (hw : AtHeights T w.db)
    (hlt : forkPoint ≠ prevTip → forkPoint.height < prevTip.height) :
    wpE (contract T) Eq NoPanic (fun _ w' => AtHeights T w'.db)
      (rewindToForkPoint forkPoint prevTip) w := by
  unfold rewindToForkPoint
  split
  · rename_i hne
    rw [wpE_bind]
    refine wpE_assert (fun _ => ?_) fun h => absurd (hlt hne) h
    refine wpE_calm ?_ hw
    refine (within_truncateToWalletCheckpoint lookups_calm (by simp [calm]) _).bind
      fun resumeFrom => ?_
    refine (within_perform (calm_signals _ (by trivial))).bind fun _ => ?_
    exact within_perform (by simp [calm])
  · exact hw

/-- An iteration on a view with which the wallet can be compared fails no
    assertion. -/
theorem wpE_iterationOn_noPanic (hview : view.WF T) (h : Trackable T w.db w.prevTip view)
    (hw : AtHeights T w.db) :
    wpE (contract T) Eq NoPanic (fun _ w' => AtHeights T w'.db)
      (iterationOn U view shutdownHeight) w := by
  have hfinish : ∀ tipChanged (w' : SyncWorld), AtHeights T w'.db →
      wpE (contract T) Eq NoPanic (fun _ w' => AtHeights T w'.db)
        (finishIteration view view.tip tipChanged shutdownHeight) w' := by
    intro tipChanged w' hw'
    refine wpE_calm ?_ hw'
    unfold finishIteration
    split
    · exact Within.pure _
    · refine (within_reachTip calm_signals lookups_calm view tipChanged ?_ ?_).bind
        fun _ => Within.pure _
      · simp [calm]
      · simp [calm]
  unfold iterationOn
  rw [wpE_bind]
  refine wpE_chain_alone (noPanic_quiet _ _ trivial) ?_ fun _ => hw
  intro currentTip htip
  obtain rfl : currentTip = view.tip := htip
  rw [andThen_ok, wpE_bind]
  refine wpE_perform_alone (noPanic_quiet _ _ trivial) ?_
  rintro prevTip w₁ ⟨rfl, rfl⟩
  rw [andThen_ok]
  split
  · unfold followTip
    rw [wpE_bind, wpE_bind]
    refine wpE_announceTip noPanic_quiet view.tip fun w₂ hd hp => ?_
    have hw₂ : AtHeights T w₂.db := by
      rw [hd]
      exact hw
    rw [andThen_ok, wpE_bind]
    refine wpE_perform_alone (noPanic_quiet _ _ trivial) ?_
    rintro prevTip w₃ ⟨rfl, rfl⟩
    rw [andThen_ok, wpE_bind]
    refine wpE_locateForkPoint noPanic_quiet view _ ?_ fun _ _ => hw₂
    intro forkPoint hfork
    rw [hd, hp] at hfork
    obtain ⟨hle, hlt⟩ := h.forkPoint hw hview hfork
    rw [andThen_ok, wpE_bind]
    refine wpE_assert (fun _ => ?_) fun h => absurd hle h
    rw [andThen_ok, wpE_bind, hp]
    refine wpE_post (wpE_rewindToForkPoint_noPanic hw₂ hlt) fun r w₄ hw₄ => ?_
    cases r with
    | error e => exact hw₄
    | ok _ =>
      rw [andThen_ok]
      refine wpE_post (wpE_applyToTip_noPanic U hview hw₄) fun r w₅ hw₅ => ?_
      match r with
      | .error e => exact hw₅
      | .ok (.Break boundary) => exact hw₅
      | .ok (.Continue ()) => exact hfinish true w₅ hw₅
  · exact hfinish false w₁ hw

end iteration

/-! ## Whole runs -/

/-- A captured view is one with which the wallet can be compared. -/
def Tracked (T : BlockTree BlockHash) : (o : SyncOp) → SyncWorld → o.Ret → Prop
  | .chain .snapshot, w, .ok view => Trackable T w.db w.prevTip view
  | _, _, _ => True

/-- The contract under which an iteration runs when it only captures such
    views. -/
def tracking (T : BlockTree BlockHash) : Contract syncSig SyncWorld :=
  (contract T).restrict (Tracked T)

/-- What `initialize` hands to `steady_state`. -/
def Handoff (T : BlockTree BlockHash) (U : Upstream) (shutdownHeight : Option ℕ) (w : SyncWorld)
    (s : SteadyHead) : Prop :=
  ∃ n τ tip boundary w₁, Run (contract T) (initializeWallet U shutdownHeight n).run w τ
    (.ok (.Break (tip, boundary))) w₁ ∧
    s = ⟨default, { w₁ with prevTip := tip, boundary := boundary }⟩

section runs

variable {T : BlockTree BlockHash} {U : Upstream} {shutdownHeight : Option ℕ}

theorem Handoff.atHeights {w : SyncWorld} {s : SteadyHead} (h : Handoff T U shutdownHeight w s)
    (hw : AtHeights T w.db) : AtHeights T s.world.db := by
  obtain ⟨n, τ, tip, boundary, w₁, hrun, rfl⟩ := h
  obtain ⟨-, -, -, -, -, -, hext, -⟩ := run_initializeWallet U hrun
  exact hw.extends hext (snapshots_wf hrun)

theorem wpE_steadyStateIteration_noPanic {w : SyncWorld} (hw : AtHeights T w.db) :
    wpE (tracking T) Eq NoPanic (fun _ w' => AtHeights T w'.db)
      (steadyStateIteration U shutdownHeight) w := by
  unfold steadyStateIteration
  rw [wpE_bind, wpE_chain]
  rintro w₁ rfl
  refine ⟨noPanic_quiet _ _ trivial, ?_⟩
  rintro r w₂ ⟨⟨hserves, rfl⟩, htrack⟩
  cases r with
  | error e => exact hw
  | ok view =>
    refine wp_anti (wpE_iterationOn_noPanic U hserves htrack hw) ?_ fun _ _ h => h
    exact fun _ _ _ _ h => h.1

/-- Handling an outcome stores no blocks and asserts nothing. -/
theorem handling_calm : Handling calm where
  toLookups := lookups_calm
  snapshot := by simp [calm]
  truncates := by simp [calm]
  getPrevTip := by simp [calm]
  setPrevTip := by simp [calm]
  begins := by simp [calm]
  pause := by simp [calm]

theorem SteadyTurn.atHeights {s s' : SteadyHead}
    (h : SteadyTurn U shutdownHeight (tracking T) (fun _ => contract T) s s')
    (hw : AtHeights T s.world.db) : AtHeights T s'.world.db := by
  obtain ⟨τ, outcome, w, τ', h₁, h₂⟩ := h
  have hw₁ := wp_run (wpE_steadyStateIteration_noPanic hw) h₁
  have hw₂ := wp_run (wpE_calm (within_handleOutcome handling_calm s.recovery outcome) hw₁) h₂
  exact hw₂

theorem SteadyTurns.atHeights {s s' : SteadyHead}
    (h : SteadyTurns U shutdownHeight (tracking T) (fun _ => contract T) s s')
    (hw : AtHeights T s.world.db) : AtHeights T s'.world.db := by
  induction h with
  | refl => exact hw
  | tail _ hturn ih => exact hturn.atHeights ih

/-- No assertion of the steady-state task fails in a run from `initialize` on
    in which every iteration captures a view with which the wallet can be
    compared. -/
theorem steadyState_never_panics (T : BlockTree BlockHash) (U : Upstream)
    (shutdownHeight : Option ℕ) (w : SyncWorld) (s s' : SteadyHead) (hw : AtHeights T w.db)
    (hstart : Handoff T U shutdownHeight w s)
    (hrun : SteadyTurns U shutdownHeight (tracking T) (fun _ => contract T) s s')
    (message : String) (w' : SyncWorld) :
    ¬ Performs (tracking T) (steadyStateIteration U shutdownHeight).run s'.world
      (.panic message) w' := by
  intro hp
  have hs' := hrun.atHeights (hstart.atHeights hw)
  exact wp_performs (wpE_steadyStateIteration_noPanic hs') hp message rfl

end runs

/-! ## Two runs -/

/-- An iteration on a view with which the wallet can be compared is one of
    `tracking`. -/
theorem run_tracking {T : BlockTree BlockHash} {U : Upstream} {shutdownHeight : Option ℕ}
    {w w' : SyncWorld} {view : ChainView} {τ : List (Event syncSig)}
    {outcome : Except SyncError (ControlFlow ℕ Unit)} (hview : view.WF T)
    (htrack : Trackable T w.db w.prevTip view) (hτ : snapshots τ = [])
    (h : Run (contract T) (iterationOn U view shutdownHeight).run w τ outcome w') :
    Run (tracking T) (steadyStateIteration U shutdownHeight).run w
      (⟨.chain .snapshot, .ok view⟩ :: τ) outcome w' := by
  have hsnap : tracking T (.chain .snapshot) w (.ok view) w := ⟨⟨hview, rfl⟩, htrack⟩
  refine .step hsnap (Reaches.restrict h fun ev hev w => ?_)
  obtain ⟨o, r⟩ := ev
  simp only
  fun_cases Tracked T o w r with
  | case1 w v =>
    have hv := mem_snapshots.mpr hev
    rw [hτ] at hv
    cases hv
  | case2 => trivial

/-- A fresh wallet after `initialize` on a chain of height 5. -/
def startedAtFive (s : Script) : SyncWorld :=
  { (exec s.replay 60 (initializeWallet .watchNothing none 2).run
      ⟨walletWith fun _ => none, [.ok ⟨⟨5, forkBlock 0 5⟩⟩]⟩).2.2.world with
    prevTip := ⟨5, forkBlock 0 5⟩
    boundary := 0 }

theorem walletWith_none_atHeights (T : BlockTree BlockHash) :
    AtHeights T (walletWith fun _ => none).db := by
  intro h hash hr
  cases hr

/-- The wallet records block 5, follows the chain to block 6, and fails no
    assertion in the next iteration. -/
theorem steadyState_never_panics_extended :
    ∃ s', SteadyTurn .watchNothing none (tracking (forkTree 2)) (fun _ => contract (forkTree 2))
      ⟨default, startedAtFive (Script.quiet (forkTree 2))⟩ s' ∧
      s'.world.prevTip = ⟨6, forkBlock 0 6⟩ ∧ ∀ message w',
        ¬ Performs (tracking (forkTree 2)) (steadyStateIteration .watchNothing none).run s'.world
          (.panic message) w' := by
  have hkeeps := (Script.quiet (forkTree 2)).replay_keeps
  have hstart : Handoff (forkTree 2) .watchNothing none (walletWith fun _ => none)
      ⟨default, startedAtFive (Script.quiet (forkTree 2))⟩ :=
    ⟨2, _, ⟨5, forkBlock 0 5⟩, 0, _, exec_run hkeeps (n := 60)
      (s := ⟨walletWith fun _ => none, [.ok ⟨⟨5, forkBlock 0 5⟩⟩]⟩) (by decide +kernel), rfl⟩
  have hone : OneChain (forkTree 2) (startedAtFive (Script.quiet (forkTree 2))).db
      ⟨5, forkBlock 0 5⟩ :=
    oneChain_of_check (by decide +kernel) (by decide +kernel) (by decide +kernel)
  have hbirthday : (startedAtFive (Script.quiet (forkTree 2))).db.birthday = none := by
    decide +kernel
  have htrack := hone.trackable (by rw [hbirthday]; simp) ⟨⟨6, forkBlock 0 6⟩⟩
  have hrun := exec_run hkeeps (n := 60)
    (p := (iterationOn .watchNothing ⟨⟨6, forkBlock 0 6⟩⟩ none).run)
    (s := ⟨startedAtFive (Script.quiet (forkTree 2)), []⟩) (a := .ok (.Continue ()))
    (by decide +kernel)
  have hwf : (⟨⟨6, forkBlock 0 6⟩⟩ : ChainView).WF (forkTree 2) :=
    show (forkTree 2).height (forkBlock 0 6) = 6 by decide +kernel
  have houtcome := exec_run hkeeps (n := 10) (p := (handleOutcome default (.ok (.Continue ()))).run)
    (s := (exec (Script.quiet (forkTree 2)).replay 60
      (iterationOn .watchNothing ⟨⟨6, forkBlock 0 6⟩⟩ none).run
      ⟨startedAtFive (Script.quiet (forkTree 2)), []⟩).2.2)
    (a := .ok (.Continue default)) (by decide +kernel)
  have hturn : SteadyTurn .watchNothing none (tracking (forkTree 2))
      (fun _ => contract (forkTree 2))
      ⟨default, startedAtFive (Script.quiet (forkTree 2))⟩ ⟨default, _⟩ :=
    ⟨_, _, _, _, run_tracking hwf htrack (by decide +kernel) hrun, houtcome⟩
  refine ⟨_, hturn, by decide +kernel, ?_⟩
  exact steadyState_never_panics _ _ _ _ _ _ (walletWith_none_atHeights _) hstart (.single hturn)

/-- If `initialize` could not record block 5 and the chain is then shorter,
    the first assertion fails. -/
theorem steadyState_panics :
    ∃ s, AtHeights (forkTree 2) (walletWith fun _ => none).db ∧
      Handoff (forkTree 2) .watchNothing none (walletWith fun _ => none) s ∧
      ∃ message w', Performs (contract (forkTree 2))
        (steadyStateIteration .watchNothing none).run s.world (.panic message) w' := by
  refine ⟨⟨default, startedAtFive noBlocks⟩, walletWith_none_atHeights _, ?_, ?_⟩
  · exact ⟨2, _, ⟨5, forkBlock 0 5⟩, 0, _, exec_run noBlocks.replay_keeps (n := 60)
      (s := ⟨walletWith fun _ => none, [.ok ⟨⟨5, forkBlock 0 5⟩⟩]⟩) (by decide +kernel), rfl⟩
  · exact ⟨"assertion failed: fork_point.height() <= current_tip.height()", _,
      exec_performs noBlocks.replay_keeps (n := 60)
        (s := ⟨startedAtFive noBlocks, [.ok ⟨⟨3, forkBlock 0 3⟩⟩]⟩) (by decide +kernel)⟩

end Zallet.Sync
