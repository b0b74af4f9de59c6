import Zallet.Sync.Locator
import Zallet.Sync.Replay
import Zallet.Sync.Steps

/-!
# Rewinding the wallet

`resume_point` and `truncate_to_wallet_checkpoint` (`sync.rs`, lines 627–689):
the wallet is truncated to a checkpoint and sync resumes from the block it
landed on.

Where the wallet lands is `Lands`: the greatest checkpoint at or below the
target or, when there is none, the lowest checkpoint, which is then above the
target. `wpE_truncateToWalletCheckpoint` is the specification of the call.
-/

namespace Zallet.Sync

open Zallet.Effect Zallet.Common Zallet.Chain Zallet.Wallet

/-- `resume_point` (lines 632–651). -/
def resumePoint (requested : ℕ) (actual : Option (ℕ × BlockHash)) : Except SyncError ChainBlock :=
  match actual with
  | none =>
    .error (.Chain (.Backend
      s!"the wallet has no block recorded at {requested} after truncating to it"))
  | some (height, hash) => .ok ⟨height, hash⟩

/-- The `match` of `truncate_to_wallet_checkpoint` (lines 668–684): truncate,
    and if the wallet has no checkpoint that low, truncate to the lowest one
    it has. -/
def truncateOrLowest (target : ℕ) : SyncM ℕ := do
  match ← dbTry (.truncateToHeight target) with
  | .ok height => pure height
  | .error (.RequestedRewindInvalid (some safe) _) => db (.truncateToHeight safe)
  | .error e => throw (.Other e)

/-- `truncate_to_wallet_checkpoint` (lines 664–689). -/
def truncateToWalletCheckpoint (target : ℕ) : SyncM ChainBlock := do
  let actual ← truncateOrLowest target
  let hash ← db (.getBlockHash actual)
  ofOutcome (resumePoint actual (hash.map fun h => (actual, h)))

/-- Where a rewind to `target` can land. -/
def Lands (d : WalletDb) (target landed : ℕ) : Prop :=
  d.IsRewind target landed ∨
    ((∀ c ∈ d.checkpoints, target < c) ∧ d.checkpoints.min? = some landed)

/-- The contract of the operations when the wallet is only truncated in
    worlds that satisfy `guard`. -/
def rewinding (T : BlockTree BlockHash) (guard : SyncWorld → ℕ → Prop) :
    Contract syncSig SyncWorld :=
  (contract T).restrict fun o w _ => ∀ target, o = .db (.truncateToHeight target) → guard w target

theorem rewinding_contract {T : BlockTree BlockHash} {guard : SyncWorld → ℕ → Prop}
    (o : SyncOp) (w : SyncWorld) (r : o.Ret) (w' : SyncWorld) (h : rewinding T guard o w r w') :
    contract T o w r w' := h.1

/-- A specification for every guard gives one for a particular guard. -/
theorem wpE_rewinding {T : BlockTree BlockHash} {guard : SyncWorld → ℕ → Prop} {α : Type}
    {ok : SyncOp → SyncWorld → Prop} {Q : Except SyncError α → SyncWorld → Prop} {p : SyncM α}
    {w : SyncWorld} (h : wpE (contract T) Eq ok Q p w) : wpE (rewinding T guard) Eq ok Q p w :=
  wp_anti h rewinding_contract fun _ _ h => h

/-- No guard at all. -/
theorem wpE_of_rewinding {T : BlockTree BlockHash} {α : Type} {ok : SyncOp → SyncWorld → Prop}
    {Q : Except SyncError α → SyncWorld → Prop} {p : SyncM α} {w : SyncWorld}
    (h : wpE (rewinding T fun _ _ => True) Eq ok Q p w) : wpE (contract T) Eq ok Q p w :=
  wp_anti h (fun _ _ _ _ h => ⟨h, fun _ _ => trivial⟩) fun _ _ h => h

section

variable {T : BlockTree BlockHash} {guard : SyncWorld → ℕ → Prop}
  {ok : SyncOp → SyncWorld → Prop} {w : SyncWorld}

theorem wpE_truncateOrLowest (hok : ∀ o w, o.Quiet → ok o w) (target : ℕ)
    {Q : Except SyncError ℕ → SyncWorld → Prop}
    (hQ : ∀ landed, guard w target → Lands w.db target landed →
      Q (.ok landed) { w with db := w.db.truncate landed })
    (hE : ∀ e, SyncError.NoConflict (.Other e) → Q (.error (.Other e)) w) :
    wpE (rewinding T guard) Eq ok Q (truncateOrLowest target) w := by
  unfold truncateOrLowest
  rw [wpE_bind, wpE_dbTry]
  rintro w₁ rfl
  refine ⟨hok _ _ trivial, ?_⟩
  rintro r w₂ ⟨⟨db', ha, rfl⟩, hguard⟩
  have hg := hguard target rfl
  cases r with
  | ok landed =>
    obtain ⟨hr, rfl⟩ := ha
    exact hQ landed hg (Or.inl hr)
  | error e =>
    obtain ⟨hf, rfl⟩ := ha
    rw [andThen_ok]
    split
    · contradiction
    · -- the second truncation is to a checkpoint, so it lands there
      rename_i safe requested hsafe
      cases hsafe
      obtain ⟨ho, hnone, hmin⟩ := hf
      have hreq : target = requested := by injection ho
      rw [← hreq] at hnone
      apply wpE_rewinding
      refine wpE_db_alone (hok _ _ trivial) ?_ ?_
      · rintro landed db' ⟨hr, rfl⟩
        have hl : landed = safe := hr.unique (WalletDb.isRewind_min hmin.symm)
        rw [hl]
        exact hQ safe hg (Or.inr ⟨hnone, hmin.symm⟩)
      · intro e he
        exact hE e (noConflict_of_fails (by simp) he)
    · rename_i e' _ he'
      cases he'
      exact hE e (noConflict_of_fails (by simp) hf)

/-- The outcomes of `truncate_to_wallet_checkpoint`. If it fails, the wallet
    may have been truncated already. -/
theorem wpE_truncateToWalletCheckpoint (hok : ∀ o w, o.Quiet → ok o w) (target : ℕ)
    {Q : Except SyncError ChainBlock → SyncWorld → Prop}
    (hQ : ∀ block : ChainBlock, guard w target → Lands w.db target block.height →
      w.db.blocks block.height = some block.hash →
      Q (.ok block) { w with db := w.db.truncate block.height })
    (hE : ∀ e, e.NoConflict → isRetryable e = false → Q (.error e) w)
    (hE' : ∀ e landed, e.NoConflict → isRetryable e = false → guard w target →
      Lands w.db target landed → Q (.error e) { w with db := w.db.truncate landed }) :
    wpE (rewinding T guard) Eq ok Q (truncateToWalletCheckpoint target) w := by
  unfold truncateToWalletCheckpoint
  rw [wpE_bind]
  refine wpE_truncateOrLowest hok target ?_ ?_
  · intro landed hg hl
    rw [andThen_ok, wpE_bind]
    apply wpE_rewinding
    refine wpE_db_alone (hok _ _ trivial) ?_ ?_
    · rintro hash db' ⟨rfl, rfl⟩
      rw [andThen_ok, wpE_ofOutcome, WalletDb.truncate_blocks, if_pos le_rfl]
      cases hb : w.db.blocks landed with
      | none => exact hE' _ landed (SyncError.noConflict_chain _) rfl hg hl
      | some hash => exact hQ ⟨landed, hash⟩ hg hl hb
    · intro e he
      exact hE' _ landed (noConflict_of_fails (by simp) he) rfl hg hl
  · intro e he
    exact hE _ he rfl

end

theorem within_truncateToWalletCheckpoint {B : Bounds syncSig SyncError} (hB : Lookups B)
    (htruncate : ∀ height, B.ops (.db (.truncateToHeight height))) (target : ℕ) :
    Within B (truncateToWalletCheckpoint target) := by
  have htry : ∀ height, Within B (dbTry (.truncateToHeight height)) := fun height =>
    within_perform (htruncate height)
  have hdb : ∀ height, Within B (db (.truncateToHeight height)) := fun height =>
    within_db (htruncate height) fun _ => hB.otherError _ rfl
  unfold truncateToWalletCheckpoint truncateOrLowest
  refine Within.bind ?_ fun actual => ?_
  · refine (htry target).bind fun r => ?_
    split
    · exact Within.pure _
    · exact hdb _
    · exact Within.throw (hB.otherError _ rfl)
  · refine (hB.db (by trivial)).bind fun hash => ?_
    intro e he
    cases hash with
    | none =>
      cases he
      exact hB.otherError _ rfl
    | some hash => cases he

/-- The script, stopped before a truncation that does not satisfy `guard`. -/
def Script.rewindingReplay (s : Script) (guard : SyncWorld → ℕ → Bool) : Handler syncSig Replay :=
  s.replay.restrict fun o σ =>
    match o with
    | .db (.truncateToHeight target) => guard σ.world target
    | _ => true

theorem Script.rewindingReplay_keeps (s : Script) {guard : SyncWorld → ℕ → Bool}
    {guard' : SyncWorld → ℕ → Prop} (h : ∀ w target, guard w target = true → guard' w target) :
    (s.rewindingReplay guard).Keeps (rewinding s.tree guard') Replay.world := by
  refine s.replay_keeps.restrict ?_
  rintro o σ r hc target rfl
  exact h σ.world target hc

/-! ## How far a rewind goes -/

/-- Without a checkpoint at or below the target, the rewind ends at the lowest
    checkpoint, above the target. -/
theorem run_truncateToWalletCheckpoint_lowest (T : BlockTree BlockHash) {w : SyncWorld}
    {target safe : ℕ} {hash : BlockHash} (hnone : ∀ c ∈ w.db.checkpoints, target < c)
    (hmin : w.db.checkpoints.min? = some safe) (hb : w.db.blocks safe = some hash) :
    ∃ τ, Run (contract T) (truncateToWalletCheckpoint target).run w τ (.ok ⟨safe, hash⟩)
      { w with db := w.db.truncate safe } := by
  have h₁ : contract T (.db (.truncateToHeight target)) w
      (.error (.RequestedRewindInvalid (some safe) target)) w :=
    ⟨w.db, ⟨⟨rfl, hnone, hmin.symm⟩, rfl⟩, rfl⟩
  have h₂ : contract T (.db (.truncateToHeight safe)) w (.ok safe)
      { w with db := w.db.truncate safe } :=
    ⟨w.db.truncate safe, ⟨WalletDb.isRewind_min hmin, rfl⟩, rfl⟩
  have hb' : some hash = (w.db.truncate safe).blocks safe := by
    rw [WalletDb.truncate_blocks, if_pos le_rfl, hb]
  have h₃ : contract T (.db (.getBlockHash safe)) { w with db := w.db.truncate safe }
      (.ok (some hash)) { w with db := w.db.truncate safe } :=
    ⟨w.db.truncate safe, ⟨hb', rfl⟩, rfl⟩
  exact ⟨_, .step h₁ (.step h₂ (.step h₃ (.refl _ _)))⟩

/-- The rewind leaves nothing above the target, whatever the database
    answers, exactly if the wallet has a checkpoint at or below the target or
    cannot resume from its lowest checkpoint, because there is none or no
    block is recorded at it. -/
theorem truncateToWalletCheckpoint_le_target_iff (T : BlockTree BlockHash) (w : SyncWorld)
    (target : ℕ) :
    (∀ τ block w', Run (contract T) (truncateToWalletCheckpoint target).run w τ (.ok block) w' →
      block.height ≤ target ∧ ∀ h, target < h → w'.db.blocks h = none) ↔
    (∃ c ∈ w.db.checkpoints, c ≤ target) ∨
      ∀ c, w.db.checkpoints.min? = some c → w.db.blocks c = none := by
  constructor
  · intro h
    by_contra hc
    obtain ⟨hnone, hlow⟩ := not_or.mp hc
    push Not at hnone hlow
    obtain ⟨safe, hmin, hb⟩ := hlow
    obtain ⟨hash, hhash⟩ := Option.ne_none_iff_exists'.mp hb
    obtain ⟨τ, hrun⟩ := run_truncateToWalletCheckpoint_lowest T hnone hmin hhash
    have hle := (h τ _ _ hrun).1
    have hgt := hnone safe (List.min?_mem hmin)
    exact absurd hle (by simpa using hgt)
  · intro hc τ block w' hrun
    -- the only landing above the target is the lowest checkpoint
    have hwp : wpE (contract T) Eq (fun _ _ => True)
        (fun r w' => ∀ block, r = .ok block →
          block.height ≤ target ∧ ∀ h, target < h → w'.db.blocks h = none)
        (truncateToWalletCheckpoint target) w := by
      apply wpE_of_rewinding
      refine wpE_truncateToWalletCheckpoint (fun _ _ _ => trivial) target ?_ ?_ ?_
      · intro b _ hl hb b' hb'
        obtain rfl : b = b' := Except.ok.inj hb'
        have hle : b.height ≤ target := by
          rcases hl with hl | ⟨hnone, hmin⟩
          · exact hl.le
          · rcases hc with ⟨c, hcm, hcle⟩ | hlow
            · have := hnone c hcm
              omega
            · rw [hlow b.height hmin] at hb
              cases hb
        refine ⟨hle, fun h hh => ?_⟩
        rw [WalletDb.truncate_blocks, if_neg (by omega)]
      · rintro e - - b hb
        cases hb
      · rintro e landed - - - - b hb
        cases hb
    exact wp_run hwp hrun block rfl

/-- A wallet whose only checkpoint, and only block, is at height 10. -/
def onlyCheckpointTen : SyncWorld where
  db := { blocks := fun h => if h = 10 then some (forkBlock 0 10) else none
          checkpoints := [10]
          birthday := none }
  signals := .initial
  prevTip := ⟨10, forkBlock 0 10⟩
  boundary := 0

/-- Asked to rewind to 5, that wallet stays at 10. -/
theorem truncateToWalletCheckpoint_stays_above :
    ∃ τ w', Run (contract (forkTree 0)) (truncateToWalletCheckpoint 5).run onlyCheckpointTen τ
      (.ok ⟨10, forkBlock 0 10⟩) w' ∧ w'.db.blocks 10 = some (forkBlock 0 10) ∧ ¬ 10 ≤ 5 := by
  have hnone : ∀ c ∈ onlyCheckpointTen.db.checkpoints, 5 < c := by decide
  have hb : onlyCheckpointTen.db.blocks 10 = some (forkBlock 0 10) := rfl
  obtain ⟨τ, hrun⟩ := run_truncateToWalletCheckpoint_lowest (forkTree 0) hnone rfl hb
  exact ⟨τ, _, hrun, rfl, by decide⟩

end Zallet.Sync
