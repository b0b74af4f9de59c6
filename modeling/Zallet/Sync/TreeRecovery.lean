import Zallet.Sync.Rewind

/-!
# Recovering from a diverged note commitment tree

`TreeRecovery` and `recover_from_tree_divergence` (`sync.rs`, lines 523–735):
after each divergence the wallet is rolled back one rung further down a fixed
ladder, until it climbs above the tip at which the divergence was first seen
or the ladder ends.
-/

namespace Zallet.Sync

open Zallet.Effect Zallet.Common Zallet.Chain Zallet.Wallet

/-- `TREE_RECOVERY_LADDER`. -/
def treeRecoveryLadder : List ℕ := [1, 100, 288, 288 * 4, 288 * 16, 288 * 64]

/-- `TreeRecovery` (lines 568–579). -/
structure TreeRecovery where
  attempts : ℕ
  highWater : Option ℕ
  deriving DecidableEq

/-- `TreeRecovery::default()`. -/
instance : Inhabited TreeRecovery := ⟨⟨0, none⟩⟩

namespace TreeRecovery

/-- `TreeRecovery::next_depth` (lines 584–589). -/
def nextDepth (self : TreeRecovery) (walletTip : ℕ) : TreeRecovery × Option ℕ :=
  let self := { self with highWater := some (self.highWater.getD walletTip) }
  match treeRecoveryLadder[self.attempts]? with
  | none => (self, none)
  | some depth => ({ self with attempts := self.attempts + 1 }, some depth)

/-- `TreeRecovery::note_progress` (lines 593–601). -/
def noteProgress (self : TreeRecovery) (walletTip : ℕ) : TreeRecovery × Bool :=
  match self.highWater with
  | some highWater => if highWater < walletTip then (default, true) else (self, false)
  | none => (self, false)

/-- `TreeRecovery::observed_at` (lines 604–606). -/
def observedAt (self : TreeRecovery) (walletTip : ℕ) : ℕ := self.highWater.getD walletTip

end TreeRecovery

/-- `tree_recovery_target` (lines 614–625). -/
def treeRecoveryTarget (walletTip depth birthday : ℕ) : Option ℕ :=
  let target := max (walletTip - depth) birthday
  if target < walletTip then some target else none

/-- `recover_from_tree_divergence` (lines 703–735). The updated bookkeeping is
    returned with the block to resume from. -/
def recoverFromTreeDivergence (prevTip : ChainBlock) (recovery : TreeRecovery) :
    SyncM (ChainBlock × TreeRecovery) := do
  let birthday ← db .getWalletBirthday
  let birthday := birthday.getD 0
  let (recovery, depth) := recovery.nextDepth prevTip.height
  let observedAt := recovery.observedAt prevTip.height
  let giveUp := fun rolledBackTo => SyncError.WalletTreeDiverged observedAt rolledBackTo birthday
  let target ← okOr (giveUp prevTip.height)
    (depth.bind fun depth => treeRecoveryTarget prevTip.height depth birthday)
  let resumeFrom ← truncateToWalletCheckpoint target
  if prevTip.height ≤ resumeFrom.height then throw (giveUp resumeFrom.height)
  else pure (resumeFrom, recovery)

theorem treeRecoveryTarget_some {walletTip depth birthday target : ℕ}
    (h : treeRecoveryTarget walletTip depth birthday = some target) :
    target = max (walletTip - depth) birthday ∧ target < walletTip := by
  unfold treeRecoveryTarget at h
  by_cases hlt : max (walletTip - depth) birthday < walletTip
  · simp only [if_pos hlt] at h
    have := Option.some.inj h
    omega
  · simp only [if_neg hlt] at h
    cases h

section

variable {T : BlockTree BlockHash} {ok : SyncOp → SyncWorld → Prop} {w : SyncWorld}

/-- The outcomes of a recovery attempt: the wallet moves strictly down to one
    of its checkpoints, or the task fails. -/
theorem wpE_recoverFromTreeDivergence (hok : ∀ o w, o.Quiet → ok o w) (prevTip : ChainBlock)
    (recovery : TreeRecovery)
    {Q : Except SyncError (ChainBlock × TreeRecovery) → SyncWorld → Prop}
    (hQ : ∀ (block : ChainBlock), block.height < prevTip.height →
      w.db.blocks block.height = some block.hash →
      Q (.ok (block, (recovery.nextDepth prevTip.height).1))
        { w with db := w.db.truncate block.height })
    (hE : ∀ e w', Q (.error e) w') :
    wpE (contract T) Eq ok Q (recoverFromTreeDivergence prevTip recovery) w := by
  unfold recoverFromTreeDivergence
  rw [wpE_bind]
  refine wpE_db_alone (hok _ _ trivial) ?_ fun e _ => hE _ _
  rintro birthday db' ⟨rfl, rfl⟩
  rw [andThen_ok]
  simp only
  rw [wpE_bind, wpE_okOr]
  refine ⟨fun target htarget => ?_, fun _ => hE _ _⟩
  rw [andThen_ok, wpE_bind]
  apply wpE_of_rewinding
  refine wpE_truncateToWalletCheckpoint hok target ?_ (fun e _ _ => hE _ _)
    fun e _ _ _ _ _ => hE _ _
  intro block _ hl hb
  rw [andThen_ok]
  by_cases hlow : prevTip.height ≤ block.height
  · rw [if_pos hlow]
    exact hE _ _
  · rw [if_neg hlow]
    exact hQ block (by omega) hb

end

end Zallet.Sync
