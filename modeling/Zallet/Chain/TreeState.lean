import Zallet.Chain.Consensus
import Zallet.Chain.Types

/-!
# Frontiers from a backend's answers

Both backends build a `ChainState` from what they are served for each pool: the
bytes of a tree, or nothing. `treeFrom` is the match they share, and `Grounded`
what the documentation of `tree_state_as_of` asks of its result: a frontier is
decoded from the bytes that were served, or it is empty and the pool was not
active yet.
-/

namespace Zallet.Chain

/-- `CommitmentTree::empty().to_frontier()`. -/
def Frontier.empty : Frontier := ⟨[], 0⟩

/-- The frontier of a pool. -/
def ChainState.tree (cs : ChainState) : TreePool → Frontier
  | .Sapling => cs.finalSaplingTree
  | .Orchard => cs.finalOrchardTree
  | .Ironwood => cs.finalIronwoodTree

/-- `read_commitment_tree(..)` and `to_frontier`, for each pool. -/
abbrev TreeCodec : Type := TreePool → List UInt8 → Except String Frontier

/-- The frontier of a pool that was served `answer`: `undecodable` is the error
    of bytes that do not decode, `missing` that of a tree that is absent where
    it may not be. -/
def treeFrom (decode : List UInt8 → Except String Frontier) (undecodable : String → ChainError)
    (absentTreeIsEmpty : Bool) (missing : ChainError) :
    Option (List UInt8) → Except ChainError Frontier
  | some bytes => (decode bytes).mapError undecodable
  | none => if absentTreeIsEmpty then .ok Frontier.empty else .error missing

/-- `tree` is decoded from the bytes served for `pool`, or it is empty, nothing
    was served, and the pool's upgrade is unscheduled or activates above
    `height`. -/
def Grounded (params : Parameters) (decode : TreeCodec) (height : ℕ) (pool : TreePool)
    (answer : Option (List UInt8)) (tree : Frontier) : Prop :=
  (∃ bytes, answer = some bytes ∧ decode pool bytes = .ok tree) ∨
    (answer = none ∧ tree = Frontier.empty ∧
      ∀ activation ∈ params.activationHeight pool.activatedBy, height < activation)

/-- The pool is active at `height`. -/
def ActiveAt (params : Parameters) (height : ℕ) (pool : TreePool) : Prop :=
  ∃ activation ∈ params.activationHeight pool.activatedBy, activation ≤ height

variable {params : Parameters} {decode : TreeCodec} {height : ℕ} {pool : TreePool}
  {undecodable : String → ChainError} {absentTreeIsEmpty : Bool} {missing : ChainError}
  {answer : Option (List UInt8)} {tree : Frontier}

/-- A frontier that `treeFrom` finds is grounded in what was served. -/
theorem grounded_of_treeFrom
    (hempty : absentTreeIsEmpty = true → emptyTreeIsLegitimate params pool height = true)
    (h : treeFrom (decode pool) undecodable absentTreeIsEmpty missing answer = .ok tree) :
    Grounded params decode height pool answer tree := by
  cases answer with
  | some bytes =>
    refine Or.inl ⟨bytes, rfl, ?_⟩
    rw [treeFrom] at h
    cases hdec : decode pool bytes with
    | error e =>
      rw [hdec] at h
      cases h
    | ok tree' =>
      rw [hdec] at h
      cases h
      rfl
  | none =>
    rw [treeFrom] at h
    by_cases habsent : absentTreeIsEmpty = true
    · rw [if_pos habsent] at h
      cases h
      exact Or.inr ⟨rfl, rfl, emptyTreeIsLegitimate_iff.mp (hempty habsent)⟩
    · rw [if_neg habsent] at h
      cases h

/-- At or after activation an absent tree is never taken for an empty one. -/
theorem treeFrom_none
    (hempty : absentTreeIsEmpty = true → emptyTreeIsLegitimate params pool height = true)
    (hactive : ActiveAt params height pool) :
    treeFrom (decode pool) undecodable absentTreeIsEmpty missing none = .error missing := by
  obtain ⟨activation, hmem, hle⟩ := hactive
  rw [treeFrom, if_neg]
  intro habsent
  have := emptyTreeIsLegitimate_iff.mp (hempty habsent) activation hmem
  omega

end Zallet.Chain
