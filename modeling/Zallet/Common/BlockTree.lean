import Mathlib

/-!
# Block trees

Every block names its parent and has a height one above it, so a block fixes
all its ancestors. A *chain* is the list of ancestors of one block, its tip;
two chains that share a block agree everywhere below it.

* `ancestor b k`: the ancestor of `b` at height `k` (meaningful for
  `k ≤ height b`).
* `OnChain tip b`: `b` is `tip` or one of its ancestors. It is reflexive and
  transitive (`OnChain.refl`, `OnChain.trans`).
* `OnChain.ancestor_eq`: a chain agrees below each of its blocks with that
  block's own chain.
-/

namespace Zallet.Common

/-- Blocks of type `B`, each with its height and its parent. The parent of a
    block of height `0` is never used. -/
structure BlockTree (B : Type) where
  height : B → ℕ
  parent : B → B
  height_parent : ∀ b, 0 < height b → height (parent b) + 1 = height b

namespace BlockTree

variable {B : Type} (T : BlockTree B)

/-- The ancestor of `b` at height `k`. -/
def ancestor (b : B) (k : ℕ) : B := T.parent^[T.height b - k] b

/-- `b` is on the chain that ends in `tip`. -/
def OnChain (tip b : B) : Prop := T.height b ≤ T.height tip ∧ T.ancestor tip (T.height b) = b

instance [DecidableEq B] (tip b : B) : Decidable (T.OnChain tip b) :=
  inferInstanceAs (Decidable (T.height b ≤ T.height tip ∧ T.ancestor tip (T.height b) = b))

variable {T}

theorem height_iterate (n : ℕ) (b : B) (hn : n ≤ T.height b) :
    T.height (T.parent^[n] b) = T.height b - n := by
  induction n with
  | zero => simp
  | succ n ih =>
    rw [Function.iterate_succ_apply']
    have hb := ih (by omega)
    have := T.height_parent (T.parent^[n] b) (by omega)
    omega

@[simp] theorem height_ancestor {b : B} {k : ℕ} (hk : k ≤ T.height b) :
    T.height (T.ancestor b k) = k := by
  unfold ancestor
  rw [height_iterate _ _ (by omega)]
  omega

@[simp] theorem ancestor_self (b : B) : T.ancestor b (T.height b) = b := by
  simp [ancestor]

theorem ancestor_ancestor {b : B} {j k : ℕ} (hj : j ≤ k) (hk : k ≤ T.height b) :
    T.ancestor (T.ancestor b k) j = T.ancestor b j := by
  have hh := height_ancestor hk
  unfold ancestor at *
  rw [hh, ← Function.iterate_add_apply]
  congr 1
  omega

/-- The parent of a chain's block is the chain's block one below. -/
theorem parent_ancestor {b : B} {k : ℕ} (hk : k + 1 ≤ T.height b) :
    T.parent (T.ancestor b (k + 1)) = T.ancestor b k := by
  unfold ancestor
  rw [show T.height b - k = T.height b - (k + 1) + 1 by omega, Function.iterate_succ_apply']

theorem onChain_ancestor {tip : B} {k : ℕ} (hk : k ≤ T.height tip) :
    T.OnChain tip (T.ancestor tip k) :=
  ⟨by rw [height_ancestor hk]; exact hk, by rw [height_ancestor hk]⟩

theorem OnChain.refl (b : B) : T.OnChain b b := ⟨le_rfl, ancestor_self b⟩

/-- A chain agrees, below each of its blocks, with the chain of that block. -/
theorem OnChain.ancestor_eq {tip b : B} (h : T.OnChain tip b) {k : ℕ} (hk : k ≤ T.height b) :
    T.ancestor b k = T.ancestor tip k := by
  have := ancestor_ancestor hk h.1
  rwa [h.2] at this

theorem OnChain.trans {a b c : B} (hab : T.OnChain b a) (hbc : T.OnChain c b) : T.OnChain c a :=
  ⟨hab.1.trans hbc.1, by rw [← hbc.ancestor_eq hab.1, hab.2]⟩

end BlockTree

end Zallet.Common
