import Mathlib

/-!
# Activation schedules

A schedule gives each key the height from which it is active, or none. Two
schedules differ at a height if they have different keys active there.

* `divergence`: the height from which two activations of one key differ, which
  is the lower of the two.
* `agreeBelow_iff`: two schedules agree below a height exactly when no key
  diverges below it.
-/

namespace Zallet.Common

/-- The activation height of each key. -/
abbrev Schedule (K : Type) : Type := K → Option ℕ

namespace Schedule

variable {K : Type}

/-- The keys that are active at `height`. -/
def activeAt (s : Schedule K) (height : ℕ) : Set K := {key | ∃ a ∈ s key, a ≤ height}

/-- Where two activations of one key begin to differ. -/
def divergence : Option ℕ → Option ℕ → Option ℕ
  | some a, some b => if a = b then none else some (min a b)
  | some a, none => some a
  | none, b => b

theorem divergence_eq_none {a b : Option ℕ} : divergence a b = none ↔ a = b := by
  cases a with
  | none => simp [divergence, eq_comm]
  | some a =>
    cases b with
    | none => simp [divergence]
    | some b => simp [divergence]

/-- Below the divergence an activation is in force in neither, and at the
    divergence in exactly one. -/
theorem divergence_spec {a b : Option ℕ} {d : ℕ} (h : divergence a b = some d) :
    (∀ x ∈ a, d ≤ x) ∧ (∀ x ∈ b, d ≤ x) ∧ ((∃ x ∈ a, x ≤ d) ↔ ¬ ∃ x ∈ b, x ≤ d) := by
  cases a with
  | none =>
    have hb : b = some d := h
    simp [hb]
  | some a =>
    cases b with
    | none =>
      obtain rfl : a = d := Option.some.inj h
      simp
    | some b =>
      have hne : a ≠ b := by
        intro hab
        simp [divergence, hab] at h
      simp only [divergence, if_neg hne, Option.some.injEq] at h
      simp only [Option.mem_some_iff, forall_eq', exists_eq_left']
      omega

variable {s t : Schedule K}

/-- At a key's divergence the schedules differ. -/
theorem activeAt_ne {key : K} {d : ℕ} (h : divergence (s key) (t key) = some d) :
    s.activeAt d ≠ t.activeAt d := by
  intro heq
  have hmem : key ∈ s.activeAt d ↔ key ∈ t.activeAt d := by rw [heq]
  have hspec := (divergence_spec h).2.2
  by_cases ht : key ∈ t.activeAt d
  · exact hspec.mp (hmem.mpr ht) ht
  · exact ht (hmem.mp (hspec.mpr ht))

theorem agreeBelow_iff {d : ℕ} :
    (∀ height < d, s.activeAt height = t.activeAt height) ↔
      ∀ key e, divergence (s key) (t key) = some e → d ≤ e := by
  constructor
  · intro h key e he
    by_contra hlt
    exact activeAt_ne he (h e (not_le.mp hlt))
  · intro h height hlt
    ext key
    show (∃ a ∈ s key, a ≤ height) ↔ ∃ a ∈ t key, a ≤ height
    cases hd : divergence (s key) (t key) with
    | none => rw [divergence_eq_none.mp hd]
    | some e =>
      have hle := h key e hd
      obtain ⟨hs, ht, -⟩ := divergence_spec hd
      constructor
      · rintro ⟨a, ha, hah⟩
        have := hs a ha
        omega
      · rintro ⟨a, ha, hah⟩
        have := ht a ha
        omega

end Schedule

end Zallet.Common
