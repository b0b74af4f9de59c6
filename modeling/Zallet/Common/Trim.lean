import Mathlib.Data.List.DropRight

/-!
# Trimming lists

Elements that satisfy `p` are dropped at the end of a list, or at both ends.

* `trim_comm`: both ends are trimmed in either order.
* `trimEnd_eq_trim_iff`: when trimming the end is enough.
* `dropWhile_split`, `trimEnd_split`: trimming around an element that does not satisfy `p`.
-/

namespace Zallet.Common.Trim

variable {α : Type} (p : α → Bool)

/-- The list without its last elements that satisfy `p`. -/
def trimEnd (l : List α) : List α := l.rdropWhile p

/-- The list without its first and its last elements that satisfy `p`. -/
def trim (l : List α) : List α := (trimEnd p l).dropWhile p

/-- Every element satisfies `p`. -/
def Blank (l : List α) : Prop := ∀ a ∈ l, p a = true

variable {p}

instance (l : List α) : Decidable (Blank p l) := inferInstanceAs (Decidable (∀ a ∈ l, p a = true))

theorem trimEnd_eq_nil {l : List α} : trimEnd p l = [] ↔ Blank p l := List.rdropWhile_eq_nil_iff

theorem dropWhile_eq_nil {l : List α} : l.dropWhile p = [] ↔ Blank p l := List.dropWhile_eq_nil_iff

@[simp] theorem trimEnd_trimEnd (l : List α) : trimEnd p (trimEnd p l) = trimEnd p l :=
  List.rdropWhile_idempotent p l

theorem trimEnd_cons (a : α) (l : List α) :
    trimEnd p (a :: l) = if trimEnd p l = [] then (if p a then [] else [a]) else a :: trimEnd p l := by
  unfold trimEnd List.rdropWhile
  rw [List.reverse_cons, List.dropWhile_append]
  by_cases h : l.reverse.dropWhile p = []
  · by_cases ha : p a = true
    · simp [h, ha]
    · simp [h, ha]
  · simp [h]

/-- Both ends are trimmed in either order. -/
theorem trim_comm (l : List α) : trimEnd p (l.dropWhile p) = trim p l := by
  induction l with
  | nil => rfl
  | cons a l ih =>
    unfold trim
    rw [trimEnd_cons]
    by_cases ha : p a = true
    · rw [List.dropWhile_cons_of_pos ha, ih]
      by_cases hl : trimEnd p l = []
      · simp [trim, hl, ha]
      · rw [if_neg hl, List.dropWhile_cons_of_pos ha, trim]
    · rw [List.dropWhile_cons_of_neg ha, trimEnd_cons]
      by_cases hl : trimEnd p l = []
      · simp [hl, ha]
      · simp [hl, ha]

@[simp] theorem trim_trimEnd (l : List α) : trim p (trimEnd p l) = trim p l := by
  rw [trim, trimEnd_trimEnd, trim]

@[simp] theorem trim_dropWhile (l : List α) : trim p (l.dropWhile p) = trim p l := by
  rw [← trim_comm (l.dropWhile p), List.dropWhile_idempotent, trim_comm]

@[simp] theorem trim_trim (l : List α) : trim p (trim p l) = trim p l := by
  rw [← trim_comm l, trim_trimEnd, trim_dropWhile, trim_comm]

/-- A list without blank elements is trimmed already. -/
theorem trim_eq_self {l : List α} (h : ∀ a ∈ l, p a = false) : trim p l = l := by
  have hend : trimEnd p l = l :=
    List.rdropWhile_eq_self_iff.mpr fun hl => by simp [h _ (List.getLast_mem hl)]
  rw [trim, hend]
  exact List.dropWhile_eq_self_iff.mpr fun hl => by simp [h _ (List.getElem_mem hl)]

theorem trim_eq_nil {l : List α} : trim p l = [] ↔ Blank p l := by
  unfold trim
  rw [dropWhile_eq_nil]
  constructor
  · intro h
    by_contra hl
    have hne := mt trimEnd_eq_nil.mp hl
    have hlast := List.rdropWhile_last_not p l hne
    exact hlast (h _ (List.getLast_mem hne))
  · intro h
    rw [trimEnd_eq_nil.mpr h]
    intro a ha
    cases ha

theorem trim_subset (l : List α) : trim p l ⊆ l :=
  fun _ ha => (List.rdropWhile_prefix p l).subset ((List.dropWhile_suffix p).subset ha)

/-- Trimming the end is enough where nothing is left, or the first element is kept. -/
theorem trimEnd_eq_trim_iff {l : List α} :
    trimEnd p l = trim p l ↔ Blank p l ∨ ∀ a ∈ l.head?, p a = false := by
  cases l with
  | nil => simp [trim, trimEnd, Blank]
  | cons a l =>
    simp only [List.head?_cons, Option.mem_def, Option.some.injEq, forall_eq']
    by_cases ha : p a = true
    · simp only [ha, Bool.true_eq_false, or_false]
      rw [← trim_comm, List.dropWhile_cons_of_pos ha, ← trimEnd_eq_nil]
      constructor
      · intro h
        rw [trimEnd_cons] at h
        by_cases hl : trimEnd p l = []
        · rw [trimEnd_cons, if_pos hl, if_pos ha]
        · rw [if_neg hl, trim_comm] at h
          have hlen := congrArg List.length h
          have hle := (List.dropWhile_suffix p (l := trimEnd p l)).length_le
          rw [List.length_cons, trim] at hlen
          omega
      · intro h
        rw [h, trim_comm]
        have hblank := trimEnd_eq_nil.mp h
        exact (trim_eq_nil.mpr fun b hb => hblank b (List.mem_cons_of_mem a hb)).symm
    · have ha' : p a = false := Bool.eq_false_iff.mpr ha
      simp only [ha', or_true, iff_true]
      rw [← trim_comm, List.dropWhile_cons_of_neg ha]

/-! ## Around a separator -/

theorem dropWhile_split {sep : α} (hsep : p sep = false) (before after : List α) :
    (before ++ sep :: after).dropWhile p = before.dropWhile p ++ sep :: after := by
  rw [List.dropWhile_append]
  by_cases h : before.dropWhile p = []
  · simp [h, hsep]
  · simp [h]

theorem trimEnd_split {sep : α} (hsep : p sep = false) (before after : List α) :
    trimEnd p (before ++ sep :: after) = before ++ sep :: trimEnd p after := by
  unfold trimEnd List.rdropWhile
  rw [List.reverse_append, List.reverse_cons, List.append_assoc, List.singleton_append,
    dropWhile_split hsep]
  simp

/-- A list is trimmed around a separator by trimming what stands before and after it. -/
theorem trim_split {sep : α} (hsep : p sep = false) (before after : List α) :
    trim p (before ++ sep :: after) = before.dropWhile p ++ sep :: trimEnd p after := by
  rw [trim, trimEnd_split hsep, dropWhile_split hsep]

end Zallet.Common.Trim
