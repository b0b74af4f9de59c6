import Mathlib

/-!
# Unsigned numbers in a radix

The readers of unsigned integers: an optional `+` and at least one digit of the radix, in
either case, with a check for overflow at every digit.

* `fromStrRadix_eq_some`: the texts that are read, and the numbers they spell.
* `spells_toDigits`: the digits of a number spell it, also behind zeros.
-/

namespace Zallet.Common.Radix

/-! ## Readers -/

/-- `char::to_digit`. -/
def toDigit (radix : ℕ) (c : Char) : Option ℕ :=
  let digit :=
    if '0' ≤ c ∧ c ≤ '9' then some (c.toNat - '0'.toNat)
    else if 'a' ≤ c ∧ c ≤ 'z' then some (c.toNat - 'a'.toNat + 10)
    else if 'A' ≤ c ∧ c ≤ 'Z' then some (c.toNat - 'A'.toNat + 10)
    else none
  digit.filter (· < radix)

/-- The loop over the digits, for a type with `bound` values. -/
def readDigits (radix bound : ℕ) : ℕ → List Char → Option ℕ
  | n, [] => some n
  | n, c :: cs => do
    let d ← toDigit radix c
    if n * radix + d < bound then readDigits radix bound (n * radix + d) cs else none

/-- `from_str_radix`. -/
def fromStrRadix (radix bound : ℕ) : List Char → Option ℕ
  | [] => none
  | '+' :: [] => none
  | '+' :: digits => readDigits radix bound 0 digits
  | digits => readDigits radix bound 0 digits

/-! ## What the texts spell -/

/-- `ds`, behind the number `m`, are the digits of `n`. -/
inductive SpellsFrom (radix : ℕ) : ℕ → List Char → ℕ → Prop
  | nil (n : ℕ) : SpellsFrom radix n [] n
  | cons {m d n : ℕ} {c : Char} {cs : List Char} :
      toDigit radix c = some d → SpellsFrom radix (m * radix + d) cs n →
      SpellsFrom radix m (c :: cs) n

/-- `ds` are the digits of `n`. -/
abbrev Spells (radix : ℕ) (ds : List Char) (n : ℕ) : Prop := SpellsFrom radix 0 ds n

variable {radix bound : ℕ}

theorem SpellsFrom.append {m k n : ℕ} {as bs : List Char} (ha : SpellsFrom radix m as k)
    (hb : SpellsFrom radix k bs n) : SpellsFrom radix m (as ++ bs) n := by
  induction ha with
  | nil => exact hb
  | cons hd _ ih => exact .cons hd (ih hb)

theorem SpellsFrom.digit {m n : ℕ} {ds : List Char} (h : SpellsFrom radix m ds n) :
    ∀ c ∈ ds, ∃ d, toDigit radix c = some d := by
  induction h with
  | nil => simp
  | cons hd _ ih =>
    rw [List.forall_mem_cons]
    exact ⟨⟨_, hd⟩, ih⟩

/-- The digits only add to the number before them. -/
theorem SpellsFrom.le {m n : ℕ} {ds : List Char} (hr : 0 < radix) (h : SpellsFrom radix m ds n) :
    m ≤ n := by
  induction h with
  | nil => exact le_refl _
  | @cons m d n c cs _ _ ih =>
    have hle : m ≤ m * radix := Nat.le_mul_of_pos_right m hr
    omega

/-- The loop fails exactly where the whole number would not fit. -/
theorem readDigits_eq_some {m n : ℕ} {ds : List Char} (hr : 0 < radix) (hm : m < bound) :
    readDigits radix bound m ds = some n ↔ n < bound ∧ SpellsFrom radix m ds n := by
  induction ds generalizing m with
  | nil =>
    rw [readDigits, Option.some.injEq]
    constructor
    · intro h
      subst h
      exact ⟨hm, .nil m⟩
    · intro h
      cases h.2
      rfl
  | cons c cs ih =>
    rw [readDigits, Option.bind_eq_bind, Option.bind_eq_some_iff]
    constructor
    · intro ⟨d, hd, h⟩
      by_cases hlt : m * radix + d < bound
      · rw [if_pos hlt, ih hlt] at h
        exact ⟨h.1, .cons hd h.2⟩
      · rw [if_neg hlt] at h
        cases h
    · intro ⟨hn, h⟩
      cases h with
      | @cons _ d _ _ _ hd h =>
        have hlt : m * radix + d < bound := lt_of_le_of_lt (h.le hr) hn
        refine ⟨d, hd, ?_⟩
        rw [if_pos hlt, ih hlt]
        exact ⟨hn, h⟩

theorem toDigit_plus : toDigit radix '+' = none := by
  simp [toDigit]

theorem fromStrRadix_eq_some {src : List Char} {n : ℕ} (hr : 0 < radix) (hb : 0 < bound) :
    fromStrRadix radix bound src = some n ↔
      n < bound ∧ ∃ ds ≠ [], (src = ds ∨ src = '+' :: ds) ∧ Spells radix ds n := by
  have hplus : ∀ ds, ¬ Spells radix ('+' :: ds) n := by
    intro ds h
    obtain ⟨d, hd⟩ := h.digit '+' (List.mem_cons_self ..)
    rw [toDigit_plus] at hd
    cases hd
  have hread : ∀ ds ≠ [], (src = ds ∨ src = '+' :: ds) →
      (∀ ds', src = ds' ∨ src = '+' :: ds' → Spells radix ds' n → ds' = ds) →
      ((n < bound ∧ Spells radix ds n) ↔ n < bound ∧ ∃ ds ≠ [],
        (src = ds ∨ src = '+' :: ds) ∧ Spells radix ds n) := by
    intro ds hne hsrc hunique
    refine and_congr_right fun _ => ⟨fun h => ⟨ds, hne, hsrc, h⟩, ?_⟩
    intro ⟨ds', _, hsrc', h⟩
    rwa [← hunique ds' hsrc' h]
  unfold fromStrRadix
  split
  · simp
  · apply iff_of_false (by simp)
    intro ⟨_, ds, hne, hsrc, h⟩
    rcases hsrc with hsrc | hsrc
    · rw [← hsrc] at h
      exact absurd h (hplus [])
    · exact absurd (List.cons_injective hsrc).symm hne
  · rename_i digits hne
    rw [readDigits_eq_some hr hb]
    apply hread digits hne (Or.inr rfl)
    intro ds' hsrc h
    rcases hsrc with hsrc | hsrc
    · rw [← hsrc] at h
      exact absurd h (hplus digits)
    · exact (List.cons_injective hsrc).symm
  · rename_i hnil _ hnot
    rw [readDigits_eq_some hr hb]
    apply hread src hnil (Or.inl rfl)
    intro ds' hsrc _
    rcases hsrc with hsrc | hsrc
    · exact hsrc.symm
    · exact absurd hsrc (hnot ds')

/-! ## The digits of a number -/

theorem toDigit_digitChar {d : ℕ} (hd : d < radix) (hr : radix ≤ 16) :
    toDigit radix d.digitChar = some d := by
  have hall : ∀ e : Fin 16, toDigit 16 e.val.digitChar = some e.val := by decide
  have h16 := hall ⟨d, by omega⟩
  unfold toDigit at h16 ⊢
  obtain ⟨hdigit, -⟩ := Option.filter_eq_some_iff.mp h16
  rw [hdigit]
  simp [hd]

/-- The digits that are written spell the number. -/
theorem spells_toDigits (h1 : 1 < radix) (hr : radix ≤ 16) (n : ℕ) :
    Spells radix (Nat.toDigits radix n) n := by
  induction n using Nat.strong_induction_on with
  | _ n ih =>
    have hmod : n % radix < radix := Nat.mod_lt n (by omega)
    rcases lt_or_ge n radix with hn | hn
    · rw [Nat.toDigits_of_lt_base hn]
      exact .cons (toDigit_digitChar hn hr) (by simpa using SpellsFrom.nil n)
    · rw [Nat.toDigits_of_base_le h1 hn]
      refine (ih (n / radix) (Nat.div_lt_self (by omega) h1)).append ?_
      refine .cons (toDigit_digitChar hmod hr) ?_
      rw [Nat.div_add_mod']
      exact .nil n

/-- Zeros before the digits do not count. -/
theorem spells_zeros (h1 : 1 < radix) {ds : List Char} {n : ℕ} (h : Spells radix ds n) (k : ℕ) :
    Spells radix (List.replicate k '0' ++ ds) n := by
  induction k with
  | zero => exact h
  | succ k ih =>
    have hzero : toDigit radix '0' = some 0 := by
      unfold toDigit
      simp
      omega
    rw [List.replicate_succ, List.cons_append]
    exact .cons hzero (by simpa using ih)

end Zallet.Common.Radix
