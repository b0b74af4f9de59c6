import Mathlib

/-!
# Decimal numerals

The texts `-?(0|[1-9][0-9]*)(\.[0-9]+)?([eE][+-]?[0-9]+)?` and the numbers they
denote. `Numeral` is a text taken apart: its fields carry the grammar, so that
every value of it spells a numeral (`Numeral.text`).

The significant digits of a numeral are read as one natural number and scaled
by a power of ten. `Coarse D` says that `D` keeps at least `10 ^ 18` however
many factors of ten are taken out of it: such a number is no integer below
`10 ^ 18` at any scale (`Coarse.le_abs`), and digits appended to it do not
change that (`Coarse.append`).
-/

namespace Zallet.Common

/-! ## Digits -/

abbrev IsDigit (c : Char) : Prop := c.isDigit = true

/-- The value of a digit. -/
def digitValue (c : Char) : ℕ := c.toNat - '0'.toNat

theorem digitValue_lt {c : Char} (h : IsDigit c) : digitValue c < 10 := by
  have hle := (Char.isDigit_iff_toNat.mp h).2
  have h9 : '9'.toNat = 57 := rfl
  have h0 : '0'.toNat = 48 := rfl
  unfold digitValue
  omega

theorem digitValue_pos {c : Char} (h : IsDigit c) (hc : c ≠ '0') : 0 < digitValue c := by
  have hge := (Char.isDigit_iff_toNat.mp h).1
  have hne : c.toNat ≠ '0'.toNat := fun he => hc (Char.toNat_inj.mp he)
  unfold digitValue
  omega

@[simp] theorem digitValue_zero : digitValue '0' = 0 := rfl

theorem digitValue_digitChar {d : ℕ} (hd : d < 10) : digitValue d.digitChar = d :=
  Nat.toNat_digitChar_sub_48_of_lt_ten hd

/-- A number with the digits `ds` appended. -/
def appendDigits (n : ℕ) (ds : List Char) : ℕ := Nat.ofDigitChars 10 ds n

/-- The number that `ds` spells. -/
def digitsValue (ds : List Char) : ℕ := appendDigits 0 ds

@[simp] theorem appendDigits_nil (n : ℕ) : appendDigits n [] = n := Nat.ofDigitChars_nil

@[simp] theorem appendDigits_cons (n : ℕ) (c : Char) (ds : List Char) :
    appendDigits n (c :: ds) = appendDigits (10 * n + digitValue c) ds :=
  Nat.ofDigitChars_cons

theorem appendDigits_append (n : ℕ) (as bs : List Char) :
    appendDigits n (as ++ bs) = appendDigits (appendDigits n as) bs :=
  Nat.ofDigitChars_append n

theorem appendDigits_concat (n : ℕ) (ds : List Char) (c : Char) :
    appendDigits n (ds ++ [c]) = 10 * appendDigits n ds + digitValue c := by
  rw [appendDigits_append, appendDigits_cons, appendDigits_nil]

theorem digitsValue_append (as bs : List Char) :
    digitsValue (as ++ bs) = appendDigits (digitsValue as) bs :=
  appendDigits_append 0 as bs

theorem le_appendDigits (n : ℕ) (ds : List Char) : n ≤ appendDigits n ds := by
  induction ds generalizing n with
  | nil => simp
  | cons c ds ih =>
    have h := ih (10 * n + digitValue c)
    rw [appendDigits_cons]
    omega

theorem appendDigits_lt {n k : ℕ} {ds : List Char} (hds : ∀ c ∈ ds, IsDigit c)
    (hn : n < 10 ^ k) : appendDigits n ds < 10 ^ (k + ds.length) := by
  induction ds generalizing n k with
  | nil => exact hn
  | cons c ds ih =>
    rw [List.forall_mem_cons] at hds
    have hc := digitValue_lt hds.1
    have hstep : 10 * n + digitValue c < 10 ^ (k + 1) := by
      rw [pow_succ]
      omega
    have h := ih hds.2 hstep
    rwa [Nat.add_assoc, Nat.add_comm 1, ← List.length_cons, ← appendDigits_cons] at h

theorem digitsValue_lt {ds : List Char} (hds : ∀ c ∈ ds, IsDigit c) :
    digitsValue ds < 10 ^ ds.length := by
  have h := appendDigits_lt hds (show 0 < 10 ^ 0 by norm_num)
  rwa [Nat.zero_add] at h

theorem appendDigits_pos {n : ℕ} (hn : 0 < n) (ds : List Char) : 0 < appendDigits n ds :=
  lt_of_lt_of_le hn (le_appendDigits n ds)

/-! ## The digits of a number -/

theorem digitsValue_toDigits (n : ℕ) : digitsValue (Nat.toDigits 10 n) = n :=
  Nat.ofDigitChars_ten_toDigits

theorem head_toDigits {n : ℕ} (h : (Nat.toDigits 10 n).head Nat.toDigits_ne_nil = '0') : n = 0 := by
  induction n using Nat.strong_induction_on with
  | _ n ih =>
    rcases lt_or_ge n 10 with hn | hn
    · have hdigits := Nat.toDigits_of_lt_base hn
      simp only [hdigits, List.head_cons, Nat.digitChar_eq_zero] at h
      exact h
    · have hdigits := Nat.toDigits_of_base_le (by norm_num) hn
      simp only [hdigits, List.head_append_of_ne_nil Nat.toDigits_ne_nil] at h
      have h0 := ih (n / 10) (by omega) h
      omega

/-- The last `k` digits of `n`. -/
def lastDigits : ℕ → ℕ → List Char
  | 0, _ => []
  | k + 1, n => lastDigits k (n / 10) ++ [(n % 10).digitChar]

@[simp] theorem length_lastDigits (k n : ℕ) : (lastDigits k n).length = k := by
  induction k generalizing n with
  | zero => rfl
  | succ k ih => rw [lastDigits, List.length_append, ih, List.length_singleton]

theorem isDigit_lastDigits (k n : ℕ) : ∀ c ∈ lastDigits k n, IsDigit c := by
  induction k generalizing n with
  | zero => exact fun c hc => absurd hc List.not_mem_nil
  | succ k ih =>
    rw [lastDigits, List.forall_mem_append, List.forall_mem_singleton]
    exact ⟨ih (n / 10), by rw [IsDigit, Nat.isDigit_digitChar, decide_eq_true_eq]; omega⟩

theorem appendDigits_lastDigits (m k n : ℕ) :
    appendDigits m (lastDigits k n) = m * 10 ^ k + n % 10 ^ k := by
  induction k generalizing n with
  | zero => simp [lastDigits, Nat.mod_one]
  | succ k ih =>
    have hmod : n % 10 ^ (k + 1) = 10 * (n / 10 % 10 ^ k) + n % 10 := by
      rw [pow_succ', Nat.mod_mul]
      omega
    rw [lastDigits, appendDigits_concat, ih, digitValue_digitChar (by omega), hmod]
    ring

/-! ## Numerals -/

/-- The part `[eE][+-]?[0-9]+` of a numeral. -/
structure Exponent where
  upper : Bool
  sign : Option Bool
  digits : List Char
  digits_ne : digits ≠ []
  isDigit : ∀ c ∈ digits, IsDigit c

namespace Exponent

def marker (e : Exponent) : Char := if e.upper then 'E' else 'e'

/-- The sign as it is written; `some true` is a minus. -/
def signText : Option Bool → List Char
  | none => []
  | some false => ['+']
  | some true => ['-']

def text (e : Exponent) : List Char := e.marker :: (signText e.sign ++ e.digits)

def value (e : Exponent) : ℤ :=
  if e.sign = some true then -(digitsValue e.digits : ℤ) else digitsValue e.digits

end Exponent

/-- A numeral taken apart. The fraction is empty when there is no point. -/
structure Numeral where
  negative : Bool
  integer : List Char
  fraction : List Char
  exponent : Option Exponent
  integer_ne : integer ≠ []
  integer_isDigit : ∀ c ∈ integer, IsDigit c
  leading : integer.head integer_ne = '0' → integer = ['0']
  fraction_isDigit : ∀ c ∈ fraction, IsDigit c

namespace Numeral

def fractionText (n : Numeral) : List Char :=
  if n.fraction = [] then [] else '.' :: n.fraction

def exponentText (n : Numeral) : List Char := (n.exponent.map Exponent.text).getD []

def text (n : Numeral) : List Char :=
  (if n.negative then ['-'] else []) ++ (n.integer ++ (n.fractionText ++ n.exponentText))

/-- The digits before and behind the point as one number. -/
def significand (n : Numeral) : ℕ := digitsValue (n.integer ++ n.fraction)

/-- The exponent as it is written. -/
def writtenExponent (n : Numeral) : ℤ := (n.exponent.map Exponent.value).getD 0

def signed (n : Numeral) : ℤ := if n.negative then -(n.significand : ℤ) else n.significand

/-- The number that the numeral denotes. -/
def value (n : Numeral) : ℚ :=
  n.signed * (10 : ℚ) ^ (n.writtenExponent - n.fraction.length)

theorem value_eq_zero (n : Numeral) : n.value = 0 ↔ n.significand = 0 := by
  have hpow : (10 : ℚ) ^ (n.writtenExponent - n.fraction.length) ≠ 0 := by positivity
  unfold value signed
  rw [mul_eq_zero, or_iff_left hpow]
  split
  · simp
  · simp

end Numeral

/-! ## Scaled integers -/

/-- However many factors of ten are taken out of `D`, `10 ^ 18` or more is
    left. -/
def Coarse (D : ℕ) : Prop := ∀ m t : ℕ, D = m * 10 ^ t → 10 ^ 18 ≤ m

theorem Coarse.append {D : ℕ} (h : Coarse D) {c : Char} (hc : IsDigit c) :
    Coarse (10 * D + digitValue c) := by
  intro m t hmt
  have hlt := digitValue_lt hc
  cases t with
  | zero =>
    have hD := h D 0 (by simp)
    rw [pow_zero, mul_one] at hmt
    omega
  | succ t =>
    rw [pow_succ, ← mul_assoc] at hmt
    exact h m t (by omega)

theorem Coarse.appendDigits {D : ℕ} (h : Coarse D) {ds : List Char} (hds : ∀ c ∈ ds, IsDigit c) :
    Coarse (appendDigits D ds) := by
  induction ds generalizing D with
  | nil => exact h
  | cons c ds ih =>
    rw [List.forall_mem_cons] at hds
    rw [appendDigits_cons]
    exact ih (h.append hds.1) hds.2

/-- A number from `10 ^ 18` on that does not end with a zero. -/
theorem coarse_of_last {D : ℕ} (hD : 10 ^ 18 ≤ D) (hlast : ¬ 10 ∣ D) : Coarse D := by
  intro m t hmt
  cases t with
  | zero => rw [hmt, pow_zero, mul_one] at hD; exact hD
  | succ t => exact absurd ⟨m * 10 ^ t, by rw [hmt]; ring⟩ hlast

/-- An integer that is `m` scaled by a power of ten: its factor is an integer
    power, or the power divides `m`. -/
theorem scaled_cases {m : ℕ} {v x : ℤ} (h : |(v : ℚ)| = m * (10 : ℚ) ^ x) :
    (0 ≤ x ∧ |v| = m * 10 ^ x.toNat) ∨ (x < 0 ∧ m = v.natAbs * 10 ^ (-x).toNat) := by
  rcases lt_or_ge x 0 with hx | hx
  · right
    refine ⟨hx, ?_⟩
    obtain ⟨k, rfl⟩ : ∃ k : ℕ, x = -k := ⟨(-x).toNat, by omega⟩
    rw [zpow_neg, zpow_natCast] at h
    have hpow : (10 : ℚ) ^ k ≠ 0 := by positivity
    have hm : (m : ℚ) = |(v : ℚ)| * 10 ^ k := by
      rw [h, mul_assoc, inv_mul_cancel₀ hpow, mul_one]
    rw [show (-(-(k : ℤ))).toNat = k by omega]
    have habs : |(v : ℚ)| = (v.natAbs : ℚ) := by
      rw [Nat.cast_natAbs, Int.cast_abs]
    rw [habs] at hm
    exact_mod_cast hm
  · left
    refine ⟨hx, ?_⟩
    obtain ⟨k, rfl⟩ : ∃ k : ℕ, x = k := ⟨x.toNat, by omega⟩
    rw [zpow_natCast] at h
    rw [Int.toNat_natCast]
    exact_mod_cast h

/-- A coarse number is no smaller integer at any scale. -/
theorem Coarse.le_abs {D : ℕ} (hD : Coarse D) {v x : ℤ} (h : |(v : ℚ)| = D * (10 : ℚ) ^ x) :
    10 ^ 18 ≤ |v| := by
  rcases scaled_cases h with ⟨hx, hv⟩ | ⟨hx, hv⟩
  · have hle : (10 : ℤ) ^ 18 ≤ D := by exact_mod_cast hD D 0 (by simp)
    have hpow : (1 : ℤ) ≤ 10 ^ x.toNat := one_le_pow₀ (by norm_num)
    rw [hv]
    nlinarith
  · have hle := hD v.natAbs _ hv
    have habs : |v| = (v.natAbs : ℤ) := Int.abs_eq_natAbs v
    rw [habs]
    exact_mod_cast hle

/-- A number below a power of ten is no nonzero integer when it is scaled down
    by that power. -/
theorem not_scaled_of_lt_pow {D k : ℕ} (hD : D < 10 ^ k) {v x : ℤ} (hv : v ≠ 0) (hx : x ≤ -k) :
    |(v : ℚ)| ≠ D * (10 : ℚ) ^ x := by
  intro h
  rcases scaled_cases h with ⟨hx', hv'⟩ | ⟨hx', hv'⟩
  · obtain ⟨rfl, rfl⟩ : k = 0 ∧ x = 0 := by omega
    obtain rfl : D = 0 := by simpa using hD
    simp at hv'
    exact hv hv'
  · have hpos : 0 < v.natAbs := Int.natAbs_pos.mpr hv
    have hpow : 10 ^ k ≤ 10 ^ (-x).toNat := Nat.pow_le_pow_right (by norm_num) (by omega)
    have hle : 10 ^ (-x).toNat ≤ v.natAbs * 10 ^ (-x).toNat := Nat.le_mul_of_pos_left _ hpos
    omega

end Zallet.Common
