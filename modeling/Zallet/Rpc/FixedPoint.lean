import Zallet.Common.Decimal

/-!
# Fixed-point amounts

`parse_fixed_point` of `zallet-core/src/components/json_rpc/utils.rs`, lines
436–607. A text is a list of characters. The function returns `None`
(`Stop.Rejected`), and it stops where an operation on an `i64` would overflow
(`Stop.Overflow`).

`parseFixedPoint_exact`: the accepted texts are numerals, no text that fits in
memory makes an operation overflow, and the result is the number that the text
denotes, in units of `10 ^ (-8)`.
-/

namespace Zallet.Rpc

open Zallet.Common

/-- Why the parser stops without a number. -/
inductive Stop
  | Rejected
  | Overflow
  deriving DecidableEq

/-- The result of an operation on `i64`. -/
def i64 (x : ℤ) : Except Stop ℤ := if -2 ^ 63 ≤ x ∧ x < 2 ^ 63 then .ok x else .error .Overflow

/-- `UPPER_BOUND` (lines 436–447). -/
def upperBound : ℤ := 1000000000000000000 - 1

/-- `str::split_at_checked(1)`: the first character, if it is one byte long. -/
def splitAtChecked : List Char → Option (Char × List Char)
  | [] => none
  | ch :: rest => if ch.utf8Size = 1 then some (ch, rest) else none

/-- `n` multiplications by ten, each of a number that `fits`. -/
def timesTen (fits : ℤ → Bool) : ℕ → ℤ → Except Stop ℤ
  | 0, mantissa => .ok mantissa
  | n + 1, mantissa =>
    if fits mantissa then i64 (mantissa * 10) >>= timesTen fits n else .error .Rejected

/-- The digits read so far: those up to the last nonzero one, and the number of
    zeros behind it. -/
structure Mantissa where
  mantissa : ℤ
  tzeros : ℤ
  deriving DecidableEq

/-- `process_mantissa_digit` (lines 449–465). Where it answers `false`, both its
    callers return `None`. -/
def processMantissaDigit (ch : Char) (s : Mantissa) : Except Stop Mantissa :=
  if ch = '0' then do
    let tzeros ← i64 (s.tzeros + 1)
    return { s with tzeros }
  else do
    -- `0..=mantissa_tzeros`
    let mantissa ← timesTen (fun m => decide (m ≤ upperBound / 10)) (s.tzeros + 1).toNat s.mantissa
    let mantissa ← i64 (mantissa + digitValue ch)
    return ⟨mantissa, 0⟩

/-- The loops over `char_indices`: the state after the digits, and the text from
    the first other character on. -/
def takeDigits {σ : Type} (step : Char → σ → Except Stop σ) :
    List Char → σ → Except Stop (σ × List Char)
  | [], s => .ok (s, [])
  | ch :: val, s =>
    if IsDigit ch then step ch s >>= takeDigits step val else .ok (s, ch :: val)

/-- The digits before the point (lines 485–509). -/
def integerPart (val : List Char) : Except Stop (Mantissa × List Char) :=
  match splitAtChecked val with
  | some ('0', rest) => .ok (⟨0, 0⟩, rest)
  | some (ch, _) =>
    if IsDigit ch then takeDigits processMantissaDigit val ⟨0, 0⟩ else .error .Rejected
  | none => .error .Rejected

/-- A digit behind the point. -/
def processFractionDigit (ch : Char) (s : Mantissa × ℤ) : Except Stop (Mantissa × ℤ) := do
  let m ← processMantissaDigit ch s.1
  let pointOfs ← i64 (s.2 + 1)
  return (m, pointOfs)

/-- The point and the digits behind it (lines 510–536). -/
def fractionPart (m : Mantissa) (val : List Char) : Except Stop ((Mantissa × ℤ) × List Char) :=
  match splitAtChecked val with
  | some ('.', rest) =>
    match splitAtChecked rest with
    | some (ch, _) =>
      if IsDigit ch then takeDigits processFractionDigit rest (m, 0) else .error .Rejected
    | none => .error .Rejected
  | _ => .ok ((m, 0), val)

/-- A digit of the exponent. -/
def processExponentDigit (ch : Char) (exponent : ℤ) : Except Stop ℤ :=
  if exponent > upperBound / 10 then .error .Rejected
  else do
    let tens ← i64 (exponent * 10)
    i64 (tens + digitValue ch)

/-- The sign of the exponent (lines 539–546). -/
def exponentSign (val : List Char) : Bool × List Char :=
  match splitAtChecked val with
  | some ('+', rest) => (false, rest)
  | some ('-', rest) => (true, rest)
  | _ => (false, val)

/-- The digits of the exponent (lines 547–570). -/
def exponentDigits (val : List Char) : Except Stop (ℤ × List Char) :=
  match splitAtChecked val with
  | some (ch, _) =>
    if IsDigit ch then takeDigits processExponentDigit val 0 else .error .Rejected
  | none => .error .Rejected

/-- The exponent, with its sign (lines 537–571). -/
def exponentPart (val : List Char) : Except Stop ((Bool × ℤ) × List Char) :=
  match splitAtChecked val with
  | some (ch, rest) =>
    if ch = 'e' ∨ ch = 'E' then do
      let (sign, rest) := exponentSign rest
      let (exponent, rest) ← exponentDigits rest
      return ((sign, exponent), rest)
    else .ok ((false, 0), val)
  | none => .ok ((false, 0), val)

/-- A number, negated if its sign was read. -/
def negateIf (sign : Bool) (x : ℤ) : Except Stop ℤ := if sign then i64 (-x) else .ok x

/-- The number that was read, in units of `10 ^ (-decimals)` (lines 576–606). -/
def finalize (mantissaSign : Bool) (m : Mantissa) (pointOfs : ℤ) (expSign : Bool) (exponent : ℤ)
    (decimals : ℤ) : Except Stop ℤ := do
  let exponent ← negateIf expSign exponent
  let exponent ← i64 (exponent - pointOfs)
  let exponent ← i64 (exponent + m.tzeros)
  let mantissa ← negateIf mantissaSign m.mantissa
  let exponent ← i64 (exponent + decimals)
  if exponent < 0 then .error .Rejected
  else if exponent ≥ 18 then .error .Rejected
  else
    let mantissa ← timesTen
      (fun m => decide (-(upperBound / 10) ≤ m ∧ m ≤ upperBound / 10)) exponent.toNat mantissa
    if ¬ (-upperBound ≤ mantissa ∧ mantissa ≤ upperBound) then .error .Rejected
    else return mantissa

/-- The sign of the number (lines 478–484). -/
def mantissaSign (val : List Char) : Bool × List Char :=
  match splitAtChecked val with
  | some ('-', rest) => (true, rest)
  | _ => (false, val)

/-- `parse_fixed_point` (lines 471–607). -/
def parseFixedPoint (val : List Char) (decimals : ℤ) : Except Stop ℤ := do
  let (sign, val) := mantissaSign val
  let (m, val) ← integerPart val
  let ((m, pointOfs), val) ← fractionPart m val
  let ((expSign, exponent), val) ← exponentPart val
  if val ≠ [] then .error .Rejected
  else finalize sign m pointOfs expSign exponent decimals

/-! ## The outcomes of a parser -/

/-- What holds when a parser returns, rejects its text and overflows. -/
def Outcome {α : Type} (returns : α → Prop) (rejects overflows : Prop) : Except Stop α → Prop
  | .ok a => returns a
  | .error .Rejected => rejects
  | .error .Overflow => overflows

variable {α β σ : Type} {P : α → Prop} {Q : β → Prop} {R O : Prop}

@[simp] theorem outcome_ok (a : α) : Outcome P R O (.ok a) ↔ P a := Iff.rfl

@[simp] theorem outcome_pure (a : α) : Outcome P R O (pure a) ↔ P a := Iff.rfl

@[simp] theorem outcome_rejected : Outcome P R O (.error .Rejected : Except Stop α) ↔ R := Iff.rfl

@[simp] theorem outcome_overflow : Outcome P R O (.error .Overflow : Except Stop α) ↔ O := Iff.rfl

theorem outcome_bind {p : Except Stop α} {f : α → Except Stop β} :
    Outcome Q R O (p >>= f) ↔ Outcome (fun a => Outcome Q R O (f a)) R O p := by
  match p with
  | .ok a => rfl
  | .error .Rejected => rfl
  | .error .Overflow => rfl

theorem Outcome.mono {P' : α → Prop} {R' O' : Prop} {p : Except Stop α} (h : Outcome P R O p)
    (hP : ∀ a, P a → P' a) (hR : R → R') (hO : O → O') : Outcome P' R' O' p := by
  match p, h with
  | .ok a, h => exact hP a h
  | .error .Rejected, h => exact hR h
  | .error .Overflow, h => exact hO h

/-- The rule of a sequence. -/
theorem Outcome.bind {R' O' : Prop} {p : Except Stop α} {f : α → Except Stop β}
    (h : Outcome P R' O' p) (hf : ∀ a, P a → Outcome Q R O (f a)) (hR : R' → R) (hO : O' → O) :
    Outcome Q R O (p >>= f) :=
  outcome_bind.mpr (h.mono hf hR hO)

theorem outcome_i64 {x : ℤ} {P : ℤ → Prop} (hP : P x) (hO : ¬ (-2 ^ 63 ≤ x ∧ x < 2 ^ 63) → O) :
    Outcome P R O (i64 x) := by
  unfold i64
  split
  · exact hP
  · rename_i h
    exact hO h

theorem i64_eq {x : ℤ} (h : -2 ^ 63 ≤ x ∧ x < 2 ^ 63) : i64 x = .ok x := if_pos h

theorem upperBound_eq : upperBound = 10 ^ 18 - 1 := by
  norm_num [upperBound]

theorem upperBound_div : upperBound / 10 = 10 ^ 17 - 1 := by
  norm_num [upperBound]

/-- The multiplications of a mantissa within the bound. They stop only when the
    product is beyond it. -/
theorem timesTen_outcome {fits : ℤ → Bool} (n : ℕ) {m : ℤ} (hm : |m| ≤ upperBound)
    (hfits : ∀ j : ℕ, fits (m * 10 ^ j) = true ↔ |m * 10 ^ j| ≤ upperBound / 10) :
    Outcome (fun m' => m' = m * 10 ^ n ∧ |m'| ≤ upperBound) (10 ^ 18 ≤ |m| * 10 ^ n) False
      (timesTen fits n m) := by
  induction n generalizing m with
  | zero => exact ⟨by simp, hm⟩
  | succ n ih =>
    rw [timesTen]
    have hfit := hfits 0
    rw [pow_zero, mul_one, upperBound_div] at hfit
    have habs : |m * 10| = |m| * 10 := by rw [abs_mul]; norm_num
    have hsucc : |m| * 10 ^ (n + 1) = |m| * 10 * 10 ^ n := by ring
    rw [hsucc]
    split
    · rename_i h
      have hle := hfit.mp h
      have hm' : |m * 10| ≤ upperBound := by
        rw [habs, upperBound_eq]
        omega
      have hrange : -2 ^ 63 ≤ m * 10 ∧ m * 10 < 2 ^ 63 := by
        rw [upperBound_eq, abs_le] at hm'
        omega
      rw [i64_eq hrange]
      have hfits' (j : ℕ) :
          fits (m * 10 * 10 ^ j) = true ↔ |m * 10 * 10 ^ j| ≤ upperBound / 10 := by
        have h := hfits (j + 1)
        rwa [pow_succ', ← mul_assoc] at h
      refine (ih hm' hfits').mono ?_ ?_ id
      · rintro m' ⟨rfl, hm'⟩
        exact ⟨by ring, hm'⟩
      · intro h
        rwa [habs] at h
    · rename_i h
      have hlt : 10 ^ 17 ≤ |m| := by
        have := mt hfit.mpr h
        omega
      have hpow : (1 : ℤ) ≤ 10 ^ n := one_le_pow₀ (by norm_num)
      show (10 : ℤ) ^ 18 ≤ |m| * 10 * 10 ^ n
      nlinarith

/-! ## Digits -/

/-- What every further digit keeps holds of all the digits of a text. -/
theorem append_takeWhile {T : List Char → Prop} (hT : ∀ ds c, T ds → IsDigit c → T (ds ++ [c]))
    (val : List Char) {ds : List Char} (h : T ds) : T (ds ++ val.takeWhile Char.isDigit) := by
  induction val generalizing ds with
  | nil => simpa using h
  | cons c val ih =>
    by_cases hc : IsDigit c
    · have h' := ih (hT ds c h hc)
      simpa [hc] using h'
    · simpa [hc] using h

/-- The rule of a loop over digits: a rejected or overflowing digit tells
    something about all the digits of the text. -/
theorem takeDigits_outcome {step : Char → σ → Except Stop σ} {I : List Char → σ → Prop}
    {R O : List Char → Prop}
    (hstep : ∀ ds s c, I ds s → IsDigit c →
      Outcome (I (ds ++ [c])) (R (ds ++ [c])) (O (ds ++ [c])) (step c s))
    (hR : ∀ ds c, R ds → IsDigit c → R (ds ++ [c]))
    (hO : ∀ ds c, O ds → IsDigit c → O (ds ++ [c]))
    (val ds : List Char) (s : σ) (hI : I ds s) :
    Outcome (fun r => r.2 = val.dropWhile Char.isDigit ∧ I (ds ++ val.takeWhile Char.isDigit) r.1)
      (R (ds ++ val.takeWhile Char.isDigit)) (O (ds ++ val.takeWhile Char.isDigit))
      (takeDigits step val s) := by
  induction val generalizing ds s with
  | nil => simpa [takeDigits] using hI
  | cons c val ih =>
    rw [takeDigits]
    by_cases hc : IsDigit c
    · have htake :
          ds ++ (c :: val).takeWhile Char.isDigit = ds ++ [c] ++ val.takeWhile Char.isDigit := by
        simp [hc]
      have hdrop : (c :: val).dropWhile Char.isDigit = val.dropWhile Char.isDigit := by
        simp [hc]
      rw [if_pos hc, htake, hdrop]
      exact (hstep ds s c hI hc).bind (fun s' hs' => ih _ _ hs') (append_takeWhile hR val)
        (append_takeWhile hO val)
    · rw [if_neg hc]
      simpa [List.takeWhile_cons, List.dropWhile_cons, hc] using hI

/-! ## The mantissa -/

/-- `s` is what `k` digits of the value `D` leave. -/
structure Reads (D k : ℕ) (s : Mantissa) : Prop where
  value : (D : ℤ) = s.mantissa * 10 ^ s.tzeros.toNat
  mantissa_nonneg : 0 ≤ s.mantissa
  mantissa_le : s.mantissa ≤ upperBound
  tzeros_nonneg : 0 ≤ s.tzeros
  tzeros_le : s.tzeros ≤ k
  last : s.mantissa = 0 ∨ ¬ 10 ∣ s.mantissa
  zeros : s.mantissa = 0 → s.tzeros = k

theorem reads_zero : Reads 0 0 ⟨0, 0⟩ where
  value := by simp
  mantissa_nonneg := le_rfl
  mantissa_le := by norm_num [upperBound]
  tzeros_nonneg := le_rfl
  tzeros_le := le_rfl
  last := Or.inl rfl
  zeros := fun _ => rfl

theorem Reads.mantissa_eq_zero {D k : ℕ} {s : Mantissa} (h : Reads D k s) :
    s.mantissa = 0 ↔ D = 0 := by
  have hvalue := h.value
  constructor
  · intro hm
    rw [hm, zero_mul] at hvalue
    exact_mod_cast hvalue
  · intro hD
    rw [hD, Nat.cast_zero] at hvalue
    have hpow : (10 : ℤ) ^ s.tzeros.toNat ≠ 0 := by positivity
    exact (mul_eq_zero.mp hvalue.symm).resolve_right hpow

/-- A nonzero digit takes in the zeros before it. -/
theorem reads_digit {D d k : ℕ} (hd : 0 < d) (hd10 : d < 10) (hle : (10 * D + d : ℤ) ≤ upperBound) :
    Reads (10 * D + d) k ⟨10 * D + d, 0⟩ where
  value := by simp
  mantissa_nonneg := by show (0 : ℤ) ≤ 10 * D + d; omega
  mantissa_le := hle
  tzeros_nonneg := le_rfl
  tzeros_le := Int.natCast_nonneg k
  last := Or.inr (by show ¬ (10 : ℤ) ∣ 10 * D + d; omega)
  zeros := fun h => by change (10 * D + d : ℤ) = 0 at h; omega

theorem processMantissaDigit_outcome {D k : ℕ} {s : Mantissa} {c : Char} (h : Reads D k s)
    (hc : IsDigit c) :
    Outcome (Reads (10 * D + digitValue c) (k + 1)) (Coarse (10 * D + digitValue c))
      (2 ^ 63 ≤ k + 1) (processMantissaDigit c s) := by
  have hm := h.mantissa_nonneg
  have hz := h.tzeros_nonneg
  have hk := h.tzeros_le
  have hnat : (s.tzeros + 1).toNat = s.tzeros.toNat + 1 := by omega
  have hshift : s.mantissa * 10 ^ (s.tzeros.toNat + 1) = 10 * D := by
    rw [h.value]
    ring
  unfold processMantissaDigit
  split
  · rename_i hc0
    have hcount : Outcome (fun x => x = s.tzeros + 1) False (2 ^ 63 ≤ k + 1) (i64 (s.tzeros + 1)) :=
      outcome_i64 rfl fun hover => by omega
    refine hcount.bind ?_ False.elim id
    rintro x rfl
    rw [hc0, digitValue_zero, Nat.add_zero]
    exact {
      value := by rw [hnat, hshift]; push_cast; ring
      mantissa_nonneg := hm
      mantissa_le := h.mantissa_le
      tzeros_nonneg := by show 0 ≤ s.tzeros + 1; omega
      tzeros_le := by show s.tzeros + 1 ≤ ((k + 1 : ℕ) : ℤ); omega
      last := h.last
      zeros := fun h0 => by rw [h.zeros h0]; push_cast; rfl }
  · rename_i hc0
    have hd := digitValue_pos hc hc0
    have hd10 := digitValue_lt hc
    have hfits (j : ℕ) : decide (s.mantissa * 10 ^ j ≤ upperBound / 10) = true ↔
        |s.mantissa * 10 ^ j| ≤ upperBound / 10 := by
      rw [abs_of_nonneg (by positivity), decide_eq_true_eq]
    have habs : |s.mantissa| ≤ upperBound := by
      rw [abs_of_nonneg hm]
      exact h.mantissa_le
    refine (timesTen_outcome (s.tzeros + 1).toNat habs hfits).bind ?_ ?_ False.elim
    · rintro m' ⟨rfl, hle⟩
      rw [hnat, hshift] at hle ⊢
      rw [upperBound_eq, abs_of_nonneg (by omega)] at hle
      have hsum : 10 * (D : ℤ) + digitValue c ≤ upperBound := by
        rw [upperBound_eq]
        omega
      rw [i64_eq (by rw [upperBound_eq] at hsum; omega)]
      exact reads_digit hd hd10 hsum
    · intro hbig
      rw [abs_of_nonneg hm, hnat, hshift] at hbig
      exact coarse_of_last (by omega) (by omega)

/-! ## The parts of a numeral -/

theorem utf8Size_of_isDigit {c : Char} (h : IsDigit c) : c.utf8Size = 1 := by
  have hle : c.val ≤ '9'.val := UInt32.le_iff_toNat_le.mpr (Char.isDigit_iff_toNat.mp h).2
  have h9 : '9'.val ≤ 127 := by decide
  unfold Char.utf8Size
  exact if_pos (UInt32.le_trans hle h9)

theorem splitAtChecked_digit {c : Char} (h : IsDigit c) (rest : List Char) :
    splitAtChecked (c :: rest) = some (c, rest) := if_pos (utf8Size_of_isDigit h)

/-- A text that does not begin with a digit. -/
def NoDigit (rest : List Char) : Prop := ∀ c ∈ rest.head?, ¬ IsDigit c

theorem takeWhile_digits {ds rest : List Char} (hds : ∀ c ∈ ds, IsDigit c) (hrest : NoDigit rest) :
    (ds ++ rest).takeWhile Char.isDigit = ds := by
  have h0 : rest.takeWhile Char.isDigit = [] := by
    cases rest with
    | nil => rfl
    | cons c rest =>
      have hc : ¬ IsDigit c := hrest c rfl
      simp [hc]
  rw [List.takeWhile_append_of_pos hds, h0,
    List.append_nil]

theorem dropWhile_digits {ds rest : List Char} (hds : ∀ c ∈ ds, IsDigit c) (hrest : NoDigit rest) :
    (ds ++ rest).dropWhile Char.isDigit = rest := by
  have h0 : rest.dropWhile Char.isDigit = rest := by
    cases rest with
    | nil => rfl
    | cons c rest =>
      have hc : ¬ IsDigit c := hrest c rfl
      simp [hc]
  rw [List.dropWhile_append_of_pos hds, h0]

theorem digitsValue_pos {ds : List Char} (hne : ds ≠ []) (hds : ∀ c ∈ ds, IsDigit c)
    (hhead : ds.head hne ≠ '0') : 0 < digitsValue ds := by
  cases ds with
  | nil => exact absurd rfl hne
  | cons c ds =>
    have hpos := digitValue_pos (hds c (by simp)) hhead
    rw [digitsValue, appendDigits_cons]
    exact appendDigits_pos (by omega) ds

/-- The digits at the beginning of a text. -/
abbrev digitsOf (val : List Char) : List Char := val.takeWhile Char.isDigit

theorem integerLoop (val : List Char) :
    Outcome (fun r => r.2 = val.dropWhile Char.isDigit ∧
        Reads (digitsValue (digitsOf val)) (digitsOf val).length r.1)
      (Coarse (digitsValue (digitsOf val))) (2 ^ 63 ≤ (digitsOf val).length)
      (takeDigits processMantissaDigit val ⟨0, 0⟩) := by
  refine takeDigits_outcome (I := fun ds s => Reads (digitsValue ds) ds.length s)
    (R := fun ds => Coarse (digitsValue ds)) (O := fun ds => 2 ^ 63 ≤ ds.length) ?_ ?_ ?_ val []
    ⟨0, 0⟩ reads_zero
  · intro ds s c hI hc
    rw [digitsValue, appendDigits_concat, List.length_append]
    exact processMantissaDigit_outcome hI hc
  · intro ds c h hc
    rw [digitsValue, appendDigits_concat]
    exact h.append hc
  · intro ds c h _
    rw [List.length_append]
    omega

theorem integerPart_outcome (n : Numeral) {rest : List Char} (hrest : NoDigit rest) :
    Outcome (fun r => r.2 = rest ∧ ∃ k ≤ n.integer.length,
        (digitsValue n.integer = 0 → k = 0) ∧ Reads (digitsValue n.integer) k r.1)
      (Coarse (digitsValue n.integer)) (2 ^ 63 ≤ n.integer.length)
      (integerPart (n.integer ++ rest)) := by
  by_cases hhead : n.integer.head n.integer_ne = '0'
  · rw [n.leading hhead]
    exact ⟨rfl, 0, Nat.zero_le _, fun _ => rfl, reads_zero⟩
  · obtain ⟨c, ds, hint⟩ := List.exists_cons_of_ne_nil n.integer_ne
    have hc : IsDigit c := n.integer_isDigit c (by rw [hint]; exact List.mem_cons_self)
    have hc0 : c ≠ '0' := by simpa [hint] using hhead
    have hpart : integerPart (n.integer ++ rest) =
        takeDigits processMantissaDigit (n.integer ++ rest) ⟨0, 0⟩ := by
      unfold integerPart
      rw [hint, List.cons_append, splitAtChecked_digit hc]
      split
      · rename_i heq
        exact absurd (congrArg Prod.fst (Option.some.inj heq)) hc0
      · rename_i heq
        obtain rfl : c = _ := congrArg Prod.fst (Option.some.inj heq)
        rw [if_pos hc]
      · rename_i heq
        cases heq
    have hpos := digitsValue_pos n.integer_ne n.integer_isDigit hhead
    have hloop := integerLoop (n.integer ++ rest)
    rw [digitsOf, takeWhile_digits n.integer_isDigit hrest,
      dropWhile_digits n.integer_isDigit hrest] at hloop
    rw [hpart]
    refine hloop.mono ?_ id id
    rintro r ⟨hr, hI⟩
    exact ⟨hr, _, le_rfl, fun h0 => by omega, hI⟩

theorem processFractionDigit_outcome {D k p : ℕ} {s : Mantissa × ℤ} {c : Char}
    (h : Reads D k s.1) (hp : s.2 = p) (hpk : p ≤ k) (hc : IsDigit c) :
    Outcome (fun s' => s'.2 = ((p + 1 : ℕ) : ℤ) ∧ Reads (10 * D + digitValue c) (k + 1) s'.1)
      (Coarse (10 * D + digitValue c)) (2 ^ 63 ≤ k + 1) (processFractionDigit c s) := by
  refine (processMantissaDigit_outcome h hc).bind ?_ id id
  intro m hm
  have hcount : Outcome (fun x => x = s.2 + 1) False (2 ^ 63 ≤ k + 1) (i64 (s.2 + 1)) :=
    outcome_i64 rfl fun hover => by omega
  refine hcount.bind ?_ False.elim id
  rintro x rfl
  exact ⟨by rw [hp]; push_cast; rfl, hm⟩

theorem fractionLoop {D k : ℕ} {m : Mantissa} (hm : Reads D k m) (val : List Char) :
    Outcome (fun r => r.2 = val.dropWhile Char.isDigit ∧ r.1.2 = ((digitsOf val).length : ℤ) ∧
        Reads (appendDigits D (digitsOf val)) (k + (digitsOf val).length) r.1.1)
      (Coarse (appendDigits D (digitsOf val))) (2 ^ 63 ≤ k + (digitsOf val).length)
      (takeDigits processFractionDigit val (m, 0)) := by
  refine takeDigits_outcome (I := fun ds (s : Mantissa × ℤ) =>
      s.2 = (ds.length : ℤ) ∧ Reads (appendDigits D ds) (k + ds.length) s.1)
    (R := fun ds => Coarse (appendDigits D ds)) (O := fun ds => 2 ^ 63 ≤ k + ds.length) ?_ ?_ ?_
    val [] (m, 0) ⟨rfl, hm⟩
  · intro ds s c hI hc
    rw [appendDigits_concat, List.length_append]
    exact processFractionDigit_outcome hI.2 hI.1 (Nat.le_add_left _ _) hc
  · intro ds c h hc
    rw [appendDigits_concat]
    exact h.append hc
  · intro ds c h _
    rw [List.length_append]
    omega

/-- A text that begins neither with a digit nor with a point. -/
def NoFraction (rest : List Char) : Prop := NoDigit rest ∧ rest.head? ≠ some '.'

theorem fractionPart_outcome (n : Numeral) {m : Mantissa} {k : ℕ} {rest : List Char}
    (hrest : NoFraction rest) (hm : Reads (digitsValue n.integer) k m) :
    Outcome (fun r => r.2 = rest ∧ r.1.2 = (n.fraction.length : ℤ) ∧
        Reads n.significand (k + n.fraction.length) r.1.1)
      (Coarse n.significand) (2 ^ 63 ≤ k + n.fraction.length)
      (fractionPart m (n.fractionText ++ rest)) := by
  by_cases hfrac : n.fraction = []
  · have hsig : n.significand = digitsValue n.integer := by
      rw [Numeral.significand, hfrac, List.append_nil]
    have hpart : fractionPart m (n.fractionText ++ rest) = .ok ((m, 0), rest) := by
      rw [Numeral.fractionText, if_pos hfrac, List.nil_append]
      unfold fractionPart
      split
      · rename_i heq
        cases rest with
        | nil => cases heq
        | cons c rest =>
          simp only [splitAtChecked] at heq
          split at heq
          · obtain rfl : c = '.' := congrArg Prod.fst (Option.some.inj heq)
            exact absurd rfl hrest.2
          · cases heq
      · rfl
    rw [hpart, hsig, hfrac]
    exact ⟨rfl, rfl, hm⟩
  · obtain ⟨c, ds, hds⟩ := List.exists_cons_of_ne_nil hfrac
    have hc : IsDigit c := n.fraction_isDigit c (by rw [hds]; exact List.mem_cons_self)
    have hpart : fractionPart m (n.fractionText ++ rest) =
        takeDigits processFractionDigit (n.fraction ++ rest) (m, 0) := by
      rw [Numeral.fractionText, if_neg hfrac, hds, List.cons_append, List.cons_append]
      unfold fractionPart
      rw [show splitAtChecked ('.' :: (c :: (ds ++ rest))) = some ('.', c :: (ds ++ rest)) from rfl]
      simp only [splitAtChecked_digit hc, if_pos hc]
    have hsig : n.significand = appendDigits (digitsValue n.integer) n.fraction :=
      digitsValue_append _ _
    have hloop := fractionLoop hm (n.fraction ++ rest)
    rw [digitsOf, takeWhile_digits n.fraction_isDigit hrest.1,
      dropWhile_digits n.fraction_isDigit hrest.1] at hloop
    rw [hpart, hsig]
    exact hloop

theorem processExponentDigit_outcome {e : ℕ} {x : ℤ} {c : Char} (hx : x = e)
    (hle : x ≤ upperBound) (hc : IsDigit c) :
    Outcome (fun y => y = ((10 * e + digitValue c : ℕ) : ℤ) ∧ y ≤ upperBound)
      (10 ^ 18 ≤ 10 * e + digitValue c) False (processExponentDigit c x) := by
  have hd := digitValue_lt hc
  unfold processExponentDigit
  rw [upperBound_div]
  rw [upperBound_eq] at hle ⊢
  split
  · show 10 ^ 18 ≤ 10 * e + digitValue c
    omega
  · rw [i64_eq (by omega)]
    show Outcome _ _ _ (i64 (x * 10 + digitValue c))
    rw [i64_eq (by omega), outcome_ok]
    push_cast
    omega

theorem exponentLoop (val : List Char) :
    Outcome (fun r => r.2 = val.dropWhile Char.isDigit ∧ r.1 = (digitsValue (digitsOf val) : ℤ) ∧
        r.1 ≤ upperBound)
      (10 ^ 18 ≤ digitsValue (digitsOf val)) False (takeDigits processExponentDigit val 0) := by
  refine takeDigits_outcome (I := fun ds x => x = (digitsValue ds : ℤ) ∧ x ≤ upperBound)
    (R := fun ds => 10 ^ 18 ≤ digitsValue ds) (O := fun _ => False) ?_ ?_ ?_ val [] 0 ?_
  · intro ds x c hI hc
    rw [digitsValue, appendDigits_concat]
    exact processExponentDigit_outcome hI.1 hI.2 hc
  · intro ds c h _
    rw [digitsValue, appendDigits_concat]
    change 10 ^ 18 ≤ appendDigits 0 ds at h
    omega
  · exact fun _ _ h _ => h
  · exact ⟨rfl, by norm_num [upperBound]⟩

theorem exponentDigits_outcome (e : Exponent) :
    Outcome (fun r => r.2 = [] ∧ r.1 = (digitsValue e.digits : ℤ) ∧ r.1 ≤ upperBound)
      (10 ^ 18 ≤ digitsValue e.digits) False (exponentDigits e.digits) := by
  obtain ⟨c, ds, hds⟩ := List.exists_cons_of_ne_nil e.digits_ne
  have hc : IsDigit c := e.isDigit c (by rw [hds]; exact List.mem_cons_self)
  have hpart : exponentDigits e.digits = takeDigits processExponentDigit e.digits 0 := by
    unfold exponentDigits
    rw [hds, splitAtChecked_digit hc]
    exact if_pos hc
  have hnil : NoDigit [] := fun c hc => (Option.not_mem_none c hc).elim
  have hloop := exponentLoop (e.digits ++ [])
  rw [digitsOf, takeWhile_digits e.isDigit hnil, dropWhile_digits e.isDigit hnil,
    List.append_nil] at hloop
  rw [hpart]
  exact hloop

/-- A number with its sign. -/
def withSign (r : Bool × ℤ) : ℤ := if r.1 then -r.2 else r.2

theorem abs_withSign {r : Bool × ℤ} (h : 0 ≤ r.2) : |withSign r| = r.2 := by
  unfold withSign
  split
  · rw [abs_neg, abs_of_nonneg h]
  · exact abs_of_nonneg h

theorem negateIf_eq {r : Bool × ℤ} (h : |r.2| ≤ upperBound) :
    negateIf r.1 r.2 = .ok (withSign r) := by
  rw [upperBound_eq, abs_le] at h
  unfold negateIf withSign
  split
  · exact i64_eq (by omega)
  · rfl

theorem exponentSign_text (e : Exponent) :
    exponentSign (Exponent.signText e.sign ++ e.digits) =
      (decide (e.sign = some true), e.digits) := by
  obtain ⟨c, ds, hds⟩ := List.exists_cons_of_ne_nil e.digits_ne
  have hc : IsDigit c := e.isDigit c (by rw [hds]; exact List.mem_cons_self)
  match hsign : e.sign with
  | some true => rfl
  | some false => rfl
  | none =>
    rw [Exponent.signText, List.nil_append, hds]
    unfold exponentSign
    rw [splitAtChecked_digit hc]
    split
    · rename_i heq
      obtain rfl : c = '+' := congrArg Prod.fst (Option.some.inj heq)
      exact absurd hc (by decide)
    · rename_i heq
      obtain rfl : c = '-' := congrArg Prod.fst (Option.some.inj heq)
      exact absurd hc (by decide)
    · rfl

theorem exponentPart_outcome (n : Numeral) :
    Outcome (fun r => r.2 = [] ∧ 0 ≤ r.1.2 ∧ r.1.2 ≤ upperBound ∧
        withSign r.1 = n.writtenExponent)
      (10 ^ 18 ≤ |n.writtenExponent|) False (exponentPart n.exponentText) := by
  unfold Numeral.exponentText Numeral.writtenExponent
  cases n.exponent with
  | none => exact ⟨rfl, le_rfl, by norm_num [upperBound], rfl⟩
  | some e =>
    simp only [Option.map_some, Option.getD_some]
    have hmarker : e.marker.utf8Size = 1 ∧ (e.marker = 'e' ∨ e.marker = 'E') := by
      unfold Exponent.marker
      cases e.upper with
      | true => exact ⟨rfl, Or.inr rfl⟩
      | false => exact ⟨rfl, Or.inl rfl⟩
    have hpart : exponentPart e.text = (do
        let (exponent, rest) ← exponentDigits e.digits
        return ((decide (e.sign = some true), exponent), rest)) := by
      unfold exponentPart Exponent.text
      simp only [splitAtChecked, if_pos hmarker.1, if_pos hmarker.2, exponentSign_text]
    rw [hpart]
    have habs : |e.value| = digitsValue e.digits := by
      unfold Exponent.value
      split
      · rw [abs_neg, Nat.abs_cast]
      · rw [Nat.abs_cast]
    refine (exponentDigits_outcome e).bind ?_ ?_ id
    · rintro r ⟨hr, hvalue, hle⟩
      refine ⟨hr, by show 0 ≤ r.1; omega, hle, ?_⟩
      simp [withSign, Exponent.value, hvalue]
    · intro h
      rw [habs]
      exact_mod_cast h

/-! ## The number that was read -/

/-- The end of the parser, at the scale `x`. -/
theorem finalize_outcome (sign : Bool) {m : Mantissa} {D k p : ℕ} {e : Bool × ℤ} {x : ℤ}
    (hm : Reads D k m) (hp : p ≤ k) (he : 0 ≤ e.2) (hele : e.2 ≤ upperBound)
    (hx : x = withSign e - p + m.tzeros + 8) :
    Outcome (fun v => 0 ≤ x ∧ x < 18 ∧ v = withSign (sign, m.mantissa) * 10 ^ x.toNat ∧
        |v| ≤ upperBound)
      (x < 0 ∨ 18 ≤ x ∨ 10 ^ 18 ≤ m.mantissa * 10 ^ x.toNat) (10 ^ 17 ≤ k)
      (finalize sign m p e.1 e.2 8) := by
  have hz := hm.tzeros_nonneg
  have hzk := hm.tzeros_le
  have hexp : |withSign e| ≤ 10 ^ 18 - 1 := by
    rw [abs_withSign he, ← upperBound_eq]
    exact hele
  rw [abs_le] at hexp
  have habs : |withSign (sign, m.mantissa)| = m.mantissa := abs_withSign hm.mantissa_nonneg
  have hmant : negateIf sign m.mantissa = .ok (withSign (sign, m.mantissa)) :=
    negateIf_eq (r := (sign, m.mantissa))
      (by rw [abs_of_nonneg hm.mantissa_nonneg]; exact hm.mantissa_le)
  have hstep {x y : ℤ} (hxy : x = y) (hbound : ¬ 10 ^ 17 ≤ k → -2 ^ 63 ≤ x ∧ x < 2 ^ 63) :
      Outcome (fun z => z = y) False (10 ^ 17 ≤ k) (i64 x) :=
    outcome_i64 hxy fun hover => by_contra fun hk => hover (hbound hk)
  unfold finalize
  rw [negateIf_eq (by rwa [abs_of_nonneg he]), hmant]
  refine (hstep (y := withSign e - p) rfl fun hk => by omega).bind ?_ False.elim id
  rintro _ rfl
  refine (hstep (y := withSign e - p + m.tzeros) rfl fun hk => by omega).bind ?_ False.elim id
  rintro _ rfl
  refine (hstep hx.symm fun hk => by omega).bind ?_ False.elim id
  intro y hy
  subst y
  by_cases hneg : x < 0
  · rw [if_pos hneg]
    exact Or.inl hneg
  by_cases hlarge : x ≥ 18
  · rw [if_neg hneg, if_pos hlarge]
    exact Or.inr (Or.inl hlarge)
  rw [if_neg hneg, if_neg hlarge]
  refine (timesTen_outcome _ (by rw [habs]; exact hm.mantissa_le) ?_).bind ?_ ?_ False.elim
  · intro j
    rw [decide_eq_true_eq, abs_le]
  · rintro v ⟨rfl, hv⟩
    rw [if_neg (not_not.mpr (abs_le.mp hv))]
    exact ⟨by omega, by omega, rfl, hv⟩
  · intro hbig
    rw [habs] at hbig
    exact Or.inr (Or.inr hbig)

/-- The scale at the end, for the numeral `n` and `z` trailing zeros. -/
def scale (n : Numeral) (z : ℤ) : ℤ := n.writtenExponent - n.fraction.length + z + 8

/-- `v` is the result for the numeral `n`: its value in units of `10 ^ (-8)`,
    within the bound. A zero is only accepted with a small exponent. -/
def Represents (n : Numeral) (v : ℤ) : Prop :=
  (v : ℚ) = n.value * 10 ^ 8 ∧ |v| ≤ 10 ^ 18 - 1 ∧
    (n.value = 0 → -8 ≤ n.writtenExponent ∧ n.writtenExponent ≤ 9)

theorem value_significand (n : Numeral) :
    |n.value * 10 ^ 8| = n.significand * (10 : ℚ) ^ (scale n 0) := by
  have hpow : (10 : ℚ) ^ (scale n 0) =
      (10 : ℚ) ^ (n.writtenExponent - n.fraction.length) * 10 ^ 8 := by
    rw [scale, add_zero, zpow_add₀ (by norm_num)]
    norm_cast
  have hsigned : |(n.signed : ℚ)| = n.significand := by
    unfold Numeral.signed
    split
    · simp
    · simp
  rw [Numeral.value, mul_assoc, ← hpow, abs_mul, hsigned, abs_of_pos (by positivity)]

theorem value_mantissa (n : Numeral) {m : Mantissa} {k : ℕ} (hm : Reads n.significand k m) :
    n.value * 10 ^ 8 = withSign (n.negative, m.mantissa) * (10 : ℚ) ^ (scale n m.tzeros) := by
  have hz := hm.tzeros_nonneg
  have hpow : (10 : ℚ) ^ (scale n m.tzeros) = (10 : ℚ) ^ m.tzeros.toNat *
      ((10 : ℚ) ^ (n.writtenExponent - n.fraction.length) * 10 ^ 8) := by
    have hscale : scale n m.tzeros =
        m.tzeros.toNat + ((n.writtenExponent - n.fraction.length) + 8) := by
      unfold scale
      omega
    rw [hscale, zpow_add₀ (by norm_num), zpow_add₀ (by norm_num)]
    norm_cast
  have hsigned : (n.signed : ℚ) =
      withSign (n.negative, m.mantissa) * (10 : ℚ) ^ m.tzeros.toNat := by
    have hint : n.signed = withSign (n.negative, m.mantissa) * 10 ^ m.tzeros.toNat := by
      unfold Numeral.signed withSign
      rw [hm.value]
      split
      · ring
      · rfl
    rw [hint]
    push_cast
    ring
  rw [Numeral.value, hsigned, hpow]
  ring

theorem abs_scaled (n : Numeral) {m : Mantissa} {k : ℕ} (hm : Reads n.significand k m) {v : ℤ}
    (hv : (v : ℚ) = n.value * 10 ^ 8) :
    |(v : ℚ)| = m.mantissa.toNat * (10 : ℚ) ^ (scale n m.tzeros) := by
  have hnat : ((m.mantissa.toNat : ℤ) : ℚ) = m.mantissa := by
    rw [Int.toNat_of_nonneg hm.mantissa_nonneg]
  have hpow : (0 : ℚ) < 10 ^ scale n m.tzeros := by positivity
  rw [hv, value_mantissa n hm, abs_mul, abs_of_pos hpow, ← Int.cast_abs,
    abs_withSign hm.mantissa_nonneg, ← hnat]
  norm_cast

/-- What the parser rejects at the end has no result. -/
theorem not_represents_of_scale (n : Numeral) {m : Mantissa} {k : ℕ} (hm : Reads n.significand k m)
    (hzero : n.significand = 0 → k = n.fraction.length)
    (hscale : scale n m.tzeros < 0 ∨ 18 ≤ scale n m.tzeros ∨
      10 ^ 18 ≤ m.mantissa * 10 ^ (scale n m.tzeros).toNat) (v : ℤ) : ¬ Represents n v := by
  rintro ⟨hv, hle, hexp⟩
  have hm0 := hm.mantissa_nonneg
  by_cases hsig : n.significand = 0
  · -- all digits are zeros, and the scale is that of the written exponent
    have hmant : m.mantissa = 0 := hm.mantissa_eq_zero.mpr hsig
    have hz := hm.zeros hmant
    have hwe := hexp (n.value_eq_zero.mpr hsig)
    rw [hmant, zero_mul] at hscale
    unfold scale at hscale
    rw [hz, hzero hsig] at hscale
    omega
  · have hmant : m.mantissa ≠ 0 := fun h => hsig (hm.mantissa_eq_zero.mp h)
    have hnat : (m.mantissa.toNat : ℤ) = m.mantissa := Int.toNat_of_nonneg hm0
    rcases scaled_cases (abs_scaled n hm hv) with ⟨hx, habs⟩ | ⟨hx, hdvd⟩
    · rw [hnat] at habs
      rcases hscale with hneg | hlarge | hbig
      · omega
      · have hpow : (10 : ℤ) ^ 18 ≤ 10 ^ (scale n m.tzeros).toNat :=
          pow_le_pow_right₀ (by norm_num) (by omega)
        have hone : 1 ≤ m.mantissa := by omega
        nlinarith
      · omega
    · have hlast := hm.last.resolve_left hmant
      obtain ⟨j, hj⟩ : ∃ j, (-scale n m.tzeros).toNat = j + 1 :=
        ⟨(-scale n m.tzeros).toNat - 1, by omega⟩
      rw [hj, pow_succ, ← mul_assoc] at hdvd
      refine hlast ⟨v.natAbs * 10 ^ j, ?_⟩
      rw [← hnat, hdvd]
      push_cast
      ring

theorem not_represents_of_coarse {n : Numeral} (h : Coarse n.significand) (v : ℤ) :
    ¬ Represents n v := by
  rintro ⟨hv, hle, -⟩
  have hbig := h.le_abs (v := v) (x := scale n 0) (by rw [hv, value_significand])
  omega

theorem length_le_text (n : Numeral) : n.integer.length + n.fraction.length ≤ n.text.length := by
  have hfrac : n.fraction.length ≤ n.fractionText.length := by
    unfold Numeral.fractionText
    split
    · rename_i h
      rw [h]
    · exact Nat.le_succ _
  unfold Numeral.text
  rw [List.length_append, List.length_append, List.length_append]
  omega

/-- An exponent of `10 ^ 18` moves the digits of a text out of every bound. -/
theorem not_represents_of_exponent {n : Numeral} (h : 10 ^ 18 ≤ |n.writtenExponent|)
    (hlen : n.text.length < 10 ^ 17) (v : ℤ) : ¬ Represents n v := by
  rintro ⟨hv, hle, hexp⟩
  have htext := length_le_text n
  have habs : |(v : ℚ)| = n.significand * (10 : ℚ) ^ (scale n 0) := by rw [hv, value_significand]
  by_cases hsig : n.significand = 0
  · have hwe := hexp (n.value_eq_zero.mpr hsig)
    rw [le_abs] at h
    omega
  · have hv0 : v ≠ 0 := by
      rintro rfl
      rw [Int.cast_zero, abs_zero] at habs
      have hpow : (10 : ℚ) ^ (scale n 0) ≠ 0 := by positivity
      have h0 := (mul_eq_zero.mp habs.symm).resolve_right hpow
      exact hsig (by exact_mod_cast h0)
    rcases le_abs.mp h with hpos | hneg
    · rcases scaled_cases habs with ⟨hx, hvx⟩ | ⟨hx, -⟩
      · have hpow : (10 : ℤ) ^ 18 ≤ 10 ^ (scale n 0).toNat :=
          pow_le_pow_right₀ (by norm_num) (by unfold scale; omega)
        have hone : (1 : ℤ) ≤ n.significand := by omega
        nlinarith
      · unfold scale at hx
        omega
    · have hdigits : ∀ c ∈ n.integer ++ n.fraction, IsDigit c := by
        intro c hc
        rcases List.mem_append.mp hc with hc | hc
        · exact n.integer_isDigit c hc
        · exact n.fraction_isDigit c hc
      have hlt : n.significand < 10 ^ (n.integer ++ n.fraction).length := digitsValue_lt hdigits
      refine not_scaled_of_lt_pow hlt hv0 ?_ habs
      rw [List.length_append]
      unfold scale
      omega

/-! ## The numerals -/

theorem noFraction_exponentText (n : Numeral) : NoFraction n.exponentText := by
  unfold Numeral.exponentText
  cases n.exponent with
  | none => exact ⟨fun c hc => (Option.not_mem_none c hc).elim, by simp⟩
  | some e =>
    have hmarker : e.marker = 'E' ∨ e.marker = 'e' := by
      unfold Exponent.marker
      cases e.upper with
      | true => exact Or.inl rfl
      | false => exact Or.inr rfl
    constructor
    · intro c hc
      obtain rfl : e.marker = c := by simpa [Exponent.text] using hc
      rcases hmarker with h | h
      · rw [h]
        decide
      · rw [h]
        decide
    · intro hc
      have hpoint : e.marker = '.' := by simpa [Exponent.text] using hc
      rw [hpoint] at hmarker
      revert hmarker
      decide

theorem noDigit_fractionText (n : Numeral) : NoDigit (n.fractionText ++ n.exponentText) := by
  unfold Numeral.fractionText
  split
  · rw [List.nil_append]
    exact (noFraction_exponentText n).1
  · intro c hc
    obtain rfl : '.' = c := by simpa using hc
    decide

theorem mantissaSign_text (n : Numeral) :
    mantissaSign n.text = (n.negative, n.integer ++ (n.fractionText ++ n.exponentText)) := by
  unfold Numeral.text
  cases n.negative with
  | true => rfl
  | false =>
    obtain ⟨c, ds, hint⟩ := List.exists_cons_of_ne_nil n.integer_ne
    have hc : IsDigit c := n.integer_isDigit c (by rw [hint]; exact List.mem_cons_self)
    simp only [Bool.false_eq_true, if_false, List.nil_append, hint, List.cons_append]
    unfold mantissaSign
    rw [splitAtChecked_digit hc]
    split
    · rename_i heq
      obtain rfl : c = '-' := congrArg Prod.fst (Option.some.inj heq)
      exact absurd hc (by decide)
    · rfl

/-- The parser on a numeral: what it returns is the result, and what it rejects
    has none. -/
theorem parseFixedPoint_numeral (n : Numeral) :
    Outcome (Represents n) (n.text.length < 10 ^ 17 → ∀ v, ¬ Represents n v)
      (10 ^ 17 ≤ n.text.length) (parseFixedPoint n.text 8) := by
  have htext := length_le_text n
  unfold parseFixedPoint
  rw [mantissaSign_text]
  refine (integerPart_outcome n (noDigit_fractionText n)).bind ?_ ?_ (fun h => by omega)
  · rintro ⟨m, val⟩ ⟨hval, k, hk, hk0, hm⟩
    obtain rfl : val = _ := hval
    refine (fractionPart_outcome n (noFraction_exponentText n) hm).bind ?_ ?_ (fun h => by omega)
    · rintro ⟨⟨m, pointOfs⟩, val⟩ ⟨hval, hofs, hm⟩
      obtain rfl : val = _ := hval
      obtain rfl : pointOfs = _ := hofs
      refine (exponentPart_outcome n).bind ?_ ?_ False.elim
      · rintro ⟨e, val⟩ ⟨hval, he, hele, hexp⟩
        obtain rfl : val = [] := hval
        have hzero : n.significand = 0 → k + n.fraction.length = n.fraction.length := by
          intro h0
          have hle : digitsValue n.integer ≤ n.significand := by
            rw [Numeral.significand, digitsValue_append]
            exact le_appendDigits _ _
          rw [hk0 (by omega), Nat.zero_add]
        have hscale : scale n m.tzeros = withSign e - n.fraction.length + m.tzeros + 8 := by
          rw [hexp, scale]
        refine (finalize_outcome n.negative hm (Nat.le_add_left _ _) he hele hscale).mono ?_ ?_
          (fun h => by omega)
        · rintro v ⟨hx, hx18, hv, hle⟩
          have hval : (v : ℚ) = n.value * 10 ^ 8 := by
            rw [value_mantissa n hm, hv]
            push_cast
            rw [← zpow_natCast, Int.toNat_of_nonneg hx]
          refine ⟨hval, by rwa [← upperBound_eq], fun h0 => ?_⟩
          have hsig := n.value_eq_zero.mp h0
          have hz := hm.zeros (hm.mantissa_eq_zero.mpr hsig)
          change m.tzeros = _ at hz
          rw [hzero hsig] at hz
          unfold scale at hx hx18
          simp only [hz] at hx hx18
          omega
        · intro hrej _
          exact not_represents_of_scale n hm hzero hrej
      · intro hbig hlen
        exact not_represents_of_exponent hbig hlen
    · intro hcoarse _
      exact not_represents_of_coarse hcoarse
  · intro hcoarse _
    refine not_represents_of_coarse ?_
    rw [Numeral.significand, digitsValue_append]
    exact hcoarse.appendDigits n.fraction_isDigit

/-! ## The accepted texts -/

theorem eq_cons_of_splitAtChecked {val rest : List Char} {ch : Char}
    (h : splitAtChecked val = some (ch, rest)) : val = ch :: rest := by
  cases val with
  | nil => cases h
  | cons c val =>
    rw [splitAtChecked] at h
    split at h
    · obtain ⟨rfl, rfl⟩ := Prod.mk.inj (Option.some.inj h)
      rfl
    · cases h

/-- The digits at the beginning of a text, and the rest of it. -/
theorem digitsOf_cons {ch : Char} (hch : IsDigit ch) (val : List Char) :
    ∃ ds, digitsOf (ch :: val) = ch :: ds ∧ (∀ c ∈ ch :: ds, IsDigit c) ∧
      ch :: val = (ch :: ds) ++ (ch :: val).dropWhile Char.isDigit := by
  have htake : digitsOf (ch :: val) = ch :: digitsOf val := by
    simp [digitsOf, hch]
  refine ⟨digitsOf val, htake, fun c hc => ?_, ?_⟩
  · rw [← htake] at hc
    exact List.mem_takeWhile_imp hc
  · rw [← htake]
    exact List.takeWhile_append_dropWhile.symm

/-- The digits before the point of a numeral. -/
def IsInteger (ds : List Char) : Prop :=
  ∃ hne : ds ≠ [], (∀ c ∈ ds, IsDigit c) ∧ (ds.head hne = '0' → ds = ['0'])

theorem integerPart_splits (val : List Char) :
    Outcome (fun r => ∃ ds D k, val = ds ++ r.2 ∧ IsInteger ds ∧ k ≤ ds.length ∧ Reads D k r.1)
      True (2 ^ 63 ≤ val.length) (integerPart val) := by
  unfold integerPart
  split
  · rename_i rest heq
    refine ⟨['0'], 0, 0, eq_cons_of_splitAtChecked heq, ⟨by simp, ?_, fun _ => rfl⟩, Nat.zero_le _,
      reads_zero⟩
    rintro c hc
    obtain rfl : c = '0' := by simpa using hc
    decide
  · rename_i ch rest hne heq
    split
    · rename_i hch
      obtain rfl := eq_cons_of_splitAtChecked heq
      obtain ⟨ds, hdigits, hds, hval⟩ := digitsOf_cons hch rest
      have hlen := congrArg List.length hval
      rw [List.length_append] at hlen
      have hloop := integerLoop (ch :: rest)
      rw [hdigits] at hloop
      refine hloop.mono ?_ (fun _ => trivial) (fun h => by omega)
      rintro r ⟨hr, hreads⟩
      rw [hr]
      refine ⟨ch :: ds, _, _, hval, ⟨by simp, hds, fun h0 => ?_⟩, le_rfl, hreads⟩
      obtain rfl : ch = '0' := h0
      exact absurd rfl hne
    · trivial
  · trivial

theorem fractionPart_splits {D k : ℕ} {m : Mantissa} (hm : Reads D k m) (val : List Char) :
    Outcome (fun r => ∃ (ds : List Char) (D' : ℕ),
        val = (if ds = [] then [] else '.' :: ds) ++ r.2 ∧ (∀ c ∈ ds, IsDigit c) ∧
          r.1.2 = (ds.length : ℤ) ∧ Reads D' (k + ds.length) r.1.1)
      True (2 ^ 63 ≤ k + val.length) (fractionPart m val) := by
  unfold fractionPart
  split
  · rename_i rest heq
    obtain rfl := eq_cons_of_splitAtChecked heq
    split
    · rename_i ch rest' heq'
      split
      · rename_i hch
        obtain rfl := eq_cons_of_splitAtChecked heq'
        obtain ⟨ds, hdigits, hds, hval⟩ := digitsOf_cons hch rest'
        have hlen := congrArg List.length hval
        rw [List.length_append] at hlen
        have hloop := fractionLoop hm (ch :: rest')
        rw [hdigits] at hloop
        refine hloop.mono ?_ (fun _ => trivial) (fun h => by rw [List.length_cons]; omega)
        rintro r ⟨hr, hofs, hreads⟩
        refine ⟨ch :: ds, _, ?_, hds, hofs, hreads⟩
        rw [if_neg (List.cons_ne_nil ch ds), hr, List.cons_append, ← hval]
      · trivial
    · trivial
  · exact ⟨[], D, rfl, fun c hc => absurd hc List.not_mem_nil, rfl, hm⟩

theorem exponentSign_splits (val : List Char) :
    ∃ sign, val = Exponent.signText sign ++ (exponentSign val).2 := by
  unfold exponentSign
  split
  · rename_i rest heq
    exact ⟨some false, eq_cons_of_splitAtChecked heq⟩
  · rename_i rest heq
    exact ⟨some true, eq_cons_of_splitAtChecked heq⟩
  · exact ⟨none, rfl⟩

theorem exponentDigits_splits (val : List Char) :
    Outcome (fun r => ∃ ds, val = ds ++ r.2 ∧ ds ≠ [] ∧ (∀ c ∈ ds, IsDigit c) ∧ 0 ≤ r.1 ∧
      r.1 ≤ upperBound) True False (exponentDigits val) := by
  unfold exponentDigits
  split
  · rename_i ch rest heq
    split
    · rename_i hch
      obtain rfl := eq_cons_of_splitAtChecked heq
      obtain ⟨ds, -, hds, hval⟩ := digitsOf_cons hch rest
      refine (exponentLoop (ch :: rest)).mono ?_ (fun _ => trivial) id
      rintro r ⟨hr, hvalue, hle⟩
      rw [hr]
      exact ⟨ch :: ds, hval, List.cons_ne_nil ch ds, hds, by omega, hle⟩
    · trivial
  · trivial

theorem exponentPart_splits (val : List Char) :
    Outcome (fun r => (∃ e : Option Exponent, val = (e.map Exponent.text).getD [] ++ r.2) ∧
      0 ≤ r.1.2 ∧ r.1.2 ≤ upperBound) True False (exponentPart val) := by
  have hnone : (∃ e : Option Exponent, val = (e.map Exponent.text).getD [] ++ val) ∧
      (0 : ℤ) ≤ 0 ∧ 0 ≤ upperBound := ⟨⟨none, rfl⟩, le_rfl, by norm_num [upperBound]⟩
  unfold exponentPart
  split
  · rename_i ch rest heq
    split
    · rename_i hch
      obtain ⟨sign, hsign⟩ := exponentSign_splits rest
      refine (exponentDigits_splits (exponentSign rest).2).bind ?_ id id
      rintro r ⟨ds, hval, hne, hds, hbounds⟩
      refine ⟨⟨some ⟨decide (ch = 'E'), sign, ds, hne, hds⟩, ?_⟩, hbounds⟩
      have hmarker : Exponent.marker ⟨decide (ch = 'E'), sign, ds, hne, hds⟩ = ch := by
        rcases hch with rfl | rfl
        · rfl
        · rfl
      rw [eq_cons_of_splitAtChecked heq, hsign, hval]
      simp only [Option.map_some, Option.getD_some, Exponent.text, hmarker, List.cons_append,
        List.append_assoc]
    · exact hnone
  · exact hnone

theorem mantissaSign_splits (val : List Char) :
    val = (if (mantissaSign val).1 then ['-'] else []) ++ (mantissaSign val).2 := by
  unfold mantissaSign
  split
  · rename_i rest heq
    exact eq_cons_of_splitAtChecked heq
  · rfl

/-- The parser on any text: what it accepts is a numeral, and only a text of
    `10 ^ 17` characters makes it overflow. -/
theorem parseFixedPoint_text (s : List Char) :
    Outcome (fun _ => ∃ n : Numeral, n.text = s) True (10 ^ 17 ≤ s.length)
      (parseFixedPoint s 8) := by
  unfold parseFixedPoint
  have hsign := mantissaSign_splits s
  have hlen := congrArg List.length hsign
  rw [List.length_append] at hlen
  refine (integerPart_splits (mantissaSign s).2).bind ?_ id (fun h => by omega)
  rintro ⟨m, val⟩ ⟨integer, D, k, hint, ⟨hne, hdigit, hleading⟩, hk, hm⟩
  have hlen₁ : (mantissaSign s).2.length = integer.length + val.length := by
    rw [hint, List.length_append]
  refine (fractionPart_splits hm val).bind ?_ id (fun h => by omega)
  rintro ⟨⟨m', pointOfs⟩, val'⟩ ⟨fraction, D', hfrac, hfdigit, hofs, hm'⟩
  have hlen₂ : fraction.length ≤ val.length := by
    have h := congrArg List.length hfrac
    rw [List.length_append] at h
    split at h
    · rename_i hnil
      rw [hnil]
      exact Nat.zero_le _
    · rw [List.length_cons] at h
      omega
  obtain rfl : pointOfs = _ := hofs
  refine (exponentPart_splits val').bind ?_ id False.elim
  rintro ⟨e, rest⟩ ⟨⟨exponent, hexp⟩, he, hele⟩
  cases rest with
  | nil =>
    refine (finalize_outcome (mantissaSign s).1 hm' (Nat.le_add_left _ _) he hele rfl).mono ?_
      (fun _ => trivial) (fun h => by omega)
    intro v _
    refine ⟨⟨(mantissaSign s).1, integer, fraction, exponent, hne, hdigit, hleading, hfdigit⟩, ?_⟩
    refine Eq.trans ?_ hsign.symm
    rw [hint, hfrac, hexp, List.append_nil]
    rfl
  | cons c rest => trivial

theorem represents_of_ok {n : Numeral} {v : ℤ} (h : parseFixedPoint n.text 8 = .ok v) :
    Represents n v := by
  have hnum := parseFixedPoint_numeral n
  rwa [h] at hnum

/-- An accepted text is a numeral, and the result is the one that it denotes. -/
theorem parseFixedPoint_ok {s : List Char} {v : ℤ} (h : parseFixedPoint s 8 = .ok v) :
    ∃ n : Numeral, n.text = s ∧ Represents n v := by
  have htext := parseFixedPoint_text s
  rw [h] at htext
  obtain ⟨n, rfl⟩ := htext
  exact ⟨n, rfl, represents_of_ok h⟩

theorem Represents.eq {n : Numeral} {v w : ℤ} (hv : Represents n v) (hw : Represents n w) :
    v = w := by
  have h : (v : ℚ) = w := by rw [hv.1, hw.1]
  exact_mod_cast h

/-- A numeral with a result is accepted. -/
theorem parseFixedPoint_of_represents {n : Numeral} {v : ℤ} (hlen : n.text.length < 10 ^ 17)
    (hv : Represents n v) : parseFixedPoint n.text 8 = .ok v := by
  have h := parseFixedPoint_numeral n
  rcases hres : parseFixedPoint n.text 8 with (_ | _) | w
  · rw [hres] at h
    exact absurd hv (h hlen v)
  · rw [hres] at h
    exact absurd hlen (not_lt.mpr h)
  · rw [hres] at h
    rw [h.eq hv]

/-- The accepted texts are numerals, no `i64` overflows, and a numeral is accepted
    exactly when it has a result. -/
theorem parseFixedPoint_exact (s : List Char) (hs : s.length < 10 ^ 17) :
    parseFixedPoint s 8 ≠ .error .Overflow ∧
      (∀ v, parseFixedPoint s 8 = .ok v → ∃ n : Numeral, n.text = s) ∧
      ∀ n : Numeral, n.text = s →
        (n.value ≠ 0 → ∀ v : ℤ,
          parseFixedPoint s 8 = .ok v ↔ (v : ℚ) = n.value * 10 ^ 8 ∧ |v| ≤ 10 ^ 18 - 1) ∧
        (n.value = 0 →
          (parseFixedPoint s 8 = .ok 0 ↔ -8 ≤ n.writtenExponent ∧ n.writtenExponent ≤ 9) ∧
          (¬ (-8 ≤ n.writtenExponent ∧ n.writtenExponent ≤ 9) →
            parseFixedPoint s 8 = .error .Rejected)) := by
  have htext := parseFixedPoint_text s
  -- a numeral's text has a result or is rejected
  have hnum (n : Numeral) (hn : n.text = s) :
      Outcome (Represents n) (∀ v, ¬ Represents n v) False (parseFixedPoint s 8) := by
    have h := parseFixedPoint_numeral n
    rw [hn] at h
    exact h.mono (fun _ => id) (fun hrej => hrej hs) (fun hover => by omega)
  rcases hres : parseFixedPoint s 8 with (_ | _) | v
  · rw [hres] at hnum
    refine ⟨by simp, by simp, fun n hn => ⟨fun hne v => ?_, fun h0 => ?_⟩⟩
    · have hno := hnum n hn v
      refine ⟨by simp, fun h => absurd ⟨h.1, h.2, fun h0 => absurd h0 hne⟩ hno⟩
    · have hno := hnum n hn 0
      have hexp : ¬ (-8 ≤ n.writtenExponent ∧ n.writtenExponent ≤ 9) := fun hexp =>
        hno ⟨by rw [h0]; simp, by norm_num, fun _ => hexp⟩
      exact ⟨by simpa using hexp, fun _ => rfl⟩
  · rw [hres] at htext
    exact absurd hs (not_lt.mpr htext)
  · rw [hres] at htext hnum
    refine ⟨by simp, fun _ _ => htext, fun n hn => ⟨fun hne w => ?_, fun h0 => ?_⟩⟩
    · obtain ⟨hv, hle, -⟩ := hnum n hn
      constructor
      · intro h
        obtain rfl : v = w := Except.ok.inj h
        exact ⟨hv, hle⟩
      · intro h
        have hvw : v = w := by
          have : (v : ℚ) = w := by rw [hv, h.1]
          exact_mod_cast this
        rw [hvw]
    · obtain ⟨hv, -, hexp⟩ := hnum n hn
      have hv0 : v = 0 := by
        rw [h0, zero_mul] at hv
        exact_mod_cast hv
      have hbounds := hexp h0
      rw [hv0]
      exact ⟨⟨fun _ => hbounds, fun _ => rfl⟩, fun hno => absurd hbounds hno⟩

/-- The numeral `0.50`. -/
def half : Numeral where
  negative := false
  integer := ['0']
  fraction := ['5', '0']
  exponent := none
  integer_ne := by decide
  integer_isDigit := List.forall_mem_singleton.mpr (by decide)
  leading := fun _ => rfl
  fraction_isDigit :=
    List.forall_mem_cons.mpr ⟨by decide, List.forall_mem_singleton.mpr (by decide)⟩

theorem parseFixedPoint_half :
    half.text = ['0', '.', '5', '0'] ∧ half.text.length < 10 ^ 17 ∧
      parseFixedPoint half.text 8 = .ok 50000000 := by
  have hlen : half.text.length < 10 ^ 17 := by decide
  have hsig : half.significand = 50 := by decide
  have hvalue : half.value = 1 / 2 := by
    have hsigned : half.signed = 50 := by
      unfold Numeral.signed
      rw [hsig]
      rfl
    have hexp : half.writtenExponent - half.fraction.length = -2 := rfl
    rw [Numeral.value, hsigned, hexp]
    norm_num
  have hexact := ((parseFixedPoint_exact half.text hlen).2.2 half rfl).1
    (by rw [hvalue]; norm_num) 50000000
  exact ⟨rfl, hlen, hexact.mpr ⟨by rw [hvalue]; norm_num, by norm_num⟩⟩

end Zallet.Rpc
