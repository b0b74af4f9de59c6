import Mathlib

/-!
# Base64

Standard Base64 with padding. `decode` takes canonical texts only: the bits that
the padding stands for are zero.

* `decode_eq_some`: `decode` accepts exactly the texts that `encode` writes, and
  is its inverse.
-/

namespace Zallet.Common.Base64

/-! ## Digits -/

def alphabet : List Char :=
  "ABCDEFGHIJKLMNOPQRSTUVWXYZabcdefghijklmnopqrstuvwxyz0123456789+/".toList

/-- The character of a group of six bits. -/
def digit (n : ℕ) : Char := alphabet.getD n '='

/-- The group of six bits that a character stands for. -/
def value (c : Char) : Option ℕ := (List.range 64).find? fun n => digit n == c

theorem digit_ne_pad {n : ℕ} (h : n < 64) : digit n ≠ '=' := by
  have hall : ∀ n < 64, digit n ≠ '=' := by decide +kernel
  exact hall n h

theorem digit_injective {m n : ℕ} (hm : m < 64) (hn : n < 64) (h : digit m = digit n) : m = n := by
  have hall : ∀ m < 64, ∀ n < 64, digit m = digit n → m = n := by decide +kernel
  exact hall m hm n hn h

theorem value_eq_some {c : Char} {n : ℕ} : value c = some n ↔ n < 64 ∧ digit n = c := by
  unfold value
  constructor
  · intro h
    exact ⟨List.mem_range.mp (List.mem_of_find?_eq_some h), by simpa using List.find?_some h⟩
  · rintro ⟨hn, rfl⟩
    cases hf : (List.range 64).find? fun m => digit m == digit n with
    | none =>
      have hnone := List.find?_eq_none.mp hf n (List.mem_range.mpr hn)
      simp at hnone
    | some m =>
      have hm := List.mem_range.mp (List.mem_of_find?_eq_some hf)
      have hd : digit m = digit n := by simpa using List.find?_some hf
      rw [digit_injective hm hn hd]

@[simp] theorem value_digit {n : ℕ} (h : n < 64) : value (digit n) = some n :=
  value_eq_some.mpr ⟨h, rfl⟩

/-! ## Groups -/

def encode : List UInt8 → List Char
  | [] => []
  | [a] => [digit (a.toNat / 4), digit (a.toNat % 4 * 16), '=', '=']
  | [a, b] =>
    [digit (a.toNat / 4), digit (a.toNat % 4 * 16 + b.toNat / 16), digit (b.toNat % 16 * 4), '=']
  | a :: b :: c :: rest =>
    digit (a.toNat / 4) :: digit (a.toNat % 4 * 16 + b.toNat / 16) ::
      digit (b.toNat % 16 * 4 + c.toNat / 64) :: digit (c.toNat % 64) :: encode rest

/-- The byte of the last group with two paddings. -/
def decodeOne (w x : Char) : Option UInt8 := do
  let w ← value w
  let x ← value x
  if x % 16 = 0 then some (UInt8.ofNat (w * 4 + x / 16)) else none

/-- The bytes of the last group with one padding. -/
def decodeTwo (w x y : Char) : Option (UInt8 × UInt8) := do
  let w ← value w
  let x ← value x
  let y ← value y
  if y % 4 = 0 then some (UInt8.ofNat (w * 4 + x / 16), UInt8.ofNat (x % 16 * 16 + y / 4)) else none

/-- The bytes of a full group. -/
def decodeThree (w x y z : Char) : Option (UInt8 × UInt8 × UInt8) := do
  let w ← value w
  let x ← value x
  let y ← value y
  let z ← value z
  some (UInt8.ofNat (w * 4 + x / 16), UInt8.ofNat (x % 16 * 16 + y / 4), UInt8.ofNat (y % 4 * 64 + z))

def decode : List Char → Option (List UInt8)
  | [] => some []
  | w :: x :: y :: z :: rest =>
    if z = '=' then
      if rest ≠ [] then none
      else if y = '=' then (decodeOne w x).map fun a => [a]
      else (decodeTwo w x y).map fun (a, b) => [a, b]
    else
      (decodeThree w x y z).bind fun (a, b, c) => (decode rest).map fun bytes => a :: b :: c :: bytes
  | _ => none

/-- A text is made of digits and paddings. -/
theorem mem_encode {bytes : List UInt8} {c : Char} (h : c ∈ encode bytes) :
    c = '=' ∨ ∃ n < 64, c = digit n := by
  fun_induction encode bytes with
  | case1 => cases h
  | case2 a =>
    have ha := a.toNat_lt
    simp only [List.mem_cons, List.not_mem_nil, or_false] at h
    rcases h with rfl | rfl | rfl | rfl
    · exact Or.inr ⟨_, by omega, rfl⟩
    · exact Or.inr ⟨_, by omega, rfl⟩
    · exact Or.inl rfl
    · exact Or.inl rfl
  | case3 a b =>
    have ha := a.toNat_lt
    have hb := b.toNat_lt
    simp only [List.mem_cons, List.not_mem_nil, or_false] at h
    rcases h with rfl | rfl | rfl | rfl
    · exact Or.inr ⟨_, by omega, rfl⟩
    · exact Or.inr ⟨_, by omega, rfl⟩
    · exact Or.inr ⟨_, by omega, rfl⟩
    · exact Or.inl rfl
  | case4 a b c rest ih =>
    have ha := a.toNat_lt
    have hb := b.toNat_lt
    have hc := c.toNat_lt
    simp only [List.mem_cons] at h
    rcases h with rfl | rfl | rfl | rfl | h
    · exact Or.inr ⟨_, by omega, rfl⟩
    · exact Or.inr ⟨_, by omega, rfl⟩
    · exact Or.inr ⟨_, by omega, rfl⟩
    · exact Or.inr ⟨_, by omega, rfl⟩
    · exact ih h

theorem toNat_ofNat {n : ℕ} (h : n < 256) : (UInt8.ofNat n).toNat = n :=
  UInt8.toNat_ofNat_of_lt' h

theorem ofNat_eq {n : ℕ} {a : UInt8} (h : n = a.toNat) : UInt8.ofNat n = a := by
  rw [h, UInt8.ofNat_toNat]

theorem decodeOne_eq_some {w x : Char} {a : UInt8} :
    decodeOne w x = some a ↔ w = digit (a.toNat / 4) ∧ x = digit (a.toNat % 4 * 16) := by
  have ha := a.toNat_lt
  simp only [decodeOne, Option.bind_eq_bind, Option.bind_eq_some_iff, value_eq_some]
  constructor
  · rintro ⟨m, ⟨hm, rfl⟩, n, ⟨hn, rfl⟩, h⟩
    split at h
    · rename_i hz
      have hb : a.toNat = m * 4 + n / 16 := by
        rw [← Option.some.inj h, toNat_ofNat (by omega)]
      rw [hb, show (m * 4 + n / 16) / 4 = m by omega,
        show (m * 4 + n / 16) % 4 * 16 = n by omega]
      exact ⟨rfl, rfl⟩
    · cases h
  · rintro ⟨rfl, rfl⟩
    refine ⟨_, ⟨by omega, rfl⟩, _, ⟨by omega, rfl⟩, ?_⟩
    rw [if_pos (by omega), ofNat_eq (a := a) (by omega)]

theorem decodeTwo_eq_some {w x y : Char} {a b : UInt8} :
    decodeTwo w x y = some (a, b) ↔ w = digit (a.toNat / 4) ∧
      x = digit (a.toNat % 4 * 16 + b.toNat / 16) ∧ y = digit (b.toNat % 16 * 4) := by
  have ha := a.toNat_lt
  have hb := b.toNat_lt
  simp only [decodeTwo, Option.bind_eq_bind, Option.bind_eq_some_iff, value_eq_some]
  constructor
  · rintro ⟨m, ⟨hm, rfl⟩, n, ⟨hn, rfl⟩, k, ⟨hk, rfl⟩, h⟩
    split at h
    · rename_i hz
      obtain ⟨h₁, h₂⟩ := Prod.mk.inj (Option.some.inj h)
      have ha' : a.toNat = m * 4 + n / 16 := by rw [← h₁, toNat_ofNat (by omega)]
      have hb' : b.toNat = n % 16 * 16 + k / 4 := by rw [← h₂, toNat_ofNat (by omega)]
      rw [ha', hb', show (m * 4 + n / 16) / 4 = m by omega,
        show (m * 4 + n / 16) % 4 * 16 + (n % 16 * 16 + k / 4) / 16 = n by omega,
        show (n % 16 * 16 + k / 4) % 16 * 4 = k by omega]
      exact ⟨rfl, rfl, rfl⟩
    · cases h
  · rintro ⟨rfl, rfl, rfl⟩
    refine ⟨_, ⟨by omega, rfl⟩, _, ⟨by omega, rfl⟩, _, ⟨by omega, rfl⟩, ?_⟩
    rw [if_pos (by omega), ofNat_eq (a := a) (by omega), ofNat_eq (a := b) (by omega)]

theorem decodeThree_eq_some {w x y z : Char} {a b c : UInt8} :
    decodeThree w x y z = some (a, b, c) ↔ w = digit (a.toNat / 4) ∧
      x = digit (a.toNat % 4 * 16 + b.toNat / 16) ∧ y = digit (b.toNat % 16 * 4 + c.toNat / 64) ∧
      z = digit (c.toNat % 64) := by
  have ha := a.toNat_lt
  have hb := b.toNat_lt
  have hc := c.toNat_lt
  simp only [decodeThree, Option.bind_eq_bind, Option.bind_eq_some_iff, value_eq_some]
  constructor
  · rintro ⟨m, ⟨hm, rfl⟩, n, ⟨hn, rfl⟩, k, ⟨hk, rfl⟩, l, ⟨hl, rfl⟩, h⟩
    obtain ⟨h₁, h₂⟩ := Prod.mk.inj (Option.some.inj h)
    obtain ⟨h₂, h₃⟩ := Prod.mk.inj h₂
    have ha' : a.toNat = m * 4 + n / 16 := by rw [← h₁, toNat_ofNat (by omega)]
    have hb' : b.toNat = n % 16 * 16 + k / 4 := by rw [← h₂, toNat_ofNat (by omega)]
    have hc' : c.toNat = k % 4 * 64 + l := by rw [← h₃, toNat_ofNat (by omega)]
    rw [ha', hb', hc', show (m * 4 + n / 16) / 4 = m by omega,
      show (m * 4 + n / 16) % 4 * 16 + (n % 16 * 16 + k / 4) / 16 = n by omega,
      show (n % 16 * 16 + k / 4) % 16 * 4 + (k % 4 * 64 + l) / 64 = k by omega,
      show (k % 4 * 64 + l) % 64 = l by omega]
    exact ⟨rfl, rfl, rfl, rfl⟩
  · rintro ⟨rfl, rfl, rfl, rfl⟩
    refine ⟨_, ⟨by omega, rfl⟩, _, ⟨by omega, rfl⟩, _, ⟨by omega, rfl⟩, _, ⟨by omega, rfl⟩, ?_⟩
    rw [ofNat_eq (a := a) (by omega), ofNat_eq (a := b) (by omega), ofNat_eq (a := c) (by omega)]

/-! ## The round trip -/

theorem decode_encode (bytes : List UInt8) : decode (encode bytes) = some bytes := by
  fun_induction encode bytes with
  | case1 => rfl
  | case2 a =>
    have h := (decodeOne_eq_some (a := a)).mpr ⟨rfl, rfl⟩
    simp [decode, h]
  | case3 a b =>
    have hb := b.toNat_lt
    have hy : digit (b.toNat % 16 * 4) ≠ '=' := digit_ne_pad (by omega)
    have h := (decodeTwo_eq_some (a := a) (b := b)).mpr ⟨rfl, rfl, rfl⟩
    simp [decode, hy, h]
  | case4 a b c rest ih =>
    have hz : digit (c.toNat % 64) ≠ '=' := digit_ne_pad (by omega)
    have h := (decodeThree_eq_some (a := a) (b := b) (c := c)).mpr ⟨rfl, rfl, rfl, rfl⟩
    simp [decode, hz, h, ih]

theorem encode_of_decode {text : List Char} {bytes : List UInt8} (h : decode text = some bytes) :
    encode bytes = text := by
  fun_induction decode text generalizing bytes with
  | case1 =>
    cases h
    rfl
  | case2 => cases h
  | case3 w x rest hrest =>
    obtain rfl : rest = [] := by simpa using hrest
    obtain ⟨a, ha, rfl⟩ := Option.map_eq_some_iff.mp h
    obtain ⟨rfl, rfl⟩ := decodeOne_eq_some.mp ha
    rfl
  | case4 w x y rest hrest hy =>
    obtain rfl : rest = [] := by simpa using hrest
    obtain ⟨⟨a, b⟩, hab, rfl⟩ := Option.map_eq_some_iff.mp h
    obtain ⟨rfl, rfl, rfl⟩ := decodeTwo_eq_some.mp hab
    rfl
  | case5 w x y z rest hz ih =>
    obtain ⟨⟨a, b, c⟩, habc, h⟩ := Option.bind_eq_some_iff.mp h
    obtain ⟨bytes, hbytes, rfl⟩ := Option.map_eq_some_iff.mp h
    obtain ⟨rfl, rfl, rfl, rfl⟩ := decodeThree_eq_some.mp habc
    rw [encode, ih hbytes]
  | case6 => cases h

/-- The canonical texts, and what they stand for. -/
theorem decode_eq_some {text : List Char} {bytes : List UInt8} :
    decode text = some bytes ↔ text = encode bytes :=
  ⟨fun h => (encode_of_decode h).symm, fun h => h ▸ decode_encode bytes⟩

end Zallet.Common.Base64
