import Zallet.Rpc.FixedPoint
import Zallet.Rpc.Imports
import Zallet.Rpc.TransparentOutputs

/-!
# Amounts of the JSON-RPC interface

`zatoshis_from_value`, `value_from_zatoshis` and `zec_str` of
`zallet-core/src/components/json_rpc/utils.rs`, lines 350–381 and 609–616.

An amount is written with the decimals of `rust_decimal`: `Decimals` has the
functions that are called, and `Decimals.Lawful` is what the crate documents of
them. `amounts_round_trip`: what the wallet writes it reads back, and what it
reads denotes the number that it then writes.
-/

namespace Zallet.Rpc

open Zallet.Common

/-- `JsonValue`. A number is its text (`arbitrary_precision`). -/
inductive JsonValue
  | Null
  | Bool (b : Bool)
  | Number (n : List Char)
  | String (s : List Char)
  | Array (values : List JsonValue)
  | Object (fields : List (List Char × JsonValue))

/-- A call ends with an error of the interface, or in the overflow of an `i64`. -/
inductive Failure
  | Error (e : RpcError)
  | Overflow
  deriving DecidableEq

/-- An error with the code `LegacyCode::Type`. -/
def typeError (message : String) : RpcError := ⟨-3, message⟩

inductive BalanceError
  | Overflow
  | Underflow
  deriving DecidableEq

/-- `Zatoshis::from_nonnegative_i64`. -/
def Zatoshis.fromNonnegativeI64 (amount : ℤ) : Except BalanceError Zatoshis :=
  if amount < 0 then .error .Underflow
  else if h : amount.toNat ≤ maxMoney then .ok ⟨amount.toNat, h⟩
  else .error .Overflow

/-- The text that an amount is parsed from. -/
def JsonValue.amountText : JsonValue → Option (List Char)
  | .String s => some s
  | .Number n => some n
  | _ => none

/-- `zatoshis_from_value` (lines 350–368). -/
def zatoshisFromValue (value : JsonValue) : Except Failure Zatoshis :=
  match value.amountText with
  | none => .error (.Error (typeError "Amount is not a number or string"))
  | some amountStr =>
    match parseFixedPoint amountStr 8 with
    | .error .Rejected => .error (.Error (typeError "Invalid amount"))
    | .error .Overflow => .error .Overflow
    | .ok amount =>
      match Zatoshis.fromNonnegativeI64 amount with
      | .ok zatoshis => .ok zatoshis
      | .error .Underflow =>
        .error (.Error (LegacyCode.InvalidParameter.withMessage
          "Invalid parameter, amount must be positive"))
      | .error .Overflow => .error (.Error (typeError "Amount out of range"))

/-- The number of zatoshis in a coin (`COIN`). -/
def coin : ℕ := 100000000

/-- What the encoder calls on decimals: the conversions from `i64` and `u64`,
    `/`, `trunc_with_scale` and `to_string`. -/
structure Decimals (Decimal : Type) where
  fromI64 : ℤ → Decimal
  fromU64 : ℕ → Decimal
  div : Decimal → Decimal → Decimal
  truncWithScale : Decimal → ℕ → Decimal
  display : Decimal → List Char

section

variable {Decimal : Type} (decimals : Decimals Decimal)

/-- `value_from_zat_balance` (lines 374–381). -/
def valueFromZatBalance (value : ℤ) : Decimal :=
  decimals.truncWithScale (decimals.div (decimals.fromI64 value) (decimals.fromU64 coin)) 8

/-- `value_from_zatoshis` (lines 370–372). -/
def valueFromZatoshis (value : Zatoshis) : Decimal := valueFromZatBalance decimals value.value

/-- A numeral as `Decimal` displays it: no exponent, and no more than the
    29 digits of its mantissa, the leading zero, the sign and the point. -/
def IsPlain (n : Numeral) : Prop := n.exponent = none ∧ n.text.length ≤ 32

/-- What `rust_decimal` documents, for the number `value d` that a decimal
    stands for. -/
structure Decimals.Lawful (value : Decimal → ℚ) : Prop where
  div_coin : ∀ n : ℤ, |n| < 2 ^ 63 →
    value (decimals.div (decimals.fromI64 n) (decimals.fromU64 coin)) = n / 10 ^ 8
  truncWithScale : ∀ (d : Decimal) (n : ℤ), value d = n / 10 ^ 8 →
    value (decimals.truncWithScale d 8) = value d
  display : ∀ d, ∃ n : Numeral, n.text = decimals.display d ∧ IsPlain n ∧ n.value = value d

end

section

variable {Decimal : Type} {decimals : Decimals Decimal} {value : Decimal → ℚ}

theorem value_valueFromZatBalance (h : decimals.Lawful value) {n : ℤ} (hn : |n| < 2 ^ 63) :
    value (valueFromZatBalance decimals n) = n / 10 ^ 8 := by
  have hdiv := h.div_coin n hn
  rw [valueFromZatBalance, h.truncWithScale _ _ hdiv, hdiv]

theorem value_valueFromZatoshis (h : decimals.Lawful value) (z : Zatoshis) :
    value (valueFromZatoshis decimals z) = z.value / 10 ^ 8 := by
  have hle := z.le_max
  have hmax : maxMoney < 2 ^ 63 := by norm_num [maxMoney]
  have hbound : |(z.value : ℤ)| < 2 ^ 63 := by
    rw [Nat.abs_cast]
    omega
  rw [valueFromZatoshis, value_valueFromZatBalance h hbound, Int.cast_natCast]

theorem fromNonnegativeI64_ok {amount : ℤ} {z : Zatoshis} :
    Zatoshis.fromNonnegativeI64 amount = .ok z ↔ amount = z.value := by
  have hle := z.le_max
  unfold Zatoshis.fromNonnegativeI64
  split
  · simp only [reduceCtorEq, false_iff]
    omega
  · split
    · rename_i hneg hmax
      constructor
      · intro h
        have hz : amount.toNat = z.value := congrArg Zatoshis.value (Except.ok.inj h)
        omega
      · intro h
        have hz : amount.toNat = z.value := by omega
        rw [Except.ok.injEq]
        cases z
        simpa using hz
    · simp only [reduceCtorEq, false_iff]
      omega

/-- The decoder accepts the texts of the numbers of zatoshis. -/
theorem zatoshisFromValue_ok {v : JsonValue} {z : Zatoshis} :
    zatoshisFromValue v = .ok z ↔
      ∃ s, v.amountText = some s ∧ parseFixedPoint s 8 = .ok (z.value : ℤ) := by
  unfold zatoshisFromValue
  split
  · rename_i hnone
    simp [hnone]
  · rename_i s hs
    simp only [hs, Option.some.injEq, exists_eq_left']
    split
    · rename_i hparse
      simp [hparse]
    · rename_i hparse
      simp [hparse]
    · rename_i amount hparse
      rw [hparse, Except.ok.injEq, ← fromNonnegativeI64_ok]
      split
      · rename_i z' hz'
        simp [hz']
      · rename_i herr
        simp [herr]
      · rename_i herr
        simp [herr]

/-- A short plain numeral of an amount is parsed to the amount. -/
theorem parseFixedPoint_plain {n : Numeral} (hplain : IsPlain n) {z : Zatoshis}
    (hvalue : n.value = z.value / 10 ^ 8) : parseFixedPoint n.text 8 = .ok (z.value : ℤ) := by
  have hle := z.le_max
  have hlen : n.text.length < 10 ^ 17 := by
    have := hplain.2
    omega
  have hmax : maxMoney < 10 ^ 18 := by norm_num [maxMoney]
  have hrep : Represents n z.value := by
    refine ⟨?_, ?_, fun _ => ?_⟩
    · rw [hvalue]
      field_simp
      norm_cast
    · rw [Nat.abs_cast]
      omega
    · rw [Numeral.writtenExponent, hplain.1]
      norm_num
  exact parseFixedPoint_of_represents hlen hrep

/-- What the wallet writes it reads back. What it reads denotes the number that it
    writes for it. -/
theorem amounts_round_trip (h : decimals.Lawful value) :
    (∀ (z : Zatoshis) (v : JsonValue),
      v.amountText = some (decimals.display (valueFromZatoshis decimals z)) →
        zatoshisFromValue v = .ok z) ∧
      ∀ (v : JsonValue) (z : Zatoshis), zatoshisFromValue v = .ok z →
        ∃ s, v.amountText = some s ∧ (∃ n : Numeral, n.text = s) ∧
          (∃ m : Numeral, m.text = decimals.display (valueFromZatoshis decimals z)) ∧
          ∀ m n : Numeral, m.text = decimals.display (valueFromZatoshis decimals z) → n.text = s →
            m.value = n.value := by
  have hparse (z : Zatoshis) :
      parseFixedPoint (decimals.display (valueFromZatoshis decimals z)) 8 = .ok (z.value : ℤ) := by
    obtain ⟨m, htext, hplain, hvalue⟩ := h.display (valueFromZatoshis decimals z)
    rw [value_valueFromZatoshis h] at hvalue
    rw [← htext]
    exact parseFixedPoint_plain hplain hvalue
  refine ⟨fun z v hv => zatoshisFromValue_ok.mpr ⟨_, hv, hparse z⟩, fun v z hv => ?_⟩
  obtain ⟨s, hs, hok⟩ := zatoshisFromValue_ok.mp hv
  obtain ⟨n, htext, -⟩ := parseFixedPoint_ok hok
  obtain ⟨m, htext', -⟩ := h.display (valueFromZatoshis decimals z)
  refine ⟨s, hs, ⟨n, htext⟩, ⟨m, htext'⟩, fun m n hm hn => ?_⟩
  -- both texts are parsed to `z`
  have hz := hparse z
  rw [← hm] at hz
  rw [← hn] at hok
  have hm' := (represents_of_ok hz).1
  have hn' := (represents_of_ok hok).1
  have hmul : m.value * 10 ^ 8 = n.value * 10 ^ 8 := by rw [← hm', ← hn']
  exact mul_right_cancel₀ (by norm_num) hmul

end

/-! ## Decimals with eight places -/

/-- `zec_str` (lines 609–616). -/
def zecStr (zatoshis : ℕ) : List Char :=
  Nat.toDigits 10 (zatoshis / coin) ++ '.' :: lastDigits 8 (zatoshis % coin)

/-- The numeral that `zec_str` writes, with a sign. -/
def zecNumeral (negative : Bool) (zatoshis : ℕ) : Numeral where
  negative
  integer := Nat.toDigits 10 (zatoshis / coin)
  fraction := lastDigits 8 (zatoshis % coin)
  exponent := none
  integer_ne := Nat.toDigits_ne_nil
  integer_isDigit := fun _ hc => Nat.isDigit_of_mem_toDigits (by norm_num) (by norm_num) hc
  leading := fun h => by rw [head_toDigits h, Nat.toDigits_zero]
  fraction_isDigit := isDigit_lastDigits 8 _

theorem text_zecNumeral (negative : Bool) (zatoshis : ℕ) :
    (zecNumeral negative zatoshis).text = (if negative then ['-'] else []) ++ zecStr zatoshis := by
  have hne : lastDigits 8 (zatoshis % coin) ≠ [] := by
    intro h
    have := congrArg List.length h
    simp at this
  cases negative with
  | true => simp [Numeral.text, Numeral.fractionText, Numeral.exponentText, zecNumeral, zecStr, hne]
  | false => simp [Numeral.text, Numeral.fractionText, Numeral.exponentText, zecNumeral, zecStr, hne]

theorem value_zecNumeral (negative : Bool) (zatoshis : ℕ) :
    (zecNumeral negative zatoshis).value = withSign (negative, (zatoshis : ℤ)) / 10 ^ 8 := by
  have hsig : (zecNumeral negative zatoshis).significand = zatoshis := by
    have hcoin : coin = 10 ^ 8 := by norm_num [coin]
    have hmod := Nat.div_add_mod zatoshis coin
    rw [Numeral.significand, digitsValue_append]
    show appendDigits (digitsValue (Nat.toDigits 10 (zatoshis / coin)))
      (lastDigits 8 (zatoshis % coin)) = zatoshis
    rw [digitsValue_toDigits, appendDigits_lastDigits, ← hcoin, Nat.mod_mod]
    linarith
  have hexp : (zecNumeral negative zatoshis).writtenExponent -
      (zecNumeral negative zatoshis).fraction.length = -8 := by
    simp [Numeral.writtenExponent, zecNumeral]
  have hsigned : (zecNumeral negative zatoshis).signed = withSign (negative, (zatoshis : ℤ)) := by
    rw [Numeral.signed, hsig]
    rfl
  rw [Numeral.value, hsigned, hexp]
  norm_num
  ring

/-- Decimals with eight places, of at most 29 digits. -/
structure Units where
  units : ℤ
  lt : units.natAbs < 10 ^ 29

namespace Units

def clamp (x : ℤ) : Units := if h : x.natAbs < 10 ^ 29 then ⟨x, h⟩ else ⟨0, by norm_num⟩

def fixed : Decimals Units where
  fromI64 n := clamp (n * 10 ^ 8)
  fromU64 n := clamp (n * 10 ^ 8)
  div a b := clamp (a.units * 10 ^ 8 / b.units)
  truncWithScale d _ := d
  display d := (if d.units < 0 then ['-'] else []) ++ zecStr d.units.natAbs

def toRat (d : Units) : ℚ := d.units / 10 ^ 8

theorem units_clamp {x : ℤ} (h : x.natAbs < 10 ^ 29) : (clamp x).units = x := by
  rw [clamp, dif_pos h]

theorem lawful : fixed.Lawful toRat where
  div_coin n hn := by
    rw [abs_lt] at hn
    have hfrom : (fixed.fromI64 n).units = n * 10 ^ 8 := units_clamp (by omega)
    have hcoin : (fixed.fromU64 coin).units = 10 ^ 16 := units_clamp (by norm_num [coin])
    have hdiv : n * 10 ^ 8 * 10 ^ 8 / 10 ^ 16 = n := by omega
    have hunits : (fixed.div (fixed.fromI64 n) (fixed.fromU64 coin)).units = n := by
      show (clamp ((fixed.fromI64 n).units * 10 ^ 8 / (fixed.fromU64 coin).units)).units = n
      rw [hfrom, hcoin, hdiv]
      exact units_clamp (by omega)
    rw [toRat, hunits]
  truncWithScale _ _ _ := rfl
  display d := by
    have hlt := d.lt
    refine ⟨zecNumeral (decide (d.units < 0)) d.units.natAbs, ?_, ⟨rfl, ?_⟩, ?_⟩
    · rw [text_zecNumeral]
      simp [fixed]
    · have hint : (Nat.toDigits 10 (d.units.natAbs / coin)).length ≤ 21 :=
        (Nat.length_toDigits_le_iff (by norm_num) (by norm_num)).mpr (by unfold coin; omega)
      have hsign : (if decide (d.units < 0) then ['-'] else []).length ≤ 1 := by
        split
        · exact le_rfl
        · exact Nat.zero_le _
      rw [text_zecNumeral, zecStr, List.length_append, List.length_append, List.length_cons,
        length_lastDigits]
      omega
    · rw [value_zecNumeral, toRat]
      have hsign : withSign (decide (d.units < 0), (d.units.natAbs : ℤ)) = d.units := by
        unfold withSign
        split
        · rename_i h
          rw [decide_eq_true_eq] at h
          omega
        · rename_i h
          rw [decide_eq_true_eq] at h
          omega
      rw [hsign]

end Units

theorem amounts_round_trip_units :
    Units.fixed.Lawful Units.toRat ∧
      zatoshisFromValue (.Number ['1', '.', '5', '0', '0', '0', '0', '0', '0', '0']) =
        .ok ⟨150000000, by norm_num [maxMoney]⟩ :=
  ⟨Units.lawful, (amounts_round_trip Units.lawful).1 ⟨150000000, by norm_num [maxMoney]⟩ _
    (by decide +kernel)⟩

end Zallet.Rpc
