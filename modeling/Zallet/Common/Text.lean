import Mathlib

/-!
# Texts

Texts are lists of characters. Each reader is characterised by what it accepts:

* `stripPrefix_eq_some`, `splitOnce_eq_some`: a text without its start, and the
  two sides of its first separator.
* `fromUtf8_eq_some`: the UTF-8 bytes of texts.
* `toStr_eq_some`: the bytes of visible ASCII.
-/

namespace Zallet.Common.Text

instance lawfulBEqChars : LawfulBEq (List Char) := inferInstance

/-! ## Starts and separators -/

/-- `str::strip_prefix`. -/
def stripPrefix : List Char → List Char → Option (List Char)
  | [], text => some text
  | _ :: _, [] => none
  | p :: start, c :: text => if p = c then stripPrefix start text else none

theorem stripPrefix_eq_some {start text rest : List Char} :
    stripPrefix start text = some rest ↔ text = start ++ rest := by
  induction start generalizing text with
  | nil => simp [stripPrefix]
  | cons p start ih =>
    cases text with
    | nil => simp [stripPrefix]
    | cons c text =>
      by_cases h : p = c
      · simp [stripPrefix, h, ih]
      · have h' : c ≠ p := fun hc => h hc.symm
        simp [stripPrefix, h, h']

/-- `str::split_once` at a character. -/
def splitOnce (sep : Char) : List Char → Option (List Char × List Char)
  | [] => none
  | c :: text =>
    if c = sep then some ([], text)
    else (splitOnce sep text).map fun (before, after) => (c :: before, after)

theorem splitOnce_eq_some {sep : Char} {text before after : List Char} :
    splitOnce sep text = some (before, after) ↔ sep ∉ before ∧ text = before ++ sep :: after := by
  induction text generalizing before with
  | nil => simp [splitOnce]
  | cons c text ih =>
    by_cases h : c = sep
    · cases before with
      | nil => simp [splitOnce, h, eq_comm]
      | cons b before =>
        simp only [splitOnce, h, if_true, Option.some.injEq, Prod.mk.injEq, List.nil_eq,
          reduceCtorEq, false_and, List.cons_append, List.cons.injEq, List.mem_cons, not_or,
          false_iff]
        rintro ⟨⟨hb, -⟩, rfl, -⟩
        exact hb rfl
    · have h' : sep ≠ c := fun hc => h hc.symm
      cases before with
      | nil => simp [splitOnce, h]
      | cons b before =>
        simp only [splitOnce, h, if_false, Option.map_eq_some_iff, Prod.exists, Prod.mk.injEq,
          List.cons_append, List.cons.injEq, List.mem_cons, not_or]
        constructor
        · rintro ⟨x, y, hxy, ⟨rfl, rfl⟩, rfl⟩
          obtain ⟨hx, ht⟩ := ih.mp hxy
          exact ⟨⟨h', hx⟩, rfl, ht⟩
        · rintro ⟨⟨-, hx⟩, rfl, ht⟩
          exact ⟨before, after, ih.mpr ⟨hx, ht⟩, ⟨rfl, rfl⟩, rfl⟩

theorem splitOnce_eq_none {sep : Char} {text : List Char} :
    splitOnce sep text = none ↔ sep ∉ text := by
  constructor
  · intro h hmem
    obtain ⟨before, after, rfl, hnot⟩ := List.eq_append_cons_of_mem hmem
    rw [splitOnce_eq_some.mpr ⟨hnot, rfl⟩] at h
    cases h
  · intro hnot
    cases h : splitOnce sep text with
    | none => rfl
    | some parts =>
      obtain ⟨-, rfl⟩ := splitOnce_eq_some.mp h
      exact absurd (List.mem_append_right _ (List.mem_cons_self ..)) hnot

/-! ## UTF-8 -/

/-- `str::as_bytes`. -/
def utf8 (text : List Char) : List UInt8 := text.flatMap String.utf8EncodeChar

/-- `String::from_utf8`. -/
def fromUtf8 (bytes : List UInt8) : Option (List Char) :=
  (ByteArray.mk bytes.toArray).utf8Decode?.map Array.toList

theorem utf8Encode_eq (text : List Char) : text.utf8Encode = ByteArray.mk (utf8 text).toArray := by
  apply ByteArray.ext
  rw [List.utf8Encode, List.data_toByteArray, utf8]

theorem fromUtf8_eq_some {bytes : List UInt8} {text : List Char} :
    fromUtf8 bytes = some text ↔ bytes = utf8 text := by
  unfold fromUtf8
  constructor
  · intro h
    obtain ⟨chars, hchars, rfl⟩ := Option.map_eq_some_iff.mp h
    have hget := ByteArray.utf8Encode_get_utf8Decode? (b := ByteArray.mk bytes.toArray)
      (h := by rw [hchars]; rfl)
    simp only [hchars, Option.get_some] at hget
    rw [utf8Encode_eq, ByteArray.mk.injEq] at hget
    simpa using hget.symm
  · rintro rfl
    rw [← utf8Encode_eq, List.utf8Decode?_utf8Encode]
    rfl

theorem utf8_injective : Function.Injective utf8 := by
  intro a b h
  have ha : fromUtf8 (utf8 a) = some a := fromUtf8_eq_some.mpr rfl
  have hb : fromUtf8 (utf8 a) = some b := fromUtf8_eq_some.mpr h
  exact Option.some.inj (ha.symm.trans hb)

/-! ## Hexadecimal -/

def hexDigits : List (Char × ℕ) :=
  [('0', 0), ('1', 1), ('2', 2), ('3', 3), ('4', 4), ('5', 5), ('6', 6), ('7', 7), ('8', 8),
    ('9', 9), ('a', 10), ('b', 11), ('c', 12), ('d', 13), ('e', 14), ('f', 15), ('A', 10),
    ('B', 11), ('C', 12), ('D', 13), ('E', 14), ('F', 15)]

/-- `hex::decode`. -/
def hexDecode : List Char → Option (List UInt8)
  | [] => some []
  | [_] => none
  | a :: b :: rest =>
    match hexDigits.lookup a, hexDigits.lookup b, hexDecode rest with
    | some hi, some lo, some bytes => some (UInt8.ofNat (16 * hi + lo) :: bytes)
    | _, _, _ => none

def hexDigit (n : ℕ) : Char := "0123456789abcdef".toList.getD n '0'

/-- `hex::encode`. -/
def hexEncode (bytes : List UInt8) : List Char :=
  bytes.flatMap fun b => [hexDigit (b.toNat / 16), hexDigit (b.toNat % 16)]

theorem lookup_hexDigit {n : ℕ} (h : n < 16) : hexDigits.lookup (hexDigit n) = some n := by
  have hall : ∀ m : Fin 16, hexDigits.lookup (hexDigit m) = some m.val := by decide
  exact hall ⟨n, h⟩

theorem hexDecode_hexEncode (bytes : List UInt8) : hexDecode (hexEncode bytes) = some bytes := by
  induction bytes with
  | nil => rfl
  | cons b bytes ih =>
    have hb := b.toNat_lt
    have hhi := lookup_hexDigit (show b.toNat / 16 < 16 by omega)
    have hlo := lookup_hexDigit (show b.toNat % 16 < 16 by omega)
    have hbyte : UInt8.ofNat (16 * (b.toNat / 16) + b.toNat % 16) = b := by
      rw [Nat.div_add_mod, UInt8.ofNat_toNat]
    simp only [hexEncode, List.flatMap_cons, List.cons_append, List.nil_append, hexDecode, hhi, hlo]
    rw [← hexEncode, ih]
    exact congrArg (fun b => some (b :: bytes)) hbyte

/-! ## Header values -/

/-- A byte that is a visible ASCII character, a space or a tab. -/
def visible (b : UInt8) : Bool := decide (32 ≤ b ∧ b < 127 ∨ b = 9)

/-- `HeaderValue::to_str`. -/
def toStr (value : List UInt8) : Option (List Char) :=
  if value.all visible then some (value.map fun b => Char.ofNat b.toNat) else none

/-- The bytes of a text that is ASCII. -/
def ascii (text : List Char) : List UInt8 := text.map fun c => UInt8.ofNat c.toNat

/-- A character that a header value can show. -/
def Shown (c : Char) : Prop := 32 ≤ c.toNat ∧ c.toNat < 127 ∨ c.toNat = 9

instance (c : Char) : Decidable (Shown c) := inferInstanceAs (Decidable (_ ∨ _))

theorem toNat_charOf (b : UInt8) : (Char.ofNat b.toNat).toNat = b.toNat := by
  have hb := b.toNat_lt
  rw [Char.toNat_ofNat, if_pos (Or.inl (by omega))]

theorem visible_iff {b : UInt8} : visible b = true ↔ Shown (Char.ofNat b.toNat) := by
  unfold visible Shown
  rw [decide_eq_true_eq, toNat_charOf, UInt8.le_iff_toNat_le, UInt8.lt_iff_toNat_lt,
    ← UInt8.toNat_inj]
  rfl

theorem toStr_eq_some {value : List UInt8} {text : List Char} :
    toStr value = some text ↔ (∀ c ∈ text, Shown c) ∧ value = ascii text := by
  unfold toStr ascii
  constructor
  · intro h
    split at h
    · rename_i hall
      rw [← Option.some.inj h]
      refine ⟨List.forall_mem_map.mpr fun b hb => ?_, ?_⟩
      · exact visible_iff.mp (List.all_eq_true.mp hall b hb)
      · have hbyte : ∀ b : UInt8, UInt8.ofNat (Char.ofNat b.toNat).toNat = b := fun b => by
          rw [toNat_charOf, UInt8.ofNat_toNat]
        simp [Function.comp_def, hbyte]
    · cases h
  · rintro ⟨hshown, rfl⟩
    have hchar : ∀ c ∈ text, Char.ofNat (UInt8.ofNat c.toNat).toNat = c := fun c hc => by
      have hlt : c.toNat < 256 := by
        have hs := hshown c hc
        unfold Shown at hs
        omega
      rw [UInt8.toNat_ofNat_of_lt' hlt, Char.ofNat_toNat]
    have hback : (text.map fun c => UInt8.ofNat c.toNat).map (fun b => Char.ofNat b.toNat) =
        text := by
      rw [List.map_map]
      exact (List.map_congr_left (g := id) hchar).trans (List.map_id text)
    have hall : (text.map fun c => UInt8.ofNat c.toNat).all visible = true := by
      rw [List.all_map, List.all_eq_true]
      intro c hc
      rw [Function.comp_apply, visible_iff, hchar c hc]
      exact hshown c hc
    rw [if_pos hall, hback]

end Zallet.Common.Text
