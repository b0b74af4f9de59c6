import Mathlib

/-!
# CompactSize

The variable-length encoding of a size: one byte, or a marker and 2, 4 or 8 bytes in little
endian. A size of more than 64 bits loses its high bits.

* `write_append_inj`: what is written before other bytes can be taken off again, however
  large the size is, since the first byte tells the length.
-/

namespace Zallet.Common.CompactSize

/-- `to_le_bytes` of an integer of `width` bytes. -/
def toLeBytes (width n : ℕ) : List UInt8 :=
  (List.range width).map fun i => UInt8.ofNat (n / 256 ^ i % 256)

@[simp] theorem length_toLeBytes (width n : ℕ) : (toLeBytes width n).length = width := by
  simp [toLeBytes]

/-- `CompactSize::write`. -/
def write (size : ℕ) : List UInt8 :=
  if size < 253 then [UInt8.ofNat size]
  else if size ≤ 0xFFFF then 253 :: toLeBytes 2 size
  else if size ≤ 0xFFFFFFFF then 254 :: toLeBytes 4 size
  else 255 :: toLeBytes 8 size

/-- The number of bytes after a first byte. -/
def following (first : UInt8) : ℕ :=
  if first < 253 then 0 else if first = 253 then 2 else if first = 254 then 4 else 8

theorem write_eq (size : ℕ) :
    ∃ first rest, write size = first :: rest ∧ rest.length = following first := by
  unfold write
  split
  · next h =>
    refine ⟨_, [], rfl, ?_⟩
    have hlt : UInt8.ofNat size < 253 := by
      rw [UInt8.lt_iff_toNat_lt, UInt8.toNat_ofNat']
      have hmod : size % 2 ^ 8 = size := Nat.mod_eq_of_lt (by omega)
      rw [hmod]
      exact h
    rw [following, if_pos hlt, List.length_nil]
  · split
    · exact ⟨_, _, rfl, length_toLeBytes 2 size⟩
    · split
      · exact ⟨_, _, rfl, length_toLeBytes 4 size⟩
      · exact ⟨_, _, rfl, length_toLeBytes 8 size⟩

theorem write_append_inj {size size' : ℕ} {bytes bytes' : List UInt8}
    (h : write size ++ bytes = write size' ++ bytes') :
    write size = write size' ∧ bytes = bytes' := by
  obtain ⟨first, rest, hwrite, hlength⟩ := write_eq size
  obtain ⟨first', rest', hwrite', hlength'⟩ := write_eq size'
  have hsame : (write size).length = (write size').length := by
    rw [hwrite, hwrite'] at h ⊢
    have hfirst : first = first' := (List.cons.inj h).1
    rw [List.length_cons, List.length_cons, hlength, hlength', hfirst]
  exact List.append_inj h hsame

end Zallet.Common.CompactSize
