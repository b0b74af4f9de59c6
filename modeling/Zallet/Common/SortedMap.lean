import Mathlib

/-!
# Sorted maps

A map as the list of its entries, sorted by key: what an iteration over a
balanced search tree shows. The structure carries the order, so that a key
occurs once.

* `get`, `insert`: `get_mem`, `mem_insert`.
* `enumerate`: the elements of a list by their index (`get_enumerate`).
* `firstFrom`: the entry with the least key at or above a given one, if there
  is any (`firstFrom_mem`, `firstFrom_isSome`).
-/

namespace Zallet.Common

/-- The entries of a map in the order of their keys. -/
structure SortedMap (K V : Type) [LT K] where
  entries : List (K × V)
  sorted : entries.Pairwise fun a b => a.1 < b.1

namespace SortedMap

variable {K V : Type} [LinearOrder K]

/-- The map with one entry. -/
def singleton (key : K) (value : V) : SortedMap K V := ⟨[(key, value)], List.pairwise_singleton _ _⟩

instance : Membership (K × V) (SortedMap K V) := ⟨fun m e => e ∈ m.entries⟩

theorem mem_def {m : SortedMap K V} {e : K × V} : e ∈ m ↔ e ∈ m.entries := Iff.rfl

/-- `insert` on the list of entries. -/
def insertEntry (key : K) (value : V) : List (K × V) → List (K × V)
  | [] => [(key, value)]
  | e :: rest =>
    if key < e.1 then (key, value) :: e :: rest
    else if key = e.1 then (key, value) :: rest
    else e :: insertEntry key value rest

theorem mem_insertEntry {key : K} {value : V} {entries : List (K × V)}
    (hs : entries.Pairwise fun a b => a.1 < b.1) (e : K × V) :
    e ∈ insertEntry key value entries ↔ e = (key, value) ∨ (e.1 ≠ key ∧ e ∈ entries) := by
  induction entries with
  | nil => simp [insertEntry]
  | cons a rest ih =>
    obtain ⟨ha, hrest⟩ := List.pairwise_cons.mp hs
    rw [insertEntry]
    split
    · rename_i hlt
      have hne : ∀ b ∈ a :: rest, b.1 ≠ key := by
        intro b hb
        rcases List.mem_cons.mp hb with rfl | hb
        · exact hlt.ne'
        · exact (hlt.trans (ha b hb)).ne'
      rw [List.mem_cons]
      constructor
      · rintro (h | h)
        · exact Or.inl h
        · exact Or.inr ⟨hne e h, h⟩
      · rintro (h | ⟨-, h⟩)
        · exact Or.inl h
        · exact Or.inr h
    · split
      · rename_i heq
        have hne : ∀ b ∈ rest, b.1 ≠ key := fun b hb => by
          rw [heq]
          exact (ha b hb).ne'
        rw [List.mem_cons, List.mem_cons]
        constructor
        · rintro (h | h)
          · exact Or.inl h
          · exact Or.inr ⟨hne e h, Or.inr h⟩
        · rintro (h | ⟨hk, rfl | h⟩)
          · exact Or.inl h
          · exact absurd heq.symm hk
          · exact Or.inr h
      · rename_i hlt heq
        have hne : a.1 ≠ key := fun h => heq h.symm
        rw [List.mem_cons, ih hrest, List.mem_cons]
        constructor
        · rintro (rfl | h | ⟨hk, h⟩)
          · exact Or.inr ⟨hne, Or.inl rfl⟩
          · exact Or.inl h
          · exact Or.inr ⟨hk, Or.inr h⟩
        · rintro (h | ⟨hk, rfl | h⟩)
          · exact Or.inr (Or.inl h)
          · exact Or.inl rfl
          · exact Or.inr (Or.inr ⟨hk, h⟩)

theorem sorted_insertEntry {key : K} {value : V} {entries : List (K × V)}
    (hs : entries.Pairwise fun a b => a.1 < b.1) :
    (insertEntry key value entries).Pairwise fun a b => a.1 < b.1 := by
  induction entries with
  | nil => exact List.pairwise_singleton _ _
  | cons a rest ih =>
    obtain ⟨ha, hrest⟩ := List.pairwise_cons.mp hs
    rw [insertEntry]
    split
    · rename_i hlt
      refine List.pairwise_cons.mpr ⟨fun b hb => ?_, hs⟩
      rcases List.mem_cons.mp hb with rfl | hb
      · exact hlt
      · exact hlt.trans (ha b hb)
    · split
      · rename_i heq
        refine List.pairwise_cons.mpr ⟨fun b hb => ?_, hrest⟩
        show key < b.1
        rw [heq]
        exact ha b hb
      · rename_i hlt heq
        refine List.pairwise_cons.mpr ⟨fun b hb => ?_, ih hrest⟩
        rcases (mem_insertEntry hrest b).mp hb with rfl | ⟨-, hb⟩
        · exact lt_of_le_of_ne (not_lt.mp hlt) (Ne.symm heq)
        · exact ha b hb

/-- The map with the entry for `key` replaced or added. -/
def insert (m : SortedMap K V) (key : K) (value : V) : SortedMap K V :=
  ⟨insertEntry key value m.entries, sorted_insertEntry m.sorted⟩

/-- The value of `key`. -/
def get (m : SortedMap K V) (key : K) : Option V :=
  (m.entries.find? fun e => decide (e.1 = key)).map Prod.snd

/-- The first entry at or above `key`. -/
def firstFrom (m : SortedMap K V) (key : K) : Option (K × V) :=
  m.entries.find? fun e => decide (key ≤ e.1)

theorem mem_singleton {key : K} {value : V} {e : K × V} :
    e ∈ singleton key value ↔ e = (key, value) := List.mem_singleton

theorem mem_insert {m : SortedMap K V} {key : K} {value : V} {e : K × V} :
    e ∈ m.insert key value ↔ e = (key, value) ∨ (e.1 ≠ key ∧ e ∈ m) :=
  mem_insertEntry m.sorted e

theorem get_mem {m : SortedMap K V} {key : K} {value : V} (h : m.get key = some value) :
    (key, value) ∈ m := by
  obtain ⟨e, he, rfl⟩ := Option.map_eq_some_iff.mp h
  have hk : e.1 = key := by simpa using List.find?_some he
  rw [← hk]
  exact List.mem_of_find?_eq_some he

theorem firstFrom_mem {m : SortedMap K V} {key : K} {e : K × V} (h : m.firstFrom key = some e) :
    e ∈ m ∧ key ≤ e.1 := by
  refine ⟨List.mem_of_find?_eq_some h, ?_⟩
  simpa using List.find?_some h

theorem firstFrom_isSome {m : SortedMap K V} {key : K} {e : K × V} (he : e ∈ m) (hle : key ≤ e.1) :
    (m.firstFrom key).isSome := by
  unfold firstFrom
  rw [List.find?_isSome]
  exact ⟨e, he, by simpa using hle⟩

theorem sorted_zipIdx (l : List V) :
    (l.zipIdx.map Prod.swap).Pairwise fun a b => a.1 < b.1 := by
  rw [List.pairwise_iff_getElem]
  intro i j hi hj hij
  simpa using hij

/-- The values in the order of their keys. -/
def values (m : SortedMap K V) : List V := m.entries.map Prod.snd

/-- The elements of `l` by their index. -/
def enumerate (l : List V) : SortedMap ℕ V := ⟨l.zipIdx.map Prod.swap, sorted_zipIdx l⟩

theorem values_enumerate (l : List V) : (enumerate l).values = l := by
  rw [values, enumerate, List.map_map]
  exact List.zipIdx_map_fst 0 l

theorem get_enumerate (l : List V) (i : ℕ) : (enumerate l).get i = l[i]? := by
  have hfind (l : List V) (n i : ℕ) :
      (((l.zipIdx n).map Prod.swap).find? fun e => decide (e.1 = n + i)).map Prod.snd = l[i]? := by
    induction l generalizing n i with
    | nil => simp
    | cons a l ih =>
      cases i with
      | zero => simp [List.zipIdx_cons]
      | succ i =>
        have h := ih (n + 1) i
        rw [show n + 1 + i = n + (i + 1) by omega] at h
        simpa [List.zipIdx_cons] using h
  have h := hfind l 0 i
  rwa [Nat.zero_add] at h

end SortedMap

end Zallet.Common
