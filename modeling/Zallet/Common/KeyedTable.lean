import Mathlib.Data.List.Basic

/-!
# Tables with a key

A table is the list of its rows in insertion order. `upsert` is
`INSERT ... ON CONFLICT (key) DO UPDATE`: `update` says what becomes of the row that
is already there, so that `DO NOTHING` and the replacement of a row are two of its
cases.

`Backed` relates a table to the items that were inserted into it: every row holds
one of them, and every item has a row with its key. Insertions keep it
(`Backed.upsert`, `Backed.foldl_upsert`), and under it a lookup finds an item with the
key asked for (`Backed.lookup`).
-/

namespace Zallet.Common.KeyedTable

variable {α κ ι : Type} [DecidableEq κ] {key : α → κ}

/-- The first row with the key `k`. -/
def lookup (key : α → κ) (k : κ) (rows : List α) : Option α :=
  rows.find? fun row => decide (key row = k)

/-- Insert `row`, or update the rows that have its key. -/
def upsert (key : α → κ) (update : α → α → α) (rows : List α) (row : α) : List α :=
  if key row ∈ rows.map key then
    rows.map fun old => if key old = key row then update old row else old
  else rows ++ [row]

theorem lookup_eq_some {k : κ} {rows : List α} {row : α} (h : lookup key k rows = some row) :
    row ∈ rows ∧ key row = k :=
  ⟨List.mem_of_find?_eq_some h, by simpa using List.find?_some h⟩

theorem exists_lookup {k : κ} {rows : List α} (h : k ∈ rows.map key) :
    ∃ row, lookup key k rows = some row := by
  obtain ⟨row, hrow, rfl⟩ := List.mem_map.mp h
  cases hfound : lookup key (key row) rows with
  | some found => exact ⟨found, rfl⟩
  | none =>
    have hnone := List.find?_eq_none.mp hfound row hrow
    simp at hnone

variable {update : α → α → α}

/-- The rows after an insertion. -/
theorem mem_upsert {rows : List α} {row r : α} (h : r ∈ upsert key update rows row) :
    r ∈ rows ∨ r = row ∨ ∃ old ∈ rows, key old = key row ∧ r = update old row := by
  unfold upsert at h
  by_cases hrow : key row ∈ rows.map key
  · rw [if_pos hrow, List.mem_map] at h
    obtain ⟨old, hold, rfl⟩ := h
    by_cases hkey : key old = key row
    · rw [if_pos hkey]
      exact Or.inr (Or.inr ⟨old, hold, hkey, rfl⟩)
    · rw [if_neg hkey]
      exact Or.inl hold
  · rw [if_neg hrow, List.mem_append, List.mem_singleton] at h
    exact h.imp_right Or.inl

/-- Updating a row does not change its key. -/
def KeepsKey (key : α → κ) (update : α → α → α) : Prop :=
  ∀ old row, key old = key row → key (update old row) = key row

theorem mem_keys_upsert (hkey : KeepsKey key update) {rows : List α} {row : α} {k : κ} :
    k ∈ (upsert key update rows row).map key ↔ k ∈ rows.map key ∨ k = key row := by
  unfold upsert
  by_cases h : key row ∈ rows.map key
  · have hsame : (rows.map fun old => if key old = key row then update old row else old).map key =
        rows.map key := by
      rw [List.map_map]
      refine List.map_congr_left fun old _ => ?_
      by_cases hold : key old = key row
      · simp [hold, hkey old row hold]
      · simp [hold]
    rw [if_pos h, hsame]
    constructor
    · exact Or.inl
    · rintro (hk | rfl)
      · exact hk
      · exact h
  · rw [if_neg h, List.map_append, List.mem_append, List.map_singleton, List.mem_singleton]

theorem lookup_isSome_iff {k : κ} {rows : List α} :
    (lookup key k rows).isSome ↔ k ∈ rows.map key := by
  simp [lookup, List.find?_isSome]

/-- A lookup after an insertion. -/
theorem lookup_upsert (hkey : KeepsKey key update) {rows : List α} {row : α} {k : κ} :
    lookup key k (upsert key update rows row) =
      if k = key row then some ((lookup key k rows).elim row fun old => update old row)
      else lookup key k rows := by
  unfold upsert
  by_cases hmem : key row ∈ rows.map key
  · have hsame (old : α) : key (if key old = key row then update old row else old) = key old := by
      split_ifs with hold
      · rw [hkey old row hold, hold]
      · rfl
    rw [if_pos hmem, lookup, List.find?_map]
    simp only [Function.comp_def, hsame]
    change (lookup key k rows).map _ = _
    cases hlookup : lookup key k rows with
    | none =>
      have hk : k ≠ key row := fun hk => by
        obtain ⟨old, hold⟩ := exists_lookup (hk ▸ hmem)
        simp [hlookup] at hold
      simp [hk]
    | some old =>
      rw [Option.map_some, (lookup_eq_some hlookup).2]
      split_ifs <;> rfl
  · rw [if_neg hmem, lookup, List.find?_append]
    change (lookup key k rows).or _ = _
    by_cases hk : k = key row
    · have hnone : lookup key k rows = none := by
        rw [← Option.not_isSome_iff_eq_none, lookup_isSome_iff, hk]
        exact hmem
      simp [hnone, ← hk]
    · simp [hk, Ne.symm hk]

/-- Inserting a row whose key is there changes nothing if updates do not. -/
theorem upsert_of_mem {rows : List α} {row : α} (hmem : key row ∈ rows.map key)
    (hupdate : ∀ old, update old row = old) : upsert key update rows row = rows := by
  rw [upsert, if_pos hmem]
  simp [hupdate]

/-- What holds of the rows under a key that is there already holds of them after an
    insertion, if updates keep it. -/
theorem forall_upsert (hkey : KeepsKey key update) {p : α → Prop} {rows : List α} {row : α} {k : κ}
    (hmem : k ∈ rows.map key) (hp : ∀ old, p old → p (update old row))
    (h : ∀ r ∈ rows, key r = k → p r) : ∀ r ∈ upsert key update rows row, key r = k → p r := by
  intro r hr hk
  unfold upsert at hr
  by_cases hrow : key row ∈ rows.map key
  · rw [if_pos hrow, List.mem_map] at hr
    obtain ⟨old, hold, rfl⟩ := hr
    by_cases hsame : key old = key row
    · rw [if_pos hsame] at hk ⊢
      rw [hkey old row hsame] at hk
      exact hp old (h old hold (hsame.trans hk))
    · rw [if_neg hsame] at hk ⊢
      exact h old hold hk
  · rw [if_neg hrow, List.mem_append, List.mem_singleton] at hr
    obtain hr | rfl := hr
    · exact h r hr hk
    · rw [hk] at hrow
      exact absurd hmem hrow

/-- Every row holds one of the items, and every item has a row with its key. -/
structure Backed (key : α → κ) (holds : ι → α → Prop) (itemKey : ι → κ) (items : List ι)
    (rows : List α) : Prop where
  held : ∀ row ∈ rows, ∃ item ∈ items, holds item row
  kept : ∀ item ∈ items, itemKey item ∈ rows.map key

variable {holds : ι → α → Prop} {itemKey : ι → κ} {items : List ι} {rows : List α}

omit [DecidableEq κ] in
theorem Backed.nil : Backed key holds itemKey [] [] :=
  ⟨fun _ h => absurd h List.not_mem_nil, fun _ h => absurd h List.not_mem_nil⟩

/-- An update leaves a row that holds the old item or the new one. -/
def Preserves (key : α → κ) (holds : ι → α → Prop) (update : α → α → α) : Prop :=
  ∀ old row, key old = key row → ∀ item item', holds item old → holds item' row →
    holds item (update old row) ∨ holds item' (update old row)

omit [DecidableEq κ] in
/-- `ON CONFLICT DO NOTHING` keeps keys and contents. -/
theorem keepsKey_ignore (key : α → κ) : KeepsKey key fun old _ => old :=
  fun _ _ h => h

omit [DecidableEq κ] in
theorem preserves_ignore (key : α → κ) (holds : ι → α → Prop) :
    Preserves key holds fun old _ => old :=
  fun _ _ _ _ _ hold _ => Or.inl hold

theorem Backed.upsert (hkey : KeepsKey key update) (hholds : Preserves key holds update)
    {item : ι} {row : α} (hrow : holds item row) (hitem : itemKey item = key row)
    (h : Backed key holds itemKey items rows) :
    Backed key holds itemKey (items ++ [item]) (upsert key update rows row) where
  held r hr := by
    simp only [List.mem_append, List.mem_singleton]
    obtain hr | rfl | ⟨old, hold, hsame, rfl⟩ := mem_upsert hr
    · obtain ⟨it, hit, hh⟩ := h.held r hr
      exact ⟨it, Or.inl hit, hh⟩
    · exact ⟨item, Or.inr rfl, hrow⟩
    · obtain ⟨it, hit, hh⟩ := h.held old hold
      obtain hnew | hnew := hholds old row hsame it item hh hrow
      · exact ⟨it, Or.inl hit, hnew⟩
      · exact ⟨item, Or.inr rfl, hnew⟩
  kept it hit := by
    rw [mem_keys_upsert hkey]
    simp only [List.mem_append, List.mem_singleton] at hit
    obtain hit | rfl := hit
    · exact Or.inl (h.kept it hit)
    · exact Or.inr hitem

/-- A batch of insertions. -/
theorem Backed.foldl_upsert (hkey : KeepsKey key update) (hholds : Preserves key holds update)
    {news : List ι} {newRows : List α}
    (hnews : List.Forall₂ (fun item row => holds item row ∧ itemKey item = key row) news newRows)
    (h : Backed key holds itemKey items rows) :
    Backed key holds itemKey (items ++ news)
      (newRows.foldl (KeyedTable.upsert key update) rows) := by
  induction hnews generalizing items rows with
  | nil => simpa using h
  | cons hrow _ ih =>
    have hstep := ih (h.upsert hkey hholds hrow.1 hrow.2)
    rwa [List.append_assoc, List.singleton_append] at hstep

/-- Looking up the key of an item finds a row of an item. -/
theorem Backed.lookup (h : Backed key holds itemKey items rows) {item : ι} (hitem : item ∈ items) :
    ∃ row, KeyedTable.lookup key (itemKey item) rows = some row ∧ key row = itemKey item ∧
      ∃ item' ∈ items, holds item' row := by
  obtain ⟨row, hrow⟩ := exists_lookup (h.kept item hitem)
  obtain ⟨hmem, hkey⟩ := lookup_eq_some hrow
  exact ⟨row, hrow, hkey, h.held row hmem⟩

end Zallet.Common.KeyedTable
