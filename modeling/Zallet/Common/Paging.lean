import Mathlib

/-!
# Reading a table in pages

The rows of a table are ordered by a key that may have ties. Every page is read by a query
of its own, which orders the rows with equal keys as it likes and may fail.

* `Reads.getElem?_eq`: what stands at a position was read by the query of its page.
* `reads_perm`: where no page ends between rows of equal keys, the pages have every row.
* `reads_perm_iff`: only then do they for all orders of the queries.
-/

namespace Zallet.Common.Paging

section

variable {α κ : Type} [LinearOrder κ]

/-- The rows in an order of the key. -/
structure Ordered (key : α → κ) (rows l : List α) : Prop where
  perm : l.Perm rows
  sorted : l.Pairwise fun a b => key a ≤ key b

/-- `LIMIT n OFFSET offset`. -/
def page (n offset : ℕ) (l : List α) : List α := (l.drop offset).take n

/-- The queries of the pages, where each has the rows in an order of its own and none fails. -/
abbrev pages (ε : Type) (n : ℕ) (order : ℕ → List α) (offset : ℕ) : Except ε (List α) :=
  .ok (page n offset (order offset))

/-- Reading the pages from `offset` on, up to the first one that is empty, yields a list. No
    query fails. -/
inductive Reads {ε : Type} (query : ℕ → Except ε (List α)) (n : ℕ) : ℕ → List α → Prop
  | done {offset : ℕ} : query offset = .ok [] → Reads query n offset []
  | more {offset : ℕ} {rows rest : List α} : query offset = .ok rows → rows ≠ [] →
      Reads query n (offset + n) rest → Reads query n offset (rows ++ rest)

/-- The keys of exactly `b` rows are below a key, so that no tie is cut after `b` rows. -/
def CleanCut (key : α → κ) (rows : List α) (b : ℕ) : Prop :=
  ∃ c, rows.countP (fun a => decide (key a < c)) = b

theorem Reads.unique {ε : Type} {query : ℕ → Except ε (List α)} {n offset : ℕ} {l l' : List α}
    (h : Reads query n offset l) (h' : Reads query n offset l') : l = l' := by
  induction h generalizing l' with
  | done hnil =>
    cases h' with
    | done => rfl
    | more hrows hne => exact absurd (Except.ok.inj (hrows.symm.trans hnil)) hne
  | more hrows hne _ ih =>
    cases h' with
    | done hnil => exact absurd (Except.ok.inj (hrows.symm.trans hnil)) hne
    | more hrows' _ hrest => rw [ih hrest, Except.ok.inj (hrows.symm.trans hrows')]

/-- The rows of the pages may be mapped one by one. -/
theorem Reads.map {ε β : Type} {query : ℕ → Except ε (List α)} {n offset : ℕ} {l : List α}
    (f : α → β) (h : Reads query n offset l) :
    Reads (fun o => (query o).map (List.map f)) n offset (l.map f) := by
  induction h with
  | done hnil => exact .done (by rw [hnil, Except.map, List.map_nil])
  | more hrows hne _ ih =>
    rw [List.map_append]
    exact .more (by rw [hrows, Except.map]) (by simpa using hne) ih

/-! ## Orders -/

variable {key : α → κ} {rows l l' : List α}

theorem Ordered.length_eq (h : Ordered key rows l) : l.length = rows.length := h.perm.length_eq

theorem Ordered.trans_perm (h : Ordered key rows l) (h' : Ordered key rows l') : l.Perm l' :=
  h.perm.trans h'.perm.symm

/-- All orders have the same keys. -/
theorem Ordered.map_key_eq (h : Ordered key rows l) (h' : Ordered key rows l') :
    l.map key = l'.map key := by
  refine ((h.trans_perm h').map key).eq_of_pairwise (fun a b _ _ => le_antisymm) ?_ ?_
  · exact List.pairwise_map.mpr h.sorted
  · exact List.pairwise_map.mpr h'.sorted

/-- Rows with the same keys as an order are in order. -/
theorem Ordered.of_map_key (h : Ordered key rows l) (hperm : l'.Perm l)
    (hkey : l'.map key = l.map key) : Ordered key rows l' where
  perm := hperm.trans h.perm
  sorted := by
    have hsorted := List.pairwise_map.mpr h.sorted
    rw [← hkey] at hsorted
    exact List.pairwise_map.mp hsorted

theorem exists_ordered (key : α → κ) (rows : List α) : ∃ l, Ordered key rows l := by
  refine ⟨rows.mergeSort fun a b => decide (key a ≤ key b), List.mergeSort_perm _ _, ?_⟩
  have htrans : ∀ a b c : α, decide (key a ≤ key b) = true → decide (key b ≤ key c) = true →
      decide (key a ≤ key c) = true := by
    simpa using fun a b c => le_trans
  have htotal : ∀ a b : α, (decide (key a ≤ key b) || decide (key b ≤ key a)) = true := by
    simpa using fun a b => le_total (key a) (key b)
  have hsorted := List.pairwise_mergeSort htrans htotal rows
  simpa using hsorted

theorem Ordered.key_le (h : Ordered key rows l) {i j : ℕ} (hij : i ≤ j) (hj : j < l.length) :
    key l[i] ≤ key l[j] := by
  rcases hij.eq_or_lt with rfl | hlt
  · exact le_rfl
  · exact List.pairwise_iff_getElem.mp h.sorted i j (hlt.trans hj) hj hlt

/-- In an order the rows below a key come first. -/
theorem Ordered.filter_eq_take (h : Ordered key rows l) (c : κ) :
    l.filter (fun a => decide (key a < c)) =
      l.take (rows.countP fun a => decide (key a < c)) := by
  rw [← h.perm.countP_eq]
  have hsorted := h.sorted
  clear h
  induction l with
  | nil => rfl
  | cons a l ih =>
    obtain ⟨hle, hsorted⟩ := List.pairwise_cons.mp hsorted
    by_cases ha : key a < c
    · rw [List.filter_cons_of_pos (by simpa using ha), List.countP_cons_of_pos (by simpa using ha),
        List.take_succ_cons, ih hsorted]
    · have hnone : ∀ b ∈ a :: l, ¬ key b < c := by
        intro b hb
        rcases List.mem_cons.mp hb with rfl | hb
        · exact ha
        · exact fun hlt => ha ((hle b hb).trans_lt hlt)
      rw [List.filter_eq_nil_iff.mpr (by simpa using hnone),
        List.countP_eq_zero.mpr (by simpa using hnone), List.take_zero]

/-- A cut that is clean, or at an end of the table. -/
def CleanEnd (key : α → κ) (rows : List α) (b : ℕ) : Prop :=
  b = 0 ∨ rows.length ≤ b ∨ CleanCut key rows b

/-- Up to such a cut all orders have the same rows. -/
theorem Ordered.take_perm (h : Ordered key rows l) (h' : Ordered key rows l') {b : ℕ}
    (hb : CleanEnd key rows b) : (l.take b).Perm (l'.take b) := by
  rcases hb with rfl | hlength | ⟨c, rfl⟩
  · simp
  · rw [List.take_of_length_le (h.length_eq.trans_le hlength),
      List.take_of_length_le (h'.length_eq.trans_le hlength)]
    exact h.trans_perm h'
  · rw [← h.filter_eq_take c, ← h'.filter_eq_take c]
    exact (h.trans_perm h').filter _

theorem take_append_page (n offset : ℕ) (l : List α) :
    l.take offset ++ page n offset l = l.take (offset + n) := by
  rw [page, List.take_add]

/-- A page between two such cuts has the same rows in all orders. -/
theorem Ordered.page_perm (h : Ordered key rows l) (h' : Ordered key rows l') {n offset : ℕ}
    (hstart : CleanEnd key rows offset) (hend : CleanEnd key rows (offset + n)) :
    (page n offset l).Perm (page n offset l') := by
  have htake := h.take_perm h' hend
  rw [← take_append_page, ← take_append_page] at htake
  have hbefore := h.take_perm h' hstart
  exact (List.perm_append_left_iff _).mp (htake.trans (hbefore.symm.append_right _))

/-- Rows that are not cut cleanly have a tie there. -/
theorem Ordered.tie (h : Ordered key rows l) {b : ℕ} (hb : b + 1 < l.length)
    (hcut : ¬ CleanCut key rows (b + 1)) : key l[b] = key l[b + 1] := by
  refine le_antisymm (h.key_le (by omega) hb) (le_of_not_gt fun hlt => hcut ⟨key l[b + 1], ?_⟩)
  rw [← h.perm.countP_eq]
  have hbefore : (l.take (b + 1)).countP (fun a => decide (key a < key l[b + 1])) =
      (l.take (b + 1)).length := by
    refine List.countP_eq_length.mpr fun a ha => ?_
    obtain ⟨i, hi, rfl⟩ := List.mem_take_iff_getElem.mp ha
    exact decide_eq_true ((h.key_le (by omega) (by omega)).trans_lt hlt)
  have hafter : (l.drop (b + 1)).countP (fun a => decide (key a < key l[b + 1])) = 0 := by
    refine List.countP_eq_zero.mpr fun a ha => ?_
    obtain ⟨i, hi, rfl⟩ := List.mem_drop_iff_getElem.mp ha
    simpa using h.key_le (show b + 1 ≤ b + 1 + i by omega) (by omega)
  calc l.countP (fun a => decide (key a < key l[b + 1]))
      = (l.take (b + 1) ++ l.drop (b + 1)).countP (fun a => decide (key a < key l[b + 1])) := by
        rw [List.take_append_drop]
    _ = b + 1 := by
        rw [List.countP_append, hbefore, hafter, List.length_take]
        omega

/-- The order with two rows of equal keys swapped. -/
theorem Ordered.swap (h : Ordered key rows l) {b : ℕ} (hb : b + 1 < l.length)
    (htie : key l[b] = key l[b + 1]) :
    ∃ l', Ordered key rows l' ∧ l'[b + 1]? = some l[b] := by
  have hl : l = l.take b ++ l[b] :: l[b + 1] :: l.drop (b + 2) := by
    rw [← List.drop_eq_getElem_cons, ← List.drop_eq_getElem_cons, List.take_append_drop]
  refine ⟨l.take b ++ l[b + 1] :: l[b] :: l.drop (b + 2), h.of_map_key ?_ ?_, ?_⟩
  · conv_rhs => rw [hl]
    exact (List.Perm.swap _ _ _).append_left _
  · refine Eq.trans ?_ (congrArg (List.map key) hl).symm
    simp only [List.map_append, List.map_cons, htie]
  · have hlength : (l.take b).length = b := by
      rw [List.length_take]
      omega
    rw [List.getElem?_append_right (by omega), hlength]
    simp

/-! ## Reading -/

variable {n : ℕ} {order : ℕ → List α}

theorem page_eq_nil_iff (hn : 0 < n) {offset : ℕ} {l : List α} :
    page n offset l = [] ↔ l.length ≤ offset := by
  simp [page, List.take_eq_nil_iff, hn.ne']

/-- What stands at a position was read with its page. -/
theorem Reads.getElem?_eq {ε : Type} (hn : 0 < n) (hlength : ∀ o, (order o).length = rows.length)
    {offset : ℕ} (h : Reads (pages ε n order) n offset l) (i : ℕ) :
    l[i]? = (order (offset + n * (i / n)))[offset + i]? := by
  induction h generalizing i with
  | done hnil =>
    have hend := (page_eq_nil_iff hn).mp (Except.ok.inj hnil)
    rw [hlength] at hend
    rw [List.getElem?_nil, List.getElem?_eq_none]
    rw [hlength]
    omega
  | @more offset _ rest hrows hne _ ih =>
    obtain rfl := Except.ok.inj hrows
    have hpage : (page n offset (order offset)).length = min n (rows.length - offset) := by
      rw [page, List.length_take, List.length_drop, hlength]
    by_cases hi : i < (page n offset (order offset)).length
    · rw [List.getElem?_append_left hi, page, List.getElem?_take_of_lt (by omega),
        List.getElem?_drop, Nat.div_eq_of_lt (by omega), Nat.mul_zero, Nat.add_zero]
    · rw [List.getElem?_append_right (by omega), ih]
      by_cases hfull : n ≤ rows.length - offset
      · have hni : n ≤ i := by omega
        have hdiv : n * (i / n) = n + n * ((i - n) / n) := by
          rw [Nat.div_eq_sub_div hn hni, Nat.mul_add, Nat.mul_one, Nat.add_comm]
        rw [hpage, min_eq_left hfull, hdiv, ← Nat.add_assoc, Nat.add_assoc offset n (i - n),
          Nat.add_sub_cancel' hni]
      · rw [List.getElem?_eq_none, List.getElem?_eq_none]
        · rw [hlength]
          omega
        · rw [hlength]
          omega

/-- The rows that are read have the keys of an order, and where no page ends between rows of
    equal keys, they are all the rows. -/
theorem reads_perm (ε : Type) (hn : 0 < n) (horder : ∀ o, Ordered key rows (order o))
    (hl : Ordered key rows l) (offset : ℕ) :
    ∃ result, Reads (pages ε n order) n offset result ∧
      result.map key = (l.drop offset).map key ∧
      ((∀ b, n ∣ b → CleanEnd key rows b) → n ∣ offset → result.Perm (l.drop offset)) := by
  induction hrest : rows.length - offset using Nat.strong_induction_on generalizing offset with
  | _ rest ih =>
    by_cases hend : rows.length ≤ offset
    · have hnil : page n offset (order offset) = [] :=
        (page_eq_nil_iff hn).mpr ((horder offset).length_eq.trans_le hend)
      have hdrop : l.drop offset = [] := List.drop_eq_nil_iff.mpr (hl.length_eq.trans_le hend)
      exact ⟨[], .done (congrArg Except.ok hnil), by rw [hdrop], fun _ _ => by rw [hdrop]⟩
    · obtain ⟨result, hreads, hkey, hperm⟩ :=
        ih (rows.length - (offset + n)) (by omega) (offset + n) rfl
      have hne : page n offset (order offset) ≠ [] := by
        rw [ne_eq, page_eq_nil_iff hn, (horder offset).length_eq]
        exact hend
      have hsplit : l.drop offset = page n offset l ++ l.drop (offset + n) := by
        rw [page, ← List.drop_drop, List.take_append_drop]
      refine ⟨_, .more rfl hne hreads, ?_, fun hclean hdvd => ?_⟩
      · rw [hsplit, List.map_append, List.map_append, hkey]
        simp only [page, List.map_take, List.map_drop, (horder offset).map_key_eq hl]
      · rw [hsplit]
        have hnext : n ∣ offset + n := hdvd.add (dvd_refl n)
        exact ((horder offset).page_perm hl (hclean offset hdvd) (hclean _ hnext)).append
          (hperm hclean hnext)

/-- The pages of a table have every row, whatever the orders of the queries, exactly where no
    page ends between rows of equal keys. -/
theorem reads_perm_iff (ε : Type) (hn : 0 < n) (hnodup : rows.Nodup) :
    (∀ order : ℕ → List α, (∀ o, Ordered key rows (order o)) →
      ∃ result, Reads (pages ε n order) n 0 result ∧ result.Perm rows) ↔
    ∀ b, 0 < b → b < rows.length → n ∣ b → CleanCut key rows b := by
  obtain ⟨l, hl⟩ := exists_ordered key rows
  constructor
  · intro h b hpos hlt hdvd
    by_contra hcut
    obtain ⟨b, rfl⟩ : ∃ b', b = b' + 1 := ⟨b - 1, by omega⟩
    have hb : b + 1 < l.length := by rwa [hl.length_eq]
    obtain ⟨l', hl', hswap⟩ := hl.swap hb (hl.tie hb hcut)
    -- Only the query of the page after the tie has the rows swapped.
    have horder : ∀ o, Ordered key rows (if o = b + 1 then l' else l) := by
      intro o
      split
      · exact hl'
      · exact hl
    obtain ⟨result, hreads, hperm⟩ := h _ horder
    have hread := hreads.getElem?_eq hn fun o => (horder o).length_eq
    have hbefore : result[b]? = some l[b] := by
      have hle := Nat.mul_div_le b n
      have hne : n * (b / n) ≠ b + 1 := by omega
      rw [hread, Nat.zero_add, Nat.zero_add, if_neg hne]
      exact List.getElem?_eq_getElem _
    have hafter : result[b + 1]? = some l[b] := by
      rw [hread, Nat.zero_add, Nat.zero_add, Nat.mul_div_cancel' hdvd, if_pos rfl]
      exact hswap
    have hlength : b < result.length := by rw [hperm.length_eq]; omega
    have heq := (List.getElem?_inj hlength (hperm.nodup_iff.mpr hnodup)).mp
      (hbefore.trans hafter.symm)
    omega
  · intro hcut order horder
    obtain ⟨result, hreads, -, hperm⟩ := reads_perm ε hn horder hl 0
    rw [List.drop_zero] at hperm
    refine ⟨result, hreads, (hperm (fun b hdvd => ?_) (dvd_zero n)).trans hl.perm⟩
    rcases Nat.eq_zero_or_pos b with hzero | hpos
    · exact Or.inl hzero
    · rcases Nat.lt_or_ge b rows.length with hlt | hge
      · exact Or.inr (Or.inr (hcut b hpos hlt hdvd))
      · exact Or.inr (Or.inl hge)

end

end Zallet.Common.Paging
