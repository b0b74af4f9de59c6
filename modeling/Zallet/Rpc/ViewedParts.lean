import Zallet.Rpc.ViewedTransaction

/-!
# The spends and the outputs of a viewed transaction

Each part of a report ends in a panic exactly if a lookup of it goes wrong before an error
ends the call (`ends_viewSpends`, `ends_viewOutputs`). A part that is reported has the items
that the wallet can view, each once and at its index, unless the 16-bit counter of the
transparent ones has wrapped (`viewSpends_right_iff`, `viewOutputs_right_iff`).

The outputs are those of `ViewTransaction.viewOutputs`, numbered with 16 bits
(`viewOutputs_wrapped`).
-/

namespace Zallet.Rpc.ViewedTransaction

open Zallet.Chain Zallet.Wallet Zallet.Common.Loop Zallet.Common.Panics
open Zallet.Rpc.ListUnspent Zallet.Rpc.ViewTransaction

/-! ## Reads of notes -/

theorem allRead_append {r r' : List (Except String (Option ℕ))} :
    AllRead (r ++ r') ↔ AllRead r ∧ AllRead r' := by
  simp only [AllRead, List.forall_mem_append]

theorem notesFit_append {r r' : List (Except String (Option ℕ))} :
    NotesFit (r ++ r') ↔ NotesFit r ∧ (AllRead r → NotesFit r') := by
  induction r with
  | nil => simp [NotesFit, AllRead]
  | cons read r ih =>
    have hcons : AllRead (read :: r) ↔ (∃ value, read = .ok value) ∧ AllRead r := by
      simp only [AllRead, List.forall_mem_cons]
    rw [List.cons_append, hcons]
    match read with
    | .error e => simp [NotesFit]
    | .ok none => simp [NotesFit, ih]
    | .ok (some value) => simp [NotesFit, ih, and_assoc]

/-- What a turn makes of what it reads: an error, nothing, or one element, unless the value
    is too large. -/
def Turn {β : Type} (read : Except String (Option ℕ)) (x : Except CallFailure (List β)) : Prop :=
  match read with
  | .error _ => ∃ e, x = .error (.Error e)
  | .ok none => x = .ok []
  | .ok (some value) =>
    if value ≤ maxMoney then ∃ b, x = .ok [b] else ∃ message, x = .error (.Panic message)

/-- A loop of such turns panics at a value that is too large, before the first read that
    fails. -/
theorem noPanic_collect_turns {α β : Type} {f : α → Except CallFailure (List β)}
    {read : α → Except String (Option ℕ)} {l : List α} (h : ∀ a ∈ l, Turn (read a) (f a)) :
    NoPanic (collect f l) ↔ NotesFit (l.map read) := by
  induction l with
  | nil => exact iff_of_true trivial trivial
  | cons a l ih =>
    rw [List.forall_mem_cons] at h
    obtain ⟨hturn, hrest⟩ := h
    rw [noPanic_collect_cons, ih hrest, List.map_cons]
    revert hturn
    match read a with
    | .error e =>
      rintro ⟨e', ha⟩
      simp [ha, NotesFit, Completes]
    | .ok none =>
      intro ha
      rw [Turn] at ha
      simp [ha, NotesFit, Completes]
    | .ok (some value) =>
      intro ha
      rw [Turn] at ha
      split at ha
      · next hle =>
        obtain ⟨b, hb⟩ := ha
        simp [hb, NotesFit, Completes, hle]
      · next hle =>
        obtain ⟨message, hm⟩ := ha
        simp [hm, NotesFit, Completes, hle]

/-- It succeeds where every read does and no value is too large. -/
theorem collect_turns_isOk {α β : Type} {f : α → Except CallFailure (List β)}
    {read : α → Except String (Option ℕ)} {l : List α} (h : ∀ a ∈ l, Turn (read a) (f a)) :
    (∃ bs, collect f l = .ok bs) ↔ AllRead (l.map read) ∧ NotesFit (l.map read) := by
  induction l with
  | nil => exact iff_of_true ⟨[], rfl⟩ ⟨by simp [AllRead], trivial⟩
  | cons a l ih =>
    rw [List.forall_mem_cons] at h
    obtain ⟨hturn, hrest⟩ := h
    have hcons : (∃ bs, collect f (a :: l) = .ok bs) ↔
        (∃ found, f a = .ok found) ∧ ∃ rest, collect f l = .ok rest := by
      simp only [collect_cons_eq_ok]
      constructor
      · rintro ⟨bs, found, rest, hf, hl, -⟩
        exact ⟨⟨found, hf⟩, rest, hl⟩
      · rintro ⟨⟨found, hf⟩, rest, hl⟩
        exact ⟨_, found, rest, hf, hl, rfl⟩
    rw [hcons, ih hrest, List.map_cons]
    revert hturn
    match read a with
    | .error e =>
      rintro ⟨e', ha⟩
      simp [ha, AllRead]
    | .ok none =>
      intro ha
      rw [Turn] at ha
      simp [ha, NotesFit, AllRead]
    | .ok (some value) =>
      intro ha
      rw [Turn] at ha
      split at ha
      · next hle =>
        obtain ⟨b, hb⟩ := ha
        simp [hb, NotesFit, AllRead, hle]
      · next hle =>
        obtain ⟨message, hm⟩ := ha
        simp [hm, NotesFit, hle]

/-- A part of the call that panics at a value that is too large, before the first read that
    fails, and succeeds otherwise. -/
abbrev Reading {α : Type} (x : Except CallFailure α) (reads : List (Except String (Option ℕ))) :
    Prop :=
  Ends x (NotesFit reads) (AllRead reads)

theorem reading_loop {α β : Type} {f : α → Except CallFailure (List β)}
    {read : α → Except String (Option ℕ)} {l : List α} (h : ∀ a ∈ l, Turn (read a) (f a)) :
    Reading (collect f l) (l.map read) :=
  ⟨noPanic_collect_turns h, (collect_turns_isOk h).trans and_comm⟩

/-- Three pools, one after the other. -/
theorem reading_pools {β : Type} {x y z : Except CallFailure (List β)}
    {reads reads' reads'' : List (Except String (Option ℕ))} (hx : Reading x reads)
    (hy : Reading y reads') (hz : Reading z reads'') :
    Reading (x >>= fun a => y >>= fun b => z >>= fun c => .ok (a ++ b ++ c))
      (reads ++ reads' ++ reads'') := by
  have h := hx.bind fun a _ => hy.bind fun b _ => hz.bind fun c _ => Ends.ok (a ++ b ++ c)
  refine h.congr ?_ ?_
  · simp only [notesFit_append, allRead_append]
    tauto
  · simp only [allRead_append, and_true, and_assoc]

/-! ## The parts of a report -/

/-- The places of the viewable items of one pool, each once. -/
structure InPool (pool : Pool) (viewable : ℕ → Prop) (places : List (Pool × Option ℕ)) : Prop where
  nodup : places.Nodup
  mem_iff : ∀ place, place ∈ places ↔ ∃ i, place = (pool, some i) ∧ viewable i

theorem InPool.disjoint {pool pool' : Pool} {viewable viewable' : ℕ → Prop}
    {places places' : List (Pool × Option ℕ)} (h : InPool pool viewable places)
    (h' : InPool pool' viewable' places') (hne : pool ≠ pool') : places.Disjoint places' := by
  intro place hplace hplace'
  obtain ⟨i, rfl, -⟩ := (h.mem_iff place).mp hplace
  obtain ⟨j, hj, -⟩ := (h'.mem_iff _).mp hplace'
  exact hne (Prod.mk.inj hj).1

theorem reports_append {viewable : Pool → ℕ → Prop}
    {transparent sapling orchard ironwood : List (Pool × Option ℕ)}
    (ht : InPool .transparent (viewable .transparent) transparent)
    (hs : InPool .sapling (viewable .sapling) sapling)
    (ho : InPool .orchard (viewable .orchard) orchard)
    (hi : InPool .ironwood (viewable .ironwood) ironwood) :
    Reports viewable (transparent ++ sapling ++ orchard ++ ironwood) := by
  constructor
  · simp only [List.nodup_append', List.disjoint_append_left]
    exact ⟨⟨⟨ht.nodup, hs.nodup, ht.disjoint hs (by decide)⟩, ho.nodup,
      ht.disjoint ho (by decide), hs.disjoint ho (by decide)⟩, hi.nodup,
      ⟨ht.disjoint hi (by decide), hs.disjoint hi (by decide)⟩, ho.disjoint hi (by decide)⟩
  · intro place
    simp only [List.mem_append, ht.mem_iff, hs.mem_iff, ho.mem_iff, hi.mem_iff]
    constructor
    · rintro (((⟨i, rfl, hi⟩ | ⟨i, rfl, hi⟩) | ⟨i, rfl, hi⟩) | ⟨i, rfl, hi⟩)
      · exact ⟨_, i, rfl, hi⟩
      · exact ⟨_, i, rfl, hi⟩
      · exact ⟨_, i, rfl, hi⟩
      · exact ⟨_, i, rfl, hi⟩
    · rintro ⟨pool, i, rfl, hi⟩
      cases pool with
      | transparent => exact Or.inl (Or.inl (Or.inl ⟨i, rfl, hi⟩))
      | sapling => exact Or.inl (Or.inl (Or.inr ⟨i, rfl, hi⟩))
      | orchard => exact Or.inl (Or.inr ⟨i, rfl, hi⟩)
      | ironwood => exact Or.inr ⟨i, rfl, hi⟩

/-- The places of what a loop over positions collects, where each turn yields the item of its
    position if that is viewable. -/
theorem inPool_collect {ε α β : Type} {f : α × ℕ → Except ε (List β)} {l : List α} {bs : List β}
    {place : β → Pool × Option ℕ} {pool : Pool} {viewable : ℕ → Prop}
    (h : collect f l.zipIdx = .ok bs)
    (hf : ∀ a i found, l[i]? = some a → f (a, i) = .ok found →
      (found = [] ∧ ¬ viewable i) ∨ ∃ b, found = [b] ∧ place b = (pool, some i) ∧ viewable i)
    (hbound : ∀ i, viewable i → i < l.length) : InPool pool viewable (bs.map place) := by
  constructor
  · have hinj : Function.Injective fun i : ℕ => (pool, some i) :=
      fun i j hij => Option.some.inj (Prod.mk.inj hij).2
    refine nodup_collect_zipIdx h hinj ?_
    · intro a i found hget hfound
      rcases hf a i found hget hfound with ⟨hnil, -⟩ | ⟨b, hb, hplace, -⟩
      · exact Or.inl hnil
      · exact Or.inr ⟨b, hb, hplace⟩
  · intro p
    rw [List.mem_map]
    constructor
    · rintro ⟨b, hb, rfl⟩
      obtain ⟨a, i, found, hget, hfound, hmem⟩ := (mem_collect_zipIdx h).mp hb
      rcases hf a i found hget hfound with ⟨rfl, -⟩ | ⟨b', rfl, hplace, hview⟩
      · cases hmem
      · rw [List.mem_singleton] at hmem
        subst hmem
        exact ⟨i, hplace, hview⟩
    · rintro ⟨i, rfl, hview⟩
      have hlt := hbound i hview
      have hget : l[i]? = some l[i] := List.getElem?_eq_getElem hlt
      obtain ⟨g, hg, hbs⟩ := collect_eq_ok.mp h
      have hturn := hg _ (List.mk_mem_zipIdx_iff_getElem?.mpr hget)
      rcases hf _ i _ hget hturn with ⟨-, hnot⟩ | ⟨b, hb, hplace, -⟩
      · exact absurd hview hnot
      · refine ⟨b, (mem_collect_zipIdx h).mpr ⟨_, i, _, hget, hturn, ?_⟩, hplace⟩
        rw [hb]
        exact List.mem_singleton_self b

theorem constFromU64_eq_ok {value value' : ℕ} (h : constFromU64 value = .ok value') :
    value' = value := by
  unfold constFromU64 at h
  split at h
  · exact (Except.ok.inj h).symm
  · cases h

theorem constFromU64_of_le {value : ℕ} (h : value ≤ maxMoney) : constFromU64 value = .ok value :=
  if_pos h

theorem constFromU64_of_not_le {value : ℕ} (h : ¬ value ≤ maxMoney) :
    constFromU64 value = .error (.Panic "assertion failed: amount <= MAX_MONEY") :=
  if_neg h

section

variable {SaplingIvk OrchardIvk SaplingOutput OrchardAction : Type}
  {V : TxWallet SaplingIvk OrchardIvk SaplingOutput OrchardAction} {view : View}
  {overflowChecks : Bool} {tx : StoredTx SaplingOutput OrchardAction}
  {keys : ViewingKeys SaplingIvk OrchardIvk} {accountIds : List AccountUuid}

/-! ### The shielded spends -/

theorem turn_shieldedSpend (pool : Pool) (position : ℕ → Option ℕ × Option ℕ) (nf : Nullifier)
    (i : ℕ) :
    Turn ((V.noteWithNullifier pool nf).map (·.map OutputInfo.value))
      (shieldedSpend V pool position (nf, i)) := by
  unfold shieldedSpend outputWithNullifier
  rcases V.noteWithNullifier pool nf with e | (- | note)
  · exact ⟨_, rfl⟩
  · rfl
  · by_cases hle : note.value ≤ maxMoney
    · refine (if_pos hle).mpr ⟨noteSpend pool position i note, ?_⟩
      simp [orError, Except.mapError, bind, Except.bind, constFromU64_of_le hle]
    · refine (if_neg hle).mpr ⟨"assertion failed: amount <= MAX_MONEY", ?_⟩
      simp only [orError, Except.mapError, bind, Except.bind, constFromU64_of_not_le hle]

theorem shieldedSpend_cases {pool : Pool} {position : ℕ → Option ℕ × Option ℕ} {nf : Nullifier}
    {i : ℕ} {found : List Spend} (h : shieldedSpend V pool position (nf, i) = .ok found) :
    (found = [] ∧ V.noteWithNullifier pool nf = .ok none) ∨
      ∃ note, V.noteWithNullifier pool nf = .ok (some note) ∧
        found = [noteSpend pool position i note] := by
  unfold shieldedSpend outputWithNullifier at h
  rcases hnote : V.noteWithNullifier pool nf with e | (- | note)
  · rw [hnote] at h
    cases h
  · rw [hnote] at h
    cases h
    exact Or.inl ⟨rfl, rfl⟩
  · rw [hnote] at h
    refine Or.inr ⟨note, rfl, ?_⟩
    by_cases hle : note.value ≤ maxMoney
    · simp only [orError, Except.mapError, bind, Except.bind, constFromU64_of_le hle,
        Except.ok.injEq] at h
      exact h.symm
    · simp [orError, Except.mapError, bind, Except.bind, constFromU64_of_not_le hle] at h

theorem reads_shieldedSpends (pool : Pool) :
    (nullifiers V tx pool).zipIdx.map
        (fun spend => (V.noteWithNullifier pool spend.1).map (·.map OutputInfo.value)) =
      spendReads V tx pool := by
  have hfst := List.zipIdx_map_fst 0 (nullifiers V tx pool)
  have hmap := List.map_map (f := Prod.fst) (l := (nullifiers V tx pool).zipIdx)
    (g := fun nf => (V.noteWithNullifier pool nf).map (·.map OutputInfo.value))
  rw [hfst] at hmap
  exact hmap.symm

theorem reading_shieldedSpends (pool : Pool) (position : ℕ → Option ℕ × Option ℕ) :
    Reading (shieldedSpends V pool position (nullifiers V tx pool)) (spendReads V tx pool) := by
  rw [← reads_shieldedSpends]
  exact reading_loop fun spend _ => turn_shieldedSpend pool position spend.1 spend.2

theorem reading_shieldedViewedSpends :
    Reading (shieldedViewedSpends V tx) (allSpendReads V tx) :=
  reading_pools (reading_shieldedSpends .sapling _) (reading_shieldedSpends .orchard _)
    (reading_shieldedSpends .ironwood _)

/-- The positions of a pool: an index is that of an output or that of an action. -/
def Positions (position : ℕ → Option ℕ × Option ℕ) : Prop :=
  ∀ i, (position i).1.or (position i).2 = some i

theorem place_noteSpend {pool : Pool} {position : ℕ → Option ℕ × Option ℕ}
    (hposition : Positions position) (i : ℕ) (note : OutputInfo) :
    (noteSpend pool position i note).place = (pool, some i) := by
  simp [Spend.place, noteSpend, hposition i]

theorem viewableSpend_iff {pool : Pool} (hpool : pool ≠ .transparent) (i : ℕ) :
    ViewableSpend V tx pool i ↔ ∃ nf note, (nullifiers V tx pool)[i]? = some nf ∧
      V.noteWithNullifier pool nf = .ok (some note) := by
  cases pool with
  | transparent => exact absurd rfl hpool
  | sapling => rfl
  | orchard => rfl
  | ironwood => rfl

theorem inPool_shieldedSpends {pool : Pool} {position : ℕ → Option ℕ × Option ℕ}
    {spends : List Spend} (hpool : pool ≠ .transparent) (hposition : Positions position)
    (h : shieldedSpends V pool position (nullifiers V tx pool) = .ok spends) :
    InPool pool (ViewableSpend V tx pool) (spends.map Spend.place) := by
  refine inPool_collect h ?_ ?_
  · intro nf i found hget hfound
    rw [viewableSpend_iff hpool]
    rcases shieldedSpend_cases hfound with ⟨rfl, hnone⟩ | ⟨note, hnote, rfl⟩
    · refine Or.inl ⟨rfl, ?_⟩
      rintro ⟨nf', note, hget', hnote⟩
      obtain rfl := Option.some.inj (hget.symm.trans hget')
      rw [hnone] at hnote
      cases hnote
    · exact Or.inr ⟨_, rfl, place_noteSpend hposition i note, nf, note, hget, hnote⟩
  · intro i hview
    obtain ⟨nf, note, hget, -⟩ := (viewableSpend_iff hpool i).mp hview
    exact (List.getElem?_eq_some_iff.mp hget).1

theorem describes_shieldedSpends {pool : Pool} {position : ℕ → Option ℕ × Option ℕ}
    {spends : List Spend} (hpool : pool ≠ .transparent) (hposition : Positions position)
    (h : shieldedSpends V pool position (nullifiers V tx pool) = .ok spends) :
    ∀ s ∈ spends, DescribesSpend V view tx s := by
  intro s hs
  obtain ⟨nf, i, found, hget, hfound, hmem⟩ := (mem_collect_zipIdx h).mp hs
  rcases shieldedSpend_cases hfound with ⟨rfl, -⟩ | ⟨note, hnote, rfl⟩
  · cases hmem
  · rw [List.mem_singleton] at hmem
    subst hmem
    rw [DescribesSpend, place_noteSpend hposition]
    cases pool with
    | transparent => exact absurd rfl hpool
    | sapling => exact ⟨nf, note, hget, hnote, rfl, rfl, rfl, rfl⟩
    | orchard => exact ⟨nf, note, hget, hnote, rfl, rfl, rfl, rfl⟩
    | ironwood => exact ⟨nf, note, hget, hnote, rfl, rfl, rfl, rfl⟩

/-! ### The transparent inputs -/

variable (view) in
theorem previousOutput_cases (prevout : OutPoint) :
    (∃ output, foundOutput view prevout = some output ∧
      previousOutput view prevout = .ok output) ∨
    foundOutput view prevout = none ∧
      ∃ message, previousOutput view prevout = .error (.Panic message) := by
  unfold foundOutput previousOutput
  rcases view.getTransaction prevout.txid with e | (- | (- | vout))
  · exact Or.inr ⟨rfl, _, rfl⟩
  · exact Or.inr ⟨rfl, _, rfl⟩
  · exact Or.inr ⟨rfl, _, rfl⟩
  · cases houtput : vout[prevout.n]? with
    | none => exact Or.inr ⟨houtput, "Zaino should have rejected this earlier", by simp [houtput]⟩
    | some output => exact Or.inl ⟨output, houtput, by simp [houtput]⟩

theorem transparentSpend_eq_ok {prevout : OutPoint} {idx : UInt16} {b : (OutPoint × ℕ) × Spend} :
    transparentSpend V view accountIds prevout idx = .ok b ↔
      ∃ output, foundOutput view prevout = some output ∧
        b = ((prevout, output.2), inputSpend V accountIds prevout idx output) := by
  rw [transparentSpend, bind_eq_ok]
  rcases previousOutput_cases view prevout with ⟨output, hfound, hprev⟩ |
    ⟨hnone, message, hprev⟩
  · rw [hprev, hfound]
    simp [eq_comm]
  · rw [hprev, hnone]
    simp

/-- The places of the elements of a counted loop: the counter has 16 bits. -/
def countedPlaces (n : ℕ) : List (Pool × Option ℕ) :=
  (List.range n).map fun i => (.transparent, some (i % 65536))

/-- Places that are reported once did not wrap. -/
theorem le_of_nodup_countedPlaces {n : ℕ} (h : (countedPlaces n).Nodup) : n ≤ 65536 := by
  by_contra hlt
  have hzero : (0 : ℕ) = 65536 := List.inj_on_of_nodup_map h (List.mem_range.mpr (by omega))
    (List.mem_range.mpr (by omega)) rfl
  omega

theorem countedPlaces_of_le {n : ℕ} (h : n ≤ 65536) :
    countedPlaces n = (List.range n).map fun i => (.transparent, some i) := by
  refine List.map_congr_left fun i hi => ?_
  rw [Nat.mod_eq_of_lt (lt_of_lt_of_le (List.mem_range.mp hi) h)]

theorem inPool_countedPlaces {n : ℕ} (h : n ≤ 65536) :
    InPool .transparent (· < n) (countedPlaces n) := by
  rw [countedPlaces_of_le h]
  constructor
  · refine List.nodup_range.map fun i j hij => ?_
    exact Option.some.inj (Prod.mk.inj hij).2
  · intro place
    simp only [List.mem_map, List.mem_range]
    constructor
    · rintro ⟨i, hi, rfl⟩
      exact ⟨i, rfl, hi⟩
    · rintro ⟨i, rfl, hi⟩
      exact ⟨i, hi, rfl⟩

/-- The inputs are found, and are not too many for the counter of a checked build. -/
def InputsClear (view : View) (overflowChecks : Bool)
    (tx : StoredTx SaplingOutput OrchardAction) : Prop :=
  isCoinbase tx.vin = false → (∀ prevout ∈ tx.vin, (foundOutput view prevout).isSome) ∧
    (overflowChecks = true → tx.vin.length < 65536)

variable (V accountIds) in
theorem transparentSpends_isOk :
    (∃ inputs, transparentSpends V view overflowChecks tx accountIds = .ok inputs) ↔
      InputsClear view overflowChecks tx := by
  unfold transparentSpends InputsClear
  by_cases hcoinbase : isCoinbase tx.vin = true
  · rw [if_pos hcoinbase]
    exact iff_of_true ⟨[], rfl⟩ fun h => absurd hcoinbase (by rw [h]; decide)
  · rw [if_neg hcoinbase, Bool.eq_false_iff]
    simp only [countedLoop_zero_eq_ok, exists_and_left, exists_forall₂_iff, transparentSpend_eq_ok]
    constructor
    · rintro ⟨hfits, hall⟩ -
      refine ⟨fun prevout hmem => ?_, hfits⟩
      obtain ⟨i, hget⟩ := List.getElem?_of_mem hmem
      obtain ⟨-, output, hfound, -⟩ := hall _ (List.mk_mem_zipIdx_iff_getElem?.mpr hget)
      rw [hfound]
      rfl
    · intro h
      obtain ⟨hfound, hfits⟩ := h hcoinbase
      refine ⟨hfits, fun a ha => ?_⟩
      obtain ⟨output, houtput⟩ := Option.isSome_iff_exists.mp (hfound a.1 (List.fst_mem_of_mem_zipIdx ha))
      exact ⟨_, output, houtput, rfl⟩

theorem noPanic_transparentSpends :
    NoPanic (transparentSpends V view overflowChecks tx accountIds) ↔
      InputsClear view overflowChecks tx := by
  rw [← transparentSpends_isOk V accountIds]
  unfold transparentSpends
  by_cases hcoinbase : isCoinbase tx.vin = true
  · rw [if_pos hcoinbase]
    exact iff_of_true trivial ⟨[], rfl⟩
  · rw [if_neg hcoinbase]
    refine noPanic_countedLoop fun prevout idx h => ?_
    rcases previousOutput_cases view prevout with ⟨output, hfound, -⟩ |
      ⟨-, message, hprev⟩
    · exact ⟨_, transparentSpend_eq_ok.mpr ⟨output, hfound, rfl⟩⟩
    · rw [transparentSpend, hprev] at h
      exact h.elim

/-- Insertions of values that depend on their keys only. -/
theorem foldl_update_apply {κ : Type} [DecidableEq κ] (value : κ → Option ℕ) {l : List (κ × ℕ)}
    (h : ∀ x ∈ l, value x.1 = some x.2) (init : κ → Option ℕ) (k : κ) :
    l.foldl (fun (values : κ → Option ℕ) x => Function.update values x.1 (some x.2)) init k =
      if k ∈ l.map Prod.fst then value k else init k := by
  induction l generalizing init with
  | nil => rfl
  | cons x l ih =>
    obtain ⟨hx, hl⟩ := List.forall_mem_cons.mp h
    rw [List.foldl_cons, ih hl, List.map_cons]
    by_cases hmem : k ∈ l.map Prod.fst
    · rw [if_pos hmem, if_pos (List.mem_cons_of_mem _ hmem)]
    · rw [if_neg hmem]
      by_cases hk : k = x.1
      · subst hk
        rw [Function.update_self, if_pos List.mem_cons_self, hx]
      · rw [Function.update_of_ne hk, if_neg fun hcons => ?_]
        rcases List.mem_cons.mp hcons with heq | htail
        · exact hk heq
        · exact hmem htail

/-- What the loop over the inputs has made of each. -/
structure InputsRead (V : TxWallet SaplingIvk OrchardIvk SaplingOutput OrchardAction) (view : View)
    (tx : StoredTx SaplingOutput OrchardAction) (accountIds : List AccountUuid)
    (inputs : List ((OutPoint × ℕ) × Spend)) : Prop where
  coinbase : isCoinbase tx.vin = true → inputs = []
  turns : isCoinbase tx.vin = false → List.Forall₂ (fun a b =>
    ∃ output, foundOutput view a.1 = some output ∧
      b = ((a.1, output.2), inputSpend V accountIds a.1 (UInt16.ofNat a.2) output))
    tx.vin.zipIdx inputs

theorem inputsRead_of_ok {inputs : List ((OutPoint × ℕ) × Spend)}
    (h : transparentSpends V view overflowChecks tx accountIds = .ok inputs) :
    InputsRead V view tx accountIds inputs := by
  unfold transparentSpends at h
  by_cases hcoinbase : isCoinbase tx.vin = true
  · rw [if_pos hcoinbase] at h
    cases h
    exact ⟨fun _ => rfl, fun hnot => absurd hcoinbase (by rw [hnot]; decide)⟩
  · rw [if_neg hcoinbase] at h
    have hturns := (countedLoop_zero_eq_ok.mp h).2
    refine ⟨fun hyes => absurd hyes hcoinbase, fun _ => hturns.imp fun a b hab => ?_⟩
    exact transparentSpend_eq_ok.mp hab

section

variable {inputs : List ((OutPoint × ℕ) × Spend)} (h : InputsRead V view tx accountIds inputs)

include h

theorem InputsRead.places : (inputs.map Prod.snd).map Spend.place =
    if isCoinbase tx.vin = true then [] else countedPlaces tx.vin.length := by
  split
  · next hcoinbase => rw [h.coinbase hcoinbase]; rfl
  · next hcoinbase =>
    rw [List.map_map, countedPlaces, ← zipIdx_map_index]
    refine (map_eq_of_forall₂ (h.turns (Bool.eq_false_iff.mpr hcoinbase)) ?_).symm
    rintro ⟨prevout, i⟩ b ⟨output, -, rfl⟩
    simp [Spend.place, inputSpend, UInt16.toNat_ofNat']

theorem InputsRead.inPool (hle : isCoinbase tx.vin = false → tx.vin.length ≤ 65536) :
    InPool .transparent (ViewableSpend V tx .transparent)
      ((inputs.map Prod.snd).map Spend.place) := by
  rw [h.places]
  by_cases hcoinbase : isCoinbase tx.vin = true
  · rw [if_pos hcoinbase]
    refine ⟨List.nodup_nil, fun place => iff_of_false List.not_mem_nil ?_⟩
    rintro ⟨i, -, hview⟩
    rw [ViewableSpend, hcoinbase] at hview
    exact absurd hview.1 (by decide)
  · rw [if_neg hcoinbase]
    rw [Bool.not_eq_true] at hcoinbase
    have hpool := inPool_countedPlaces (hle hcoinbase)
    exact ⟨hpool.nodup, fun place => (hpool.mem_iff place).trans (by simp [ViewableSpend, hcoinbase])⟩

theorem InputsRead.describes (hle : isCoinbase tx.vin = false → tx.vin.length ≤ 65536) :
    ∀ s ∈ inputs.map Prod.snd, DescribesSpend V view tx s := by
  by_cases hcoinbase : isCoinbase tx.vin = true
  · rw [h.coinbase hcoinbase]
    exact fun s hs => absurd hs List.not_mem_nil
  · rw [Bool.not_eq_true] at hcoinbase
    intro s hs
    obtain ⟨b, hb, rfl⟩ := List.mem_map.mp hs
    obtain ⟨⟨prevout, i⟩, hmem, output, hfound, rfl⟩ :=
      exists_of_mem_right (h.turns hcoinbase) hb
    have hget := List.mk_mem_zipIdx_iff_getElem?.mp hmem
    have hlt : i < 65536 :=
      lt_of_lt_of_le (List.getElem?_eq_some_iff.mp hget).1 (hle hcoinbase)
    have hplace : (inputSpend V accountIds prevout (UInt16.ofNat i) output).place =
        (.transparent, some i) := by
      simp [Spend.place, inputSpend, UInt16.toNat_ofNat', Nat.mod_eq_of_lt hlt]
    rw [DescribesSpend, hplace]
    exact ⟨prevout, output, hget, hfound, rfl, rfl, rfl⟩

/-- The values that the fee is computed from. -/
theorem InputsRead.values :
    transparentInputValues (inputs.map Prod.fst) = spentValues view tx := by
  funext prevout
  rw [spentValues]
  by_cases hcoinbase : isCoinbase tx.vin = true
  · rw [h.coinbase hcoinbase, if_neg fun hand => absurd hand.1 (by rw [hcoinbase]; decide)]
    rfl
  · rw [Bool.not_eq_true] at hcoinbase
    have hturns := h.turns hcoinbase
    have hkeys : (inputs.map Prod.fst).map Prod.fst = tx.vin := by
      rw [List.map_map, ← List.zipIdx_map_fst 0 tx.vin]
      refine (map_eq_of_forall₂ hturns ?_).symm
      rintro a b ⟨output, -, rfl⟩
      rfl
    have hvalue : ∀ x ∈ inputs.map Prod.fst, (foundOutput view x.1).map Prod.snd = some x.2 := by
      intro x hx
      obtain ⟨b, hb, rfl⟩ := List.mem_map.mp hx
      obtain ⟨a, -, output, hfound, rfl⟩ := exists_of_mem_right hturns hb
      rw [hfound]
      rfl
    rw [transparentInputValues,
      foldl_update_apply (fun prevout => (foundOutput view prevout).map Prod.snd) hvalue, hkeys]
    simp only [hcoinbase, true_and]

end

/-! ### The shielded outputs -/

section

variable {Ivk Out Addr : Type} {pool : Pool} {decrypt : Ivk → Out → Option (Decrypted Addr)}
  {recover : Ovk → Out → Option (Decrypted Addr)} {encode : Addr → String}
  {position : ℕ → Option ℕ × Option ℕ} {ivks : List (AccountUuid × Ivk × Scope)}
  {ovks : List (Ovk × Scope)} {outputs : List Out}

theorem turn_shieldedOutput (output : Out) (i : ℕ) :
    Turn (outputRead V tx.txid pool (seenText decrypt recover encode ivks ovks output, i))
      (shieldedOutput V pool decrypt recover encode position ivks ovks tx.txid (output, i)) := by
  unfold shieldedOutput seenText
  rcases seen decrypt recover ivks ovks output with - | ⟨note, account, addr, memo⟩
  · rfl
  · dsimp only [Option.map_some, outputRead, sentToAddress]
    rcases V.sentTo tx.txid pool i with e | row
    · exact ⟨_, rfl⟩
    · by_cases hle : note.value ≤ maxMoney
      · refine (if_pos hle).mpr ?_
        rw [constFromU64_of_le hle]
        exact ⟨_, rfl⟩
      · refine (if_neg hle).mpr ?_
        rw [constFromU64_of_not_le hle]
        exact ⟨_, rfl⟩

theorem shieldedOutput_cases {output : Out} {i : ℕ} {found : List ViewedOutput}
    (h : shieldedOutput V pool decrypt recover encode position ivks ovks tx.txid (output, i) =
      .ok found) :
    (found = [] ∧ seenText decrypt recover encode ivks ovks output = none) ∨
      ∃ o note account address memo,
        seenText decrypt recover encode ivks ovks output = some (note, account, address, memo) ∧
        found = [o] ∧ o.pool = pool ∧ o.tOut = none ∧ o.output = (position i).1 ∧
        o.action = (position i).2 ∧ o.accountUuid = account ∧ o.value = note.value ∧
        o.memo = some memo.encoding := by
  unfold shieldedOutput at h
  unfold seenText
  rcases hseen : seen decrypt recover ivks ovks output with - | ⟨note, account, addr, memo⟩
  · rw [hseen] at h
    cases h
    exact Or.inl ⟨rfl, rfl⟩
  · rw [hseen] at h
    obtain ⟨address, -, h⟩ := bind_eq_ok.mp h
    obtain ⟨value, hvalue, h⟩ := bind_eq_ok.mp h
    cases h
    have heq : value = note.value := constFromU64_eq_ok hvalue
    exact Or.inr ⟨_, note, account, addr.map encode, memo, rfl, rfl, rfl, rfl, rfl, rfl, rfl, heq, rfl⟩

theorem viewableOutput_iff (hpool : pool ≠ .transparent) (i : ℕ) :
    ViewableOutput V tx keys pool i ↔
      ∃ output, (seenOutputs V tx keys pool)[i]? = some (some output) := by
  cases pool with
  | transparent => exact absurd rfl hpool
  | sapling => rfl
  | orchard => rfl
  | ironwood => rfl

variable (hseen : seenOutputs V tx keys pool =
  outputs.map (seenText decrypt recover encode ivks ovks))

include hseen

theorem reading_shieldedOutputs :
    Reading (shieldedOutputs V pool decrypt recover encode position ivks ovks tx.txid outputs)
      (outputReads V tx keys pool) := by
  rw [outputReads, hseen, List.zipIdx_map, List.map_map]
  exact reading_loop fun output _ => turn_shieldedOutput output.1 output.2

theorem seenOutputs_getElem? {i : ℕ} {output : Out} (hget : outputs[i]? = some output) :
    (seenOutputs V tx keys pool)[i]? = some (seenText decrypt recover encode ivks ovks output) := by
  rw [hseen, List.getElem?_map, hget]
  rfl

theorem inPool_shieldedOutputs {outs : List ViewedOutput} (hpool : pool ≠ .transparent)
    (hposition : Positions position)
    (h : shieldedOutputs V pool decrypt recover encode position ivks ovks tx.txid outputs =
      .ok outs) :
    InPool pool (ViewableOutput V tx keys pool) (outs.map outputPlace) := by
  refine inPool_collect h ?_ ?_
  · intro output i found hget hfound
    have hsome := seenOutputs_getElem? hseen hget
    rw [viewableOutput_iff hpool, hsome]
    rcases shieldedOutput_cases hfound with ⟨rfl, hnone⟩ |
      ⟨o, note, account, address, memo, htext, rfl, hp, ht, ho, ha, -⟩
    · refine Or.inl ⟨rfl, ?_⟩
      rw [hnone]
      rintro ⟨output', hout⟩
      cases Option.some.inj hout
    · refine Or.inr ⟨o, rfl, ?_, _, congrArg some htext⟩
      rw [outputPlace, hp, ht, ho, ha, Option.none_or, hposition i]
  · intro i hview
    obtain ⟨output, hget⟩ := (viewableOutput_iff hpool i).mp hview
    rw [hseen] at hget
    have hlt := (List.getElem?_eq_some_iff.mp hget).1
    rwa [List.length_map] at hlt

theorem describes_shieldedOutputs {outs : List ViewedOutput} (hpool : pool ≠ .transparent)
    (hposition : Positions position)
    (h : shieldedOutputs V pool decrypt recover encode position ivks ovks tx.txid outputs =
      .ok outs) :
    ∀ o ∈ outs, DescribesOutput V tx keys o := by
  intro o ho
  obtain ⟨output, i, found, hget, hfound, hmem⟩ := (mem_collect_zipIdx h).mp ho
  rcases shieldedOutput_cases hfound with ⟨rfl, -⟩ |
    ⟨o', note, account, address, memo, htext, rfl, hp, ht, hout, hact, hacc, hval, hmemo⟩
  · cases hmem
  · rw [List.mem_singleton] at hmem
    subst hmem
    have hsome := seenOutputs_getElem? hseen hget
    rw [htext] at hsome
    have hplace : outputPlace o = (pool, some i) := by
      rw [outputPlace, hp, ht, hout, hact, Option.none_or, hposition i]
    rw [DescribesOutput, hplace]
    cases pool with
    | transparent => exact absurd rfl hpool
    | sapling => exact ⟨note, account, address, memo, hsome, hacc, hval, hmemo⟩
    | orchard => exact ⟨note, account, address, memo, hsome, hacc, hval, hmemo⟩
    | ironwood => exact ⟨note, account, address, memo, hsome, hacc, hval, hmemo⟩

end

/-! ### All spends -/

theorem ends_viewSpends :
    Ends (viewSpends V view overflowChecks tx accountIds)
      (InputsClear view overflowChecks tx ∧ NotesFit (allSpendReads V tx))
      (AllRead (allSpendReads V tx)) := by
  have htransparent : Ends (transparentSpends V view overflowChecks tx accountIds)
      (InputsClear view overflowChecks tx) True :=
    ⟨noPanic_transparentSpends, (transparentSpends_isOk V accountIds).trans (and_iff_left trivial).symm⟩
  have hshielded : Reading (shieldedViewedSpends V tx) (allSpendReads V tx) :=
    reading_shieldedViewedSpends
  have h := htransparent.bind fun inputs _ => hshielded.bind fun shielded _ =>
    Ends.ok (transparentInputValues (inputs.map Prod.fst), inputs.map Prod.snd ++ shielded)
  refine h.congr ?_ ?_
  · simp only [true_implies, implies_true, and_true]
  · simp only [true_and, and_true]

theorem viewSpends_values {values : OutPoint → Option ℕ} {spends : List Spend}
    (h : viewSpends V view overflowChecks tx accountIds = .ok (values, spends)) :
    values = spentValues view tx := by
  obtain ⟨inputs, hinputs, h⟩ := bind_eq_ok.mp h
  obtain ⟨shielded, -, h⟩ := bind_eq_ok.mp h
  cases h
  exact (inputsRead_of_ok hinputs).values

/-- The spends are reported as they are, unless an input's number wraps. -/
theorem viewSpends_right_iff {values : OutPoint → Option ℕ} {spends : List Spend}
    (h : viewSpends V view overflowChecks tx accountIds = .ok (values, spends)) :
    (Reports (ViewableSpend V tx) (spends.map Spend.place) ∧
        ∀ s ∈ spends, DescribesSpend V view tx s) ↔
      (isCoinbase tx.vin = false → tx.vin.length ≤ 65536) := by
  obtain ⟨inputs, hinputs, h⟩ := bind_eq_ok.mp h
  obtain ⟨shielded, hshielded, h⟩ := bind_eq_ok.mp h
  obtain ⟨sapling, hsapling, hshielded⟩ := bind_eq_ok.mp hshielded
  obtain ⟨orchard, horchard, hshielded⟩ := bind_eq_ok.mp hshielded
  obtain ⟨ironwood, hironwood, hshielded⟩ := bind_eq_ok.mp hshielded
  cases hshielded
  cases h
  have hread := inputsRead_of_ok hinputs
  have hsaplingAt : Positions fun idx => (some idx, none) := fun _ => rfl
  have hactionAt : Positions fun idx => (none, some idx) := fun _ => rfl
  rw [← List.append_assoc, ← List.append_assoc]
  simp only [List.map_append, List.forall_mem_append]
  constructor
  · rintro ⟨hreports, -⟩ hcoinbase
    have hnodup := hreports.nodup.of_append_left.of_append_left.of_append_left
    rw [hread.places, if_neg (by rw [hcoinbase]; decide)] at hnodup
    exact le_of_nodup_countedPlaces hnodup
  · intro hle
    exact ⟨reports_append (hread.inPool hle)
      (inPool_shieldedSpends (by decide) hsaplingAt hsapling)
      (inPool_shieldedSpends (by decide) hactionAt horchard)
      (inPool_shieldedSpends (by decide) hactionAt hironwood),
      ⟨⟨hread.describes hle, describes_shieldedSpends (by decide) hsaplingAt hsapling⟩,
        describes_shieldedSpends (by decide) hactionAt horchard⟩,
      describes_shieldedSpends (by decide) hactionAt hironwood⟩

/-! ### All outputs -/

variable {fundedByThisWallet : Bool}

theorem transparentOutputs_eq_ok {outs : List ViewedOutput} :
    transparentOutputs V overflowChecks tx accountIds fundedByThisWallet = .ok outs ↔
      (overflowChecks = true → tx.vout.length < 65536) ∧
        outs = tx.vout.zipIdx.map fun output => transparentViewed V.toViewWallet accountIds
          fundedByThisWallet (UInt16.ofNat output.2).toNat output.1 := by
  refine countedLoop_zero_eq_ok.trans (and_congr_right fun _ => ?_)
  simp only [Except.ok.injEq]
  rw [← List.forall₂_map_left_iff, List.forall₂_eq_eq_eq, eq_comm]

theorem ends_transparentOutputs :
    Ends (transparentOutputs V overflowChecks tx accountIds fundedByThisWallet)
      (overflowChecks = true → tx.vout.length < 65536) True := by
  have hisOk : (∃ outs, transparentOutputs V overflowChecks tx accountIds fundedByThisWallet =
      .ok outs) ↔ (overflowChecks = true → tx.vout.length < 65536) := by
    simp only [transparentOutputs_eq_ok, exists_and_left, exists_eq, and_true]
  refine ⟨Iff.trans ?_ hisOk, hisOk.trans (and_iff_left trivial).symm⟩
  exact noPanic_countedLoop fun output idx _ => ⟨_, rfl⟩

theorem places_transparentOutputs {outs : List ViewedOutput}
    (h : transparentOutputs V overflowChecks tx accountIds fundedByThisWallet = .ok outs) :
    outs.map outputPlace = countedPlaces tx.vout.length := by
  obtain ⟨-, rfl⟩ := transparentOutputs_eq_ok.mp h
  rw [List.map_map, countedPlaces, ← zipIdx_map_index]
  refine List.map_congr_left fun output _ => ?_
  simp [outputPlace, transparentViewed, UInt16.toNat_ofNat']

theorem describes_transparentOutputs {outs : List ViewedOutput}
    (h : transparentOutputs V overflowChecks tx accountIds fundedByThisWallet = .ok outs)
    (hle : tx.vout.length ≤ 65536) : ∀ o ∈ outs, DescribesOutput V tx keys o := by
  obtain ⟨-, rfl⟩ := transparentOutputs_eq_ok.mp h
  intro o ho
  obtain ⟨⟨⟨address, value⟩, i⟩, hmem, rfl⟩ := List.mem_map.mp ho
  have hget := List.mk_mem_zipIdx_iff_getElem?.mp hmem
  have hlt : i < 65536 := lt_of_lt_of_le (List.getElem?_eq_some_iff.mp hget).1 hle
  have hidx : (UInt16.ofNat i).toNat = i := by
    rw [UInt16.toNat_ofNat', Nat.mod_eq_of_lt hlt]
  rw [hidx]
  cases address with
  | none => exact ⟨none, hget, rfl⟩
  | some address => exact ⟨some address, hget, rfl⟩

theorem ends_viewOutputs :
    Ends (viewOutputs V overflowChecks tx accountIds keys fundedByThisWallet)
      ((overflowChecks = true → tx.vout.length < 65536) ∧ NotesFit (allOutputReads V tx keys))
      (AllRead (allOutputReads V tx keys)) := by
  have htransparent :
      Ends (transparentOutputs V overflowChecks tx accountIds fundedByThisWallet)
        (overflowChecks = true → tx.vout.length < 65536) True :=
    ends_transparentOutputs
  have hshielded : Reading (shieldedViewedOutputs V tx keys) (allOutputReads V tx keys) :=
    reading_pools (reading_shieldedOutputs rfl) (reading_shieldedOutputs rfl)
      (reading_shieldedOutputs rfl)
  have h := htransparent.bind fun transparent _ => hshielded.bind fun shielded _ =>
    Ends.ok (transparent ++ shielded)
  refine h.congr ?_ ?_
  · simp only [true_implies, implies_true, and_true]
  · simp only [true_and, and_true]

/-- The outputs are reported as they are, unless an output's number wraps. -/
theorem viewOutputs_right_iff {outs : List ViewedOutput}
    (h : viewOutputs V overflowChecks tx accountIds keys fundedByThisWallet = .ok outs) :
    (Reports (ViewableOutput V tx keys) (outs.map outputPlace) ∧
        ∀ o ∈ outs, DescribesOutput V tx keys o) ↔ tx.vout.length ≤ 65536 := by
  obtain ⟨transparent, htransparent, h⟩ := bind_eq_ok.mp h
  obtain ⟨shielded, hshielded, h⟩ := bind_eq_ok.mp h
  obtain ⟨sapling, hsapling, hshielded⟩ := bind_eq_ok.mp hshielded
  obtain ⟨orchard, horchard, hshielded⟩ := bind_eq_ok.mp hshielded
  obtain ⟨ironwood, hironwood, hshielded⟩ := bind_eq_ok.mp hshielded
  cases hshielded
  cases h
  have hplaces := places_transparentOutputs htransparent
  have hsaplingAt : Positions fun idx => (some idx, none) := fun _ => rfl
  have hactionAt : Positions fun idx => (none, some idx) := fun _ => rfl
  rw [← List.append_assoc, ← List.append_assoc]
  simp only [List.map_append, List.forall_mem_append, hplaces]
  constructor
  · rintro ⟨hreports, -⟩
    exact le_of_nodup_countedPlaces
      hreports.nodup.of_append_left.of_append_left.of_append_left
  · intro hle
    exact ⟨reports_append (inPool_countedPlaces hle)
      (inPool_shieldedOutputs rfl (by decide) hsaplingAt hsapling)
      (inPool_shieldedOutputs rfl (by decide) hactionAt horchard)
      (inPool_shieldedOutputs rfl (by decide) hactionAt hironwood),
      ⟨⟨describes_transparentOutputs htransparent hle,
        describes_shieldedOutputs rfl (by decide) hsaplingAt hsapling⟩,
        describes_shieldedOutputs rfl (by decide) hactionAt horchard⟩,
      describes_shieldedOutputs rfl (by decide) hactionAt hironwood⟩

/-! ### The outputs without the checks -/

/-- The number of a transparent output, as a 16-bit counter has it. -/
def wrapped (o : ViewedOutput) : ViewedOutput := { o with tOut := o.tOut.map (· % 65536) }

/-- An output whose value is in range is reported either way, and it is not transparent. -/
theorem shieldedViewed_of_ok {Ivk Out Addr : Type} {pool : Pool}
    {decrypt : Ivk → Out → Option (Decrypted Addr)} {recover : Ovk → Out → Option (Decrypted Addr)}
    {encode : Addr → String} {position : ℕ → Option ℕ × Option ℕ}
    {ivks : List (AccountUuid × Ivk × Scope)} {ovks : List (Ovk × Scope)} {txid : TxId}
    {outputs : List Out} {outs : List ViewedOutput}
    (h : shieldedOutputs V pool decrypt recover encode position ivks ovks txid outputs = .ok outs) :
    shieldedViewed V.toViewWallet pool decrypt recover encode position ivks ovks txid outputs =
      .ok outs := by
  refine collect_mono (fun output found hfound => ?_) h
  obtain ⟨output, idx⟩ := output
  unfold shieldedOutput at hfound
  dsimp only at hfound ⊢
  rcases hseen : seen decrypt recover ivks ovks output with - | ⟨note, account, addr, memo⟩
  · rw [hseen] at hfound
    cases hfound
    rfl
  · rw [hseen] at hfound
    obtain ⟨address, haddress, hfound⟩ := bind_eq_ok.mp hfound
    obtain ⟨value, hvalue, hfound⟩ := bind_eq_ok.mp hfound
    rw [constFromU64_eq_ok hvalue] at hfound
    cases hfound
    exact bind_eq_ok.mpr ⟨address, mapError_eq_ok.mp haddress, rfl⟩

theorem wrapped_shieldedOutputs {Ivk Out Addr : Type} {pool : Pool}
    {decrypt : Ivk → Out → Option (Decrypted Addr)} {recover : Ovk → Out → Option (Decrypted Addr)}
    {encode : Addr → String} {position : ℕ → Option ℕ × Option ℕ}
    {ivks : List (AccountUuid × Ivk × Scope)} {ovks : List (Ovk × Scope)}
    {outputs : List Out} {outs : List ViewedOutput}
    (h : shieldedOutputs V pool decrypt recover encode position ivks ovks tx.txid outputs = .ok outs) :
    outs.map wrapped = outs := by
  obtain ⟨g, hg, rfl⟩ := collect_eq_ok.mp h
  refine (List.map_congr_left fun o ho => ?_).trans (List.map_id _)
  obtain ⟨⟨output, idx⟩, houtput, ho⟩ := List.mem_flatMap.mp ho
  rcases shieldedOutput_cases (hg _ houtput) with ⟨hnil, -⟩ | ⟨o', _, _, _, _, -, hone, -, htOut, -⟩
  · rw [hnil] at ho
    cases ho
  · rw [hone, List.mem_singleton] at ho
    rw [ho, wrapped, htOut]
    show { o' with tOut := none } = o'
    rw [← htOut]

/-- What is reported of the outputs is what `ViewTransaction.viewOutputs` reports, numbered with
    16 bits. -/
theorem viewOutputs_wrapped {outs : List ViewedOutput} (hids : V.getAccountIds = .ok accountIds)
    (hkeys : viewingKeys V.toViewWallet = .ok keys)
    (h : viewOutputs V overflowChecks tx accountIds keys fundedByThisWallet = .ok outs) :
    ∃ outs', ViewTransaction.viewOutputs V.toViewWallet tx.toViewedTx fundedByThisWallet =
      .ok outs' ∧ outs = outs'.map wrapped := by
  obtain ⟨transparent, htransparent, h⟩ := bind_eq_ok.mp h
  obtain ⟨shielded, hshielded, h⟩ := bind_eq_ok.mp h
  obtain ⟨sapling, hsapling, hshielded⟩ := bind_eq_ok.mp hshielded
  obtain ⟨orchard, horchard, hshielded⟩ := bind_eq_ok.mp hshielded
  obtain ⟨ironwood, hironwood, hshielded⟩ := bind_eq_ok.mp hshielded
  cases hshielded
  cases h
  obtain ⟨-, rfl⟩ := transparentOutputs_eq_ok.mp htransparent
  refine ⟨_, bind_eq_ok.mpr ⟨accountIds, orDatabaseText_eq_ok.mpr hids,
    bind_eq_ok.mpr ⟨keys, hkeys, bind_eq_ok.mpr ⟨sapling, shieldedViewed_of_ok hsapling,
      bind_eq_ok.mpr ⟨orchard, shieldedViewed_of_ok horchard,
        bind_eq_ok.mpr ⟨ironwood, shieldedViewed_of_ok hironwood, rfl⟩⟩⟩⟩⟩, ?_⟩
  rw [List.map_append, List.map_append, List.map_append, wrapped_shieldedOutputs hsapling,
    wrapped_shieldedOutputs horchard, wrapped_shieldedOutputs hironwood, List.map_map]
  simp only [List.append_assoc]
  rfl

end

end Zallet.Rpc.ViewedTransaction
