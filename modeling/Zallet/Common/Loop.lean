import Mathlib

/-!
# Computations that may fail

What a computation in `Except` that succeeds has done (`bind_eq_ok`,
`mapError_eq_ok`, `forall₂_of_mapM`, `mapM_isOk`, `mapM_eq_ok_iff`), and what follows of
two lists that `List.Forall₂` relates.

`collect` is the loop that pushes what its body yields for each element and
stops at the first error; a body that continues yields nothing.

* `collect_eq_ok`: a loop that succeeds is a `flatMap`.
* `perm_filter_or`, `perm_filter_iff`: a list split by a predicate, and two
  filters of it compared by keys.
-/

namespace Zallet.Common.Loop

variable {ε α β : Type}

/-! ## Steps -/

theorem bind_eq_ok {ε α β : Type} {x : Except ε α} {f : α → Except ε β} {b : β} :
    x >>= f = .ok b ↔ ∃ a, x = .ok a ∧ f a = .ok b := by
  cases x <;> simp [bind, Except.bind]

theorem bind_eq_error {ε α β : Type} {x : Except ε α} {f : α → Except ε β} {e : ε} :
    x >>= f = .error e ↔ x = .error e ∨ ∃ a, x = .ok a ∧ f a = .error e := by
  cases x <;> simp [bind, Except.bind]

theorem mapError_eq_ok {ε δ α : Type} {f : δ → ε} {x : Except δ α} {a : α} :
    x.mapError f = .ok a ↔ x = .ok a := by
  cases x <;> simp [Except.mapError]

theorem forall₂_of_mapM {ε α β : Type} {f : α → Except ε β} {as : List α} {bs : List β}
    (h : as.mapM f = .ok bs) : List.Forall₂ (fun a b => f a = .ok b) as bs := by
  induction as generalizing bs with
  | nil =>
    obtain rfl := Except.ok.inj h
    exact .nil
  | cons a as ih =>
    rw [List.mapM_cons] at h
    obtain ⟨b, hb, h⟩ := bind_eq_ok.mp h
    obtain ⟨bs', hbs, h⟩ := bind_eq_ok.mp h
    obtain rfl := Except.ok.inj h
    exact .cons hb (ih hbs)

theorem mapM_isOk {ε α β : Type} {f : α → Except ε β} {l : List α} :
    (∃ bs, l.mapM f = .ok bs) ↔ ∀ a ∈ l, ∃ b, f a = .ok b := by
  induction l with
  | nil => exact iff_of_true ⟨[], rfl⟩ fun a ha => by cases ha
  | cons a l ih =>
    rw [List.forall_mem_cons, ← ih, List.mapM_cons]
    simp only [bind_eq_ok]
    constructor
    · rintro ⟨bs, b, hb, rest, hrest, -⟩
      exact ⟨⟨b, hb⟩, rest, hrest⟩
    · rintro ⟨⟨b, hb⟩, rest, hrest⟩
      exact ⟨b :: rest, b, hb, rest, hrest, rfl⟩

/-- Where the elements that succeed and their results are known, so are those of the list. -/
theorem mapM_eq_ok_iff {ε α β : Type} {f : α → Except ε β} {P : α → Prop} {g : α → β}
    (hf : ∀ a b, f a = .ok b ↔ P a ∧ b = g a) {as : List α} {bs : List β} :
    as.mapM f = .ok bs ↔ (∀ a ∈ as, P a) ∧ bs = as.map g := by
  induction as generalizing bs with
  | nil => simp [pure, Except.pure, eq_comm]
  | cons a as ih =>
    simp only [List.mapM_cons, bind_eq_ok, hf, ih, List.forall_mem_cons, List.map_cons]
    constructor
    · rintro ⟨b, ⟨ha, rfl⟩, rest, ⟨has, rfl⟩, hbs⟩
      exact ⟨⟨ha, has⟩, (Except.ok.inj hbs).symm⟩
    · rintro ⟨⟨ha, has⟩, rfl⟩
      exact ⟨g a, ⟨ha, rfl⟩, as.map g, ⟨has, rfl⟩, rfl⟩

/-! ## Lists related element by element -/

theorem exists_of_mem_right {α β : Type} {R : α → β → Prop} {as : List α} {bs : List β}
    (h : List.Forall₂ R as bs) {b : β} (hb : b ∈ bs) : ∃ a ∈ as, R a b := by
  induction h with
  | nil => cases hb
  | cons hab _ ih =>
    rcases List.mem_cons.mp hb with rfl | hb
    · exact ⟨_, List.mem_cons_self, hab⟩
    · obtain ⟨a, ha, hR⟩ := ih hb
      exact ⟨a, List.mem_cons_of_mem _ ha, hR⟩

theorem forall_mem_iff_of_forall₂ {α β : Type} {R : α → β → Prop} {P : α → Prop} {Q : β → Prop}
    {as : List α} {bs : List β} (h : List.Forall₂ R as bs) (hPQ : ∀ a b, R a b → (P a ↔ Q b)) :
    (∀ a ∈ as, P a) ↔ ∀ b ∈ bs, Q b := by
  induction h with
  | nil => simp
  | cons hab _ ih => rw [List.forall_mem_cons, List.forall_mem_cons, hPQ _ _ hab, ih]

theorem map_eq_of_forall₂ {α β γ : Type} {R : α → β → Prop} {f : α → γ} {g : β → γ} {as : List α}
    {bs : List β} (h : List.Forall₂ R as bs) (hfg : ∀ a b, R a b → f a = g b) :
    as.map f = bs.map g := by
  induction h with
  | nil => rfl
  | cons hab _ ih => rw [List.map_cons, List.map_cons, hfg _ _ hab, ih]

theorem exists_forall₂_iff {α β : Type} {R : α → β → Prop} {as : List α} :
    (∃ bs, List.Forall₂ R as bs) ↔ ∀ a ∈ as, ∃ b, R a b := by
  induction as with
  | nil => simp
  | cons a as ih =>
    rw [List.forall_mem_cons, ← ih]
    constructor
    · rintro ⟨bs, h⟩
      obtain ⟨b, bs, hab, hrest, -⟩ := List.forall₂_cons_left_iff.mp h
      exact ⟨⟨b, hab⟩, bs, hrest⟩
    · rintro ⟨⟨b, hab⟩, bs, hrest⟩
      exact ⟨b :: bs, .cons hab hrest⟩

/-! ## Loops that collect -/

def collect (f : α → Except ε (List β)) : List α → Except ε (List β)
  | [] => .ok []
  | a :: l => do
    let found ← f a
    let rest ← collect f l
    .ok (found ++ rest)

theorem collect_cons_eq_ok {f : α → Except ε (List β)} {a : α} {l : List α} {bs : List β} :
    collect f (a :: l) = .ok bs ↔
      ∃ found rest, f a = .ok found ∧ collect f l = .ok rest ∧ bs = found ++ rest := by
  simp only [collect, bind_eq_ok, Except.ok.injEq]
  constructor
  · rintro ⟨found, hf, rest, hl, rfl⟩
    exact ⟨found, rest, hf, hl, rfl⟩
  · rintro ⟨found, rest, hf, hl, rfl⟩
    exact ⟨found, hf, rest, hl, rfl⟩

theorem collect_eq_ok {f : α → Except ε (List β)} {l : List α} {bs : List β} :
    collect f l = .ok bs ↔ ∃ g : α → List β, (∀ a ∈ l, f a = .ok (g a)) ∧ bs = l.flatMap g := by
  constructor
  · intro h
    refine ⟨fun a => (f a).toOption.getD [], ?_⟩
    induction l generalizing bs with
    | nil =>
      cases h
      exact ⟨by simp, rfl⟩
    | cons a l ih =>
      obtain ⟨found, rest, ha, hl, rfl⟩ := collect_cons_eq_ok.mp h
      obtain ⟨hrest, rfl⟩ := ih hl
      have hfound : (f a).toOption.getD [] = found := by rw [ha]; rfl
      refine ⟨List.forall_mem_cons.mpr ⟨?_, hrest⟩, ?_⟩
      · exact ha.trans (congrArg Except.ok hfound.symm)
      · rw [List.flatMap_cons, hfound]
  · rintro ⟨g, hg, rfl⟩
    induction l with
    | nil => rfl
    | cons a l ih =>
      obtain ⟨ha, hl⟩ := List.forall_mem_cons.mp hg
      exact collect_cons_eq_ok.mpr ⟨_, _, ha, ih hl, rfl⟩

/-- A loop whose turns succeed where those of another one do. -/
theorem collect_mono {ε' : Type} {f : α → Except ε (List β)} {f' : α → Except ε' (List β)}
    {l : List α} {bs : List β} (hf : ∀ a bs, f a = .ok bs → f' a = .ok bs)
    (h : collect f l = .ok bs) : collect f' l = .ok bs := by
  obtain ⟨g, hg, rfl⟩ := collect_eq_ok.mp h
  exact collect_eq_ok.mpr ⟨g, fun a ha => hf a (g a) (hg a ha), rfl⟩

/-- The keys of what a loop collects that yields at most one element a turn. -/
theorem map_flatMap_eq_filter {κ : Type} {g : α → List β} {key : β → κ} {key' : α → κ} {p : α → Bool}
    {l : List α} (h : ∀ a ∈ l, (g a).map key = if p a then [key' a] else []) :
    (l.flatMap g).map key = (l.filter p).map key' := by
  induction l with
  | nil => rfl
  | cons a l ih =>
    obtain ⟨ha, hl⟩ := List.forall_mem_cons.mp h
    rw [List.flatMap_cons, List.map_append, ha, ih hl]
    cases hp : p a with
    | true => simp [hp]
    | false => simp [hp]

/-- The elements with one of two keys are those with the first and those with the
    second. -/
theorem perm_filter_or {p q : α → Bool} (h : ∀ a, p a = true → q a = false) (l : List α) :
    (l.filter fun a => p a || q a).Perm (l.filter p ++ l.filter q) := by
  induction l with
  | nil => exact List.Perm.nil
  | cons a l ih =>
    cases hp : p a with
    | true => simpa [hp, h a hp] using ih.cons a
    | false =>
      cases hq : q a with
      | true => simpa [hp, hq] using (ih.cons a).trans List.perm_middle.symm
      | false => simpa [hp, hq] using ih

/-- Two filters of a list agree if their elements have the same keys. -/
theorem perm_filter_iff {κ : Type} {key : α → κ} {l : List α} (hnodup : (l.map key).Nodup)
    (p q : α → Bool) :
    ((l.filter p).map key).Perm ((l.filter q).map key) ↔ ∀ a ∈ l, p a = q a := by
  have hinj : ∀ a ∈ l, ∀ b ∈ l, key a = key b → a = b :=
    fun a ha b hb => List.inj_on_of_nodup_map hnodup ha hb
  have himp : ∀ p q : α → Bool, ((l.filter p).map key).Perm ((l.filter q).map key) →
      ∀ a ∈ l, p a = true → q a = true := by
    intro p q hperm a ha hp
    have hmem : key a ∈ (l.filter q).map key :=
      hperm.mem_iff.mp (List.mem_map_of_mem (List.mem_filter.mpr ⟨ha, hp⟩))
    obtain ⟨b, hb, hkey⟩ := List.mem_map.mp hmem
    obtain ⟨hbl, hq⟩ := List.mem_filter.mp hb
    rwa [hinj a ha b hbl hkey.symm]
  constructor
  · intro hperm a ha
    rw [Bool.eq_iff_iff]
    exact ⟨himp p q hperm a ha, himp q p hperm.symm a ha⟩
  · intro h
    rw [List.filter_congr h]

end Zallet.Common.Loop
