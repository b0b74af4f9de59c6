import Zallet.Common.Loop

/-!
# Computations that may panic

A computation ends with a value, with an error that its caller is given, or
in a panic. `Completes P x` says that `x` does not panic and that `P` holds of
its value; an error is not held against it.

* `completes_bind_iff`: a computation and what follows it. `Ends` is when a
  computation panics and when it succeeds (`Ends.bind`).
* `noPanic_collect_cons`: a loop panics at the first element whose turn does
  not succeed, if that turn panics. `mem_collect_zipIdx`,
  `nodup_collect_zipIdx`: what a loop over positions collects.
* `countedLoop` is a loop with a 16-bit counter, which panics or wraps when
  it overflows. `countedLoop_eq_ok`: when it succeeds.
-/

namespace Zallet.Common.Panics

open Zallet.Common.Loop

inductive Stopped (ε : Type)
  | Error (e : ε)
  | Panic (message : String)
  deriving DecidableEq

variable {ε α β : Type}

/-- The computation does not panic, and its value satisfies `P`. -/
def Completes (P : α → Prop) : Except (Stopped ε) α → Prop
  | .ok a => P a
  | .error (.Error _) => True
  | .error (.Panic _) => False

theorem completes_iff {P : α → Prop} {x : Except (Stopped ε) α} :
    Completes P x ↔ (∀ message, x ≠ .error (.Panic message)) ∧ ∀ a, x = .ok a → P a := by
  rcases x with (e | message) | a
  · simp [Completes]
  · simp [Completes]
  · simp [Completes]

/-- The computation does not panic. -/
abbrev NoPanic (x : Except (Stopped ε) α) : Prop := Completes (fun _ => True) x

theorem completes_iff_noPanic {P : α → Prop} {x : Except (Stopped ε) α} :
    Completes P x ↔ NoPanic x ∧ ∀ a, x = .ok a → P a := by
  rcases x with (e | message) | a
  · simp [Completes]
  · simp [Completes]
  · simp [Completes]

theorem completes_bind {P : β → Prop} {x : Except (Stopped ε) α} {f : α → Except (Stopped ε) β} :
    Completes P (x >>= f) ↔ Completes (fun a => Completes P (f a)) x := by
  rcases x with (e | message) | a
  · rfl
  · rfl
  · rfl

theorem completes_bind_iff {P : β → Prop} {x : Except (Stopped ε) α} {f : α → Except (Stopped ε) β} :
    Completes P (x >>= f) ↔ NoPanic x ∧ ∀ a, x = .ok a → Completes P (f a) := by
  rw [completes_bind, completes_iff_noPanic]

/-- A computation whose errors are all given to the caller. -/
theorem noPanic_mapError (x : Except ε α) : NoPanic (x.mapError Stopped.Error) := by
  cases x with
  | ok a => trivial
  | error e => trivial

/-- The computation does not panic exactly if `clear` holds, and then succeeds exactly if
    `answered` does. -/
structure Ends (x : Except (Stopped ε) α) (clear answered : Prop) : Prop where
  noPanic_iff : NoPanic x ↔ clear
  isOk_iff : (∃ a, x = .ok a) ↔ clear ∧ answered

theorem Ends.ok (a : α) : Ends (.ok a : Except (Stopped ε) α) True True :=
  ⟨iff_of_true trivial trivial, iff_of_true ⟨a, rfl⟩ ⟨trivial, trivial⟩⟩

theorem Ends.congr {x : Except (Stopped ε) α} {clear answered clear' answered' : Prop}
    (h : Ends x clear answered) (hclear : clear ↔ clear') (hanswered : answered ↔ answered') :
    Ends x clear' answered' :=
  ⟨h.noPanic_iff.trans hclear, h.isOk_iff.trans (and_congr hclear hanswered)⟩

theorem Ends.mapError {x : Except ε α} {answered : Prop} (h : (∃ a, x = .ok a) ↔ answered) :
    Ends (x.mapError Stopped.Error) True answered := by
  refine ⟨iff_of_true (noPanic_mapError x) trivial, ?_⟩
  simp only [mapError_eq_ok, h, true_and]

/-- What follows runs only if the first computation succeeds. -/
theorem Ends.bind {x : Except (Stopped ε) α} {f : α → Except (Stopped ε) β}
    {clear answered clear' answered' : Prop} (hx : Ends x clear answered)
    (hf : ∀ a, x = .ok a → Ends (f a) clear' answered') :
    Ends (x >>= f) (clear ∧ (answered → clear')) (answered ∧ answered') := by
  constructor
  · refine completes_bind_iff.trans ?_
    rw [hx.noPanic_iff]
    refine and_congr_right fun hclear => ?_
    constructor
    · intro h hanswered
      obtain ⟨a, ha⟩ := hx.isOk_iff.mpr ⟨hclear, hanswered⟩
      exact (hf a ha).noPanic_iff.mp (h a ha)
    · intro h a ha
      exact (hf a ha).noPanic_iff.mpr (h (hx.isOk_iff.mp ⟨a, ha⟩).2)
  · constructor
    · rintro ⟨b, hb⟩
      obtain ⟨a, ha, hb⟩ := bind_eq_ok.mp hb
      obtain ⟨hclear, hanswered⟩ := hx.isOk_iff.mp ⟨a, ha⟩
      obtain ⟨hclear', hanswered'⟩ := (hf a ha).isOk_iff.mp ⟨b, hb⟩
      exact ⟨⟨hclear, fun _ => hclear'⟩, hanswered, hanswered'⟩
    · rintro ⟨⟨hclear, hnext⟩, hanswered, hanswered'⟩
      obtain ⟨a, ha⟩ := hx.isOk_iff.mpr ⟨hclear, hanswered⟩
      obtain ⟨b, hb⟩ := (hf a ha).isOk_iff.mpr ⟨hnext hanswered, hanswered'⟩
      exact ⟨b, bind_eq_ok.mpr ⟨a, ha, hb⟩⟩

/-- When the values are right as well, given when a value is. -/
theorem Ends.completes_iff {x : Except (Stopped ε) α} {clear answered right : Prop}
    {P : α → Prop} (hx : Ends x clear answered) (hP : ∀ a, x = .ok a → (P a ↔ right)) :
    Completes P x ↔ clear ∧ (answered → right) := by
  rw [completes_iff_noPanic, hx.noPanic_iff]
  refine and_congr_right fun hclear => ?_
  constructor
  · intro h hanswered
    obtain ⟨a, ha⟩ := hx.isOk_iff.mpr ⟨hclear, hanswered⟩
    exact (hP a ha).mp (h a ha)
  · intro h a ha
    exact (hP a ha).mpr (h (hx.isOk_iff.mp ⟨a, ha⟩).2)

theorem noPanic_collect_cons {f : α → Except (Stopped ε) (List β)} {a : α} {l : List α} :
    NoPanic (collect f (a :: l)) ↔
      NoPanic (f a) ∧ ((∃ bs, f a = .ok bs) → NoPanic (collect f l)) := by
  refine completes_bind_iff.trans (and_congr_right fun _ => ?_)
  have hrest : ∀ found, NoPanic (collect f l >>= fun rest => .ok (found ++ rest)) ↔
      NoPanic (collect f l) := by
    intro found
    exact completes_bind_iff.trans (and_iff_left fun _ _ => trivial)
  simp only [hrest, forall_exists_index]

/-- What a loop over positions collects, where a turn yields at most one element: every
    element is the one of its position. -/
theorem mem_collect_zipIdx {f : α × ℕ → Except ε (List β)} {l : List α} {bs : List β}
    (h : collect f l.zipIdx = .ok bs) {b : β} :
    b ∈ bs ↔ ∃ a i found, l[i]? = some a ∧ f (a, i) = .ok found ∧ b ∈ found := by
  obtain ⟨g, hg, rfl⟩ := collect_eq_ok.mp h
  rw [List.mem_flatMap]
  constructor
  · rintro ⟨⟨a, i⟩, hmem, hb⟩
    exact ⟨a, i, g (a, i), List.mk_mem_zipIdx_iff_getElem?.mp hmem, hg _ hmem, hb⟩
  · rintro ⟨a, i, found, hget, hf, hb⟩
    have hmem := List.mk_mem_zipIdx_iff_getElem?.mpr hget
    obtain rfl := Except.ok.inj (hf.symm.trans (hg _ hmem))
    exact ⟨(a, i), hmem, hb⟩

/-- Elements that show their position are collected once. -/
theorem nodup_collect_zipIdx {κ : Type} {f : α × ℕ → Except ε (List β)} {l : List α} {bs : List β}
    (h : collect f l.zipIdx = .ok bs) {key : β → κ} {position : ℕ → κ}
    (hposition : Function.Injective position)
    (hf : ∀ a i found, l[i]? = some a → f (a, i) = .ok found →
      found = [] ∨ ∃ b, found = [b] ∧ key b = position i) :
    (bs.map key).Nodup := by
  obtain ⟨g, hg, rfl⟩ := collect_eq_ok.mp h
  have hturn : ∀ x ∈ l.zipIdx, g x = [] ∨ ∃ b, g x = [b] ∧ key b = position x.2 := by
    rintro ⟨a, i⟩ hmem
    exact hf a i _ (List.mk_mem_zipIdx_iff_getElem?.mp hmem) (hg _ hmem)
  rw [List.map_flatMap, List.nodup_flatMap]
  constructor
  · intro x hx
    rcases hturn x hx with hnil | ⟨b, hb, -⟩
    · rw [hnil]
      exact List.nodup_nil
    · rw [hb]
      exact List.nodup_singleton _
  · have hindices : (l.zipIdx.map Prod.snd).Nodup := by
      rw [List.zipIdx_map_snd]
      exact List.nodup_range'
    have hpairwise := List.pairwise_map.mp hindices
    refine hpairwise.imp_of_mem fun {x y} hx hy hne => ?_
    intro k hkx hky
    obtain ⟨b, hb, rfl⟩ := List.mem_map.mp hkx
    obtain ⟨b', hb', hkey⟩ := List.mem_map.mp hky
    rcases hturn x hx with hnil | ⟨c, hc, hpos⟩
    · rw [hnil] at hb
      cases hb
    rcases hturn y hy with hnil | ⟨c', hc', hpos'⟩
    · rw [hnil] at hb'
      cases hb'
    rw [hc, List.mem_singleton] at hb
    rw [hc', List.mem_singleton] at hb'
    subst hb
    subst hb'
    exact hne (hposition (hpos.symm.trans (hkey.symm.trans hpos')))

/-! ## Loops that count -/

theorem zipIdx_map_index {α β : Type} (l : List α) (g : ℕ → β) :
    (l.zipIdx.map fun a => g a.2) = (List.range l.length).map g := by
  have hsnd : l.zipIdx.map Prod.snd = List.range l.length := by
    rw [List.zipIdx_map_snd, ← List.range_eq_range']
  rw [← hsnd, List.map_map]
  rfl

/-- The loop over `zip(0u16..)`, with the counter from `n` on. The counter steps before what
    it yielded is used, and panics at its end in a build with overflow checks. -/
def countedLoop (overflowChecks : Bool) (f : α → UInt16 → Except (Stopped ε) β) :
    UInt16 → List α → Except (Stopped ε) (List β)
  | _, [] => .ok []
  | n, a :: l =>
    if overflowChecks && n == 65535 then .error (.Panic "attempt to add with overflow")
    else do
      let b ← f a n
      let rest ← countedLoop overflowChecks f (n + 1) l
      .ok (b :: rest)

variable {overflowChecks : Bool} {f : α → UInt16 → Except (Stopped ε) β}

/-- The loop succeeds where its turns do and the counter does not overflow; without the
    checks the counter wraps. -/
theorem countedLoop_eq_ok {l : List α} {k : ℕ} (hk : overflowChecks = true → k < 65536)
    {bs : List β} :
    countedLoop overflowChecks f (UInt16.ofNat k) l = .ok bs ↔
      (overflowChecks = true → k + l.length < 65536) ∧
        List.Forall₂ (fun a b => f a.1 (UInt16.ofNat a.2) = .ok b) (l.zipIdx k) bs := by
  induction l generalizing k bs with
  | nil =>
    simp only [countedLoop, List.zipIdx_nil, List.forall₂_nil_left_iff, Except.ok.injEq,
      List.length_nil, Nat.add_zero]
    exact ⟨fun h => ⟨hk, h.symm⟩, fun h => h.2.symm⟩
  | cons a l ih =>
    have hnext : UInt16.ofNat k + 1 = UInt16.ofNat (k + 1) := (UInt16.ofNat_add k 1).symm
    rw [countedLoop, hnext, List.zipIdx_cons, List.length_cons]
    by_cases hlast : (overflowChecks && UInt16.ofNat k == 65535) = true
    · rw [if_pos hlast]
      rw [Bool.and_eq_true, beq_iff_eq] at hlast
      obtain ⟨hchecks, hend⟩ := hlast
      have hnat : (UInt16.ofNat k).toNat = 65535 := congrArg UInt16.toNat hend
      rw [UInt16.toNat_ofNat', Nat.mod_eq_of_lt (hk hchecks)] at hnat
      refine iff_of_false (fun h => by cases h) fun h => ?_
      have hfits := h.1 hchecks
      omega
    · rw [if_neg hlast]
      have hk' : overflowChecks = true → k + 1 < 65536 := by
        intro hchecks
        have hlt := hk hchecks
        have hne : k ≠ 65535 := by
          rintro rfl
          exact hlast (by rw [hchecks]; rfl)
        omega
      simp only [bind_eq_ok, ih hk', Except.ok.injEq, List.forall₂_cons_left_iff]
      constructor
      · rintro ⟨b, hb, rest, ⟨hfits, hrest⟩, rfl⟩
        refine ⟨fun hchecks => ?_, b, rest, hb, hrest, rfl⟩
        have hlt := hfits hchecks
        omega
      · rintro ⟨hfits, b, rest, hb, hrest, rfl⟩
        refine ⟨b, hb, rest, ⟨fun hchecks => ?_, hrest⟩, rfl⟩
        have hlt := hfits hchecks
        omega

theorem countedLoop_zero_eq_ok {l : List α} {bs : List β} :
    countedLoop overflowChecks f 0 l = .ok bs ↔
      (overflowChecks = true → l.length < 65536) ∧
        List.Forall₂ (fun a b => f a.1 (UInt16.ofNat a.2) = .ok b) l.zipIdx bs := by
  rw [← Nat.zero_add l.length]
  exact countedLoop_eq_ok fun _ => by decide

/-- A loop whose turns only succeed or panic does so itself. -/
theorem noPanic_countedLoop {n : UInt16} {l : List α}
    (hf : ∀ a n, NoPanic (f a n) → ∃ b, f a n = .ok b) :
    NoPanic (countedLoop overflowChecks f n l) ↔
      ∃ bs, countedLoop overflowChecks f n l = .ok bs := by
  constructor
  · intro h
    induction l generalizing n with
    | nil => exact ⟨[], rfl⟩
    | cons a l ih =>
      rw [countedLoop] at h ⊢
      by_cases hlast : (overflowChecks && n == 65535) = true
      · rw [if_pos hlast] at h
        exact h.elim
      · rw [if_neg hlast] at h ⊢
        obtain ⟨hturn, hrest⟩ := completes_bind_iff.mp h
        obtain ⟨b, hb⟩ := hf a n hturn
        obtain ⟨rest, hrest⟩ := ih (completes_bind_iff.mp (hrest b hb)).1
        exact ⟨b :: rest, bind_eq_ok.mpr ⟨b, hb, bind_eq_ok.mpr ⟨rest, hrest, rfl⟩⟩⟩
  · rintro ⟨bs, h⟩
    rw [h]
    trivial

end Zallet.Common.Panics
