import Zallet.Effect.Hoare

/-!
# Interleaved programs

A pool runs one program for each index of `ι` over one shared world. One step
of the pool is one operation of one program, or one move of the environment,
so a reachable configuration is what any interleaving of the programs can
lead to.

`Pool.inv` is the rely-guarantee rule: if each program has a `wp` under its
own rely, and every operation of every other program (and the environment)
moves the world along that rely, then each program of a reachable
configuration still has its `wp`, up to one rely move. `Pool.performs` and
`Pool.returned` read off what this says about the operations performed and
the results, and `Pool.world_inv` is the rule of an invariant of the world;
`Pool.invariant` is the case where that invariant is all the programs rely on,
and `Pool.assume_inv` lets the programs assume it.

`Pool.execSchedule` executes the programs in a given order.

`Contract.observed` adds ghost state to a contract: what has happened so far,
as far as a property needs it.
-/

namespace Zallet.Effect

variable {S : Sig} {W ι α : Type} [DecidableEq ι]

/-- The programs of a pool and the world they share. -/
structure Pool (S : Sig) (W ι α : Type) where
  progs : ι → Prog S α
  world : W

namespace Pool

/-- One operation of one program, or one move of the environment. -/
inductive Step (C : ι → Contract S W) (env : W → W → Prop) : Pool S W ι α → Pool S W ι α → Prop
  | thread {c : Pool S W ι α} (i : ι) {o : S.Op} {k : S.Ret o → Prog S α} {r : S.Ret o} {w' : W} :
      c.progs i = .op o k → C i o c.world r w' →
      Step C env c ⟨Function.update c.progs i (k r), w'⟩
  | env {c : Pool S W ι α} {w' : W} : env c.world w' → Step C env c ⟨c.progs, w'⟩

/-- Any number of steps. -/
def Reach (C : ι → Contract S W) (env : W → W → Prop) : Pool S W ι α → Pool S W ι α → Prop :=
  Relation.ReflTransGen (Step C env)

variable {C : ι → Contract S W} {env : W → W → Prop} {rely : ι → W → W → Prop}
  {ok : ι → S.Op → W → Prop} {Q : ι → α → W → Prop}

/-- The rely-guarantee rule. -/
theorem inv (htrans : ∀ i w₁ w₂ w₃, rely i w₁ w₂ → rely i w₂ w₃ → rely i w₁ w₃)
    (hrefl : ∀ i w, rely i w w)
    (hguar : ∀ i j, i ≠ j → ∀ o w r w', ok j o w → C j o w r w' → rely i w w')
    (henv : ∀ i w w', env w w' → rely i w w')
    {c c' : Pool S W ι α} (hc : ∀ i, wp (C i) (rely i) (ok i) (Q i) (c.progs i) c.world)
    (h : Reach C env c c') (i : ι) :
    ∃ w, rely i w c'.world ∧ wp (C i) (rely i) (ok i) (Q i) (c'.progs i) w := by
  induction h generalizing i with
  | refl => exact ⟨c.world, hrefl i _, hc i⟩
  | @tail c₁ c₂ _ hstep ih =>
    cases hstep with
    | env he =>
      obtain ⟨w, hw, hwp⟩ := ih i
      exact ⟨w, htrans i _ _ _ hw (henv i _ _ he), hwp⟩
    | @thread j o k r w' hj hC =>
      obtain ⟨wj, hwj, hwpj⟩ := ih j
      rw [hj] at hwpj
      obtain ⟨hok, hk⟩ := hwpj c₁.world hwj
      by_cases hij : i = j
      · subst hij
        refine ⟨w', hrefl i w', ?_⟩
        simpa using hk r w' hC
      · obtain ⟨w, hw, hwp⟩ := ih i
        refine ⟨w, htrans i _ _ _ hw (hguar i j hij o _ r w' hok hC), ?_⟩
        simpa [Function.update_of_ne hij] using hwp

/-- An invariant of the shared world: kept by every operation that is
    performed and by the environment, it holds in every reachable
    configuration. -/
theorem world_inv (htrans : ∀ i w₁ w₂ w₃, rely i w₁ w₂ → rely i w₂ w₃ → rely i w₁ w₃)
    (hrefl : ∀ i w, rely i w w)
    (hguar : ∀ i j, i ≠ j → ∀ o w r w', ok j o w → C j o w r w' → rely i w w')
    (henv : ∀ i w w', env w w' → rely i w w') {I : W → Prop}
    (hI : ∀ i o w r w', ok i o w → C i o w r w' → I w → I w')
    (hIenv : ∀ w w', env w w' → I w → I w')
    {c c' : Pool S W ι α} (hc : ∀ i, wp (C i) (rely i) (ok i) (Q i) (c.progs i) c.world)
    (hI₀ : I c.world) (h : Reach C env c c') : I c'.world := by
  induction h with
  | refl => exact hI₀
  | @tail c₁ c₂ hr hstep ih =>
    cases hstep with
    | env he => exact hIenv _ _ he ih
    | @thread j o k r w' hj hC =>
      obtain ⟨w, hw, hwp⟩ := inv htrans hrefl hguar henv hc hr j
      rw [hj] at hwp
      exact hI j o _ r w' (hwp _ hw).1 hC ih

omit [DecidableEq ι] in
/-- Every operation a program of a reachable configuration is about to
    perform satisfies that program's `ok` in the current world. -/
theorem performs {c' : Pool S W ι α} {i : ι} {o : S.Op} {k : S.Ret o → Prog S α}
    (h : ∃ w, rely i w c'.world ∧ wp (C i) (rely i) (ok i) (Q i) (c'.progs i) w)
    (ho : c'.progs i = .op o k) : ok i o c'.world := by
  obtain ⟨w, hw, hwp⟩ := h
  rw [ho] at hwp
  exact (hwp _ hw).1

omit [DecidableEq ι] in
/-- A program that has returned did so with its postcondition. -/
theorem returned {c' : Pool S W ι α} {i : ι} {a : α}
    (h : ∃ w, rely i w c'.world ∧ wp (C i) (rely i) (ok i) (Q i) (c'.progs i) w)
    (ha : c'.progs i = .pure a) : ∃ w, rely i w c'.world ∧ Q i a w := by
  obtain ⟨w, hw, hwp⟩ := h
  rw [ha] at hwp
  exact ⟨w, hw, hwp⟩

/-- The case where all that the programs rely on is an invariant of the
    world. -/
theorem invariant {I : W → Prop} (hI : ∀ i o w r w', ok i o w → C i o w r w' → I w → I w')
    (henv : ∀ w w', env w w' → I w → I w') {c c' : Pool S W ι α}
    (hc : ∀ i, wp (C i) (fun w w' => I w → I w') (ok i) (Q i) (c.progs i) c.world)
    (hI₀ : I c.world) (h : Reach C env c c') :
    I c'.world ∧ (∀ i o, (c'.progs i).next = some o → ok i o c'.world) ∧
      ∀ i a, (c'.progs i).result = some a → ∃ w, Q i a w := by
  have htrans : ∀ (_ : ι) (w₁ w₂ w₃ : W), (I w₁ → I w₂) → (I w₂ → I w₃) → I w₁ → I w₃ :=
    fun _ _ _ _ h₁ h₂ h => h₂ (h₁ h)
  have hguar : ∀ i j : ι, i ≠ j → ∀ o w r w', ok j o w → C j o w r w' → I w → I w' :=
    fun _ j _ => hI j
  have hinv := inv htrans (fun _ _ => id) hguar (fun _ => henv) hc h
  refine ⟨world_inv htrans (fun _ _ => id) hguar (fun _ => henv) hI henv hc hI₀ h, ?_, ?_⟩
  · intro i o ho
    obtain ⟨k, hk⟩ := Prog.next_eq_some.mp ho
    obtain ⟨w, hw, hwp⟩ := hinv i
    rw [hk] at hwp
    exact (hwp _ hw).1
  · intro i a ha
    obtain ⟨w, -, hwp⟩ := hinv i
    rw [Prog.result_eq_some.mp ha] at hwp
    exact ⟨w, hwp⟩

/-- The case where the programs may also assume the invariant at each of their
    operations. -/
theorem assume_inv (htrans : ∀ i w₁ w₂ w₃, rely i w₁ w₂ → rely i w₂ w₃ → rely i w₁ w₃)
    (hrefl : ∀ i w, rely i w w)
    (hguar : ∀ i j, i ≠ j → ∀ o w r w', ok j o w → C j o w r w' → rely i w w')
    (henv : ∀ i w w', env w w' → rely i w w') {I : W → Prop}
    (hI : ∀ i o w r w', ok i o w → C i o w r w' → I w → I w')
    (hIenv : ∀ w w', env w w' → I w → I w') {c c' : Pool S W ι α}
    (hc : ∀ i, wp ((C i).restrict fun _ w _ => I w) (rely i) (ok i) (Q i) (c.progs i) c.world)
    (hI₀ : I c.world) (h : Reach C env c c') :
    I c'.world ∧ ∀ i, ∃ w, rely i w c'.world ∧
      wp ((C i).restrict fun _ w _ => I w) (rely i) (ok i) (Q i) (c'.progs i) w := by
  have hguar' : ∀ i j, i ≠ j → ∀ o w r w', ok j o w →
      (C j).restrict (fun _ w _ => I w) o w r w' → rely i w w' :=
    fun i j hij o w r w' hok hC => hguar i j hij o w r w' hok hC.1
  -- the invariant holds along the run, so the run is one of the restricted programs
  suffices hrun : I c'.world ∧ Reach (fun i => (C i).restrict fun _ w _ => I w) env c c' from
    ⟨hrun.1, inv htrans hrefl hguar' henv hc hrun.2⟩
  induction h with
  | refl => exact ⟨hI₀, .refl⟩
  | @tail c₁ c₂ _ hstep ih =>
    obtain ⟨hI₁, hr⟩ := ih
    cases hstep with
    | env he => exact ⟨hIenv _ _ he hI₁, hr.tail (.env he)⟩
    | @thread j o k r w' hj hC =>
      obtain ⟨w, hw, hwp⟩ := inv htrans hrefl hguar' henv hc hr j
      rw [hj] at hwp
      exact ⟨hI j o _ r w' (hwp _ hw).1 hC hI₁, hr.tail (.thread j hj ⟨hC, hI₁⟩)⟩

/-- A program that has returned stays as it is. -/
theorem Reach.returned {c c' : Pool S W ι α} (h : Reach C env c c') {i : ι} {a : α}
    (ha : c.progs i = .pure a) : c'.progs i = .pure a := by
  induction h with
  | refl => exact ha
  | tail _ hstep ih =>
    cases hstep with
    | env _ => exact ih
    | @thread j o k r w' hj _ =>
      have hij : i ≠ j := by
        intro hij
        rw [hij, hj] at ih
        cases ih
      exact (Function.update_of_ne hij _ _).trans ih

/-- A run of one program alone is a run of the pool. -/
theorem reach_of_reaches {i : ι} {p q : Prog S α} {w w' : W} {τ : List (Event S)}
    (h : Reaches (C i) p w τ q w') :
    ∀ progs : ι → Prog S α, progs i = p →
      Reach C env ⟨progs, w⟩ ⟨Function.update progs i q, w'⟩ := by
  induction h with
  | refl p w =>
    intro progs hp
    have : Function.update progs i p = progs := by rw [← hp, Function.update_eq_self]
    rw [this]
    exact .refl
  | @step o k w w₁ w₂ r τ q hC _ ih =>
    intro progs hp
    have h₁ : Step C env ⟨progs, w⟩ ⟨Function.update progs i (k r), w₁⟩ := .thread i hp hC
    have h₂ := ih (Function.update progs i (k r)) (Function.update_self ..)
    rw [Function.update_idem] at h₂
    exact .head h₁ h₂

/-- One operation of program `i`, performed by its handler; nothing happens where the
    program has returned or the operation does not answer. -/
def execStep (h : ι → Handler S W) (i : ι) (c : Pool S W ι α) : Pool S W ι α :=
  match c.progs i with
  | .pure _ => c
  | .op o k =>
    match h i o c.world with
    | none => c
    | some (r, w') => ⟨Function.update c.progs i (k r), w'⟩

/-- The programs take turns as a schedule says. -/
def execSchedule (h : ι → Handler S W) : List ι → Pool S W ι α → Pool S W ι α
  | [], c => c
  | i :: rest, c => execSchedule h rest (execStep h i c)

theorem execStep_reach {h : ι → Handler S W} (hC : ∀ i, (h i).Keeps (C i) id) (i : ι)
    (c : Pool S W ι α) : Reach C env c (execStep h i c) := by
  unfold execStep
  split
  · exact .refl
  · rename_i o k hi
    split
    · exact .refl
    · rename_i r w' hanswer
      exact .single (.thread i hi (hC i o c.world r w' hanswer))

/-- Handlers that keep the contracts lead to reachable configurations only. -/
theorem execSchedule_reach {h : ι → Handler S W} (hC : ∀ i, (h i).Keeps (C i) id) (l : List ι)
    (c : Pool S W ι α) : Reach C env c (execSchedule h l c) := by
  induction l generalizing c with
  | nil => exact .refl
  | cons i rest ih => exact (execStep_reach hC i c).trans (ih _)

end Pool

/-! ## Ghost state -/

variable {G : Type}

/-- `C` with a component `G` of the world that no program reads: `D` says how
    each operation changes it. -/
def Contract.observed (C : Contract S W) (D : (o : S.Op) → W → S.Ret o → W → G → G) :
    Contract S (W × G) :=
  fun o w r w' => C o w.1 r w'.1 ∧ w'.2 = D o w.1 r w'.1 w.2

/-- Every run can be observed. -/
theorem Reaches.observed {C : Contract S W} (D : (o : S.Op) → W → S.Ret o → W → G → G)
    {p q : Prog S α} {w w' : W} {τ : List (Event S)} (h : Reaches C p w τ q w') (g : G) :
    ∃ g', Reaches (C.observed D) p (w, g) τ q (w', g') := by
  induction h generalizing g with
  | refl p w => exact ⟨g, .refl p (w, g)⟩
  | @step o k w w₁ w₂ r τ q hC _ ih =>
    obtain ⟨g', hr⟩ := ih (D o w r w₁ g)
    have hobs : C.observed D o (w, g) r (w₁, D o w r w₁ g) := ⟨hC, rfl⟩
    exact ⟨g', .step hobs hr⟩

end Zallet.Effect
