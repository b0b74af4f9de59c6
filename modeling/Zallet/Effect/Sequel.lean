import Zallet.Effect.Hoare

/-!
# What follows an answer

A `Sequel` is a requirement on the rest of a program after an operation has
been answered, such as that an error is passed on at once. It has to be kept
when the program becomes the first part of a larger one.

`Obeys R p` says that in `p` every answer is followed by what `R` requires. It
is proved part by part, and `Obeys.rest_of_run` reads it off a run: what a trace
has after an event is a run of a program that satisfies the requirement.
-/

namespace Zallet.Effect

variable {S : Sig} {W : Type} {α β ε : Type} {C : Contract S W}

/-- Programs with errors are put together in any grouping. -/
theorem bindE_assoc {γ : Type} (p : ExceptT ε (Prog S) α) (f : α → ExceptT ε (Prog S) β)
    (g : β → ExceptT ε (Prog S) γ) : p >>= f >>= g = p >>= fun a => f a >>= g := by
  have h : ∀ q : Prog S (Except ε α),
      (ExceptT.mk q >>= f >>= g).run = (ExceptT.mk q >>= fun a => f a >>= g).run := by
    intro q
    induction q with
    | pure r =>
      cases r with
      | ok a => rfl
      | error e => rfl
    | op o k ih =>
      show Prog.op o _ = Prog.op o _
      congr 1
      funext r
      exact ih r
  exact h p

/-- A requirement on the rest of a program after an event. -/
structure Sequel (S : Sig) (ε : Type) where
  rest : {α : Type} → Event S → ExceptT ε (Prog S) α → Prop
  bind : ∀ {α β : Type} {ev : Event S} {p : ExceptT ε (Prog S) α}
    (f : α → ExceptT ε (Prog S) β), rest ev p → rest ev (p >>= f)

/-- Every answer is followed by what `R` requires. -/
def Sequel.Obeyed (R : Sequel S ε) : Prog S (Except ε α) → Prop
  | .pure _ => True
  | .op o k => ∀ r, R.rest ⟨o, r⟩ (ExceptT.mk (k r)) ∧ R.Obeyed (k r)

/-- Every answer that `p` is given is followed by what `R` requires. -/
def Obeys (R : Sequel S ε) (p : ExceptT ε (Prog S) α) : Prop := R.Obeyed p.run

namespace Obeys

variable {R : Sequel S ε}

theorem ofOutcome (r : Except ε α) : Obeys R (Effect.ofOutcome r : ExceptT ε (Prog S) α) := trivial

theorem pure (a : α) : Obeys R (Pure.pure a : ExceptT ε (Prog S) α) := trivial

theorem throw (e : ε) : Obeys R (throw e : ExceptT ε (Prog S) α) := trivial

theorem bind {p : ExceptT ε (Prog S) α} {f : α → ExceptT ε (Prog S) β} (hp : Obeys R p)
    (hf : ∀ a, Obeys R (f a)) : Obeys R (p >>= f) := by
  have h : ∀ q : Prog S (Except ε α), R.Obeyed q → Obeys R (ExceptT.mk q >>= f) := by
    intro q
    induction q with
    | pure r =>
      intro _
      cases r with
      | ok a => exact hf a
      | error e => trivial
    | op o k ih =>
      intro hq r
      exact ⟨R.bind f (hq r).1, ih r (hq r).2⟩
  exact h p hp

/-- One operation whose answer becomes the outcome `f r`. -/
theorem call {o : S.Op} {f : S.Ret o → Except ε α}
    (h : ∀ r, R.rest ⟨o, r⟩ (Effect.ofOutcome (f r) : ExceptT ε (Prog S) α)) :
    Obeys R (ExceptT.mk (f <$> Prog.call o)) := fun r => ⟨h r, trivial⟩

/-- One operation and what is done with its outcome, which may have to follow
    at once. -/
theorem call_bind {o : S.Op} {f : S.Ret o → Except ε α} {g : α → ExceptT ε (Prog S) β}
    (h : ∀ r, R.rest ⟨o, r⟩ (Effect.ofOutcome (f r) >>= g)) (hg : ∀ a, Obeys R (g a)) :
    Obeys R (ExceptT.mk (f <$> Prog.call o) >>= g) := by
  intro r
  exact ⟨h r, (ofOutcome (f r)).bind hg⟩

/-- What a run does after an event is a run of a program that satisfies the
    requirement. -/
theorem rest_of_run {p : ExceptT ε (Prog S) α} (hp : Obeys R p) {w w' : W}
    {τ₀ τ₁ : List (Event S)} {ev : Event S} {r : Except ε α}
    (h : Run C p.run w (τ₀ ++ ev :: τ₁) r w') :
    ∃ (q : ExceptT ε (Prog S) α) (w₁ : W), R.rest ev q ∧ Run C q.run w₁ τ₁ r w' := by
  have hrun : ∀ (q : Prog S (Except ε α)) (τ₀ : List (Event S)) (w : W), R.Obeyed q →
      Run C q w (τ₀ ++ ev :: τ₁) r w' →
        ∃ (q : ExceptT ε (Prog S) α) (w₁ : W), R.rest ev q ∧ Run C q.run w₁ τ₁ r w' := by
    intro q
    induction q with
    | pure a =>
      intro τ₀ w _ h
      obtain ⟨hτ, -, -⟩ := run_pure.mp h
      simp at hτ
    | op o k ih =>
      intro τ₀ w hq h
      obtain ⟨a, w₁, τ, hτ, -, hk⟩ := run_op.mp h
      cases τ₀ with
      | nil =>
        obtain ⟨rfl, rfl⟩ := List.cons.inj hτ
        exact ⟨ExceptT.mk (k a), w₁, (hq a).1, hk⟩
      | cons first τ₀ =>
        obtain ⟨-, rfl⟩ := List.cons.inj hτ
        exact ih a τ₀ w₁ (hq a).2 hk
  exact hrun p.run τ₀ w hp h

end Obeys

end Zallet.Effect
