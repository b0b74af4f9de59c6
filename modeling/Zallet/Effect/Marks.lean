import Zallet.Effect.Hoare

/-!
# Marks

A mark notes what a program does with a value between two operations.
`Sig.marked S M` adds marks of type `M` to the operations of `S`, and
`Contract.marked C` keeps those made so far beside the world, so that a
postcondition can speak about them.

* `Prog.embed` reads a program as one without marks, `Prog.erase` takes the
  marks out of a program.
* `run_erase_iff`: a program with marks has the runs of the program without
  them.
* `wpE_mark` and `wpE_embed` are the rules.
-/

namespace Zallet.Effect

variable {S : Sig} {M W : Type} {α β ε : Type}

/-- An operation, or a mark. -/
inductive MarkedOp (S : Sig) (M : Type)
  | op (o : S.Op)
  | mark (m : M)

@[reducible] def MarkedOp.Ret : MarkedOp S M → Type
  | .op o => S.Ret o
  | .mark _ => Unit

@[reducible] def Sig.marked (S : Sig) (M : Type) : Sig := ⟨MarkedOp S M, MarkedOp.Ret⟩

/-- The contract `C` on worlds with the marks made so far. -/
def Contract.marked (C : Contract S W) : Contract (S.marked M) (W × List M)
  | .op o => fun w r w' => C o w.1 r w'.1 ∧ w'.2 = w.2
  | .mark m => fun w _ w' => w'.1 = w.1 ∧ w'.2 = w.2 ++ [m]

namespace Prog

/-- A program that makes no marks. -/
def embed : Prog S α → Prog (S.marked M) α
  | .pure a => .pure a
  | .op o k => .op (.op o) fun r => (k r).embed

/-- The program without its marks. -/
def erase : Prog (S.marked M) α → Prog S α
  | .pure a => .pure a
  | .op (.op o) k => .op o fun r => (k r).erase
  | .op (.mark _) k => (k ()).erase

@[simp] theorem erase_embed (p : Prog S α) : (p.embed : Prog (S.marked M) α).erase = p := by
  induction p with
  | pure a => rfl
  | op o k ih => exact congrArg (Prog.op o) (funext ih)

theorem erase_bind (p : Prog (S.marked M) α) (f : α → Prog (S.marked M) β) :
    (p >>= f).erase = p.erase >>= fun a => (f a).erase := by
  induction p with
  | pure a => rfl
  | op o k ih =>
    cases o with
    | op o => exact congrArg (Prog.op o) (funext ih)
    | mark m => exact ih ()

end Prog

/-! ## Programs with errors -/

/-- A program that makes no marks. -/
def embedE (p : ExceptT ε (Prog S) α) : ExceptT ε (Prog (S.marked M)) α :=
  ExceptT.mk p.run.embed

/-- The program without its marks. -/
def eraseE (p : ExceptT ε (Prog (S.marked M)) α) : ExceptT ε (Prog S) α :=
  ExceptT.mk p.run.erase

/-- Make a mark. -/
def mark (m : M) : ExceptT ε (Prog (S.marked M)) Unit :=
  ExceptT.mk (.op (.mark m) fun _ => .pure (.ok ()))

@[simp] theorem pureE_bind (a : α) (f : α → ExceptT ε (Prog S) β) :
    (pure a : ExceptT ε (Prog S) α) >>= f = f a := rfl

@[simp] theorem eraseE_embedE (p : ExceptT ε (Prog S) α) :
    eraseE (embedE p : ExceptT ε (Prog (S.marked M)) α) = p :=
  Prog.erase_embed p.run

@[simp] theorem eraseE_mark (m : M) :
    eraseE (mark m : ExceptT ε (Prog (S.marked M)) Unit) = pure () := rfl

@[simp] theorem eraseE_pure (a : α) :
    eraseE (pure a : ExceptT ε (Prog (S.marked M)) α) = pure a := rfl

@[simp] theorem eraseE_ofOutcome (e : Except ε α) :
    eraseE (ofOutcome e : ExceptT ε (Prog (S.marked M)) α) = ofOutcome e := rfl

@[simp] theorem eraseE_bind (p : ExceptT ε (Prog (S.marked M)) α)
    (f : α → ExceptT ε (Prog (S.marked M)) β) :
    eraseE (p >>= f) = eraseE p >>= fun a => eraseE (f a) := by
  refine (Prog.erase_bind p.run _).trans ?_
  refine congrArg (p.run.erase >>= ·) (funext fun r => ?_)
  cases r with
  | ok a => rfl
  | error e => rfl

/-! ## Runs -/

variable {C : Contract S W}

/-- Marks neither add runs nor take runs away. -/
theorem run_erase_iff {p : Prog (S.marked M) α} {w w' : W} {l : List M} {a : α} :
    (∃ τ, Run C p.erase w τ a w') ↔ ∃ τ l', Run C.marked p (w, l) τ a (w', l') := by
  induction p generalizing w l with
  | pure b =>
    simp only [Prog.erase, run_pure, Prod.mk.injEq]
    constructor
    · rintro ⟨τ, rfl, rfl, rfl⟩
      exact ⟨[], l, rfl, rfl, rfl, rfl⟩
    · rintro ⟨τ, l', rfl, rfl, rfl, rfl⟩
      exact ⟨[], rfl, rfl, rfl⟩
  | op o k ih =>
    cases o with
    | op o =>
      simp only [Prog.erase, run_op]
      constructor
      · rintro ⟨τ, r, w₁, τ', rfl, hC, hrun⟩
        obtain ⟨τ₁, l', hrun⟩ := (ih r).mp ⟨τ', hrun⟩
        exact ⟨_, l', r, (w₁, l), τ₁, rfl, ⟨hC, rfl⟩, hrun⟩
      · rintro ⟨τ, l', r, ⟨w₁, l₁⟩, τ', rfl, ⟨hC, rfl⟩, hrun⟩
        obtain ⟨τ₁, hrun⟩ := (ih r).mpr ⟨τ', l', hrun⟩
        exact ⟨_, r, w₁, τ₁, rfl, hC, hrun⟩
    | mark m =>
      simp only [Prog.erase, run_op]
      constructor
      · intro hrun
        obtain ⟨τ₁, l', hrun⟩ := (ih ()).mp hrun
        exact ⟨_, l', (), (w, l ++ [m]), τ₁, rfl, ⟨rfl, rfl⟩, hrun⟩
      · rintro ⟨τ, l', r, ⟨w₁, l₁⟩, τ', rfl, ⟨hw, rfl⟩, hrun⟩
        cases hw
        exact (ih r).mpr ⟨τ', l', hrun⟩

/-- A run of a program that makes no marks. -/
theorem run_embedE {p : ExceptT ε (Prog S) α} {w w' : W} {l : List M} {τ : List (Event S)}
    {r : Except ε α} (h : Run C p.run w τ r w') :
    ∃ τ', Run C.marked (embedE p).run (w, l) τ' r (w', l) := by
  unfold embedE
  generalize p.run = q at h
  induction q generalizing w τ with
  | pure b =>
    obtain ⟨-, rfl, rfl⟩ := run_pure.mp h
    exact ⟨[], .refl _ _⟩
  | op o k ih =>
    obtain ⟨a, w₁, τ', -, hC, hrun⟩ := run_op.mp h
    obtain ⟨τ'', hrun⟩ := ih a hrun
    have hstep : C.marked (.op o) (w, l) a (w₁, l) := ⟨hC, rfl⟩
    exact ⟨⟨.op o, a⟩ :: τ'', .step hstep hrun⟩

theorem run_mark (m : M) (w : W) (l : List M) :
    Run C.marked (mark m : ExceptT ε (Prog (S.marked M)) Unit).run (w, l) [⟨.mark m, ()⟩] (.ok ())
      (w, l ++ [m]) := by
  have hstep : C.marked (.mark m) (w, l) () (w, l ++ [m]) := ⟨rfl, rfl⟩
  exact .step hstep (.refl _ _)

/-! ## The rules -/

theorem wpE_mark {Q : Except ε Unit → W × List M → Prop} {m : M} {w : W} {l : List M} :
    wpE C.marked Eq (fun _ _ => True) Q (mark m) (w, l) ↔ Q (.ok ()) (w, l ++ [m]) := by
  constructor
  · intro h
    exact (h (w, l) rfl).2 () (w, l ++ [m]) ⟨rfl, rfl⟩
  · rintro h ⟨w₁, l₁⟩ hw
    cases hw
    refine ⟨trivial, ?_⟩
    rintro r ⟨w₂, l₂⟩ ⟨hw₂, hl₂⟩
    cases hw₂
    cases hl₂
    exact h

/-- A program without marks leaves them as they are. -/
theorem wpE_embed {Q : Except ε α → W × List M → Prop} {p : ExceptT ε (Prog S) α} {w : W}
    {l : List M} (h : wpE C Eq (fun _ _ => True) (fun r w' => Q r (w', l)) p w) :
    wpE C.marked Eq (fun _ _ => True) Q (embedE p) (w, l) := by
  unfold wpE embedE at *
  generalize p.run = q at h
  induction q generalizing w with
  | pure r => exact h
  | op o k ih =>
    rintro ⟨w₁, l₁⟩ hw
    cases hw
    refine ⟨trivial, ?_⟩
    rintro r ⟨w₂, l₂⟩ ⟨hC, hl₂⟩
    cases hl₂
    exact ih r ((h w rfl).2 r w₂ hC)

end Zallet.Effect
