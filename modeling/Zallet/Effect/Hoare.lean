import Zallet.Effect.Prog

/-!
# Preconditions of effectful programs

`wp C rely ok Q p w` says that program `p`, started in `w` under the contract
`C`, is safe and correct: every operation it comes to perform satisfies `ok`
in the world it is performed in, and if it returns, `Q` holds of the result.
Before each operation the environment may move the world along `rely`; for a
program that runs alone `rely` is equality (`wp_call_alone`).

The rules follow the syntax: `wp_pure`, `wp_bind`, `wp_call` for programs, and
`wpE_pure`, `wpE_throw`, `wpE_bind`, `wpE_lift`, `wpE_attempt` for programs
that may also end with an error (`ExceptT ε (Prog S)`), which is how fallible
code reads. `wpE_turns` is the rule of a loop with an invariant.

`wp_performs` and `wp_run` are what a `wp` says about the runs of a program
that runs alone.

`Within B p` bounds the operations and the errors of `p` without looking at
the world; by `wpE_of_within` such a program keeps every invariant that those
operations keep. `Sustains` is a `wp` whose precondition holds again between
any two parts of a program.
-/

namespace Zallet.Effect

variable {S : Sig} {W : Type} {α β γ ε : Type}

/-- `p`, started in `w` in an environment that moves the world along `rely`
    between operations, performs only operations that satisfy `ok`, and
    returns only with `Q`. -/
def wp (C : Contract S W) (rely : W → W → Prop) (ok : S.Op → W → Prop) (Q : α → W → Prop) :
    Prog S α → W → Prop
  | .pure a, w => Q a w
  | .op o k, w => ∀ w₁, rely w w₁ → ok o w₁ ∧ ∀ r w₂, C o w₁ r w₂ → wp C rely ok Q (k r) w₂

variable {C : Contract S W} {rely : W → W → Prop} {ok : S.Op → W → Prop}

@[simp] theorem wp_pure {Q : α → W → Prop} (a : α) (w : W) :
    wp C rely ok Q (pure a) w ↔ Q a w := Iff.rfl

theorem wp_op {Q : α → W → Prop} (o : S.Op) (k : S.Ret o → Prog S α) (w : W) :
    wp C rely ok Q (.op o k) w ↔
      ∀ w₁, rely w w₁ → ok o w₁ ∧ ∀ r w₂, C o w₁ r w₂ → wp C rely ok Q (k r) w₂ := Iff.rfl

@[simp] theorem wp_call {o : S.Op} {Q : S.Ret o → W → Prop} {w : W} :
    wp C rely ok Q (Prog.call o) w ↔
      ∀ w₁, rely w w₁ → ok o w₁ ∧ ∀ r w₂, C o w₁ r w₂ → Q r w₂ := Iff.rfl

@[simp] theorem wp_bind {Q : β → W → Prop} (p : Prog S α) (f : α → Prog S β) (w : W) :
    wp C rely ok Q (p >>= f) w ↔ wp C rely ok (fun a w' => wp C rely ok Q (f a) w') p w := by
  induction p generalizing w with
  | pure a => rfl
  | op o k ih => simp only [Prog.op_bind', wp_op, ih]

@[simp] theorem wp_map {Q : β → W → Prop} (f : α → β) (p : Prog S α) (w : W) :
    wp C rely ok Q (f <$> p) w ↔ wp C rely ok (fun a w' => Q (f a) w') p w := by
  induction p generalizing w with
  | pure a => rfl
  | op o k ih =>
    change wp C rely ok Q (.op o fun r => f <$> k r) w ↔ _
    simp only [wp_op, ih]

theorem wp_mono {ok' : S.Op → W → Prop} {Q Q' : α → W → Prop} {p : Prog S α} {w : W}
    (h : wp C rely ok Q p w) (hok : ∀ o w, ok o w → ok' o w) (hQ : ∀ a w, Q a w → Q' a w) :
    wp C rely ok' Q' p w := by
  induction p generalizing w with
  | pure a => exact hQ a w h
  | op o k ih =>
    intro w₁ hw
    obtain ⟨ho, hk⟩ := h w₁ hw
    exact ⟨hok o w₁ ho, fun r w₂ hr => ih r (hk r w₂ hr)⟩

theorem wp_post {Q Q' : α → W → Prop} {p : Prog S α} {w : W} (h : wp C rely ok Q p w)
    (hQ : ∀ a w, Q a w → Q' a w) : wp C rely ok Q' p w :=
  wp_mono h (fun _ _ h => h) hQ

/-- Without anything to show, every program does. -/
theorem wp_trivial (p : Prog S α) (w : W) :
    wp C rely (fun _ _ => True) (fun _ _ => True) p w := by
  induction p generalizing w with
  | pure a => trivial
  | op o k ih => exact fun w₁ _ => ⟨trivial, fun r w₂ _ => ih r w₂⟩

/-- A `wp` under a weaker contract and a weaker rely is one under a stronger
    contract and rely. -/
theorem wp_anti {D : Contract S W} {rely' : W → W → Prop} {Q : α → W → Prop} {p : Prog S α}
    {w : W} (h : wp C rely ok Q p w) (hC : ∀ o w r w', D o w r w' → C o w r w')
    (hr : ∀ w w', rely' w w' → rely w w') : wp D rely' ok Q p w := by
  induction p generalizing w with
  | pure a => exact h
  | op o k ih =>
    intro w₁ hw
    obtain ⟨ho, hk⟩ := h w₁ (hr _ _ hw)
    exact ⟨ho, fun r w₂ hD => ih r (hk r w₂ (hC _ _ _ _ hD))⟩

/-- A `wp` over the worlds `π w` is one over the worlds `w`, for a contract and a
    rely that `π` maps to those of the `wp`. -/
theorem wp_along {V : Type} {C : Contract S V} {rely : V → V → Prop} {ok : S.Op → V → Prop}
    {Q : α → V → Prop} {D : Contract S W} {rely' : W → W → Prop} {p : Prog S α} (π : W → V)
    (hC : ∀ o w r w', D o w r w' → C o (π w) r (π w'))
    (hr : ∀ w w', rely' w w' → rely (π w) (π w')) {w : W} (h : wp C rely ok Q p (π w)) :
    wp D rely' (fun o w => ok o (π w)) (fun a w => Q a (π w)) p w := by
  induction p generalizing w with
  | pure a => exact h
  | op o k ih =>
    intro w₁ hw
    obtain ⟨ho, hk⟩ := h (π w₁) (hr _ _ hw)
    exact ⟨ho, fun r w₂ hD => ih r (hk r (π w₂) (hC _ _ _ _ hD))⟩

/-! ## Programs that run alone -/

@[simp] theorem wp_call_alone {o : S.Op} {Q : S.Ret o → W → Prop} {w : W} :
    wp C Eq ok Q (Prog.call o) w ↔ ok o w ∧ ∀ r w₂, C o w r w₂ → Q r w₂ := by
  simp only [wp_call, forall_eq']

theorem wp_reaches {Q : α → W → Prop} {p q : Prog S α} {w w' : W} {τ : List (Event S)}
    (h : wp C Eq ok Q p w) (hr : Reaches C p w τ q w') : wp C Eq ok Q q w' := by
  induction hr with
  | refl p w => exact h
  | step hC _ ih => exact ih ((h _ rfl).2 _ _ hC)

theorem wp_run {Q : α → W → Prop} {p : Prog S α} {w w' : W} {τ : List (Event S)} {a : α}
    (h : wp C Eq ok Q p w) (hr : Run C p w τ a w') : Q a w' :=
  wp_reaches h hr

/-- Every operation of a trace is one that `ok` allows. -/
theorem wp_events {allowed : S.Op → Prop} {Q : α → W → Prop} {p q : Prog S α} {w w' : W}
    {τ : List (Event S)} (h : wp C Eq (fun o _ => allowed o) Q p w) (hr : Reaches C p w τ q w') :
    ∀ ev ∈ τ, allowed ev.op := by
  induction hr with
  | refl p w => exact fun ev hev => absurd hev List.not_mem_nil
  | step hC _ ih =>
    obtain ⟨ho, hk⟩ := h _ rfl
    rw [List.forall_mem_cons]
    exact ⟨ho, ih (hk _ _ hC)⟩

theorem wp_performs {Q : α → W → Prop} {p : Prog S α} {w w' : W} {o : S.Op}
    (h : wp C Eq ok Q p w) (hp : Performs C p w o w') : ok o w' := by
  obtain ⟨τ, k, hr⟩ := hp
  exact (wp_reaches h hr w' rfl).1

/-- A program whose operations can always be answered can be run to its
    end. -/
theorem wp_total {Q : α → W → Prop} {p : Prog S α} {w : W} (h : wp C Eq ok Q p w)
    (hC : ∀ o w, ok o w → ∃ r w', C o w r w') : ∃ τ a w', Run C p w τ a w' := by
  induction p generalizing w with
  | pure a => exact ⟨[], a, w, .refl _ _⟩
  | op o k ih =>
    obtain ⟨ho, hk⟩ := h w rfl
    obtain ⟨r, w₁, hr⟩ := hC o w ho
    obtain ⟨τ, a, w', hrun⟩ := ih r (hk r w₁ hr)
    exact ⟨⟨o, r⟩ :: τ, a, w', .step hr hrun⟩

/-- What a `wp` says about the rest of a program in an environment. -/
theorem wp_reaches_under {Q : α → W → Prop} {p q : Prog S α} {w w' : W} {τ : List (Event S)}
    (h : wp C rely ok Q p w) (hr : Reaches (C.under rely) p w τ q w') : wp C rely ok Q q w' := by
  induction hr with
  | refl p w => exact h
  | step hC _ ih =>
    obtain ⟨w₁, hw₁, hC⟩ := hC
    exact ih ((h w₁ hw₁).2 _ _ hC)

/-- What a `wp` says about the runs of a program in an environment. -/
theorem wp_run_under {Q : α → W → Prop} {p : Prog S α} {w w' : W} {τ : List (Event S)} {a : α}
    (h : wp C rely ok Q p w) (hr : Run (C.under rely) p w τ a w') : Q a w' := by
  induction p generalizing w τ with
  | pure b =>
    obtain ⟨-, rfl, rfl⟩ := run_pure.mp hr
    exact h
  | op o k ih =>
    obtain ⟨r, w₂, τ', -, ⟨w₁, hw, hC⟩, hrun⟩ := run_op.mp hr
    exact ih r ((h w₁ hw).2 r w₂ hC) hrun

/-! ## Programs with errors -/

/-- `wp` of a program that may end with an error. -/
def wpE (C : Contract S W) (rely : W → W → Prop) (ok : S.Op → W → Prop)
    (Q : Except ε α → W → Prop) (p : ExceptT ε (Prog S) α) (w : W) : Prop :=
  wp C rely ok Q p.run w

/-- The operations of `p`, with an error of `p` as the error of the whole. -/
def liftE {δ : Type} (f : δ → ε) (p : Prog S (Except δ α)) : ExceptT ε (Prog S) α :=
  ExceptT.mk (Except.mapError f <$> p)

/-- The operations of `p`, which cannot fail. -/
def lift (p : Prog S α) : ExceptT ε (Prog S) α := ExceptT.mk (Except.ok <$> p)

/-- Run `p` and return its outcome instead of ending with its error. -/
def attempt (p : ExceptT ε (Prog S) α) : ExceptT ε (Prog S) (Except ε α) :=
  ExceptT.mk (Except.ok <$> p.run)

/-- An outcome as a program that performs nothing. -/
def ofOutcome (e : Except ε α) : ExceptT ε (Prog S) α := ExceptT.mk (pure e)

/-- The rest of a postcondition after a first program ended with `r`. -/
def andThen (Q : Except ε β → W → Prop) (k : α → W → Prop) : Except ε α → W → Prop
  | .ok a, w => k a w
  | .error e, w => Q (.error e) w

@[simp] theorem andThen_ok (Q : Except ε β → W → Prop) (k : α → W → Prop) (a : α) (w : W) :
    andThen Q k (.ok a) w ↔ k a w := Iff.rfl

@[simp] theorem andThen_error (Q : Except ε β → W → Prop) (k : α → W → Prop) (e : ε) (w : W) :
    andThen Q k (.error e) w ↔ Q (.error e) w := Iff.rfl

@[simp] theorem wpE_pure {Q : Except ε α → W → Prop} (a : α) (w : W) :
    wpE C rely ok Q (pure a) w ↔ Q (.ok a) w := Iff.rfl

@[simp] theorem wpE_throw {Q : Except ε α → W → Prop} (e : ε) (w : W) :
    wpE C rely ok Q (throw e) w ↔ Q (.error e) w := Iff.rfl

@[simp] theorem wpE_ofOutcome {Q : Except ε α → W → Prop} (e : Except ε α) (w : W) :
    wpE C rely ok Q (ofOutcome e) w ↔ Q e w := Iff.rfl

@[simp] theorem wpE_bind {Q : Except ε β → W → Prop} (p : ExceptT ε (Prog S) α)
    (f : α → ExceptT ε (Prog S) β) (w : W) :
    wpE C rely ok Q (p >>= f) w ↔
      wpE C rely ok (andThen Q fun a w' => wpE C rely ok Q (f a) w') p w := by
  unfold wpE
  rw [ExceptT.run_bind, wp_bind]
  constructor
  · intro h
    refine wp_post h fun r w' hr => ?_
    cases r <;> exact hr
  · intro h
    refine wp_post h fun r w' hr => ?_
    cases r <;> exact hr

@[simp] theorem wpE_liftE {δ : Type} {Q : Except ε α → W → Prop} (f : δ → ε)
    (p : Prog S (Except δ α)) (w : W) :
    wpE C rely ok Q (liftE f p) w ↔ wp C rely ok (fun r w' => Q (r.mapError f) w') p w :=
  wp_map _ _ _

@[simp] theorem wpE_lift {Q : Except ε α → W → Prop} (p : Prog S α) (w : W) :
    wpE C rely ok Q (lift p) w ↔ wp C rely ok (fun a w' => Q (.ok a) w') p w :=
  wp_map _ _ _

@[simp] theorem wpE_attempt {Q : Except ε (Except ε α) → W → Prop} (p : ExceptT ε (Prog S) α)
    (w : W) :
    wpE C rely ok Q (attempt p) w ↔ wpE C rely ok (fun r w' => Q (.ok r) w') p w :=
  wp_map _ _ _

@[simp] theorem wpE_ite {Q : Except ε α → W → Prop} (c : Prop) [Decidable c]
    (p q : ExceptT ε (Prog S) α) (w : W) :
    wpE C rely ok Q (if c then p else q) w ↔
      if c then wpE C rely ok Q p w else wpE C rely ok Q q w := by
  split <;> rfl

theorem run_attempt {p : ExceptT ε (Prog S) α} {w w' : W} {τ : List (Event S)}
    {r : Except ε (Except ε α)} :
    Run C (attempt p).run w τ r w' ↔ ∃ a, r = .ok a ∧ Run C p.run w τ a w' := by
  show Run C (Except.ok <$> p.run) w τ r w' ↔ _
  have hmap : (Except.ok <$> p.run : Prog S (Except ε (Except ε α))) =
      p.run >>= fun a => .pure (.ok a) := rfl
  rw [hmap, run_bind]
  constructor
  · rintro ⟨τ₁, a, w₁, τ₂, h₁, h₂, rfl⟩
    obtain ⟨rfl, rfl, rfl⟩ := run_pure.mp h₂
    exact ⟨a, rfl, by rwa [List.append_nil]⟩
  · rintro ⟨a, rfl, h⟩
    exact ⟨τ, a, w', [], h, run_pure.mpr ⟨rfl, rfl, rfl⟩, by rw [List.append_nil]⟩

/-- A run of `p >>= f` is a run of `p` that ends with an error, or one that
    ends with a value, followed by a run of `f` on it. -/
theorem run_bind_cases {p : ExceptT ε (Prog S) α} {f : α → ExceptT ε (Prog S) β} {w w' : W}
    {τ : List (Event S)} {r : Except ε β} (h : Run C (p >>= f).run w τ r w') :
    (∃ e, r = .error e ∧ Run C p.run w τ (.error e) w') ∨
      ∃ τ₁ a w₁ τ₂, Run C p.run w τ₁ (.ok a) w₁ ∧ Run C (f a).run w₁ τ₂ r w' ∧ τ = τ₁ ++ τ₂ := by
  rw [ExceptT.run_bind, run_bind] at h
  obtain ⟨τ₁, r₁, w₁, τ₂, h₁, h₂, rfl⟩ := h
  cases r₁ with
  | ok a => exact Or.inr ⟨τ₁, a, w₁, τ₂, h₁, h₂, rfl⟩
  | error e =>
    obtain ⟨rfl, rfl, rfl⟩ := run_pure.mp h₂
    rw [List.append_nil]
    exact Or.inl ⟨e, rfl, h₁⟩

/-- A run of `p >>= f` that ends with a value is a run of `p` that does,
    followed by a run of `f` on its value. -/
theorem run_bind_ok {p : ExceptT ε (Prog S) α} {f : α → ExceptT ε (Prog S) β} {w w' : W}
    {τ : List (Event S)} {b : β} (h : Run C (p >>= f).run w τ (.ok b) w') :
    ∃ τ₁ a w₁ τ₂, Run C p.run w τ₁ (.ok a) w₁ ∧ Run C (f a).run w₁ τ₂ (.ok b) w' ∧
      τ = τ₁ ++ τ₂ := by
  rcases run_bind_cases h with ⟨e, he, -⟩ | h
  · cases he
  · exact h

theorem run_bind_of_ok {p : ExceptT ε (Prog S) α} {f : α → ExceptT ε (Prog S) β} {w w₁ w' : W}
    {τ₁ τ₂ : List (Event S)} {a : α} {r : Except ε β} (h₁ : Run C p.run w τ₁ (.ok a) w₁)
    (h₂ : Run C (f a).run w₁ τ₂ r w') : Run C (p >>= f).run w (τ₁ ++ τ₂) r w' := by
  rw [ExceptT.run_bind, run_bind]
  exact ⟨τ₁, .ok a, w₁, τ₂, h₁, h₂, rfl⟩

theorem run_bind_ok_iff {p : ExceptT ε (Prog S) α} {f : α → ExceptT ε (Prog S) β} {w w' : W}
    {τ : List (Event S)} {b : β} :
    Run C (p >>= f).run w τ (.ok b) w' ↔
      ∃ τ₁ a w₁ τ₂, Run C p.run w τ₁ (.ok a) w₁ ∧ Run C (f a).run w₁ τ₂ (.ok b) w' ∧
        τ = τ₁ ++ τ₂ := by
  constructor
  · exact run_bind_ok
  · rintro ⟨τ₁, a, w₁, τ₂, h₁, h₂, rfl⟩
    exact run_bind_of_ok h₁ h₂

/-- An outcome performs nothing. -/
theorem run_ofOutcome {e r : Except ε α} {w w' : W} {τ : List (Event S)} :
    Run C (ofOutcome e : ExceptT ε (Prog S) α).run w τ r w' ↔ τ = [] ∧ r = e ∧ w' = w :=
  run_pure

theorem wpE_post {Q Q' : Except ε α → W → Prop} {p : ExceptT ε (Prog S) α} {w : W}
    (h : wpE C rely ok Q p w) (hQ : ∀ r w, Q r w → Q' r w) : wpE C rely ok Q' p w :=
  wp_post h hQ

/-! ## Bounds on what a program does -/

/-- A bound on a program: the operations it may perform, the answers it is
    given, and the errors it may end with. -/
structure Bounds (S : Sig) (ε : Type) where
  ops : S.Op → Prop
  answers : (o : S.Op) → S.Ret o → Prop
  errors : ε → Prop

/-- As long as the answers are within `B`, the program stays within `B`. -/
def Within (B : Bounds S ε) (p : ExceptT ε (Prog S) α) : Prop :=
  wpE (W := Unit) (fun o _ r _ => B.answers o r) Eq (fun o _ => B.ops o)
    (fun r _ => ∀ e, r = .error e → B.errors e) p ()

namespace Within

variable {B : Bounds S ε}

theorem pure (a : α) : Within B (Pure.pure a : ExceptT ε (Prog S) α) := by
  intro e he
  cases he

theorem throw {e : ε} (he : B.errors e) : Within B (throw e : ExceptT ε (Prog S) α) := by
  intro e' he'
  cases he'
  exact he

theorem bind {p : ExceptT ε (Prog S) α} {f : α → ExceptT ε (Prog S) β} (hp : Within B p)
    (hf : ∀ a, Within B (f a)) : Within B (p >>= f) := by
  unfold Within
  rw [wpE_bind]
  refine wpE_post hp fun r _ hr => ?_
  cases r with
  | ok a => exact hf a
  | error e =>
    intro e' he'
    cases he'
    exact hr e rfl

theorem attempt {p : ExceptT ε (Prog S) α} (hp : Within B p) : Within B (attempt p) := by
  unfold Within
  rw [wpE_attempt]
  refine wpE_post hp fun r _ _ e he => ?_
  cases he

/-- What follows an attempt may use that its error is one of `B`. -/
theorem attempt_bind {p : ExceptT ε (Prog S) α} {f : Except ε α → ExceptT ε (Prog S) β}
    (hp : Within B p) (hf : ∀ r, (∀ e, r = .error e → B.errors e) → Within B (f r)) :
    Within B (Effect.attempt p >>= f) := by
  unfold Within
  rw [wpE_bind, wpE_attempt]
  exact wpE_post hp fun r _ hr => hf r hr

theorem turns {body : γ → ExceptT ε (Prog S) (ControlFlow β γ)} (hbody : ∀ s, Within B (body s))
    (n : ℕ) (s : γ) : Within B (turns body n s) := by
  induction n generalizing s with
  | zero => exact Within.pure _
  | succ n ih =>
    rw [Effect.turns]
    refine (hbody s).bind fun flow => ?_
    cases flow with
    | Break b => exact Within.pure _
    | Continue s' => exact ih s'

end Within

/-- A program within `B` keeps every invariant that the operations of `B` and
    the environment keep. -/
theorem wpE_of_within {B : Bounds S ε} {I : W → Prop} {p : ExceptT ε (Prog S) α} {w : W}
    (hp : Within B p) (hI : I w) (hrely : ∀ w w', I w → rely w w' → I w')
    (hop : ∀ o w, B.ops o → I w → ok o w ∧ ∀ r w', C o w r w' → B.answers o r ∧ I w') :
    wpE C rely ok (fun r w => (∀ e, r = .error e → B.errors e) ∧ I w) p w := by
  unfold Within wpE at hp
  unfold wpE
  generalize p.run = q at hp
  induction q generalizing w with
  | pure r => exact ⟨hp, hI⟩
  | op o k ih =>
    intro w₁ hw
    have hI₁ := hrely w w₁ hI hw
    obtain ⟨ho, hk⟩ := hp () rfl
    obtain ⟨hok, hC⟩ := hop o w₁ ho hI₁
    refine ⟨hok, fun r w₂ hr => ?_⟩
    obtain ⟨ha, hI₂⟩ := hC r w₂ hr
    exact ih r hI₂ (hk r () ha)

/-- A run whose answers are within `B` performs only operations of `B` and
    ends only with errors of `B`. -/
theorem run_within {B : Bounds S ε} {p : ExceptT ε (Prog S) α} {w w' : W} {τ : List (Event S)}
    {r : Except ε α} (hp : Within B p) (hrun : Run C p.run w τ r w')
    (ha : ∀ ev ∈ τ, B.answers ev.op ev.ret) :
    (∀ ev ∈ τ, B.ops ev.op) ∧ ∀ e, r = .error e → B.errors e := by
  unfold Within wpE at hp
  generalize p.run = q at hp hrun
  induction q generalizing w τ with
  | pure a =>
    obtain ⟨rfl, rfl, rfl⟩ := run_pure.mp hrun
    exact ⟨fun ev hev => absurd hev List.not_mem_nil, hp⟩
  | op o k ih =>
    obtain ⟨r', w₁, τ', rfl, -, hk⟩ := run_op.mp hrun
    rw [List.forall_mem_cons] at ha ⊢
    obtain ⟨ho, hp'⟩ := hp () rfl
    obtain ⟨hops, herr⟩ := ih r' ha.2 (hp' r' () ha.1) hk
    exact ⟨⟨ho, hops⟩, herr⟩

/-- The postcondition of a turn: `I` of the state it goes on with, or `Q` of
    the outcome it stops with. -/
def turnPost (I : γ → W → Prop) (Q : Except ε β → W → Prop) :
    Except ε (ControlFlow β γ) → W → Prop
  | .ok (.Continue s), w => I s w
  | .ok (.Break b), w => Q (.ok b) w
  | .error e, w => Q (.error e) w

@[simp] theorem turnPost_continue (I : γ → W → Prop) (Q : Except ε β → W → Prop) (s : γ) (w : W) :
    turnPost I Q (.ok (.Continue s)) w ↔ I s w := Iff.rfl

@[simp] theorem turnPost_break (I : γ → W → Prop) (Q : Except ε β → W → Prop) (b : β) (w : W) :
    turnPost I Q (.ok (.Break b)) w ↔ Q (.ok b) w := Iff.rfl

@[simp] theorem turnPost_error (I : γ → W → Prop) (Q : Except ε β → W → Prop) (e : ε) (w : W) :
    turnPost I Q (.error e) w ↔ Q (.error e) w := Iff.rfl

/-- The rule of a loop: an invariant that every turn keeps, or ends with
    `Q`, holds after any number of turns. -/
theorem wpE_turns {I : γ → W → Prop} {Q : Except ε β → W → Prop}
    {body : γ → ExceptT ε (Prog S) (ControlFlow β γ)}
    (hbody : ∀ s w, I s w → wpE C rely ok (turnPost I Q) (body s) w)
    (n : ℕ) (s : γ) (w : W) (hI : I s w) :
    wpE C rely ok (turnPost I Q) (turns body n s) w := by
  induction n generalizing s w with
  | zero => exact hI
  | succ n ih =>
    rw [turns, wpE_bind]
    refine wpE_post (hbody s w hI) fun r w' hr => ?_
    match r, hr with
    | .ok (.Continue s'), hr => exact ih s' w' hr
    | .ok (.Break b), hr => exact hr
    | .error e, hr => exact hr

/-! ## What holds between the parts of a program -/

/-- `P` after a result, `E` after an error. -/
def sustained (P : W → Prop) (E : ε → W → Prop) : Except ε α → W → Prop
  | .ok _, w => P w
  | .error e, w => E e w

/-- Started where `P` holds, `p` returns where `P` holds, or fails where `E`
    does. -/
def Sustains (C : Contract S W) (rely : W → W → Prop) (ok : S.Op → W → Prop) (P : W → Prop)
    (E : ε → W → Prop) (p : ExceptT ε (Prog S) α) : Prop :=
  ∀ w, P w → wpE C rely ok (sustained P E) p w

section sustains

variable {P : W → Prop} {E : ε → W → Prop}

theorem Sustains.pure (a : α) :
    Sustains C rely ok P E (Pure.pure a : ExceptT ε (Prog S) α) := fun _ h => h

theorem Sustains.bind {p : ExceptT ε (Prog S) α} {f : α → ExceptT ε (Prog S) β}
    (hp : Sustains C rely ok P E p) (hf : ∀ a, Sustains C rely ok P E (f a)) :
    Sustains C rely ok P E (p >>= f) := by
  intro w hw
  rw [wpE_bind]
  refine wpE_post (hp w hw) fun r w' hr => ?_
  cases r with
  | ok a => exact hf a w' hr
  | error e => exact hr

/-- An error that is looked at, if `P` holds after it too. -/
theorem Sustains.attempt {p : ExceptT ε (Prog S) α} (hp : Sustains C rely ok P E p)
    (hE : ∀ e w, E e w → P w) : Sustains C rely ok P E (attempt p) := by
  intro w hw
  rw [wpE_attempt]
  refine wpE_post (hp w hw) fun r w' hr => ?_
  cases r with
  | ok a => exact hr
  | error e => exact hE e w' hr

theorem Sustains.of_within {B : Bounds S ε} {p : ExceptT ε (Prog S) α} (hp : Within B p)
    (hrely : ∀ w w', P w → rely w w' → P w')
    (hop : ∀ o w, B.ops o → P w → ok o w ∧ ∀ r w', C o w r w' → B.answers o r ∧ P w')
    (hE : ∀ e w, B.errors e → P w → E e w) : Sustains C rely ok P E p := by
  intro w hw
  refine wpE_post (wpE_of_within hp hw hrely hop) fun r w' hr => ?_
  cases r with
  | ok a => exact hr.2
  | error e => exact hE e w' (hr.1 e rfl) hr.2

theorem Sustains.turns {body : γ → ExceptT ε (Prog S) (ControlFlow β γ)}
    (hbody : ∀ s, Sustains C rely ok P E (body s)) (n : ℕ) (s : γ) :
    Sustains C rely ok P E (turns body n s) := by
  induction n generalizing s with
  | zero => exact .pure _
  | succ n ih =>
    rw [Zallet.Effect.turns]
    refine (hbody s).bind fun flow => ?_
    cases flow with
    | Break b => exact .pure _
    | Continue s' => exact ih s'

end sustains

end Zallet.Effect
