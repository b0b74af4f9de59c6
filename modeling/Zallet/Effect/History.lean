import Zallet.Effect.Hoare

/-!
# Histories

A postcondition sees the last world only. `Contract.logged` keeps the
operations performed so far beside the world, so that a `wp` can speak about
them; `wp_run_logged` reads such a `wp` back as a statement about the trace
of a run.

`wpE_call_bind` is the rule of a program that starts with one fallible call,
and `wpE_logged_of_within` the frame rule of histories: a program within `B`
adds only events of `B` to the history and keeps what those operations keep.
-/

namespace Zallet.Effect

variable {S : Sig} {W : Type} {α β ε : Type}

/-- The contract `C` on worlds with a history. -/
def Contract.logged (C : Contract S W) : Contract S (W × List (Event S)) :=
  fun o w r w' => C o w.1 r w'.1 ∧ w'.2 = w.2 ++ [⟨o, r⟩]

/-- The environment does not write the history. -/
def relyLogged (rely : W → W → Prop) : W × List (Event S) → W × List (Event S) → Prop :=
  fun w w' => rely w.1 w'.1 ∧ w'.2 = w.2

variable {C : Contract S W} {rely : W → W → Prop}

theorem wp_run_logged {ok : S.Op → W × List (Event S) → Prop} {Q : α → W × List (Event S) → Prop}
    {p : Prog S α} {w w' : W} {l τ : List (Event S)} {a : α}
    (h : wp C.logged (relyLogged rely) ok Q p (w, l)) (hr : Run (C.under rely) p w τ a w') :
    Q a (w', l ++ τ) := by
  induction p generalizing w l τ with
  | pure b =>
    obtain ⟨rfl, rfl, rfl⟩ := run_pure.mp hr
    rw [List.append_nil]
    exact h
  | op o k ih =>
    obtain ⟨r, w₂, τ', rfl, ⟨w₁, hw, hC⟩, hrun⟩ := run_op.mp hr
    have hk := (h (w₁, l) ⟨hw, rfl⟩).2 r (w₂, l ++ [⟨o, r⟩]) ⟨hC, rfl⟩
    have hQ := ih r hk hrun
    rwa [List.append_assoc, List.singleton_append] at hQ

/-- A run without an environment is one in the environment that does
    nothing. -/
theorem Reaches.alone {p q : Prog S α} {w w' : W} {τ : List (Event S)}
    (h : Reaches C p w τ q w') : Reaches (C.under Eq) p w τ q w' :=
  h.mono fun _ w _ _ hC => ⟨w, rfl, hC⟩

theorem wp_and {ok : S.Op → W → Prop} {Q Q' : α → W → Prop} {p : Prog S α} {w : W}
    (h : wp C rely ok Q p w) (h' : wp C rely (fun _ _ => True) Q' p w) :
    wp C rely ok (fun a w => Q a w ∧ Q' a w) p w := by
  induction p generalizing w with
  | pure a => exact ⟨h, h'⟩
  | op o k ih =>
    intro w₁ hw
    obtain ⟨ho, hk⟩ := h w₁ hw
    exact ⟨ho, fun r w₂ hC => ih r (hk r w₂ hC) ((h' w₁ hw).2 r w₂ hC)⟩

/-- The rule of one call and what follows it, started where an invariant of
    the environment holds. The call is given by the operation it performs, so
    that the rule does not depend on how the type of its answer is written. -/
theorem wpE_call_bind {δ : Type} {I : W → Prop} (hstable : ∀ w w', I w → rely w w' → I w') {w : W}
    (hI : I w) {p : Prog S (Except δ α)} {o : S.Op} {g : S.Ret o → Except δ α}
    (hp : p = .op o fun r => .pure (g r)) {f : δ → ε} {k : α → ExceptT ε (Prog S) β}
    {Q : Except ε β → W → Prop}
    (h : ∀ w₁ r w₂, I w₁ → C o w₁ r w₂ →
      andThen Q (fun a w => wpE C rely (fun _ _ => True) Q (k a) w) ((g r).mapError f) w₂) :
    wpE C rely (fun _ _ => True) Q (liftE f p >>= k) w := by
  subst hp
  rw [wpE_bind, wpE_liftE]
  intro w₁ hw
  exact ⟨trivial, fun r w₂ hC => h w₁ r w₂ (hstable w w₁ hI hw) hC⟩

/-- What is said of the value of `p >>= f` only needs what `f` returns. -/
theorem wpE_bind_value {V : β → Prop} {p : ExceptT ε (Prog S) α} {f : α → ExceptT ε (Prog S) β}
    {w : W} (hf : ∀ a w', wpE C rely (fun _ _ => True) (fun r _ => ∀ b, r = .ok b → V b) (f a) w') :
    wpE C rely (fun _ _ => True) (fun r _ => ∀ b, r = .ok b → V b) (p >>= f) w := by
  rw [wpE_bind]
  refine wpE_post (wp_trivial _ w) fun r w' _ => ?_
  cases r with
  | error e =>
    intro b hb
    cases hb
  | ok a => exact hf a w'

/-- A program within `B` extends the history by events of `B`, and keeps an
    invariant that the operations of `B` and the environment keep. -/
theorem wpE_logged_of_within {B : Bounds S ε} {I : W → Prop} {p : ExceptT ε (Prog S) α} {w : W}
    {l : List (Event S)} (hp : Within B p) (hI : I w) (hrely : ∀ w w', I w → rely w w' → I w')
    (hop : ∀ o w, B.ops o → I w → ∀ r w', C o w r w' → B.answers o r ∧ I w') :
    wpE C.logged (relyLogged rely) (fun _ _ => True)
      (fun _ w' => I w'.1 ∧ ∃ τ, w'.2 = l ++ τ ∧ ∀ ev ∈ τ, B.ops ev.op) p (w, l) := by
  have hI' : I w ∧ ∃ τ, l = l ++ τ ∧ ∀ ev ∈ τ, B.ops ev.op :=
    ⟨hI, [], (List.append_nil l).symm, fun ev hev => absurd hev List.not_mem_nil⟩
  suffices h : wpE C.logged (relyLogged rely) (fun _ _ => True)
      (fun r w' => (∀ e, r = .error e → B.errors e) ∧ I w'.1 ∧
        ∃ τ, w'.2 = l ++ τ ∧ ∀ ev ∈ τ, B.ops ev.op) p (w, l) from
    wpE_post h fun _ _ hr => hr.2
  refine wpE_of_within
    (I := fun w' : W × List (Event S) => I w'.1 ∧ ∃ τ, w'.2 = l ++ τ ∧ ∀ ev ∈ τ, B.ops ev.op)
    hp hI' ?_ ?_
  · rintro w₁ w₂ ⟨h₁, τ, hτ, hops⟩ ⟨hw, hl⟩
    exact ⟨hrely _ _ h₁ hw, τ, hl.trans hτ, hops⟩
  · rintro o w₁ ho ⟨h₁, τ, hτ, hops⟩
    refine ⟨trivial, fun r w₂ hC => ?_⟩
    obtain ⟨ha, h₂⟩ := hop o w₁.1 ho h₁ r w₂.1 hC.1
    refine ⟨ha, h₂, τ ++ [⟨o, r⟩], ?_, ?_⟩
    · rw [hC.2, hτ, List.append_assoc]
    · simp only [List.forall_mem_append, List.forall_mem_singleton]
      exact ⟨hops, ho⟩

end Zallet.Effect
