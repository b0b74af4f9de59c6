import Mathlib

/-!
# Effectful programs and their runs

A program that only touches the outside world through a fixed list of
operations is a tree: a leaf returns a value, a node performs one operation
and branches on its answer. `Prog S α` is that tree for the operations of a
signature `S`; a `do` block over it reads like the code it models, and every
node is a point at which another task may run.

What an operation may answer, and what it does to the world, is a
`Contract`: a relation, so that an operation may have several answers. The
contract is the only place where the outside world is described.

* `Reaches C p w τ q w'`: started in world `w`, program `p` can perform the
  operations of the trace `τ` and then be at `q` in world `w'`; `Run` is the
  case where `q` has returned.
* `Performs C p w o w'`: `p` can come to perform `o` in world `w'`.
* `exec`: a run under a deterministic `Handler`. `exec_reaches` turns it into
  a run under every contract the handler keeps.
* `turns`: the first `n` turns of a loop. A loop without end is studied
  through all its finite prefixes.
-/

namespace Zallet.Effect

/-- The operations a program may perform and the answer type of each. -/
structure Sig where
  Op : Type
  Ret : Op → Type

/-- Programs over the operations of `S` that return an `α`. -/
inductive Prog (S : Sig) (α : Type) : Type
  | pure (a : α) : Prog S α
  | op (o : S.Op) (k : S.Ret o → Prog S α) : Prog S α

/-- One performed operation with its answer. -/
structure Event (S : Sig) where
  op : S.Op
  ret : S.Ret op

/-- Whether a loop goes on, and with which state, or stops, and with which
    value. -/
inductive ControlFlow (β γ : Type) : Type
  | Continue (c : γ) : ControlFlow β γ
  | Break (b : β) : ControlFlow β γ
  deriving DecidableEq

/-- What the operations of `S` may do to a world `W`: `C o w r w'` says that
    `o`, performed in `w`, may answer `r` and leave the world `w'`. -/
abbrev Contract (S : Sig) (W : Type) : Type := (o : S.Op) → W → S.Ret o → W → Prop

variable {S : Sig} {W σ : Type} {α β γ : Type}

namespace Prog

/-- Run `p`, then `f` on its result. -/
def bind : Prog S α → (α → Prog S β) → Prog S β
  | .pure a, f => f a
  | .op o k, f => .op o fun r => (k r).bind f

instance : Monad (Prog S) where
  pure := Prog.pure
  bind := Prog.bind

/-- Perform one operation and return its answer. -/
def call (o : S.Op) : Prog S (S.Ret o) := .op o .pure

@[simp] theorem pure_bind' (a : α) (f : α → Prog S β) : (Prog.pure a : Prog S α) >>= f = f a := rfl

@[simp] theorem op_bind' (o : S.Op) (k : S.Ret o → Prog S α) (f : α → Prog S β) :
    (Prog.op o k : Prog S α) >>= f = .op o fun r => k r >>= f := rfl

end Prog

/-- The contract `C` cut down to the steps that satisfy `K`. -/
def Contract.restrict (C : Contract S W) (K : (o : S.Op) → W → S.Ret o → Prop) : Contract S W :=
  fun o w r w' => C o w r w' ∧ K o w r

/-- The contract `C` in an environment that may move the world along `env`
    before each operation. -/
def Contract.under (C : Contract S W) (env : W → W → Prop) : Contract S W :=
  fun o w r w' => ∃ w₁, env w w₁ ∧ C o w₁ r w'

/-! ## Runs -/

/-- `p`, started in `w`, can perform the operations of `τ` and then be at `q`
    in `w'`. -/
inductive Reaches (C : Contract S W) : Prog S α → W → List (Event S) → Prog S α → W → Prop
  | refl (p : Prog S α) (w : W) : Reaches C p w [] p w
  | step {o : S.Op} {k : S.Ret o → Prog S α} {w w₁ w₂ : W} {r : S.Ret o} {τ : List (Event S)}
      {q : Prog S α} : C o w r w₁ → Reaches C (k r) w₁ τ q w₂ →
      Reaches C (.op o k) w (⟨o, r⟩ :: τ) q w₂

/-- A complete run: `p` returns `a`. -/
def Run (C : Contract S W) (p : Prog S α) (w : W) (τ : List (Event S)) (a : α) (w' : W) : Prop :=
  Reaches C p w τ (.pure a) w'

/-- `p`, started in `w`, can come to perform `o` in the world `w'`. -/
def Performs (C : Contract S W) (p : Prog S α) (w : W) (o : S.Op) (w' : W) : Prop :=
  ∃ τ k, Reaches C p w τ (.op o k) w'

theorem run_pure {C : Contract S W} {a b : α} {w w' : W} {τ : List (Event S)} :
    Run C (.pure a) w τ b w' ↔ τ = [] ∧ b = a ∧ w' = w := by
  constructor
  · intro h
    cases h
    exact ⟨rfl, rfl, rfl⟩
  · rintro ⟨rfl, rfl, rfl⟩
    exact .refl _ _

theorem run_op {C : Contract S W} {o : S.Op} {k : S.Ret o → Prog S α} {a : α} {w w' : W}
    {τ : List (Event S)} :
    Run C (.op o k) w τ a w' ↔
      ∃ r w₁ τ', τ = ⟨o, r⟩ :: τ' ∧ C o w r w₁ ∧ Run C (k r) w₁ τ' a w' := by
  constructor
  · intro h
    cases h with
    | step hC h => exact ⟨_, _, _, rfl, hC, h⟩
  · rintro ⟨r, w₁, τ', rfl, hC, h⟩
    exact .step hC h

/-- A run that starts with one operation. -/
theorem run_call_bind {C : Contract S W} {o : S.Op} {f : S.Ret o → Prog S α} {r : S.Ret o} {a : α}
    {w w₁ w' : W} {τ : List (Event S)} (hC : C o w r w₁) (h : Run C (f r) w₁ τ a w') :
    Run C (Prog.call o >>= f) w (⟨o, r⟩ :: τ) a w' :=
  .step hC h

/-- A run of `p >>= f` is a run of `p` followed by a run of `f` on its
    result. -/
theorem run_bind {C : Contract S W} (p : Prog S α) (f : α → Prog S β) {b : β} {w w' : W}
    {τ : List (Event S)} :
    Run C (p >>= f) w τ b w' ↔
      ∃ τ₁ a w₁ τ₂, Run C p w τ₁ a w₁ ∧ Run C (f a) w₁ τ₂ b w' ∧ τ = τ₁ ++ τ₂ := by
  induction p generalizing w τ with
  | pure a =>
    simp only [Prog.pure_bind', run_pure]
    constructor
    · intro h
      exact ⟨[], a, w, τ, ⟨rfl, rfl, rfl⟩, h, rfl⟩
    · rintro ⟨τ₁, a', w₁, τ₂, ⟨rfl, rfl, rfl⟩, h, rfl⟩
      exact h
  | op o k ih =>
    simp only [Prog.op_bind', run_op, ih]
    constructor
    · rintro ⟨r, w₁, τ', rfl, hC, τ₁, a, w₂, τ₂, h₁, h₂, rfl⟩
      exact ⟨⟨o, r⟩ :: τ₁, a, w₂, τ₂, ⟨r, w₁, τ₁, rfl, hC, h₁⟩, h₂, rfl⟩
    · rintro ⟨τ₁, a, w₂, τ₂, ⟨r, w₁, τ', rfl, hC, h₁⟩, h₂, rfl⟩
      exact ⟨r, w₁, τ' ++ τ₂, rfl, hC, τ', a, w₂, τ₂, h₁, h₂, rfl⟩

/-- What `p >>= f` has done so far: a part of `p`, or all of it and a part of
    `f` on its result. -/
theorem reaches_bind {C : Contract S W} {p : Prog S α} {f : α → Prog S β} {q : Prog S β} {w w' : W}
    {τ : List (Event S)} (h : Reaches C (p >>= f) w τ q w') :
    (∃ q', Reaches C p w τ q' w') ∨
      ∃ τ₁ a w₁ τ₂, Run C p w τ₁ a w₁ ∧ Reaches C (f a) w₁ τ₂ q w' ∧ τ = τ₁ ++ τ₂ := by
  induction p generalizing w τ with
  | pure a => exact Or.inr ⟨[], a, w, τ, .refl _ _, h, rfl⟩
  | op o k ih =>
    cases h with
    | refl => exact Or.inl ⟨_, .refl _ _⟩
    | step hC h =>
      rcases ih _ h with ⟨q', hr⟩ | ⟨τ₁, a, w₁, τ₂, hrun, hr, rfl⟩
      · exact Or.inl ⟨q', .step hC hr⟩
      · exact Or.inr ⟨_ :: τ₁, a, w₁, τ₂, .step hC hrun, hr, rfl⟩

/-- Every event of a trace is one the contract allows. -/
theorem Reaches.allowed {C : Contract S W} {p q : Prog S α} {w w' : W} {τ : List (Event S)}
    (h : Reaches C p w τ q w') : ∀ ev ∈ τ, ∃ w₁ w₂, C ev.op w₁ ev.ret w₂ := by
  induction h with
  | refl p w => exact fun ev hev => absurd hev List.not_mem_nil
  | step hC _ ih =>
    rw [List.forall_mem_cons]
    exact ⟨⟨_, _, hC⟩, ih⟩

theorem Reaches.mono {C D : Contract S W} (hCD : ∀ o w r w', C o w r w' → D o w r w')
    {p q : Prog S α} {w w' : W} {τ : List (Event S)} (h : Reaches C p w τ q w') :
    Reaches D p w τ q w' := by
  induction h with
  | refl p w => exact .refl p w
  | step hC _ ih => exact .step (hCD _ _ _ _ hC) ih

/-- A run in which every event satisfies `K` in every world is one of the
    contract cut down to `K`. -/
theorem Reaches.restrict {C : Contract S W} {K : (o : S.Op) → W → S.Ret o → Prop}
    {p q : Prog S α} {w w' : W} {τ : List (Event S)} (h : Reaches C p w τ q w')
    (hK : ∀ ev ∈ τ, ∀ w, K ev.op w ev.ret) : Reaches (C.restrict K) p w τ q w' := by
  induction h with
  | refl p w => exact .refl p w
  | step hC _ ih =>
    rw [List.forall_mem_cons] at hK
    exact .step ⟨hC, hK.1 _⟩ (ih hK.2)

/-! ## Bounded programs -/

/-- Every path of the program has at most `n` operations, whatever they
    answer. -/
def Prog.AtMost : Prog S α → ℕ → Prop
  | .pure _, _ => True
  | .op _ _, 0 => False
  | .op _ k, n + 1 => ∀ r, (k r).AtMost n

theorem Prog.AtMost.mono {m n : ℕ} {p : Prog S α} (h : p.AtMost m) (hmn : m ≤ n) : p.AtMost n := by
  induction p generalizing m n with
  | pure a => trivial
  | op o k ih =>
    cases m with
    | zero => exact h.elim
    | succ m =>
      cases n with
      | zero => omega
      | succ n => exact fun r => ih r (h r) (by omega)

theorem Prog.AtMost.bind {m n : ℕ} {p : Prog S α} {f : α → Prog S β} (hp : p.AtMost m)
    (hf : ∀ a, (f a).AtMost n) : (p >>= f).AtMost (m + n) := by
  induction p generalizing m with
  | pure a => exact (hf a).mono (by omega)
  | op o k ih =>
    cases m with
    | zero => exact hp.elim
    | succ m =>
      rw [Prog.op_bind', show m + 1 + n = (m + n) + 1 by omega]
      exact fun r => ih r (hp r)

/-- No run is longer than the bound. -/
theorem Prog.AtMost.length_le {C : Contract S W} {n : ℕ} {p q : Prog S α} {w w' : W}
    {τ : List (Event S)} (h : p.AtMost n) (hr : Reaches C p w τ q w') : τ.length ≤ n := by
  induction hr generalizing n with
  | refl p w => exact Nat.zero_le n
  | step _ _ ih =>
    cases n with
    | zero => exact h.elim
    | succ n => exact Nat.succ_le_succ (ih (h _))

/-! ## Deterministic execution -/

/-- A deterministic implementation of the operations on a state `σ`; `none`
    where the operation never answers. -/
abbrev Handler (S : Sig) (σ : Type) : Type := (o : S.Op) → σ → Option (S.Ret o × σ)

/-- Perform at most `n` operations of `p` with the handler `h`: the trace,
    the rest of the program and the state reached. -/
def exec (h : Handler S σ) : ℕ → Prog S α → σ → List (Event S) × Prog S α × σ
  | 0, p, s => ([], p, s)
  | _ + 1, .pure a, s => ([], .pure a, s)
  | n + 1, .op o k, s =>
    match h o s with
    | none => ([], .op o k, s)
    | some (r, s') =>
      let rest := exec h n (k r) s'
      (⟨o, r⟩ :: rest.1, rest.2)

/-- `h` answers as the contract `C` allows, `view` being the world a state
    stands for. -/
def Handler.Keeps (h : Handler S σ) (C : Contract S W) (view : σ → W) : Prop :=
  ∀ o s r s', h o s = some (r, s') → C o (view s) r (view s')

theorem exec_reaches {h : Handler S σ} {C : Contract S W} {view : σ → W} (hC : h.Keeps C view)
    (n : ℕ) (p : Prog S α) (s : σ) :
    Reaches C p (view s) (exec h n p s).1 (exec h n p s).2.1 (view (exec h n p s).2.2) := by
  induction n generalizing p s with
  | zero => exact .refl _ _
  | succ n ih =>
    cases p with
    | pure a => exact .refl _ _
    | op o k =>
      rw [exec]
      cases hr : h o s with
      | none => exact .refl _ _
      | some rs =>
        obtain ⟨r, s'⟩ := rs
        exact .step (hC o s r s' hr) (ih (k r) s')

/-- What a program that has returned returned. -/
def Prog.result : Prog S α → Option α
  | .pure a => some a
  | .op _ _ => none

/-- The operation a program is about to perform. -/
def Prog.next : Prog S α → Option S.Op
  | .pure _ => none
  | .op o _ => some o

theorem Prog.result_eq_some {p : Prog S α} {a : α} : p.result = some a ↔ p = .pure a := by
  cases p with
  | pure b => simp [Prog.result]
  | op o k => simp [Prog.result]

theorem Prog.next_eq_some {p : Prog S α} {o : S.Op} : p.next = some o ↔ ∃ k, p = .op o k := by
  cases p with
  | pure b => simp [Prog.next]
  | op o' k =>
    constructor
    · intro h
      obtain rfl : o' = o := Option.some.inj h
      exact ⟨k, rfl⟩
    · rintro ⟨k', h⟩
      cases h
      rfl

/-- A handler that runs `p` to the value `a` gives a run of `p`. -/
theorem exec_run {h : Handler S σ} {C : Contract S W} {view : σ → W} (hC : h.Keeps C view)
    {n : ℕ} {p : Prog S α} {s : σ} {a : α} (ha : (exec h n p s).2.1.result = some a) :
    Run C p (view s) (exec h n p s).1 a (view (exec h n p s).2.2) := by
  have hr := exec_reaches hC n p s
  rw [Prog.result_eq_some.mp ha] at hr
  exact hr

/-- A handler that stops before `o` shows that `p` can come to perform it. -/
theorem exec_performs {h : Handler S σ} {C : Contract S W} {view : σ → W} (hC : h.Keeps C view)
    {n : ℕ} {p : Prog S α} {s : σ} {o : S.Op} (ho : (exec h n p s).2.1.next = some o) :
    Performs C p (view s) o (view (exec h n p s).2.2) := by
  have hr := exec_reaches hC n p s
  obtain ⟨k, hk⟩ := Prog.next_eq_some.mp ho
  rw [hk] at hr
  exact ⟨_, k, hr⟩

/-- `h`, stopped before the operations that `check` does not allow. -/
def Handler.restrict (h : Handler S σ) (check : S.Op → σ → Bool) : Handler S σ :=
  fun o s => if check o s then h o s else none

theorem Handler.Keeps.restrict {h : Handler S σ} {C : Contract S W} {view : σ → W}
    {check : S.Op → σ → Bool} {K : (o : S.Op) → W → S.Ret o → Prop} (hC : h.Keeps C view)
    (hK : ∀ o s r, check o s = true → K o (view s) r) :
    (h.restrict check).Keeps (C.restrict K) view := by
  intro o s r s' hs
  unfold Handler.restrict at hs
  by_cases hc : check o s = true
  · rw [if_pos hc] at hs
    exact ⟨hC o s r s' hs, hK o s r hc⟩
  · rw [if_neg hc] at hs
    cases hs

/-- `h`, stopped where its answer does not pass `check`. -/
def Handler.checked (h : Handler S σ) (check : (o : S.Op) → σ → S.Ret o → Bool) : Handler S σ :=
  fun o s => (h o s).filter fun a => check o s a.1

theorem Handler.Keeps.checked {h : Handler S σ} {C : Contract S W} {view : σ → W}
    {check : (o : S.Op) → σ → S.Ret o → Bool} {K : (o : S.Op) → W → S.Ret o → Prop}
    (hC : h.Keeps C view) (hK : ∀ o s r, check o s r = true → K o (view s) r) :
    (h.checked check).Keeps (C.restrict K) view := by
  intro o s r s' hs
  obtain ⟨hs, hc⟩ := Option.filter_eq_some_iff.mp hs
  exact ⟨hC o s r s' hs, hK o s r hc⟩

/-! ## Loops -/

/-- The first `n` turns of a loop with body `body`: `Continue s` if the loop
    is still going after them. -/
def turns {m : Type → Type} [Monad m] (body : γ → m (ControlFlow β γ)) : ℕ → γ → m (ControlFlow β γ)
  | 0, s => pure (.Continue s)
  | n + 1, s => do
    match ← body s with
    | .Break b => pure (.Break b)
    | .Continue s' => turns body n s'

end Zallet.Effect
