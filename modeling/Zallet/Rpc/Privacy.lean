import Mathlib.Data.Finset.Card
import Mathlib.Order.Lattice
import Zallet.Sync.Machine

/-!
# Privacy policies

`PrivacyPolicy`, `enforce_privacy_policy` and `required_privacy_policy` of
`zallet-core/src/components/json_rpc/payments.rs`, lines 394–714.

The proposal is a value of `zcash_client_backend`: `Step` keeps what the checks
read of it. The inputs a step takes from an earlier step are not among its
transparent inputs, and `Step::from_parts` refuses a shielding step without
transparent inputs (`shieldingInputs`).

* `PrivacyPolicy.meet` makes the policies a semilattice, with "allows at least
  as much" as the order.
* `enforce_iff_required`: the check and the report agree on every proposal.
* `enforce_iff_permits`: a policy is accepted exactly when it permits every leak
  of every step.
-/

namespace Zallet.Rpc

open Zallet.Chain
open Zallet.Sync (ShieldedPool)

/-- `PrivacyPolicy` (lines 408–448). -/
inductive PrivacyPolicy
  | FullPrivacy
  | AllowRevealedAmounts
  | AllowRevealedRecipients
  | AllowRevealedSenders
  | AllowFullyTransparent
  | AllowLinkingAccountAddresses
  | NoPrivacy
  deriving DecidableEq

/-- `PrivacyPolicy::meet` (lines 497–533). -/
def PrivacyPolicy.meet (self other : PrivacyPolicy) : PrivacyPolicy :=
  match self with
  | FullPrivacy => other
  | AllowRevealedAmounts =>
    match other with
    | FullPrivacy => self
    | _ => other
  | AllowRevealedRecipients =>
    match other with
    | FullPrivacy | AllowRevealedAmounts => self
    | AllowRevealedSenders => AllowFullyTransparent
    | AllowLinkingAccountAddresses => NoPrivacy
    | _ => other
  | AllowRevealedSenders =>
    match other with
    | FullPrivacy | AllowRevealedAmounts => self
    | AllowRevealedRecipients => AllowFullyTransparent
    | _ => other
  | AllowFullyTransparent =>
    match other with
    | FullPrivacy | AllowRevealedAmounts | AllowRevealedRecipients | AllowRevealedSenders => self
    | AllowLinkingAccountAddresses => NoPrivacy
    | _ => other
  | AllowLinkingAccountAddresses =>
    match other with
    | FullPrivacy | AllowRevealedAmounts | AllowRevealedSenders => self
    | AllowRevealedRecipients | AllowFullyTransparent => NoPrivacy
    | _ => other
  | NoPrivacy => self

/-- `PrivacyPolicy::is_compatible_with` (lines 546–548). -/
def PrivacyPolicy.isCompatibleWith (self other : PrivacyPolicy) : Bool :=
  decide (self = self.meet other)

/-! ## Proposals -/

inductive PoolType
  | Transparent
  | Shielded (pool : ShieldedPool)
  deriving DecidableEq

/-- A note of the wallet, and the pool it is in. -/
structure ReceivedNote (NoteRef : Type) where
  internalNoteId : NoteRef
  pool : ShieldedPool

/-- A transparent output of the wallet. -/
structure WalletTransparentOutput where
  outpoint : OutPoint
  recipientAddress : TransparentAddress

/-- An output of an earlier step: the step, and the output's index in it. -/
structure StepOutput where
  stepIndex : ℕ
  outputIndex : ℕ

/-- A step of a proposal. -/
structure Step (NoteRef : Type) where
  transparentInputs : List WalletTransparentOutput
  shieldedInputs : List (ReceivedNote NoteRef)
  priorStepInputs : List StepOutput
  paymentPools : List (ℕ × PoolType)
  proposedChange : List PoolType
  isShielding : Bool
  shieldingInputs : isShielding = true → transparentInputs ≠ []

structure Proposal (FeeRuleT NoteRef : Type) where
  feeRule : FeeRuleT
  steps : List (Step NoteRef)

variable {FeeRuleT NoteRef : Type}

/-- `Step::input_in_pool`. -/
def Step.inputInPool (step : Step NoteRef) : PoolType → Bool
  | .Transparent => step.isShielding || !step.transparentInputs.isEmpty
  | .Shielded pool => step.shieldedInputs.any fun note => decide (note.pool = pool)

/-- `Step::output_in_pool`. -/
def Step.outputInPool (step : Step NoteRef) (pool : PoolType) : Bool :=
  step.paymentPools.any fun payment => decide (payment.2 = pool)

/-- `Step::change_in_pool`. -/
def Step.changeInPool (step : Step NoteRef) (pool : PoolType) : Bool :=
  step.proposedChange.any fun change => decide (change = pool)

/-! ## The checks -/

/-- `IncompatiblePrivacyPolicy` (lines 790–822), without the two errors of the
    selection of receivers. -/
inductive IncompatiblePrivacyPolicy
  | NoPrivacy
  | LinkingAccountAddresses
  | FullyTransparent
  | TransparentSender
  | TransparentRecipient
  | TransparentChange
  | RevealingShieldedAmount (pool : ShieldedPool)
  deriving DecidableEq

/-- `all_shielded_pools` (lines 635–643). -/
def allShieldedPools : List ShieldedPool := [.Sapling, .Orchard, .Ironwood]

/-- `shielded_pool_crossed_into` (lines 650–661). -/
def shieldedPoolCrossedInto (step : Step NoteRef) : Option ShieldedPool :=
  let inputPools := allShieldedPools.filter fun pool => step.inputInPool (.Shielded pool)
  allShieldedPools.find? fun pool =>
    (step.outputInPool (.Shielded pool) || step.changeInPool (.Shielded pool)) &&
      inputPools.any fun inputPool => inputPool != pool

/-- The addresses that received the transparent inputs (lines 576–580). -/
def Step.receivedAddrs (step : Step NoteRef) : Finset TransparentAddress :=
  (step.transparentInputs.map (·.recipientAddress)).toFinset

/-- `step_privacy_requirement` (lines 568–628). -/
def stepPrivacyRequirement (step : Step NoteRef) :
    Option (PrivacyPolicy × IncompatiblePrivacyPolicy) :=
  let hasTransparentRecipient := step.outputInPool .Transparent
  let hasTransparentChange := step.changeInPool .Transparent
  if step.inputInPool .Transparent then
    if step.receivedAddrs.card > 1 then
      if hasTransparentRecipient || hasTransparentChange then
        some (.NoPrivacy, .NoPrivacy)
      else
        some (.AllowLinkingAccountAddresses, .LinkingAccountAddresses)
    else if hasTransparentRecipient || hasTransparentChange then
      some (.AllowFullyTransparent, .FullyTransparent)
    else
      some (.AllowRevealedSenders, .TransparentSender)
  else if hasTransparentRecipient then
    some (.AllowRevealedRecipients, .TransparentRecipient)
  else if hasTransparentChange then
    some (.AllowRevealedRecipients, .TransparentChange)
  else
    (shieldedPoolCrossedInto step).map fun pool =>
      (.AllowRevealedAmounts, .RevealingShieldedAmount pool)

/-- The loop of `enforce_privacy_policy` (lines 667–676). -/
def enforceSteps (privacyPolicy : PrivacyPolicy) :
    List (Step NoteRef) → Except IncompatiblePrivacyPolicy Unit
  | [] => .ok ()
  | step :: rest =>
    match stepPrivacyRequirement step with
    | some (required, incompatible) =>
      if privacyPolicy.isCompatibleWith required then enforceSteps privacyPolicy rest
      else .error incompatible
    | none => enforceSteps privacyPolicy rest

/-- `enforce_privacy_policy` (lines 663–679). -/
def enforcePrivacyPolicy (proposal : Proposal FeeRuleT NoteRef) (privacyPolicy : PrivacyPolicy) :
    Except IncompatiblePrivacyPolicy Unit :=
  enforceSteps privacyPolicy proposal.steps

/-- The policy a step requires (lines 708–711). -/
def stepRequired (step : Step NoteRef) : PrivacyPolicy :=
  (stepPrivacyRequirement step).elim .FullPrivacy (·.1)

/-- `required_privacy_policy` (lines 693–714). -/
def requiredPrivacyPolicy (proposal : Proposal FeeRuleT NoteRef) : PrivacyPolicy :=
  proposal.steps.foldl (fun required step => required.meet (stepRequired step)) .FullPrivacy

/-! ## The policies as a semilattice -/

namespace PrivacyPolicy

theorem meet_assoc (a b c : PrivacyPolicy) : (a.meet b).meet c = a.meet (b.meet c) := by
  cases a <;> cases b <;> cases c <;> rfl

theorem meet_comm (a b : PrivacyPolicy) : a.meet b = b.meet a := by
  cases a <;> cases b <;> rfl

theorem meet_self (a : PrivacyPolicy) : a.meet a = a := by
  cases a <;> rfl

/-- `a ≤ b`: the policy `a` allows at least everything that `b` allows. -/
instance : SemilatticeInf PrivacyPolicy where
  le a b := a = a.meet b
  le_refl a := (meet_self a).symm
  le_trans a b c hab hbc := by
    show a = a.meet c
    calc a = a.meet b := hab
      _ = a.meet (b.meet c) := by rw [← (hbc : b = b.meet c)]
      _ = (a.meet b).meet c := (meet_assoc a b c).symm
      _ = a.meet c := by rw [← (hab : a = a.meet b)]
  le_antisymm a b hab hba := by
    calc a = a.meet b := hab
      _ = b.meet a := meet_comm a b
      _ = b := (hba : b = b.meet a).symm
  inf := meet
  inf_le_left a b := by
    show a.meet b = (a.meet b).meet a
    rw [meet_comm (a.meet b), ← meet_assoc, meet_self]
  inf_le_right a b := by
    show a.meet b = (a.meet b).meet b
    rw [meet_assoc, meet_self]
  le_inf a b c hab hac := by
    show a = a.meet (b.meet c)
    rw [← meet_assoc, ← (hab : a = a.meet b)]
    exact hac

instance : OrderTop PrivacyPolicy where
  top := FullPrivacy
  le_top a := by
    show a = a.meet FullPrivacy
    rw [meet_comm]
    rfl

theorem isCompatibleWith_iff {p q : PrivacyPolicy} : p.isCompatibleWith q = true ↔ p ≤ q := by
  simp only [isCompatibleWith, decide_eq_true_eq]
  rfl

end PrivacyPolicy

/-- A fold of meets is the greatest lower bound of what it folds. -/
theorem le_foldl_meet {α : Type} (f : α → PrivacyPolicy) (p : PrivacyPolicy) (l : List α)
    (q : PrivacyPolicy) :
    p ≤ l.foldl (fun acc x => acc.meet (f x)) q ↔ p ≤ q ∧ ∀ x ∈ l, p ≤ f x := by
  induction l generalizing q with
  | nil => simp
  | cons x rest ih =>
    have hinf : p ≤ q.meet (f x) ↔ p ≤ q ∧ p ≤ f x := le_inf_iff
    rw [List.foldl_cons, ih, hinf, List.forall_mem_cons, and_assoc]

/-! ## The check and the report -/

theorem enforceSteps_ok (p : PrivacyPolicy) (steps : List (Step NoteRef)) :
    enforceSteps p steps = .ok () ↔ ∀ step ∈ steps, p ≤ stepRequired step := by
  induction steps with
  | nil => simp [enforceSteps]
  | cons step rest ih =>
    rw [List.forall_mem_cons, enforceSteps, stepRequired]
    cases hreq : stepPrivacyRequirement step with
    | none =>
      have htop : p ≤ PrivacyPolicy.FullPrivacy := le_top
      simp only [Option.elim_none]
      rw [ih]
      exact ⟨fun h => ⟨htop, h⟩, And.right⟩
    | some req =>
      simp only [Option.elim_some]
      split
      · rename_i hcompat
        rw [ih]
        exact ⟨fun h => ⟨PrivacyPolicy.isCompatibleWith_iff.mp hcompat, h⟩, And.right⟩
      · rename_i hcompat
        constructor
        · intro h
          cases h
        · intro h
          exact absurd (PrivacyPolicy.isCompatibleWith_iff.mpr h.1) hcompat

theorem le_requiredPrivacyPolicy (p : PrivacyPolicy) (proposal : Proposal FeeRuleT NoteRef) :
    p ≤ requiredPrivacyPolicy proposal ↔ ∀ step ∈ proposal.steps, p ≤ stepRequired step := by
  rw [requiredPrivacyPolicy, le_foldl_meet]
  exact ⟨And.right, fun h => ⟨le_top, h⟩⟩

/-- A proposal is accepted under exactly the policies compatible with the one
    reported for it, and so under the reported policy itself. -/
theorem enforce_iff_required (proposal : Proposal FeeRuleT NoteRef) :
    (∀ p : PrivacyPolicy, enforcePrivacyPolicy proposal p = .ok () ↔
        p.isCompatibleWith (requiredPrivacyPolicy proposal) = true) ∧
      enforcePrivacyPolicy proposal (requiredPrivacyPolicy proposal) = .ok () := by
  have hiff : ∀ p : PrivacyPolicy, enforcePrivacyPolicy proposal p = .ok () ↔
      p.isCompatibleWith (requiredPrivacyPolicy proposal) = true := by
    intro p
    rw [PrivacyPolicy.isCompatibleWith_iff, le_requiredPrivacyPolicy]
    exact enforceSteps_ok p proposal.steps
  exact ⟨hiff, (hiff _).mpr (PrivacyPolicy.isCompatibleWith_iff.mpr le_rfl)⟩

/-! ## What the policies permit -/

/-- What a transaction can reveal. -/
inductive Leak
  | amounts
  | senders
  | recipients
  | linking
  deriving DecidableEq

/-- The leaks a policy permits (the documentation of lines 409–447). -/
def PrivacyPolicy.permitted : PrivacyPolicy → List Leak
  | FullPrivacy => []
  | AllowRevealedAmounts => [.amounts]
  | AllowRevealedRecipients => [.amounts, .recipients]
  | AllowRevealedSenders => [.amounts, .senders]
  | AllowFullyTransparent => [.amounts, .senders, .recipients]
  | AllowLinkingAccountAddresses => [.amounts, .senders, .linking]
  | NoPrivacy => [.amounts, .senders, .recipients, .linking]

/-- The step takes value out of one shielded pool and puts value into another. -/
def Step.CrossesInto (step : Step NoteRef) (pool : ShieldedPool) : Prop :=
  (∃ note ∈ step.shieldedInputs, note.pool ≠ pool) ∧
    ((∃ payment ∈ step.paymentPools, payment.2 = .Shielded pool) ∨
      .Shielded pool ∈ step.proposedChange)

/-- What a step reveals. -/
def Step.Leaks (step : Step NoteRef) : Leak → Prop
  | .amounts => ∃ pool, step.CrossesInto pool
  | .senders => ∃ input, input ∈ step.transparentInputs
  | .recipients =>
    (∃ payment ∈ step.paymentPools, payment.2 = .Transparent) ∨ .Transparent ∈ step.proposedChange
  | .linking => ∃ a ∈ step.transparentInputs, ∃ b ∈ step.transparentInputs,
      a.recipientAddress ≠ b.recipientAddress

/-- The policies are ordered by what they permit. -/
theorem le_iff_permitted (p q : PrivacyPolicy) : p ≤ q ↔ ∀ l ∈ q.permitted, l ∈ p.permitted := by
  rw [← PrivacyPolicy.isCompatibleWith_iff]
  cases p <;> cases q <;> decide

theorem Step.inputInPool_transparent (step : Step NoteRef) :
    step.inputInPool .Transparent = true ↔ step.Leaks .senders := by
  have hexists : step.Leaks .senders ↔ step.transparentInputs ≠ [] :=
    ⟨fun ⟨_, h⟩ => List.ne_nil_of_mem h, List.exists_mem_of_ne_nil _⟩
  rw [hexists]
  simp only [inputInPool, Bool.or_eq_true, Bool.not_eq_true', List.isEmpty_eq_false_iff]
  exact ⟨fun h => h.elim step.shieldingInputs fun h => h, Or.inr⟩

theorem Step.transparent_recipients (step : Step NoteRef) :
    (step.outputInPool .Transparent || step.changeInPool .Transparent) = true ↔
      step.Leaks .recipients := by
  simp [outputInPool, changeInPool, Leaks]

theorem Step.receivedAddrs_linking (step : Step NoteRef) :
    step.receivedAddrs.card > 1 ↔ step.Leaks .linking := by
  rw [gt_iff_lt, Finset.one_lt_card]
  simp [receivedAddrs, Leaks]

theorem mem_allShieldedPools (pool : ShieldedPool) : pool ∈ allShieldedPools := by
  cases pool <;> decide

theorem shieldedPoolCrossedInto_isSome (step : Step NoteRef) :
    (shieldedPoolCrossedInto step).isSome = true ↔ step.Leaks .amounts := by
  simp only [shieldedPoolCrossedInto, List.find?_isSome, Step.Leaks, Step.CrossesInto,
    Step.inputInPool, Step.outputInPool, Step.changeInPool, Bool.and_eq_true, Bool.or_eq_true,
    List.any_eq_true, List.mem_filter, decide_eq_true_eq, bne_iff_ne]
  constructor
  · rintro ⟨pool, -, hinto, inputPool, ⟨-, note, hnote, rfl⟩, hne⟩
    refine ⟨pool, ⟨note, hnote, hne⟩, hinto.imp_right ?_⟩
    rintro ⟨change, hchange, rfl⟩
    exact hchange
  · rintro ⟨pool, ⟨note, hnote, hne⟩, hinto⟩
    refine ⟨pool, mem_allShieldedPools pool, hinto.imp_right fun h => ⟨_, h, rfl⟩, note.pool, ?_, hne⟩
    exact ⟨mem_allShieldedPools _, note, hnote, rfl⟩

theorem Step.senders_of_linking {step : Step NoteRef} (h : step.Leaks .linking) :
    step.Leaks .senders := by
  obtain ⟨a, ha, -⟩ := h
  exact ⟨a, ha⟩

theorem forall_leak {P : Leak → Prop} :
    (∀ l, P l) ↔ P .amounts ∧ P .senders ∧ P .recipients ∧ P .linking := by
  constructor
  · intro h
    exact ⟨h _, h _, h _, h _⟩
  · rintro ⟨ha, hs, hr, hl⟩ l
    cases l <;> assumption

/-- The policy a step requires, by what the step leaks. -/
theorem stepRequired_eq (step : Step NoteRef) [∀ l, Decidable (step.Leaks l)] :
    stepRequired step =
      if step.Leaks .senders then
        if step.Leaks .linking then
          if step.Leaks .recipients then .NoPrivacy else .AllowLinkingAccountAddresses
        else if step.Leaks .recipients then .AllowFullyTransparent else .AllowRevealedSenders
      else if step.Leaks .recipients then .AllowRevealedRecipients
      else if step.Leaks .amounts then .AllowRevealedAmounts else .FullPrivacy := by
  have hrecipients := step.transparent_recipients
  have hamounts := shieldedPoolCrossedInto_isSome step
  unfold stepRequired stepPrivacyRequirement
  simp only [step.inputInPool_transparent, step.receivedAddrs_linking, hrecipients]
  cases hcrossed : shieldedPoolCrossedInto step
  all_goals
    rw [hcrossed] at hamounts
    split_ifs <;> simp_all

/-- The policy a step requires permits what the step leaks, and besides that at
    most amounts, which every policy but the strictest permits. -/
theorem le_stepRequired (step : Step NoteRef) (p : PrivacyPolicy) :
    p ≤ stepRequired step ↔ ∀ l, step.Leaks l → l ∈ p.permitted := by
  classical
  have hlinking : step.Leaks .linking → step.Leaks .senders := Step.senders_of_linking
  rw [le_iff_permitted, stepRequired_eq]
  simp only [forall_leak]
  split_ifs with hs hl hr hr hr ha
  all_goals cases p <;> simp_all [PrivacyPolicy.permitted]

/-- A proposal is accepted under exactly the policies that permit every leak of
    every step of it. -/
theorem enforce_iff_permits (proposal : Proposal FeeRuleT NoteRef) (p : PrivacyPolicy) :
    enforcePrivacyPolicy proposal p = .ok () ↔
      ∀ step ∈ proposal.steps, ∀ l, step.Leaks l → l ∈ p.permitted := by
  rw [enforcePrivacyPolicy, enforceSteps_ok]
  simp only [le_stepRequired]

end Zallet.Rpc
