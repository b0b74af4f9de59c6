import Zallet.Rpc.Broadcast

/-!
# The limits of a payment

`check_shielded_action_limits` of
`zallet-core/src/components/json_rpc/payments.rs`, lines 716–772, and the check
of the number of recipients in `z_sendmany`
(`json_rpc/methods/z_send_many.rs`, lines 132–147).

A proposal is compared with a list of recipients through the pools that they
are paid in (`PaysExactly`). `recipientCheck_iff` says for which recipients the
first check rejects nothing that the second would accept: it depends on how the
recipients can be spread over their pools and the steps.
-/

namespace Zallet.Rpc

open Zallet.Common
open Zallet.Common.Loop (bind_eq_ok forall_mem_iff_of_forall₂ map_eq_of_forall₂)
open Zallet.Sync (ShieldedPool)

/-! ## The checks -/

/-- Which side of a bundle exceeds the limit. -/
inductive ActionKind
  | inputs
  | outputs
  | actions
  deriving DecidableEq

/-- `ShieldedActionLimitExceeded` (lines 716–724). -/
structure ShieldedActionLimitExceeded where
  pool : ShieldedPool
  count : ℕ
  kind : ActionKind
  deriving DecidableEq

section

variable {NoteRef : Type}

def Step.spendsIn (step : Step NoteRef) (pool : ShieldedPool) : ℕ :=
  step.shieldedInputs.countP fun note => decide (note.pool = pool)

def Step.outputsIn (step : Step NoteRef) (pool : ShieldedPool) : ℕ :=
  (step.paymentPools.map Prod.snd).count (.Shielded pool) +
    step.proposedChange.count (.Shielded pool)

/-- The check of one pool of a step (lines 735–767). -/
def checkPool (step : Step NoteRef) (limit : ℕ) (pool : ShieldedPool) :
    Except ShieldedActionLimitExceeded Unit :=
  let spends := step.spendsIn pool
  let outputs := step.outputsIn pool
  let actions := max spends outputs
  if actions > limit then
    if outputs ≤ limit then .error ⟨pool, spends, .inputs⟩
    else if spends ≤ limit then .error ⟨pool, outputs, .outputs⟩
    else .error ⟨pool, actions, .actions⟩
  else .ok ()

/-- `check_shielded_action_limits` (lines 726–772). -/
def checkShieldedActionLimits (steps : List (Step NoteRef)) (limit : ℕ) :
    Except ShieldedActionLimitExceeded Unit :=
  forM steps fun step => forM allShieldedPools (checkPool step limit)

end

/-- The message `err-excess-recipients`. -/
def excessRecipients (count limit : ℕ) : String :=
  "Sending to " ++ toString count ++ " recipients would exceed the current limit of " ++
    toString limit ++ " actions, which exists to prevent memory exhaustion, because every " ++
    "recipient needs at least one output. Restart with '-orchardactionlimit=N' where N >= %u to " ++
    "allow the wallet to attempt to construct this transaction."

/-- The check of the number of recipients (z_send_many.rs, lines 138–147). -/
def checkRecipientCount (amounts : List AmountParameter) (actionsLimit : ℕ) :
    Except RpcError Unit :=
  if amounts.length > actionsLimit then
    .error (LegacyCode.Misc.withMessage (excessRecipients amounts.length actionsLimit))
  else .ok ()

/-! ## The recipients of a proposal -/

section

variable {NoteRef ZcashAddress MemoBytes : Type}

/-- The step pays these recipients in these pools. -/
def StepPays (step : PayingStep NoteRef ZcashAddress MemoBytes)
    (paid : List (ZcashAddress × PoolType)) : Prop :=
  List.Forall₂ (fun entry pair => entry.2 = pair.2 ∧
    ∃ payment, step.transactionRequest.payments.get entry.1 = some payment ∧
      payment.recipientAddress = pair.1) step.paymentPools paid

/-- Each recipient is paid in a pool that it can receive in. -/
def Assigns (canReceive : ZcashAddress → PoolType → Bool) (recipients : List ZcashAddress)
    (pools : List PoolType) : Prop :=
  List.Forall₂ (fun recipient pool => canReceive recipient pool = true) recipients pools

/-- The steps together pay exactly these recipients, in whatever pools. -/
def PaysExactly (canReceive : ZcashAddress → PoolType → Bool)
    (steps : PayingSteps NoteRef ZcashAddress MemoBytes) (recipients : List ZcashAddress) : Prop :=
  ∃ paid pools, List.Forall₂ StepPays steps paid ∧ Assigns canReceive recipients pools ∧
    paid.flatten.Perm (recipients.zip pools)

/-- The recipients of the amounts. -/
def recipientsOf (codecs : RequestCodecs ZcashAddress MemoBytes) (amounts : List AmountParameter) :
    List ZcashAddress :=
  amounts.filterMap fun a => codecs.parseAddress a.address

/-- The check of the proposal. -/
def withinLimits (steps : PayingSteps NoteRef ZcashAddress MemoBytes) (limit : ℕ) :
    Except ShieldedActionLimitExceeded Unit :=
  checkShieldedActionLimits (steps.map PayingStep.toStep) limit

/-- The recipients can be paid with at most `limit` of them in each shielded
    pool. -/
def Spreads (canReceive : ZcashAddress → PoolType → Bool) (recipients : List ZcashAddress)
    (limit : ℕ) : Prop :=
  ∃ pools, Assigns canReceive recipients pools ∧
    ∀ pool, pools.count (.Shielded pool) ≤ limit

end

section

variable {NoteRef : Type}

theorem checkPool_ok {step : Step NoteRef} {limit : ℕ} {pool : ShieldedPool} :
    checkPool step limit pool = .ok () ↔
      step.spendsIn pool ≤ limit ∧ step.outputsIn pool ≤ limit := by
  rw [← max_le_iff]
  simp only [checkPool]
  split
  · rename_i hlarge
    have hnot : ¬ max (step.spendsIn pool) (step.outputsIn pool) ≤ limit := by omega
    rw [iff_false_right hnot]
    split
    · simp
    · split
      · simp
      · simp
  · rename_i hsmall
    simpa using hsmall

theorem forM_ok {ε α : Type} {f : α → Except ε Unit} {as : List α} :
    forM as f = .ok () ↔ ∀ a ∈ as, f a = .ok () := by
  induction as with
  | nil => simp [pure, Except.pure]
  | cons a as ih =>
    rw [List.forM_cons, bind_eq_ok, List.forall_mem_cons, ← ih]
    constructor
    · rintro ⟨u, hu, hrest⟩
      exact ⟨hu, hrest⟩
    · rintro ⟨hu, hrest⟩
      exact ⟨(), hu, hrest⟩

theorem checkShieldedActionLimits_ok {steps : List (Step NoteRef)} {limit : ℕ} :
    checkShieldedActionLimits steps limit = .ok () ↔
      ∀ step ∈ steps, ∀ pool, step.spendsIn pool ≤ limit ∧ step.outputsIn pool ≤ limit := by
  have hpools (pool : ShieldedPool) : pool ∈ allShieldedPools := by
    cases pool <;> decide
  unfold checkShieldedActionLimits
  simp only [forM_ok, checkPool_ok, hpools, true_implies]

end

/-! ## Proposals for given pools -/

section

variable {NoteRef ZcashAddress MemoBytes : Type}
  {canReceive : ZcashAddress → PoolType → Bool}

/-- A step from transparent funds that pays these recipients in these pools. -/
def payStep (NoteRef MemoBytes : Type) (inputs : List WalletTransparentOutput) (amount : Zatoshis)
    (paid : List (ZcashAddress × PoolType)) : PayingStep NoteRef ZcashAddress MemoBytes where
  transparentInputs := inputs
  shieldedInputs := []
  priorStepInputs := []
  paymentPools := paid.zipIdx.map fun entry => (entry.2, entry.1.2)
  proposedChange := []
  isShielding := false
  shieldingInputs := by simp
  transactionRequest :=
    ⟨.enumerate (paid.map fun pair => ⟨pair.1, some amount, none⟩)⟩

variable {inputs : List WalletTransparentOutput} {amount : Zatoshis}

theorem stepPays_payStep (paid : List (ZcashAddress × PoolType)) :
    StepPays (payStep NoteRef MemoBytes inputs amount paid) paid := by
  refine List.forall₂_iff_get.mpr ⟨by simp [payStep], fun i hi hi' => ?_⟩
  refine ⟨by simp [payStep], ⟨paid[i].1, some amount, none⟩, ?_, by simp⟩
  simp [payStep, SortedMap.get_enumerate, List.getElem?_eq_getElem hi']

theorem outputsIn_payStep (paid : List (ZcashAddress × PoolType)) (pool : ShieldedPool) :
    (payStep NoteRef MemoBytes inputs amount paid).outputsIn pool =
      (paid.map Prod.snd).count (.Shielded pool) := by
  have hpools : ((payStep NoteRef MemoBytes inputs amount paid).paymentPools.map Prod.snd) =
      paid.map Prod.snd := by
    refine List.ext_getElem (by simp [payStep]) fun i hi hi' => ?_
    simp [payStep]
  rw [Step.outputsIn, hpools]
  simp [payStep]

/-- Steps that pay within the limit. -/
theorem withinLimits_payStep {limit : ℕ} {paids : List (List (ZcashAddress × PoolType))} :
    withinLimits (paids.map (payStep NoteRef MemoBytes inputs amount)) limit = .ok () ↔
      ∀ paid ∈ paids, ∀ pool, (paid.map Prod.snd).count (.Shielded pool) ≤ limit := by
  unfold withinLimits
  rw [checkShieldedActionLimits_ok]
  simp only [List.map_map, List.forall_mem_map, Function.comp_apply, outputsIn_payStep]
  have hspends (paid : List (ZcashAddress × PoolType)) (pool : ShieldedPool) :
      (payStep NoteRef MemoBytes inputs amount paid).spendsIn pool = 0 := by
    simp [Step.spendsIn, payStep]
  simp only [hspends, Nat.zero_le, true_and]

/-- The pools of the payments of a step. -/
theorem StepPays.pools {step : PayingStep NoteRef ZcashAddress MemoBytes}
    {paid : List (ZcashAddress × PoolType)} (h : StepPays step paid) :
    step.paymentPools.map Prod.snd = paid.map Prod.snd :=
  map_eq_of_forall₂ h fun _ _ hentry => hentry.1

theorem count_le_of_withinLimits {steps : PayingSteps NoteRef ZcashAddress MemoBytes} {limit : ℕ}
    {paid : List (List (ZcashAddress × PoolType))} (hpays : List.Forall₂ StepPays steps paid)
    (hok : withinLimits steps limit = .ok ()) :
    ∀ pairs ∈ paid, ∀ pool, (pairs.map Prod.snd).count (.Shielded pool) ≤ limit := by
  have hcheck := checkShieldedActionLimits_ok.mp hok
  rw [List.forall_mem_map] at hcheck
  have hcounts : ∀ step ∈ steps, ∀ pool,
      (step.paymentPools.map Prod.snd).count (.Shielded pool) ≤ limit := fun step hstep pool =>
    le_trans (Nat.le_add_right _ _) (hcheck step hstep pool).2
  exact (forall_mem_iff_of_forall₂ hpays fun step pairs h => by rw [h.pools]).mp hcounts

/-! ## When the first check is covered by the second -/

theorem exists_error_iff {ε : Type} {x : Except ε Unit} : (∃ e, x = .error e) ↔ x ≠ .ok () := by
  cases x with
  | error e => simp
  | ok u => simp

theorem checkRecipientCount_error {amounts : List AmountParameter} {limit : ℕ} :
    (∃ e, checkRecipientCount amounts limit = .error e) ↔ limit < amounts.length := by
  unfold checkRecipientCount
  split
  · rename_i h
    simpa using h
  · rename_i h
    simpa using h

theorem map_snd_zip {recipients : List ZcashAddress} {pools : List PoolType}
    (h : Assigns canReceive recipients pools) : (recipients.zip pools).map Prod.snd = pools :=
  List.map_snd_zip (List.Forall₂.length_eq h).ge

theorem paysExactly_payStep {recipients : List ZcashAddress} {pools : List PoolType}
    {paids : List (List (ZcashAddress × PoolType))} (h : Assigns canReceive recipients pools)
    (hpaids : paids.flatten = recipients.zip pools) :
    PaysExactly canReceive (paids.map (payStep NoteRef MemoBytes inputs amount)) recipients := by
  refine ⟨paids, pools, ?_, h, hpaids ▸ List.Perm.refl _⟩
  rw [List.forall₂_map_left_iff, List.forall₂_same]
  exact fun paid _ => stepPays_payStep paid

/-- A proposal within the limits exists for the recipients. -/
theorem exists_within_iff {recipients : List ZcashAddress} {limit : ℕ} :
    (∃ steps : PayingSteps NoteRef ZcashAddress MemoBytes,
      PaysExactly canReceive steps recipients ∧ withinLimits steps limit = .ok ()) ↔
      ∃ pools, Assigns canReceive recipients pools ∧
        (limit = 0 → ∀ pool ∈ pools, pool = .Transparent) := by
  constructor
  · rintro ⟨steps, ⟨paid, pools, hpays, hassign, hperm⟩, hok⟩
    have hcount := count_le_of_withinLimits hpays hok
    refine ⟨pools, hassign, fun h0 pool hpool => ?_⟩
    rw [← map_snd_zip hassign] at hpool
    obtain ⟨pair, hpair, rfl⟩ := List.mem_map.mp hpool
    obtain ⟨pairs, hpairs, hmem⟩ := List.mem_flatten.mp (hperm.mem_iff.mpr hpair)
    cases hshielded : pair.2 with
    | Transparent => rfl
    | Shielded p =>
      have hle := hcount pairs hpairs p
      have hpos : 0 < (pairs.map Prod.snd).count (.Shielded p) :=
        List.count_pos_iff.mpr (List.mem_map.mpr ⟨pair, hmem, hshielded⟩)
      omega
  · rintro ⟨pools, hassign, hzero⟩
    -- one step for each recipient
    have hpaids : ((recipients.zip pools).map fun pair => [pair]).flatten = recipients.zip pools :=
      List.flatMap_singleton' _
    refine ⟨_, @paysExactly_payStep NoteRef _ MemoBytes _ [] Zatoshis.zero _ _ _ hassign hpaids,
      withinLimits_payStep.mpr ?_⟩
    rw [List.forall_mem_map]
    intro pair hpair pool
    have hmem : pair.2 ∈ pools := by
      rw [← map_snd_zip hassign]
      exact List.mem_map_of_mem hpair
    rcases Nat.eq_zero_or_pos limit with h0 | hpos
    · simp [hzero h0 _ hmem]
    · exact le_trans List.count_le_length hpos

theorem exists_within_one_iff {recipients : List ZcashAddress} {limit : ℕ} :
    (∃ step : PayingStep NoteRef ZcashAddress MemoBytes,
      PaysExactly canReceive [step] recipients ∧ withinLimits [step] limit = .ok ()) ↔
      Spreads canReceive recipients limit := by
  constructor
  · rintro ⟨step, ⟨paid, pools, hpays, hassign, hperm⟩, hok⟩
    have hcount := count_le_of_withinLimits hpays hok
    obtain ⟨pairs, rest, -, hnil, rfl⟩ := List.forall₂_cons_left_iff.mp hpays
    obtain rfl := List.forall₂_nil_left_iff.mp hnil
    refine ⟨pools, hassign, fun pool => ?_⟩
    have hpools : (pairs.map Prod.snd).Perm pools := by
      have h := hperm.map Prod.snd
      rwa [map_snd_zip hassign, List.flatten_cons, List.flatten_nil, List.append_nil] at h
    rw [← hpools.count_eq]
    exact hcount pairs List.mem_cons_self pool
  · rintro ⟨pools, hassign, hcount⟩
    have hpaids : [recipients.zip pools].flatten = recipients.zip pools := by simp
    refine ⟨payStep NoteRef MemoBytes [] Zatoshis.zero (recipients.zip pools),
      paysExactly_payStep hassign hpaids, ?_⟩
    show withinLimits ([recipients.zip pools].map (payStep NoteRef MemoBytes [] Zatoshis.zero))
      limit = .ok ()
    rw [withinLimits_payStep, List.forall_mem_singleton, map_snd_zip hassign]
    exact hcount

/-- The first check rejects only what the second rejects exactly when it rejects
    nothing, or there is no proposal for the recipients that the second accepts:
    with a limit, they cannot be paid at all; without one, they cannot all be paid
    transparently. For proposals of one step, they cannot be spread over their
    pools within the limit. -/
theorem recipientCheck_iff (NoteRef : Type) {MemoBytes : Type}
    (codecs : RequestCodecs ZcashAddress MemoBytes) (canReceive : ZcashAddress → PoolType → Bool)
    (amounts : List AmountParameter) (limit : ℕ) :
    (((∃ e, checkRecipientCount amounts limit = .error e) →
      ∀ steps : PayingSteps NoteRef ZcashAddress MemoBytes,
        PaysExactly canReceive steps (recipientsOf codecs amounts) →
          ∃ e, withinLimits steps limit = .error e) ↔
      amounts.length ≤ limit ∨ ¬ ∃ pools, Assigns canReceive (recipientsOf codecs amounts) pools ∧
        (limit = 0 → ∀ pool ∈ pools, pool = .Transparent)) ∧
      (((∃ e, checkRecipientCount amounts limit = .error e) →
        ∀ step : PayingStep NoteRef ZcashAddress MemoBytes,
          PaysExactly canReceive [step] (recipientsOf codecs amounts) →
            ∃ e, withinLimits [step] limit = .error e) ↔
        amounts.length ≤ limit ∨ ¬ Spreads canReceive (recipientsOf codecs amounts) limit) := by
  have hcover {α : Type} {Pays : α → Prop} {check : α → Except ShieldedActionLimitExceeded Unit}
      {P : Prop} (hP : (∃ a, Pays a ∧ check a = .ok ()) ↔ P) :
      ((∃ e, checkRecipientCount amounts limit = .error e) →
        ∀ a, Pays a → ∃ e, check a = .error e) ↔ amounts.length ≤ limit ∨ ¬ P := by
    rw [checkRecipientCount_error, ← hP, ← not_lt, ← imp_iff_not_or, not_exists]
    simp only [exists_error_iff, not_and, ne_eq]
  exact ⟨hcover exists_within_iff, hcover exists_within_one_iff⟩

end

/-! ## A transparent and a shielded recipient -/

namespace TwoRecipients

/-- The addresses of the test are paid in their own pool. -/
def canReceive : TestAddress → PoolType → Bool
  | .tAddr1, pool => decide (pool = .Transparent)
  | .sapling, pool => decide (pool = .Shielded .Sapling)

/-- One step, from a transparent output. -/
def step : PayingStep Unit TestAddress (List UInt8) :=
  payStep Unit (List UInt8) [⟨⟨1, 0⟩, .PublicKeyHash 0⟩] TwoSteps.value
    [(.tAddr1, .Transparent), (.sapling, .Shielded .Sapling)]

theorem paysExactly : PaysExactly canReceive [step] (recipientsOf codecs amounts) := by
  have hrecipients : recipientsOf codecs amounts = [.tAddr1, .sapling] := by decide +kernel
  rw [hrecipients]
  have hassign : Assigns canReceive [.tAddr1, .sapling] [.Transparent, .Shielded .Sapling] :=
    .cons rfl (.cons rfl .nil)
  have hpaids :
      [[(TestAddress.tAddr1, PoolType.Transparent), (.sapling, .Shielded .Sapling)]].flatten =
      [TestAddress.tAddr1, .sapling].zip [.Transparent, .Shielded .Sapling] := rfl
  exact paysExactly_payStep hassign hpaids

end TwoRecipients

/-- With a limit of one action, two recipients are rejected whose proposal has one
    action. -/
theorem recipientCheck_rejects_two :
    (∃ e, checkRecipientCount TwoRecipients.amounts 1 = .error e) ∧
      PaysExactly TwoRecipients.canReceive [TwoRecipients.step]
        (recipientsOf TwoRecipients.codecs TwoRecipients.amounts) ∧
      withinLimits [TwoRecipients.step] 1 = .ok () :=
  ⟨checkRecipientCount_error.mpr (by decide), TwoRecipients.paysExactly, by decide +kernel⟩

end Zallet.Rpc
