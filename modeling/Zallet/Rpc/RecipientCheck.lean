import Zallet.Rpc.Privacy
import Zallet.Rpc.Requests

/-!
# The check of the recipients

The loop of `propose_and_check` over the payments of a request
(`zallet-core/src/components/json_rpc/payments.rs`, lines 228–310), which stops a request
before a proposal is made for it, and the policies it asks
(`PrivacyPolicy::allow_revealed_amounts`, `allow_revealed_recipients`, lines 550–557).

* `Available.Covers`: the remainders never run out on a request of `build_request`.
* `checkRecipients_isOk_iff`: the loop passes exactly the requests in which every address
  is known and, unless the policy permits recipients, has a shielded receiver.
* `rejected_unpayable`: what the loop rejects, no proposal can pay under the policy.
-/

namespace Zallet.Rpc.RecipientCheck

open Zallet.Common Zallet.Common.Loop
open Zallet.Sync (ShieldedPool)

/-! ## The loop -/

/-- `PrivacyPolicy::allow_revealed_amounts`. -/
def allowRevealedAmounts (p : PrivacyPolicy) : Bool := p.isCompatibleWith .AllowRevealedAmounts

/-- `PrivacyPolicy::allow_revealed_recipients`. -/
def allowRevealedRecipients (p : PrivacyPolicy) : Bool :=
  p.isCompatibleWith .AllowRevealedRecipients

/-- `unified::Typecode`. -/
inductive Typecode
  | P2pkh
  | P2sh
  | Sapling
  | Orchard
  | Unknown (typecode : ℕ)
  deriving DecidableEq

/-- `zcash_keys::address::Address`. Of an address the loop reads the kind, and of a unified
    one the types of its receivers. -/
inductive Address
  | Transparent
  | Tex
  | Sapling
  | Unified (receiverTypes : List Typecode)
  deriving DecidableEq

/-- The loop ends in an error of the interface, or in the panic of `expect`. -/
inductive CheckFailure
  | Error (e : RpcError)
  | Panic (message : String)
  deriving DecidableEq

/-- `rec-privpol-privacy-weakening`. -/
def privacyWeakening (policy : String) : String :=
  "THIS MAY AFFECT YOUR PRIVACY. Resubmit with the 'privacyPolicy' parameter set\nto '" ++
    policy ++ "' or weaker if you wish to allow this transaction to proceed\nanyway."

/-- An `IncompatiblePrivacyPolicy` as an error of the interface (lines 829–906): the
    explanation, and the policy to ask for. -/
def incompatible (explanation policy : String) : CheckFailure :=
  .Error (LegacyCode.InvalidParameter.withMessage (explanation ++ " " ++ privacyWeakening policy))

/-- `IncompatiblePrivacyPolicy::TransparentRecipient`. -/
def transparentRecipient : CheckFailure :=
  incompatible ("This transaction would have transparent recipients, which is not enabled by\n" ++
    "default because it will publicly reveal transaction recipients and amounts.")
    "AllowRevealedRecipients"

/-- `IncompatiblePrivacyPolicy::TransparentReceiver`. -/
def transparentReceiver : CheckFailure :=
  incompatible ("This transaction would send to a transparent receiver of a unified address,\n" ++
    "which is not enabled by default because it will publicly reveal transaction\n" ++
    "recipients and amounts.") "AllowRevealedRecipients"

/-- `IncompatiblePrivacyPolicy::RevealingShieldedAmount` of the Sapling pool. -/
def revealingSaplingAmount : CheckFailure :=
  incompatible ("Could not send to the Sapling shielded pool without spending non-Sapling\n" ++
    "funds, which would reveal transaction amounts.") "AllowRevealedAmounts"

/-- `IncompatiblePrivacyPolicy::RevealingReceiverAmounts`. -/
def revealingReceiverAmounts : CheckFailure :=
  incompatible ("Could not send to a shielded receiver of a unified address without spending\n" ++
    "funds from a different pool, which would reveal transaction amounts.")
    "AllowRevealedAmounts"

/-- `Zatoshis - Zatoshis`. -/
def sub (a b : Zatoshis) : Option Zatoshis :=
  if b.value ≤ a.value then some ⟨a.value - b.value, le_trans (Nat.sub_le _ _) a.le_max⟩ else none

/-- The remainders `max_sapling_available` and `max_orchard_available`. -/
structure Available where
  maxSapling : Zatoshis
  maxOrchard : Zatoshis

/-- The remainders at the start (lines 239–240). -/
def Available.full : Available := ⟨⟨maxMoney, le_rfl⟩, ⟨maxMoney, le_rfl⟩⟩

/-- The check of one recipient (lines 249–309). -/
def checkRecipient (p : PrivacyPolicy) (s : Available) (value : Zatoshis) :
    Address → Except CheckFailure Available
  | .Transparent | .Tex =>
    if !allowRevealedRecipients p then .error transparentRecipient else .ok s
  | .Sapling =>
    match allowRevealedAmounts p, sub s.maxSapling value with
    | false, none => .error revealingSaplingAmount
    | false, some rest => .ok { s with maxSapling := rest }
    | true, _ => .ok s
  | .Unified receiverTypes =>
    match allowRevealedAmounts p, (receiverTypes.contains .Orchard, sub s.maxOrchard value),
      (receiverTypes.contains .Sapling, sub s.maxSapling value) with
    | true, (true, _), _ => .ok s
    | false, (true, some rest), _ => .ok { s with maxOrchard := rest }
    | true, _, (true, _) => .ok s
    | false, _, (true, some rest) => .ok { s with maxSapling := rest }
    | _, _, _ =>
      if allowRevealedRecipients p then .ok s
      else if allowRevealedAmounts p then .error transparentReceiver
      else .error revealingReceiverAmounts

section

variable {ZcashAddress MemoBytes : Type} (tryFromZcashAddress : ZcashAddress → Except String Address)

/-- The loop (lines 242–310). `tryFromZcashAddress` is the conversion for the network of the
    wallet; its error is its text. -/
def checkRecipients (p : PrivacyPolicy) :
    Available → List (Payment ZcashAddress MemoBytes) → Except CheckFailure Available
  | s, [] => .ok s
  | s, payment :: payments =>
    match payment.amount with
    | none => .error (.Panic "Every payment built by `build_request` has an amount")
    | some value =>
      match tryFromZcashAddress payment.recipientAddress with
      | .error e => .error (.Error (LegacyCode.InvalidParameter.withMessage e))
      | .ok addr => do
        let rest ← checkRecipient p s value addr
        checkRecipients p rest payments

/-- The loop on a request. -/
def checkRequest (p : PrivacyPolicy) (request : TransactionRequest ZcashAddress MemoBytes) :
    Except CheckFailure Available :=
  checkRecipients tryFromZcashAddress p .full request.payments.values

end

/-! ## What the loop passes -/

/-- There is a shielded receiver. -/
def Address.Shieldable : Address → Prop
  | .Transparent | .Tex => False
  | .Sapling => True
  | .Unified receiverTypes => Typecode.Orchard ∈ receiverTypes ∨ Typecode.Sapling ∈ receiverTypes

theorem allowRevealedRecipients_iff {p : PrivacyPolicy} :
    allowRevealedRecipients p = true ↔ Leak.recipients ∈ p.permitted := by
  cases p <;> decide

/-- The remainders cover what is still to be paid. -/
structure Available.Covers (s : Available) (n : ℕ) : Prop where
  sapling : n ≤ s.maxSapling.value
  orchard : n ≤ s.maxOrchard.value

/-- A remainder that covers a value and more covers the rest after it. -/
theorem sub_covers {a value : Zatoshis} {rest : ℕ} (h : value.value + rest ≤ a.value) :
    ∃ b, sub a value = some b ∧ rest ≤ b.value := by
  have hle : value.value ≤ a.value := by omega
  refine ⟨_, if_pos hle, ?_⟩
  show rest ≤ a.value - value.value
  omega

section

variable {p : PrivacyPolicy} {s : Available} {value : Zatoshis} {rest : ℕ}

theorem Available.Covers.tail (h : s.Covers (value.value + rest)) : s.Covers rest :=
  ⟨le_trans (Nat.le_add_left _ _) h.sapling, le_trans (Nat.le_add_left _ _) h.orchard⟩

/-- A recipient passes if it is shielded or recipients may be revealed, and what remains
    covers the rest. -/
theorem checkRecipient_ok (h : s.Covers (value.value + rest)) {addr : Address}
    (haddr : Leak.recipients ∈ p.permitted ∨ addr.Shieldable) :
    ∃ s', checkRecipient p s value addr = .ok s' ∧ s'.Covers rest := by
  rw [← allowRevealedRecipients_iff] at haddr
  obtain ⟨orchard, horchard, horchardRest⟩ := sub_covers h.orchard
  obtain ⟨sapling, hsapling, hsaplingRest⟩ := sub_covers h.sapling
  have htail := h.tail
  cases addr with
  | Transparent =>
    have hp : allowRevealedRecipients p = true := haddr.resolve_right id
    exact ⟨s, by simp [checkRecipient, hp], htail⟩
  | Tex =>
    have hp : allowRevealedRecipients p = true := haddr.resolve_right id
    exact ⟨s, by simp [checkRecipient, hp], htail⟩
  | Sapling =>
    cases hamounts : allowRevealedAmounts p with
    | true => exact ⟨s, by simp [checkRecipient, hamounts], htail⟩
    | false =>
      exact ⟨{ s with maxSapling := sapling }, by simp [checkRecipient, hamounts, hsapling],
        hsaplingRest, htail.orchard⟩
  | Unified receiverTypes =>
    by_cases ho : Typecode.Orchard ∈ receiverTypes
    · cases hamounts : allowRevealedAmounts p with
      | true => exact ⟨s, by simp [checkRecipient, hamounts, ho], htail⟩
      | false =>
        exact ⟨{ s with maxOrchard := orchard },
          by simp [checkRecipient, hamounts, ho, horchard], htail.sapling, horchardRest⟩
    · by_cases hs : Typecode.Sapling ∈ receiverTypes
      · cases hamounts : allowRevealedAmounts p with
        | true => exact ⟨s, by simp [checkRecipient, hamounts, ho, hs], htail⟩
        | false =>
          exact ⟨{ s with maxSapling := sapling },
            by simp [checkRecipient, hamounts, ho, hs, hsapling], hsaplingRest, htail.orchard⟩
      · have hp : allowRevealedRecipients p = true :=
          haddr.resolve_right fun hshielded => hshielded.elim ho hs
        exact ⟨s, by cases hamounts : allowRevealedAmounts p <;>
          simp [checkRecipient, hamounts, ho, hs, hp], htail⟩

variable (s value) in
/-- No other recipient passes. -/
theorem checkRecipient_error {addr : Address} (hp : Leak.recipients ∉ p.permitted)
    (haddr : ¬ addr.Shieldable) : ∃ e, checkRecipient p s value addr = .error e := by
  rw [← allowRevealedRecipients_iff, Bool.not_eq_true] at hp
  cases addr with
  | Transparent => exact ⟨_, by simp [checkRecipient, hp]; rfl⟩
  | Tex => exact ⟨_, by simp [checkRecipient, hp]; rfl⟩
  | Sapling => exact absurd trivial haddr
  | Unified receiverTypes =>
    obtain ⟨ho, hs⟩ := not_or.mp haddr
    cases hamounts : allowRevealedAmounts p with
    | true => exact ⟨_, by simp [checkRecipient, hamounts, ho, hs, hp]; rfl⟩
    | false => exact ⟨_, by simp [checkRecipient, hamounts, ho, hs, hp]; rfl⟩

variable {ZcashAddress MemoBytes : Type} (tryFromZcashAddress : ZcashAddress → Except String Address)

variable (p) in
/-- The payment passes the loop. -/
def Passes (payment : Payment ZcashAddress MemoBytes) : Prop :=
  ∃ addr, tryFromZcashAddress payment.recipientAddress = .ok addr ∧
    (Leak.recipients ∈ p.permitted ∨ addr.Shieldable)

/-- On payments with amounts that the remainders cover the loop passes exactly those that
    pass each on its own. -/
theorem checkRecipients_isOk_iff {payments : List (Payment ZcashAddress MemoBytes)}
    (hamounts : ∀ payment ∈ payments, payment.amount.isSome = true)
    (h : s.Covers (totalOf payments)) :
    (∃ s', checkRecipients tryFromZcashAddress p s payments = .ok s') ↔
      ∀ payment ∈ payments, Passes p tryFromZcashAddress payment := by
  induction payments generalizing s with
  | nil => exact ⟨fun _ => by simp, fun _ => ⟨s, rfl⟩⟩
  | cons payment payments ih =>
    rw [List.forall_mem_cons] at hamounts ⊢
    obtain ⟨hamount, hrest⟩ := hamounts
    obtain ⟨value, hvalue⟩ := Option.isSome_iff_exists.mp hamount
    have hcovers : s.Covers (value.value + totalOf payments) := by
      rw [totalOf_cons] at h
      simpa [totalOf, hvalue] using h
    simp only [checkRecipients, hvalue]
    cases haddr : tryFromZcashAddress payment.recipientAddress with
    | error e =>
      constructor
      · rintro ⟨s', hs'⟩
        cases hs'
      · rintro ⟨⟨addr, hok, -⟩, -⟩
        rw [haddr] at hok
        cases hok
    | ok addr =>
      simp only [bind_eq_ok]
      by_cases hpass : Leak.recipients ∈ p.permitted ∨ addr.Shieldable
      · obtain ⟨s₁, hs₁, hcovers₁⟩ := checkRecipient_ok hcovers hpass
        rw [hs₁]
        constructor
        · rintro ⟨s', s₂, hs₂, hs'⟩
          cases hs₂
          exact ⟨⟨addr, haddr, hpass⟩, (ih hrest hcovers₁).mp ⟨s', hs'⟩⟩
        · rintro ⟨-, hall⟩
          obtain ⟨s', hs'⟩ := (ih hrest hcovers₁).mpr hall
          exact ⟨s', s₁, rfl, hs'⟩
      · obtain ⟨hp, hshieldable⟩ := not_or.mp hpass
        obtain ⟨e, he⟩ := checkRecipient_error s value hp hshieldable
        rw [he]
        constructor
        · rintro ⟨s', s₂, hs₂, -⟩
          cases hs₂
        · rintro ⟨⟨addr', hok, hpass'⟩, -⟩
          cases haddr.symm.trans hok
          exact absurd hpass' hpass

end

/-! ## What a proposal can pay -/

/-- The pools that a receiver can be paid in. The notes of an Orchard receiver are in the
    Ironwood pool once that is active. -/
def Typecode.pools : Typecode → List PoolType
  | .P2pkh | .P2sh => [.Transparent]
  | .Sapling => [.Shielded .Sapling]
  | .Orchard => [.Shielded .Orchard, .Shielded .Ironwood]
  | .Unknown _ => []

/-- The address can be paid in the pool. -/
def Address.PayableIn (pool : PoolType) : Address → Prop
  | .Transparent | .Tex => pool = .Transparent
  | .Sapling => pool = .Shielded .Sapling
  | .Unified receiverTypes => ∃ receiver ∈ receiverTypes, pool ∈ receiver.pools

section

variable {FeeRuleT NoteRef ZcashAddress MemoBytes : Type}
  (tryFromZcashAddress : ZcashAddress → Except String Address)

/-- The pools of the payments of a proposal, over all of its steps. -/
def paidPools (proposal : Proposal FeeRuleT NoteRef) : List PoolType :=
  proposal.steps.flatMap fun step => step.paymentPools.map Prod.snd

/-- The proposal pays exactly the recipients of the request, each in a pool of its address
    and in whichever step. -/
def PaysExactly (request : TransactionRequest ZcashAddress MemoBytes)
    (proposal : Proposal FeeRuleT NoteRef) : Prop :=
  ∃ pools : List PoolType, pools.Perm (paidPools proposal) ∧
    List.Forall₂ (fun payment pool => ∃ addr,
      tryFromZcashAddress payment.recipientAddress = .ok addr ∧ addr.PayableIn pool)
      request.payments.values pools

/-- An address without a shielded receiver is paid in the transparent pool. -/
theorem transparent_of_payableIn {addr : Address} {pool : PoolType} (haddr : ¬ addr.Shieldable)
    (h : addr.PayableIn pool) : pool = .Transparent := by
  cases addr with
  | Transparent => exact h
  | Tex => exact h
  | Sapling => exact absurd trivial haddr
  | Unified receiverTypes =>
    obtain ⟨ho, hs⟩ := not_or.mp haddr
    obtain ⟨receiver, hreceiver, hpool⟩ := h
    cases receiver with
    | P2pkh => exact List.mem_singleton.mp hpool
    | P2sh => exact List.mem_singleton.mp hpool
    | Sapling => exact absurd hreceiver hs
    | Orchard => exact absurd hreceiver ho
    | Unknown typecode => cases hpool

/-- A proposal that is accepted pays no recipient in the transparent pool unless the policy
    permits recipients. -/
theorem permitted_of_transparent {proposal : Proposal FeeRuleT NoteRef} {p : PrivacyPolicy}
    (hpaid : PoolType.Transparent ∈ paidPools proposal)
    (h : enforcePrivacyPolicy proposal p = .ok ()) : Leak.recipients ∈ p.permitted := by
  obtain ⟨step, hstep, hpool⟩ := List.mem_flatMap.mp hpaid
  obtain ⟨payment, hpayment, hpool⟩ := List.mem_map.mp hpool
  have hle := (enforceSteps_ok p proposal.steps).mp h step hstep
  exact (le_stepRequired step p).mp hle .recipients (Or.inl ⟨payment, hpayment, hpool⟩)

variable {tryFromZcashAddress}

/-- A payment that an accepted proposal makes passes the loop. -/
theorem passes_of_paid {request : TransactionRequest ZcashAddress MemoBytes}
    {proposal : Proposal FeeRuleT NoteRef} {p : PrivacyPolicy}
    (hpays : PaysExactly tryFromZcashAddress request proposal)
    (h : enforcePrivacyPolicy proposal p = .ok ()) :
    ∀ payment ∈ request.payments.values, Passes p tryFromZcashAddress payment := by
  obtain ⟨pools, hperm, hpools⟩ := hpays
  intro payment hpayment
  obtain ⟨pool, hpool, addr, haddr, hin⟩ := exists_of_mem_right hpools.flip hpayment
  refine ⟨addr, haddr, ?_⟩
  by_cases hshieldable : addr.Shieldable
  · exact Or.inr hshieldable
  · rw [transparent_of_payableIn hshieldable hin] at hpool
    exact Or.inl (permitted_of_transparent (hperm.subset hpool) h)

variable [DecidableEq ZcashAddress] {codecs : RequestCodecs ZcashAddress MemoBytes}
  {transparent : ZcashAddress → Bool}

/-- On a request that was built the loop passes exactly the payments that pass each on
    their own. -/
theorem checkRequest_isOk_iff (h : codecs.Lawful transparent) {amounts : List AmountParameter}
    {request : TransactionRequest ZcashAddress MemoBytes} {p : PrivacyPolicy}
    (hbuilt : buildRequest codecs amounts = .ok request) :
    (∃ s, checkRequest tryFromZcashAddress p request = .ok s) ↔
      ∀ payment ∈ request.payments.values, Passes p tryFromZcashAddress payment := by
  obtain ⟨-, ps, hadds, hnew⟩ := (buildRequest_ok h).mp hbuilt
  have hvalues : request.payments.values = ps := by
    rw [h.requestNew_payments ps request hnew, SortedMap.values_enumerate]
  have hamounts : ∀ payment ∈ ps, payment.amount.isSome = true := by
    refine (forall_mem_iff_of_forall₂ (P := fun _ => True) hadds.pays ?_).mp fun _ _ => trivial
    intro a payment hpay
    obtain ⟨value, -, hvalue⟩ := hpay.amount
    rw [hvalue]
    exact ⟨fun _ => rfl, fun _ => trivial⟩
  have htotal : totalOf ps ≤ maxMoney := le_trans (Nat.le_add_left _ _) hadds.total
  rw [checkRequest, hvalues]
  exact checkRecipients_isOk_iff tryFromZcashAddress hamounts ⟨htotal, htotal⟩

/-- The loop is a fast path: where it rejects a request that was built, every proposal that
    pays exactly its recipients is rejected under the policy. -/
theorem rejected_unpayable (h : codecs.Lawful transparent) {amounts : List AmountParameter}
    {request : TransactionRequest ZcashAddress MemoBytes}
    (hbuilt : buildRequest codecs amounts = .ok request)
    (tryFromZcashAddress : ZcashAddress → Except String Address) (p : PrivacyPolicy)
    {e : CheckFailure} (hrejected : checkRequest tryFromZcashAddress p request = .error e)
    (proposal : Proposal FeeRuleT NoteRef)
    (hpays : PaysExactly tryFromZcashAddress request proposal) :
    ∃ incompatible, enforcePrivacyPolicy proposal p = .error incompatible := by
  cases henforce : enforcePrivacyPolicy proposal p with
  | error incompatible => exact ⟨incompatible, rfl⟩
  | ok u =>
    cases u
    obtain ⟨s, hs⟩ := (checkRequest_isOk_iff h hbuilt).mpr (passes_of_paid hpays henforce)
    cases hrejected.symm.trans hs

end

/-! ## A transparent recipient among others -/

namespace SeveralRecipients

open TwoRecipients (TestAddress codecs lawful transparent memoFromBytes)

/-- The Sapling recipient comes first and passes, the transparent one does not. -/
def amounts : List AmountParameter :=
  [⟨TestAddress.text .sapling, .Number ['0', '.', '2', '5'], some ['f', '6']⟩,
    ⟨TestAddress.text .tAddr1, .Number ['1', '.', '5'], none⟩]

def payments : List (Payment TestAddress (List UInt8)) :=
  [⟨.sapling, some ⟨25000000, by norm_num [maxMoney]⟩, memoFromBytes [246]⟩,
    ⟨.tAddr1, some ⟨150000000, by norm_num [maxMoney]⟩, none⟩]

def request : TransactionRequest TestAddress (List UInt8) := ⟨.enumerate payments⟩

def tryFromZcashAddress : TestAddress → Except String Address
  | .tAddr1 => .ok .Transparent
  | .sapling => .ok .Sapling

/-- Two notes of the Sapling pool pay the transparent recipient in one step and the Sapling
    recipient in another. -/
def proposal : Proposal Unit ℕ where
  feeRule := ()
  steps :=
    [{ transparentInputs := [], shieldedInputs := [⟨0, .Sapling⟩], priorStepInputs := []
       paymentPools := [(1, .Transparent)], proposedChange := [.Shielded .Sapling]
       isShielding := false, shieldingInputs := fun h => by cases h },
     { transparentInputs := [], shieldedInputs := [⟨1, .Sapling⟩], priorStepInputs := []
       paymentPools := [(0, .Shielded .Sapling)], proposedChange := [.Shielded .Sapling]
       isShielding := false, shieldingInputs := fun h => by cases h }]

theorem buildRequest_several : buildRequest codecs amounts = .ok request := by
  have htotal : totalOf payments ≤ maxMoney := by decide +kernel
  have hnew : TwoRecipients.requestNew payments = .ok request := by
    rw [TwoRecipients.requestNew, if_pos htotal]
    rfl
  refine (buildRequest_ok lawful).mpr ⟨List.cons_ne_nil _ _, payments, ?_, hnew⟩
  refine ⟨.cons ⟨?_, ⟨_, ?_, rfl⟩, ?_⟩ (.cons ⟨?_, ⟨_, ?_, rfl⟩, trivial⟩ .nil), ?_, ?_, by simp, ?_⟩
  · decide +kernel
  · decide +kernel
  · exact ⟨[246], by decide +kernel, by decide +kernel⟩
  · decide +kernel
  · decide +kernel
  · rw [payments, List.forall_mem_cons, List.forall_mem_singleton]
    constructor
    · constructor
      · rintro ⟨htransparent, -⟩
        cases htransparent
      · rintro ⟨htransparent, -⟩
        cases htransparent
    · rw [Permitted]
      decide +kernel
  · decide
  · decide +kernel

/-- Under `FullPrivacy` the loop rejects the second recipient, and so is the proposal. -/
theorem rejected_unpayable_several :
    ∃ incompatible, enforcePrivacyPolicy proposal .FullPrivacy = .error incompatible := by
  refine rejected_unpayable lawful buildRequest_several tryFromZcashAddress .FullPrivacy
    (e := transparentRecipient) rfl proposal ?_
  refine ⟨[.Shielded .Sapling, .Transparent], .swap _ _ _, ?_⟩
  exact .cons ⟨.Sapling, rfl, rfl⟩ (.cons ⟨.Transparent, rfl, rfl⟩ .nil)

end SeveralRecipients

end Zallet.Rpc.RecipientCheck
