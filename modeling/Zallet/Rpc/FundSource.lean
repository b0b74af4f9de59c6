import Mathlib.Data.Finset.Insert
import Zallet.Rpc.Broadcast
import Zallet.Rpc.RecipientCheck

/-!
# The source of the funds of a payment

`fund_source.rs`, and from `payments.rs` (lines 158–226) and `z_send_many.rs`
(lines 64–83) what else a payment may spend: a request names a source, and the
proposer is given the `SpendPolicy` of it.

A set of addresses or pools is a `Finset`, as a `BTreeSet` does not keep the order
in which it was filled. All transparent policies exclude coinbase outputs.

* `Funds`: the notes and outputs that a source names, by pool and by address.
* `parse_isOk`: the values of `fund_source` that are accepted.
* `ofPolicy_spendPolicy`, `ofPolicy_spendPolicyFor`: a policy permits the funds that
  its source names.
* `weakest_le_required`: what privacy the spending of given funds can need.
-/

namespace Zallet.Rpc.Sources

open Zallet.Chain (TransparentAddress)
open Zallet.Common.Loop
open Zallet.Sync (ShieldedPool)

/-! ## Spend policies -/

/-- A `NonEmpty` of distinct addresses. -/
abbrev Addresses := { addrs : Finset TransparentAddress // addrs.Nonempty }

/-- `TransparentSource`. -/
inductive TransparentSource
  | AnyAccountAddr
  | FromAddresses (addrs : Addresses)

/-- `SpendPolicy` of `zcash_client_backend`. -/
structure SpendPolicy where
  shielded : Finset ShieldedPool
  transparent : Option TransparentSource

/-- `SpendPolicy::shielded_pools`. -/
def SpendPolicy.shieldedPools (pools : Finset ShieldedPool) : SpendPolicy := ⟨pools, none⟩

/-- `SpendPolicy::with_transparent`. -/
def SpendPolicy.withTransparent (policy : SpendPolicy) (source : TransparentSource) : SpendPolicy :=
  { policy with transparent := some source }

/-- `SpendPolicy::default`: any shielded pool. -/
def SpendPolicy.default : SpendPolicy := .shieldedPools {.Sapling, .Orchard, .Ironwood}

/-! ## Sources -/

/-- `FundSource` (lines 24–39). -/
inductive FundSource
  | Orchard
  | Ironwood
  | Sapling
  | AnyTransparent
  | Transparent (addrs : Addresses)

def sourceError {α : Type} (message : String) : Except RpcError α :=
  .error (LegacyCode.InvalidParameter.withMessage ("Invalid fund_source: " ++ message))

section

-- `Address::decode` for the network of the wallet.
variable (decode : List Char → Option Address)

/-- The loop over the entries of an array (lines 61–79). -/
def collectAddrs : List JsonValue → Finset TransparentAddress →
    Except RpcError (Finset TransparentAddress)
  | [], set => .ok set
  | .String s :: addrs, set =>
    match decode s with
    | some (.Transparent ta) => collectAddrs addrs (Insert.insert ta set)
    | _ => sourceError ("\"" ++ String.ofList s ++ "\" is not a transparent address.")
  | _ :: _, _ => sourceError "array entries must be transparent address strings."

/-- `FundSource::parse` (lines 47–93). -/
def FundSource.parse : JsonValue → Except RpcError FundSource
  | .String s =>
    if s = "orchard".toList then .ok .Orchard
    else if s = "ironwood".toList then .ok .Ironwood
    else if s = "sapling".toList then .ok .Sapling
    else if s = "any_transparent".toList then .ok .AnyTransparent
    else sourceError ("expected \"orchard\", \"sapling\", \"any_transparent\", or\n" ++
      "an array of transparent addresses, got \"" ++ String.ofList s ++ "\".")
  | .Array addrs => do
    let set ← collectAddrs decode addrs ∅
    if h : set.Nonempty then .ok (.Transparent ⟨set, h⟩)
    else sourceError "the array of transparent addresses is empty."
  | _ => sourceError "expected a string or an array of transparent addresses."

end

/-- `FundSource::spend_policy` (lines 110–122). -/
def FundSource.spendPolicy : FundSource → SpendPolicy
  | Orchard => .shieldedPools {.Orchard, .Ironwood}
  | Ironwood => .shieldedPools {.Ironwood}
  | Sapling => .shieldedPools {.Sapling}
  | AnyTransparent => (SpendPolicy.shieldedPools ∅).withTransparent .AnyAccountAddr
  | Transparent addrs => (SpendPolicy.shieldedPools ∅).withTransparent (.FromAddresses addrs)

/-- `spend_policy_for` (payments.rs, lines 180–209). -/
def spendPolicyFor : Address → SpendPolicy
  | .Transparent taddr => (SpendPolicy.shieldedPools ∅).withTransparent
      (.FromAddresses ⟨{taddr}, Finset.singleton_nonempty taddr⟩)
  | .Sapling _ => .shieldedPools {.Sapling}
  | .Unified ua => .shieldedPools
      ((if ua.hasSapling then {.Sapling} else ∅) ∪ if ua.hasOrchard then {.Orchard, .Ironwood} else ∅)
  | .Tex _ => .shieldedPools ∅

/-- `legacy_pool_spend_policy` (z_send_many.rs, lines 81–83). -/
def legacyPoolSpendPolicy : SpendPolicy :=
  (SpendPolicy.shieldedPools ∅).withTransparent .AnyAccountAddr

inductive TransparentChangePolicy
  | TransparentChangeAllowed
  | ShieldChange
  deriving DecidableEq

/-- `transparent_change_policy_for` (payments.rs, lines 221–226). -/
def transparentChangePolicyFor (spendPolicy : SpendPolicy) : TransparentChangePolicy :=
  match spendPolicy.transparent with
  | some _ => .TransparentChangeAllowed
  | none => .ShieldChange

/-! ## Funds -/

/-- Notes and transparent outputs: those in some pools and those at some addresses. -/
@[ext] structure Funds where
  pools : Set ShieldedPool
  addresses : Set TransparentAddress

/-- The funds that a policy permits of an account with these transparent receivers. -/
def Funds.ofPolicy (receivers : Set TransparentAddress) (policy : SpendPolicy) : Funds where
  pools := policy.shielded
  addresses :=
    match policy.transparent with
    | none => ∅
    | some .AnyAccountAddr => receivers
    | some (.FromAddresses addrs) => addrs.val

/-- The entry of an array is the text of the address. -/
def Names (decode : List Char → Option Address) (entry : JsonValue) (addr : TransparentAddress) :
    Prop :=
  ∃ s, entry = .String s ∧ decode s = some (.Transparent addr)

/-- The funds that a value of `fund_source` names. -/
def Funds.ofSource (decode : List Char → Option Address) (receivers : Set TransparentAddress) :
    JsonValue → Funds
  | .String s =>
    { pools := { pool | s = "orchard".toList ∧ pool ≠ .Sapling ∨
        s = "ironwood".toList ∧ pool = .Ironwood ∨ s = "sapling".toList ∧ pool = .Sapling }
      addresses := { addr | s = "any_transparent".toList ∧ addr ∈ receivers } }
  | .Array entries => ⟨∅, { addr | ∃ entry ∈ entries, Names decode entry addr }⟩
  | _ => ⟨∅, ∅⟩

/-- The funds that an address names: those it receives, but not at the transparent
    receiver of a unified address. -/
def Funds.ofAddress : Address → Funds
  | .Transparent taddr => ⟨∅, {taddr}⟩
  | .Sapling _ => ⟨{.Sapling}, ∅⟩
  | .Unified ua =>
    ⟨{ pool | ua.hasSapling = true ∧ pool = .Sapling ∨ ua.hasOrchard = true ∧ pool ≠ .Sapling }, ∅⟩
  | .Tex _ => ⟨∅, ∅⟩

/-- The value of `fund_source` is a source. -/
inductive IsSource (decode : List Char → Option Address) : JsonValue → Prop
  | named {s : List Char} : s = "orchard".toList ∨ s = "ironwood".toList ∨ s = "sapling".toList ∨
      s = "any_transparent".toList → IsSource decode (.String s)
  | array {entries : List JsonValue} : entries ≠ [] →
      (∀ entry ∈ entries, ∃ addr, Names decode entry addr) → IsSource decode (.Array entries)

variable {decode : List Char → Option Address} {receivers : Set TransparentAddress}

/-! ## What is parsed -/

/-- A turn of the loop takes the address that the entry names. -/
theorem collectAddrs_cons {entry : JsonValue} {entries : List JsonValue}
    {set out : Finset TransparentAddress} :
    collectAddrs decode (entry :: entries) set = .ok out ↔
      ∃ addr, Names decode entry addr ∧
        collectAddrs decode entries (Insert.insert addr set) = .ok out := by
  cases entry with
  | String s =>
    simp only [collectAddrs, Names, JsonValue.String.injEq, exists_eq_left']
    cases hs : decode s with
    | none => simp [sourceError]
    | some address =>
      cases address with
      | Transparent addr => simp
      | _ => simp [sourceError]
  | _ => simp [collectAddrs, Names, sourceError]

theorem collectAddrs_isOk {entries : List JsonValue} {set : Finset TransparentAddress} :
    (∃ out, collectAddrs decode entries set = .ok out) ↔
      ∀ entry ∈ entries, ∃ addr, Names decode entry addr := by
  induction entries generalizing set with
  | nil => simp [collectAddrs]
  | cons entry entries ih =>
    simp only [collectAddrs_cons, List.forall_mem_cons]
    constructor
    · rintro ⟨out, addr, hentry, hrest⟩
      exact ⟨⟨addr, hentry⟩, ih.mp ⟨out, hrest⟩⟩
    · rintro ⟨⟨addr, hentry⟩, hrest⟩
      obtain ⟨out, hout⟩ := ih.mpr hrest
      exact ⟨out, addr, hentry, hout⟩

/-- An entry names one address. -/
theorem Names.unique {entry : JsonValue} {addr addr' : TransparentAddress}
    (h : Names decode entry addr) (h' : Names decode entry addr') : addr = addr' := by
  obtain ⟨s, rfl, hs⟩ := h
  obtain ⟨s', heq, hs'⟩ := h'
  cases heq
  rw [hs] at hs'
  exact Address.Transparent.inj (Option.some.inj hs')

/-- The loop collects what the entries name, in whatever order and however often. -/
theorem mem_collectAddrs {entries : List JsonValue} {set out : Finset TransparentAddress}
    (h : collectAddrs decode entries set = .ok out) (addr : TransparentAddress) :
    addr ∈ out ↔ addr ∈ set ∨ ∃ entry ∈ entries, Names decode entry addr := by
  induction entries generalizing set with
  | nil =>
    cases h
    simp
  | cons entry entries ih =>
    obtain ⟨addr', hentry, hrest⟩ := collectAddrs_cons.mp h
    have hnames : Names decode entry addr ↔ addr = addr' := by
      constructor
      · intro hn
        exact hn.unique hentry
      · rintro rfl
        exact hentry
    rw [ih hrest, Finset.mem_insert, List.exists_mem_cons_iff, hnames]
    tauto

/-- The parser accepts the sources and nothing else. -/
theorem parse_isOk {value : JsonValue} :
    (∃ source, FundSource.parse decode value = .ok source) ↔ IsSource decode value := by
  cases value with
  | String s =>
    have hiff : IsSource decode (.String s) ↔ s = "orchard".toList ∨ s = "ironwood".toList ∨
        s = "sapling".toList ∨ s = "any_transparent".toList := by
      constructor
      · intro h
        cases h with
        | named h => exact h
      · exact .named
    rw [hiff, FundSource.parse]
    split_ifs
    all_goals simp_all [sourceError]
  | Array entries =>
    have hiff : IsSource decode (.Array entries) ↔ entries ≠ [] ∧
        ∀ entry ∈ entries, ∃ addr, Names decode entry addr := by
      constructor
      · intro h
        cases h with
        | array hne h => exact ⟨hne, h⟩
      · intro h
        exact .array h.1 h.2
    simp only [hiff, FundSource.parse, bind_eq_ok]
    constructor
    · rintro ⟨source, set, hset, hsource⟩
      refine ⟨?_, collectAddrs_isOk.mp ⟨set, hset⟩⟩
      rintro rfl
      cases hset
      simp [sourceError] at hsource
    · rintro ⟨hne, hall⟩
      obtain ⟨set, hset⟩ := (@collectAddrs_isOk decode entries ∅).mpr hall
      obtain ⟨entry, hentry⟩ := List.exists_mem_of_ne_nil _ hne
      obtain ⟨addr, haddr⟩ := hall entry hentry
      have hnonempty : set.Nonempty :=
        ⟨addr, (mem_collectAddrs hset addr).mpr (Or.inr ⟨entry, hentry, haddr⟩)⟩
      exact ⟨_, set, hset, dif_pos hnonempty⟩
  | _ =>
    constructor
    · rintro ⟨source, h⟩
      cases h
    · intro h
      cases h

/-- Only one value is the Ironwood pool. -/
theorem parse_ironwood {value : JsonValue} (h : FundSource.parse decode value = .ok .Ironwood) :
    value = .String "ironwood".toList := by
  cases value with
  | String s =>
    by_cases hironwood : s = "ironwood".toList
    · rw [hironwood]
    · rw [FundSource.parse, if_neg hironwood] at h
      split_ifs at h
      all_goals simp [sourceError] at h
  | Array entries =>
    obtain ⟨set, -, h⟩ := bind_eq_ok.mp h
    split at h
    · cases h
    · simp [sourceError] at h
  | _ => cases h

/-- The policy of a source permits the funds that the parsed value names. -/
theorem ofPolicy_spendPolicy {value : JsonValue} {source : FundSource}
    (h : FundSource.parse decode value = .ok source) :
    Funds.ofPolicy receivers source.spendPolicy = Funds.ofSource decode receivers value := by
  cases value with
  | String s =>
    rw [FundSource.parse] at h
    split_ifs at h
    case neg => simp [sourceError] at h
    all_goals
      obtain rfl := Except.ok.inj h
      subst s
      apply Funds.ext
      · ext pool
        cases pool <;> simp [Funds.ofPolicy, Funds.ofSource, FundSource.spendPolicy,
          SpendPolicy.withTransparent, SpendPolicy.shieldedPools]
      · ext addr
        simp [Funds.ofPolicy, Funds.ofSource, FundSource.spendPolicy, SpendPolicy.withTransparent,
          SpendPolicy.shieldedPools]
  | Array entries =>
    obtain ⟨set, hset, hsource⟩ := bind_eq_ok.mp h
    split at hsource
    · obtain rfl := Except.ok.inj hsource
      apply Funds.ext
      · simp [Funds.ofPolicy, Funds.ofSource, FundSource.spendPolicy, SpendPolicy.withTransparent,
          SpendPolicy.shieldedPools]
      · ext addr
        show addr ∈ set ↔ _
        rw [mem_collectAddrs hset addr]
        simp [Funds.ofSource]
    · cases hsource
  | _ => cases h

theorem ofPolicy_spendPolicyFor (address : Address) :
    Funds.ofPolicy receivers (spendPolicyFor address) = Funds.ofAddress address := by
  cases address with
  | Unified ua =>
    apply Funds.ext
    · ext pool
      cases hsapling : ua.hasSapling <;> cases horchard : ua.hasOrchard <;> cases pool <;>
        simp [Funds.ofPolicy, Funds.ofAddress, spendPolicyFor, SpendPolicy.shieldedPools, hsapling,
          horchard]
    · simp [Funds.ofPolicy, Funds.ofAddress, spendPolicyFor, SpendPolicy.shieldedPools]
  | _ =>
    apply Funds.ext
    all_goals simp [Funds.ofPolicy, Funds.ofAddress, spendPolicyFor, SpendPolicy.shieldedPools,
      SpendPolicy.withTransparent]

/-! ## What is revealed -/

section

variable {FeeRuleT NoteRef : Type} {funds : Funds}

/-- A step spends nothing else. -/
structure Step.Within (step : Step NoteRef) (funds : Funds) : Prop where
  notes : ∀ note ∈ step.shieldedInputs, note.pool ∈ funds.pools
  inputs : ∀ input ∈ step.transparentInputs, input.recipientAddress ∈ funds.addresses

/-- Notes reveal no senders. -/
theorem Step.Within.senders {step : Step NoteRef} (h : Step.Within step funds)
    (hnone : funds.addresses = ∅) : ¬ step.Leaks .senders := by
  rintro ⟨input, hinput⟩
  have hmem := h.inputs input hinput
  rw [hnone] at hmem
  exact hmem

/-- The outputs of one address are not linked. -/
theorem Step.Within.linking {step : Step NoteRef} (h : Step.Within step funds)
    (hone : funds.addresses.Subsingleton) : ¬ step.Leaks .linking := by
  rintro ⟨a, ha, b, hb, hne⟩
  exact hne (hone (h.inputs a ha) (h.inputs b hb))

/-- The policy that is weak enough for the spending of these funds. -/
noncomputable def Funds.weakest (funds : Funds) : PrivacyPolicy := by
  classical
  exact if funds.addresses = ∅ then .AllowRevealedRecipients
    else if funds.addresses.Subsingleton then .AllowFullyTransparent else .NoPrivacy

/-- No proposal for the funds needs a weaker policy. -/
theorem weakest_le_required {proposal : Proposal FeeRuleT NoteRef}
    (h : ∀ step ∈ proposal.steps, Step.Within step funds) :
    funds.weakest ≤ requiredPrivacyPolicy proposal := by
  rw [le_requiredPrivacyPolicy]
  intro step hstep
  have hwithin := h step hstep
  apply (le_stepRequired step _).mpr
  intro l hl
  unfold Funds.weakest
  split_ifs with hnone hone
  · cases l with
    | senders => exact absurd hl (hwithin.senders hnone)
    | linking => exact absurd (Step.senders_of_linking hl) (hwithin.senders hnone)
    | _ => decide
  · cases l with
    | linking => exact absurd hl (hwithin.linking hone)
    | _ => decide
  · cases l <;> decide

end

end Zallet.Rpc.Sources
