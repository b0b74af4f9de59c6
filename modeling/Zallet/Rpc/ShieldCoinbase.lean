import Zallet.Rpc.Balances
import Zallet.Rpc.Payments

/-!
# Shielding coinbase outputs

`z_shieldcoinbase` (`json_rpc/methods/z_shieldcoinbase.rs`, lines 149–313 and 359–533) until
the seed is decrypted.

`ShieldCrates` has the parsers and `propose_shielding_coinbase`, `ShieldWallet` the answers of
the wallet database. The eligible outputs are listed after the proposal is made, when the
wallet may have changed. Numbers of outputs are natural numbers, and the values of the answer
are in zatoshis.

* `sumOver_eq_ok`: the two loops over outputs count and add up all of them.
* `preflight_eq_ok`: when the numbers of the answer can be told, and what they are.
* `Shields`: what holds of a call that is accepted, also under other policies.
* `shields_coinbase`: it holds, and the numbers can be told in a wallet that has not changed.
-/

namespace Zallet.Rpc.ShieldCoinbase

open Zallet.Chain (TransparentAddress)
open Zallet.Common.Loop
open Zallet.Rpc.Accounts Zallet.Rpc.Payments
open Zallet.Wallet (AccountUuid)

/-! ## What the call uses -/

/-- The parsers and encodings, `propose_shielding_coinbase`, and what the call reads of its
    result. An output keeps its value. -/
structure ShieldCrates (ZcashAddress MemoBytes : Type) where
  codecs : RequestCodecs ZcashAddress MemoBytes
  decode : List Char → Option Rpc.Address
  parseUuid : List Char → Option AccountUuid
  uuidText : AccountUuid → String
  uuidDebug : AccountUuid → String
  addressDebug : TransparentAddress → String
  textDebug : List Char → String
  proposeShieldingCoinbase : List TransparentAddress → ZcashAddress → Option MemoBytes → Option ℕ →
    Except String (Proposal StandardFeeRule Empty)
  minTargetHeight : Proposal StandardFeeRule Empty → ℕ
  value : WalletTransparentOutput → Zatoshis

/-- The answers of the wallet database. The spendable outputs are those of coinbase
    transactions that are not locked. -/
structure ShieldWallet where
  getAccount : AccountUuid → Except String (Option Account)
  getTransparentReceivers : AccountUuid → Except String (List TransparentAddress)
  findAccountForAddress : TransparentAddress → Except String (Option AccountUuid)
  getSpendableTransparentOutputs :
    TransparentAddress → ℕ → Except String (List WalletTransparentOutput)

/-- `FromAddressInput` (lines 363–369). -/
inductive FromAddressInput
  | AccountUuid (uuid : AccountUuid)
  | TransparentAddress (addr : TransparentAddress)
  deriving DecidableEq

/-- The numbers of a `Preflight` (lines 109–114). -/
structure Preflight where
  remainingUtxos : ℕ
  remainingValue : Zatoshis
  shieldingUtxos : ℕ
  shieldingValue : Zatoshis
  deriving DecidableEq

/-- A call that goes on to decrypt the seed. -/
structure Shielding where
  account : Account
  proposal : Proposal StandardFeeRule Empty
  preflight : Preflight

/-- The outputs that a proposal spends. -/
def selected (proposal : Proposal StandardFeeRule Empty) : List WalletTransparentOutput :=
  proposal.steps.flatMap Step.transparentInputs

/-! ## The call -/

section

variable {ZcashAddress MemoBytes : Type} (S : ShieldCrates ZcashAddress MemoBytes)
  (W : ShieldWallet)

/-- `parse_fromaddress` (lines 377–407). -/
def parseFromaddress (fromaddress : List Char) : Except SendFailure FromAddressInput :=
  if fromaddress = ['*'] then
    refuse (LegacyCode.InvalidParameter.withMessage
      ("Invalid `fromaddress`: the `\"*\"` wildcard (sweep all wallet t-addrs) is not " ++
        "supported by Zallet. Pass either a wallet-owned transparent address or an " ++
        "account UUID to scope the sweep."))
  else
    match S.parseUuid fromaddress with
    | some uuid => .ok (.AccountUuid uuid)
    | none =>
      match S.decode fromaddress with
      | some (.Transparent addr) => .ok (.TransparentAddress addr)
      | some _ => refuse (LegacyCode.InvalidAddressOrKey.withMessage
          ("Invalid `fromaddress`: only transparent addresses are accepted (got a " ++
            "non-transparent Zcash address): " ++ String.ofList fromaddress))
      | none => refuse (LegacyCode.InvalidParameter.withMessage
          ("Invalid `fromaddress`: expected a wallet-owned transparent address or an " ++
            "account UUID, got " ++ S.textDebug fromaddress))

/-- `resolve_fromaddress_input` (lines 411–445). -/
def resolveFromaddressInput :
    FromAddressInput → Except SendFailure (AccountUuid × List TransparentAddress)
  | .AccountUuid uuid => do
    match ← interface (database (W.getAccount uuid)) with
    | none => refuse (LegacyCode.InvalidParameter.withMessage
        ("Unknown account UUID: " ++ S.uuidText uuid))
    | some _ => do
      let fromAddrs ← interface (database (W.getTransparentReceivers uuid))
      .ok (uuid, fromAddrs)
  | .TransparentAddress addr => do
    match ← interface (database (W.findAccountForAddress addr)) with
    | none => refuse (LegacyCode.InvalidAddressOrKey.withMessage
        ("Transparent address is not owned by any account in this wallet: " ++
          S.addressDebug addr))
    | some owner => .ok (owner, [addr])

/-- The policy where none is given. -/
def FromAddressInput.defaultPolicy : FromAddressInput → PrivacyPolicy
  | .TransparentAddress _ => .AllowRevealedSenders
  | .AccountUuid _ => .AllowLinkingAccountAddresses

/-- `parse_privacy_policy` (lines 466–483). -/
def parsePrivacyPolicy (privacyPolicy : Option String) (fromInput : FromAddressInput) :
    Except SendFailure PrivacyPolicy :=
  match privacyPolicy with
  | none => .ok fromInput.defaultPolicy
  | some other =>
    if other = "AllowRevealedSenders" then .ok .AllowRevealedSenders
    else if other = "AllowLinkingAccountAddresses" then .ok .AllowLinkingAccountAddresses
    else refuse (LegacyCode.InvalidParameter.withMessage
      ("Invalid privacy_policy " ++ S.textDebug other.toList ++ " for z_shieldcoinbase: only " ++
        "\"AllowRevealedSenders\" and \"AllowLinkingAccountAddresses\" are accepted, " ++
        "because coinbase shielding always reveals the source transparent address(es)."))

/-- The loop over outputs, with the message of an overflow. -/
def addUtxos (overflow : String) :
    List WalletTransparentOutput → ℕ × Zatoshis → Except RpcError (ℕ × Zatoshis)
  | [], total => .ok total
  | utxo :: utxos, total =>
    match total.2.add (S.value utxo) with
    | none => .error (LegacyCode.Wallet.withMessage overflow)
    | some sum => addUtxos overflow utxos (total.1 + 1, sum)

/-- The loop over what has outputs. -/
def sumOver {α : Type} (utxos : α → Except RpcError (List WalletTransparentOutput))
    (overflow : String) : List α → ℕ × Zatoshis → Except RpcError (ℕ × Zatoshis)
  | [], total => .ok total
  | a :: rest, total => do
    let found ← utxos a
    let total ← addUtxos S overflow found total
    sumOver utxos overflow rest total

/-- `sum_selected_inputs` (lines 485–500). -/
def sumSelectedInputs (proposal : Proposal StandardFeeRule Empty) :
    Except RpcError (ℕ × Zatoshis) :=
  sumOver S (fun step : Step Empty => .ok step.transparentInputs)
    "Internal error: shielding value sum overflowed Zatoshis bounds." proposal.steps
    (0, Zatoshis.zero)

/-- `enumerate_eligible` (lines 502–533). -/
def enumerateEligible (fromAddrs : List TransparentAddress) (targetHeight : ℕ) :
    Except RpcError (ℕ × Zatoshis) :=
  sumOver S (fun addr => database (W.getSpendableTransparentOutputs addr targetHeight))
    "Internal error: total transparent value overflowed Zatoshis bounds." fromAddrs
    (0, Zatoshis.zero)

/-- The numbers of the answer (lines 269–305). -/
def preflight (fromAddrs : List TransparentAddress) (proposal : Proposal StandardFeeRule Empty) :
    Except RpcError Preflight := do
  let shielding ← sumSelectedInputs S proposal
  let total ← enumerateEligible S W fromAddrs (S.minTargetHeight proposal)
  if total.1 < shielding.1 then
    .error (LegacyCode.Wallet.withMessage
      ("Internal accounting error: proposal selected more UTXOs than " ++
        "enumeration found (likely a chain race during shielding setup)."))
  else
    match RecipientCheck.sub total.2 shielding.2 with
    | none => .error (LegacyCode.Wallet.withMessage
        ("Internal accounting error: proposal value exceeds enumerated total " ++
          "(likely a chain race during shielding setup)."))
    | some remaining => .ok ⟨total.1 - shielding.1, remaining, shielding.1, shielding.2⟩

/-- `fee.as_ref().is_some_and(|v| !v.is_null())`. -/
def feeGiven : Option JsonValue → Bool
  | none => false
  | some .Null => false
  | some _ => true

/-- The account after the source is resolved (lines 199–204). -/
def sourceAccount (accountId : AccountUuid) : Except SendFailure Account := do
  match ← interface (database (W.getAccount accountId)) with
  | some account => .ok account
  | none => refuse (LegacyCode.Database.withMessage
      ("Account vanished mid-call: " ++ S.uuidDebug accountId))

/-- `z_shieldcoinbase` until the seed is decrypted (lines 149–313). -/
def zShieldcoinbase (actionsLimit : ℕ) (fromaddress toaddress : List Char) (fee : Option JsonValue)
    (limit : Option ℕ) (memo : Option (List Char)) (privacyPolicy : Option String) :
    Except SendFailure Shielding := do
  rejectIf (feeGiven fee) (LegacyCode.InvalidParameter.withMessage
    "Zallet always calculates fees internally; the fee field must be null.")
  let toZcashAddress ← (okOrFailure (invalidParameter
    ("Invalid parameter, unknown address format: " ++ String.ofList toaddress))
    (S.codecs.parseAddress toaddress)).mapError SendFailure.Building
  let memo ← (parseOptionalMemo S.codecs memo).mapError SendFailure.Building
  let fromInput ← parseFromaddress S fromaddress
  let privacyPolicy ← parsePrivacyPolicy S privacyPolicy fromInput
  let source ← resolveFromaddressInput S W fromInput
  rejectIf source.2.isEmpty (LegacyCode.InvalidParameter.withMessage
    "No source transparent addresses resolved from `fromaddress`.")
  let account ← sourceAccount S W source.1
  let proposal ← interface ((S.proposeShieldingCoinbase source.2 toZcashAddress memo limit).mapError
    fun e => LegacyCode.Wallet.withMessage ("Failed to propose shielding transaction: " ++ e))
  (enforcePrivacyPolicy proposal privacyPolicy).mapError fun e => .Checking (ofIncompatible e)
  interface ((checkShieldedActionLimits proposal.steps actionsLimit).mapError
    (excessActions actionsLimit))
  let numbers ← interface (preflight S W source.2 proposal)
  rejectIf account.source.keyDerivation.isNone (LegacyCode.InvalidAddressOrKey.withMessage
    ("No payment source found for account " ++ S.uuidText source.1 ++ "."))
  .ok ⟨account, proposal, numbers⟩

end

/-! ## The sums -/

/-- What outputs are worth. -/
def worth (value : WalletTransparentOutput → Zatoshis) (utxos : List WalletTransparentOutput) : ℕ :=
  (utxos.map fun utxo => (value utxo).value).sum

theorem worth_cons (value : WalletTransparentOutput → Zatoshis) (utxo : WalletTransparentOutput)
    (utxos : List WalletTransparentOutput) :
    worth value (utxo :: utxos) = (value utxo).value + worth value utxos := by
  simp [worth]

theorem worth_append (value : WalletTransparentOutput → Zatoshis)
    (utxos utxos' : List WalletTransparentOutput) :
    worth value (utxos ++ utxos') = worth value utxos + worth value utxos' := by
  simp [worth]

theorem worth_perm (value : WalletTransparentOutput → Zatoshis)
    {utxos utxos' : List WalletTransparentOutput} (h : utxos.Perm utxos') :
    worth value utxos = worth value utxos' := (h.map _).sum_eq

theorem total_ext {a b : ℕ × Zatoshis} (hcount : a.1 = b.1) (hsum : a.2.value = b.2.value) :
    a = b := by
  obtain ⟨count, ⟨sum, hle⟩⟩ := a
  obtain ⟨count', ⟨sum', hle'⟩⟩ := b
  obtain rfl : count = count' := hcount
  obtain rfl : sum = sum' := hsum
  rfl

section

variable {ZcashAddress MemoBytes : Type} {S : ShieldCrates ZcashAddress MemoBytes}
  {W : ShieldWallet} {overflow : String} {start total : ℕ × Zatoshis}

theorem addUtxos_eq_ok {utxos : List WalletTransparentOutput} :
    addUtxos S overflow utxos start = .ok total ↔
      total.1 = start.1 + utxos.length ∧ total.2.value = start.2.value + worth S.value utxos := by
  induction utxos generalizing start with
  | nil =>
    rw [addUtxos, Except.ok.injEq]
    show start = total ↔ total.1 = start.1 ∧ total.2.value = start.2.value
    constructor
    · intro h
      rw [h]
      exact ⟨rfl, rfl⟩
    · intro h
      exact (total_ext h.1 h.2).symm
  | cons utxo utxos ih =>
    rw [addUtxos, worth_cons, List.length_cons]
    cases hadd : start.2.add (S.value utxo) with
    | none =>
      simp only [reduceCtorEq, false_iff]
      intro h
      -- The sum with the rest is an amount, and so the one without it.
      have hle := total.2.le_max
      have hfit : start.2.value + (S.value utxo).value ≤ maxMoney := by omega
      rw [Zatoshis.add, dif_pos hfit] at hadd
      cases hadd
    | some sum =>
      have hsum := Zatoshis.add_eq_some.mp hadd
      simp only [ih]
      omega

/-- The outputs that are found are counted, and their sum is exact. -/
theorem sumOver_eq_ok {α : Type} {utxos : α → Except RpcError (List WalletTransparentOutput)}
    {l : List α} :
    sumOver S utxos overflow l start = .ok total ↔
      ∃ lists, List.Forall₂ (fun a found => utxos a = .ok found) l lists ∧
        total.1 = start.1 + lists.flatten.length ∧
        total.2.value = start.2.value + worth S.value lists.flatten := by
  induction l generalizing start with
  | nil =>
    rw [sumOver]
    constructor
    · intro h
      obtain rfl := Except.ok.inj h
      exact ⟨[], .nil, rfl, rfl⟩
    · rintro ⟨lists, hlists, hcount, hsum⟩
      obtain rfl := List.forall₂_nil_left_iff.mp hlists
      exact congrArg Except.ok (total_ext hcount.symm hsum.symm)
  | cons a rest ih =>
    simp only [sumOver, bind_eq_ok, addUtxos_eq_ok, ih]
    constructor
    · rintro ⟨found, hfound, middle, ⟨hcount, hsum⟩, lists, hlists, hcount', hsum'⟩
      refine ⟨found :: lists, .cons hfound hlists, ?_, ?_⟩
      · rw [List.flatten_cons, List.length_append]
        omega
      · rw [List.flatten_cons, worth_append]
        omega
    · rintro ⟨lists, hlists, hcount, hsum⟩
      obtain ⟨found, lists, hfound, hrest, rfl⟩ := List.forall₂_cons_left_iff.mp hlists
      rw [List.flatten_cons, List.length_append] at hcount
      rw [List.flatten_cons, worth_append] at hsum
      have hle := total.2.le_max
      refine ⟨found, hfound,
        ⟨start.1 + found.length, ⟨start.2.value + worth S.value found, by omega⟩⟩, ⟨rfl, rfl⟩,
        lists, hrest, ?_, ?_⟩
      · show total.1 = start.1 + found.length + lists.flatten.length
        omega
      · show total.2.value = start.2.value + worth S.value found + worth S.value lists.flatten
        omega

theorem sumSelectedInputs_eq_ok {proposal : Proposal StandardFeeRule Empty} :
    sumSelectedInputs S proposal = .ok total ↔
      total.1 = (selected proposal).length ∧
        total.2.value = worth S.value (selected proposal) := by
  have hlists : ∀ lists : List (List WalletTransparentOutput),
      List.Forall₂ (fun (step : Step Empty) found =>
        (Except.ok step.transparentInputs : Except RpcError _) = .ok found) proposal.steps lists ↔
      lists = proposal.steps.map Step.transparentInputs := by
    intro lists
    simp only [Except.ok.injEq]
    rw [← List.forall₂_map_left_iff, List.forall₂_eq_eq_eq]
    exact eq_comm
  simp only [sumSelectedInputs, sumOver_eq_ok, hlists, exists_eq_left, Zatoshis.zero, Nat.zero_add,
    selected, List.flatMap_def]

/-- The eligible outputs of the addresses at a height. -/
def Listed (W : ShieldWallet) (fromAddrs : List TransparentAddress) (targetHeight : ℕ)
    (eligible : List WalletTransparentOutput) : Prop :=
  ∃ lists, List.Forall₂ (fun addr utxos =>
    W.getSpendableTransparentOutputs addr targetHeight = .ok utxos) fromAddrs lists ∧
    eligible = lists.flatten

theorem enumerateEligible_eq_ok {fromAddrs : List TransparentAddress} {targetHeight : ℕ} :
    enumerateEligible S W fromAddrs targetHeight = .ok total ↔
      ∃ eligible, Listed W fromAddrs targetHeight eligible ∧ total.1 = eligible.length ∧
        total.2.value = worth S.value eligible := by
  simp only [enumerateEligible, sumOver_eq_ok, database_eq_ok, Listed, Zatoshis.zero, Nat.zero_add]
  constructor
  · rintro ⟨lists, hlists, hcount, hsum⟩
    exact ⟨_, ⟨lists, hlists, rfl⟩, hcount, hsum⟩
  · rintro ⟨eligible, ⟨lists, hlists, heligible⟩, hcount, hsum⟩
    rw [heligible] at hcount hsum
    exact ⟨lists, hlists, hcount, hsum⟩

theorem sub_eq_some {a b c : Zatoshis} :
    RecipientCheck.sub a b = some c ↔ b.value + c.value = a.value := by
  unfold RecipientCheck.sub
  split
  · rw [Option.some.injEq]
    constructor
    · intro h
      rw [← h]
      show b.value + (a.value - b.value) = a.value
      omega
    · intro h
      obtain ⟨value, hle⟩ := c
      have hvalue : b.value + value = a.value := h
      congr
      omega
  · simp only [reduceCtorEq, false_iff]
    omega

/-- The numbers of the answer: what is spent, and with what remains the eligible outputs. -/
structure Counts (value : WalletTransparentOutput → Zatoshis)
    (proposal : Proposal StandardFeeRule Empty) (eligible : List WalletTransparentOutput)
    (numbers : Preflight) : Prop where
  shieldingUtxos : numbers.shieldingUtxos = (selected proposal).length
  shieldingValue : numbers.shieldingValue.value = worth value (selected proposal)
  utxos : numbers.shieldingUtxos + numbers.remainingUtxos = eligible.length
  values : numbers.shieldingValue.value + numbers.remainingValue.value = worth value eligible
  le_max : worth value eligible ≤ maxMoney

theorem preflight_eq_ok {fromAddrs : List TransparentAddress}
    {proposal : Proposal StandardFeeRule Empty} {numbers : Preflight} :
    preflight S W fromAddrs proposal = .ok numbers ↔
      ∃ eligible, Listed W fromAddrs (S.minTargetHeight proposal) eligible ∧
        Counts S.value proposal eligible numbers := by
  simp only [preflight, bind_eq_ok, sumSelectedInputs_eq_ok, enumerateEligible_eq_ok]
  constructor
  · rintro ⟨shielding, ⟨hcount, hsum⟩, total, ⟨eligible, hlisted, htotal, hworth⟩, h⟩
    split_ifs at h with hlt
    cases hsub : RecipientCheck.sub total.2 shielding.2 with
    | none =>
      rw [hsub] at h
      cases h
    | some remaining =>
      rw [hsub] at h
      obtain rfl := Except.ok.inj h
      have hvalue := sub_eq_some.mp hsub
      refine ⟨eligible, hlisted, hcount, hsum, ?_, ?_, ?_⟩
      · show shielding.1 + (total.1 - shielding.1) = eligible.length
        omega
      · show shielding.2.value + remaining.value = worth S.value eligible
        omega
      · rw [← hworth]
        exact total.2.le_max
  · rintro ⟨eligible, hlisted, hcounts⟩
    have hutxos := hcounts.utxos
    have hsub : RecipientCheck.sub ⟨worth S.value eligible, hcounts.le_max⟩ numbers.shieldingValue =
        some numbers.remainingValue := sub_eq_some.mpr hcounts.values
    refine ⟨(numbers.shieldingUtxos, numbers.shieldingValue),
      ⟨hcounts.shieldingUtxos, hcounts.shieldingValue⟩,
      (eligible.length, ⟨worth S.value eligible, hcounts.le_max⟩), ⟨eligible, hlisted, rfl, rfl⟩, ?_⟩
    rw [if_neg (by simp only [not_lt]; omega)]
    simp only [hsub, ← hutxos, Nat.add_sub_cancel_left]

/-- What remains of eligible outputs that have the selected ones among them. -/
theorem Counts.rest {proposal : Proposal StandardFeeRule Empty}
    {eligible rest : List WalletTransparentOutput} {numbers : Preflight}
    (h : Counts S.value proposal eligible numbers)
    (hrest : eligible.Perm (selected proposal ++ rest)) :
    numbers.remainingUtxos = rest.length ∧ numbers.remainingValue.value = worth S.value rest := by
  have hlength := hrest.length_eq
  have hworth := worth_perm S.value hrest
  rw [List.length_append] at hlength
  rw [worth_append] at hworth
  obtain ⟨hcount, hsum, hutxos, hvalues, -⟩ := h
  omega

/-- The selected outputs are among the eligible ones, each once. -/
theorem exists_rest {utxos eligible : List WalletTransparentOutput} (honce : utxos.Nodup)
    (hsubset : utxos ⊆ eligible) : ∃ rest, eligible.Perm (utxos ++ rest) := by
  obtain ⟨l, hperm, hsublist⟩ := List.subperm_of_subset honce hsubset
  obtain ⟨rest, hrest⟩ := hsublist.exists_perm_append
  exact ⟨rest, hrest.trans (hperm.append_right rest)⟩

/-- The numbers can be told if the selected outputs are still eligible. -/
theorem preflight_isOk {fromAddrs : List TransparentAddress}
    {proposal : Proposal StandardFeeRule Empty} {eligible : List WalletTransparentOutput}
    (hlisted : Listed W fromAddrs (S.minTargetHeight proposal) eligible)
    (hmax : worth S.value eligible ≤ maxMoney) (honce : (selected proposal).Nodup)
    (hsubset : selected proposal ⊆ eligible) :
    ∃ numbers, preflight S W fromAddrs proposal = .ok numbers := by
  obtain ⟨rest, hrest⟩ := exists_rest honce hsubset
  have hworth := worth_perm S.value hrest
  rw [worth_append] at hworth
  have hcounts : Counts S.value proposal eligible
      ⟨rest.length, ⟨worth S.value rest, by omega⟩, (selected proposal).length,
        ⟨worth S.value (selected proposal), by omega⟩⟩ := by
    refine ⟨rfl, rfl, ?_, hworth.symm, hmax⟩
    rw [hrest.length_eq, List.length_append]
  exact ⟨_, preflight_eq_ok.mpr ⟨eligible, hlisted, hcounts⟩⟩

end

/-! ## What holds of the call -/

/-- A step that shields outputs of the addresses, without change. -/
structure ShieldsFrom (fromAddrs : List TransparentAddress) (step : Step Empty) : Prop where
  inputs : ∀ input ∈ step.transparentInputs, input.recipientAddress ∈ fromAddrs
  payments : ∀ payment ∈ step.paymentPools, payment.2 ≠ .Transparent
  change : step.proposedChange = []

theorem ShieldsFrom.not_recipients {fromAddrs : List TransparentAddress} {step : Step Empty}
    (h : ShieldsFrom fromAddrs step) : ¬ step.Leaks .recipients := by
  intro hleaks
  rcases hleaks with hpayment | hchange
  · obtain ⟨payment, hmem, htransparent⟩ := hpayment
    exact h.payments payment hmem htransparent
  · rw [h.change] at hchange
    exact List.not_mem_nil hchange

theorem ShieldsFrom.not_linking {addr : TransparentAddress} {step : Step Empty}
    (h : ShieldsFrom [addr] step) : ¬ step.Leaks .linking := by
  rintro ⟨a, ha, b, hb, hne⟩
  apply hne
  rw [List.mem_singleton.mp (h.inputs a ha), List.mem_singleton.mp (h.inputs b hb)]

section

variable {ZcashAddress MemoBytes : Type} (S : ShieldCrates ZcashAddress MemoBytes)
  (W : ShieldWallet)

/-- What is assumed of `propose_shielding_coinbase`: it shields outputs of the addresses, and
    spends none twice. -/
structure ShieldCrates.Lawful : Prop where
  shields : ∀ {fromAddrs toAddr memo limit proposal},
    S.proposeShieldingCoinbase fromAddrs toAddr memo limit = .ok proposal →
      ∀ step ∈ proposal.steps, ShieldsFrom fromAddrs step
  once : ∀ {fromAddrs toAddr memo limit proposal},
    S.proposeShieldingCoinbase fromAddrs toAddr memo limit = .ok proposal →
      (selected proposal).Nodup

/-- The addresses that `fromaddress` names: the receivers of an account, or one address of the
    wallet. -/
inductive Names (fromaddress : List Char) : FromAddressInput → List TransparentAddress → Prop
  | account {uuid : AccountUuid} {account : Account} {fromAddrs : List TransparentAddress} :
      fromaddress ≠ ['*'] → S.parseUuid fromaddress = some uuid →
      W.getAccount uuid = .ok (some account) →
      W.getTransparentReceivers uuid = .ok fromAddrs → fromAddrs ≠ [] →
      Names fromaddress (.AccountUuid uuid) fromAddrs
  | address {addr : TransparentAddress} {owner : AccountUuid} :
      fromaddress ≠ ['*'] → S.parseUuid fromaddress = none →
      S.decode fromaddress = some (.Transparent addr) →
      W.findAccountForAddress addr = .ok (some owner) →
      Names fromaddress (.TransparentAddress addr) [addr]

/-- What holds of a call that is accepted, and of the same call under other policies: it
    shields outputs of the addresses within the limits, needs no policy, takes the two names
    of policies, the stricter one if it links no addresses, and counts what it spends and what
    remains of the eligible outputs. -/
structure Shields (call : Option String → Except SendFailure Shielding) (outcome : Shielding)
    (fromAddrs : List TransparentAddress) (actionsLimit : ℕ) : Prop where
  steps : ∀ step ∈ outcome.proposal.steps, ShieldsFrom fromAddrs step
  limits : ∀ step ∈ outcome.proposal.steps, ∀ pool,
    step.spendsIn pool ≤ actionsLimit ∧ step.outputsIn pool ≤ actionsLimit
  default : call none = .ok outcome
  linking : call (some "AllowLinkingAccountAddresses") = .ok outcome
  senders : call (some "AllowRevealedSenders") = .ok outcome ↔
    ∀ step ∈ outcome.proposal.steps, ¬ step.Leaks .linking
  names : ∀ name, call (some name) = .ok outcome →
    name = "AllowRevealedSenders" ∨ name = "AllowLinkingAccountAddresses"
  counted : ∃ eligible, Listed W fromAddrs (S.minTargetHeight outcome.proposal) eligible ∧
    Counts S.value outcome.proposal eligible outcome.preflight ∧
    (selected outcome.proposal ⊆ eligible → ∃ rest,
      eligible.Perm (selected outcome.proposal ++ rest) ∧
      outcome.preflight.remainingUtxos = rest.length ∧
      outcome.preflight.remainingValue.value = worth S.value rest)

end

/-- Shielding needs a policy for the addresses that it links, and no other. -/
theorem enforce_shields {fromAddrs : List TransparentAddress}
    {proposal : Proposal StandardFeeRule Empty}
    (h : ∀ step ∈ proposal.steps, ShieldsFrom fromAddrs step) {p : PrivacyPolicy}
    (hp : p ≤ .AllowRevealedSenders) :
    enforcePrivacyPolicy proposal p = .ok () ↔
      ∀ step ∈ proposal.steps, step.Leaks .linking → Leak.linking ∈ p.permitted := by
  have henforce : enforcePrivacyPolicy proposal p = .ok () ↔
      ∀ step ∈ proposal.steps, p ≤ stepRequired step := enforceSteps_ok p proposal.steps
  have hpermits := (le_iff_permitted p .AllowRevealedSenders).mp hp
  rw [henforce]
  constructor
  · intro hle step hstep hlinking
    exact (le_stepRequired step p).mp (hle step hstep) .linking hlinking
  · intro hlinking step hstep
    apply (le_stepRequired step p).mpr
    intro l hl
    cases l with
    | amounts => exact hpermits .amounts (by decide)
    | senders => exact hpermits .senders (by decide)
    | recipients => exact absurd hl (h step hstep).not_recipients
    | linking => exact hlinking step hstep hl

section

variable {ZcashAddress MemoBytes : Type} {S : ShieldCrates ZcashAddress MemoBytes}
  {W : ShieldWallet} {actionsLimit : ℕ} {fromaddress toaddress : List Char}
  {fee : Option JsonValue} {limit : Option ℕ} {memo : Option (List Char)}
  {privacyPolicy : Option String} {fromInput : FromAddressInput}
  {fromAddrs : List TransparentAddress} {outcome : Shielding}

theorem names_of_resolve {accountId : AccountUuid}
    (hinput : parseFromaddress S fromaddress = .ok fromInput)
    (hsource : resolveFromaddressInput S W fromInput = .ok (accountId, fromAddrs))
    (hnonempty : fromAddrs ≠ []) : Names S W fromaddress fromInput fromAddrs := by
  unfold parseFromaddress at hinput
  split_ifs at hinput with hstar
  · cases hinput
  cases huuid : S.parseUuid fromaddress with
  | some uuid =>
    rw [huuid] at hinput
    obtain rfl := Except.ok.inj hinput
    obtain ⟨found, hfound, hsource⟩ := bind_eq_ok.mp hsource
    cases found with
    | none => cases hsource
    | some account =>
      obtain ⟨receivers, hreceivers, heq⟩ := bind_eq_ok.mp hsource
      obtain ⟨rfl, rfl⟩ := Prod.mk.inj (Except.ok.inj heq)
      exact .account hstar huuid (database_eq_ok.mp (interface_eq_ok.mp hfound))
        (database_eq_ok.mp (interface_eq_ok.mp hreceivers)) hnonempty
  | none =>
    rw [huuid] at hinput
    cases hdecode : S.decode fromaddress with
    | none =>
      rw [hdecode] at hinput
      cases hinput
    | some address =>
      rw [hdecode] at hinput
      cases address with
      | Transparent addr =>
        obtain rfl := Except.ok.inj hinput
        obtain ⟨found, hfound, hsource⟩ := bind_eq_ok.mp hsource
        cases found with
        | none => cases hsource
        | some owner =>
          obtain ⟨rfl, rfl⟩ := Prod.mk.inj (Except.ok.inj hsource)
          exact .address hstar huuid hdecode (database_eq_ok.mp (interface_eq_ok.mp hfound))
      | _ => cases hinput

/-- What an accepted call has done, and that only the policy decides about it. -/
theorem zShieldcoinbase_eq_ok (h : zShieldcoinbase S W actionsLimit fromaddress toaddress fee limit
      memo privacyPolicy = .ok outcome) :
    ∃ fromInput fromAddrs toAddr memoBytes, Names S W fromaddress fromInput fromAddrs ∧
      S.proposeShieldingCoinbase fromAddrs toAddr memoBytes limit = .ok outcome.proposal ∧
      checkShieldedActionLimits outcome.proposal.steps actionsLimit = .ok () ∧
      preflight S W fromAddrs outcome.proposal = .ok outcome.preflight ∧
      ∀ policy, zShieldcoinbase S W actionsLimit fromaddress toaddress fee limit memo policy =
          .ok outcome ↔
        ∃ p, parsePrivacyPolicy S policy fromInput = .ok p ∧
          enforcePrivacyPolicy outcome.proposal p = .ok () := by
  simp only [zShieldcoinbase, bind_eq_ok, mapError_eq_ok, interface_eq_ok] at h
  obtain ⟨⟨⟩, hfee, toAddr, hto, memoBytes, hmemo, fromInput, hinput, q, hq,
    ⟨accountId, fromAddrs⟩, hsource, ⟨⟩, hnonempty, account, haccount, proposal, hpropose, ⟨⟩,
    henforce, ⟨⟩, hlimits, numbers, hnumbers, ⟨⟩, hderivation, heq⟩ := h
  obtain rfl := Except.ok.inj heq
  have hne : fromAddrs ≠ [] := List.isEmpty_eq_false_iff.mp (rejectIf_eq_ok.mp hnonempty)
  refine ⟨fromInput, fromAddrs, toAddr, memoBytes, names_of_resolve hinput hsource hne, hpropose,
    hlimits, hnumbers, fun policy => ?_⟩
  simp only [zShieldcoinbase, bind_eq_ok, mapError_eq_ok, interface_eq_ok, hfee, hto, hmemo,
    hinput, hsource, hnonempty, haccount, hpropose, hlimits, hnumbers, hderivation, true_and,
    and_true, Except.ok.injEq, exists_eq_left', exists_const]
  apply exists_congr
  intro p
  apply and_congr_right
  intro hp
  constructor
  · rintro ⟨⟨⟩, henforce⟩
    exact henforce
  · intro henforce
    exact ⟨(), henforce⟩

theorem parsePrivacyPolicy_senders :
    parsePrivacyPolicy S (some "AllowRevealedSenders") fromInput = .ok .AllowRevealedSenders := by
  simp [parsePrivacyPolicy]

theorem parsePrivacyPolicy_linking :
    parsePrivacyPolicy S (some "AllowLinkingAccountAddresses") fromInput =
      .ok .AllowLinkingAccountAddresses := by
  simp [parsePrivacyPolicy]

theorem shields_of_accepted (hS : S.Lawful) (h : zShieldcoinbase S W actionsLimit fromaddress
      toaddress fee limit memo privacyPolicy = .ok outcome) :
    ∃ fromInput fromAddrs, Names S W fromaddress fromInput fromAddrs ∧
      Shields S W (fun policy => zShieldcoinbase S W actionsLimit fromaddress toaddress fee limit
        memo policy) outcome fromAddrs actionsLimit := by
  obtain ⟨fromInput, fromAddrs, toAddr, memoBytes, hnames, hpropose, hlimits, hnumbers, hpolicy⟩ :=
    zShieldcoinbase_eq_ok h
  have hsteps := hS.shields hpropose
  have hlinking : enforcePrivacyPolicy outcome.proposal .AllowLinkingAccountAddresses = .ok () := by
    rw [enforce_shields hsteps (PrivacyPolicy.isCompatibleWith_iff.mp (by decide))]
    intro step hstep hl
    decide
  have hsenders : enforcePrivacyPolicy outcome.proposal .AllowRevealedSenders = .ok () ↔
      ∀ step ∈ outcome.proposal.steps, ¬ step.Leaks .linking := by
    rw [enforce_shields hsteps le_rfl]
    have hnot : Leak.linking ∉ PrivacyPolicy.AllowRevealedSenders.permitted := by decide
    simp only [hnot, imp_false]
  refine ⟨fromInput, fromAddrs, hnames, hsteps, checkShieldedActionLimits_ok.mp hlimits, ?_, ?_, ?_,
    ?_, ?_⟩
  · -- The default depends on what `fromaddress` is.
    apply (hpolicy none).mpr
    refine ⟨_, rfl, ?_⟩
    cases hnames with
    | account => exact hlinking
    | address => exact hsenders.mpr fun step hstep => (hsteps step hstep).not_linking
  · exact (hpolicy _).mpr ⟨_, parsePrivacyPolicy_linking, hlinking⟩
  · refine (hpolicy _).trans ?_
    rw [← hsenders]
    simp only [parsePrivacyPolicy_senders, Except.ok.injEq, exists_eq_left']
  · intro name hname
    obtain ⟨p, hp, -⟩ := (hpolicy _).mp hname
    unfold parsePrivacyPolicy at hp
    simp only at hp
    split_ifs at hp with hs hl
    · exact Or.inl hs
    · exact Or.inr hl
    · cases hp
  · obtain ⟨eligible, hlisted, hcounts⟩ := preflight_eq_ok.mp hnumbers
    refine ⟨eligible, hlisted, hcounts, ?_⟩
    intro hsubset
    obtain ⟨rest, hrest⟩ := exists_rest (hS.once hpropose) hsubset
    exact ⟨rest, hrest, hcounts.rest hrest⟩

/-- **Shielding coinbase outputs.** A call that is accepted spends outputs of the addresses that
    `fromaddress` names, within the limits and without change. It is accepted as well where no
    policy is given, or the weaker of the two; the stricter one is enough exactly if no step
    spends from two addresses, and no other name is taken. The numbers of the answer are those
    of the selected outputs and of the rest of the eligible ones. They can be told whenever the
    selected outputs are still eligible and the sum is an amount. -/
theorem shields_coinbase (S : ShieldCrates ZcashAddress MemoBytes) (hS : S.Lawful)
    (W : ShieldWallet) (actionsLimit : ℕ) :
    (∀ fromaddress toaddress fee limit memo privacyPolicy outcome,
      zShieldcoinbase S W actionsLimit fromaddress toaddress fee limit memo privacyPolicy =
        .ok outcome →
      ∃ fromInput fromAddrs, Names S W fromaddress fromInput fromAddrs ∧
        Shields S W (fun policy => zShieldcoinbase S W actionsLimit fromaddress toaddress fee limit
          memo policy) outcome fromAddrs actionsLimit) ∧
    ∀ fromAddrs toAddr memo limit proposal eligible,
      S.proposeShieldingCoinbase fromAddrs toAddr memo limit = .ok proposal →
      Listed W fromAddrs (S.minTargetHeight proposal) eligible →
      worth S.value eligible ≤ maxMoney → selected proposal ⊆ eligible →
      ∃ numbers, preflight S W fromAddrs proposal = .ok numbers := by
  refine ⟨fun _ _ _ _ _ _ _ h => shields_of_accepted hS h, ?_⟩
  intro fromAddrs toAddr memo limit proposal eligible hpropose hlisted hmax hsubset
  exact preflight_isOk hlisted hmax (hS.once hpropose) hsubset

end

/-! ## An account with two receivers -/

namespace TwoReceivers

open TwoRecipients (TestAddress codecs)

def account : Account := ⟨1, "default", .Derived ⟨⟨List.replicate 32 7⟩, 0⟩, ⟨"uview"⟩, 0⟩

def utxo (receiver : BitVec 160) (index : ℕ) : WalletTransparentOutput :=
  ⟨⟨0, index⟩, .PublicKeyHash receiver⟩

def proposal : Proposal StandardFeeRule Empty where
  feeRule := .Zip317
  steps := [⟨[utxo 0 0, utxo 1 0], [], [], [(0, .Shielded .Sapling)], [], true, by simp⟩]

def crates : ShieldCrates TestAddress (List UInt8) where
  codecs := codecs
  decode _ := none
  parseUuid _ := some 1
  uuidText _ := "1"
  uuidDebug _ := "1"
  addressDebug _ := "t1"
  textDebug _ := "?"
  proposeShieldingCoinbase fromAddrs _ _ _ :=
    if fromAddrs = [.PublicKeyHash 0, .PublicKeyHash 1] then .ok proposal
    else .error "Insufficient balance"
  minTargetHeight _ := 100
  value _ := ⟨5, by decide⟩

/-- The second receiver has one more output than is spent. -/
def wallet : ShieldWallet where
  getAccount _ := .ok (some account)
  getTransparentReceivers _ := .ok [.PublicKeyHash 0, .PublicKeyHash 1]
  findAccountForAddress _ := .ok none
  getSpendableTransparentOutputs addr _ :=
    .ok (if addr = .PublicKeyHash 0 then [utxo 0 0] else [utxo 1 0, utxo 1 1])

theorem lawful_crates : crates.Lawful where
  shields {fromAddrs toAddr memo limit proposal'} h := by
    simp only [crates] at h
    split_ifs at h with haddrs
    obtain rfl := Except.ok.inj h
    intro step hstep
    obtain rfl := List.mem_singleton.mp hstep
    rw [haddrs]
    exact ⟨by decide, by decide, rfl⟩
  once {fromAddrs toAddr memo limit proposal'} h := by
    simp only [crates] at h
    split_ifs at h with haddrs
    obtain rfl := Except.ok.inj h
    simp [selected, proposal, utxo]

def outcome : Shielding := ⟨account, proposal, ⟨1, ⟨5, by decide⟩, 2, ⟨10, by decide⟩⟩⟩

theorem zShieldcoinbase_default : zShieldcoinbase crates wallet 50 ['1'] TestAddress.sapling.text
    none none none none = .ok outcome := rfl

/-- The call links the receivers. -/
theorem shields_coinbase_twoReceivers :
    zShieldcoinbase crates wallet 50 ['1'] TestAddress.sapling.text none none none
        (some "AllowLinkingAccountAddresses") = .ok outcome ∧
      zShieldcoinbase crates wallet 50 ['1'] TestAddress.sapling.text none none none
        (some "AllowRevealedSenders") ≠ .ok outcome := by
  obtain ⟨hshields, -⟩ := shields_coinbase crates lawful_crates wallet 50
  obtain ⟨fromInput, fromAddrs, -, h⟩ :=
    hshields ['1'] TestAddress.sapling.text none none none none outcome zShieldcoinbase_default
  refine ⟨h.linking, ?_⟩
  intro hsenders
  apply h.senders.mp hsenders _ List.mem_cons_self
  exact ⟨utxo 0 0, by simp, utxo 1 0, by simp, by decide⟩

end TwoReceivers

end Zallet.Rpc.ShieldCoinbase
