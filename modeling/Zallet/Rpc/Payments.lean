import Zallet.Rpc.AccountSelection
import Zallet.Rpc.ActionLimits
import Zallet.Rpc.FundSource
import Zallet.Rpc.ListUnspent
import Zallet.Spend.Hints
import Zallet.Sync.Status

/-!
# Payments from their request to their proposal

`z_sendmany` (`json_rpc/methods/z_send_many.rs`, lines 86–164), `pczt_create`
(`pczt_create.rs`, lines 84–212) and `z_sendfromaccount` (`z_send_from_account.rs`,
lines 66–152) until there is a checked proposal, with `propose_and_check`,
`get_account_for_address`, `get_legacy_pool_account` and
`confirmations_policy_for_minconf` (`payments.rs`, lines 141–156, 234–390 and
1061–1144).

`Crates` has the parsers and `propose_transfer`, `SendWallet` the answers of the wallet
database, which stays as it is during a call. The accounts of a wallet have transparent
receivers (`Crates.Lawful`).

* `proposeAndCheck_eq_ok`: when a request gets a proposal.
* `Sends`: what holds of a payment that got one: the funds, the limits, and all the
  privacy policies under which it gets the same one.
* `sends_from_source`: it holds of the three calls.
-/

namespace Zallet.Rpc.Payments

open Zallet.Chain (TransparentAddress)
open Zallet.Common Zallet.Common.Loop
open Zallet.Rpc.Accounts Zallet.Rpc.AccountSelection Zallet.Rpc.RecipientCheck
open Zallet.Rpc.ListUnspent (ConfirmationsPolicy)
open Zallet.Rpc.Sources
open Zallet.Sync (ShieldedPool SyncStatus)
open Zallet.Wallet

/-! ## What the calls use -/

/-- A call fails in `build_request`, or later. -/
inductive SendFailure
  | Building (e : Failure)
  | Checking (e : CheckFailure)
  deriving DecidableEq

/-- `StandardFeeRule`, of which there is one. -/
inductive StandardFeeRule
  | Zip317
  deriving DecidableEq

/-- The parsers and encodings of addresses and requests, and `propose_transfer`. An address
    of the wallet is known by its parts and by what it is equal to. -/
structure Crates (WalletAddress ZcashAddress MemoBytes NoteRef : Type) where
  codecs : RequestCodecs ZcashAddress MemoBytes
  tryFromZcashAddress : ZcashAddress → Except String Rpc.Address
  encode : ZcashAddress → String
  decode : List Char → Option WalletAddress
  parts : WalletAddress → Rpc.Address
  parseUuid : List Char → Option AccountUuid
  seedFpText : SeedFingerprint → String
  proposeTransfer : AccountUuid → TransactionRequest ZcashAddress MemoBytes → ConfirmationsPolicy →
    SpendPolicy → TransparentChangePolicy → Except String (Proposal StandardFeeRule NoteRef)

/-- The answers of the wallet database. -/
structure SendWallet (WalletAddress : Type) extends AccountReads where
  findAccountForAddress : WalletAddress → Except String (Option AccountUuid)
  listAddresses : AccountUuid → Except String (List WalletAddress)

/-- The options of the configuration that a payment depends on. -/
structure SendConfig where
  trustedConfirmations : Option ℕ
  untrustedConfirmations : Option ℕ
  orchardActions : Option ℕ
  legacyPoolSeedFingerprint : Option SeedFingerprint

/-- `BuilderLimitsSection::orchard_actions` (config.rs, lines 342–344). -/
def SendConfig.actionsLimit (config : SendConfig) : ℕ := config.orchardActions.getD 50

/-- `BuilderSection::confirmations_policy` (config.rs, lines 318–326). -/
def SendConfig.confirmationsPolicy (config : SendConfig) : Option ConfirmationsPolicy :=
  let trusted := config.trustedConfirmations.getD 3
  let untrusted := config.untrustedConfirmations.getD 10
  if max 1 trusted ≤ max 1 untrusted then some ⟨max 1 trusted, max 1 untrusted, decide (untrusted = 0)⟩
  else none

def refuse {α : Type} (e : RpcError) : Except SendFailure α := .error (.Checking (.Error e))

/-- `if reject { return Err(e) }`. -/
def rejectIf (reject : Bool) (e : RpcError) : Except SendFailure Unit :=
  if reject then refuse e else .ok ()

/-- An error of the interface ends a call. -/
def interface {α : Type} (outcome : Except RpcError α) : Except SendFailure α :=
  outcome.mapError fun e => .Checking (.Error e)

/-- `confirmations_policy_for_minconf` (payments.rs, lines 141–156). -/
def confirmationsPolicyForMinconf (config : SendConfig) :
    Option ℕ → Except SendFailure ConfirmationsPolicy
  | some minconf =>
    .ok (if minconf = 0 then .newSymmetrical 1 true else .newSymmetrical minconf false)
  | none =>
    match config.confirmationsPolicy with
    | some policy => .ok policy
    | none => refuse (LegacyCode.Wallet.withMessage ("Configuration error: minimum confirmations " ++
        "for spending trusted TXOs cannot\nexceed that for untrusted TXOs."))

/-! ## The account -/

section

variable {WalletAddress : Type} [DecidableEq WalletAddress] (W : SendWallet WalletAddress)

/-- `wallet.get_account(account_id)?.expect("present")`. -/
def present (accountId : AccountUuid) : Except SendFailure Account := do
  match ← interface (database (W.getAccount accountId)) with
  | some account => .ok account
  | none => .error (.Checking (.Panic "present"))

/-- `err-from-address-no-payment-source`. -/
def noPaymentSource : RpcError :=
  LegacyCode.InvalidAddressOrKey.withMessage
    "Invalid from address, no payment source found for address."

/-- The loop over the accounts (payments.rs, lines 1084–1099). -/
def accountListing (address : WalletAddress) : List AccountUuid → Except SendFailure Account
  | [] => refuse noPaymentSource
  | accountId :: rest => do
    let addresses ← interface (database (W.listAddresses accountId))
    if address ∈ addresses then present W accountId else accountListing address rest

/-- `get_account_for_address` (payments.rs, lines 1061–1105). -/
def getAccountForAddress (address : WalletAddress) : Except SendFailure Account := do
  match ← interface (database (W.findAccountForAddress address)) with
  | some accountId => present W accountId
  | none => do
    let ids ← interface (database W.getAccountIds)
    accountListing W address ids

/-- `get_legacy_pool_account` (payments.rs, lines 1132–1144). -/
def getLegacyPoolAccount (seedFpText : SeedFingerprint → String) (config : SendConfig) :
    Except SendFailure Account :=
  let outcome := AccountSelection.legacyPoolAccount W.toAccountReads config.legacyPoolSeedFingerprint
  interface (outcome.mapError fun e =>
    match e with
    -- `LegacyCode::WalletAccountsUnsupported`.
    | .Disabled => ⟨-11, "The legacy pool of funds is disabled. To enable it, set\n" ++
        "'legacy_pool_seed_fingerprint' in the Zallet config file to the seed\n" ++
        "fingerprint of the zcashd wallet migrated into this wallet."⟩
    | .NotFound legacySeedFp => LegacyCode.Wallet.withMessage
        ("This wallet holds no legacy account for seed fingerprint " ++ seedFpText legacySeedFp ++
          ". Check\nthat 'legacy_pool_seed_fingerprint' names a zcashd wallet migrated\ninto it.")
    | .Db msg => LegacyCode.Database.withMessage msg)

end

/-! ## The proposal -/

/-- The part of an address that the loop over the recipients reads. -/
def kindOf : Rpc.Address → RecipientCheck.Address
  | .Transparent _ => .Transparent
  | .Tex _ => .Tex
  | .Sapling _ => .Sapling
  | .Unified ua => .Unified
      ((if ua.hasOrchard then [.Orchard] else []) ++ (if ua.hasSapling then [.Sapling] else []) ++
        match ua.transparent with
        | some (.PublicKeyHash _) => [.P2pkh]
        | some (.ScriptHash _) => [.P2sh]
        | none => [])

/-- An `IncompatiblePrivacyPolicy` of a proposal as an error of the interface
    (payments.rs, lines 824–888). -/
def ofIncompatible : IncompatiblePrivacyPolicy → CheckFailure
  | .NoPrivacy => .Error (LegacyCode.InvalidParameter.withMessage
      ("This transaction would have no privacy, which is not enabled by default.\n" ++
        "THIS WILL AFFECT YOUR PRIVACY. Resubmit with the 'privacyPolicy' parameter\n" ++
        "set to 'NoPrivacy' if you wish to allow this transaction to proceed anyway."))
  | .LinkingAccountAddresses => incompatible
      ("This transaction would spend transparent funds received by multiple unified\n" ++
        "addresses within the same account, which is not enabled by default because\n" ++
        "it will publicly link those addresses together.") "AllowLinkingAccountAddresses"
  | .FullyTransparent => incompatible
      ("This transaction would both spend transparent funds and have transparent\n" ++
        "recipients or change, which is not enabled by default because it will\n" ++
        "publicly reveal transaction participants and amounts.") "AllowFullyTransparent"
  | .TransparentSender => incompatible
      ("This transaction would spend transparent funds, which is not enabled by\n" ++
        "default because it will publicly reveal transaction senders and amounts.")
      "AllowRevealedSenders"
  | .TransparentRecipient => RecipientCheck.transparentRecipient
  | .TransparentChange => incompatible
      ("This transaction would have transparent change, which is not enabled by\n" ++
        "default because it will publicly reveal the change address and amounts.")
      "AllowRevealedRecipients"
  | .RevealingShieldedAmount pool => incompatible
      ("Could not send to the " ++ poolName pool ++ " shielded pool without spending non-" ++
        poolName pool ++ "\nfunds, which would reveal transaction amounts.") "AllowRevealedAmounts"
where
  poolName : ShieldedPool → String
  | .Sapling => "Sapling"
  | .Orchard => "Orchard"
  | .Ironwood => "Ironwood"

def ActionKind.text : ActionKind → String
  | .inputs => "inputs"
  | .outputs => "outputs"
  | .actions => "actions"

/-- `err-excess-shielded-actions`. -/
def excessActions (limit : ℕ) (e : ShieldedActionLimitExceeded) : RpcError :=
  LegacyCode.Misc.withMessage ("Including " ++ toString e.count ++ " " ++
    ofIncompatible.poolName e.pool ++ " " ++ ActionKind.text e.kind ++
    " would exceed the current limit of\n" ++ toString limit ++
    " actions, which exists to prevent memory exhaustion. Restart with\n" ++
    "'-orchardactionlimit=N' where N >= %u to allow the wallet to attempt to construct this\n" ++
    "transaction.")

section

variable {WalletAddress ZcashAddress MemoBytes NoteRef : Type} [DecidableEq ZcashAddress]
  (S : Crates WalletAddress ZcashAddress MemoBytes NoteRef)

/-- The recipients as the loop reads them. -/
def Crates.recipient (address : ZcashAddress) : Except String RecipientCheck.Address :=
  (S.tryFromZcashAddress address).map kindOf

/-- `propose_and_check` (payments.rs, lines 234–390). -/
def proposeAndCheck (actionsLimit : ℕ) (accountId : AccountUuid)
    (request : TransactionRequest ZcashAddress MemoBytes) (privacyPolicy : PrivacyPolicy)
    (confirmationsPolicy : ConfirmationsPolicy) (spendPolicy : SpendPolicy) :
    Except SendFailure (Proposal StandardFeeRule NoteRef) := do
  let _ ← (checkRequest S.recipient privacyPolicy request).mapError .Checking
  let proposal ← interface ((S.proposeTransfer accountId request confirmationsPolicy spendPolicy
    (transparentChangePolicyFor spendPolicy)).mapError fun error =>
      LegacyCode.Wallet.withMessage ("Failed to propose transaction: " ++ error))
  (enforcePrivacyPolicy proposal privacyPolicy).mapError fun e => .Checking (ofIncompatible e)
  interface ((checkShieldedActionLimits proposal.steps actionsLimit).mapError
    (excessActions actionsLimit))
  .ok proposal

/-- A payment with a proposal. -/
structure Sent (NoteRef : Type) where
  account : Account
  proposal : Proposal StandardFeeRule NoteRef

variable [DecidableEq WalletAddress] (W : SendWallet WalletAddress) (config : SendConfig)

/-- The account and the policy of `z_sendmany` (lines 109–128). -/
def sendManySource (fromaddress : List Char) : Except SendFailure (Account × SpendPolicy) :=
  if fromaddress = "ANY_TADDR".toList then do
    let account ← getLegacyPoolAccount W S.seedFpText config
    .ok (account, legacyPoolSpendPolicy)
  else
    match S.decode fromaddress with
    | none => refuse (LegacyCode.InvalidAddressOrKey.withMessage
        "Invalid from address: should be a taddr, zaddr, UA, or the string 'ANY_TADDR'.")
    | some address => do
      let account ← getAccountForAddress W address
      .ok (account, spendPolicyFor (S.parts address))

/-- `z_sendmany` until the seed is decrypted (lines 99–164). -/
def zSendMany (fromaddress : List Char) (amounts : List AmountParameter) (minconf : Option ℕ)
    (fee : Option JsonValue) (privacyPolicy : Option String) : Except SendFailure (Sent NoteRef) := do
  rejectIf fee.isSome (LegacyCode.InvalidParameter.withMessage
    "Zallet always calculates fees internally; the fee field must be null.")
  let request ← (buildRequest S.codecs amounts).mapError .Building
  let source ← sendManySource S W config fromaddress
  let privacyPolicy ← interface (Spend.parsePrivacyPolicy privacyPolicy)
  interface (checkRecipientCount amounts config.actionsLimit)
  let confirmationsPolicy ← confirmationsPolicyForMinconf config minconf
  let proposal ← proposeAndCheck S config.actionsLimit source.1.id request privacyPolicy
    confirmationsPolicy source.2
  rejectIf source.1.source.keyDerivation.isNone noPaymentSource
  .ok ⟨source.1, proposal⟩

/-- `build_pczt` until the PCZT is created (pczt_create.rs, lines 177–212): the proposal, and
    the policy that is recorded. -/
def buildPczt (account : Account) (spendPolicy : SpendPolicy)
    (request : TransactionRequest ZcashAddress MemoBytes) (privacyPolicy : PrivacyPolicy)
    (confirmationsPolicy : ConfirmationsPolicy) :
    Except SendFailure (Sent NoteRef × PrivacyPolicy) := do
  let proposal ← proposeAndCheck S config.actionsLimit account.id request privacyPolicy
    confirmationsPolicy spendPolicy
  rejectIf (decide (proposal.steps.length > 1)) (LegacyCode.InvalidParameter.withMessage
    ("This payment requires more than one transaction, which a PCZT cannot\n" ++
      "represent. Use z_sendmany instead."))
  .ok (⟨account, proposal⟩, requiredPrivacyPolicy proposal)

/-- `MAX_RECIPIENTS` (pczt_create.rs, line 55). -/
def MAX_RECIPIENTS : ℕ := 1000

/-- The loop over the recipients of a PCZT (pczt_create.rs, lines 107–114). -/
def rejectTex : List (Payment ZcashAddress MemoBytes) → Except SendFailure Unit
  | [] => .ok ()
  | payment :: payments =>
    match S.tryFromZcashAddress payment.recipientAddress with
    | .ok (.Tex _) => refuse (LegacyCode.InvalidParameter.withMessage
        ("Cannot pay the TEX address " ++ S.encode payment.recipientAddress ++ ": paying a TEX " ++
          "address takes two\ntransactions, and a PCZT holds only one. Use z_sendmany instead."))
    | _ => rejectTex payments

/-- `Address::decode` as `fund_source` reads it. -/
def Crates.decodeAddress (s : List Char) : Option Rpc.Address := (S.decode s).map S.parts

/-- `wallet.get_account(account_id)`, or the error of a missing account. -/
def existing (accountId : AccountUuid) : Except SendFailure Account := do
  match ← interface (database (W.getAccount accountId)) with
  | some account => .ok account
  | none => refuse (LegacyCode.InvalidParameter.withMessage "Account does not exist")

/-- The account and the policy of `pczt_create` (lines 121–147). -/
def pcztSource (source : List Char) (fundSource : Option JsonValue) :
    Except SendFailure (Account × SpendPolicy) :=
  match S.decode source with
  | some address => do
    rejectIf fundSource.isSome (LegacyCode.InvalidParameter.withMessage
      "fund_source may only be given when `from` is an account UUID.")
    let account ← getAccountForAddress W address
    .ok (account, spendPolicyFor (S.parts address))
  | none =>
    match S.parseUuid source with
    | none => refuse (LegacyCode.InvalidAddressOrKey.withMessage
        "Invalid from parameter: expected an address or an account UUID.")
    | some accountId => do
      let account ← existing W accountId
      match fundSource with
      | none => .ok (account, SpendPolicy.default)
      | some value => do
        let fundSource ← interface (FundSource.parse S.decodeAddress value)
        .ok (account, fundSource.spendPolicy)

/-- `pczt_create` until the PCZT is created (lines 84–159). -/
def pcztCreate (source : List Char) (amounts : List AmountParameter) (minconf : Option ℕ)
    (privacyPolicy : Option String) (fundSource : Option JsonValue) :
    Except SendFailure (Sent NoteRef × PrivacyPolicy) := do
  rejectIf (decide (amounts.length > MAX_RECIPIENTS)) (LegacyCode.InvalidParameter.withMessage
    ("Too many recipients: " ++ toString amounts.length ++ " exceeds maximum of " ++
      toString MAX_RECIPIENTS))
  let request ← (buildRequest S.codecs amounts).mapError .Building
  rejectTex S request.payments.values
  let source ← pcztSource S W source fundSource
  let privacyPolicy ← interface (Spend.parsePrivacyPolicy privacyPolicy)
  let confirmationsPolicy ← confirmationsPolicyForMinconf config minconf
  buildPczt S config source.1 source.2 request privacyPolicy confirmationsPolicy

end

/-! ## The wait for the sync engine -/

/-- What `z_sendfromaccount` reads besides the wallet: whether the wallet opens, three times
    the sync status, twice the anchor of the PIR witnesses, and the outcome of preparing
    these if PIR is enabled. -/
structure SyncReadings where
  opened : Bool
  reopened : Bool
  status₁ : SyncStatus
  status₂ : SyncStatus
  status₃ : SyncStatus
  anchor₁ : Except String (Option ℕ)
  anchor₂ : Except String (Option ℕ)
  prepared : Option (Except String Unit)

/-- `wallet_handle` (lines 54–59). -/
def walletHandle (opens : Bool) : Except RpcError Unit :=
  if opens then .ok () else .error (internalError "Internal error")

/-- `should_prepare_pir` (lines 61–63). -/
def shouldPreparePir : SyncStatus → FundSource → Bool
  | .CatchingUp _ _, .Ironwood => true
  | _, _ => false

/-- `pir_result` (lines 106–122). -/
def pirResult (r : SyncReadings) (fundSource : FundSource) :
    Except RpcError (Option (Except String Unit)) :=
  if shouldPreparePir r.status₁ fundSource then do
    match ← database r.anchor₁ with
    | some _ => .ok none
    | none => do
      walletHandle r.reopened
      .ok (some (r.prepared.getD (.error "PIR is disabled")))
  else .ok none

/-- `ensure_available` (sync/status.rs, lines 131–154), with the codes
    `ClientInInitialDownload` and `ForbiddenBySafeMode`. -/
def ensureAvailable : SyncStatus → Except RpcError Unit
  | .Synced => .ok ()
  | .CatchingUp fullySynced tip =>
    .error ⟨-10, "Wallet is still catching up (" ++ toString (tip - fullySynced.getD 0) ++
      " blocks behind the chain tip); balance and spend operations are unavailable until it is synced"⟩
  | .Recovering rolledBackTo =>
    .error ⟨-2, "Wallet is recovering from a chain reorganization (rolled back to " ++
      toString rolledBackTo ++
      "); balance and spend operations are unavailable until it has resynced"⟩

/-- `if let Some(result) = pir_result` (lines 127–129). -/
def pirOutcome : Option (Except String Unit) → Except RpcError Unit
  | some result => result.mapError LegacyCode.Wallet.withMessage
  | none => .ok ()

/-- The gate of `z_sendfromaccount` (lines 124–143). -/
def awaitSync (r : SyncReadings) (fundSource : FundSource) (pirResult : Option (Except String Unit)) :
    Except RpcError Unit :=
  match r.status₂, fundSource with
  | .Synced, _ => .ok ()
  | .CatchingUp _ _, .Ironwood => do
    pirOutcome pirResult
    match ← database r.anchor₂ with
    | some _ => .ok ()
    | none => .error (LegacyCode.Wallet.withMessage
        "PIR witnesses are not available for an Ironwood send")
  | _, _ => ensureAvailable r.status₃

section

variable {WalletAddress ZcashAddress MemoBytes NoteRef : Type} [DecidableEq ZcashAddress]
  (S : Crates WalletAddress ZcashAddress MemoBytes NoteRef)
  (W : SendWallet WalletAddress) (config : SendConfig)

/-- `z_sendfromaccount` until the PCZT is created (lines 66–152). `legacySeeds` is the outcome
    of `list_legacy_seed_fingerprints`. -/
def zSendFromAccount (legacySeeds : Except RpcError (List SeedFingerprint)) (r : SyncReadings)
    (account fundSource : JsonValue) (recipients : List AmountParameter) (minconf : Option ℕ)
    (privacyPolicy : String) : Except SendFailure (Sent NoteRef × PrivacyPolicy) := do
  interface (walletHandle r.opened)
  let request ← (buildRequest S.codecs recipients).mapError .Building
  let accountId ← interface (parseAccountParameter S.parseUuid W.toAccountReads legacySeeds account)
  let account ← existing W accountId
  let fundSource ← interface (FundSource.parse S.decodeAddress fundSource)
  rejectIf account.source.keyDerivation.isNone
    (LegacyCode.InvalidAddressOrKey.withMessage "Account has no payment source.")
  let privacyPolicy ← interface (Spend.parsePrivacyPolicy (some privacyPolicy))
  let confirmationsPolicy ← confirmationsPolicyForMinconf config minconf
  let pirResult ← interface (pirResult r fundSource)
  interface (awaitSync r fundSource pirResult)
  buildPczt S config account fundSource.spendPolicy request privacyPolicy confirmationsPolicy

end

/-! ## What holds of a payment -/

section

variable {WalletAddress ZcashAddress MemoBytes NoteRef : Type} [DecidableEq ZcashAddress]
  (S : Crates WalletAddress ZcashAddress MemoBytes NoteRef)

/-- What is assumed of the crates: the codecs are lawful, and a proposal pays the request and
    spends what the policy permits of the account. -/
structure Crates.Lawful (transparent : ZcashAddress → Bool)
    (receivers : AccountUuid → Set TransparentAddress) : Prop where
  codecs : S.codecs.Lawful transparent
  pays : ∀ {accountId request confirmations policy change proposal},
    S.proposeTransfer accountId request confirmations policy change = .ok proposal →
      RecipientCheck.PaysExactly S.recipient request proposal
  spends : ∀ {accountId request confirmations policy change proposal},
    S.proposeTransfer accountId request confirmations policy change = .ok proposal →
      ∀ step ∈ proposal.steps, Sources.Step.Within step (Funds.ofPolicy (receivers accountId) policy)

/-- What holds of a payment that a call makes under a privacy policy and of the same call under
    other policies: it spends the named funds within the limits, the call makes it under
    exactly the policies that permit what it reveals, and the funds say how weak a policy can
    be needed. -/
structure Sends {α : Type} (call : PrivacyPolicy → Except SendFailure α) (outcome : α)
    (proposal : Proposal StandardFeeRule NoteRef) (funds : Funds) (limit : ℕ) : Prop where
  within : ∀ step ∈ proposal.steps, Sources.Step.Within step funds
  limits : ∀ step ∈ proposal.steps, ∀ pool, step.spendsIn pool ≤ limit ∧ step.outputsIn pool ≤ limit
  policies : ∀ p, call p = .ok outcome ↔ ∀ step ∈ proposal.steps, ∀ l, step.Leaks l → l ∈ p.permitted
  weakest : call funds.weakest = .ok outcome

/-- The funds that `fromaddress` names in `z_sendmany`. -/
def namedBy (receivers : AccountUuid → Set TransparentAddress) (account : Account)
    (fromaddress : List Char) : Funds :=
  if fromaddress = "ANY_TADDR".toList then ⟨∅, receivers account.id⟩
  else (S.decodeAddress fromaddress).elim ⟨∅, ∅⟩ Funds.ofAddress

/-- The funds that the source and `fund_source` name in `pczt_create`: any notes of the account
    if there is no `fund_source`. -/
def namedByEither (receivers : AccountUuid → Set TransparentAddress) (account : Account)
    (source : List Char) (fundSource : Option JsonValue) : Funds :=
  match S.decodeAddress source, fundSource with
  | some address, _ => Funds.ofAddress address
  | none, some value => Funds.ofSource S.decodeAddress (receivers account.id) value
  | none, none => ⟨Set.univ, ∅⟩

end

theorem rejectIf_eq_ok {reject : Bool} {e : RpcError} {u : Unit} :
    rejectIf reject e = .ok u ↔ reject = false := by
  cases reject <;> simp [rejectIf, refuse]

theorem interface_eq_ok {α : Type} {outcome : Except RpcError α} {a : α} :
    interface outcome = .ok a ↔ outcome = .ok a := mapError_eq_ok

/-! ## The source -/

theorem parsePrivacyPolicy_policyName (p : PrivacyPolicy) :
    Spend.parsePrivacyPolicy (some (Spend.policyName p)) = .ok p := by
  have hname : Spend.policyName p ≠ "LegacyCompat" := by cases p <;> decide
  simp only [Spend.parsePrivacyPolicy, if_neg hname, Spend.policyFromStr_policyName]

section

variable {WalletAddress ZcashAddress MemoBytes NoteRef : Type} [DecidableEq WalletAddress]
  {S : Crates WalletAddress ZcashAddress MemoBytes NoteRef} {W : SendWallet WalletAddress}
  {receivers : AccountUuid → Set TransparentAddress} {config : SendConfig} {account : Account}
  {policy : SpendPolicy}

theorem sendManySource_funds {fromaddress : List Char}
    (h : sendManySource S W config fromaddress = .ok (account, policy)) :
    Funds.ofPolicy (receivers account.id) policy = namedBy S receivers account fromaddress := by
  unfold sendManySource at h
  unfold namedBy
  split_ifs at h with hany
  · obtain ⟨account', -, heq⟩ := bind_eq_ok.mp h
    obtain ⟨rfl, rfl⟩ := Prod.mk.inj (Except.ok.inj heq)
    rw [if_pos hany]
    simp [Funds.ofPolicy, legacyPoolSpendPolicy, SpendPolicy.withTransparent,
      SpendPolicy.shieldedPools]
  · rw [if_neg hany, Crates.decodeAddress]
    cases hdecode : S.decode fromaddress with
    | none =>
      rw [hdecode] at h
      cases h
    | some address =>
      rw [hdecode] at h
      obtain ⟨account', -, heq⟩ := bind_eq_ok.mp h
      obtain ⟨rfl, rfl⟩ := Prod.mk.inj (Except.ok.inj heq)
      exact ofPolicy_spendPolicyFor _

/-- The account of a payment is the legacy account for `ANY_TADDR`, and else the account that
    holds the address. -/
def SentFrom (S : Crates WalletAddress ZcashAddress MemoBytes NoteRef)
    (W : SendWallet WalletAddress) (config : SendConfig) (fromaddress : List Char)
    (account : Account) : Prop :=
  if fromaddress = "ANY_TADDR".toList then
    AccountSelection.legacyPoolAccount W.toAccountReads config.legacyPoolSeedFingerprint = .ok account
  else ∃ address, S.decode fromaddress = some address ∧ getAccountForAddress W address = .ok account

theorem sendManySource_account {fromaddress : List Char}
    (h : sendManySource S W config fromaddress = .ok (account, policy)) :
    SentFrom S W config fromaddress account := by
  unfold sendManySource at h
  unfold SentFrom
  split_ifs at h ⊢ with hany
  · obtain ⟨account', hlegacy, heq⟩ := bind_eq_ok.mp h
    obtain ⟨rfl, -⟩ := Prod.mk.inj (Except.ok.inj heq)
    exact mapError_eq_ok.mp (interface_eq_ok.mp hlegacy)
  · cases hdecode : S.decode fromaddress with
    | none =>
      rw [hdecode] at h
      cases h
    | some address =>
      rw [hdecode] at h
      obtain ⟨account', haccount, heq⟩ := bind_eq_ok.mp h
      obtain ⟨rfl, -⟩ := Prod.mk.inj (Except.ok.inj heq)
      exact ⟨address, rfl, haccount⟩

theorem pcztSource_funds {source : List Char} {fundSource : Option JsonValue}
    (h : pcztSource S W source fundSource = .ok (account, policy)) :
    Funds.ofPolicy (receivers account.id) policy =
      namedByEither S receivers account source fundSource := by
  unfold pcztSource at h
  cases hdecode : S.decode source with
  | some address =>
    rw [hdecode] at h
    obtain ⟨-, -, h⟩ := bind_eq_ok.mp h
    obtain ⟨account', -, heq⟩ := bind_eq_ok.mp h
    obtain ⟨rfl, rfl⟩ := Prod.mk.inj (Except.ok.inj heq)
    simp only [namedByEither, Crates.decodeAddress, hdecode, Option.map_some]
    exact ofPolicy_spendPolicyFor _
  | none =>
    rw [hdecode] at h
    cases huuid : S.parseUuid source with
    | none =>
      rw [huuid] at h
      cases h
    | some accountId =>
      rw [huuid] at h
      obtain ⟨account', -, h⟩ := bind_eq_ok.mp h
      cases fundSource with
      | none =>
        obtain ⟨rfl, rfl⟩ := Prod.mk.inj (Except.ok.inj h)
        simp only [namedByEither, Crates.decodeAddress, hdecode, Option.map_none]
        apply Funds.ext
        · ext pool
          cases pool <;> simp [Funds.ofPolicy, SpendPolicy.default, SpendPolicy.shieldedPools]
        · simp [Funds.ofPolicy, SpendPolicy.default, SpendPolicy.shieldedPools]
      | some value =>
        obtain ⟨parsed, hparsed, h⟩ := bind_eq_ok.mp h
        obtain ⟨rfl, rfl⟩ := Prod.mk.inj (Except.ok.inj h)
        simp only [namedByEither, Crates.decodeAddress, hdecode, Option.map_none]
        exact ofPolicy_spendPolicy (interface_eq_ok.mp hparsed)

end

/-! ## The proposal of a request -/

section

variable {WalletAddress ZcashAddress MemoBytes NoteRef : Type} [DecidableEq ZcashAddress]
  {S : Crates WalletAddress ZcashAddress MemoBytes NoteRef} {transparent : ZcashAddress → Bool}
  {receivers : AccountUuid → Set TransparentAddress} {amounts : List AmountParameter}
  {request : TransactionRequest ZcashAddress MemoBytes} {limit : ℕ} {accountId : AccountUuid}
  {confirmations : ConfirmationsPolicy} {policy : SpendPolicy}
  {proposal : Proposal StandardFeeRule NoteRef}

/-- The policy that a request is checked under does not matter for what is proposed. -/
theorem proposeAndCheck_eq_ok (h : S.Lawful transparent receivers)
    (hbuilt : buildRequest S.codecs amounts = .ok request) (p : PrivacyPolicy) :
    proposeAndCheck S limit accountId request p confirmations policy = .ok proposal ↔
      (S.proposeTransfer accountId request confirmations policy
          (transparentChangePolicyFor policy) = .ok proposal ∧
        checkShieldedActionLimits proposal.steps limit = .ok ()) ∧
      enforcePrivacyPolicy proposal p = .ok () := by
  simp only [proposeAndCheck, bind_eq_ok, mapError_eq_ok, interface_eq_ok]
  constructor
  · rintro ⟨-, -, proposal', hpropose, ⟨⟩, henforce, ⟨⟩, hlimits, heq⟩
    obtain rfl := Except.ok.inj heq
    exact ⟨⟨hpropose, hlimits⟩, henforce⟩
  · rintro ⟨⟨hpropose, hlimits⟩, henforce⟩
    -- What is enforced passes the loop over the recipients.
    obtain ⟨s, hs⟩ := (checkRequest_isOk_iff h.codecs hbuilt).mpr
      (passes_of_paid (h.pays hpropose) henforce)
    exact ⟨s, hs, proposal, hpropose, (), henforce, (), hlimits, rfl⟩

/-- A PCZT is made of a proposal with one step at most, and of the policy that this requires. -/
theorem buildPczt_eq_ok (h : S.Lawful transparent receivers)
    (hbuilt : buildRequest S.codecs amounts = .ok request) {config : SendConfig} {account : Account}
    {outcome : Sent NoteRef × PrivacyPolicy} (p : PrivacyPolicy) :
    buildPczt S config account policy request p confirmations = .ok outcome ↔
      outcome.1.account = account ∧ outcome.2 = requiredPrivacyPolicy outcome.1.proposal ∧
        outcome.1.proposal.steps.length ≤ 1 ∧
        (S.proposeTransfer account.id request confirmations policy
            (transparentChangePolicyFor policy) = .ok outcome.1.proposal ∧
          checkShieldedActionLimits outcome.1.proposal.steps config.actionsLimit = .ok ()) ∧
        enforcePrivacyPolicy outcome.1.proposal p = .ok () := by
  simp only [buildPczt, bind_eq_ok, proposeAndCheck_eq_ok h hbuilt, rejectIf_eq_ok,
    decide_eq_false_iff_not, not_lt, Except.ok.injEq]
  constructor
  · rintro ⟨proposal, ⟨hpropose, henforce⟩, ⟨⟩, hone, rfl⟩
    exact ⟨rfl, rfl, hone, hpropose, henforce⟩
  · obtain ⟨⟨account', proposal⟩, required⟩ := outcome
    rintro ⟨haccount, hrequired, hone, hpropose, henforce⟩
    obtain rfl : account' = account := haccount
    obtain rfl : required = requiredPrivacyPolicy proposal := hrequired
    exact ⟨proposal, ⟨hpropose, henforce⟩, (), hone, rfl⟩

/-- The policies decide a call if nothing else in it depends on them. -/
theorem Sends.of_iff {α : Type} {call : PrivacyPolicy → Except SendFailure α} {outcome : α}
    {funds : Funds} {A : Prop} (hcall : ∀ p, call p = .ok outcome ↔
      A ∧ enforcePrivacyPolicy proposal p = .ok ()) (hA : A)
    (hwithin : ∀ step ∈ proposal.steps, Sources.Step.Within step funds)
    (hlimits : checkShieldedActionLimits proposal.steps limit = .ok ()) :
    Sends call outcome proposal funds limit := by
  have henforce : ∀ p, enforcePrivacyPolicy proposal p = .ok () ↔
      ∀ step ∈ proposal.steps, p ≤ stepRequired step := fun p => enforceSteps_ok p proposal.steps
  refine ⟨hwithin, checkShieldedActionLimits_ok.mp hlimits, fun p => ?_, ?_⟩
  · rw [hcall, henforce]
    simp only [hA, true_and, le_stepRequired]
  · rw [hcall, henforce, ← le_requiredPrivacyPolicy]
    exact ⟨hA, weakest_le_required hwithin⟩

/-! ## The calls -/

/-- What holds of the outcome of a call that ends in `build_pczt`. -/
structure Creates (call : PrivacyPolicy → Except SendFailure (Sent NoteRef × PrivacyPolicy))
    (outcome : Sent NoteRef × PrivacyPolicy) (funds : Funds) (limit : ℕ) : Prop where
  sends : Sends call outcome outcome.1.proposal funds limit
  one : outcome.1.proposal.steps.length ≤ 1
  recorded : ∀ p pczt derivation metadata,
    Spend.checkPrivacyPolicy (Spend.Pczt.hinted pczt outcome.2 derivation metadata) p = .ok () ↔
      call p = .ok outcome

theorem Creates.of_buildPczt (h : S.Lawful transparent receivers)
    (hbuilt : buildRequest S.codecs amounts = .ok request) {config : SendConfig}
    {account : Account} {outcome : Sent NoteRef × PrivacyPolicy} {q : PrivacyPolicy} {funds : Funds}
    {call : PrivacyPolicy → Except SendFailure (Sent NoteRef × PrivacyPolicy)}
    (hok : buildPczt S config account policy request q confirmations = .ok outcome)
    (hcall : ∀ p, call p = .ok outcome ↔
      buildPczt S config account policy request p confirmations = .ok outcome)
    (hfunds : Funds.ofPolicy (receivers account.id) policy = funds) :
    Creates call outcome funds config.actionsLimit := by
  obtain ⟨haccount, hrequired, hone, hpropose, -⟩ := (buildPczt_eq_ok h hbuilt q).mp hok
  have hiff : ∀ p, call p = .ok outcome ↔
      True ∧ enforcePrivacyPolicy outcome.1.proposal p = .ok () := by
    intro p
    rw [hcall, buildPczt_eq_ok h hbuilt]
    simp only [haccount, ← hrequired, hone, hpropose, true_and, and_self]
  refine ⟨Sends.of_iff hiff trivial ?_ hpropose.2, hone, fun p pczt derivation metadata => ?_⟩
  · rw [← hfunds]
    exact h.spends hpropose.1
  · rw [Spend.checkPrivacyPolicy_hinted, hiff, hrequired, PrivacyPolicy.isCompatibleWith_iff,
      le_requiredPrivacyPolicy, true_and]
    exact (enforceSteps_ok p outcome.1.proposal.steps).symm

/-- What `z_sendfromaccount` has done when it has a proposal. -/
theorem creates_zSendFromAccount (h : S.Lawful transparent receivers)
    {W : SendWallet WalletAddress} {config : SendConfig}
    {legacySeeds : Except RpcError (List SeedFingerprint)} {r : SyncReadings}
    {account fundSource : JsonValue} {minconf : Option ℕ} {privacyPolicy : String}
    {outcome : Sent NoteRef × PrivacyPolicy}
    (hok : zSendFromAccount S W config legacySeeds r account fundSource amounts minconf
      privacyPolicy = .ok outcome) :
    Creates (fun p => zSendFromAccount S W config legacySeeds r account fundSource amounts minconf
        (Spend.policyName p)) outcome
      (Funds.ofSource S.decodeAddress (receivers outcome.1.account.id) fundSource)
      config.actionsLimit := by
  simp only [zSendFromAccount, bind_eq_ok, mapError_eq_ok, interface_eq_ok] at hok
  obtain ⟨⟨⟩, hopened, request, hbuilt, accountId, hid, account, haccount, source, hsource, ⟨⟩,
    hderivation, q, hq, confirmations, hconfirmations, pir, hpir, ⟨⟩, hsync, hpczt⟩ := hok
  have hsame := ((buildPczt_eq_ok h hbuilt q).mp hpczt).1
  rw [hsame]
  refine Creates.of_buildPczt h hbuilt hpczt (fun p => ?_) (ofPolicy_spendPolicy hsource)
  simp only [zSendFromAccount, bind_eq_ok, mapError_eq_ok, interface_eq_ok,
    parsePrivacyPolicy_policyName, hopened, hbuilt, hid, haccount, hsource, hderivation,
    hconfirmations, hpir, hsync, true_and, Except.ok.injEq, exists_eq_left', exists_const]

variable [DecidableEq WalletAddress] {W : SendWallet WalletAddress} {config : SendConfig}

/-- What `z_sendmany` has done when it has a proposal, whatever its privacy policy. -/
theorem sends_zSendMany (h : S.Lawful transparent receivers) {fromaddress : List Char}
    {minconf : Option ℕ} {fee : Option JsonValue} {privacyPolicy : Option String}
    {sent : Sent NoteRef}
    (hsent : zSendMany S W config fromaddress amounts minconf fee privacyPolicy = .ok sent) :
    SentFrom S W config fromaddress sent.account ∧
    Sends (fun p => zSendMany S W config fromaddress amounts minconf fee (some (Spend.policyName p)))
      sent sent.proposal (namedBy S receivers sent.account fromaddress) config.actionsLimit := by
  simp only [zSendMany, bind_eq_ok, mapError_eq_ok, interface_eq_ok] at hsent
  obtain ⟨⟨⟩, hfee, request, hbuilt, ⟨account, policy⟩, hsource, q, hq, ⟨⟩, hcount, confirmations,
    hconfirmations, proposal, hproposal, ⟨⟩, hderivation, heq⟩ := hsent
  obtain rfl := Except.ok.inj heq
  obtain ⟨⟨hpropose, hlimits⟩, -⟩ := (proposeAndCheck_eq_ok h hbuilt q).mp hproposal
  refine ⟨sendManySource_account hsource,
    Sends.of_iff (A := True) (fun p => ?_) trivial ?_ hlimits⟩
  · simp only [zSendMany, bind_eq_ok, mapError_eq_ok, interface_eq_ok,
      parsePrivacyPolicy_policyName, hfee, hbuilt, hsource, hcount, hconfirmations, hderivation,
      true_and, Except.ok.injEq, exists_eq_left', proposeAndCheck_eq_ok h hbuilt]
    constructor
    · rintro ⟨-, -, proposal', ⟨-, henforce⟩, -, heq⟩
      obtain rfl : proposal' = proposal := congrArg Sent.proposal heq
      exact henforce
    · intro henforce
      exact ⟨(), (), proposal, ⟨⟨hpropose, hlimits⟩, henforce⟩, (), rfl⟩
  · rw [← sendManySource_funds hsource]
    exact h.spends hpropose

/-- What `pczt_create` has done when it has a proposal. -/
theorem creates_pcztCreate (h : S.Lawful transparent receivers) {source : List Char}
    {minconf : Option ℕ} {privacyPolicy : Option String} {fundSource : Option JsonValue}
    {outcome : Sent NoteRef × PrivacyPolicy}
    (hok : pcztCreate S W config source amounts minconf privacyPolicy fundSource = .ok outcome) :
    Creates
      (fun p => pcztCreate S W config source amounts minconf (some (Spend.policyName p)) fundSource)
      outcome (namedByEither S receivers outcome.1.account source fundSource)
      config.actionsLimit := by
  simp only [pcztCreate, bind_eq_ok, mapError_eq_ok, interface_eq_ok] at hok
  obtain ⟨⟨⟩, hcount, request, hbuilt, ⟨⟩, htex, ⟨account, policy⟩, hsource, q, hq, confirmations,
    hconfirmations, hpczt⟩ := hok
  have haccount := ((buildPczt_eq_ok h hbuilt q).mp hpczt).1
  rw [haccount]
  refine Creates.of_buildPczt h hbuilt hpczt (fun p => ?_) (pcztSource_funds hsource)
  simp only [pcztCreate, bind_eq_ok, mapError_eq_ok, interface_eq_ok,
    parsePrivacyPolicy_policyName, hcount, hbuilt, htex, hsource, hconfirmations, true_and,
    Except.ok.injEq, exists_eq_left', exists_const]

/-- The gate opens for a wallet that is synced, or for notes that have PIR witnesses. -/
theorem awaitSync_ok {r : SyncReadings} {fundSource : FundSource}
    {pirResult : Option (Except String Unit)} (h : awaitSync r fundSource pirResult = .ok ()) :
    r.status₂ = .Synced ∨ r.status₃ = .Synced ∨
      fundSource = .Ironwood ∧ ∃ anchor, r.anchor₂ = .ok (some anchor) := by
  have havailable : ensureAvailable r.status₃ = .ok () → r.status₃ = .Synced := by
    cases r.status₃ <;> simp [ensureAvailable]
  unfold awaitSync at h
  split at h
  · exact Or.inl ‹_›
  · right
    right
    obtain ⟨⟨⟩, -, h⟩ := bind_eq_ok.mp h
    obtain ⟨anchor, hanchor, h⟩ := bind_eq_ok.mp h
    cases anchor with
    | none => cases h
    | some anchor => exact ⟨rfl, anchor, database_eq_ok.mp hanchor⟩
  · exact Or.inr (Or.inl (havailable h))

/-- **Payments from their source.** A payment that gets a proposal spends only the funds that
    its request names, within the limits; those of `ANY_TADDR` are of the legacy account. The same call gets it under exactly the privacy
    policies that permit what it reveals: a weaker policy changes nothing else, and no source
    needs a weaker one than `AllowRevealedRecipients` for notes, `AllowFullyTransparent` for
    one transparent address, and `NoPrivacy`. A PCZT has one step, and the policy that it
    records is acknowledged by exactly these policies. `z_sendfromaccount` waits for the sync
    engine except for Ironwood notes with PIR witnesses, and what it takes as `fund_source`
    are exactly the sources. -/
theorem sends_from_source (S : Crates WalletAddress ZcashAddress MemoBytes NoteRef)
    (h : S.Lawful transparent receivers) (W : SendWallet WalletAddress) (config : SendConfig)
    (amounts : List AmountParameter) (minconf : Option ℕ) :
    (∀ fromaddress fee privacyPolicy sent,
      zSendMany S W config fromaddress amounts minconf fee privacyPolicy = .ok sent →
      SentFrom S W config fromaddress sent.account ∧
      Sends (fun p => zSendMany S W config fromaddress amounts minconf fee
          (some (Spend.policyName p))) sent sent.proposal
        (namedBy S receivers sent.account fromaddress) config.actionsLimit) ∧
    (∀ source privacyPolicy fundSource outcome,
      pcztCreate S W config source amounts minconf privacyPolicy fundSource = .ok outcome →
      Creates (fun p => pcztCreate S W config source amounts minconf (some (Spend.policyName p))
          fundSource) outcome
        (namedByEither S receivers outcome.1.account source fundSource) config.actionsLimit) ∧
    (∀ legacySeeds r account fundSource privacyPolicy outcome,
      zSendFromAccount S W config legacySeeds r account fundSource amounts minconf privacyPolicy =
        .ok outcome →
      Creates (fun p => zSendFromAccount S W config legacySeeds r account fundSource amounts
          minconf (Spend.policyName p)) outcome
        (Funds.ofSource S.decodeAddress (receivers outcome.1.account.id) fundSource)
        config.actionsLimit ∧
      IsSource S.decodeAddress fundSource ∧
      (r.status₂ = .Synced ∨ r.status₃ = .Synced ∨
        fundSource = .String "ironwood".toList ∧ ∃ anchor, r.anchor₂ = .ok (some anchor))) ∧
    ∀ value, (∃ source, FundSource.parse S.decodeAddress value = .ok source) ↔
      IsSource S.decodeAddress value := by
  refine ⟨fun _ _ _ _ => sends_zSendMany h, fun _ _ _ _ => creates_pcztCreate h,
    fun legacySeeds r account fundSource privacyPolicy outcome hok => ?_, fun _ => parse_isOk⟩
  refine ⟨creates_zSendFromAccount h hok, ?_⟩
  simp only [zSendFromAccount, bind_eq_ok, mapError_eq_ok, interface_eq_ok] at hok
  obtain ⟨-, -, -, -, -, -, -, -, source, hsource, -, -, -, -, -, -, pir, -, ⟨⟩, hsync, -⟩ := hok
  refine ⟨parse_isOk.mp ⟨source, hsource⟩, ?_⟩
  rcases awaitSync_ok hsync with hsynced | hsynced | ⟨rfl, hanchor⟩
  · exact Or.inl hsynced
  · exact Or.inr (Or.inl hsynced)
  · exact Or.inr (Or.inr ⟨parse_ironwood hsource, hanchor⟩)

end

/-! ## A payment from a Sapling address -/

namespace FromSapling

open TwoRecipients (TestAddress codecs lawful transparent)

def fromaddress : List Char :=
  "zs1qqqqqqqqqqqqqqqqqqcguyvaw2vjk4sdyeg0lc970u659lvhqq7t0np6hlup5lusxle75c8v35z".toList

def amounts : List AmountParameter := [⟨TestAddress.text .tAddr1, .Number ['1', '.', '5'], none⟩]

theorem value_le : 150000000 ≤ maxMoney := by norm_num [maxMoney]

def payment : Payment TestAddress (List UInt8) := ⟨.tAddr1, some ⟨150000000, value_le⟩, none⟩

def request : TransactionRequest TestAddress (List UInt8) := ⟨.enumerate [payment]⟩

theorem not_shielding (h : false = true) : ([] : List WalletTransparentOutput) ≠ [] := by
  cases h

/-- The payment is made from a note of the Sapling pool, with change. -/
def proposal : Proposal StandardFeeRule ℕ where
  feeRule := .Zip317
  steps :=
    [{ transparentInputs := [], shieldedInputs := [⟨0, .Sapling⟩], priorStepInputs := []
       paymentPools := [(0, .Transparent)], proposedChange := [.Shielded .Sapling]
       isShielding := false, shieldingInputs := not_shielding }]

theorem buildRequest_one : buildRequest codecs amounts = .ok request := by
  have hpays : Pays codecs ⟨TestAddress.text .tAddr1, .Number ['1', '.', '5'], none⟩ payment :=
    ⟨by decide +kernel, ⟨_, by decide +kernel, rfl⟩, trivial⟩
  have htotal : totalOf [payment] ≤ maxMoney := by decide +kernel
  have hnew : TwoRecipients.requestNew [payment] = .ok request := by
    rw [TwoRecipients.requestNew, if_pos htotal]
    rfl
  refine (buildRequest_ok lawful).mpr ⟨List.cons_ne_nil _ _, [payment], ?_, hnew⟩
  refine ⟨.cons hpays .nil, ?_, List.nodup_singleton _, by simp, by decide +kernel⟩
  rw [List.forall_mem_singleton, Permitted]
  decide +kernel

/-- The account has one note, in the Sapling pool. -/
def crates : Crates Rpc.Address TestAddress (List UInt8) ℕ where
  codecs := codecs
  tryFromZcashAddress
    | .tAddr1 => .ok (.Transparent (.PublicKeyHash 0))
    | .sapling => .ok (.Sapling [])
  encode address := String.ofList address.text
  decode s := if s = fromaddress then some (.Sapling []) else none
  parts := id
  parseUuid _ := none
  seedFpText _ := "seed"
  proposeTransfer _ request _ policy _ :=
    if request.payments.values = [payment] ∧ ShieldedPool.Sapling ∈ policy.shielded then .ok proposal
    else .error "Insufficient balance"

theorem lawful_crates : crates.Lawful transparent fun _ => ∅ where
  codecs := lawful
  pays {accountId request confirmations policy change proposal'} h := by
    simp only [crates] at h
    split_ifs at h with hfunds
    obtain rfl := Except.ok.inj h
    refine ⟨[.Transparent], List.Perm.refl _, ?_⟩
    rw [hfunds.1]
    exact .cons ⟨.Transparent, rfl, rfl⟩ .nil
  spends {accountId request confirmations policy change proposal'} h := by
    simp only [crates] at h
    split_ifs at h with hfunds
    obtain rfl := Except.ok.inj h
    intro step hstep
    obtain rfl := List.mem_singleton.mp hstep
    exact ⟨fun note hnote => by rw [List.mem_singleton.mp hnote]; exact hfunds.2,
      fun input hinput => absurd hinput List.not_mem_nil⟩

def account : Account := ⟨1, "default", .Derived ⟨⟨List.replicate 32 7⟩, 0⟩, ⟨"uview"⟩, 0⟩

def wallet : SendWallet Rpc.Address where
  getAccountIds := .ok [1]
  getAccount _ := .ok (some account)
  findAccountForAddress _ := .ok (some 1)
  listAddresses _ := .ok [.Sapling []]

def config : SendConfig := ⟨none, none, none, none⟩

theorem zSendMany_noPrivacy : zSendMany crates wallet config fromaddress amounts none none
    (some "NoPrivacy") = .ok ⟨account, proposal⟩ := by
  have hbuilt : buildRequest crates.codecs amounts = .ok request := buildRequest_one
  have hsource : sendManySource crates wallet config fromaddress =
      .ok (account, .shieldedPools {.Sapling}) := by
    have hne : fromaddress ≠ "ANY_TADDR".toList := by decide
    rw [sendManySource, if_neg hne]
    rfl
  have hproposal : proposeAndCheck crates config.actionsLimit account.id request .NoPrivacy
      ⟨3, 10, false⟩ (.shieldedPools {.Sapling}) = .ok proposal := by
    apply (proposeAndCheck_eq_ok lawful_crates hbuilt _).mpr
    have hfunds : request.payments.values = [payment] ∧
        ShieldedPool.Sapling ∈ ({.Sapling} : Finset ShieldedPool) :=
      ⟨rfl, Finset.mem_singleton_self _⟩
    refine ⟨⟨?_, by decide⟩, by decide⟩
    simp only [crates]
    exact if_pos hfunds
  have hparse : Spend.parsePrivacyPolicy (some "NoPrivacy") = .ok .NoPrivacy :=
    parsePrivacyPolicy_policyName .NoPrivacy
  simp only [zSendMany, bind_eq_ok, mapError_eq_ok, interface_eq_ok]
  exact ⟨(), rfl, request, hbuilt, _, hsource, _, hparse, (), rfl, ⟨3, 10, false⟩, rfl, proposal,
    hproposal, (), rfl, rfl⟩

/-- The recipient is transparent: `AllowRevealedRecipients` is enough, and `AllowRevealedAmounts`
    is not. -/
theorem sends_from_source_sapling :
    zSendMany crates wallet config fromaddress amounts none none
        (some "AllowRevealedRecipients") = .ok ⟨account, proposal⟩ ∧
      zSendMany crates wallet config fromaddress amounts none none
        (some "AllowRevealedAmounts") ≠ .ok ⟨account, proposal⟩ ∧
      ∃ source, FundSource.parse crates.decodeAddress (.String "sapling".toList) = .ok source := by
  obtain ⟨hsendmany, -, -, hsource⟩ :=
    sends_from_source crates lawful_crates wallet config amounts none
  obtain ⟨-, hsends⟩ := hsendmany fromaddress none (some "NoPrivacy") _ zSendMany_noPrivacy
  refine ⟨?_, ?_, (hsource _).mpr (.named (Or.inr (Or.inr (Or.inl rfl))))⟩
  · have hnone : (namedBy crates (fun _ => ∅) account fromaddress).addresses = ∅ := rfl
    have hweakest := hsends.weakest
    rw [Funds.weakest, if_pos hnone] at hweakest
    exact hweakest
  · intro hamounts
    have hpermits := (hsends.policies .AllowRevealedAmounts).mp hamounts _ List.mem_cons_self
      .recipients (Or.inl ⟨_, List.mem_cons_self, rfl⟩)
    exact absurd hpermits (by decide)

end FromSapling

end Zallet.Rpc.Payments
