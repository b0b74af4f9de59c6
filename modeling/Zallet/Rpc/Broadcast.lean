import Zallet.Effect.Hoare
import Zallet.Rpc.Privacy
import Zallet.Rpc.Requests

/-!
# Verifying and broadcasting the transactions of a proposal

`proposed_transparent_payments` and `verify_and_broadcast_transactions` of
`zallet-core/src/components/json_rpc/payments.rs`, lines 1277–1430, and
`SendResult` (lines 1432–1471).

The call reads transactions and address records of the wallet and hands
transactions to the chain: `sendSig` has these operations. The wallet answers
from its contents (`WalletContents`), the chain may answer anything.

`broadcast_only_verified`: whatever the call has done so far, it has broadcast
nothing or it has verified all transactions, and broadcast the first of them in
the order of the steps.
-/

namespace Zallet.Rpc

open Zallet.Chain Zallet.Effect
open Zallet.Common.Loop (forall₂_of_mapM)

/-! ## The payments of a proposal -/

/-- `UnifiedAddress`: its receivers. -/
structure UnifiedAddress where
  transparent : Option TransparentAddress
  hasSapling : Bool
  hasOrchard : Bool
  deriving DecidableEq

/-- `zcash_keys::Address`. -/
inductive Address
  | Sapling (data : List UInt8)
  | Transparent (addr : TransparentAddress)
  | Unified (ua : UnifiedAddress)
  | Tex (data : BitVec 160)
  deriving DecidableEq

/-- A step of a proposal, with the request that it pays. -/
structure PayingStep (NoteRef ZcashAddress MemoBytes : Type) extends Step NoteRef where
  transactionRequest : TransactionRequest ZcashAddress MemoBytes

/-- The steps of a proposal. -/
abbrev PayingSteps (NoteRef ZcashAddress MemoBytes : Type) : Type :=
  List (PayingStep NoteRef ZcashAddress MemoBytes)

def walletError (message : String) : RpcError := LegacyCode.Wallet.withMessage message

section

variable {NoteRef ZcashAddress MemoBytes : Type} (addressOf : ZcashAddress → Option Address)

/-- The receiver that a transparent payment goes to (lines 1309–1327).
    `addressOf` is `Address::try_from_zcash_address`. -/
def transparentReceiver (recipient : ZcashAddress) : Except RpcError TransparentAddress :=
  match addressOf recipient with
  | some (.Transparent addr) => .ok addr
  | some (.Tex data) => .ok (.PublicKeyHash data)
  | some (.Unified ua) =>
    match ua.transparent with
    | some addr => .ok addr
    | none => .error (walletError ("Internal error: transparent-pool payment to a unified address " ++
        "without a transparent receiver."))
  | some (.Sapling _) | none =>
    .error (walletError "Internal error: transparent-pool payment to a non-transparent address.")

/-- The transparent payment with the given index (lines 1295–1328). -/
def transparentPayment (step : PayingStep NoteRef ZcashAddress MemoBytes) (paymentIndex : ℕ) :
    Except RpcError (TransparentAddress × Zatoshis) := do
  match step.transactionRequest.payments.get paymentIndex with
  | none =>
    .error (walletError "Internal error: proposal step references a nonexistent payment.")
  | some payment =>
    match payment.amount with
    | none => .error (walletError "Internal error: proposal step payment has no amount.")
    | some value =>
      let addr ← transparentReceiver addressOf payment.recipientAddress
      return (addr, value)

/-- The loop over `payment_pools` (lines 1294–1330). -/
def stepPayments (step : PayingStep NoteRef ZcashAddress MemoBytes) :
    List (ℕ × PoolType) → Except RpcError (List (TransparentAddress × Zatoshis))
  | [] => .ok []
  | (paymentIndex, .Transparent) :: rest => do
    let payment ← transparentPayment addressOf step paymentIndex
    let payments ← stepPayments step rest
    return payment :: payments
  | (_, .Shielded _) :: rest => stepPayments step rest

/-- `proposed_transparent_payments` (lines 1277–1334). -/
def proposedTransparentPayments (steps : PayingSteps NoteRef ZcashAddress MemoBytes) :
    Except RpcError (List (List (TransparentAddress × Zatoshis))) :=
  steps.mapM fun step => stepPayments addressOf step step.paymentPools

end

/-! ## The call -/

structure TxOut where
  recipientAddress : Option TransparentAddress
  value : Zatoshis
  deriving DecidableEq

/-- What the call reads of a transaction. -/
structure BuiltTransaction where
  txid : TxId
  transparentBundle : Option (List TxOut)
  deriving DecidableEq

/-- The operations of the call on the wallet and on the chain. -/
inductive SendOp
  | getTransaction (txid : TxId)
  | getTransparentAddressMetadata (addr : TransparentAddress)
  | broadcastTransaction (tx : BuiltTransaction)
  deriving DecidableEq

/-- The answers. An error is its text, and of the metadata only the source is
    read. -/
def SendOp.Ret : SendOp → Type
  | getTransaction _ => Except String (Option BuiltTransaction)
  | getTransparentAddressMetadata _ => Except String (Option TransparentAddressSource)
  | broadcastTransaction _ => Except String Unit

def sendSig : Sig := ⟨SendOp, SendOp.Ret⟩

def getTransaction (txid : TxId) :
    Prog sendSig (Except String (Option BuiltTransaction)) :=
  Prog.call (S := sendSig) (SendOp.getTransaction txid)

def getTransparentAddressMetadata (addr : TransparentAddress) :
    Prog sendSig (Except String (Option TransparentAddressSource)) :=
  Prog.call (S := sendSig) (SendOp.getTransparentAddressMetadata addr)

def broadcastTransaction (tx : BuiltTransaction) : Prog sendSig (Except String Unit) :=
  Prog.call (S := sendSig) (SendOp.broadcastTransaction tx)

/-- The texts of addresses and transaction identifiers. -/
structure SendTexts where
  encode : TransparentAddress → String
  txid : TxId → String

/-- `SendResult` (lines 1432–1456). -/
structure SendResult where
  txid : Option String
  txids : List String
  broadcast : Bool
  deriving DecidableEq

section

variable (texts : SendTexts)

/-- `SendResult::new` (lines 1459–1470). -/
def SendResult.new (txids : List TxId) (broadcast : Bool) : SendResult :=
  let txids := txids.map texts.txid
  ⟨if txids.length = 1 then txids.head? else none, txids, broadcast⟩

/-- The message `err-transparent-output-not-wallet-derived`. -/
def notWalletDerived (output : String) : String :=
  "The built transaction pays a transparent output (" ++ output ++ ") that is neither a requested " ++
    "payment nor an address derived from the account's own key. The wallet database is " ++
    "corrupted or has been tampered with. The transaction has not been broadcast."

/-- The message `err-transparent-payment-missing`. -/
def paymentMissing (address : String) : String :=
  "The built transaction is missing a requested payment output (to " ++ address ++ "). The wallet " ++
    "database is corrupted or has been tampered with. The transaction has not been broadcast."

/-- The errors of `check_transparent_outputs` (lines 1389–1414). -/
def outputError : TransparentOutputError String → RpcError
  | .Lookup e => LegacyCode.Database.withMessage e
  | .UnrecognizedScript vout => walletError (notWalletDerived ("output index " ++ toString vout))
  | .MissingPayment addr => walletError (paymentMissing (texts.encode addr))
  | .UnknownAddress addr => walletError (notWalletDerived (texts.encode addr))
  | .DerivationMismatch addr => walletError (notWalletDerived (texts.encode addr))
  | .NoTransparentKey addr => walletError (notWalletDerived (texts.encode addr))
  | .NotDerived addr => walletError (notWalletDerived (texts.encode addr))

/-- The transparent outputs of a transaction (lines 1373–1382). -/
def BuiltTransaction.outputs (tx : BuiltTransaction) : List (Option TransparentAddress × Zatoshis) :=
  (tx.transparentBundle.getD []).map fun txout => (txout.recipientAddress, txout.value)

variable {AccountPubKey PublicKey : Type} (keys : TransparentKeys AccountPubKey PublicKey)
  (accountPubkey : Option AccountPubKey)

/-- `checkOutputs` where the address source is read from the wallet. -/
def readOutputs : ℕ → List (Option TransparentAddress × Zatoshis) →
    List (TransparentAddress × Zatoshis) →
    ExceptT (TransparentOutputError String) (Prog sendSig) (List (TransparentAddress × Zatoshis))
  | _, [], expectedPayments => pure expectedPayments
  | vout, (none, _) :: _, _ => throw (.UnrecognizedScript vout)
  | vout, (some addr, value) :: rest, expectedPayments =>
    match expectedPayments.findIdx? fun expected => expected.1 = addr ∧ expected.2 = value with
    | some index => readOutputs (vout + 1) rest (swapRemove expectedPayments index)
    | none => do
      let source ← lift (getTransparentAddressMetadata addr)
      ofOutcome (checkDerived keys accountPubkey (fun _ => source) addr)
      readOutputs (vout + 1) rest expectedPayments

/-- `checkTransparentOutputs` where the address source is read from the wallet. -/
def readTransparentOutputs (outputs : List (Option TransparentAddress × Zatoshis))
    (expectedPayments : List (TransparentAddress × Zatoshis)) :
    ExceptT (TransparentOutputError String) (Prog sendSig) Unit := do
  match ← readOutputs keys accountPubkey 0 outputs expectedPayments with
  | [] => pure ()
  | (addr, _) :: _ => throw (.MissingPayment addr)

/-- The loop that verifies the transactions (lines 1361–1417). -/
def verifyTransactions : List (TxId × List (TransparentAddress × Zatoshis)) →
    ExceptT RpcError (Prog sendSig) (List BuiltTransaction)
  | [] => pure []
  | (txid, expected) :: rest => do
    let found ← liftE (fun e => LegacyCode.Database.withMessage ("Failed to get transaction: " ++ e))
      (getTransaction txid)
    match found with
    | none => throw (walletError ("Wallet does not contain transaction " ++ texts.txid txid))
    | some tx =>
      liftE (outputError texts) (readTransparentOutputs keys accountPubkey tx.outputs expected).run
      let transactions ← verifyTransactions rest
      return tx :: transactions

/-- The loop that broadcasts the transactions (lines 1419–1427). -/
def broadcastTransactions : List BuiltTransaction → ExceptT RpcError (Prog sendSig) Unit
  | [] => pure ()
  | tx :: transactions => do
    liftE (fun e => walletError ("SendTransaction: Transaction commit failed:: " ++ e))
      (broadcastTransaction tx)
    broadcastTransactions transactions

variable {NoteRef ZcashAddress MemoBytes : Type} (addressOf : ZcashAddress → Option Address)

/-- `verify_and_broadcast_transactions` (lines 1336–1430); `broadcast` is the
    configuration option. -/
def verifyAndBroadcastTransactions (broadcast : Bool)
    (steps : PayingSteps NoteRef ZcashAddress MemoBytes) (txids : List TxId) :
    ExceptT RpcError (Prog sendSig) SendResult := do
  let expectedPayments ← ofOutcome (proposedTransparentPayments addressOf steps)
  if txids.length ≠ expectedPayments.length then
    throw (walletError
      "Internal error: built transaction count does not match proposal step count.")
  else
    let transactions ← verifyTransactions texts keys accountPubkey (txids.zip expectedPayments)
    if broadcast then
      broadcastTransactions transactions
      return SendResult.new texts txids broadcast
    else
      return SendResult.new texts txids broadcast

end

/-! ## The wallet and the chain -/

/-- What the wallet answers to the reads of the call. -/
structure WalletContents where
  getTransaction : TxId → Except String (Option BuiltTransaction)
  addressSource : TransparentAddress → Except String (Option TransparentAddressSource)

/-- The wallet answers from its contents, the chain answers anything. -/
def sendContract (wallet : WalletContents) : Contract sendSig Unit
  | .getTransaction txid, _, r, _ => r = wallet.getTransaction txid
  | .getTransparentAddressMetadata addr, _, r, _ => r = wallet.addressSource addr
  | .broadcastTransaction _, _, _, _ => True

def IsRead : sendSig.Op → Prop
  | SendOp.getTransaction _ => True
  | SendOp.getTransparentAddressMetadata _ => True
  | SendOp.broadcastTransaction _ => False

/-- The transactions handed to the chain. -/
def broadcasts (τ : List (Event sendSig)) : List BuiltTransaction :=
  τ.filterMap fun ev =>
    match ev.op with
    | .broadcastTransaction tx => some tx
    | _ => none

section

variable {wallet : WalletContents} {texts : SendTexts} {AccountPubKey PublicKey : Type}
  {keys : TransparentKeys AccountPubKey PublicKey} {accountPubkey : Option AccountPubKey}

theorem wpE_metadata {ε α : Type} {Q : Except ε α → Unit → Prop} {addr : TransparentAddress}
    {f : Except String (Option TransparentAddressSource) → ExceptT ε (Prog sendSig) α} {w : Unit}
    (h : wpE (sendContract wallet) Eq (fun o _ => IsRead o) Q (f (wallet.addressSource addr)) w) :
    wpE (sendContract wallet) Eq (fun o _ => IsRead o) Q
      (lift (getTransparentAddressMetadata addr) >>= f) w := by
  rw [wpE_bind, wpE_lift]
  rintro w₁ rfl
  refine ⟨trivial, ?_⟩
  rintro source w₂ rfl
  exact h

/-- The loop over the outputs reads, and answers what `checkOutputs` does for the
    contents of the wallet. -/
theorem wpE_readOutputs (vout : ℕ) (outputs : List (Option TransparentAddress × Zatoshis))
    (expected : List (TransparentAddress × Zatoshis)) (w : Unit) :
    wpE (sendContract wallet) Eq (fun o _ => IsRead o)
      (fun r _ => r = checkOutputs keys accountPubkey wallet.addressSource vout outputs expected)
      (readOutputs keys accountPubkey vout outputs expected) w := by
  induction outputs generalizing vout expected w with
  | nil => exact rfl
  | cons output rest ih =>
    obtain ⟨addr, value⟩ := output
    cases addr with
    | none => exact rfl
    | some addr =>
      rw [readOutputs, checkOutputs]
      cases expected.findIdx? fun expected => decide (expected.1 = addr ∧ expected.2 = value) with
      | some index => exact ih _ _ _
      | none =>
        refine wpE_metadata ?_
        have hcheck : checkDerived keys accountPubkey (fun _ => wallet.addressSource addr) addr =
            checkDerived keys accountPubkey wallet.addressSource addr := rfl
        rw [wpE_bind, wpE_ofOutcome, hcheck]
        cases checkDerived keys accountPubkey wallet.addressSource addr with
        | error e => exact rfl
        | ok u => exact ih _ _ _

theorem wpE_readTransparentOutputs (outputs : List (Option TransparentAddress × Zatoshis))
    (expected : List (TransparentAddress × Zatoshis)) (w : Unit) :
    wpE (sendContract wallet) Eq (fun o _ => IsRead o)
      (fun r _ => r = checkTransparentOutputs keys accountPubkey wallet.addressSource outputs expected)
      (readTransparentOutputs keys accountPubkey outputs expected) w := by
  rw [readTransparentOutputs, wpE_bind]
  refine wpE_post (wpE_readOutputs 0 outputs expected w) ?_
  intro r w' hr
  rw [checkTransparentOutputs, ← hr]
  cases r with
  | error e => exact rfl
  | ok unaccounted =>
    cases unaccounted with
    | nil => exact rfl
    | cons first rest => exact rfl

/-- The transaction was found in the wallet, and its transparent outputs are
    accounted for. -/
def Verified (wallet : WalletContents) (keys : TransparentKeys AccountPubKey PublicKey)
    (accountPubkey : Option AccountPubKey) (entry : TxId × List (TransparentAddress × Zatoshis))
    (tx : BuiltTransaction) : Prop :=
  wallet.getTransaction entry.1 = .ok (some tx) ∧
    checkTransparentOutputs keys accountPubkey wallet.addressSource tx.outputs entry.2 = .ok ()

theorem wpE_verifyTransactions (entries : List (TxId × List (TransparentAddress × Zatoshis)))
    (w : Unit) :
    wpE (sendContract wallet) Eq (fun o _ => IsRead o)
      (fun r _ => ∀ txs, r = .ok txs →
        List.Forall₂ (Verified wallet keys accountPubkey) entries txs)
      (verifyTransactions texts keys accountPubkey entries) w := by
  induction entries generalizing w with
  | nil =>
    intro txs htxs
    obtain rfl := Except.ok.inj htxs
    exact .nil
  | cons entry rest ih =>
    obtain ⟨txid, expected⟩ := entry
    rw [verifyTransactions, wpE_bind, wpE_liftE]
    rintro w₁ rfl
    refine ⟨trivial, ?_⟩
    rintro found w₂ rfl
    cases hfound : wallet.getTransaction txid with
    | error e =>
      intro txs htxs
      cases htxs
    | ok found =>
      cases found with
      | none =>
        intro txs htxs
        cases htxs
      | some tx =>
        show wpE _ _ _ _ (liftE (outputError texts) _ >>= _) _
        rw [wpE_bind, wpE_liftE]
        refine wp_post (wpE_readTransparentOutputs tx.outputs expected w₂) ?_
        intro r w₃ hr
        cases r with
        | error e =>
          intro txs htxs
          cases htxs
        | ok u =>
          show wpE _ _ _ _ (verifyTransactions texts keys accountPubkey rest >>= _) _
          rw [wpE_bind]
          refine wpE_post (ih w₃) ?_
          intro r w₄ hrest
          cases r with
          | error e =>
            intro txs htxs
            cases htxs
          | ok txs =>
            intro txs' htxs'
            obtain rfl := Except.ok.inj htxs'
            exact .cons ⟨hfound, hr.symm⟩ (hrest txs rfl)

theorem run_broadcastTransactions (tx : BuiltTransaction) (txs : List BuiltTransaction) :
    (broadcastTransactions (tx :: txs)).run =
      (broadcastTransaction tx >>= fun r =>
        match r with
        | .ok _ => (broadcastTransactions txs).run
        | .error e =>
          .pure (.error (walletError ("SendTransaction: Transaction commit failed:: " ++ e)))) := by
  refine congrArg (Prog.op (S := sendSig) (SendOp.broadcastTransaction tx)) (funext fun r => ?_)
  match r with
  | .ok _ => rfl
  | .error e => rfl

/-- The transactions that the second loop has handed to the chain. -/
theorem broadcastTransactions_prefix {C : Contract sendSig Unit} {txs : List BuiltTransaction}
    {τ : List (Event sendSig)} {q : Prog sendSig (Except RpcError Unit)} {w w' : Unit}
    (h : Reaches C (broadcastTransactions txs).run w τ q w') :
    (∀ ev ∈ τ, ¬ IsRead ev.op) ∧ broadcasts τ <+: txs := by
  induction txs generalizing τ w with
  | nil =>
    cases h
    exact ⟨fun ev hev => absurd hev List.not_mem_nil, List.nil_prefix⟩
  | cons tx txs ih =>
    rw [run_broadcastTransactions] at h
    cases h with
    | refl => exact ⟨fun ev hev => absurd hev List.not_mem_nil, List.nil_prefix⟩
    | @step _ _ _ _ _ r τ _ hC h =>
      have hrest : (∀ ev ∈ τ, ¬ IsRead ev.op) ∧ broadcasts τ <+: txs := by
        match r, h with
        | .ok _, h => exact ih h
        | .error e, h =>
          cases h
          exact ⟨fun ev hev => absurd hev List.not_mem_nil, List.nil_prefix⟩
      refine ⟨List.forall_mem_cons.mpr ⟨id, hrest.1⟩, ?_⟩
      exact (List.prefix_cons_inj tx).mpr hrest.2

/-! ## Nothing unverified is broadcast -/

variable {NoteRef ZcashAddress MemoBytes : Type} {addressOf : ZcashAddress → Option Address}

/-- There is one transaction for each step: the one with the identifier of the
    same index, verified against the payments of the step of that index. -/
structure AllVerified (wallet : WalletContents) (keys : TransparentKeys AccountPubKey PublicKey)
    (accountPubkey : Option AccountPubKey) (addressOf : ZcashAddress → Option Address)
    (steps : PayingSteps NoteRef ZcashAddress MemoBytes) (txids : List TxId)
    (txs : List BuiltTransaction) : Prop where
  txids_length : txids.length = steps.length
  txs_length : txs.length = steps.length
  verified : ∀ (i : ℕ) step txid tx,
    steps[i]? = some step → txids[i]? = some txid → txs[i]? = some tx →
    ∃ expected, stepPayments addressOf step step.paymentPools = .ok expected ∧
      Verified wallet keys accountPubkey (txid, expected) tx

theorem allVerified_of_forall₂ {steps : PayingSteps NoteRef ZcashAddress MemoBytes}
    {txids : List TxId} {txs : List BuiltTransaction}
    {expected : List (List (TransparentAddress × Zatoshis))}
    (hexpected : List.Forall₂
      (fun step payments => stepPayments addressOf step step.paymentPools = .ok payments)
      steps expected)
    (hlen : txids.length = expected.length)
    (htxs : List.Forall₂ (Verified wallet keys accountPubkey) (txids.zip expected) txs) :
    AllVerified wallet keys accountPubkey addressOf steps txids txs := by
  have hsteps := hexpected.length_eq
  have hzip := htxs.length_eq
  rw [List.length_zip] at hzip
  refine ⟨by omega, by omega, fun i step txid tx hstep htxid htx => ?_⟩
  obtain ⟨hi, rfl⟩ := List.getElem?_eq_some_iff.mp hstep
  obtain ⟨hi', rfl⟩ := List.getElem?_eq_some_iff.mp htxid
  obtain ⟨hi'', rfl⟩ := List.getElem?_eq_some_iff.mp htx
  have hpayments := hexpected.get hi (by omega)
  have hverified := htxs.get (by rw [List.length_zip]; omega) hi''
  refine ⟨expected[i], hpayments, ?_⟩
  simpa using hverified

theorem AllVerified.map_txid {steps : PayingSteps NoteRef ZcashAddress MemoBytes}
    {txids : List TxId} {txs : List BuiltTransaction}
    (h : AllVerified wallet keys accountPubkey addressOf steps txids txs)
    (hwallet : ∀ txid tx, wallet.getTransaction txid = .ok (some tx) → tx.txid = txid) :
    txs.map BuiltTransaction.txid = txids := by
  have hids := h.txids_length
  have htxs := h.txs_length
  refine List.ext_getElem (by rw [List.length_map]; omega) fun i hi hi' => ?_
  rw [List.length_map] at hi
  obtain ⟨_, _, hfound, _⟩ := h.verified i steps[i] txids[i] txs[i]
    (List.getElem?_eq_getElem _) (List.getElem?_eq_getElem _) (List.getElem?_eq_getElem _)
  rw [List.getElem_map]
  exact hwallet _ _ hfound

theorem broadcastTransactions_return {C : Contract sendSig Unit} {txs : List BuiltTransaction}
    {α : Type} {result : α} {τ : List (Event sendSig)} {q : Prog sendSig (Except RpcError α)}
    {w w' : Unit} (h : Reaches C (do
      broadcastTransactions txs
      return result : ExceptT RpcError (Prog sendSig) α).run w τ q w') :
    (∀ ev ∈ τ, ¬ IsRead ev.op) ∧ broadcasts τ <+: txs := by
  rw [ExceptT.run_bind] at h
  rcases reaches_bind h with ⟨q', hr⟩ | ⟨τ₁, r, w₁, τ₂, hrun, hr, rfl⟩
  · exact broadcastTransactions_prefix hr
  · have hnil : τ₂ = [] := by
      cases r with
      | error e => cases hr; rfl
      | ok u => cases hr; rfl
    rw [hnil, List.append_nil]
    exact broadcastTransactions_prefix hrun

/-- What the call does after it has worked out the payments: it reads, or it has
    verified all transactions and broadcasts them. -/
theorem reaches_verify {α : Type} {entries : List (TxId × List (TransparentAddress × Zatoshis))}
    {result : α} {broadcast : Bool} {τ : List (Event sendSig)}
    {q : Prog sendSig (Except RpcError α)}
    (hr : Reaches (sendContract wallet) (do
      let transactions ← verifyTransactions texts keys accountPubkey entries
      if broadcast then
        broadcastTransactions transactions
        return result
      else return result : ExceptT RpcError (Prog sendSig) α).run () τ q ()) :
    (∀ ev ∈ τ, IsRead ev.op) ∨
      ∃ verify sends txs, τ = verify ++ sends ∧ (∀ ev ∈ verify, IsRead ev.op) ∧
        (∀ ev ∈ sends, ¬ IsRead ev.op) ∧
        Run (sendContract wallet) (verifyTransactions texts keys accountPubkey entries).run ()
          verify (.ok txs) () ∧
        List.Forall₂ (Verified wallet keys accountPubkey) entries txs ∧ broadcasts sends <+: txs := by
  have hwp := @wpE_verifyTransactions wallet texts _ _ keys accountPubkey entries ()
  rw [ExceptT.run_bind] at hr
  rcases reaches_bind hr with ⟨q', hr⟩ | ⟨verify, r, w₁, τ₂, hrun, hr, rfl⟩
  · exact Or.inl (wp_events hwp hr)
  have hverify := wp_events hwp hrun
  cases r with
  | error e =>
    cases hr
    rw [List.append_nil]
    exact Or.inl hverify
  | ok txs =>
    cases broadcast with
    | false =>
      cases hr
      rw [List.append_nil]
      exact Or.inl hverify
    | true =>
      obtain ⟨hsends, hprefix⟩ := broadcastTransactions_return hr
      exact Or.inr ⟨verify, τ₂, txs, rfl, hverify, hsends, hrun, wp_run hwp hrun txs rfl, hprefix⟩

/-- Whatever the call has done so far, it has broadcast nothing, or it has verified
    one transaction for each step and broadcast the first of them in their order. -/
theorem broadcast_only_verified {broadcast : Bool}
    {steps : PayingSteps NoteRef ZcashAddress MemoBytes} {txids : List TxId}
    {τ : List (Event sendSig)} {q : Prog sendSig (Except RpcError SendResult)}
    (hr : Reaches (sendContract wallet) (verifyAndBroadcastTransactions texts keys accountPubkey
      addressOf broadcast steps txids).run () τ q ()) :
    (txids.length ≠ steps.length → broadcasts τ = []) ∧
      ∃ verify sends, τ = verify ++ sends ∧ (∀ ev ∈ verify, IsRead ev.op) ∧
        (∀ ev ∈ sends, ¬ IsRead ev.op) ∧
        (sends ≠ [] → ∃ expected txs, proposedTransparentPayments addressOf steps = .ok expected ∧
          Run (sendContract wallet)
            (verifyTransactions texts keys accountPubkey (txids.zip expected)).run ()
            verify (.ok txs) () ∧
          AllVerified wallet keys accountPubkey addressOf steps txids txs ∧
          broadcasts sends <+: txs ∧
          ((∀ txid tx, wallet.getTransaction txid = .ok (some tx) → tx.txid = txid) →
            txids.Nodup → (broadcasts sends).Nodup)) := by
  unfold verifyAndBroadcastTransactions at hr
  cases hexpected : proposedTransparentPayments addressOf steps with
  | error e =>
    rw [hexpected] at hr
    cases hr
    exact ⟨fun _ => rfl, [], [], rfl, by simp, by simp, fun h => absurd rfl h⟩
  | ok expected =>
    rw [hexpected] at hr
    have hforall := forall₂_of_mapM hexpected
    have hsteps := hforall.length_eq
    by_cases hlen : txids.length = expected.length
    · have hcase : ¬ txids.length ≠ expected.length := not_not.mpr hlen
      change Reaches _ (ite (txids.length ≠ expected.length) _ _ : ExceptT _ _ _).run _ _ _ _ at hr
      rw [if_neg hcase] at hr
      refine ⟨fun hne => absurd (hlen.trans hsteps.symm) hne, ?_⟩
      rcases reaches_verify hr with hread | ⟨verify, sends, txs, hτ, hverify, hsends, hrun, htxs,
        hprefix⟩
      · exact ⟨τ, [], (List.append_nil τ).symm, hread, by simp, fun h => absurd rfl h⟩
      · have hall := allVerified_of_forall₂ hforall hlen htxs
        refine ⟨verify, sends, hτ, hverify, hsends, fun _ => ⟨expected, txs, rfl, hrun, hall,
          hprefix, fun hwallet hnodup => ?_⟩⟩
        have htxids := hall.map_txid hwallet
        rw [← htxids] at hnodup
        exact hprefix.sublist.nodup hnodup.of_map
    · change Reaches _ (ite (txids.length ≠ expected.length) _ _ : ExceptT _ _ _).run _ _ _ _ at hr
      rw [if_pos hlen] at hr
      cases hr
      exact ⟨fun _ => rfl, [], [], rfl, by simp, by simp, fun h => absurd rfl h⟩

end

/-! ## Two steps -/

namespace TwoSteps

/-- The chain accepts every transaction. -/
def handler (wallet : WalletContents) : Handler sendSig Unit
  | .getTransaction txid, s => some (wallet.getTransaction txid, s)
  | .getTransparentAddressMetadata addr, s => some (wallet.addressSource addr, s)
  | .broadcastTransaction _, s => some (.ok (), s)

theorem handler_keeps (wallet : WalletContents) : (handler wallet).Keeps (sendContract wallet) id := by
  rintro (txid | addr | tx) s r s' h
  · exact (congrArg Prod.fst (Option.some.inj h)).symm
  · exact (congrArg Prod.fst (Option.some.inj h)).symm
  · trivial

def value : Zatoshis := ⟨1000, by norm_num [maxMoney]⟩

/-- A step that pays one recipient transparently. -/
def step (recipient : Address) : PayingStep Unit Address Unit where
  transparentInputs := []
  shieldedInputs := []
  priorStepInputs := []
  paymentPools := [(0, .Transparent)]
  proposedChange := []
  isShielding := false
  shieldingInputs := by simp
  transactionRequest := ⟨.singleton 0 ⟨recipient, some value, none⟩⟩

/-- A payment to a unified address and one to a TEX address. -/
def steps : PayingSteps Unit Address Unit :=
  [step (.Unified ⟨some (.ScriptHash 7), true, false⟩), step (.Tex 8)]

def transaction (txid : TxId) (addr : TransparentAddress) : BuiltTransaction :=
  ⟨txid, some [⟨some addr, value⟩]⟩

def wallet : WalletContents where
  getTransaction txid :=
    if txid = 1 then .ok (some (transaction 1 (.ScriptHash 7)))
    else if txid = 2 then .ok (some (transaction 2 (.PublicKeyHash 8)))
    else .ok none
  addressSource _ := .ok none

def keys : TransparentKeys Unit Unit := ⟨fun _ _ _ => none, fun _ => .PublicKeyHash 0⟩

def texts : SendTexts := ⟨fun _ => "address", fun _ => "txid"⟩

def call : Prog sendSig (Except RpcError SendResult) :=
  (verifyAndBroadcastTransactions texts keys none some true steps [1, 2]).run

end TwoSteps

theorem TwoSteps.broadcasts_of_reads {verify : List (Event sendSig)}
    (h : ∀ ev ∈ verify, IsRead ev.op) : broadcasts verify = [] := by
  refine List.filterMap_eq_nil_iff.mpr fun ev hev => ?_
  have hread := h ev hev
  split
  · rename_i tx heq
    rw [heq] at hread
    exact hread.elim
  · rfl

/-- Both transactions are broadcast, after both have been verified. -/
theorem broadcast_two_steps :
    ∃ τ q, Reaches (sendContract TwoSteps.wallet) TwoSteps.call () τ q () ∧
      broadcasts τ =
        [TwoSteps.transaction 1 (.ScriptHash 7), TwoSteps.transaction 2 (.PublicKeyHash 8)] ∧
      AllVerified TwoSteps.wallet TwoSteps.keys none some TwoSteps.steps [1, 2]
        [TwoSteps.transaction 1 (.ScriptHash 7), TwoSteps.transaction 2 (.PublicKeyHash 8)] ∧
      (broadcasts τ).Nodup ∧
      ∃ verify sends, τ = verify ++ sends ∧ (∀ ev ∈ verify, IsRead ev.op) := by
  have hreaches := exec_reaches (TwoSteps.handler_keeps TwoSteps.wallet) 10 TwoSteps.call ()
  obtain ⟨-, verify, sends, hτ, hverify, -, hsends⟩ := broadcast_only_verified hreaches
  have hboth : broadcasts (exec (TwoSteps.handler TwoSteps.wallet) 10 TwoSteps.call ()).1 =
      [TwoSteps.transaction 1 (.ScriptHash 7), TwoSteps.transaction 2 (.PublicKeyHash 8)] := by
    decide +kernel
  have hrest : broadcasts sends =
      [TwoSteps.transaction 1 (.ScriptHash 7), TwoSteps.transaction 2 (.PublicKeyHash 8)] := by
    rw [← hboth, hτ, broadcasts, broadcasts, List.filterMap_append]
    exact (congrArg (· ++ _) (TwoSteps.broadcasts_of_reads hverify)).symm
  have hne : sends ≠ [] := by
    rintro rfl
    cases hrest
  obtain ⟨expected, txs, -, -, hverified, hprefix, hnodup⟩ := hsends hne
  rw [hrest] at hprefix hnodup
  have htxs := hprefix.eq_of_length hverified.txs_length.symm
  refine ⟨_, _, hreaches, hboth, htxs ▸ hverified, ?_, verify, sends, hτ, hverify⟩
  rw [hboth]
  apply hnodup
  · intro txid tx hfound
    unfold TwoSteps.wallet at hfound
    simp only at hfound
    split_ifs at hfound with hone htwo
    · obtain rfl := Option.some.inj (Except.ok.inj hfound)
      exact hone.symm
    · obtain rfl := Option.some.inj (Except.ok.inj hfound)
      exact htwo.symm
    · cases Except.ok.inj hfound
  · decide

end Zallet.Rpc
