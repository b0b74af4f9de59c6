import Zallet.Spend.PcztSign

/-!
# Requests on a locked wallet

The requests that decrypt key material, besides `pczt_sign`
(`zallet-core/src/components/json_rpc`): `signmessage` (methods/sign_message.rs, lines
30–140), `z_sendfromaccount` (methods/z_send_from_account.rs, lines 66–213),
`z_shieldcoinbase` (methods/z_shieldcoinbase.rs, lines 149–357) and
`collect_standalone_transparent_keys` (utils.rs, lines 103–149).

The operations of a request are the lookups that decrypt; what it computes before the
first of them, and what it does after the last, are arbitrary outcomes.

* `isWalletLocked_eq_false` makes each of them take the branch of a keystore that failed
  for another reason.
* `locked_unreported`: no request that reaches a lookup on a locked keystore is answered
  with `WalletUnlockNeeded`; `pczt_sign` goes on as if the wallet did not hold the seed.
-/

namespace Zallet.Spend

open Zallet.Chain (TransparentAddress)
open Zallet.Common Zallet.Common.Loop Zallet.Effect Zallet.Keystore
open Zallet.Rpc (RpcError LegacyCode PrivacyPolicy TransparentKeyScope NonHardenedChildIndex)
open Zallet.Wallet (AccountUuid)

/-! ## Errors -/

/-- `LegacyCode::Type`. -/
def typeError (message : String) : RpcError := ⟨-3, message⟩

section

variable (contextDisplay : String → Option String → String)

/-- The error of a lookup: `WalletUnlockNeeded` with the given text where the wallet is
    recognised as locked, `Database` otherwise. -/
def lookupError (unlockText : Error → String) (e : Error) : RpcError :=
  if e.isWalletLocked contextDisplay then LegacyCode.WalletUnlockNeeded.withMessage (unlockText e)
  else LegacyCode.Database.withMessage (e.display contextDisplay)

/-- `map_wallet_locked_error` (sign_message.rs, lines 129–140). -/
def mapWalletLockedError : Error → RpcError :=
  lookupError contextDisplay fun _ =>
    "Error: Please enter the wallet passphrase with walletpassphrase first."

/-- The closure of `z_sendfromaccount`, `z_shieldcoinbase` and
    `collect_standalone_transparent_keys`. -/
def mapLookupError : Error → RpcError :=
  lookupError contextDisplay (Error.display contextDisplay)

end

/-! ## Collecting keys -/

/-- Where a transparent address of an account comes from (`TransparentAddressSource`). -/
inductive AddressSource
  | StandalonePubkey
  | StandaloneScript
  | StandaloneAddress
  | Derived
  deriving DecidableEq

/-- The keys of an address imported on its own are stored. -/
def AddressSource.hasStandaloneKey : AddressSource → Bool
  | StandalonePubkey | StandaloneScript => true
  | StandaloneAddress | Derived => false

section

variable {c : Crates} (contextDisplay : String → Option String → String)

/-- `decrypt_seed` with its errors mapped by `f`. -/
def callDecryptSeed (f : Error → RpcError) (seedFp : SeedFingerprint) :
    ExceptT RpcError (Prog (keystoreSig c)) (List UInt8) :=
  liftE f (Prog.call (S := keystoreSig c) (.decryptSeed seedFp))

/-- `decrypt_standalone_transparent_key` with its errors mapped by `f`. -/
def callDecryptKey (f : Error → RpcError) (address : TransparentAddress) :
    ExceptT RpcError (Prog (keystoreSig c)) c.SecretKey :=
  liftE f (Prog.call (S := keystoreSig c) (.decryptStandaloneTransparentKey address))

/-- The loop of `collect_standalone_transparent_keys` (lines 124–147) over the addresses of
    the transparent inputs. -/
def collectKeys (standalone : List TransparentAddress) :
    List (Option TransparentAddress) → (TransparentAddress → List c.SecretKey) →
    ExceptT RpcError (Prog (keystoreSig c)) (TransparentAddress → List c.SecretKey)
  | [], keys => pure keys
  | none :: inputs, keys => collectKeys standalone inputs keys
  | some address :: inputs, keys =>
    if address ∈ standalone then do
      let secretKey ← callDecryptKey (mapLookupError contextDisplay) address
      collectKeys standalone inputs (Function.update keys address (keys address ++ [secretKey]))
    else collectKeys standalone inputs keys

/-- `collect_standalone_transparent_keys` (lines 103–149). `receivers` is the answer of
    `get_transparent_receivers`. -/
def collectStandaloneTransparentKeys
    (receivers : Except String (List (TransparentAddress × AddressSource)))
    (steps : List (List (Option TransparentAddress))) :
    ExceptT RpcError (Prog (keystoreSig c)) (TransparentAddress → List c.SecretKey) := do
  let receivers ← ofOutcome (receivers.mapError LegacyCode.Database.withMessage)
  let standalone := (receivers.filter fun r => r.2.hasStandaloneKey).map Prod.fst
  collectKeys contextDisplay standalone steps.flatten fun _ => []

/-! ## Signing a message -/

/-- `TransparentKeyScope::EPHEMERAL`. -/
def ephemeralScope : TransparentKeyScope := ⟨2⟩

/-- The reads of the wallet database; the account is known by its key derivation. -/
structure WalletReads where
  accountIds : Except String (List AccountUuid)
  addressMetadata : AccountUuid → TransparentAddress →
    Except String (Option TransparentAddressMetadata)
  account : AccountUuid → Except String (Option (Option Zip32Derivation))

/-- The account of an address (lines 63–82). -/
def findAccount (wallet : WalletReads) (address : TransparentAddress) : List AccountUuid →
    Except RpcError (Option Zip32Derivation × TransparentAddressMetadata)
  | [] => .error (LegacyCode.Wallet.withMessage "Unknown address")
  | accountId :: accountIds => do
    match ← (wallet.addressMetadata accountId address).mapError
        LegacyCode.Database.withMessage with
    | none => findAccount wallet address accountIds
    | some metadata =>
      match ← (wallet.account accountId).mapError LegacyCode.Database.withMessage with
      | none => .error (LegacyCode.Database.withMessage "Account not found")
      | some derivation => .ok (derivation, metadata)

/-- The error where a key cannot be had. -/
def keyNotAvailable : RpcError := LegacyCode.Wallet.withMessage "Private key not available"

variable (E : SigningCrates c)

/-- The key of a derived address (lines 86–114). -/
def deriveTransparentKey (derivation : Option Zip32Derivation) (scope : TransparentKeyScope)
    (addressIndex : NonHardenedChildIndex) :
    ExceptT RpcError (Prog (keystoreSig c)) c.SecretKey := do
  if scope = ephemeralScope then throw keyNotAvailable
  else
    match derivation with
    | none => throw keyNotAvailable
    | some derivation => do
      let seed ← callDecryptSeed (mapWalletLockedError contextDisplay) derivation.seedFingerprint
      ofOutcome do
        let usk ← (E.uskFromSeed seed derivation.accountIndex).mapError
          LegacyCode.Wallet.withMessage
        (E.deriveSecretKey usk scope addressIndex).mapError LegacyCode.Wallet.withMessage

/-- `get_transparent_secret_key` (lines 57–126). -/
def getTransparentSecretKey (wallet : WalletReads) (address : TransparentAddress) :
    ExceptT RpcError (Prog (keystoreSig c)) c.SecretKey := do
  let (derivation, metadata) ← ofOutcome do
    let accountIds ← wallet.accountIds.mapError LegacyCode.Database.withMessage
    findAccount wallet address accountIds
  match metadata.scope, metadata.addressIndex with
  | some scope, some addressIndex =>
    deriveTransparentKey contextDisplay E derivation scope addressIndex
  | none, none => callDecryptKey (mapWalletLockedError contextDisplay) address
  | _, _ => throw keyNotAvailable

/-- `signmessage` (lines 30–54). `decoded` is the address that `t_addr` encodes, and
    `signature` the signature of the message under a key. -/
def signMessage (wallet : WalletReads) (decoded : Option TransparentAddress)
    (signature : c.SecretKey → String) : ExceptT RpcError (Prog (keystoreSig c)) String := do
  match decoded with
  | none => throw (LegacyCode.InvalidAddressOrKey.withMessage "Invalid Zcash address")
  | some (.ScriptHash _) => throw (typeError "Address does not refer to key")
  | some (.PublicKeyHash hash) => do
    let secretKey ← getTransparentSecretKey contextDisplay E wallet (.PublicKeyHash hash)
    if c.fromPubkey (c.publicKey secretKey) ≠ .PublicKeyHash hash then
      throw (LegacyCode.InvalidAddressOrKey.withMessage "Sign failed")
    else pure (signature secretKey)

/-! ## Sending -/

/-- `z_sendfromaccount` from the created PCZT on (z_send_from_account.rs, lines 154–213).
    `prepared` is the outcome of the steps before: the account's derivation and the policy.
    `proved` is that of `pczt_prove` on the PCZT, and `sent` that of the steps after
    `pczt_sign`. -/
def zSendFromAccount (prepared : Except RpcError (Zip32Derivation × PrivacyPolicy))
    (proved : Except RpcError (List Char))
    (sent : E.UnifiedSpendingKey → SignResult → Except RpcError String) :
    ExceptT RpcError (Prog (keystoreSig c)) String := do
  let (derivation, privacyPolicy) ← ofOutcome prepared
  let seed ← callDecryptSeed (mapLookupError contextDisplay) derivation.seedFingerprint
  let usk ← ofOutcome ((E.uskFromSeed seed derivation.accountIndex).mapError
    LegacyCode.InvalidAddressOrKey.withMessage)
  let proved ← ofOutcome proved
  let signed ← pcztSign E contextDisplay proved (some (policyName privacyPolicy)) (some true)
  ofOutcome (sent usk signed)

/-- What `z_sendmany` and `z_shieldcoinbase` do from the proposal on: derive the spending key,
    and collect the keys of the transparent inputs. `prepared` is the outcome of the steps
    before: the account's derivation, its transparent receivers, and the addresses of the
    inputs of the proposal. -/
def proposalKeys {UnifiedSpendingKey : Type}
    (uskFromSeed : List UInt8 → AccountId → Except String UnifiedSpendingKey)
    (prepared : Except RpcError (Zip32Derivation ×
      Except String (List (TransparentAddress × AddressSource)) ×
      List (List (Option TransparentAddress)))) :
    ExceptT RpcError (Prog (keystoreSig c))
      (UnifiedSpendingKey × (TransparentAddress → List c.SecretKey)) := do
  let (derivation, receivers, steps) ← ofOutcome prepared
  let seed ← callDecryptSeed (mapLookupError contextDisplay) derivation.seedFingerprint
  let usk ← ofOutcome ((uskFromSeed seed derivation.accountIndex).mapError
    LegacyCode.InvalidAddressOrKey.withMessage)
  let standaloneKeys ← collectStandaloneTransparentKeys contextDisplay receivers steps
  pure (usk, standaloneKeys)

/-- `z_shieldcoinbase` from the proposal on (z_shieldcoinbase.rs, lines 314–357). -/
def zShieldcoinbase (prepared : Except RpcError (Zip32Derivation ×
      Except String (List (TransparentAddress × AddressSource)) ×
      List (List (Option TransparentAddress)))) :
    ExceptT RpcError (Prog (keystoreSig c))
      (E.UnifiedSpendingKey × (TransparentAddress → List c.SecretKey)) :=
  proposalKeys contextDisplay E.uskFromSeed prepared

end

/-! ## On a locked wallet -/

section

variable {c : Crates} {contextDisplay : String → Option String → String} {α β : Type}

/-- The answer is the error code of a wallet that must be unlocked. -/
def UnlockNeeded (r : Except RpcError α) : Prop :=
  ∃ e, r = .error e ∧ e.code = LegacyCode.WalletUnlockNeeded.code

/-- No run of the request that reaches a lookup on a locked keystore is answered with
    `WalletUnlockNeeded`. -/
def Unreported (p : ExceptT RpcError (Prog (keystoreSig c)) α) : Prop :=
  ∀ ks τ r ks', ks.identities = [] → Run (keystoreContract c) p.run ks τ r ks' → τ ≠ [] →
    ¬ UnlockNeeded r

/-- Every run that reaches a lookup on a locked keystore ends with the error that a
    database failure has. -/
def LockedFails (contextDisplay : String → Option String → String)
    (p : ExceptT RpcError (Prog (keystoreSig c)) α) : Prop :=
  ∀ ks τ r ks', ks.identities = [] → Run (keystoreContract c) p.run ks τ r ks' → τ ≠ [] →
    r = .error (LegacyCode.Database.withMessage (lockedError.display contextDisplay))

theorem lookupError_locked (unlockText : Error → String) :
    lookupError contextDisplay unlockText lockedError =
      LegacyCode.Database.withMessage (lockedError.display contextDisplay) := by
  rw [lookupError, isWalletLocked_eq_false, if_neg Bool.false_ne_true]

theorem LockedFails.unreported {p : ExceptT RpcError (Prog (keystoreSig c)) α}
    (h : LockedFails contextDisplay p) : Unreported p := by
  rintro ks τ r ks' hlocked hrun hτ ⟨e, he, hcode⟩
  rw [h ks τ r ks' hlocked hrun hτ, Except.error.injEq] at he
  rw [← he] at hcode
  simp [LegacyCode.withMessage, LegacyCode.code] at hcode

/-- A program that performs nothing reaches no lookup. -/
theorem LockedFails.ofOutcome (x : Except RpcError α) :
    LockedFails contextDisplay (ofOutcome x : ExceptT RpcError (Prog (keystoreSig c)) α) :=
  fun _ _ _ _ _ hrun hτ => absurd (run_ofOutcome.mp hrun).1 hτ

/-- The lookups leave the keystore as it is. -/
theorem run_keystore {p : Prog (keystoreSig c) α} {ks ks' : KeyStore}
    {τ : List (Event (keystoreSig c))} {a : α} (h : Run (keystoreContract c) p ks τ a ks') :
    ks' = ks := by
  induction p generalizing ks τ with
  | pure b => exact (run_pure.mp h).2.2
  | op o k ih =>
    obtain ⟨ans, ks₁, τ', -, ⟨-, rfl⟩, hrun⟩ := run_op.mp h
    exact ih ans hrun

/-- A program that goes on after its first part has reached no lookup in it. -/
theorem LockedFails.bind {p : ExceptT RpcError (Prog (keystoreSig c)) α}
    {f : α → ExceptT RpcError (Prog (keystoreSig c)) β} (hp : LockedFails contextDisplay p)
    (hf : ∀ a, LockedFails contextDisplay (f a)) : LockedFails contextDisplay (p >>= f) := by
  intro ks τ r ks' hlocked hrun hτ
  obtain ⟨e, rfl, hrun'⟩ | ⟨τ₁, a, ks₁, τ₂, hrun₁, hrun₂, rfl⟩ := run_bind_cases hrun
  · have he := hp ks τ _ ks' hlocked hrun' hτ
    rw [Except.error.injEq] at he
    rw [he]
  · obtain rfl := run_keystore hrun₁
    by_cases hτ₁ : τ₁ = []
    · subst hτ₁
      exact hf a _ _ _ _ hlocked hrun₂ hτ
    · cases hp _ _ _ _ hlocked hrun₁ hτ₁

/-- The seed is not decrypted on a locked keystore, and nothing follows. -/
theorem LockedFails.callDecryptSeed_bind (unlockText : Error → String) (seedFp : SeedFingerprint)
    (f : List UInt8 → ExceptT RpcError (Prog (keystoreSig c)) β) :
    LockedFails contextDisplay
      (callDecryptSeed (lookupError contextDisplay unlockText) seedFp >>= f) := by
  intro ks τ r ks' hlocked hrun _
  obtain ⟨ans, ks₁, τ', -, ⟨hans, -⟩, hrun⟩ := run_op.mp hrun
  have hlockedAns : ans = .error lockedError := hans.trans (decryptSeed_locked hlocked seedFp)
  subst hlockedAns
  obtain ⟨-, rfl, -⟩ := run_pure.mp hrun
  rw [lookupError_locked]

/-- Nor is a standalone key. -/
theorem LockedFails.callDecryptKey (unlockText : Error → String) (address : TransparentAddress) :
    LockedFails contextDisplay
      (callDecryptKey (lookupError contextDisplay unlockText) address :
        ExceptT RpcError (Prog (keystoreSig c)) c.SecretKey) := by
  intro ks τ r ks' hlocked hrun _
  obtain ⟨ans, ks₁, τ', -, ⟨hans, -⟩, hrun⟩ := run_op.mp hrun
  have hlockedAns : ans = .error lockedError :=
    hans.trans (decryptTransparentKey_locked hlocked address)
  subst hlockedAns
  obtain ⟨-, rfl, -⟩ := run_pure.mp hrun
  show Except.error (lookupError contextDisplay unlockText lockedError) = _
  rw [lookupError_locked]

theorem LockedFails.collectKeys (standalone : List TransparentAddress)
    (inputs : List (Option TransparentAddress)) (keys : TransparentAddress → List c.SecretKey) :
    LockedFails contextDisplay (collectKeys contextDisplay standalone inputs keys) := by
  induction inputs generalizing keys with
  | nil => exact ofOutcome (.ok keys)
  | cons input inputs ih =>
    cases input with
    | none => exact ih keys
    | some address =>
      by_cases hmem : address ∈ standalone
      · simp only [Spend.collectKeys, if_pos hmem]
        exact (LockedFails.callDecryptKey _ address).bind fun secretKey => ih _
      · simp only [Spend.collectKeys, if_neg hmem]
        exact ih keys

theorem LockedFails.collectStandaloneTransparentKeys
    (receivers : Except String (List (TransparentAddress × AddressSource)))
    (steps : List (List (Option TransparentAddress))) :
    LockedFails contextDisplay
      (collectStandaloneTransparentKeys contextDisplay receivers steps :
        ExceptT RpcError (Prog (keystoreSig c)) (TransparentAddress → List c.SecretKey)) :=
  (ofOutcome _).bind fun _ => collectKeys _ _ _

variable (E : SigningCrates c)

theorem LockedFails.deriveTransparentKey (derivation : Option Zip32Derivation)
    (scope : TransparentKeyScope) (addressIndex : NonHardenedChildIndex) :
    LockedFails contextDisplay
      (deriveTransparentKey contextDisplay E derivation scope addressIndex) := by
  by_cases hscope : scope = ephemeralScope
  · simp only [Spend.deriveTransparentKey, if_pos hscope]
    exact ofOutcome (.error keyNotAvailable)
  · simp only [Spend.deriveTransparentKey, if_neg hscope]
    cases derivation with
    | none => exact ofOutcome (.error keyNotAvailable)
    | some derivation => exact callDecryptSeed_bind _ _ _

theorem LockedFails.getTransparentSecretKey (wallet : WalletReads)
    (address : TransparentAddress) :
    LockedFails contextDisplay (getTransparentSecretKey contextDisplay E wallet address) := by
  refine (ofOutcome _).bind fun found => ?_
  obtain ⟨derivation, scope, addressIndex⟩ := found
  cases scope with
  | none =>
    cases addressIndex with
    | none => exact LockedFails.callDecryptKey _ address
    | some addressIndex => exact ofOutcome (.error keyNotAvailable)
  | some scope =>
    cases addressIndex with
    | none => exact ofOutcome (.error keyNotAvailable)
    | some addressIndex => exact deriveTransparentKey E derivation scope addressIndex

theorem LockedFails.signMessage (wallet : WalletReads) (decoded : Option TransparentAddress)
    (signature : c.SecretKey → String) :
    LockedFails contextDisplay (signMessage contextDisplay E wallet decoded signature) := by
  cases decoded with
  | none => exact ofOutcome (.error _)
  | some address =>
    cases address with
    | ScriptHash hash => exact ofOutcome (.error _)
    | PublicKeyHash hash =>
      refine (getTransparentSecretKey E wallet _).bind fun secretKey => ?_
      split
      · exact ofOutcome (.error _)
      · exact ofOutcome (.ok _)

theorem LockedFails.zSendFromAccount
    (prepared : Except RpcError (Zip32Derivation × PrivacyPolicy))
    (proved : Except RpcError (List Char))
    (sent : E.UnifiedSpendingKey → SignResult → Except RpcError String) :
    LockedFails contextDisplay (zSendFromAccount contextDisplay E prepared proved sent) :=
  (ofOutcome prepared).bind fun _ => callDecryptSeed_bind _ _ _

theorem LockedFails.zShieldcoinbase (prepared : Except RpcError (Zip32Derivation ×
      Except String (List (TransparentAddress × AddressSource)) ×
      List (List (Option TransparentAddress)))) :
    LockedFails contextDisplay (zShieldcoinbase contextDisplay E prepared) :=
  (ofOutcome prepared).bind fun _ => callDecryptSeed_bind _ _ _

/-! ### `pczt_sign` -/

/-- The report in which every input that carries no signature is unsigned. -/
def allUnsigned (pczt : Pczt) (text : String) : SignResult where
  pczt := text
  transparentSigned := 0
  saplingSigned := 0
  orchardSigned := 0
  ironwoodSigned := 0
  unsignedTransparent := List.range pczt.transparentInputs.length
  unsignedSapling := List.range pczt.saplingSpends
  unsignedOrchard := pczt.candidates .Orchard pczt.orchardActions
  unsignedIronwood := pczt.candidates .Ironwood pczt.ironwoodActions

/-- Without an attempt no index is signed. -/
theorem signEach_none (candidates : List ℕ) :
    signEach (fun _ => none) candidates (0, []) = (0, candidates) := by
  simp [signEach_eq, succeeds]

variable {E}

/-- Without a key nothing is signed. -/
theorem signInputs_none (pczt : Pczt) (text : String) :
    (signInputs E pczt none).result text = allUnsigned pczt text := by
  have hnone : attemptTransparent E pczt none = fun _ => none := by
    funext i
    cases hi : (transparentDerivationInfo pczt)[i]? <;>
      simp [attemptTransparent, transparentAttempt, hi]
  simp only [signInputs, transparentLoop_eq, hnone, Option.map_none, signEach_none]
  rfl

/-- Nor does the error of signing ask to unlock the wallet. -/
theorem not_unlockNeeded_signWith (pczt : Pczt) (usk : Option E.UnifiedSpendingKey)
    (strict : Option Bool) : ¬ UnlockNeeded (signWith E pczt usk strict) := by
  rintro ⟨e, he, hcode⟩
  unfold signWith at he
  cases hsigner : E.signerNew pczt with
  | error text =>
    rw [hsigner] at he
    cases he
    simp [verifyError, LegacyCode.code] at hcode
  | ok u =>
    simp only [hsigner] at he
    split at he
    · cases he
      simp [Signed.strictUnsigned, verifyError, LegacyCode.code] at hcode
    · cases hfinish : E.finish pczt usk with
      | error text =>
        rw [hfinish] at he
        cases he
        simp [LegacyCode.withMessage, LegacyCode.code] at hcode
      | ok text =>
        rw [hfinish] at he
        cases he

/-- The answer of a locked keystore is read as that of one without the seed. -/
theorem uskOfSeed_locked (hints : SigningHints) :
    uskOfSeed E contextDisplay hints (.error lockedError) = .ok none := by
  rw [uskOfSeed, isWalletLocked_eq_false, if_neg Bool.false_ne_true]

theorem run_locateUsk_locked {ks ks' : KeyStore} {τ : List (Event (keystoreSig c))}
    {r : Except RpcError (Option E.UnifiedSpendingKey)} (hlocked : ks.identities = [])
    (hints : SigningHints) :
    Run (keystoreContract c) (locateUsk E contextDisplay (some hints)).run ks τ r ks' ↔
      τ = [⟨.decryptSeed hints.seedFp, .error lockedError⟩] ∧ r = .ok none ∧ ks' = ks := by
  constructor
  · intro hrun
    obtain ⟨ans, ks₁, τ', rfl, ⟨hans, rfl⟩, hrest⟩ := run_op.mp hrun
    have hlockedAns : ans = .error lockedError :=
      hans.trans (decryptSeed_locked hlocked hints.seedFp)
    subst hlockedAns
    obtain ⟨rfl, rfl, rfl⟩ := run_pure.mp hrest
    exact ⟨rfl, uskOfSeed_locked hints, rfl⟩
  · rintro ⟨rfl, rfl, rfl⟩
    refine .step ⟨(decryptSeed_locked hlocked hints.seedFp).symm, rfl⟩ ?_
    exact run_pure.mpr ⟨rfl, (uskOfSeed_locked hints).symm, rfl⟩

/-- The calls that reach the lookup on a locked keystore: those on a PCZT with hints,
    which go on without a key. -/
theorem run_pcztSign_locked_iff {pcztBase64 : List Char} {privacyPolicy : Option String}
    {strict : Option Bool} {ks ks' : KeyStore} {τ : List (Event (keystoreSig c))}
    {r : Except RpcError SignResult} (hlocked : ks.identities = []) :
    Run (keystoreContract c) (pcztSign E contextDisplay pcztBase64 privacyPolicy strict).run ks τ r
        ks' ∧ τ ≠ [] ↔
      ∃ pczt hints, readPczt E pcztBase64 privacyPolicy = .ok (pczt, some hints) ∧
        τ = [⟨.decryptSeed hints.seedFp, .error lockedError⟩] ∧
        r = signWith E pczt none strict ∧ ks' = ks := by
  constructor
  · rintro ⟨hrun, hτ⟩
    obtain ⟨e, -, hfirst⟩ | ⟨τ₁, ⟨pczt, hints⟩, ks₁, τ₂, hfirst, hrest, rfl⟩ := run_bind_cases hrun
    · exact absurd (run_ofOutcome.mp hfirst).1 hτ
    obtain ⟨rfl, hread, rfl⟩ := run_ofOutcome.mp hfirst
    cases hints with
    | none =>
      exact absurd (run_ofOutcome.mp hrest).1 hτ
    | some hints =>
      obtain ⟨e, -, hlocate⟩ | ⟨τ₁, usk, ks₁, τ₂, hlocate, hsign, rfl⟩ := run_bind_cases hrest
      · cases ((run_locateUsk_locked hlocked hints).mp hlocate).2.1
      obtain ⟨rfl, husk, rfl⟩ := (run_locateUsk_locked hlocked hints).mp hlocate
      cases husk
      obtain ⟨rfl, rfl, rfl⟩ := run_ofOutcome.mp hsign
      exact ⟨pczt, hints, hread.symm, rfl, rfl, rfl⟩
  · rintro ⟨pczt, hints, hread, rfl, rfl, rfl⟩
    refine ⟨?_, List.cons_ne_nil _ _⟩
    have hlocate : Run (keystoreContract c) (locateUsk E contextDisplay (some hints)).run ks'
        [⟨.decryptSeed hints.seedFp, .error lockedError⟩] (.ok none) ks' :=
      (run_locateUsk_locked hlocked hints).mpr ⟨rfl, rfl, rfl⟩
    have hrest := run_bind_of_ok hlocate (f := fun usk => ofOutcome (signWith E pczt usk strict))
      (run_ofOutcome.mpr ⟨rfl, rfl, rfl⟩)
    exact run_bind_of_ok (run_ofOutcome.mpr ⟨rfl, hread.symm, rfl⟩) hrest

theorem unreported_pcztSign (pcztBase64 : List Char) (privacyPolicy : Option String)
    (strict : Option Bool) :
    Unreported (pcztSign E contextDisplay pcztBase64 privacyPolicy strict) := by
  intro ks τ r ks' hlocked hrun hτ
  obtain ⟨pczt, hints, -, -, rfl, -⟩ := (run_pcztSign_locked_iff hlocked).mp ⟨hrun, hτ⟩
  exact not_unlockNeeded_signWith pczt none strict

/-- A call that reaches the lookup on a locked keystore and returns a report lists every
    input that it was to sign as unsigned. -/
theorem report_locked {pcztBase64 : List Char} {privacyPolicy : Option String}
    {strict : Option Bool} {ks ks' : KeyStore} {τ : List (Event (keystoreSig c))}
    {result : SignResult} (hlocked : ks.identities = [])
    (hrun : Run (keystoreContract c)
      (pcztSign E contextDisplay pcztBase64 privacyPolicy strict).run ks τ (.ok result) ks')
    (hτ : τ ≠ []) :
    ∃ pczt hints text, readPczt E pcztBase64 privacyPolicy = .ok (pczt, some hints) ∧
      result = allUnsigned pczt text := by
  obtain ⟨pczt, hints, hread, -, hsign, -⟩ := (run_pcztSign_locked_iff hlocked).mp ⟨hrun, hτ⟩
  obtain ⟨-, ⟨text, -, rfl⟩, -⟩ := signWith_eq_ok.mp hsign.symm
  exact ⟨pczt, hints, text, hread, signInputs_none pczt text⟩

end

/-- No run of these requests that reaches a lookup on a locked keystore is answered with
    `WalletUnlockNeeded`. -/
theorem locked_unreported {c : Crates} (E : SigningCrates c)
    (contextDisplay : String → Option String → String) :
    (∀ pcztBase64 privacyPolicy strict,
      Unreported (pcztSign E contextDisplay pcztBase64 privacyPolicy strict)) ∧
    (∀ wallet decoded signature,
      Unreported (signMessage contextDisplay E wallet decoded signature)) ∧
    (∀ prepared proved sent,
      Unreported (zSendFromAccount contextDisplay E prepared proved sent)) ∧
    (∀ prepared, Unreported (zShieldcoinbase contextDisplay E prepared)) ∧
    (∀ receivers steps, Unreported (collectStandaloneTransparentKeys contextDisplay receivers
      steps : ExceptT RpcError (Prog (keystoreSig c)) (TransparentAddress → List c.SecretKey))) :=
  ⟨unreported_pcztSign,
    fun wallet decoded signature => (LockedFails.signMessage E wallet decoded signature).unreported,
    fun prepared proved sent => (LockedFails.zSendFromAccount E prepared proved sent).unreported,
    fun prepared => (LockedFails.zShieldcoinbase E prepared).unreported,
    fun receivers steps =>
      (LockedFails.collectStandaloneTransparentKeys receivers steps).unreported⟩

namespace TwoInputs

/-- The PCZT of `TwoInputs` on a locked wallet: the call reaches the lookup of the seed
    that the hints name, and returns a report in which nothing is signed. -/
theorem locked_report :
    Run (keystoreContract OneOfEach.crates)
        (pcztSign crates contextDisplay ['A', 'Q', '=', '='] (some "NoPrivacy") none).run
        ⟨[], .ok OneOfEach.tables⟩
        [⟨.decryptSeed derivation.seedFingerprint, .error lockedError⟩]
        (.ok ⟨"AQ==", 0, 0, 0, 0, [0, 1], [0], [0], []⟩) ⟨[], .ok OneOfEach.tables⟩ ∧
      ¬ UnlockNeeded
        (.ok (⟨"AQ==", 0, 0, 0, 0, [0, 1], [0], [0], []⟩ : SignResult)) := by
  have hsign : signWith crates built none none =
      .ok ⟨"AQ==", 0, 0, 0, 0, [0, 1], [0], [0], []⟩ := by
    refine signWith_eq_ok.mpr ⟨rfl, ⟨"AQ==", rfl, ?_⟩, fun h => by cases h⟩
    exact (signInputs_none built "AQ==").symm
  constructor
  · exact ((run_pcztSign_locked_iff rfl).mpr
      ⟨built, _, readPczt_built, rfl, hsign.symm, rfl⟩).1
  · rintro ⟨e, he, -⟩
    cases he

end TwoInputs

end Zallet.Spend
