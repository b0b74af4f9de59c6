import Zallet.Effect.Marks
import Zallet.Spend.LockedCalls

/-!
# The spending key of an account

The keys that `z_sendmany` (`zallet-core/src/components/json_rpc/methods`, z_send_many.rs
lines 162–258), `z_shieldcoinbase` (z_shieldcoinbase.rs lines 303–357 and 540–574),
`z_sendfromaccount` and `pczt_sign` derive for an account, by its seed and its account
index. The accounts of a migrated wallet may have a legacy address index besides.

The calls are marked with the keys they derive and with those they sign with. The
keystore may be locked, unlocked or changed between two lookups, but a seed fingerprint
names one seed.

* `runs_of_calls`: without their marks the marked calls are the calls.
* `OwnKey`: in every run of a call for an account the derived key is the account's, or the
  call fails before anything is signed.
* `ownKey_iff`: the accounts without a legacy address index, and those below whose seed
  there is no key at the account index.
* `zSendMany_iff`: `z_sendmany` alone fails where another account of the wallet has the
  derived key.
-/

namespace Zallet.Spend.SpendingKey

open Zallet.Chain (TransparentAddress TxId)
open Zallet.Common.Loop Zallet.Effect Zallet.Keystore
open Zallet.Rpc (RpcError LegacyCode PrivacyPolicy TransparentKeyScope NonHardenedChildIndex)

/-! ## Keys and accounts -/

/-- The path of an account below a seed. -/
structure AccountDerivation extends Zip32Derivation where
  legacyAddressIndex : Option ℕ
  deriving DecidableEq

/-- What the calls use of `zcash_keys`. A spending key is derived at an account index, a
    viewing key of the wallet also at a legacy address index. -/
structure KeyCrates (c : Crates) where
  UnifiedSpendingKey : Type
  UnifiedFullViewingKey : Type
  decidableEq : DecidableEq UnifiedFullViewingKey
  uskFromSeed : List UInt8 → AccountId → Except String UnifiedSpendingKey
  deriveSecretKey : UnifiedSpendingKey → TransparentKeyScope → NonHardenedChildIndex →
    Except String c.SecretKey
  toUnifiedFullViewingKey : UnifiedSpendingKey → UnifiedFullViewingKey
  viewingKeyAt : List UInt8 → AccountId → Option ℕ → Option UnifiedFullViewingKey
  viewingKeyAt_uskFromSeed : ∀ {seed account usk}, uskFromSeed seed account = .ok usk →
    viewingKeyAt seed account none = some (toUnifiedFullViewingKey usk)
  viewingKeyAt_injective : ∀ {seed account account' i j key},
    viewingKeyAt seed account i = some key → viewingKeyAt seed account' j = some key →
    account = account' ∧ i = j

variable {c : Crates}

instance (K : KeyCrates c) : DecidableEq K.UnifiedFullViewingKey := K.decidableEq

/-- What `pczt_sign` uses of `pczt` and `base64ct`. -/
structure PcztCrates (K : KeyCrates c) where
  decodeBase64 : List Char → Except String (List UInt8)
  parse : List UInt8 → Except String Pczt
  signerNew : Pczt → Except String Unit
  signTransparent : Pczt → ℕ → c.SecretKey → Except String Unit
  signSapling : Pczt → ℕ → K.UnifiedSpendingKey → Except String Unit
  signOrchard : Pczt → ℕ → K.UnifiedSpendingKey → Except String Unit
  signIronwood : Pczt → ℕ → K.UnifiedSpendingKey → Except String Unit
  finish : Pczt → Option K.UnifiedSpendingKey → Except String String

@[reducible] def KeyCrates.signing (K : KeyCrates c) (P : PcztCrates K) : SigningCrates c where
  UnifiedSpendingKey := K.UnifiedSpendingKey
  decodeBase64 := P.decodeBase64
  parse := P.parse
  uskFromSeed := K.uskFromSeed
  deriveSecretKey := K.deriveSecretKey
  signerNew := P.signerNew
  signTransparent := P.signTransparent
  signSapling := P.signSapling
  signOrchard := P.signOrchard
  signIronwood := P.signIronwood
  finish := P.finish

/-- An account with a key derivation, and the viewing key that the wallet stores for it. -/
structure Account (K : KeyCrates c) where
  derivation : AccountDerivation
  ufvk : K.UnifiedFullViewingKey

/-! ## Marks -/

/-- What a call does with a key, known by its viewing key. -/
inductive KeyUse (Key : Type)
  | Derived (key : Key)
  | Signed (key : Key)
  deriving DecidableEq

def KeyUse.key {Key : Type} : KeyUse Key → Key
  | Derived key | Signed key => key

/-- A call with its marks. -/
abbrev Marked (K : KeyCrates c) (α : Type) : Type :=
  ExceptT RpcError (Prog ((keystoreSig c).marked (KeyUse K.UnifiedFullViewingKey))) α

/-! ## The calls -/

section

variable (contextDisplay : String → Option String → String) (K : KeyCrates c) (P : PcztCrates K)

/-- `z_sendmany` from the proposal on (z_send_many.rs, lines 162–191). -/
def zSendMany (prepared : Except RpcError (Zip32Derivation ×
      Except String (List (TransparentAddress × AddressSource)) ×
      List (List (Option TransparentAddress)))) :
    ExceptT RpcError (Prog (keystoreSig c))
      (K.UnifiedSpendingKey × (TransparentAddress → List c.SecretKey)) :=
  proposalKeys contextDisplay K.uskFromSeed prepared

/-- An outcome of `create_proposed_transactions`, and whether it signed anything. -/
structure Creation where
  signed : Bool
  txids : Except String (List TxId)

/-- What the futures of `z_sendmany` and `z_shieldcoinbase` call:
    `create_proposed_transactions` and `verify_and_broadcast_transactions`. -/
structure Backend where
  create : K.UnifiedSpendingKey → (TransparentAddress → List c.SecretKey) → Creation
  verifyAndBroadcast : K.UnifiedFullViewingKey → List TxId → Except RpcError String

variable {K}

/-- `run` (z_send_many.rs, lines 225–258; z_shieldcoinbase.rs, lines 540–574), with the text
    of its error. -/
def run (B : Backend K) (failure : String)
    (keys : K.UnifiedSpendingKey × (TransparentAddress → List c.SecretKey)) :
    Except RpcError String := do
  let txids ← (B.create keys.1 keys.2).txids.mapError fun e =>
    LegacyCode.Wallet.withMessage (failure ++ e)
  B.verifyAndBroadcast (K.toUnifiedFullViewingKey keys.1) txids

def sendFailure : String := "Failed to propose transaction: "

def shieldFailure : String := "Failed to build shielding transaction: "

/-- `run` with its marks. -/
def runMarked (B : Backend K) (failure : String)
    (keys : K.UnifiedSpendingKey × (TransparentAddress → List c.SecretKey)) : Marked K String := do
  mark (.Derived (K.toUnifiedFullViewingKey keys.1))
  if (B.create keys.1 keys.2).signed then mark (.Signed (K.toUnifiedFullViewingKey keys.1))
  ofOutcome (run B failure keys)

def zSendManyMarked (B : Backend K) (prepared : Except RpcError (Zip32Derivation ×
      Except String (List (TransparentAddress × AddressSource)) ×
      List (List (Option TransparentAddress)))) : Marked K String :=
  embedE (zSendMany contextDisplay K prepared) >>= runMarked B sendFailure

def zShieldcoinbaseMarked (B : Backend K) (prepared : Except RpcError (Zip32Derivation ×
      Except String (List (TransparentAddress × AddressSource)) ×
      List (List (Option TransparentAddress)))) : Marked K String :=
  embedE (zShieldcoinbase contextDisplay (K.signing P) prepared) >>= runMarked B shieldFailure

/-- The signer signs something with the key. -/
def signsSome (pczt : Pczt) (usk : K.UnifiedSpendingKey) : Bool :=
  match P.signerNew pczt with
  | .error _ => false
  | .ok () =>
    let signed := signInputs (K.signing P) pczt (some usk)
    decide (0 < signed.transparent.1 + signed.sapling.1 + signed.orchard.1 + signed.ironwood.1)

/-- `pczt_sign` with its marks. -/
def pcztSignMarked (pcztBase64 : List Char) (privacyPolicy : Option String)
    (strict : Option Bool) : Marked K SignResult := do
  let (pczt, hints) ← ofOutcome (readPczt (K.signing P) pcztBase64 privacyPolicy)
  let usk ← embedE (locateUsk (K.signing P) contextDisplay hints)
  match usk with
  | none => pure ()
  | some usk => do
    mark (.Derived (K.toUnifiedFullViewingKey usk))
    if signsSome P pczt usk then mark (.Signed (K.toUnifiedFullViewingKey usk))
  ofOutcome (signWith (K.signing P) pczt usk strict)

/-- `z_sendfromaccount` with its marks. -/
def zSendFromAccountMarked (prepared : Except RpcError (Zip32Derivation × PrivacyPolicy))
    (proved : Except RpcError (List Char))
    (sent : K.UnifiedSpendingKey → SignResult → Except RpcError String) : Marked K String := do
  let (derivation, privacyPolicy) ← ofOutcome prepared
  let seed ← embedE (callDecryptSeed (mapLookupError contextDisplay) derivation.seedFingerprint)
  let usk ← ofOutcome ((K.uskFromSeed seed derivation.accountIndex).mapError
    LegacyCode.InvalidAddressOrKey.withMessage)
  mark (.Derived (K.toUnifiedFullViewingKey usk))
  let proved ← ofOutcome proved
  let signed ← pcztSignMarked contextDisplay P proved (some (policyName privacyPolicy)) (some true)
  ofOutcome (sent usk signed)

/-! ### Without the marks -/

theorem erase_runMarked (B : Backend K) (failure : String)
    (keys : K.UnifiedSpendingKey × (TransparentAddress → List c.SecretKey)) :
    eraseE (runMarked B failure keys) = ofOutcome (run B failure keys) := by
  unfold runMarked
  by_cases hsigned : (B.create keys.1 keys.2).signed
  · simp [hsigned]
  · simp [hsigned]

theorem erase_pcztSignMarked (pcztBase64 : List Char) (privacyPolicy : Option String)
    (strict : Option Bool) :
    eraseE (pcztSignMarked contextDisplay P pcztBase64 privacyPolicy strict) =
      pcztSign (K.signing P) contextDisplay pcztBase64 privacyPolicy strict := by
  unfold pcztSignMarked pcztSign
  simp only [eraseE_bind, eraseE_ofOutcome, eraseE_embedE]
  refine congrArg (_ >>= ·) (funext fun read => ?_)
  refine congrArg (_ >>= ·) (funext fun usk => ?_)
  cases usk with
  | none => simp
  | some usk =>
    by_cases hsigned : signsSome P read.1 usk
    · simp [hsigned]
    · simp [hsigned]

theorem erase_zSendFromAccountMarked
    (prepared : Except RpcError (Zip32Derivation × PrivacyPolicy))
    (proved : Except RpcError (List Char))
    (sent : K.UnifiedSpendingKey → SignResult → Except RpcError String) :
    eraseE (zSendFromAccountMarked contextDisplay P prepared proved sent) =
      zSendFromAccount contextDisplay (K.signing P) prepared proved sent := by
  unfold zSendFromAccountMarked zSendFromAccount
  simp only [eraseE_bind, eraseE_ofOutcome, eraseE_embedE, eraseE_mark, pureE_bind,
    erase_pcztSignMarked]

/-- A marked call has the runs of a call. -/
def SameRuns {α : Type} (p : Marked K α) (q : ExceptT RpcError (Prog (keystoreSig c)) α) : Prop :=
  ∀ (W : Type) (C : Contract (keystoreSig c) W) w l r w',
    (∃ τ, Run C q.run w τ r w') ↔ ∃ τ l', Run C.marked p.run (w, l) τ r (w', l')

theorem sameRuns_of_erase {α : Type} {p : Marked K α}
    {q : ExceptT RpcError (Prog (keystoreSig c)) α} (h : eraseE p = q) : SameRuns p q := by
  subst h
  exact fun _ _ _ _ _ _ => run_erase_iff

/-- The marked calls have the runs of the calls, with the future of those that return
    one. -/
theorem runs_of_calls :
    (∀ (B : Backend K) prepared, SameRuns (zSendManyMarked contextDisplay B prepared)
      (zSendMany contextDisplay K prepared >>= fun keys => ofOutcome (run B sendFailure keys))) ∧
    (∀ (B : Backend K) prepared, SameRuns (zShieldcoinbaseMarked contextDisplay P B prepared)
      (zShieldcoinbase contextDisplay (K.signing P) prepared >>= fun keys =>
        ofOutcome (run B shieldFailure keys))) ∧
    (∀ prepared proved sent, SameRuns (zSendFromAccountMarked contextDisplay P prepared proved sent)
      (zSendFromAccount contextDisplay (K.signing P) prepared proved sent)) ∧
    ∀ text policy strict, SameRuns (pcztSignMarked contextDisplay P text policy strict)
      (pcztSign (K.signing P) contextDisplay text policy strict) := by
  refine ⟨fun B prepared => sameRuns_of_erase ?_, fun B prepared => sameRuns_of_erase ?_,
    fun prepared proved sent => sameRuns_of_erase
      (erase_zSendFromAccountMarked contextDisplay P prepared proved sent),
    fun text policy strict => sameRuns_of_erase
      (erase_pcztSignMarked contextDisplay P text policy strict)⟩
  · simp only [zSendManyMarked, eraseE_bind, eraseE_embedE, erase_runMarked]
  · simp only [zShieldcoinbaseMarked, eraseE_bind, eraseE_embedE, erase_runMarked]

end

/-! ## Keeping the key of an account -/

/-- A keystore gives no other seed for the fingerprint. -/
def NamesSeed (c : Crates) (seedFp : SeedFingerprint) (seed : List UInt8) (ks : KeyStore) : Prop :=
  ∀ answer, ks.decryptSeed c seedFp = .ok answer → answer = seed

/-- The lookups of a call, between which other tasks may change the keystore. -/
def sharedKeystore (c : Crates) (seedFp : SeedFingerprint) (seed : List UInt8) :
    Contract (keystoreSig c) KeyStore :=
  (keystoreContract c).under fun _ ks => NamesSeed c seedFp seed ks

variable {K : KeyCrates c}

/-- The keys are all the given one, or the call fails and nothing is signed. -/
def Kept {Key α : Type} (key : Key) (r : Except RpcError α) (uses : List (KeyUse Key)) : Prop :=
  (∀ use ∈ uses, use.key = key) ∨ (∃ e, r = .error e) ∧ ∀ k, KeyUse.Signed k ∉ uses

/-- In every run the call keeps to the key of the account. -/
def KeepsKey {α : Type} (account : Account K) (seed : List UInt8) (p : Marked K α) : Prop :=
  ∀ ks τ r ks' uses,
    Run (sharedKeystore c account.derivation.seedFingerprint seed).marked p.run (ks, []) τ r
      (ks', uses) → Kept account.ufvk r uses

/-- `create_proposed_transactions` signs nothing with a key that no account of the wallet
    has (`KeyNotRecognized`). -/
def Backend.Recognizes (B : Backend K) (wallet : List (Account K)) : Prop :=
  ∀ usk keys, (∀ a ∈ wallet, a.ufvk ≠ K.toUnifiedFullViewingKey usk) →
    (B.create usk keys).signed = false ∧ ∃ e, (B.create usk keys).txids = .error e

/-- What a call has prepared names the derivation of the account. -/
def Account.Prepares {β : Type} (account : Account K)
    (prepared : Except RpcError (Zip32Derivation × β)) : Prop :=
  ∀ x, prepared = .ok x → x.1 = account.derivation.toZip32Derivation

/-- The PCZT has the proprietary fields of one that `build_pczt` made for the account. -/
def Account.CarriesHints (account : Account K) (P : PcztCrates K) (text : List Char) : Prop :=
  ∀ pczt, decodePcztBase64 (K.signing P) text = .ok pczt →
    ∃ created requiredPolicy metadata built, created.Unhinted ∧
      recordSigningHints created requiredPolicy (some account.derivation.toZip32Derivation)
        metadata = .ok built ∧
      pczt.proprietary = built.proprietary

/-- Every call for the account keeps to its key. -/
structure OwnKey (wallet : List (Account K)) (account : Account K) (seed : List UInt8) : Prop where
  zSendMany : ∀ contextDisplay (B : Backend K) prepared, B.Recognizes wallet →
    account.Prepares prepared → KeepsKey account seed (zSendManyMarked contextDisplay B prepared)
  zShieldcoinbase : ∀ contextDisplay P (B : Backend K) prepared, B.Recognizes wallet →
    account.Prepares prepared →
    KeepsKey account seed (zShieldcoinbaseMarked contextDisplay P B prepared)
  zSendFromAccount : ∀ contextDisplay P prepared proved sent, account.Prepares prepared →
    (∀ text, proved = .ok text → account.CarriesHints P text) →
    KeepsKey account seed (zSendFromAccountMarked contextDisplay P prepared proved sent)
  pcztSign : ∀ contextDisplay P text policy strict, account.CarriesHints P text →
    KeepsKey account seed (pcztSignMarked contextDisplay P text policy strict)

/-- The key derived for the account, where there is one, is its own. -/
def DerivesOwn (account : Account K) (seed : List UInt8) : Prop :=
  ∀ usk, K.uskFromSeed seed account.derivation.accountIndex = .ok usk →
    K.toUnifiedFullViewingKey usk = account.ufvk

/-- The wallet stores the viewing key at the full path of the account. -/
def Account.Stored (account : Account K) (seed : List UInt8) : Prop :=
  K.viewingKeyAt seed account.derivation.accountIndex account.derivation.legacyAddressIndex =
    some account.ufvk

variable {wallet : List (Account K)} {account : Account K} {seed : List UInt8}

theorem derivesOwn_iff (h : account.Stored seed) :
    DerivesOwn account seed ↔ account.derivation.legacyAddressIndex = none ∨
      ∀ usk, K.uskFromSeed seed account.derivation.accountIndex ≠ .ok usk := by
  constructor
  · intro hown
    by_cases hkey : ∃ usk, K.uskFromSeed seed account.derivation.accountIndex = .ok usk
    · obtain ⟨usk, husk⟩ := hkey
      have hat := K.viewingKeyAt_uskFromSeed husk
      rw [hown usk husk] at hat
      exact Or.inl (K.viewingKeyAt_injective h hat).2
    · exact Or.inr (not_exists.mp hkey)
  · rintro (hlegacy | hnone) usk husk
    · have hat := K.viewingKeyAt_uskFromSeed husk
      rw [Account.Stored, hlegacy, hat, Option.some.injEq] at h
      exact h
    · exact absurd husk (hnone usk)

/-! ### Where the derived key is the account's -/

section

variable {α β : Type} (contextDisplay : String → Option String → String) (P : PcztCrates K)

/-- Every mark the call makes is of the account's key. -/
def Sound (account : Account K) (seed : List UInt8) (p : Marked K α) : Prop :=
  Sustains (sharedKeystore c account.derivation.seedFingerprint seed).marked Eq (fun _ _ => True)
    (fun w => ∀ use ∈ w.2, use.key = account.ufvk) (fun _ w => ∀ use ∈ w.2, use.key = account.ufvk)
    p

theorem Sound.keepsKey {p : Marked K α} (h : Sound account seed p) : KeepsKey account seed p := by
  intro ks τ r ks' uses hrun
  have hend := wp_run (h (ks, []) fun use huse => absurd huse List.not_mem_nil) hrun
  cases r with
  | ok a => exact Or.inl hend
  | error e => exact Or.inl hend

theorem Sound.mark (use : KeyUse K.UnifiedFullViewingKey) (h : use.key = account.ufvk) :
    Sound account seed (mark use) := by
  rintro ⟨ks, uses⟩ huses
  refine wpE_mark.mpr fun use' huse => ?_
  rcases List.mem_append.mp huse with hold | hnew
  · exact huses use' hold
  · rw [List.mem_singleton.mp hnew]
    exact h

theorem Sound.ofOutcome (e : Except RpcError α) :
    Sound account seed (ofOutcome e : Marked K α) := by
  intro w hw
  cases e with
  | ok a => exact hw
  | error e => exact hw

theorem Sound.bind {p : Marked K α} {f : α → Marked K β} (hp : Sound account seed p)
    (hf : ∀ a, Sound account seed (f a)) : Sound account seed (p >>= f) :=
  Sustains.bind hp hf

/-- The marks for a key that is the account's. -/
theorem Sound.uses {key : K.UnifiedFullViewingKey} {signs : Prop} [Decidable signs]
    (h : key = account.ufvk) {e : Except RpcError α} :
    Sound account seed (do
      Effect.mark (.Derived key)
      if signs then Effect.mark (.Signed key)
      Effect.ofOutcome e) := by
  refine (Sound.mark (.Derived key) h).bind fun _ => ?_
  split
  · exact (Sound.mark (.Signed key) h).bind fun _ => Sound.ofOutcome e
  · exact Sound.ofOutcome e

theorem Sound.ofOutcome_bind {e : Except RpcError α} {f : α → Marked K β}
    (h : ∀ a, e = .ok a → Sound account seed (f a)) :
    Sound account seed (Effect.ofOutcome e >>= f) := by
  intro w hw
  rw [wpE_bind, wpE_ofOutcome]
  cases e with
  | ok a => exact h a rfl w hw
  | error e => exact hw

/-- What the call returns, on a keystore that gives no other seed for the fingerprint. -/
def Returns (account : Account K) (seed : List UInt8)
    (p : ExceptT RpcError (Prog (keystoreSig c)) α) (V : α → Prop) : Prop :=
  ∀ ks, wpE (sharedKeystore c account.derivation.seedFingerprint seed) Eq (fun _ _ => True)
    (fun r _ => ∀ a, r = .ok a → V a) p ks

theorem Sound.embed_bind {p : ExceptT RpcError (Prog (keystoreSig c)) α} {V : α → Prop}
    {f : α → Marked K β} (hp : Returns account seed p V)
    (hf : ∀ a, V a → Sound account seed (f a)) : Sound account seed (embedE p >>= f) := by
  rintro ⟨ks, uses⟩ huses
  rw [wpE_bind]
  refine wpE_embed (wpE_post (hp ks) fun r ks' hr => ?_)
  cases r with
  | ok a => exact hf a (hr a rfl) (ks', uses) huses
  | error e => exact huses

/-- The seed that is decrypted is the one that the fingerprint names. -/
theorem returns_callDecryptSeed (f : Error → RpcError) :
    Returns account seed (callDecryptSeed f account.derivation.seedFingerprint) (· = seed) := by
  rintro ks ks₁ -
  refine ⟨trivial, ?_⟩
  rintro answer ks' ⟨ks₂, hnames, hanswer, -⟩ s hs
  cases answer with
  | error e => cases hs
  | ok s' =>
    cases hs
    exact hnames _ hanswer.symm

theorem returns_of_value {p : ExceptT RpcError (Prog (keystoreSig c)) α}
    {f : α → ExceptT RpcError (Prog (keystoreSig c)) β} {V : β → Prop}
    (hf : ∀ a, Returns account seed (f a) V) : Returns account seed (p >>= f) V :=
  fun _ => wpE_bind_value fun a ks => hf a ks

theorem returns_pure {a : α} {V : α → Prop} (h : V a) :
    Returns account seed (pure a : ExceptT RpcError (Prog (keystoreSig c)) α) V := by
  intro ks b hb
  cases hb
  exact h

theorem returns_bind {p : ExceptT RpcError (Prog (keystoreSig c)) α}
    {f : α → ExceptT RpcError (Prog (keystoreSig c)) β} {V : α → Prop} {V' : β → Prop}
    (hp : Returns account seed p V) (hf : ∀ a, V a → Returns account seed (f a) V') :
    Returns account seed (p >>= f) V' := by
  intro ks
  rw [wpE_bind]
  refine wpE_post (hp ks) fun r ks' hr => ?_
  cases r with
  | ok a => exact hf a (hr a rfl) ks'
  | error e =>
    intro b hb
    cases hb

theorem returns_ofOutcome {e : Except RpcError α} {V : α → Prop} (h : ∀ a, e = .ok a → V a) :
    Returns account seed (ofOutcome e) V :=
  fun _ => h

/-- The key of a call is derived at the account index. -/
theorem returns_zSendMany {prepared : Except RpcError (Zip32Derivation ×
      Except String (List (TransparentAddress × AddressSource)) ×
      List (List (Option TransparentAddress)))} (h : account.Prepares prepared) :
    Returns account seed (zSendMany contextDisplay K prepared) fun keys =>
      K.uskFromSeed seed account.derivation.accountIndex = .ok keys.1 := by
  refine returns_bind (returns_ofOutcome h) ?_
  rintro ⟨derivation, receivers, steps⟩ rfl
  refine returns_bind (returns_callDecryptSeed _) ?_
  rintro seed rfl
  refine returns_bind (returns_ofOutcome fun usk husk => mapError_eq_ok.mp husk) ?_
  intro usk husk
  exact returns_of_value fun standaloneKeys => returns_pure husk

theorem zShieldcoinbase_eq :
    Spend.zShieldcoinbase contextDisplay (K.signing P) = zSendMany contextDisplay K := rfl

variable {contextDisplay P}

theorem sound_runMarked (B : Backend K) (failure : String)
    {keys : K.UnifiedSpendingKey × (TransparentAddress → List c.SecretKey)}
    (h : K.toUnifiedFullViewingKey keys.1 = account.ufvk) :
    Sound account seed (runMarked B failure keys) :=
  Sound.uses h

/-- The hints of the account are read back. -/
theorem hints_of_carries {text : List Char} {policy : Option String} {pczt : Pczt}
    {hints : Option SigningHints} (h : account.CarriesHints P text)
    (hread : readPczt (K.signing P) text policy = .ok (pczt, hints)) :
    hints = some ⟨account.derivation.seedFingerprint, account.derivation.accountIndex⟩ := by
  obtain ⟨hdecode, -, hhints⟩ := readPczt_eq_ok.mp hread
  obtain ⟨created, requiredPolicy, metadata, built, hunhinted, hrecord, hfields⟩ :=
    h pczt hdecode
  obtain ⟨-, rfl⟩ := recordSigningHints_eq_ok.mp hrecord
  have hback : readSigningHints
      (created.hinted requiredPolicy (some account.derivation.toZip32Derivation) metadata) = _ :=
    readSigningHints_hinted hunhinted
  unfold readSigningHints at hhints hback
  rw [hfields, hback, Except.ok.injEq] at hhints
  exact hhints.symm

/-- The key that the hints of the account name is derived at its account index. -/
theorem returns_locateUsk :
    Returns account seed (locateUsk (K.signing P) contextDisplay
        (some ⟨account.derivation.seedFingerprint, account.derivation.accountIndex⟩))
      fun usk => ∀ key ∈ usk,
        K.uskFromSeed seed account.derivation.accountIndex = .ok key := by
  refine returns_bind (V := fun answer => ∀ s, answer = .ok s → s = seed) ?_ ?_
  · rintro ks ks₁ -
    refine ⟨trivial, ?_⟩
    rintro answer ks' ⟨ks₂, hnames, hanswer, -⟩ answer' h s hs
    cases h
    exact hnames s (hanswer.symm.trans hs)
  · intro answer hanswer
    refine returns_ofOutcome fun usk husk key hkey => ?_
    cases answer with
    | ok s =>
      obtain rfl := hanswer s rfl
      simp only [uskOfSeed] at husk
      split at husk
      · cases husk
        cases hkey
        assumption
      · cases husk
    | error e =>
      simp only [uskOfSeed] at husk
      split at husk
      · cases husk
      · cases husk
        cases hkey

theorem sound_pcztSignMarked (hown : DerivesOwn account seed) {text : List Char}
    {policy : Option String} {strict : Option Bool} (h : account.CarriesHints P text) :
    Sound account seed (pcztSignMarked contextDisplay P text policy strict) := by
  refine Sound.ofOutcome_bind ?_
  rintro ⟨pczt, hints⟩ hread
  obtain rfl := hints_of_carries h hread
  refine Sound.embed_bind returns_locateUsk fun usk husk => ?_
  cases usk with
  | none => exact Sound.ofOutcome _
  | some usk => exact Sound.uses (hown usk (husk usk rfl))

theorem sound_zSendFromAccountMarked (hown : DerivesOwn account seed)
    {prepared : Except RpcError (Zip32Derivation × PrivacyPolicy)}
    {proved : Except RpcError (List Char)}
    {sent : K.UnifiedSpendingKey → SignResult → Except RpcError String}
    (h : account.Prepares prepared)
    (hproved : ∀ text, proved = .ok text → account.CarriesHints P text) :
    Sound account seed (zSendFromAccountMarked contextDisplay P prepared proved sent) := by
  refine Sound.ofOutcome_bind fun x hx => ?_
  obtain ⟨derivation, privacyPolicy⟩ := x
  obtain rfl : derivation = _ := h _ hx
  refine Sound.embed_bind (returns_callDecryptSeed _) ?_
  rintro seed rfl
  refine Sound.ofOutcome_bind fun usk husk => ?_
  have hkey := hown usk (mapError_eq_ok.mp husk)
  refine (Sound.mark (.Derived _) hkey).bind fun _ => ?_
  refine Sound.ofOutcome_bind fun text htext => ?_
  exact (sound_pcztSignMarked hown (hproved text htext)).bind fun signed => Sound.ofOutcome _

/-- Where the derived key is the account's, every call keeps to it. -/
theorem ownKey_of_derivesOwn (hown : DerivesOwn account seed) : OwnKey wallet account seed where
  zSendMany contextDisplay B prepared _ h :=
    Sound.keepsKey (Sound.embed_bind (returns_zSendMany contextDisplay h) fun keys hkeys =>
      sound_runMarked B _ (hown keys.1 hkeys))
  zShieldcoinbase contextDisplay P B prepared _ h := by
    rw [zShieldcoinbaseMarked, zShieldcoinbase_eq]
    exact Sound.keepsKey (Sound.embed_bind (returns_zSendMany contextDisplay h) fun keys hkeys =>
      sound_runMarked B _ (hown keys.1 hkeys))
  zSendFromAccount contextDisplay P prepared proved sent h hproved :=
    (sound_zSendFromAccountMarked hown h hproved).keepsKey
  pcztSign contextDisplay P text policy strict h := (sound_pcztSignMarked hown h).keepsKey

/-! ### Where it is not -/

/-- The marks for a key, in a run. -/
theorem run_uses {W : Type} {C : Contract (keystoreSig c) W} (key : K.UnifiedFullViewingKey)
    (signs : Prop) [Decidable signs] (e : Except RpcError α) (w : W)
    (uses : List (KeyUse K.UnifiedFullViewingKey)) :
    ∃ τ uses', Run C.marked (do
        Effect.mark (.Derived key)
        if signs then Effect.mark (.Signed key)
        Effect.ofOutcome e : Marked K α).run (w, uses) τ e (w, uses') ∧
      KeyUse.Derived key ∈ uses' := by
  have hderived : KeyUse.Derived key ∈ uses ++ [KeyUse.Derived key] := by simp
  by_cases hsigns : signs
  · simp only [if_pos hsigns]
    exact ⟨_, _, run_bind_of_ok (run_mark _ w uses) (run_bind_of_ok (run_mark _ w _)
      (run_ofOutcome.mpr ⟨rfl, rfl, rfl⟩)), List.mem_append_left _ hderived⟩
  · simp only [if_neg hsigns]
    exact ⟨_, _, run_bind_of_ok (run_mark _ w uses) (run_ofOutcome.mpr ⟨rfl, rfl, rfl⟩), hderived⟩

/-- A call that returns with another key than the account's does not keep to it. -/
theorem not_kept {Key : Type} {key key' : Key} {a : α} {uses : List (KeyUse Key)}
    (hne : key ≠ key') (h : KeyUse.Derived key ∈ uses) : ¬ Kept key' (.ok a) uses := by
  rintro (hall | ⟨⟨e, he⟩, -⟩)
  · exact hne (hall _ h)
  · cases he

variable {ks : KeyStore} {usk : K.UnifiedSpendingKey}

theorem namesSeed_of_eq {seedFp : SeedFingerprint} (h : ks.decryptSeed c seedFp = .ok seed) :
    NamesSeed c seedFp seed ks := by
  intro answer hanswer
  rw [h] at hanswer
  exact (Except.ok.inj hanswer).symm

/-- A PCZT of one Orchard action, as the wallet backend creates it. -/
def oneAction : Pczt where
  proprietary _ := none
  transparentInputs := []
  saplingSpends := 0
  orchardActions := 1
  ironwoodActions := 0
  spendAuthSignatures := []

theorem unhinted_oneAction : oneAction.Unhinted where
  account := Or.inl rfl
  inputs _ h := absurd h List.not_mem_nil

/-- The PCZT of `build_pczt` for the account. -/
def Account.built (account : Account K) : Pczt :=
  oneAction.hinted .FullPrivacy (some account.derivation.toZip32Derivation) []

/-- A signer that refuses every key, as one does where the key is not that of the input. -/
def refusing (account : Account K) : PcztCrates K where
  decodeBase64 _ := .ok []
  parse _ := .ok account.built
  signerNew _ := .ok ()
  signTransparent _ _ _ := .error "WrongSpendingKey"
  signSapling _ _ _ := .error "WrongSpendAuthorizingKey"
  signOrchard _ _ _ := .error "WrongSpendAuthorizingKey"
  signIronwood _ _ _ := .error "WrongSpendAuthorizingKey"
  finish _ _ := .ok ""

theorem carriesHints_built (text : List Char) (account : Account K) :
    account.CarriesHints (refusing account) text := by
  intro pczt hdecode
  refine ⟨oneAction, .FullPrivacy, [], account.built, unhinted_oneAction,
    recordSigningHints_eq_ok.mpr ⟨rfl, rfl⟩, ?_⟩
  unfold decodePcztBase64 at hdecode
  split at hdecode
  · cases hdecode
  · cases hdecode
    rfl

theorem readPczt_built (account : Account K) :
    readPczt (K.signing (refusing account)) [] none = .ok (account.built,
      some ⟨account.derivation.seedFingerprint, account.derivation.accountIndex⟩) := by
  refine readPczt_eq_ok.mpr ⟨?_, ⟨.FullPrivacy, rfl, ?_⟩, readSigningHints_hinted unhinted_oneAction⟩
  · rfl
  · exact (checkPrivacyPolicy_hinted _).mpr rfl

variable (contextDisplay) in
/-- `pczt_sign` returns a report after it derived another key than the account's. -/
theorem not_keepsKey_pcztSign
    (hseed : ks.decryptSeed c account.derivation.seedFingerprint = .ok seed)
    (husk : K.uskFromSeed seed account.derivation.accountIndex = .ok usk)
    (hne : K.toUnifiedFullViewingKey usk ≠ account.ufvk) :
    ¬ KeepsKey account seed
      (pcztSignMarked contextDisplay (refusing account) [] none none) := by
  intro hkeeps
  have hlocate : Run (sharedKeystore c account.derivation.seedFingerprint seed)
      (locateUsk (K.signing (refusing account)) contextDisplay
        (some ⟨account.derivation.seedFingerprint, account.derivation.accountIndex⟩)).run ks
      [⟨.decryptSeed account.derivation.seedFingerprint, .ok seed⟩] (.ok (some usk)) ks := by
    refine .step ⟨ks, namesSeed_of_eq hseed, hseed.symm, rfl⟩ (run_pure.mpr ⟨rfl, ?_, rfl⟩)
    simp [uskOfSeed, husk]
  obtain ⟨τ, hlocate⟩ := run_embedE (l := []) hlocate
  obtain ⟨τ', uses, hrest, hderived⟩ := run_uses (K.toUnifiedFullViewingKey usk)
    (signsSome (refusing account) account.built usk = true)
    (signWith (K.signing (refusing account)) account.built (some usk) none) ks []
  obtain ⟨report, hreport⟩ : ∃ report, signWith (K.signing (refusing account)) account.built
      (some usk) none = .ok report :=
    ⟨_, signWith_eq_ok.mpr ⟨rfl, ⟨"", rfl, rfl⟩, fun h => by cases h⟩⟩
  have hrun : ∃ τ, Run (sharedKeystore c account.derivation.seedFingerprint seed).marked
      (pcztSignMarked contextDisplay (refusing account) [] none none).run (ks, []) τ
      (signWith (K.signing (refusing account)) account.built (some usk) none) (ks, uses) :=
    ⟨_, run_bind_of_ok (run_ofOutcome.mpr ⟨rfl, (readPczt_built account).symm, rfl⟩)
      (run_bind_of_ok hlocate hrest)⟩
  obtain ⟨τ, hrun⟩ := hrun
  rw [hreport] at hrun
  exact not_kept hne hderived (hkeeps ks τ _ ks uses hrun)

/-- A backend that signs with the key of every account of the wallet. -/
def recognizing (wallet : List (Account K)) : Backend K where
  create usk _ :=
    if ∀ a ∈ wallet, a.ufvk ≠ K.toUnifiedFullViewingKey usk then ⟨false, .error "KeyNotRecognized"⟩
    else ⟨true, .ok []⟩
  verifyAndBroadcast _ _ := .ok "sent"

theorem recognizes_recognizing (wallet : List (Account K)) :
    (recognizing wallet).Recognizes wallet := by
  intro usk keys h
  simp only [recognizing, if_pos h]
  exact ⟨trivial, _, rfl⟩

variable (wallet contextDisplay usk) in
/-- `z_sendmany` sends with the key of another account. -/
theorem not_keepsKey_zSendMany
    (hseed : ks.decryptSeed c account.derivation.seedFingerprint = .ok seed)
    (husk : K.uskFromSeed seed account.derivation.accountIndex = .ok usk)
    (hne : K.toUnifiedFullViewingKey usk ≠ account.ufvk)
    (hother : ∃ a ∈ wallet, a.ufvk = K.toUnifiedFullViewingKey usk) :
    ¬ KeepsKey account seed (zSendManyMarked contextDisplay (recognizing wallet)
      (.ok (account.derivation.toZip32Derivation, .ok [], []))) := by
  intro hkeeps
  have hdecrypt : Run (sharedKeystore c account.derivation.seedFingerprint seed)
      (callDecryptSeed (mapLookupError contextDisplay) account.derivation.seedFingerprint).run ks
      [⟨.decryptSeed account.derivation.seedFingerprint, .ok seed⟩] (.ok seed) ks :=
    .step ⟨ks, namesSeed_of_eq hseed, hseed.symm, rfl⟩ (run_pure.mpr ⟨rfl, rfl, rfl⟩)
  have hderive : (K.uskFromSeed seed account.derivation.accountIndex).mapError
      LegacyCode.InvalidAddressOrKey.withMessage = .ok usk := mapError_eq_ok.mpr husk
  have hkeys : ∃ τ, Run (sharedKeystore c account.derivation.seedFingerprint seed)
      (zSendMany contextDisplay K
        (.ok (account.derivation.toZip32Derivation, .ok [], []))).run ks τ
      (.ok (usk, fun _ => [])) ks :=
    ⟨_, run_bind_of_ok (run_ofOutcome.mpr ⟨rfl, rfl, rfl⟩) (run_bind_of_ok hdecrypt
      (run_bind_of_ok (run_ofOutcome.mpr ⟨rfl, hderive.symm, rfl⟩)
        (run_bind_of_ok (run_ofOutcome (e := .ok fun _ => []) |>.mpr ⟨rfl, rfl, rfl⟩)
          (run_pure.mpr ⟨rfl, rfl, rfl⟩))))⟩
  obtain ⟨τ, hkeys⟩ := hkeys
  obtain ⟨τ, hkeys⟩ := run_embedE (l := []) hkeys
  obtain ⟨τ', uses, hrest, hderived⟩ := run_uses (K.toUnifiedFullViewingKey usk)
    (((recognizing wallet).create usk fun _ => []).signed = true)
    (run (recognizing wallet) sendFailure (usk, fun _ => [])) ks []
  have hsent : run (recognizing wallet) sendFailure (usk, fun _ => []) = .ok "sent" := by
    have hrecognized : ¬ ∀ a ∈ wallet, a.ufvk ≠ K.toUnifiedFullViewingKey usk := by
      obtain ⟨a, ha, hkey⟩ := hother
      exact fun h => h a ha hkey
    simp only [run, recognizing, if_neg hrecognized]
    rfl
  have hrun : ∃ τ, Run (sharedKeystore c account.derivation.seedFingerprint seed).marked
      (zSendManyMarked contextDisplay (recognizing wallet)
        (.ok (account.derivation.toZip32Derivation, .ok [], []))).run (ks, []) τ
      (run (recognizing wallet) sendFailure (usk, fun _ => [])) (ks, uses) :=
    ⟨_, run_bind_of_ok hkeys hrest⟩
  obtain ⟨τ, hrun⟩ := hrun
  rw [hsent] at hrun
  exact not_kept hne hderived (hkeeps ks τ _ ks uses hrun)

/-- Where no account of the wallet has the derived key, nothing is signed. -/
theorem kept_of_unrecognized {B : Backend K} (hB : B.Recognizes wallet) (failure : String)
    {keys : K.UnifiedSpendingKey × (TransparentAddress → List c.SecretKey)}
    (h : ∀ a ∈ wallet, a.ufvk ≠ K.toUnifiedFullViewingKey keys.1) (key : K.UnifiedFullViewingKey)
    (ks : KeyStore) :
    wpE (sharedKeystore c account.derivation.seedFingerprint seed).marked Eq (fun _ _ => True)
      (fun r w => Kept key r w.2) (runMarked B failure keys) (ks, []) := by
  obtain ⟨hsigned, e, htxids⟩ := hB keys.1 keys.2 h
  unfold runMarked
  rw [wpE_bind, wpE_mark, hsigned, if_neg Bool.false_ne_true]
  refine Or.inr ⟨⟨_, by rw [run, htxids]; rfl⟩, fun k hk => ?_⟩
  simp at hk

end

/-- `z_sendmany` keeps to the key of an account unless it derives the key of another account
    of the wallet. -/
theorem zSendMany_iff {ks : KeyStore}
    (hseed : ks.decryptSeed c account.derivation.seedFingerprint = .ok seed) :
    (∀ contextDisplay (B : Backend K) prepared, B.Recognizes wallet → account.Prepares prepared →
      KeepsKey account seed (zSendManyMarked contextDisplay B prepared)) ↔
    ∀ usk, K.uskFromSeed seed account.derivation.accountIndex = .ok usk →
      K.toUnifiedFullViewingKey usk = account.ufvk ∨
        ∀ a ∈ wallet, a.ufvk ≠ K.toUnifiedFullViewingKey usk := by
  constructor
  · intro h usk husk
    by_contra hnot
    push Not at hnot
    obtain ⟨hne, hother⟩ := hnot
    refine not_keepsKey_zSendMany wallet (fun _ _ => "") usk hseed husk hne hother ?_
    exact h _ _ _ (recognizes_recognizing wallet) fun x hx => by cases hx; rfl
  · intro h contextDisplay B prepared hB hprepared ks τ r ks' uses hrun
    suffices hwp : wp (sharedKeystore c account.derivation.seedFingerprint seed).marked Eq
        (fun _ _ => True) (fun r w => Kept account.ufvk r w.2)
        (zSendManyMarked contextDisplay B prepared).run (ks, []) by
      have hkept := wp_run hwp hrun
      exact hkept
    show wpE _ _ _ _ (embedE _ >>= _) _
    rw [wpE_bind]
    refine wpE_embed (wpE_post (returns_zSendMany contextDisplay hprepared ks) fun r ks' hr => ?_)
    cases r with
    | error e => exact Or.inl fun use huse => absurd huse List.not_mem_nil
    | ok keys =>
      rcases h keys.1 (hr keys rfl) with hown | hunrecognized
      · refine wpE_post (sound_runMarked B sendFailure hown (ks', [])
          fun use huse => absurd huse List.not_mem_nil) fun r w hw => ?_
        cases r with
        | ok a => exact Or.inl hw
        | error e => exact Or.inl hw
      · exact kept_of_unrecognized hB sendFailure hunrecognized account.ufvk ks'

/-- Every call keeps to the key of an account exactly where the account has no legacy
    address index, or there is no key at its account index below its seed. -/
theorem ownKey_iff {c : Crates} (K : KeyCrates c) (wallet : List (Account K)) (account : Account K)
    (seed : List UInt8) (ks : KeyStore)
    (hseed : ks.decryptSeed c account.derivation.seedFingerprint = .ok seed)
    (hstored : account.Stored seed) :
    OwnKey wallet account seed ↔ account.derivation.legacyAddressIndex = none ∨
      ∀ usk, K.uskFromSeed seed account.derivation.accountIndex ≠ .ok usk := by
  rw [← derivesOwn_iff hstored]
  constructor
  · intro h usk husk
    by_contra hne
    exact not_keepsKey_pcztSign (fun _ _ => "") hseed husk hne
      (h.pcztSign _ _ _ _ _ (carriesHints_built [] account))
  · exact ownKey_of_derivesOwn

/-! ## Two accounts of a migrated wallet -/

namespace LegacySapling

/-- Keys that are their paths. -/
def keys : KeyCrates OneOfEach.crates where
  UnifiedSpendingKey := List UInt8 × AccountId
  UnifiedFullViewingKey := List UInt8 × AccountId × Option ℕ
  decidableEq := inferInstance
  uskFromSeed seed account := .ok (seed, account)
  deriveSecretKey _ _ _ := .ok (1 : UInt8)
  toUnifiedFullViewingKey usk := (usk.1, usk.2, none)
  viewingKeyAt seed account i := some (seed, account, i)
  viewingKeyAt_uskFromSeed h := by
    cases h
    rfl
  viewingKeyAt_injective h h' := by
    cases h
    cases h'
    exact ⟨rfl, rfl⟩

def seedBytes : List UInt8 := List.replicate 32 7

/-- The account index of the legacy accounts of `zcashd`. -/
def legacyAccount : AccountId := ⟨2147483647⟩

/-- The account of the legacy transparent addresses. -/
def pool : Account keys where
  derivation := ⟨⟨⟨seedBytes, rfl⟩, legacyAccount⟩, none⟩
  ufvk := (seedBytes, legacyAccount, none)

/-- The account of the first legacy Sapling address. -/
def sapling : Account keys where
  derivation := ⟨⟨⟨seedBytes, rfl⟩, legacyAccount⟩, some 0⟩
  ufvk := (seedBytes, legacyAccount, some 0)

theorem decryptSeed_sapling : TwoInputs.keystore.decryptSeed OneOfEach.crates
    sapling.derivation.seedFingerprint = .ok seedBytes := rfl

theorem ownKey_iff_sapling : OwnKey [pool, sapling] sapling seedBytes ↔
    sapling.derivation.legacyAddressIndex = none ∨
      ∀ usk, keys.uskFromSeed seedBytes sapling.derivation.accountIndex ≠ .ok usk :=
  ownKey_iff keys [pool, sapling] sapling seedBytes TwoInputs.keystore decryptSeed_sapling rfl

/-- `z_sendmany` from the Sapling account sends with the key of the pool account. -/
theorem sends_with_pool_key : ¬ OwnKey [pool, sapling] sapling seedBytes := by
  intro h
  refine not_keepsKey_zSendMany [pool, sapling] (fun _ _ => "") (seedBytes, legacyAccount)
    decryptSeed_sapling rfl (by decide)
    ⟨pool, List.mem_cons_self, rfl⟩ ?_
  exact h.zSendMany _ _ _ (recognizes_recognizing _) fun x hx => by
    cases hx
    rfl

end LegacySapling

end Zallet.Spend.SpendingKey
