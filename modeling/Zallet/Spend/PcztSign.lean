import Zallet.Keystore.Store
import Zallet.Spend.Hints

/-!
# Signing a PCZT

`pczt_sign` (`zallet-core/src/components/json_rpc/methods/pczt_sign.rs`, lines 34–344) on
what `Hints` reads.

`SigningCrates` is what the call uses of `pczt`, `base64ct` and `zcash_keys`; the outcomes
of the signing attempts are arbitrary functions of the key and the index. The one
operation of the call is the decryption of the seed.

* `signEach_eq`, `signTransparentInputs_eq`: the two kinds of signing loop as filters.
* `Accounts`: every index is signed, unsigned or already signed, and only one of these.
* `call_accounts`: the report of every call that returns one accounts for the inputs of
  each pool.
* `call_strict_iff`: a strict call returns the report of the call that is not strict
  exactly when its unsigned lists are empty.
* `hints_and_report` adds what is read back of recorded hints.
-/

namespace Zallet.Spend

open Zallet.Common Zallet.Common.Loop Zallet.Effect Zallet.Keystore
open Zallet.Rpc (RpcError LegacyCode PrivacyPolicy TransparentKeyScope NonHardenedChildIndex)

/-! ## The call -/

/-- `SignResult` (lines 34–60). -/
structure SignResult where
  pczt : String
  transparentSigned : ℕ
  saplingSigned : ℕ
  orchardSigned : ℕ
  ironwoodSigned : ℕ
  unsignedTransparent : List ℕ
  unsignedSapling : List ℕ
  unsignedOrchard : List ℕ
  unsignedIronwood : List ℕ
  deriving DecidableEq

/-- What the call uses of other crates. The signer of a PCZT is known by the outcomes of
    its attempts and by the text it is encoded to in the end. -/
structure SigningCrates (c : Crates) where
  UnifiedSpendingKey : Type
  decodeBase64 : List Char → Except String (List UInt8)
  parse : List UInt8 → Except String Pczt
  uskFromSeed : List UInt8 → AccountId → Except String UnifiedSpendingKey
  deriveSecretKey : UnifiedSpendingKey → TransparentKeyScope → NonHardenedChildIndex →
    Except String c.SecretKey
  signerNew : Pczt → Except String Unit
  signTransparent : Pczt → ℕ → c.SecretKey → Except String Unit
  signSapling : Pczt → ℕ → UnifiedSpendingKey → Except String Unit
  signOrchard : Pczt → ℕ → UnifiedSpendingKey → Except String Unit
  signIronwood : Pczt → ℕ → UnifiedSpendingKey → Except String Unit
  finish : Pczt → Option UnifiedSpendingKey → Except String String

/-- `LegacyCode::Verify`. -/
def verifyError (message : String) : RpcError := ⟨-25, message⟩

/-- `LegacyCode::Deserialization`. -/
def deserializationError (message : String) : RpcError := ⟨-22, message⟩

/-- `MAX_PCZT_BASE64_LEN` (pczt_common.rs, line 31). -/
def MAX_PCZT_BASE64_LEN : ℕ := 10 * 1024 * 1024

section

variable {c : Crates} (E : SigningCrates c)

/-- `decode_pczt_base64` (pczt_common.rs, lines 293–304). -/
def decodePcztBase64 (s : List Char) : Except RpcError Pczt :=
  if (Text.utf8 s).length > MAX_PCZT_BASE64_LEN then
    .error (LegacyCode.InvalidParameter.withMessage "PCZT exceeds maximum size limit")
  else
    match E.decodeBase64 s with
    | .error e => .error (deserializationError ("Invalid base64 encoding: " ++ e))
    | .ok bytes => (E.parse bytes).mapError fun e => deserializationError ("Invalid PCZT: " ++ e)

/-- The loop of `sign_each` (lines 76–96): the number of signed indices and the unsigned
    ones. -/
def signEach (attempt : ℕ → Option (Except String Unit)) : List ℕ → ℕ × List ℕ → ℕ × List ℕ
  | [], report => report
  | i :: candidates, (signed, unsigned) =>
    match attempt i with
    | some (.ok ()) => signEach attempt candidates (signed + 1, unsigned)
    | some (.error _) => signEach attempt candidates (signed, unsigned ++ [i])
    | none => signEach attempt candidates (signed, unsigned ++ [i])

/-- The loop over the transparent inputs (lines 275–300). -/
def signTransparentInputs (pczt : Pczt) (usk : Option E.UnifiedSpendingKey) :
    List (Option (TransparentKeyScope × NonHardenedChildIndex) × ℕ) → ℕ × List ℕ → ℕ × List ℕ
  | [], report => report
  | (info, i) :: rest, (signed, unsigned) =>
    match usk, info with
    | some usk, some (scope, addrIdx) =>
      match E.deriveSecretKey usk scope addrIdx with
      | .ok sk =>
        match E.signTransparent pczt i sk with
        | .ok () => signTransparentInputs pczt usk rest (signed + 1, unsigned)
        | .error _ => signTransparentInputs pczt usk rest (signed, unsigned ++ [i])
      | .error _ => signTransparentInputs pczt usk rest (signed, unsigned ++ [i])
    | usk, _ => signTransparentInputs pczt usk rest (signed, unsigned ++ [i])

/-- `presigned_orchard` and `presigned_ironwood` (lines 210–220). -/
def Pczt.presigned (pczt : Pczt) (pool : ValuePool) (i : ℕ) : Bool :=
  decide ((pool, i) ∈ pczt.spendAuthSignatures)

/-- The actions that carry no signature yet (lines 308 and 314). -/
def Pczt.candidates (pczt : Pczt) (pool : ValuePool) (count : ℕ) : List ℕ :=
  (List.range count).filter fun i => !pczt.presigned pool i

/-- For each pool the number of signed inputs and the unsigned indices. -/
structure Signed where
  transparent : ℕ × List ℕ
  sapling : ℕ × List ℕ
  orchard : ℕ × List ℕ
  ironwood : ℕ × List ℕ
  deriving DecidableEq

/-- The four loops (lines 275–316). -/
def signInputs (pczt : Pczt) (usk : Option E.UnifiedSpendingKey) : Signed where
  transparent := signTransparentInputs E pczt usk (transparentDerivationInfo pczt).zipIdx (0, [])
  sapling := signEach (fun i => usk.map (E.signSapling pczt i)) (List.range pczt.saplingSpends)
    (0, [])
  orchard := signEach (fun i => usk.map (E.signOrchard pczt i))
    (pczt.candidates .Orchard pczt.orchardActions) (0, [])
  ironwood := signEach (fun i => usk.map (E.signIronwood pczt i))
    (pczt.candidates .Ironwood pczt.ironwoodActions) (0, [])

/-- Some input is unsigned (lines 319–322). -/
def Signed.anyUnsigned (signed : Signed) : Bool :=
  !signed.transparent.2.isEmpty || !signed.sapling.2.isEmpty || !signed.orchard.2.isEmpty ||
    !signed.ironwood.2.isEmpty

/-- The error of a strict call (lines 324–330). -/
def Signed.strictUnsigned (signed : Signed) : RpcError :=
  verifyError ("Strict mode: " ++ toString signed.transparent.2.length ++ " transparent, " ++
    toString signed.sapling.2.length ++ " sapling, " ++ toString signed.orchard.2.length ++
    "\norchard, " ++ toString signed.ironwood.2.length ++ " ironwood inputs remain unsigned")

/-- The report, with the text of the signed PCZT. -/
def Signed.result (signed : Signed) (text : String) : SignResult where
  pczt := text
  transparentSigned := signed.transparent.1
  saplingSigned := signed.sapling.1
  orchardSigned := signed.orchard.1
  ironwoodSigned := signed.ironwood.1
  unsignedTransparent := signed.transparent.2
  unsignedSapling := signed.sapling.2
  unsignedOrchard := signed.orchard.2
  unsignedIronwood := signed.ironwood.2

/-- The call from the spending key on (lines 261–344). -/
def signWith (pczt : Pczt) (usk : Option E.UnifiedSpendingKey) (strict : Option Bool) :
    Except RpcError SignResult :=
  match E.signerNew pczt with
  | .error e => .error (verifyError ("Failed to initialize signer: " ++ e))
  | .ok () =>
    let signed := signInputs E pczt usk
    if strict.getD false && signed.anyUnsigned then .error signed.strictUnsigned
    else
      match E.finish pczt usk with
      | .error e => .error (LegacyCode.Misc.withMessage ("Failed to serialize PCZT: " ++ e))
      | .ok text => .ok (signed.result text)

variable (contextDisplay : String → Option String → String)

/-- The spending key that the hints name, given the answer to the decryption of its seed
    (lines 234–257). -/
def uskOfSeed (hints : SigningHints) :
    Except Error (List UInt8) → Except RpcError (Option E.UnifiedSpendingKey)
  | .ok seed =>
    match E.uskFromSeed seed hints.accountIdx with
    | .ok usk => .ok (some usk)
    | .error e =>
      .error (LegacyCode.InvalidAddressOrKey.withMessage ("Failed to derive spending key: " ++ e))
  | .error e =>
    if e.isWalletLocked contextDisplay then
      .error (LegacyCode.WalletUnlockNeeded.withMessage (e.display contextDisplay))
    else .ok none

/-- The spending key that the hints name (lines 231–259). -/
def locateUsk : Option SigningHints →
    ExceptT RpcError (Prog (keystoreSig c)) (Option E.UnifiedSpendingKey)
  | none => pure none
  | some hints => do
    let answer ← lift (Prog.call (S := keystoreSig c) (.decryptSeed hints.seedFp))
    ofOutcome (uskOfSeed E contextDisplay hints answer)

/-- What the call checks and reads before it needs a key (lines 141–149). -/
def readPczt (pcztBase64 : List Char) (privacyPolicy : Option String) :
    Except RpcError (Pczt × Option SigningHints) := do
  let pczt ← decodePcztBase64 E pcztBase64
  let acknowledged ← parsePrivacyPolicy privacyPolicy
  checkPrivacyPolicy pczt acknowledged
  let hints ← readSigningHints pczt
  pure (pczt, hints)

/-- `pczt_sign` (lines 134–344). -/
def pcztSign (pcztBase64 : List Char) (privacyPolicy : Option String) (strict : Option Bool) :
    ExceptT RpcError (Prog (keystoreSig c)) SignResult := do
  let (pczt, hints) ← ofOutcome (readPczt E pcztBase64 privacyPolicy)
  let usk ← locateUsk E contextDisplay hints
  ofOutcome (signWith E pczt usk strict)

/-! ## The loops -/

/-- The attempt signs. -/
def succeeds (attempt : ℕ → Option (Except String Unit)) (i : ℕ) : Bool :=
  match attempt i with
  | some (.ok ()) => true
  | _ => false

/-- The loop counts the indices whose attempt signs and lists the others. -/
theorem signEach_eq (attempt : ℕ → Option (Except String Unit)) (candidates : List ℕ)
    (report : ℕ × List ℕ) :
    signEach attempt candidates report =
      (report.1 + (candidates.filter fun i => succeeds attempt i).length,
        report.2 ++ candidates.filter fun i => !succeeds attempt i) := by
  induction candidates generalizing report with
  | nil => simp [signEach]
  | cons i candidates ih =>
    obtain ⟨signed, unsigned⟩ := report
    unfold signEach
    rcases hi : attempt i with - | (e | ⟨⟩)
    · simp [ih, succeeds, hi]
    · simp [ih, succeeds, hi]
    · simp [ih, succeeds, hi]
      omega

/-- What is attempted for a transparent input: nothing without a key or a hint. -/
def transparentAttempt (pczt : Pczt) (usk : Option E.UnifiedSpendingKey)
    (info : Option (TransparentKeyScope × NonHardenedChildIndex)) (i : ℕ) :
    Option (Except String Unit) :=
  match usk, info with
  | some usk, some (scope, addrIdx) =>
    some (E.deriveSecretKey usk scope addrIdx >>= E.signTransparent pczt i)
  | _, _ => none

/-- The attempt for the transparent input at an index. -/
def attemptTransparent (pczt : Pczt) (usk : Option E.UnifiedSpendingKey) (i : ℕ) :
    Option (Except String Unit) :=
  (transparentDerivationInfo pczt)[i]?.bind fun info => transparentAttempt E pczt usk info i

variable {E}

/-- The loop over the transparent inputs is that of `sign_each`. -/
theorem signTransparentInputs_eq {pczt : Pczt} {usk : Option E.UnifiedSpendingKey}
    {attempt : ℕ → Option (Except String Unit)}
    (inputs : List (Option (TransparentKeyScope × NonHardenedChildIndex) × ℕ))
    (h : ∀ input ∈ inputs, attempt input.2 = transparentAttempt E pczt usk input.1 input.2)
    (report : ℕ × List ℕ) :
    signTransparentInputs E pczt usk inputs report =
      signEach attempt (inputs.map Prod.snd) report := by
  induction inputs generalizing report with
  | nil => rfl
  | cons input inputs ih =>
    obtain ⟨info, i⟩ := input
    obtain ⟨signed, unsigned⟩ := report
    rw [List.forall_mem_cons] at h
    obtain ⟨hi, hrest⟩ := h
    rw [List.map_cons, signEach, hi]
    cases usk with
    | none => exact ih hrest _
    | some usk =>
      cases info with
      | none => exact ih hrest _
      | some path =>
        obtain ⟨scope, addrIdx⟩ := path
        simp only [signTransparentInputs, transparentAttempt]
        cases hsk : E.deriveSecretKey usk scope addrIdx with
        | error e => exact ih hrest _
        | ok sk =>
          simp only [bind, Except.bind]
          cases E.signTransparent pczt i sk with
          | error e => exact ih hrest _
          | ok u =>
            cases u
            exact ih hrest _

theorem transparentLoop_eq (pczt : Pczt) (usk : Option E.UnifiedSpendingKey) :
    signTransparentInputs E pczt usk (transparentDerivationInfo pczt).zipIdx (0, []) =
      signEach (attemptTransparent E pczt usk) (List.range pczt.transparentInputs.length)
        (0, []) := by
  have hsnd : (transparentDerivationInfo pczt).zipIdx.map Prod.snd =
      List.range pczt.transparentInputs.length := by
    rw [List.zipIdx_map_snd, ← List.range_eq_range', transparentDerivationInfo, List.length_map]
  rw [← hsnd]
  refine signTransparentInputs_eq _ ?_ _
  intro input hinput
  have hget := List.mem_zipIdx_iff_getElem?.mp hinput
  rw [attemptTransparent, hget, Option.bind_some]

/-! ## The report -/

/-- Every index below `count` is signed now, unsigned or already signed, and only one of
    these; what is signed now is what was attempted with success. -/
structure Accounts (count : ℕ) (already : ℕ → Bool) (attempt : ℕ → Option (Except String Unit))
    (signed : ℕ) (unsigned : List ℕ) : Prop where
  once : ∃ done : List ℕ, done.length = signed ∧ (∀ i ∈ done, succeeds attempt i = true) ∧
    (done ++ unsigned ++ (List.range count).filter already).Perm (List.range count)
  unsigned_failed : ∀ i ∈ unsigned, succeeds attempt i = false
  increasing : unsigned.Pairwise (· < ·)

/-- A list split in those that satisfy `q`, and by `p` among the others. -/
theorem perm_split {α : Type} (p q : α → Bool) (l : List α) :
    ((l.filter fun a => !q a).filter p ++ ((l.filter fun a => !q a).filter fun a => !p a) ++
      l.filter q).Perm l := by
  have hinner := List.filter_append_perm p (l.filter fun a => !q a)
  have houter := List.filter_append_perm q l
  exact (hinner.append_right _).trans (List.perm_append_comm.trans houter)

/-- The report of `sign_each` over the indices that are not signed yet. -/
theorem accounts_signEach (count : ℕ) (already : ℕ → Bool)
    (attempt : ℕ → Option (Except String Unit)) {signed : ℕ} {unsigned : List ℕ}
    (h : signEach attempt ((List.range count).filter fun i => !already i) (0, []) =
      (signed, unsigned)) :
    Accounts count already attempt signed unsigned := by
  rw [signEach_eq, Nat.zero_add, List.nil_append, Prod.mk.injEq] at h
  obtain ⟨rfl, rfl⟩ := h
  refine ⟨⟨_, rfl, ?_, ?_⟩, ?_, ?_⟩
  · intro i hi
    exact (List.mem_filter.mp hi).2
  · exact perm_split (fun i => succeeds attempt i) already (List.range count)
  · intro i hi
    have hfails := (List.mem_filter.mp hi).2
    simpa using hfails
  · exact (List.pairwise_lt_range.filter _).filter _

/-- The report of `sign_each` over all indices. -/
theorem accounts_signEach_all (count : ℕ) (attempt : ℕ → Option (Except String Unit))
    {signed : ℕ} {unsigned : List ℕ}
    (h : signEach attempt (List.range count) (0, []) = (signed, unsigned)) :
    Accounts count (fun _ => false) attempt signed unsigned := by
  refine accounts_signEach count (fun _ => false) attempt ?_
  rw [← h]
  congr 1
  simp

/-- The report accounts for the inputs of every pool. -/
structure SignResult.AccountsFor (result : SignResult) (E : SigningCrates c) (pczt : Pczt)
    (usk : Option E.UnifiedSpendingKey) : Prop where
  transparent : Accounts pczt.transparentInputs.length (fun _ => false)
    (attemptTransparent E pczt usk) result.transparentSigned result.unsignedTransparent
  sapling : Accounts pczt.saplingSpends (fun _ => false)
    (fun i => usk.map (E.signSapling pczt i)) result.saplingSigned result.unsignedSapling
  orchard : Accounts pczt.orchardActions (pczt.presigned .Orchard)
    (fun i => usk.map (E.signOrchard pczt i)) result.orchardSigned result.unsignedOrchard
  ironwood : Accounts pczt.ironwoodActions (pczt.presigned .Ironwood)
    (fun i => usk.map (E.signIronwood pczt i)) result.ironwoodSigned result.unsignedIronwood

/-- No input is left unsigned. -/
def SignResult.AllSigned (result : SignResult) : Prop :=
  result.unsignedTransparent = [] ∧ result.unsignedSapling = [] ∧ result.unsignedOrchard = [] ∧
    result.unsignedIronwood = []

theorem signInputs_accounts (pczt : Pczt) (usk : Option E.UnifiedSpendingKey) (text : String) :
    ((signInputs E pczt usk).result text).AccountsFor E pczt usk where
  transparent := accounts_signEach_all _ _ (transparentLoop_eq pczt usk).symm
  sapling := accounts_signEach_all _ _ rfl
  orchard := accounts_signEach _ _ _ rfl
  ironwood := accounts_signEach _ _ _ rfl

theorem anyUnsigned_eq_false {signed : Signed} (text : String) :
    signed.anyUnsigned = false ↔ (signed.result text).AllSigned := by
  simp [Signed.anyUnsigned, SignResult.AllSigned, Signed.result, and_assoc]

/-- The check of a strict call. -/
theorem strictCheck_iff {signed : Signed} (strict : Option Bool) (text : String) :
    (strict.getD false && signed.anyUnsigned) = true ↔
      ¬ (strict.getD false = true → (signed.result text).AllSigned) := by
  rw [← anyUnsigned_eq_false, Bool.and_eq_true, Classical.not_imp, Bool.not_eq_false]

/-- When signing returns a report, and which. -/
theorem signWith_eq_ok {pczt : Pczt} {usk : Option E.UnifiedSpendingKey} {strict : Option Bool}
    {result : SignResult} :
    signWith E pczt usk strict = .ok result ↔
      E.signerNew pczt = .ok () ∧ (∃ text, E.finish pczt usk = .ok text ∧
        result = (signInputs E pczt usk).result text) ∧
      (strict.getD false = true → result.AllSigned) := by
  unfold signWith
  cases E.signerNew pczt with
  | error e => simp
  | ok u =>
    by_cases hcheck : (strict.getD false && (signInputs E pczt usk).anyUnsigned) = true
    · simp only [hcheck, if_true, reduceCtorEq, true_and, false_iff]
      rintro ⟨⟨text, -, rfl⟩, hall⟩
      exact (strictCheck_iff strict text).mp hcheck hall
    · simp only [hcheck, true_and]
      cases hfinish : E.finish pczt usk with
      | error e => simp
      | ok text =>
        have hall := not_not.mp (mt (strictCheck_iff strict text).mpr hcheck)
        constructor
        · intro h
          cases h
          exact ⟨⟨text, rfl, rfl⟩, hall⟩
        · rintro ⟨⟨text', htext, rfl⟩, -⟩
          cases htext
          rfl

theorem signWith_accounts {pczt : Pczt} {usk : Option E.UnifiedSpendingKey} {strict : Option Bool}
    {result : SignResult} (h : signWith E pczt usk strict = .ok result) :
    result.AccountsFor E pczt usk := by
  obtain ⟨-, ⟨text, -, rfl⟩, -⟩ := signWith_eq_ok.mp h
  exact signInputs_accounts pczt usk text

/-- A strict call differs from one that is not strict by the check of the lists. -/
theorem signWith_strict_iff {pczt : Pczt} {usk : Option E.UnifiedSpendingKey}
    {result : SignResult} :
    signWith E pczt usk (some true) = .ok result ↔
      signWith E pczt usk (some false) = .ok result ∧ result.AllSigned := by
  simp [signWith_eq_ok, and_assoc]

/-- When the PCZT of a call is read. -/
theorem readPczt_eq_ok {pcztBase64 : List Char} {privacyPolicy : Option String} {pczt : Pczt}
    {hints : Option SigningHints} :
    readPczt E pcztBase64 privacyPolicy = .ok (pczt, hints) ↔
      decodePcztBase64 E pcztBase64 = .ok pczt ∧
        (∃ acknowledged, parsePrivacyPolicy privacyPolicy = .ok acknowledged ∧
          checkPrivacyPolicy pczt acknowledged = .ok ()) ∧
        readSigningHints pczt = .ok hints := by
  simp only [readPczt, bind_eq_ok, pure, Except.pure, Except.ok.injEq, Prod.mk.injEq]
  constructor
  · rintro ⟨_, hdecode, acknowledged, hack, _, hcheck, _, hread, rfl, rfl⟩
    exact ⟨hdecode, ⟨acknowledged, hack, hcheck⟩, hread⟩
  · rintro ⟨hdecode, ⟨acknowledged, hack, hcheck⟩, hread⟩
    exact ⟨pczt, hdecode, acknowledged, hack, (), hcheck, hints, hread, rfl, rfl⟩

variable {contextDisplay} {W : Type} {C : Contract (keystoreSig c) W} {w w' : W}
  {τ : List (Event (keystoreSig c))} {pcztBase64 : List Char} {privacyPolicy : Option String}

/-- A call that returns a report: what it read, the key it located and its signing. -/
theorem run_pcztSign_iff {strict : Option Bool} {result : SignResult} :
    Run C (pcztSign E contextDisplay pcztBase64 privacyPolicy strict).run w τ (.ok result) w' ↔
      ∃ pczt hints usk, readPczt E pcztBase64 privacyPolicy = .ok (pczt, hints) ∧
        Run C (locateUsk E contextDisplay hints).run w τ (.ok usk) w' ∧
        signWith E pczt usk strict = .ok result := by
  unfold pcztSign
  simp only [run_bind_ok_iff, run_ofOutcome]
  constructor
  · rintro ⟨_, ⟨pczt, hints⟩, _, _, ⟨rfl, hread, rfl⟩, ⟨_, usk, _, _, husk, ⟨rfl, hsign, rfl⟩, rfl⟩,
      rfl⟩
    refine ⟨pczt, hints, usk, hread.symm, ?_, hsign.symm⟩
    rwa [List.nil_append, List.append_nil]
  · rintro ⟨pczt, hints, usk, hread, husk, hsign⟩
    exact ⟨[], (pczt, hints), w, τ, ⟨rfl, hread.symm, rfl⟩,
      ⟨τ, usk, w', [], husk, ⟨rfl, hsign.symm, rfl⟩, (List.append_nil τ).symm⟩, rfl⟩

/-- The report of a call accounts for the inputs of the PCZT it read, under the key it
    located. -/
theorem call_accounts {strict : Option Bool} {result : SignResult}
    (h : Run C (pcztSign E contextDisplay pcztBase64 privacyPolicy strict).run w τ (.ok result)
      w') :
    ∃ pczt hints usk, readPczt E pcztBase64 privacyPolicy = .ok (pczt, hints) ∧
      Run C (locateUsk E contextDisplay hints).run w τ (.ok usk) w' ∧
      result.AccountsFor E pczt usk := by
  obtain ⟨pczt, hints, usk, hread, husk, hsign⟩ := run_pcztSign_iff.mp h
  exact ⟨pczt, hints, usk, hread, husk, signWith_accounts hsign⟩

/-- A strict call returns a report exactly where the call that is not strict returns it
    with empty unsigned lists. -/
theorem call_strict_iff {result : SignResult} :
    Run C (pcztSign E contextDisplay pcztBase64 privacyPolicy (some true)).run w τ (.ok result)
        w' ↔
      Run C (pcztSign E contextDisplay pcztBase64 privacyPolicy (some false)).run w τ (.ok result)
        w' ∧ result.AllSigned := by
  rw [run_pcztSign_iff, run_pcztSign_iff]
  constructor
  · rintro ⟨pczt, hints, usk, hread, husk, hsign⟩
    obtain ⟨hsign, hall⟩ := signWith_strict_iff.mp hsign
    exact ⟨⟨pczt, hints, usk, hread, husk, hsign⟩, hall⟩
  · rintro ⟨⟨pczt, hints, usk, hread, husk, hsign⟩, hall⟩
    exact ⟨pczt, hints, usk, hread, husk, signWith_strict_iff.mpr ⟨hsign, hall⟩⟩

end

/-- Recorded hints are read back and a policy is accepted exactly when it is compatible
    with the recorded one; a report accounts for every input of each pool; and a strict
    call returns exactly the reports without unsigned inputs. -/
theorem hints_and_report {c : Crates} (E : SigningCrates c)
    (contextDisplay : String → Option String → String) :
    (∀ pczt requiredPolicy derivation metadata, pczt.Unhinted →
      metadata.length = pczt.transparentInputs.length →
      ∃ built, recordSigningHints pczt requiredPolicy derivation metadata = .ok built ∧
        readSigningHints built =
          .ok (derivation.map fun d => ⟨d.seedFingerprint, d.accountIndex⟩) ∧
        transparentDerivationInfo built =
          (metadata.map fun m => m.bind TransparentAddressMetadata.derived) ∧
        ∀ p, checkPrivacyPolicy built p = .ok () ↔ p.isCompatibleWith requiredPolicy = true) ∧
    (∀ (W : Type) (C : Contract (keystoreSig c) W) w τ w' pcztBase64 privacyPolicy strict result,
      Run C (pcztSign E contextDisplay pcztBase64 privacyPolicy strict).run w τ (.ok result) w' →
      ∃ pczt hints usk, readPczt E pcztBase64 privacyPolicy = .ok (pczt, hints) ∧
        Run C (locateUsk E contextDisplay hints).run w τ (.ok usk) w' ∧
        result.AccountsFor E pczt usk) ∧
    (∀ (W : Type) (C : Contract (keystoreSig c) W) w τ w' pcztBase64 privacyPolicy result,
      Run C (pcztSign E contextDisplay pcztBase64 privacyPolicy (some true)).run w τ (.ok result)
          w' ↔
        Run C (pcztSign E contextDisplay pcztBase64 privacyPolicy (some false)).run w τ
          (.ok result) w' ∧ result.AllSigned) := by
  refine ⟨?_, fun _ _ _ _ _ _ _ _ _ => call_accounts, fun _ _ _ _ _ _ _ _ => call_strict_iff⟩
  intro pczt requiredPolicy derivation metadata hpczt hlen
  exact ⟨pczt.hinted requiredPolicy derivation metadata,
    recordSigningHints_eq_ok.mpr ⟨hlen, rfl⟩, readSigningHints_hinted hpczt,
    derivationInfo_hinted hpczt hlen, checkPrivacyPolicy_hinted⟩

/-! ## A PCZT with two inputs -/

namespace TwoInputs

def pczt : Pczt where
  proprietary _ := none
  transparentInputs := [⟨fun _ => none⟩, ⟨fun _ => none⟩]
  saplingSpends := 1
  orchardActions := 2
  ironwoodActions := 0
  spendAuthSignatures := [(.Orchard, 1)]

def derivation : Zip32Derivation := ⟨⟨List.replicate 32 7, List.length_replicate⟩, ⟨3⟩⟩

/-- The first input is derived, the second one is not. -/
def metadata : List (Option TransparentAddressMetadata) :=
  [some ⟨some ⟨0⟩, some ⟨5⟩⟩, some ⟨none, none⟩]

theorem unhinted : pczt.Unhinted where
  account := Or.inl rfl
  inputs input h := by
    have hinput : input = ⟨fun _ => none⟩ := by simpa [pczt] using h
    rw [hinput]
    rfl

def built : Pczt := pczt.hinted .AllowRevealedSenders (some derivation) metadata

/-- Transparent inputs and Orchard actions can be signed, Sapling spends cannot. -/
def crates : SigningCrates OneOfEach.crates where
  UnifiedSpendingKey := List UInt8 × AccountId
  decodeBase64 text := (Base64.decode text).elim (.error "InvalidEncoding") .ok
  parse bytes := if bytes = [1] then .ok built else .error "NotPczt"
  uskFromSeed seed account := .ok (seed, account)
  deriveSecretKey _ _ _ := .ok (1 : UInt8)
  signerNew _ := .ok ()
  signTransparent _ _ _ := .ok ()
  signSapling _ _ _ := .error "InvalidSpend"
  signOrchard _ _ _ := .ok ()
  signIronwood _ _ _ := .ok ()
  finish _ _ := .ok "AQ=="

def usk : List UInt8 × AccountId := (List.replicate 32 7, ⟨3⟩)

def contextDisplay (kind : String) (source : Option String) : String :=
  kind ++ source.elim "" fun text => ": " ++ text

def keystore : KeyStore := ⟨[⟨"AGE-SECRET-KEY-1"⟩], .ok OneOfEach.tables⟩

/-- The second input has no hint, the spend cannot be signed, and the second action is
    signed already. -/
theorem result_two : (⟨"AQ==", 1, 0, 1, 0, [1], [0], [], []⟩ : SignResult) =
    (signInputs crates built (some usk)).result "AQ==" := by
  have htransparent : (signInputs crates built (some usk)).transparent = (1, [1]) := by
    show signTransparentInputs crates built (some usk) (transparentDerivationInfo built).zipIdx
      (0, []) = _
    have hinfo : transparentDerivationInfo built = [some (⟨0⟩, ⟨5⟩), none] :=
      derivationInfo_hinted unhinted rfl
    rw [hinfo]
    rfl
  unfold Signed.result
  rw [htransparent]
  rfl

theorem readPczt_built : readPczt crates ['A', 'Q', '=', '='] (some "NoPrivacy") =
    .ok (built, some ⟨derivation.seedFingerprint, derivation.accountIndex⟩) := by
  refine readPczt_eq_ok.mpr ⟨rfl, ⟨.NoPrivacy, rfl, ?_⟩, readSigningHints_hinted unhinted⟩
  exact (checkPrivacyPolicy_hinted _).mpr rfl

/-- The signing hints are read back, and the report of the call accounts for both
    transparent inputs, the spend and the two actions. -/
theorem hints_and_report_two :
    (∃ built, recordSigningHints pczt .AllowRevealedSenders (some derivation) metadata = .ok built ∧
      readSigningHints built = .ok (some ⟨derivation.seedFingerprint, derivation.accountIndex⟩) ∧
      transparentDerivationInfo built = [some (⟨0⟩, ⟨5⟩), none] ∧
      ∀ p, checkPrivacyPolicy built p = .ok () ↔
        p.isCompatibleWith .AllowRevealedSenders = true) ∧
    ∃ pczt hints usk, readPczt crates ['A', 'Q', '=', '='] (some "NoPrivacy") = .ok (pczt, hints) ∧
      Run (keystoreContract OneOfEach.crates) (locateUsk crates contextDisplay hints).run keystore
        [⟨.decryptSeed derivation.seedFingerprint, .ok (List.replicate 32 7)⟩] (.ok usk) keystore ∧
      (⟨"AQ==", 1, 0, 1, 0, [1], [0], [], []⟩ : SignResult).AccountsFor crates pczt usk := by
  refine ⟨(hints_and_report crates contextDisplay).1 pczt .AllowRevealedSenders (some derivation)
    metadata unhinted rfl, ?_⟩
  refine (hints_and_report crates contextDisplay).2.1 KeyStore
    (keystoreContract OneOfEach.crates) keystore _ keystore ['A', 'Q', '=', '='] (some "NoPrivacy")
    none _ ?_
  refine run_pcztSign_iff.mpr ⟨built, _, some usk, readPczt_built, ?_, ?_⟩
  · exact .step ⟨rfl, rfl⟩ (.refl _ _)
  · exact signWith_eq_ok.mpr ⟨rfl, ⟨"AQ==", rfl, result_two⟩, fun h => by cases h⟩

end TwoInputs

end Zallet.Spend
