import Zallet.Common.Base64
import Zallet.Common.Loop
import Zallet.Common.Text
import Zallet.Keystore.Locked
import Zallet.Rpc.Imports
import Zallet.Rpc.Privacy
import Zallet.Rpc.TransparentOutputs

/-!
# Signing hints of a PCZT

`pczt_create` records what `pczt_sign` needs in proprietary fields
(`zallet-core/src/components/json_rpc/methods`, pczt_create.rs lines 240–310), and
`pczt_sign` reads them back (pczt_common.rs lines 42–141, pczt_sign.rs lines 98–196).

A `Pczt` keeps the fields that the two read: the proprietary maps, the numbers of
shielded inputs, and the spend authorization signatures that
`extract_orchard_spend_auth_signatures` finds in it.

* `fromLeBytes_toLeBytes`, `decodeKeyScope_encodeKeyScope`: the byte layouts.
* `recordSigningHints_eq_ok`: when hints are recorded, and the PCZT with its hints.
* `readSigningHints_hinted`, `derivationInfo_hinted`, `checkPrivacyPolicy_hinted`: what is
  read back from it.
-/

namespace Zallet.Spend

open Zallet.Common Zallet.Common.Loop Zallet.Keystore
open Zallet.Rpc (RpcError LegacyCode PrivacyPolicy TransparentKeyScope NonHardenedChildIndex)

/-! ## Data -/

/-- `zip32::AccountId`. -/
structure AccountId where
  index : Fin (2 ^ 31)
  deriving DecidableEq

structure Zip32Derivation where
  seedFingerprint : SeedFingerprint
  accountIndex : AccountId
  deriving DecidableEq

/-- What the wallet knows of a transparent address. -/
structure TransparentAddressMetadata where
  scope : Option TransparentKeyScope
  addressIndex : Option NonHardenedChildIndex
  deriving DecidableEq

/-- The proprietary fields of one map of a PCZT. -/
abbrev Proprietary : Type := String → Option (List UInt8)

/-- `set_proprietary`. -/
def Proprietary.set (fields : Proprietary) (key : String) (value : List UInt8) : Proprietary :=
  Function.update fields key (some value)

structure TransparentInput where
  proprietary : Proprietary

inductive ValuePool
  | Orchard
  | Ironwood
  deriving DecidableEq

structure Pczt where
  proprietary : Proprietary
  transparentInputs : List TransparentInput
  saplingSpends : ℕ
  orchardActions : ℕ
  ironwoodActions : ℕ
  spendAuthSignatures : List (ValuePool × ℕ)

/-! ## Byte layouts -/

/-- `u32::to_le_bytes`. -/
def toLeBytes (value : ℕ) : List UInt8 :=
  [UInt8.ofNat value, UInt8.ofNat (value / 2 ^ 8), UInt8.ofNat (value / 2 ^ 16),
    UInt8.ofNat (value / 2 ^ 24)]

/-- `u32::from_le_bytes`, of a slice of four bytes. -/
def fromLeBytes : List UInt8 → Option ℕ
  | [a, b, c, d] => some (a.toNat + 2 ^ 8 * b.toNat + 2 ^ 16 * c.toNat + 2 ^ 24 * d.toNat)
  | _ => none

/-- `encode_key_scope` (lines 80–82). -/
def encodeKeyScope (scope : TransparentKeyScope) : ℕ := scope.childIndex.val

/-- `decode_key_scope` (lines 86–88). -/
def decodeKeyScope (value : ℕ) : Option TransparentKeyScope :=
  if h : value < 2 ^ 31 then some ⟨⟨value, h⟩⟩ else none

/-- `NonHardenedChildIndex::from_index`. -/
def fromIndex (value : ℕ) : Option NonHardenedChildIndex :=
  if h : value < 2 ^ 31 then some ⟨⟨value, h⟩⟩ else none

/-- `AccountId::try_from`. -/
def accountIdTryFrom (value : ℕ) : Option AccountId :=
  if h : value < 2 ^ 31 then some ⟨⟨value, h⟩⟩ else none

def PROP_SEED_FINGERPRINT : String := "zallet.v1.seed_fingerprint"

def PROP_PRIVACY_POLICY : String := "zallet.v1.privacy_policy"

def PROP_ACCOUNT_INDEX : String := "zallet.v1.account_index"

def PROP_SCOPE : String := "zallet.v1.scope"

def PROP_ADDRESS_INDEX : String := "zallet.v1.address_index"

/-- The name of a policy (payments.rs, lines 450–462). -/
def policyName : PrivacyPolicy → String
  | .FullPrivacy => "FullPrivacy"
  | .AllowRevealedAmounts => "AllowRevealedAmounts"
  | .AllowRevealedRecipients => "AllowRevealedRecipients"
  | .AllowRevealedSenders => "AllowRevealedSenders"
  | .AllowFullyTransparent => "AllowFullyTransparent"
  | .AllowLinkingAccountAddresses => "AllowLinkingAccountAddresses"
  | .NoPrivacy => "NoPrivacy"

/-- `PrivacyPolicy::from_str` (payments.rs, lines 471–483). -/
def policyFromStr (s : String) : Option PrivacyPolicy :=
  match s with
  | "FullPrivacy" => some .FullPrivacy
  | "AllowRevealedAmounts" => some .AllowRevealedAmounts
  | "AllowRevealedRecipients" => some .AllowRevealedRecipients
  | "AllowRevealedSenders" => some .AllowRevealedSenders
  | "AllowFullyTransparent" => some .AllowFullyTransparent
  | "AllowLinkingAccountAddresses" => some .AllowLinkingAccountAddresses
  | "NoPrivacy" => some .NoPrivacy
  | _ => none

/-! ## Writing -/

/-- The scope and the index of an address that has both. -/
def TransparentAddressMetadata.derived (metadata : TransparentAddressMetadata) :
    Option (TransparentKeyScope × NonHardenedChildIndex) :=
  match metadata.scope, metadata.addressIndex with
  | some scope, some addressIndex => some (scope, addressIndex)
  | _, _ => none

/-- Record the two hints of an input (lines 293–304). -/
def TransparentInput.record (input : TransparentInput)
    (path : TransparentKeyScope × NonHardenedChildIndex) : TransparentInput where
  proprietary := (input.proprietary.set PROP_SCOPE (toLeBytes (encodeKeyScope path.1))).set
    PROP_ADDRESS_INDEX (toLeBytes path.2.index.val)

/-- The loop over the metadata (lines 287–308); the updater refuses an index that is out
    of range. -/
def recordInputs : ℕ → List (Option TransparentAddressMetadata) → List TransparentInput →
    Except String (List TransparentInput)
  | _, [], inputs => .ok inputs
  | index, metadata :: rest, inputs =>
    match metadata.bind TransparentAddressMetadata.derived with
    | none => recordInputs (index + 1) rest inputs
    | some path =>
      match inputs[index]? with
      | none => .error "InvalidIndex"
      | some input => recordInputs (index + 1) rest (inputs.set index (input.record path))

/-- The global hints (lines 270–285). -/
def recordGlobal (fields : Proprietary) (requiredPolicy : PrivacyPolicy)
    (derivation : Option Zip32Derivation) : Proprietary :=
  let fields := fields.set PROP_PRIVACY_POLICY (Text.utf8 (policyName requiredPolicy).toList)
  match derivation with
  | none => fields
  | some derivation =>
    (fields.set PROP_SEED_FINGERPRINT derivation.seedFingerprint.bytes).set PROP_ACCOUNT_INDEX
      (toLeBytes derivation.accountIndex.index.val)

/-- `build_pczt` once the PCZT is created and the metadata of its transparent inputs is
    collected (lines 258–310). -/
def recordSigningHints (pczt : Pczt) (requiredPolicy : PrivacyPolicy)
    (derivation : Option Zip32Derivation)
    (inputMetadata : List (Option TransparentAddressMetadata)) :
    Except RpcError Pczt :=
  if inputMetadata.length ≠ pczt.transparentInputs.length then
    .error (LegacyCode.Misc.withMessage "Internal error: transparent input count mismatch")
  else
    match recordInputs 0 inputMetadata pczt.transparentInputs with
    | .error e => .error (LegacyCode.Wallet.withMessage
        ("Failed to record transparent signing hints: " ++ e))
    | .ok inputs => .ok { pczt with
        proprietary := recordGlobal pczt.proprietary requiredPolicy derivation
        transparentInputs := inputs }

/-! ## Reading -/

structure SigningHints where
  seedFp : SeedFingerprint
  accountIdx : AccountId
  deriving DecidableEq

/-- `SeedFingerprint::from_bytes`, of a slice of 32 bytes. -/
def seedFingerprintFromSlice (bytes : List UInt8) : Option SeedFingerprint :=
  if h : bytes.length = 32 then some ⟨bytes, h⟩ else none

/-- `read_signing_hints` (pczt_common.rs, lines 110–144). -/
def readSigningHints (pczt : Pczt) : Except RpcError (Option SigningHints) :=
  match pczt.proprietary PROP_SEED_FINGERPRINT, pczt.proprietary PROP_ACCOUNT_INDEX with
  | some seedFpBytes, some accountIdxBytes =>
    match seedFingerprintFromSlice seedFpBytes with
    | none => .error (LegacyCode.InvalidParameter.withMessage
        "Invalid seed fingerprint: expected 32 bytes")
    | some seedFp =>
      match fromLeBytes accountIdxBytes with
      | none => .error (LegacyCode.InvalidParameter.withMessage
          "Invalid account index: expected 4 bytes")
      | some index =>
        match accountIdTryFrom index with
        | none => .error (LegacyCode.InvalidParameter.withMessage
            ("Invalid account index: " ++ toString index ++ " is out of range"))
        | some accountIdx => .ok (some ⟨seedFp, accountIdx⟩)
  | _, _ => .ok none

/-- The derivation hint of one input (pczt_sign.rs, lines 162–195). -/
def TransparentInput.derivationInfo (input : TransparentInput) :
    Option (TransparentKeyScope × NonHardenedChildIndex) := do
  let scopeBytes ← input.proprietary PROP_SCOPE
  let addrIdxBytes ← input.proprietary PROP_ADDRESS_INDEX
  let scopeU32 ← fromLeBytes scopeBytes
  let addrIdxU32 ← fromLeBytes addrIdxBytes
  let scope ← decodeKeyScope scopeU32
  let addrIdx ← fromIndex addrIdxU32
  pure (scope, addrIdx)

/-- `transparent_derivation_info` (pczt_sign.rs, lines 158–196). -/
def transparentDerivationInfo (pczt : Pczt) :
    List (Option (TransparentKeyScope × NonHardenedChildIndex)) :=
  pczt.transparentInputs.map TransparentInput.derivationInfo

/-- `check_privacy_policy` (pczt_sign.rs, lines 104–125). -/
def checkPrivacyPolicy (pczt : Pczt) (acknowledged : PrivacyPolicy) : Except RpcError Unit :=
  match pczt.proprietary PROP_PRIVACY_POLICY with
  | none => .ok ()
  | some recorded =>
    match (Text.fromUtf8 recorded).bind fun text => policyFromStr (String.ofList text) with
    | none => .error (LegacyCode.InvalidParameter.withMessage
        "The privacy policy recorded in the PCZT is unrecognized.")
    | some required =>
      if acknowledged.isCompatibleWith required then .ok ()
      else .error (LegacyCode.InvalidParameter.withMessage
        ("This transaction requires the privacy policy " ++ policyName required ++
          ", which the\nsupplied policy " ++ policyName acknowledged ++ " does not acknowledge."))

/-- `parse_privacy_policy` (payments.rs, lines 777–787). -/
def parsePrivacyPolicy : Option String → Except RpcError PrivacyPolicy
  | none => .ok .FullPrivacy
  | some s =>
    if s = "LegacyCompat" then
      .error (LegacyCode.InvalidParameter.withMessage
        "LegacyCompat privacy policy is unsupported in Zallet")
    else
      match policyFromStr s with
      | some policy => .ok policy
      | none => .error (LegacyCode.InvalidParameter.withMessage ("Unknown privacy policy " ++ s))

/-! ## Reading what was written -/

theorem fromLeBytes_toLeBytes {value : ℕ} (h : value < 2 ^ 32) :
    fromLeBytes (toLeBytes value) = some value := by
  simp only [toLeBytes, fromLeBytes, UInt8.toNat_ofNat', Option.some.injEq]
  omega

theorem decodeKeyScope_encodeKeyScope (scope : TransparentKeyScope) :
    decodeKeyScope (encodeKeyScope scope) = some scope :=
  dif_pos scope.childIndex.isLt

theorem fromIndex_index (addressIndex : NonHardenedChildIndex) :
    fromIndex addressIndex.index.val = some addressIndex :=
  dif_pos addressIndex.index.isLt

theorem accountIdTryFrom_index (account : AccountId) :
    accountIdTryFrom account.index.val = some account :=
  dif_pos account.index.isLt

theorem seedFingerprintFromSlice_bytes (seedFp : SeedFingerprint) :
    seedFingerprintFromSlice seedFp.bytes = some seedFp :=
  dif_pos seedFp.length_eq

theorem policyFromStr_policyName (policy : PrivacyPolicy) :
    policyFromStr (policyName policy) = some policy := by
  cases policy <;> rfl

theorem set_self (fields : Proprietary) (key : String) (value : List UInt8) :
    fields.set key value key = some value :=
  Function.update_self _ _ _

theorem set_of_ne {key key' : String} (h : key' ≠ key) (fields : Proprietary)
    (value : List UInt8) : fields.set key value key' = fields key' :=
  Function.update_of_ne h _ _

/-- The PCZT carries no hints, as those that the wallet backend creates. -/
structure Pczt.Unhinted (pczt : Pczt) : Prop where
  account :
    pczt.proprietary PROP_SEED_FINGERPRINT = none ∨ pczt.proprietary PROP_ACCOUNT_INDEX = none
  inputs : ∀ input ∈ pczt.transparentInputs, input.derivationInfo = none

theorem derivationInfo_recordInput (input : TransparentInput)
    (path : TransparentKeyScope × NonHardenedChildIndex) :
    (input.record path).derivationInfo = some path := by
  have hscope : encodeKeyScope path.1 < 2 ^ 32 := by
    have hlt := path.1.childIndex.isLt
    unfold encodeKeyScope
    omega
  have hindex : path.2.index.val < 2 ^ 32 := by
    have hlt := path.2.index.isLt
    omega
  have hne : PROP_SCOPE ≠ PROP_ADDRESS_INDEX := by decide
  simp [TransparentInput.derivationInfo, TransparentInput.record, set_self, set_of_ne hne,
    fromLeBytes_toLeBytes hscope, fromLeBytes_toLeBytes hindex, decodeKeyScope_encodeKeyScope,
    fromIndex_index]

/-- What the loop makes of an input. -/
def TransparentInput.recordHint (input : TransparentInput)
    (metadata : Option TransparentAddressMetadata) : TransparentInput :=
  (metadata.bind TransparentAddressMetadata.derived).elim input input.record

/-- The loop records the hint of each input at its own position. -/
theorem recordInputs_eq (metadata : List (Option TransparentAddressMetadata))
    (done rest : List TransparentInput) (h : metadata.length = rest.length) :
    recordInputs done.length metadata (done ++ rest) =
      .ok (done ++ List.zipWith TransparentInput.recordHint rest metadata) := by
  induction metadata generalizing done rest with
  | nil =>
    obtain rfl : rest = [] := List.eq_nil_of_length_eq_zero h.symm
    rfl
  | cons m metadata ih =>
    obtain ⟨input, rest, rfl⟩ := List.exists_cons_of_length_eq_add_one h.symm
    have hlen : metadata.length = rest.length := Nat.succ.inj h
    have hget : (done ++ input :: rest)[done.length]? = some input := by simp
    have hset : ∀ input', (done ++ input :: rest).set done.length input' =
        (done ++ [input']) ++ rest := by simp
    have hnext : ∀ input', (done ++ [input']).length = done.length + 1 := by simp
    rw [recordInputs, List.zipWith_cons_cons, TransparentInput.recordHint]
    cases m.bind TransparentAddressMetadata.derived with
    | none =>
      have hinputs : done ++ input :: rest = (done ++ [input]) ++ rest := by simp
      have hrec := ih (done ++ [input]) rest hlen
      rw [hnext, ← hinputs] at hrec
      simpa using hrec
    | some path =>
      have hrec := ih (done ++ [input.record path]) rest hlen
      rw [hnext, ← hset] at hrec
      simp only [hget]
      simpa using hrec

theorem derivationInfo_recordHint {input : TransparentInput} (h : input.derivationInfo = none)
    (metadata : Option TransparentAddressMetadata) :
    (input.recordHint metadata).derivationInfo =
      metadata.bind TransparentAddressMetadata.derived := by
  unfold TransparentInput.recordHint
  cases metadata.bind TransparentAddressMetadata.derived with
  | none => exact h
  | some path => exact derivationInfo_recordInput input path

section

variable {pczt built : Pczt} {requiredPolicy : PrivacyPolicy}
  {derivation : Option Zip32Derivation} {metadata : List (Option TransparentAddressMetadata)}

/-- The PCZT with its hints. -/
def Pczt.hinted (pczt : Pczt) (requiredPolicy : PrivacyPolicy) (derivation : Option Zip32Derivation)
    (metadata : List (Option TransparentAddressMetadata)) : Pczt :=
  { pczt with
    proprietary := recordGlobal pczt.proprietary requiredPolicy derivation
    transparentInputs :=
      List.zipWith TransparentInput.recordHint pczt.transparentInputs metadata }

/-- Recording succeeds exactly where there is one metadata for each input. -/
theorem recordSigningHints_eq_ok :
    recordSigningHints pczt requiredPolicy derivation metadata = .ok built ↔
      metadata.length = pczt.transparentInputs.length ∧
        built = pczt.hinted requiredPolicy derivation metadata := by
  unfold recordSigningHints
  by_cases hlen : metadata.length = pczt.transparentInputs.length
  · have hinputs := recordInputs_eq metadata [] pczt.transparentInputs hlen
    rw [List.length_nil, List.nil_append, List.nil_append] at hinputs
    rw [if_neg (not_not.mpr hlen), hinputs, Except.ok.injEq]
    exact ⟨fun h => ⟨hlen, h.symm⟩, fun h => h.2.symm⟩
  · rw [if_pos hlen]
    simp [hlen]

/-- The seed fingerprint and the account index are read back. -/
theorem readSigningHints_hinted (h : pczt.Unhinted) :
    readSigningHints (pczt.hinted requiredPolicy derivation metadata) =
      .ok (derivation.map fun d => ⟨d.seedFingerprint, d.accountIndex⟩) := by
  have hfp : PROP_SEED_FINGERPRINT ≠ PROP_PRIVACY_POLICY := by decide
  have hidx : PROP_ACCOUNT_INDEX ≠ PROP_PRIVACY_POLICY := by decide
  have hne : PROP_SEED_FINGERPRINT ≠ PROP_ACCOUNT_INDEX := by decide
  unfold readSigningHints Pczt.hinted recordGlobal
  cases derivation with
  | none =>
    simp only [set_of_ne hfp, set_of_ne hidx, Option.map_none]
    rcases h.account with h | h
    · simp [h]
    · simp [h]
  | some d =>
    have hlt : d.accountIndex.index.val < 2 ^ 32 := by
      have hindex := d.accountIndex.index.isLt
      omega
    simp [set_of_ne hne, set_self, seedFingerprintFromSlice_bytes, fromLeBytes_toLeBytes hlt,
      accountIdTryFrom_index]

/-- The derivation hints are read back at their positions. -/
theorem derivationInfo_hinted (h : pczt.Unhinted)
    (hlen : metadata.length = pczt.transparentInputs.length) :
    transparentDerivationInfo (pczt.hinted requiredPolicy derivation metadata) =
      metadata.map fun m => m.bind TransparentAddressMetadata.derived := by
  have hinputs := h.inputs
  unfold transparentDerivationInfo Pczt.hinted
  generalize pczt.transparentInputs = inputs at hlen hinputs
  induction metadata generalizing inputs with
  | nil => simp
  | cons m metadata ih =>
    obtain ⟨input, inputs, rfl⟩ := List.exists_cons_of_length_eq_add_one hlen.symm
    rw [List.forall_mem_cons] at hinputs
    simp only [List.zipWith_cons_cons, List.map_cons, derivationInfo_recordHint hinputs.1]
    exact congrArg _ (ih inputs (Nat.succ.inj hlen) hinputs.2)

/-- A policy is accepted exactly when it is compatible with the recorded one. -/
theorem checkPrivacyPolicy_hinted (p : PrivacyPolicy) :
    checkPrivacyPolicy (pczt.hinted requiredPolicy derivation metadata) p = .ok () ↔
      p.isCompatibleWith requiredPolicy = true := by
  have hfp : PROP_PRIVACY_POLICY ≠ PROP_SEED_FINGERPRINT := by decide
  have hidx : PROP_PRIVACY_POLICY ≠ PROP_ACCOUNT_INDEX := by decide
  have hrecorded : (pczt.hinted requiredPolicy derivation metadata).proprietary
      PROP_PRIVACY_POLICY = some (Text.utf8 (policyName requiredPolicy).toList) := by
    unfold Pczt.hinted recordGlobal
    cases derivation with
    | none => simp only [set_self]
    | some d => simp only [set_of_ne hfp, set_of_ne hidx, set_self]
  have htext : Text.fromUtf8 (Text.utf8 (policyName requiredPolicy).toList) =
      some (policyName requiredPolicy).toList := Text.fromUtf8_eq_some.mpr rfl
  unfold checkPrivacyPolicy
  rw [hrecorded]
  simp only [htext, Option.bind_some, String.ofList_toList, policyFromStr_policyName]
  by_cases hp : p.isCompatibleWith requiredPolicy = true
  · simp [hp]
  · simp [hp]

end

end Zallet.Spend
