import Zallet.Rpc.Amounts
import Zallet.Rpc.DecodeScript

/-!
# The JSON of a transaction

`tx_to_json` and its encoders
(`zallet-core/src/components/json_rpc/methods/get_raw_transaction.rs`, lines 93–472 and 566–811), and
`decoderawtransaction` (decode_raw_transaction.rs, lines 19–34).

The outputs are numbered by a counter of 16 bits, which steps once more than it is read.
Its overflow is a panic in builds with overflow checks; without them it wraps. A text that
stands for bytes is the list of its characters.

* `txToJson_wraps`: without the checks the JSON shows all components of the transaction,
  with the indices of the outputs modulo 65536.
* `lossless_iff`: nothing overflows and nothing is lost exactly where there are fewer than
  65536 outputs.
-/

namespace Zallet.Rpc.TxToJson

open Zallet.Common Zallet.Common.Text

/-! ## Transactions -/

/-- `ZatBalance`. -/
structure ZatBalance where
  value : ℤ
  abs_le : |value| ≤ maxMoney
  deriving DecidableEq

/-- `TxVersion`. -/
inductive TxVersion
  | Sprout (version : ℕ)
  | V3
  | V4
  | V5
  | V6
  deriving DecidableEq

/-- What the encoder asks of a version. -/
structure Versions where
  hasOverwinter : TxVersion → Bool
  header : TxVersion → ℕ
  versionGroupId : TxVersion → ℕ
  hasOrchard : TxVersion → Bool
  hasIronwood : TxVersion → Bool

structure TxIn where
  prevoutHash : List UInt8
  prevoutN : ℕ
  scriptSig : List UInt8
  sequence : ℕ
  deriving DecidableEq

structure TxOut where
  value : Zatoshis
  scriptPubkey : List UInt8
  deriving DecidableEq

structure TransparentBundle where
  vin : List TxIn
  vout : List TxOut
  deriving DecidableEq

/-- `Bundle::is_coinbase`: a single input, whose outpoint is null. -/
def TransparentBundle.isCoinbase (bundle : TransparentBundle) : Bool :=
  match bundle.vin with
  | [txIn] => txIn.prevoutHash == List.replicate 32 0 && txIn.prevoutN == 2 ^ 32 - 1
  | _ => false

structure SpendDescription where
  cv : List UInt8
  anchor : List UInt8
  nullifier : List UInt8
  rk : List UInt8
  zkproof : List UInt8
  spendAuthSig : List UInt8
  deriving DecidableEq

structure OutputDescription where
  cv : List UInt8
  cmu : List UInt8
  ephemeralKey : List UInt8
  encCiphertext : List UInt8
  outCiphertext : List UInt8
  zkproof : List UInt8
  deriving DecidableEq

structure SaplingBundle where
  shieldedSpends : List SpendDescription
  shieldedOutputs : List OutputDescription
  valueBalance : ZatBalance
  bindingSig : List UInt8
  deriving DecidableEq

/-- `orchard::Action`. -/
structure Action where
  cvNet : List UInt8
  nullifier : List UInt8
  rk : List UInt8
  cmx : List UInt8
  epkBytes : List UInt8
  encCiphertext : List UInt8
  outCiphertext : List UInt8
  authorization : List UInt8
  deriving DecidableEq

/-- `orchard::Bundle`. -/
structure OrchardBundle where
  actions : List Action
  spendsEnabled : Bool
  outputsEnabled : Bool
  valueBalance : ZatBalance
  anchor : List UInt8
  proof : List UInt8
  bindingSignature : List UInt8
  deriving DecidableEq

/-- `zcash_primitives::transaction::Transaction`. Only a version that has a pool has a
    bundle of it. -/
structure TransactionData (V : Versions) where
  txid : List UInt8
  authCommitment : List UInt8
  version : TxVersion
  lockTime : ℕ
  expiryHeight : ℕ
  transparentBundle : Option TransparentBundle
  saplingBundle : Option SaplingBundle
  orchardBundle : Option OrchardBundle
  ironwoodBundle : Option OrchardBundle
  hasOrchard : orchardBundle.isSome → V.hasOrchard version = true
  hasIronwood : ironwoodBundle.isSome → V.hasIronwood version = true

/-! ## The JSON -/

/-- `TransparentScriptSig` (lines 232–239). -/
structure TransparentScriptSig where
  asm : String
  hex : List Char
  deriving DecidableEq

/-- `TransparentInput` (lines 203–230). -/
structure TransparentInput where
  coinbase : Option (List Char)
  txid : Option (List Char)
  vout : Option ℕ
  scriptSig : Option TransparentScriptSig
  sequence : ℕ
  deriving DecidableEq

/-- `TransparentScriptPubKey` (lines 261–268). -/
structure TransparentScriptPubKey where
  hex : List Char
  inner : TransparentScript
  deriving DecidableEq

/-- `TransparentOutput` (lines 241–259). -/
structure TransparentOutput (Decimal : Type) where
  value : Decimal
  valueZat : ℕ
  valueSat : ℕ
  n : UInt16
  scriptPubKey : TransparentScriptPubKey

/-- `SaplingSpend` (lines 326–354). -/
structure SaplingSpend where
  cv : List Char
  anchor : List Char
  nullifier : List Char
  rk : List Char
  proof : List Char
  spendAuthSig : List Char
  deriving DecidableEq

/-- `SaplingOutput` (lines 356–385). -/
structure SaplingOutput where
  cv : List Char
  cmu : List Char
  ephemeralKey : List Char
  encCiphertext : List Char
  outCiphertext : List Char
  proof : List Char
  deriving DecidableEq

/-- `OrchardAction` (lines 429–461). -/
structure OrchardAction where
  cv : List Char
  nullifier : List Char
  rk : List Char
  cmx : List Char
  ephemeralKey : List Char
  encCiphertext : List Char
  outCiphertext : List Char
  spendAuthSig : List Char
  deriving DecidableEq

/-- `OrchardFlags` (lines 463–472). -/
structure OrchardFlags where
  enableSpends : Bool
  enableOutputs : Bool
  deriving DecidableEq

/-- `Orchard` (lines 387–427). -/
structure Orchard (Decimal : Type) where
  actions : List OrchardAction
  valueBalance : Decimal
  valueBalanceZat : ℤ
  flags : Option OrchardFlags
  anchor : Option (List Char)
  proof : Option (List Char)
  bindingSig : Option (List Char)

/-- `TransactionDetails` (lines 93–201). -/
structure TransactionDetails (Decimal : Type) where
  txid : List Char
  authdigest : List Char
  size : ℕ
  overwintered : Bool
  version : ℕ
  versiongroupid : Option (List Char)
  locktime : ℕ
  expiryheight : Option ℕ
  vin : List TransparentInput
  vout : List (TransparentOutput Decimal)
  valueBalance : Option Decimal
  valueBalanceZat : Option ℤ
  vShieldedSpend : Option (List SaplingSpend)
  vShieldedOutput : Option (List SaplingOutput)
  bindingSig : Option (List Char)
  orchard : Option (Orchard Decimal)
  ironwood : Option (Orchard Decimal)

/-! ## The encoders -/

/-- `ReverseHex::encode`, and `to_string` of a transaction id. -/
def reverseHex (bytes : List UInt8) : List Char := hexEncode bytes.reverse

/-- `{:08x}`. -/
def hex08 (n : ℕ) : List Char :=
  [7, 6, 5, 4, 3, 2, 1, 0].map fun i => hexDigit (n / 16 ^ i % 16)

/-- The counter of `zip(0..)`, from `n` on. It steps before what it yielded is used; `none`
    is the panic of a build with overflow checks. -/
def zipCounter {α : Type} (overflowChecks : Bool) : UInt16 → List α → Option (List (α × UInt16))
  | _, [] => some []
  | n, a :: l =>
    if overflowChecks && n == 65535 then none
    else (zipCounter overflowChecks (n + 1) l).map fun rest => (a, n) :: rest

section

variable {Decimal : Type} (decimals : Decimals Decimal) (K : Codecs) (S : Solver) {V : Versions}

/-- `TransparentInput::encode` (lines 677–706). -/
def TransparentInput.encode (txIn : TxIn) (isCoinbase : Bool) : TransparentInput :=
  let scriptHex := hexEncode txIn.scriptSig
  if isCoinbase then ⟨some scriptHex, none, none, none, txIn.sequence⟩
  else
    -- There may be signatures in the script.
    let asm := S.toAsm txIn.scriptSig true
    ⟨none, some (reverseHex txIn.prevoutHash), some txIn.prevoutN, some ⟨asm, scriptHex⟩,
      txIn.sequence⟩

/-- `TransparentOutput::encode` (lines 708–726). -/
def TransparentOutput.encode (output : TxOut × UInt16) : TransparentOutput Decimal :=
  let (txOut, n) := output
  { value := valueFromZatoshis decimals txOut.value
    valueZat := txOut.value.value
    valueSat := txOut.value.value
    n := n
    scriptPubKey := ⟨hexEncode txOut.scriptPubkey, scriptToJson K S txOut.scriptPubkey⟩ }

/-- `SaplingSpend::encode` (lines 736–747). -/
def SaplingSpend.encode (spend : SpendDescription) : SaplingSpend where
  cv := reverseHex spend.cv
  anchor := reverseHex spend.anchor
  nullifier := reverseHex spend.nullifier
  rk := reverseHex spend.rk
  proof := hexEncode spend.zkproof
  spendAuthSig := hexEncode spend.spendAuthSig

/-- `SaplingOutput::encode` (lines 749–760). -/
def SaplingOutput.encode (output : OutputDescription) : SaplingOutput where
  cv := reverseHex output.cv
  cmu := reverseHex output.cmu
  ephemeralKey := reverseHex output.ephemeralKey
  encCiphertext := hexEncode output.encCiphertext
  outCiphertext := hexEncode output.outCiphertext
  proof := hexEncode output.zkproof

/-- `OrchardAction::encode` (lines 794–811). -/
def OrchardAction.encode (action : Action) : OrchardAction where
  cv := hexEncode action.cvNet
  nullifier := hexEncode action.nullifier
  rk := hexEncode action.rk
  cmx := hexEncode action.cmx
  ephemeralKey := hexEncode action.epkBytes
  encCiphertext := hexEncode action.encCiphertext
  outCiphertext := hexEncode action.outCiphertext
  spendAuthSig := hexEncode action.authorization

/-- `Orchard::encode` (lines 762–792). -/
def Orchard.encode : Option OrchardBundle → Orchard Decimal
  | none => ⟨[], valueFromZatBalance decimals 0, 0, none, none, none, none⟩
  | some bundle =>
    { actions := bundle.actions.map OrchardAction.encode
      valueBalance := valueFromZatBalance decimals bundle.valueBalance.value
      valueBalanceZat := bundle.valueBalance.value
      flags := some ⟨bundle.spendsEnabled, bundle.outputsEnabled⟩
      anchor := some (hexEncode bundle.anchor)
      proof := some (hexEncode bundle.proof)
      bindingSig := some (hexEncode bundle.bindingSignature) }

/-- `matches!(tx.version(), TxVersion::Sprout(_) | TxVersion::V3)`. -/
def TxVersion.isBeforeV4 : TxVersion → Bool
  | Sprout _ | V3 => true
  | _ => false

/-- `vin` and `vout` (lines 574–591). -/
def transparentJson (overflowChecks : Bool) :
    Option TransparentBundle → Option (List TransparentInput × List (TransparentOutput Decimal))
  | some bundle => do
    let vout ← zipCounter overflowChecks 0 bundle.vout
    some (bundle.vin.map fun txIn => TransparentInput.encode S txIn bundle.isCoinbase,
      vout.map (TransparentOutput.encode decimals K S))
  | none => some ([], [])

/-- The fields of the Sapling bundle. -/
structure SaplingJson (Decimal : Type) where
  valueBalance : Option Decimal
  valueBalanceZat : Option ℤ
  vShieldedSpend : Option (List SaplingSpend)
  vShieldedOutput : Option (List SaplingOutput)
  bindingSig : Option (List Char)

/-- These fields (lines 603–636). Without a bundle they are omitted before version 4, and
    empty from then on. -/
def saplingJson (version : TxVersion) : Option SaplingBundle → SaplingJson Decimal
  | some bundle =>
    { valueBalance := some (valueFromZatBalance decimals bundle.valueBalance.value)
      valueBalanceZat := some bundle.valueBalance.value
      vShieldedSpend := some (bundle.shieldedSpends.map SaplingSpend.encode)
      vShieldedOutput := some (bundle.shieldedOutputs.map SaplingOutput.encode)
      bindingSig := some (hexEncode bundle.bindingSig) }
  | none =>
    if version.isBeforeV4 then ⟨none, none, none, none, none⟩
    else ⟨some (valueFromZatBalance decimals 0), some 0, some [], some [], none⟩

/-- `tx_to_json` (lines 566–675). -/
def txToJson (overflowChecks : Bool) (tx : TransactionData V) (size : ℕ) :
    Option (TransactionDetails Decimal) := do
  let overwintered := V.hasOverwinter tx.version
  let (vin, vout) ← transparentJson decimals K S overflowChecks tx.transparentBundle
  let sapling := saplingJson decimals tx.version tx.saplingBundle
  some {
    txid := reverseHex tx.txid
    authdigest := reverseHex tx.authCommitment
    size := size
    overwintered := overwintered
    version := V.header tx.version &&& 0x7FFFFFFF
    versiongroupid := if overwintered then some (hex08 (V.versionGroupId tx.version)) else none
    locktime := tx.lockTime
    expiryheight := if overwintered then some tx.expiryHeight else none
    vin := vin
    vout := vout
    valueBalance := sapling.valueBalance
    valueBalanceZat := sapling.valueBalanceZat
    vShieldedSpend := sapling.vShieldedSpend
    vShieldedOutput := sapling.vShieldedOutput
    bindingSig := sapling.bindingSig
    orchard :=
      if V.hasOrchard tx.version then some (Orchard.encode decimals tx.orchardBundle) else none
    ironwood :=
      if V.hasIronwood tx.version then some (Orchard.encode decimals tx.ironwoodBundle) else none }

/-- `decoderawtransaction`; `none` is a panic. `read` is `Transaction::read`. -/
def decoderawtransaction (overflowChecks : Bool)
    (read : List UInt8 → Option (TransactionData V)) (hexstring : List Char) :
    Option (Except RpcError (TransactionDetails Decimal)) :=
  match hexDecode hexstring with
  | none => some (.error (deserializationError "TX decode failed"))
  | some txBytes =>
    match read txBytes with
    | none => some (.error (deserializationError "TX decode failed"))
    | some tx => (txToJson decimals K S overflowChecks tx txBytes.length).map .ok

end

/-! ## What the JSON shows -/

/-- The text spells the bytes. -/
def Spells (text : List Char) (bytes : List UInt8) : Prop := hexDecode text = some bytes

theorem spells_hexEncode (bytes : List UInt8) : Spells (hexEncode bytes) bytes :=
  hexDecode_hexEncode bytes

theorem spells_reverseHex (bytes : List UInt8) : Spells (reverseHex bytes) bytes.reverse :=
  hexDecode_hexEncode bytes.reverse

structure ShowsInput (isCoinbase : Bool) (txIn : TxIn) (entry : TransparentInput) : Prop where
  sequence : entry.sequence = txIn.sequence
  coinbase : isCoinbase = true → ∃ text ∈ entry.coinbase, Spells text txIn.scriptSig
  txid : isCoinbase = false → ∃ text ∈ entry.txid, Spells text txIn.prevoutHash.reverse
  vout : isCoinbase = false → entry.vout = some txIn.prevoutN
  scriptSig : isCoinbase = false → ∃ script ∈ entry.scriptSig, Spells script.hex txIn.scriptSig

/-- An amount of coins and one of zatoshis are the same. -/
def SameAmount {Decimal : Type} (value : Decimal → ℚ) (zec : Decimal) (zat : ℤ) : Prop :=
  value zec = zat / 10 ^ 8

structure ShowsOutput {Decimal : Type} (value : Decimal → ℚ) (index : ℕ) (txOut : TxOut)
    (entry : TransparentOutput Decimal) : Prop where
  n : entry.n.toNat = index
  valueZat : entry.valueZat = txOut.value.value
  valueSat : entry.valueSat = txOut.value.value
  value : SameAmount value entry.value entry.valueZat
  scriptPubKey : Spells entry.scriptPubKey.hex txOut.scriptPubkey

structure ShowsSpend (spend : SpendDescription) (entry : SaplingSpend) : Prop where
  cv : Spells entry.cv spend.cv.reverse
  anchor : Spells entry.anchor spend.anchor.reverse
  nullifier : Spells entry.nullifier spend.nullifier.reverse
  rk : Spells entry.rk spend.rk.reverse
  proof : Spells entry.proof spend.zkproof
  spendAuthSig : Spells entry.spendAuthSig spend.spendAuthSig

structure ShowsSaplingOutput (output : OutputDescription) (entry : SaplingOutput) : Prop where
  cv : Spells entry.cv output.cv.reverse
  cmu : Spells entry.cmu output.cmu.reverse
  ephemeralKey : Spells entry.ephemeralKey output.ephemeralKey.reverse
  encCiphertext : Spells entry.encCiphertext output.encCiphertext
  outCiphertext : Spells entry.outCiphertext output.outCiphertext
  proof : Spells entry.proof output.zkproof

structure ShowsAction (action : Action) (entry : OrchardAction) : Prop where
  cv : Spells entry.cv action.cvNet
  nullifier : Spells entry.nullifier action.nullifier
  rk : Spells entry.rk action.rk
  cmx : Spells entry.cmx action.cmx
  ephemeralKey : Spells entry.ephemeralKey action.epkBytes
  encCiphertext : Spells entry.encCiphertext action.encCiphertext
  outCiphertext : Spells entry.outCiphertext action.outCiphertext
  spendAuthSig : Spells entry.spendAuthSig action.authorization

/-- The actions of a bundle, and its value balance. What is absent shows that there is no
    bundle. -/
structure ShowsOrchard {Decimal : Type} (value : Decimal → ℚ) (bundle : Option OrchardBundle)
    (entry : Option (Orchard Decimal)) : Prop where
  actions : List.Forall₂ ShowsAction (bundle.elim [] OrchardBundle.actions)
    (entry.elim [] Orchard.actions)
  valueBalance : ∀ o ∈ entry, SameAmount value o.valueBalance o.valueBalanceZat
  valueBalanceZat : bundle.elim 0 (fun b => b.valueBalance.value) =
    entry.elim 0 Orchard.valueBalanceZat

section

variable {V : Versions}

/-- The components of a transaction; without a bundle there are none. -/
def TransactionData.vin (tx : TransactionData V) : List TxIn :=
  tx.transparentBundle.elim [] TransparentBundle.vin

def TransactionData.vout (tx : TransactionData V) : List TxOut :=
  tx.transparentBundle.elim [] TransparentBundle.vout

def TransactionData.isCoinbase (tx : TransactionData V) : Bool :=
  tx.transparentBundle.elim false TransparentBundle.isCoinbase

def TransactionData.shieldedSpends (tx : TransactionData V) : List SpendDescription :=
  tx.saplingBundle.elim [] SaplingBundle.shieldedSpends

def TransactionData.shieldedOutputs (tx : TransactionData V) : List OutputDescription :=
  tx.saplingBundle.elim [] SaplingBundle.shieldedOutputs

/-- The JSON has one entry for every component, in the order of the transaction, and the
    amounts are the same in both units. `index` are the indices of the outputs. -/
structure Shows {Decimal : Type} (value : Decimal → ℚ) (index : ℕ → ℕ) (tx : TransactionData V)
    (json : TransactionDetails Decimal) : Prop where
  vin : List.Forall₂ (ShowsInput tx.isCoinbase) tx.vin json.vin
  vout : List.Forall₂ (fun output entry => ShowsOutput value (index output.2) output.1 entry)
    tx.vout.zipIdx json.vout
  vShieldedSpend : List.Forall₂ ShowsSpend tx.shieldedSpends (json.vShieldedSpend.getD [])
  vShieldedOutput : List.Forall₂ ShowsSaplingOutput tx.shieldedOutputs
    (json.vShieldedOutput.getD [])
  valueBalance : Option.Rel (SameAmount value) json.valueBalance json.valueBalanceZat
  valueBalanceZat : json.valueBalanceZat.getD 0 =
    tx.saplingBundle.elim 0 (fun b => b.valueBalance.value)
  orchard : ShowsOrchard value tx.orchardBundle json.orchard
  ironwood : ShowsOrchard value tx.ironwoodBundle json.ironwood

end

/-! ### The entries -/

theorem showsInput (S : Solver) (isCoinbase : Bool) (txIn : TxIn) :
    ShowsInput isCoinbase txIn (TransparentInput.encode S txIn isCoinbase) := by
  cases isCoinbase with
  | true => exact ⟨rfl, fun _ => ⟨_, rfl, spells_hexEncode _⟩, by simp, by simp, by simp⟩
  | false =>
    exact ⟨rfl, by simp, fun _ => ⟨_, rfl, spells_reverseHex _⟩, fun _ => rfl,
      fun _ => ⟨_, rfl, spells_hexEncode _⟩⟩

theorem showsSpend (spend : SpendDescription) : ShowsSpend spend (SaplingSpend.encode spend) where
  cv := spells_reverseHex _
  anchor := spells_reverseHex _
  nullifier := spells_reverseHex _
  rk := spells_reverseHex _
  proof := spells_hexEncode _
  spendAuthSig := spells_hexEncode _

theorem showsSaplingOutput (output : OutputDescription) :
    ShowsSaplingOutput output (SaplingOutput.encode output) where
  cv := spells_reverseHex _
  cmu := spells_reverseHex _
  ephemeralKey := spells_reverseHex _
  encCiphertext := spells_hexEncode _
  outCiphertext := spells_hexEncode _
  proof := spells_hexEncode _

theorem showsAction (action : Action) : ShowsAction action (OrchardAction.encode action) where
  cv := spells_hexEncode _
  nullifier := spells_hexEncode _
  rk := spells_hexEncode _
  cmx := spells_hexEncode _
  ephemeralKey := spells_hexEncode _
  encCiphertext := spells_hexEncode _
  outCiphertext := spells_hexEncode _
  spendAuthSig := spells_hexEncode _

/-- A list is shown by the list of the encodings. -/
theorem forall₂_encode {α β : Type} {R : α → β → Prop} {f : α → β} (h : ∀ a, R a (f a))
    (l : List α) : List.Forall₂ R l (l.map f) := by
  rw [List.forall₂_map_right_iff, List.forall₂_same]
  exact fun a _ => h a

section

variable {Decimal : Type} {decimals : Decimals Decimal} {value : Decimal → ℚ}

theorem sameAmount_zatBalance (h : decimals.Lawful value) (balance : ZatBalance) :
    SameAmount value (valueFromZatBalance decimals balance.value) balance.value := by
  have hmax : maxMoney < 2 ^ 63 := by norm_num [maxMoney]
  have hle := balance.abs_le
  exact value_valueFromZatBalance h (by omega)

theorem sameAmount_zero (h : decimals.Lawful value) :
    SameAmount value (valueFromZatBalance decimals 0) 0 :=
  value_valueFromZatBalance h (by norm_num)

theorem showsOutput (h : decimals.Lawful value) (K : Codecs) (S : Solver) (txOut : TxOut)
    (n : UInt16) :
    ShowsOutput value n.toNat txOut (TransparentOutput.encode decimals K S (txOut, n)) where
  n := rfl
  valueZat := rfl
  valueSat := rfl
  value := by
    have hvalue := value_valueFromZatoshis h txOut.value
    simpa [SameAmount, TransparentOutput.encode] using hvalue
  scriptPubKey := spells_hexEncode _

/-- A bundle is shown if its version has one. -/
theorem showsOrchard (h : decimals.Lawful value) {bundle : Option OrchardBundle} {has : Bool}
    (hhas : bundle.isSome → has = true) :
    ShowsOrchard value bundle (if has then some (Orchard.encode decimals bundle) else none) := by
  cases bundle with
  | none =>
    cases has with
    | false => exact ⟨List.Forall₂.nil, by simp, rfl⟩
    | true => exact ⟨List.Forall₂.nil, by simpa [Orchard.encode] using sameAmount_zero h, rfl⟩
  | some bundle =>
    rw [hhas rfl]
    refine ⟨forall₂_encode showsAction bundle.actions, ?_, rfl⟩
    simpa [Orchard.encode] using sameAmount_zatBalance h bundle.valueBalance

end

/-! ## The counter -/

/-- Without the checks the counter wraps. -/
theorem zipCounter_wraps {α : Type} (l : List α) (k : ℕ) :
    zipCounter false (UInt16.ofNat k) l =
      some ((l.zipIdx k).map fun a => (a.1, UInt16.ofNat a.2)) := by
  induction l generalizing k with
  | nil => rfl
  | cons a l ih =>
    have hnext : UInt16.ofNat k + 1 = UInt16.ofNat (k + 1) := (UInt16.ofNat_add k 1).symm
    rw [zipCounter, hnext, ih]
    rfl

/-- With the checks it does not overflow exactly where it would not wrap. -/
theorem zipCounter_checked {α : Type} (l : List α) {k : ℕ} (hk : k < 65536) :
    zipCounter true (UInt16.ofNat k) l =
      if k + l.length < 65536 then zipCounter false (UInt16.ofNat k) l else none := by
  induction l generalizing k with
  | nil => simp [zipCounter, hk]
  | cons a l ih =>
    have hnext : UInt16.ofNat k + 1 = UInt16.ofNat (k + 1) := (UInt16.ofNat_add k 1).symm
    rw [zipCounter, zipCounter, hnext, List.length_cons]
    by_cases hlast : k = 65535
    · subst hlast
      have hover : ¬ 65535 + (l.length + 1) < 65536 := by omega
      rw [if_neg hover]
      rfl
    · have hne : (UInt16.ofNat k == 65535) = false := by
        rw [beq_eq_false_iff_ne]
        intro heq
        have hnat : (UInt16.ofNat k).toNat = 65535 := congrArg UInt16.toNat heq
        rw [UInt16.toNat_ofNat'] at hnat
        omega
      rw [hne, ih (by omega)]
      have hlength : k + 1 + l.length = k + (l.length + 1) := by omega
      rw [hlength]
      by_cases hover : k + (l.length + 1) < 65536
      · simp [hover]
      · simp [hover]

/-! ## The transaction -/

section

variable {Decimal : Type} {decimals : Decimals Decimal} {value : Decimal → ℚ} {K : Codecs}
  {S : Solver} {V : Versions}

/-- With the overflow checks the transparent components are what they are without, unless
    there are too many outputs. -/
theorem transparentJson_checked (tx : TransactionData V) :
    transparentJson decimals K S true tx.transparentBundle =
      if tx.vout.length < 65536 then transparentJson decimals K S false tx.transparentBundle
      else none := by
  cases hbundle : tx.transparentBundle with
  | none => simp [transparentJson, TransactionData.vout, hbundle]
  | some bundle =>
    have hchecked := zipCounter_checked bundle.vout (show 0 < 65536 by norm_num)
    rw [Nat.zero_add, show UInt16.ofNat 0 = 0 from rfl] at hchecked
    by_cases hlength : bundle.vout.length < 65536
    · simp [transparentJson, TransactionData.vout, hbundle, hchecked, hlength]
    · simp [transparentJson, TransactionData.vout, hbundle, hchecked, hlength]

/-- Without them the transparent components are shown with wrapped indices. -/
theorem transparentJson_wraps (h : decimals.Lawful value) (tx : TransactionData V) :
    ∃ vin vout, transparentJson decimals K S false tx.transparentBundle = some (vin, vout) ∧
      List.Forall₂ (ShowsInput tx.isCoinbase) tx.vin vin ∧
      List.Forall₂ (fun output entry => ShowsOutput value (output.2 % 65536) output.1 entry)
        tx.vout.zipIdx vout := by
  cases hbundle : tx.transparentBundle with
  | none =>
    exact ⟨[], [], rfl, by simp [TransactionData.vin, hbundle],
      by simp [TransactionData.vout, hbundle]⟩
  | some bundle =>
    have hcounter := zipCounter_wraps bundle.vout 0
    rw [show UInt16.ofNat 0 = 0 from rfl] at hcounter
    refine ⟨_, _, by simp only [transparentJson, hcounter]; rfl, ?_, ?_⟩
    · simp only [TransactionData.vin, TransactionData.isCoinbase, hbundle, Option.elim_some]
      exact forall₂_encode (showsInput S bundle.isCoinbase) bundle.vin
    · simp only [TransactionData.vout, hbundle, Option.elim_some, List.map_map]
      refine forall₂_encode (fun output => ?_) bundle.vout.zipIdx
      have hshows := showsOutput h K S output.1 (UInt16.ofNat output.2)
      rw [UInt16.toNat_ofNat'] at hshows
      exact hshows

theorem showsSapling (h : decimals.Lawful value) (tx : TransactionData V) :
    List.Forall₂ ShowsSpend tx.shieldedSpends
        ((saplingJson decimals tx.version tx.saplingBundle).vShieldedSpend.getD []) ∧
      List.Forall₂ ShowsSaplingOutput tx.shieldedOutputs
        ((saplingJson decimals tx.version tx.saplingBundle).vShieldedOutput.getD []) ∧
      Option.Rel (SameAmount value) (saplingJson decimals tx.version tx.saplingBundle).valueBalance
        (saplingJson decimals tx.version tx.saplingBundle).valueBalanceZat ∧
      (saplingJson decimals tx.version tx.saplingBundle).valueBalanceZat.getD 0 =
        tx.saplingBundle.elim 0 (fun b => b.valueBalance.value) := by
  cases hbundle : tx.saplingBundle with
  | none =>
    simp only [TransactionData.shieldedSpends, TransactionData.shieldedOutputs, hbundle,
      Option.elim_none, saplingJson]
    split
    · exact ⟨List.Forall₂.nil, List.Forall₂.nil, Option.Rel.none, rfl⟩
    · exact ⟨List.Forall₂.nil, List.Forall₂.nil, Option.Rel.some (sameAmount_zero h), rfl⟩
  | some bundle =>
    simp only [TransactionData.shieldedSpends, TransactionData.shieldedOutputs, hbundle,
      Option.elim_some, saplingJson]
    exact ⟨forall₂_encode showsSpend _, forall₂_encode showsSaplingOutput _,
      Option.Rel.some (sameAmount_zatBalance h bundle.valueBalance), rfl⟩

/-- Without the checks the JSON shows the whole transaction, but the indices of the outputs
    are those of a counter of 16 bits. -/
theorem txToJson_wraps (h : decimals.Lawful value) (tx : TransactionData V) (size : ℕ) :
    ∃ json, txToJson decimals K S false tx size = some json ∧
      Shows value (fun i => i % 65536) tx json := by
  obtain ⟨vin, vout, htransparent, hvin, hvout⟩ :=
    transparentJson_wraps (K := K) (S := S) h tx
  obtain ⟨hspends, houtputs, hbalance, hbalanceZat⟩ := showsSapling h tx
  refine ⟨_, by simp only [txToJson, htransparent]; rfl, ?_⟩
  exact {
    vin := hvin
    vout := hvout
    vShieldedSpend := hspends
    vShieldedOutput := houtputs
    valueBalance := hbalance
    valueBalanceZat := hbalanceZat
    orchard := showsOrchard h tx.hasOrchard
    ironwood := showsOrchard h tx.hasIronwood }

/-- The indices of fewer outputs do not wrap. -/
theorem Shows.of_lt {tx : TransactionData V} {json : TransactionDetails Decimal}
    (h : Shows value (fun i => i % 65536) tx json) (hlength : tx.vout.length < 65536) :
    Shows value id tx json := by
  refine { h with vout := ?_ }
  have hlt : ∀ output ∈ tx.vout.zipIdx, output.2 < 65536 := fun output houtput =>
    (List.snd_lt_of_mem_zipIdx houtput).trans_le (by omega)
  refine (List.forall₂_and_left _ _ |>.mpr ⟨hlt, h.vout⟩).imp fun output entry hshows => ?_
  rw [← Nat.mod_eq_of_lt hshows.1]
  exact hshows.2

/-- The index of an output. -/
theorem Shows.index_eq {index : ℕ → ℕ} {tx : TransactionData V} {json : TransactionDetails Decimal}
    (h : Shows value index tx json) {i : ℕ} (hi : i < tx.vout.length) :
    ∃ entry, json.vout[i]? = some entry ∧ entry.n.toNat = index i := by
  have hx : i < tx.vout.zipIdx.length := by rwa [List.length_zipIdx]
  have hy : i < json.vout.length := h.vout.length_eq ▸ hx
  have hshows := h.vout.get hx hy
  refine ⟨json.vout[i], List.getElem?_eq_getElem hy, ?_⟩
  simpa using hshows.n

theorem txToJson_lossless (h : decimals.Lawful value) {tx : TransactionData V}
    (hlength : tx.vout.length < 65536) (size : ℕ) :
    ∃ json, txToJson decimals K S true tx size = some json ∧
      txToJson decimals K S false tx size = some json ∧ Shows value id tx json := by
  obtain ⟨json, hjson, hshows⟩ := txToJson_wraps (K := K) (S := S) h tx size
  refine ⟨json, ?_, hjson, hshows.of_lt hlength⟩
  rw [txToJson, transparentJson_checked, if_pos hlength]
  exact hjson

theorem txToJson_overflow {tx : TransactionData V} (hlength : ¬ tx.vout.length < 65536) (size : ℕ) :
    txToJson decimals K S true tx size = none := by
  rw [txToJson, transparentJson_checked, if_neg hlength]
  rfl

/-- The encoder panics only in the overflow. -/
theorem txToJson_eq_none_iff {overflowChecks : Bool} {tx : TransactionData V} {size : ℕ} :
    txToJson decimals K S overflowChecks tx size = none ↔
      overflowChecks = true ∧ ¬ tx.vout.length < 65536 := by
  have hwraps : txToJson decimals K S false tx size ≠ none := by
    cases hbundle : tx.transparentBundle with
    | none => simp [txToJson, transparentJson, hbundle]
    | some bundle =>
      have hcounter := zipCounter_wraps bundle.vout 0
      rw [show UInt16.ofNat 0 = 0 from rfl] at hcounter
      simp [txToJson, transparentJson, hbundle, hcounter]
  cases overflowChecks with
  | false => simp [hwraps]
  | true =>
    by_cases hlength : tx.vout.length < 65536
    · rw [txToJson] at hwraps ⊢
      rw [transparentJson_checked, if_pos hlength]
      simp only [hwraps, hlength, not_true_eq_false, and_false]
    · simp [txToJson_overflow hlength, hlength]

/-- `decoderawtransaction` shows a transaction, or panics. -/
theorem decoderawtransaction_read (h : decimals.Lawful value)
    {read : List UInt8 → Option (TransactionData V)} {hexstring : List Char} {txBytes : List UInt8}
    (hhex : hexDecode hexstring = some txBytes) {tx : TransactionData V}
    (hread : read txBytes = some tx) :
    if tx.vout.length < 65536 then
      ∃ json, decoderawtransaction decimals K S true read hexstring = some (.ok json) ∧
        Shows value id tx json
    else decoderawtransaction decimals K S true read hexstring = none := by
  simp only [decoderawtransaction, hhex, hread]
  split
  · next hlength =>
    obtain ⟨json, hjson, -, hshows⟩ := txToJson_lossless h hlength txBytes.length
    exact ⟨json, by rw [hjson, Option.map_some], hshows⟩
  · next hlength =>
    rw [txToJson_overflow hlength, Option.map_none]

/-- Nothing overflows and nothing is lost exactly where there are fewer than 65536
    outputs. -/
theorem lossless_iff (h : decimals.Lawful value) (tx : TransactionData V) (size : ℕ) :
    (∃ json, txToJson decimals K S true tx size = some json ∧
      txToJson decimals K S false tx size = some json ∧ Shows value id tx json) ↔
      tx.vout.length < 65536 := by
  constructor
  · rintro ⟨json, hjson, -⟩
    by_contra hlength
    rw [txToJson_overflow hlength] at hjson
    cases hjson
  · intro hlength
    exact txToJson_lossless h hlength size

end

/-! ### Many outputs -/

namespace ManyOutputs

open UncompressedKey (codecs solver)

/-- The header and the version group id of version 4; the other ones are not used. -/
def versions : Versions where
  hasOverwinter _ := true
  header _ := 0x80000004
  versionGroupId _ := 0x892F2085
  hasOrchard _ := false
  hasIronwood _ := false

/-- Outputs of one zatoshi each, which the transaction pays from one input. -/
def transaction (outputs : ℕ) : TransactionData versions where
  txid := List.replicate 32 1
  authCommitment := List.replicate 32 2
  version := .V4
  lockTime := 0
  expiryHeight := 0
  transparentBundle := some
    { vin := [⟨List.replicate 32 3, 0, [], 0⟩]
      vout := List.replicate outputs ⟨⟨1, by norm_num [maxMoney]⟩, [0x51]⟩ }
  saplingBundle := none
  orchardBundle := none
  ironwoodBundle := none
  hasOrchard := by simp
  hasIronwood := by simp

theorem length_vout (outputs : ℕ) : (transaction outputs).vout.length = outputs := by
  simp [transaction, TransactionData.vout]

/-- The JSON of three outputs. -/
theorem three_outputs : ∃ json,
    txToJson Units.fixed codecs solver true (transaction 3) 100 = some json ∧
      txToJson Units.fixed codecs solver false (transaction 3) 100 = some json ∧
      Shows Units.toRat id (transaction 3) json :=
  (lossless_iff Units.lawful (transaction 3) 100).mpr (by rw [length_vout]; norm_num)

/-- The output after 65536 ones is a panic, or has the index 0. -/
theorem wrapped :
    txToJson Units.fixed codecs solver true (transaction 65537) 655444 = none ∧
    ∃ json, txToJson Units.fixed codecs solver false (transaction 65537) 655444 = some json ∧
      (json.vout[65536]?.map TransparentOutput.n) = some 0 ∧
      ¬ Shows Units.toRat id (transaction 65537) json := by
  have hlength := length_vout 65537
  have hlast : 65536 < (transaction 65537).vout.length := by omega
  obtain ⟨json, hjson, hshows⟩ :=
    txToJson_wraps (K := codecs) (S := solver) Units.lawful (transaction 65537) 655444
  obtain ⟨entry, hentry, hn⟩ := hshows.index_eq hlast
  have hzero : entry.n = 0 := UInt16.toNat_inj.mp hn
  refine ⟨?_, json, hjson, by rw [hentry, Option.map_some, hzero], fun hid => ?_⟩
  · exact txToJson_overflow (by omega) 655444
  · obtain ⟨entry', hentry', hn'⟩ := hid.index_eq hlast
    have hbound := entry'.n.toNat_lt
    rw [hn', id] at hbound
    omega

end ManyOutputs

end Zallet.Rpc.TxToJson
