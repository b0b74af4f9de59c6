import Zallet.Chain.View
import Zallet.Common.Loop
import Zallet.Rpc.TxToJson

/-!
# Looking up a transaction

`getrawtransaction`
(`zallet-core/src/components/json_rpc/methods/get_raw_transaction.rs`, lines 478–564), on
the transactions that a backend reports with `ChainTx::new` (chain.rs, lines 771–790).

The answers of the chain are arbitrary; each is read once. A hash is the number that its
text shows.

* `handles_iff`: when the call does not panic and reports where the transaction is, as the
  fields of the response document.
-/

namespace Zallet.Rpc.GetRawTransaction

open Zallet.Chain Zallet.Common.Text
open Zallet.Common.Loop (mapError_eq_ok)
open Zallet.Rpc.TxToJson (TransactionData TransactionDetails Versions txToJson
  txToJson_eq_none_iff)

/-! ## The call -/

/-- The call ends in an error of the interface, or panics. -/
inductive CallFailure
  | Error (e : RpcError)
  | Panic (message : String)
  deriving DecidableEq

/-- The reads of the chain that the call makes. -/
structure Reads where
  snapshot : Except ChainError ChainView
  getTransaction : ChainView → TxId → Except ChainError (Option ChainTx)
  getBlockHeader : ChainView → ℕ → Except ChainError (Option BlockHeader)
  tip : ChainView → Except ChainError ChainBlock
  /-- `to_string` of an error. -/
  errorText : ChainError → String

/-- A read with its error mapped. -/
def Reads.ask {α : Type} (R : Reads) (answer : Except ChainError α) : Except CallFailure α :=
  answer.mapError fun e => .Error (LegacyCode.Database.withMessage (R.errorText e))

/-- `ReverseHex::decode` as a hash. -/
def decodeHash (text : List Char) : Option (BitVec 256) := do
  let bytes ← hexDecode text
  if bytes.length = 32 then
    some (BitVec.ofNat 256 (bytes.foldl (fun n b => 256 * n + b.toNat) 0))
  else none

/-- `to_string` of a hash. -/
def hashText (hash : BitVec 256) : List Char :=
  hexEncode ((List.range 32).reverse.map fun i => UInt8.ofNat (hash.toNat / 256 ^ i % 256))

/-- `parse_txid` (json_rpc/utils.rs, lines 206–210). -/
def parseTxid (txidStr : List Char) : Except CallFailure TxId :=
  match decodeHash txidStr with
  | some txid => .ok txid
  | none => .error (.Error (LegacyCode.InvalidParameter.withMessage "invalid txid"))

/-- The block that the lookup is restricted to (lines 489–496). -/
def requestedBlock : Option (List Char) → Except CallFailure (Option BlockHash)
  | none => .ok none
  | some s =>
    match decodeHash s with
    | some hash => .ok (some hash)
    | none => .error (.Error (LegacyCode.InvalidParameter.withMessage "invalid blockhash"))

def noSuchTransaction : RpcError :=
  LegacyCode.InvalidAddressOrKey.withMessage "No such mempool or blockchain transaction"

def notInProvidedBlock : RpcError :=
  LegacyCode.InvalidAddressOrKey.withMessage "No such transaction found in the provided block"

/-- `in_active_chain` (lines 514–536). -/
def inActiveChain (R : Reads) (view : ChainView) (tx : ChainTx) :
    Option BlockHash → Except CallFailure (Option Bool)
  | none => .ok none
  | some requested =>
    if tx.blockHash ≠ some requested then .error (.Error notInProvidedBlock)
    else
      match tx.minedHeight with
      | none => .error (.Panic "a transaction with a block hash has a mined height")
      | some minedHeight => do
        let header ← R.ask (R.getBlockHeader view minedHeight)
        let canonical := header.map BlockHeader.hash
        .ok (some (decide (canonical = some requested)))

/-- `i32::try_from` of a `u32`. -/
def i32TryFrom (h : ℕ) : Option ℤ := if h < 2 ^ 31 then some h else none

/-- `Transaction` (lines 44–91). -/
structure VerboseTransaction (Decimal : Type) where
  inActiveChain : Option Bool
  hex : List Char
  inner : TransactionDetails Decimal
  blockhash : Option (List Char)
  height : Option ℤ
  confirmations : Option ℕ
  time : Option ℤ
  blocktime : Option ℤ

/-- `ResultType` (lines 28–40). -/
inductive ResultType (Decimal : Type)
  | Concise (hex : List Char)
  | Verbose (tx : VerboseTransaction Decimal)

section

variable {Decimal : Type} (decimals : Decimals Decimal) (K : Codecs) (S : Solver) {V : Versions}
  (parsed : Transaction → TransactionData V) (overflowChecks : Bool)

/-- The response for the transaction (lines 538–563). -/
def respond (R : Reads) (view : ChainView) (tx : ChainTx) (verbose : Bool)
    (active : Option Bool) : Except CallFailure (ResultType Decimal) := do
  let blockhash := tx.blockHash.map hashText
  let height := tx.minedHeight.bind i32TryFrom
  let chainTip ← R.ask (R.tip view)
  let confirmations := tx.minedHeight.map fun h => chainTip.height + 1 - h
  let blocktime := tx.blockTime.map Int.ofNat
  let txHex := hexEncode tx.raw
  if verbose = false then .ok (.Concise txHex)
  else
    let size := tx.raw.length
    match txToJson decimals K S overflowChecks (parsed tx.inner) size with
    | none => .error (.Panic "attempt to add with overflow")
    | some inner =>
      .ok (.Verbose ⟨active, txHex, inner, blockhash, height, confirmations, blocktime, blocktime⟩)

/-- `getrawtransaction` (lines 478–564). The functions of the formats are as in
    `tx_to_json`; `parsed` is what a transaction was parsed as. -/
def call (R : Reads) (txidStr : List Char) (verbose : Option ℕ) (blockhash : Option (List Char)) :
    Except CallFailure (ResultType Decimal) := do
  let txid ← parseTxid txidStr
  let verbose := verbose.any fun v => decide (v ≠ 0)
  let requested ← requestedBlock blockhash
  let view ← R.ask R.snapshot
  match ← R.ask (R.getTransaction view txid) with
  | none => .error (.Error noSuchTransaction)
  | some tx => do
    let active ← inActiveChain R view tx requested
    respond decimals K S parsed overflowChecks R view tx verbose active

end

/-! ## The states of a transaction -/

/-- The transaction is mined in the chain of the view. -/
structure BestChain (R : Reads) (view : ChainView) (tx : ChainTx) : Prop where
  blockHash : tx.blockHash.isSome
  minedHeight : tx.minedHeight.isSome
  blockTime : tx.blockTime.isSome
  canonical : ∀ h ∈ tx.minedHeight, ∀ header, R.getBlockHeader view h = .ok header →
    header.map BlockHeader.hash = tx.blockHash

/-- It is mined in another chain. -/
structure SideChain (tx : ChainTx) : Prop where
  blockHash : tx.blockHash.isSome
  minedHeight : tx.minedHeight = none
  blockTime : tx.blockTime = none

/-- It is not mined. -/
structure InMempool (tx : ChainTx) : Prop where
  blockHash : tx.blockHash = none
  minedHeight : tx.minedHeight = none
  blockTime : tx.blockTime = none

/-- The states that `ChainTx::new` documents. -/
def Documented (R : Reads) (view : ChainView) (tx : ChainTx) : Prop :=
  BestChain R view tx ∨ SideChain tx ∨ InMempool tx

/-- The height and the confirmations that the fields document: those of its block, if it is
    mined, where a block that is not in the best chain has the height -1. -/
def documentedPlace (tx : ChainTx) (tip : ℕ) : Option ℤ × Option ℕ :=
  match tx.blockHash, tx.minedHeight with
  | some _, some h => (some h, some (tip + 1 - h))
  | some _, none => (some (-1), some 0)
  | none, _ => (none, none)

/-- The call handles the transaction: it does not panic; it fails for the provided block
    exactly where that is another block; and a verbose result reports where the transaction
    is. -/
structure Handles {Decimal : Type} (R : Reads) (view : ChainView) (tx : ChainTx)
    (requested : Option BlockHash) (result : Except CallFailure (ResultType Decimal)) : Prop where
  no_panic : ∀ message, result ≠ .error (.Panic message)
  provided_block : result = .error (.Error notInProvidedBlock) ↔
    ∃ hash ∈ requested, tx.blockHash ≠ some hash
  active : ∀ r, result = .ok (.Verbose r) → r.inActiveChain.isSome = requested.isSome ∧
    (requested.isSome → (r.inActiveChain = some true ↔ BestChain R view tx))
  place : ∀ r, result = .ok (.Verbose r) → ∃ tip, R.tip view = .ok tip ∧
    (r.height, r.confirmations) = documentedPlace tx tip.height

/-- The call finds the transaction. -/
structure Finds (R : Reads) (txidStr : List Char) (blockhash : Option (List Char))
    (requested : Option BlockHash) (view : ChainView) (tx : ChainTx) : Prop where
  requested : requestedBlock blockhash = .ok requested
  snapshot : R.snapshot = .ok view
  transaction : ∃ txid, parseTxid txidStr = .ok txid ∧ R.getTransaction view txid = .ok (some tx)

/-- The chain answers what a verbose response needs. -/
structure Answered (R : Reads) (view : ChainView) (tx : ChainTx) (verbose : Option ℕ)
    (requested : Option BlockHash) : Prop where
  verbose : verbose.any (fun v => decide (v ≠ 0)) = true
  tip : ∃ tip, R.tip view = .ok tip
  header : requested.isSome → ∀ h ∈ tx.minedHeight, ∃ header, R.getBlockHeader view h = .ok header

/-! ## The response -/

section

variable {Decimal : Type} {decimals : Decimals Decimal} {K : Codecs} {S : Solver} {V : Versions}
  {parsed : Transaction → TransactionData V} {overflowChecks : Bool} {R : Reads}
  {view : ChainView} {tx : ChainTx}

theorem ask_eq_ok {α : Type} {answer : Except ChainError α} {a : α} :
    R.ask answer = .ok a ↔ answer = .ok a :=
  mapError_eq_ok

theorem database_ne (text : String) :
    LegacyCode.Database.withMessage text ≠ notInProvidedBlock := by
  simp [LegacyCode.withMessage, notInProvidedBlock, LegacyCode.code]

/-- Such a call handles the transaction, unless it is in another block. -/
theorem handles_database {requested : Option BlockHash} {text : String}
    (hblock : ∀ hash ∈ requested, tx.blockHash = some hash) :
    Handles R view tx requested (.error (.Error (LegacyCode.Database.withMessage text)) :
      Except CallFailure (ResultType Decimal)) where
  no_panic message := by simp
  provided_block := by
    refine iff_of_false (fun h => ?_) fun ⟨hash, hmem, hne⟩ => hne (hblock hash hmem)
    exact database_ne text (CallFailure.Error.inj (Except.error.inj h))
  active r h := by cases h
  place r h := by cases h

theorem BestChain.not_sideChain (h : BestChain R view tx) : ¬ SideChain tx := by
  intro hside
  have hheight := h.minedHeight
  rw [hside.minedHeight] at hheight
  cases hheight

theorem InMempool.not_sideChain (h : InMempool tx) : ¬ SideChain tx := by
  intro hside
  have hhash := hside.blockHash
  rw [h.blockHash] at hhash
  cases hhash

theorem i32TryFrom_eq_some {h : ℕ} : i32TryFrom h = some (h : ℤ) ↔ h < 2 ^ 31 := by
  unfold i32TryFrom
  split
  · simp_all
  · simp_all

/-- The place is reported as documented where the transaction is not in a side chain, and
    its height is in the range of the field. -/
theorem place_eq_iff (hdocumented : Documented R view tx) (tip : ℕ) :
    (tx.minedHeight.bind i32TryFrom, tx.minedHeight.map fun h => tip + 1 - h) =
        documentedPlace tx tip ↔
      ¬ SideChain tx ∧ ∀ h ∈ tx.minedHeight, h < 2 ^ 31 := by
  rcases hdocumented with hbest | hside | hmempool
  · obtain ⟨hash, hhash⟩ := Option.isSome_iff_exists.mp hbest.blockHash
    obtain ⟨h, hheight⟩ := Option.isSome_iff_exists.mp hbest.minedHeight
    simp only [documentedPlace, hhash, hheight, Option.bind_some, Option.map_some, Prod.mk.injEq,
      and_true, hbest.not_sideChain, not_false_eq_true, true_and, Option.mem_def,
      Option.some.injEq, forall_eq', i32TryFrom_eq_some]
  · obtain ⟨hash, hhash⟩ := Option.isSome_iff_exists.mp hside.blockHash
    simp [documentedPlace, hhash, hside.minedHeight, hside]
  · simp [documentedPlace, hmempool.blockHash, hmempool.minedHeight, hmempool.not_sideChain]

section

variable {verbose : Bool} {active : Option Bool} {tip : ChainBlock}
  {inner : TransactionDetails Decimal}

theorem respond_error {e : ChainError} (htip : R.tip view = .error e) :
    respond decimals K S parsed overflowChecks R view tx verbose active =
      .error (.Error (LegacyCode.Database.withMessage (R.errorText e))) := by
  simp only [respond, htip]
  rfl

theorem respond_concise (htip : R.tip view = .ok tip) :
    respond decimals K S parsed overflowChecks R view tx false active =
      .ok (.Concise (hexEncode tx.raw)) := by
  simp only [respond, htip]
  rfl

theorem respond_overflow (htip : R.tip view = .ok tip)
    (hjson : txToJson decimals K S overflowChecks (parsed tx.inner) tx.raw.length = none) :
    respond decimals K S parsed overflowChecks R view tx true active =
      .error (.Panic "attempt to add with overflow") := by
  simp only [respond, htip, hjson]
  rfl

theorem respond_verbose (htip : R.tip view = .ok tip)
    (hjson : txToJson decimals K S overflowChecks (parsed tx.inner) tx.raw.length = some inner) :
    respond decimals K S parsed overflowChecks R view tx true active =
      .ok (.Verbose ⟨active, hexEncode tx.raw, inner, tx.blockHash.map hashText,
        tx.minedHeight.bind i32TryFrom, tx.minedHeight.map fun h => tip.height + 1 - h,
        tx.blockTime.map Int.ofNat, tx.blockTime.map Int.ofNat⟩) := by
  simp only [respond, htip, hjson]
  rfl

end

/-- A concise response says nothing about the place. -/
theorem handles_concise {requested : Option BlockHash} {hex : List Char}
    (hblock : ∀ hash ∈ requested, tx.blockHash = some hash) :
    Handles R view tx requested
      (.ok (.Concise hex) : Except CallFailure (ResultType Decimal)) where
  no_panic := by simp
  provided_block := iff_of_false (by simp) fun ⟨hash, hmem, hne⟩ => hne (hblock hash hmem)
  active := by simp
  place := by simp

/-- A verbose response handles the transaction where its place is as documented. -/
theorem handles_verbose_iff {requested : Option BlockHash} {tip : ChainBlock}
    {r : VerboseTransaction Decimal} (htip : R.tip view = .ok tip)
    (hblock : ∀ hash ∈ requested, tx.blockHash = some hash)
    (hactive : r.inActiveChain.isSome = requested.isSome ∧
      (requested.isSome → (r.inActiveChain = some true ↔ BestChain R view tx))) :
    Handles R view tx requested (.ok (.Verbose r)) ↔
      (r.height, r.confirmations) = documentedPlace tx tip.height := by
  constructor
  · intro h
    obtain ⟨tip', htip', hplace⟩ := h.place r rfl
    rw [htip] at htip'
    cases htip'
    exact hplace
  · intro hplace
    exact
      { no_panic := by simp
        provided_block := iff_of_false (by simp) fun ⟨hash, hmem, hne⟩ => hne (hblock hash hmem)
        active := by
          rintro r' hr
          cases hr
          exact hactive
        place := by
          rintro r' hr
          cases hr
          exact ⟨tip, htip, hplace⟩ }

/-- The response handles the transaction where, if it is verbose, the JSON does not overflow
    and the place is as documented. -/
theorem handles_respond_iff {requested : Option BlockHash} {verbose : Bool} {active : Option Bool}
    (hdocumented : Documented R view tx) (hblock : ∀ hash ∈ requested, tx.blockHash = some hash)
    (hactive : active.isSome = requested.isSome ∧
      (requested.isSome → (active = some true ↔ BestChain R view tx))) :
    Handles R view tx requested
        (respond decimals K S parsed overflowChecks R view tx verbose active) ↔
      (verbose = true → (∃ tip, R.tip view = .ok tip) →
        (¬ SideChain tx ∧ ∀ h ∈ tx.minedHeight, h < 2 ^ 31) ∧
          (overflowChecks = true → (parsed tx.inner).vout.length < 65536)) := by
  cases htip : R.tip view with
  | error e =>
    rw [respond_error htip]
    exact iff_of_true (handles_database hblock) fun _ ⟨_, h⟩ => by cases h
  | ok tip =>
    cases verbose with
    | false =>
      rw [respond_concise htip]
      exact iff_of_true (handles_concise hblock) (by simp)
    | true =>
      cases hjson : txToJson decimals K S overflowChecks (parsed tx.inner) tx.raw.length with
      | none =>
        rw [respond_overflow htip hjson]
        obtain ⟨hchecks, hlength⟩ := txToJson_eq_none_iff.mp hjson
        refine iff_of_false (fun h => h.no_panic _ rfl) fun h => ?_
        exact hlength ((h rfl ⟨tip, rfl⟩).2 hchecks)
      | some inner =>
        have hlength : overflowChecks = true → (parsed tx.inner).vout.length < 65536 := by
          intro hchecks
          by_contra hlength
          rw [txToJson_eq_none_iff.mpr ⟨hchecks, hlength⟩] at hjson
          cases hjson
        rw [respond_verbose htip hjson, handles_verbose_iff htip hblock hactive,
          place_eq_iff hdocumented tip.height]
        constructor
        · intro h _ _
          exact ⟨h, hlength⟩
        · intro h
          exact (h rfl ⟨tip, rfl⟩).1

/-! ## The call -/

theorem call_eq {txidStr : List Char} {verbose : Option ℕ} {blockhash : Option (List Char)}
    {requested : Option BlockHash} (h : Finds R txidStr blockhash requested view tx) :
    call decimals K S parsed overflowChecks R txidStr verbose blockhash =
      (inActiveChain R view tx requested).bind fun active =>
        respond decimals K S parsed overflowChecks R view tx
          (verbose.any fun v => decide (v ≠ 0)) active := by
  obtain ⟨txid, htxid, htransaction⟩ := h.transaction
  have hsnapshot := (ask_eq_ok (R := R)).mpr h.snapshot
  have htx := (ask_eq_ok (R := R)).mpr htransaction
  simp only [call, htxid, h.requested, hsnapshot, bind, Except.bind, htx]

section

variable {hash : BlockHash} {h : ℕ}

theorem inActiveChain_other (hne : tx.blockHash ≠ some hash) :
    inActiveChain R view tx (some hash) = .error (.Error notInProvidedBlock) := by
  simp only [inActiveChain, hne, ne_eq, not_false_eq_true, if_true]

theorem inActiveChain_side (hhash : tx.blockHash = some hash) (hside : SideChain tx) :
    inActiveChain R view tx (some hash) =
      .error (.Panic "a transaction with a block hash has a mined height") := by
  simp [inActiveChain, hhash, hside.minedHeight]

theorem inActiveChain_error {e : ChainError} (hhash : tx.blockHash = some hash)
    (hheight : tx.minedHeight = some h) (hheader : R.getBlockHeader view h = .error e) :
    inActiveChain R view tx (some hash) =
      .error (.Error (LegacyCode.Database.withMessage (R.errorText e))) := by
  simp only [inActiveChain, hhash, hheight, hheader, ne_eq, not_true_eq_false, if_false]
  rfl

theorem inActiveChain_best {header : Option BlockHeader} (hbest : BestChain R view tx)
    (hhash : tx.blockHash = some hash) (hheight : tx.minedHeight = some h)
    (hheader : R.getBlockHeader view h = .ok header) :
    inActiveChain R view tx (some hash) = .ok (some true) := by
  have hcanonical := hbest.canonical h hheight header hheader
  have hask := (ask_eq_ok (R := R)).mpr hheader
  simp only [inActiveChain, hhash, hheight, ne_eq, not_true_eq_false, if_false, hask, bind,
    Except.bind, hcanonical, decide_true]

end

/-- A call that is restricted to another block fails for that. -/
theorem handles_notInProvidedBlock {hash : BlockHash} (hne : tx.blockHash ≠ some hash) :
    Handles R view tx (some hash)
      (.error (.Error notInProvidedBlock) : Except CallFailure (ResultType Decimal)) where
  no_panic := by simp
  provided_block := iff_of_true rfl ⟨hash, rfl, hne⟩
  active := by simp
  place := by simp

/-- A call that is restricted to the block of a transaction in the best chain. -/
theorem handles_best_iff {verbose : Option ℕ} {hash : BlockHash} (hbest : BestChain R view tx)
    (hhash : tx.blockHash = some hash) :
    Handles R view tx (some hash) ((inActiveChain R view tx (some hash)).bind fun active =>
        respond decimals K S parsed overflowChecks R view tx
          (verbose.any fun v => decide (v ≠ 0)) active) ↔
      (Answered R view tx verbose (some hash) →
        (¬ SideChain tx ∧ ∀ h ∈ tx.minedHeight, h < 2 ^ 31) ∧
          (overflowChecks = true → (parsed tx.inner).vout.length < 65536)) := by
  have hblock : ∀ hash' ∈ some hash, tx.blockHash = some hash' := by
    rintro hash' ⟨⟩
    exact hhash
  obtain ⟨h, hheight⟩ := Option.isSome_iff_exists.mp hbest.minedHeight
  cases hheader : R.getBlockHeader view h with
  | error e =>
    rw [inActiveChain_error hhash hheight hheader]
    refine iff_of_true (handles_database hblock) fun hanswered => ?_
    obtain ⟨header, hok⟩ := hanswered.header rfl h hheight
    rw [hheader] at hok
    cases hok
  | ok header =>
    rw [inActiveChain_best hbest hhash hheight hheader]
    refine (handles_respond_iff (Or.inl hbest) hblock ⟨rfl, fun _ => by simp [hbest]⟩).trans ?_
    constructor
    · intro hcondition hanswered
      exact hcondition hanswered.verbose hanswered.tip
    · intro hcondition hverbose htip
      refine hcondition ⟨hverbose, htip, fun _ h' hmem => ⟨header, ?_⟩⟩
      rw [hheight] at hmem
      cases hmem
      exact hheader

/-- A call that finds a transaction in a documented state handles it exactly where another
    block was provided; or the transaction is not one of a side chain whose block was
    provided, and where a verbose response is answered, it is not of a side chain at all, its
    height is below 2^31, and the JSON does not overflow. -/
theorem handles_iff {txidStr : List Char} {verbose : Option ℕ} {blockhash : Option (List Char)}
    {requested : Option BlockHash} (hfinds : Finds R txidStr blockhash requested view tx)
    (hdocumented : Documented R view tx) :
    Handles R view tx requested
        (call decimals K S parsed overflowChecks R txidStr verbose blockhash) ↔
      (∃ hash ∈ requested, tx.blockHash ≠ some hash) ∨
        ¬ (SideChain tx ∧ requested.isSome) ∧
          (Answered R view tx verbose requested →
            (¬ SideChain tx ∧ ∀ h ∈ tx.minedHeight, h < 2 ^ 31) ∧
              (overflowChecks = true → (parsed tx.inner).vout.length < 65536)) := by
  rw [call_eq hfinds]
  by_cases hother : ∃ hash ∈ requested, tx.blockHash ≠ some hash
  · obtain ⟨hash, rfl, hne⟩ := hother
    rw [inActiveChain_other hne]
    exact iff_of_true (handles_notInProvidedBlock hne) (Or.inl ⟨hash, rfl, hne⟩)
  simp only [hother, false_or]
  have hblock : ∀ hash ∈ requested, tx.blockHash = some hash := by
    intro hash hmem
    by_contra hne
    exact hother ⟨hash, hmem, hne⟩
  cases requested with
  | none =>
    have hactive : inActiveChain R view tx none = .ok none := rfl
    rw [hactive]
    refine (handles_respond_iff hdocumented hblock (by simp)).trans ?_
    constructor
    · intro h
      exact ⟨by simp, fun hanswered => h hanswered.verbose hanswered.tip⟩
    · intro h hverbose htip
      exact h.2 ⟨hverbose, htip, by simp⟩
  | some hash =>
    have hhash : tx.blockHash = some hash := hblock hash rfl
    rcases hdocumented with hbest | hside | hmempool
    · rw [handles_best_iff hbest hhash]
      have hnot : ¬ (SideChain tx ∧ (some hash).isSome) := fun h => hbest.not_sideChain h.1
      exact ⟨fun h => ⟨hnot, h⟩, fun h => h.2⟩
    · rw [inActiveChain_side hhash hside]
      exact iff_of_false (fun h => h.no_panic _ rfl) fun h => h.1 ⟨hside, rfl⟩
    · rw [hmempool.blockHash] at hhash
      cases hhash

end

/-! ### A transaction of a side chain -/

namespace SideBlock

open UncompressedKey (codecs solver)
open TxToJson.ManyOutputs (versions transaction)

/-- A transaction of the block 7, mined at `minedHeight` if that block is in the best
    chain. -/
def chainTx (minedHeight : Option ℕ) : ChainTx :=
  ⟨⟨[1]⟩, [1], some 7, minedHeight, minedHeight.map fun _ => 1700000000⟩

def view : ChainView := ⟨⟨100, 9⟩⟩

/-- The chain of `view`, whose block at height 90 is the block 7. -/
def reads (minedHeight : Option ℕ) : Reads where
  snapshot := .ok view
  getTransaction _ _ := .ok (some (chainTx minedHeight))
  getBlockHeader _ height := .ok (some ⟨if height = 90 then 7 else 8⟩)
  tip view := .ok view.tip
  errorText _ := ""

/-- The JSON has one output. -/
def parsed (_ : Transaction) : TransactionData versions := transaction 1

/-- The transaction 1 and the block 7. -/
def txidStr : List Char := hashText 1

def blockText : List Char := hashText 7

theorem finds_block (minedHeight : Option ℕ) :
    Finds (reads minedHeight) txidStr (some blockText) (some 7) view (chainTx minedHeight) where
  requested := by decide +kernel
  snapshot := rfl
  transaction := ⟨1, by decide +kernel, rfl⟩

theorem finds_any (minedHeight : Option ℕ) :
    Finds (reads minedHeight) txidStr none none view (chainTx minedHeight) where
  requested := rfl
  snapshot := rfl
  transaction := ⟨1, by decide +kernel, rfl⟩

/-- A transaction of the best chain is handled. -/
theorem handles_best : Handles (reads (some 90)) view (chainTx (some 90)) (some 7)
    (call Units.fixed codecs solver parsed true (reads (some 90)) txidStr (some 1)
      (some blockText)) := by
  have hbest : BestChain (reads (some 90)) view (chainTx (some 90)) := by
    refine ⟨rfl, rfl, rfl, fun h hmem header hheader => ?_⟩
    cases hmem
    cases hheader
    rfl
  refine (handles_iff (finds_block (some 90)) (Or.inl hbest)).mpr (Or.inr ⟨?_, fun _ => ?_⟩)
  · rintro ⟨hside, -⟩
    cases hside.minedHeight
  · refine ⟨⟨?_, fun h hmem => ?_⟩, fun _ => by decide⟩
    · rintro hside
      cases hside.minedHeight
    · cases hmem
      norm_num

/-- A transaction of a side chain is a panic with its block, and has no height without. -/
theorem side_chain :
    call Units.fixed codecs solver parsed false (reads none) txidStr (some 1) (some blockText) =
      .error (.Panic "a transaction with a block hash has a mined height") ∧
    (∃ r, call Units.fixed codecs solver parsed false (reads none) txidStr (some 1) none =
      .ok (.Verbose r) ∧ r.height = none ∧ r.confirmations = none) ∧
    documentedPlace (chainTx none) 100 = (some (-1), some 0) ∧
    SideChain (chainTx none) := by
  refine ⟨?_, ?_, rfl, rfl, rfl, rfl⟩
  · rw [call_eq (finds_block none)]
    rfl
  · rw [call_eq (finds_any none)]
    exact ⟨_, rfl, rfl, rfl⟩

end SideBlock

end Zallet.Rpc.GetRawTransaction
