import Zallet.Common.Loop
import Zallet.Common.SortedMap
import Zallet.Common.Text
import Zallet.Rpc.Amounts

/-!
# Payment requests

`build_request` and `parse_memo` of
`zallet-core/src/components/json_rpc/payments.rs`, lines 81–134 and 911–929.

The addresses, memos and ZIP 321 requests are those of other crates.
`RequestCodecs` has the functions that are called, and `RequestCodecs.Lawful`
is what is assumed of them. `buildRequest_iff`: a request is built exactly for
the acceptable lists of amounts, with one payment for each of them.
-/

namespace Zallet.Rpc

open Zallet.Common
open Zallet.Common.Loop

/-- `AmountParameter` (lines 48–64). -/
structure AmountParameter where
  address : List Char
  amount : JsonValue
  memo : Option (List Char)

/-- `zip321::Payment`, without the label, the message and the other parameters,
    which are always empty here. -/
structure Payment (ZcashAddress MemoBytes : Type) where
  recipientAddress : ZcashAddress
  amount : Option Zatoshis
  memo : Option MemoBytes
  deriving DecidableEq

inductive PaymentError
  | TransparentMemo
  | ZeroValuedTransparentOutput
  deriving DecidableEq

/-- `TransactionRequest`: the payments by their index. -/
structure TransactionRequest (ZcashAddress MemoBytes : Type) where
  payments : SortedMap ℕ (Payment ZcashAddress MemoBytes)

/-- What `build_request` calls on addresses, memos and requests: the parser of
    addresses, `hex::decode`, `MemoBytes::from_bytes`, `Payment::new` and
    `TransactionRequest::new`. An error of the last is its text. -/
structure RequestCodecs (ZcashAddress MemoBytes : Type) where
  parseAddress : List Char → Option ZcashAddress
  hexDecode : List Char → Option (List UInt8)
  memoFromBytes : List UInt8 → Option MemoBytes
  paymentNew : ZcashAddress → Option Zatoshis → Option MemoBytes →
    Except PaymentError (Payment ZcashAddress MemoBytes)
  requestNew : List (Payment ZcashAddress MemoBytes) →
    Except String (TransactionRequest ZcashAddress MemoBytes)

def invalidParameter (message : String) : Failure :=
  .Error (LegacyCode.InvalidParameter.withMessage message)

/-- `str::len`. -/
def byteLength (text : List Char) : ℕ := (text.map Char.utf8Size).sum

/-- `MAX_MEMO_BYTES` (line 909). -/
def maxMemoBytes : ℕ := 512

/-- `Option::ok_or`. -/
def okOrFailure {α : Type} (e : Failure) : Option α → Except Failure α
  | some a => .ok a
  | none => .error e

/-- `Zatoshis + Zatoshis`. -/
def Zatoshis.add (a b : Zatoshis) : Option Zatoshis :=
  if h : a.value + b.value ≤ maxMoney then some ⟨a.value + b.value, h⟩ else none

def Zatoshis.zero : Zatoshis := ⟨0, Nat.zero_le _⟩

section

variable {ZcashAddress MemoBytes : Type} [DecidableEq ZcashAddress]
  (codecs : RequestCodecs ZcashAddress MemoBytes)

/-- `parse_memo` (lines 911–929). -/
def parseMemo (memoHex : List Char) : Except Failure MemoBytes := do
  if byteLength memoHex > maxMemoBytes * 2 then
    .error (invalidParameter
      "Invalid parameter, memo is longer than the maximum allowed 512 bytes.")
  else
    let memoBytes ← okOrFailure
      (invalidParameter "Invalid parameter, expected memo data in hexadecimal format.")
      (codecs.hexDecode memoHex)
    okOrFailure
      (invalidParameter "Invalid parameter, memo is longer than the maximum allowed 512 bytes.")
      (codecs.memoFromBytes memoBytes)

/-- `amount.memo().as_deref().map(parse_memo).transpose()`. -/
def parseOptionalMemo : Option (List Char) → Except Failure (Option MemoBytes)
  | none => .ok none
  | some memoHex => do
    let memo ← parseMemo codecs memoHex
    return some memo

/-- The local variables of the loop. -/
structure RequestState (ZcashAddress MemoBytes : Type) where
  recipientAddrs : List ZcashAddress
  payments : List (Payment ZcashAddress MemoBytes)
  totalOut : Zatoshis

/-- The message for an error of `Payment::new` (lines 116–123). -/
def paymentErrorMessage : PaymentError → String
  | .TransparentMemo => "Cannot send memo to transparent recipient"
  | .ZeroValuedTransparentOutput => "Cannot send zero-valued output to transparent recipient"

/-- One turn of the loop (lines 96–128). -/
def addAmount (s : RequestState ZcashAddress MemoBytes) (amount : AmountParameter) :
    Except Failure (RequestState ZcashAddress MemoBytes) := do
  let addr ← okOrFailure
    (invalidParameter ("Invalid parameter, unknown address format: " ++ String.ofList amount.address))
    (codecs.parseAddress amount.address)
  if addr ∈ s.recipientAddrs then
    .error (invalidParameter
      ("Invalid parameter, duplicated recipient address: " ++ String.ofList amount.address))
  else
    let memo ← parseOptionalMemo codecs amount.memo
    let value ← zatoshisFromValue amount.amount
    let payment ← (codecs.paymentNew addr (some value) memo).mapError
      fun e => invalidParameter (paymentErrorMessage e)
    let totalOut ← okOrFailure (invalidParameter "Value too large") (s.totalOut.add value)
    return ⟨addr :: s.recipientAddrs, s.payments ++ [payment], totalOut⟩

/-- `build_request` (lines 81–134). -/
def buildRequest (amounts : List AmountParameter) :
    Except Failure (TransactionRequest ZcashAddress MemoBytes) :=
  match amounts with
  | [] => .error (invalidParameter "Invalid parameter, amounts array is empty.")
  | amounts => do
    let s ← amounts.foldlM (addAmount codecs) ⟨[], [], Zatoshis.zero⟩
    (codecs.requestNew s.payments).mapError
      fun e => invalidParameter ("Invalid payment request: " ++ e)

/-- The exact sum of the values of payments. -/
def totalOf (payments : List (Payment ZcashAddress MemoBytes)) : ℕ :=
  (payments.map fun p => (p.amount.map Zatoshis.value).getD 0).sum

/-- What is assumed of the codecs, for the addresses that are transparent:
    `Payment::new` and `TransactionRequest::new` reject exactly transparent
    memos, transparent zeros and totals above `MAX_MONEY`. -/
structure RequestCodecs.Lawful (transparent : ZcashAddress → Bool) : Prop where
  hexDecode_length : ∀ text bytes, codecs.hexDecode text = some bytes →
    byteLength text = 2 * bytes.length
  memoFromBytes_isSome : ∀ bytes, (codecs.memoFromBytes bytes).isSome ↔ bytes.length ≤ maxMemoBytes
  paymentNew_ok : ∀ addr amount memo payment, codecs.paymentNew addr amount memo = .ok payment ↔
    payment = ⟨addr, amount, memo⟩ ∧ ¬ (transparent addr = true ∧ memo.isSome = true) ∧
      ¬ (transparent addr = true ∧ amount = some Zatoshis.zero)
  requestNew_isOk : ∀ payments, (∃ request, codecs.requestNew payments = .ok request) ↔
    totalOf payments ≤ maxMoney
  requestNew_payments : ∀ payments request, codecs.requestNew payments = .ok request →
    request.payments = .enumerate payments

end

/-! ## What a request is for -/

section

variable {ZcashAddress MemoBytes : Type} (codecs : RequestCodecs ZcashAddress MemoBytes)
  (transparent : ZcashAddress → Bool)

/-- The value of an entry, or zero if it has none. -/
def valueOf (a : AmountParameter) : ℕ :=
  match zatoshisFromValue a.amount with
  | .ok value => value.value
  | .error _ => 0

/-- The lists of amounts that can be paid. -/
structure Acceptable (amounts : List AmountParameter) : Prop where
  nonempty : amounts ≠ []
  addresses : ∀ a ∈ amounts, ∃ addr, codecs.parseAddress a.address = some addr
  distinct : amounts.Pairwise fun a b =>
    codecs.parseAddress a.address ≠ codecs.parseAddress b.address
  memos : ∀ a ∈ amounts, ∀ memo ∈ a.memo, ∃ bytes, codecs.hexDecode memo = some bytes ∧
    bytes.length ≤ maxMemoBytes
  values : ∀ a ∈ amounts, ∃ value, zatoshisFromValue a.amount = .ok value
  transparent : ∀ a ∈ amounts, ∀ addr ∈ codecs.parseAddress a.address, transparent addr = true →
    a.memo = none ∧ zatoshisFromValue a.amount ≠ .ok Zatoshis.zero
  total : (amounts.map valueOf).sum ≤ maxMoney

/-- The memo of a payment is that of the entry. -/
def SameMemo : Option (List Char) → Option MemoBytes → Prop
  | none, none => True
  | some text, some memo =>
    ∃ bytes, codecs.hexDecode text = some bytes ∧ codecs.memoFromBytes bytes = some memo
  | _, _ => False

/-- The payment of an entry. -/
structure Pays (a : AmountParameter) (p : Payment ZcashAddress MemoBytes) : Prop where
  address : codecs.parseAddress a.address = some p.recipientAddress
  amount : ∃ value, zatoshisFromValue a.amount = .ok value ∧ p.amount = some value
  memo : SameMemo codecs a.memo p.memo

/-- Neither a memo nor a zero goes to a transparent address. -/
def Permitted (p : Payment ZcashAddress MemoBytes) : Prop :=
  ¬ (transparent p.recipientAddress = true ∧ p.memo.isSome = true) ∧
    ¬ (transparent p.recipientAddress = true ∧ p.amount = some Zatoshis.zero)

end

/-! ## One turn of the loop -/

theorem okOrFailure_ok {α : Type} {e : Failure} {o : Option α} {a : α} :
    okOrFailure e o = .ok a ↔ o = some a := by
  cases o with
  | none => simp [okOrFailure]
  | some b => simp [okOrFailure]

theorem add_eq_some {a b c : Zatoshis} :
    a.add b = some c ↔ c.value = a.value + b.value := by
  have hle := c.le_max
  unfold Zatoshis.add
  split
  · cases c
    simp [eq_comm]
  · simp only [reduceCtorEq, false_iff]
    omega

section

variable {ZcashAddress MemoBytes : Type} {codecs : RequestCodecs ZcashAddress MemoBytes}
  {transparent : ZcashAddress → Bool}

theorem parseMemo_ok (h : codecs.Lawful transparent) {text : List Char} {memo : MemoBytes} :
    parseMemo codecs text = .ok memo ↔
      ∃ bytes, codecs.hexDecode text = some bytes ∧ codecs.memoFromBytes bytes = some memo := by
  unfold parseMemo
  split
  · rename_i hlong
    simp only [reduceCtorEq, false_iff]
    rintro ⟨bytes, hdecode, hmemo⟩
    have hlen := h.hexDecode_length text bytes hdecode
    have hle := (h.memoFromBytes_isSome bytes).mp (by rw [hmemo]; rfl)
    omega
  · simp only [bind_eq_ok, okOrFailure_ok]

theorem parseOptionalMemo_ok (h : codecs.Lawful transparent) {text : Option (List Char)}
    {memo : Option MemoBytes} :
    parseOptionalMemo codecs text = .ok memo ↔ SameMemo codecs text memo := by
  cases text with
  | none =>
    cases memo with
    | none => simp [parseOptionalMemo, SameMemo]
    | some memo => simp [parseOptionalMemo, SameMemo]
  | some text =>
    rw [parseOptionalMemo, bind_eq_ok]
    cases memo with
    | none => simp [SameMemo, pure, Except.pure]
    | some memo => simp [SameMemo, pure, Except.pure, parseMemo_ok h]

/-! ## The payment of an entry -/

theorem valueOf_eq {a : AmountParameter} {p : Payment ZcashAddress MemoBytes}
    (h : Pays codecs a p) : valueOf a = (p.amount.map Zatoshis.value).getD 0 := by
  obtain ⟨value, hvalue, hamount⟩ := h.amount
  simp [valueOf, hvalue, hamount]

theorem permitted_iff {a : AmountParameter} {p : Payment ZcashAddress MemoBytes}
    (h : Pays codecs a p) :
    (∀ addr ∈ codecs.parseAddress a.address, transparent addr = true →
      a.memo = none ∧ zatoshisFromValue a.amount ≠ .ok Zatoshis.zero) ↔ Permitted transparent p := by
  obtain ⟨value, hvalue, hamount⟩ := h.amount
  have hmemo : a.memo = none ↔ ¬ p.memo.isSome = true := by
    have hsame := h.memo
    revert hsame
    cases a.memo with
    | none => cases p.memo with
      | none => simp [SameMemo]
      | some memo => simp [SameMemo]
    | some text => cases p.memo with
      | none => simp [SameMemo]
      | some memo => simp
  unfold Permitted
  rw [h.address, hamount, hvalue, hmemo]
  simp only [Option.mem_def, Option.some.injEq, forall_eq', ne_eq, Except.ok.injEq]
  constructor
  · intro himp
    exact ⟨fun hc => (himp hc.1).1 hc.2, fun hc => (himp hc.1).2 hc.2⟩
  · rintro ⟨hm, hz⟩ htrans
    exact ⟨fun hc => hm ⟨htrans, hc⟩, fun hc => hz ⟨htrans, hc⟩⟩

theorem exists_sameMemo_iff (h : codecs.Lawful transparent) {text : Option (List Char)} :
    (∃ memo, SameMemo codecs text memo) ↔
      ∀ memo ∈ text, ∃ bytes, codecs.hexDecode memo = some bytes ∧ bytes.length ≤ maxMemoBytes := by
  cases text with
  | none => exact ⟨(fun _ memo hmemo => by cases hmemo), fun _ => ⟨none, trivial⟩⟩
  | some text =>
    constructor
    · rintro ⟨_ | memo, hsame⟩ memo' hmemo'
      · exact hsame.elim
      · obtain rfl : text = memo' := Option.some.inj hmemo'
        obtain ⟨bytes, hdecode, hfrom⟩ := hsame
        exact ⟨bytes, hdecode, (h.memoFromBytes_isSome bytes).mp (by rw [hfrom]; rfl)⟩
    · intro hvalid
      obtain ⟨bytes, hdecode, hle⟩ := hvalid text rfl
      obtain ⟨memo, hfrom⟩ := Option.isSome_iff_exists.mp ((h.memoFromBytes_isSome bytes).mpr hle)
      exact ⟨some memo, bytes, hdecode, hfrom⟩

/-- An entry has a payment exactly when its parts are valid. -/
theorem exists_pays_iff (h : codecs.Lawful transparent) {a : AmountParameter} :
    (∃ p, Pays codecs a p) ↔ (∃ addr, codecs.parseAddress a.address = some addr) ∧
      (∀ memo ∈ a.memo, ∃ bytes, codecs.hexDecode memo = some bytes ∧
        bytes.length ≤ maxMemoBytes) ∧
      ∃ value, zatoshisFromValue a.amount = .ok value := by
  rw [← exists_sameMemo_iff h]
  constructor
  · rintro ⟨p, haddr, ⟨value, hvalue, -⟩, hmemo⟩
    exact ⟨⟨_, haddr⟩, ⟨_, hmemo⟩, value, hvalue⟩
  · rintro ⟨⟨addr, haddr⟩, ⟨memo, hmemo⟩, value, hvalue⟩
    exact ⟨⟨addr, some value, memo⟩, haddr, ⟨value, hvalue, rfl⟩, hmemo⟩

/-- The payments that the loop adds to a state. -/
structure Adds (codecs : RequestCodecs ZcashAddress MemoBytes) (transparent : ZcashAddress → Bool)
    (s : RequestState ZcashAddress MemoBytes) (amounts : List AmountParameter)
    (ps : List (Payment ZcashAddress MemoBytes)) : Prop where
  pays : List.Forall₂ (Pays codecs) amounts ps
  permitted : ∀ p ∈ ps, Permitted transparent p
  distinct : (ps.map Payment.recipientAddress).Nodup
  new : ∀ p ∈ ps, p.recipientAddress ∉ s.recipientAddrs
  total : s.totalOut.value + totalOf ps ≤ maxMoney

theorem totalOf_cons (p : Payment ZcashAddress MemoBytes)
    (ps : List (Payment ZcashAddress MemoBytes)) : totalOf (p :: ps) = totalOf [p] + totalOf ps := by
  simp [totalOf]

theorem adds_cons {s s' : RequestState ZcashAddress MemoBytes} {a : AmountParameter}
    {amounts : List AmountParameter} {p : Payment ZcashAddress MemoBytes}
    {ps : List (Payment ZcashAddress MemoBytes)}
    (haddrs : s'.recipientAddrs = p.recipientAddress :: s.recipientAddrs)
    (htotal : s'.totalOut.value = s.totalOut.value + totalOf [p]) :
    Adds codecs transparent s (a :: amounts) (p :: ps) ↔
      (Pays codecs a p ∧ Permitted transparent p ∧ p.recipientAddress ∉ s.recipientAddrs) ∧
        Adds codecs transparent s' amounts ps := by
  constructor
  · rintro ⟨hpays, hpermit, hdistinct, hnew, hle⟩
    rw [List.forall₂_cons] at hpays
    rw [List.forall_mem_cons] at hpermit hnew
    rw [List.map_cons, List.nodup_cons] at hdistinct
    rw [totalOf_cons] at hle
    refine ⟨⟨hpays.1, hpermit.1, hnew.1⟩, hpays.2, hpermit.2, hdistinct.2, fun q hq => ?_, by omega⟩
    rw [haddrs, List.mem_cons, not_or]
    refine ⟨fun heq => hdistinct.1 ?_, hnew.2 q hq⟩
    rw [← heq]
    exact List.mem_map_of_mem hq
  · rintro ⟨⟨hpay, hpermit, hnew⟩, hpays, hpermits, hdistinct, hnews, hle⟩
    have hnews' : ∀ q ∈ ps, q.recipientAddress ≠ p.recipientAddress ∧
        q.recipientAddress ∉ s.recipientAddrs := by
      intro q hq
      have := hnews q hq
      rwa [haddrs, List.mem_cons, not_or] at this
    refine ⟨.cons hpay hpays, List.forall_mem_cons.mpr ⟨hpermit, hpermits⟩, ?_,
      List.forall_mem_cons.mpr ⟨hnew, fun q hq => (hnews' q hq).2⟩, ?_⟩
    · rw [List.map_cons, List.nodup_cons]
      refine ⟨fun hmem => ?_, hdistinct⟩
      obtain ⟨q, hq, heq⟩ := List.mem_map.mp hmem
      exact (hnews' q hq).1 heq
    · rw [totalOf_cons]
      omega

/-! ## The loop -/

variable [DecidableEq ZcashAddress]

theorem addAmount_ok (h : codecs.Lawful transparent) {s s' : RequestState ZcashAddress MemoBytes}
    {a : AmountParameter} :
    addAmount codecs s a = .ok s' ↔
      ∃ p, Pays codecs a p ∧ Permitted transparent p ∧ p.recipientAddress ∉ s.recipientAddrs ∧
        s'.recipientAddrs = p.recipientAddress :: s.recipientAddrs ∧
        s'.payments = s.payments ++ [p] ∧ s'.totalOut.value = s.totalOut.value + totalOf [p] := by
  unfold addAmount
  rw [bind_eq_ok]
  constructor
  · rintro ⟨addr, haddr, hrest⟩
    split at hrest
    · cases hrest
    rename_i hnew
    obtain ⟨memo, hmemo, hrest⟩ := bind_eq_ok.mp hrest
    obtain ⟨value, hvalue, hrest⟩ := bind_eq_ok.mp hrest
    obtain ⟨payment, hpayment, hrest⟩ := bind_eq_ok.mp hrest
    obtain ⟨total, htotal, hrest⟩ := bind_eq_ok.mp hrest
    obtain ⟨rfl, hmemo', hzero⟩ := (h.paymentNew_ok _ _ _ _).mp (mapError_eq_ok.mp hpayment)
    obtain rfl := Except.ok.inj hrest
    refine ⟨⟨addr, some value, memo⟩, ⟨okOrFailure_ok.mp haddr, ⟨value, hvalue, rfl⟩,
      (parseOptionalMemo_ok h).mp hmemo⟩, ⟨hmemo', hzero⟩, hnew, rfl, rfl, ?_⟩
    simpa [totalOf] using add_eq_some.mp (okOrFailure_ok.mp htotal)
  · rintro ⟨⟨addr, amount, memo⟩, ⟨haddr, ⟨value, hvalue, hamount⟩, hmemo⟩, hpermit, hnew, haddrs,
      hpayments, htotal⟩
    obtain rfl : amount = some value := hamount
    refine ⟨addr, okOrFailure_ok.mpr haddr, ?_⟩
    rw [if_neg hnew]
    refine bind_eq_ok.mpr ⟨memo, (parseOptionalMemo_ok h).mpr hmemo, ?_⟩
    refine bind_eq_ok.mpr ⟨value, hvalue, ?_⟩
    refine bind_eq_ok.mpr ⟨⟨addr, some value, memo⟩,
      mapError_eq_ok.mpr ((h.paymentNew_ok _ _ _ _).mpr ⟨rfl, hpermit⟩), ?_⟩
    refine bind_eq_ok.mpr ⟨s'.totalOut, okOrFailure_ok.mpr (add_eq_some.mpr ?_), ?_⟩
    · simpa [totalOf] using htotal
    · cases s'
      simp only at haddrs hpayments
      rw [haddrs, hpayments]
      rfl

theorem foldlM_addAmount_ok (h : codecs.Lawful transparent) (amounts : List AmountParameter)
    (s : RequestState ZcashAddress MemoBytes) (qs : List (Payment ZcashAddress MemoBytes)) :
    (∃ s', amounts.foldlM (addAmount codecs) s = .ok s' ∧ s'.payments = qs) ↔
      ∃ ps, Adds codecs transparent s amounts ps ∧ qs = s.payments ++ ps := by
  induction amounts generalizing s qs with
  | nil =>
    rw [List.foldlM_nil]
    constructor
    · rintro ⟨s', hs', rfl⟩
      obtain rfl := Except.ok.inj hs'
      refine ⟨[], ⟨.nil, by simp, List.nodup_nil, by simp, ?_⟩, by simp⟩
      simpa [totalOf] using s.totalOut.le_max
    · rintro ⟨ps, hadds, rfl⟩
      obtain rfl := List.forall₂_nil_left_iff.mp hadds.pays
      exact ⟨s, rfl, by simp⟩
  | cons a amounts ih =>
    rw [List.foldlM_cons]
    constructor
    · rintro ⟨s', hs', rfl⟩
      obtain ⟨s₁, hs₁, hfold⟩ := bind_eq_ok.mp hs'
      obtain ⟨p, hpay, hpermit, hnew, haddrs, hpayments, htotal⟩ := (addAmount_ok h).mp hs₁
      obtain ⟨ps, hadds, hps⟩ := (ih s₁ s'.payments).mp ⟨s', hfold, rfl⟩
      refine ⟨p :: ps, (adds_cons haddrs htotal).mpr ⟨⟨hpay, hpermit, hnew⟩, hadds⟩, ?_⟩
      rw [hps, hpayments, List.append_assoc, List.singleton_append]
    · rintro ⟨qs, hadds, rfl⟩
      obtain ⟨p, ps, hpay, hpays, rfl⟩ := List.forall₂_cons_left_iff.mp hadds.pays
      have hle : s.totalOut.value + totalOf [p] ≤ maxMoney := by
        have := hadds.total
        rw [totalOf_cons] at this
        omega
      let s₁ : RequestState ZcashAddress MemoBytes := ⟨p.recipientAddress :: s.recipientAddrs,
        s.payments ++ [p], ⟨s.totalOut.value + totalOf [p], hle⟩⟩
      have hs₁ : s₁.recipientAddrs = p.recipientAddress :: s.recipientAddrs := rfl
      obtain ⟨⟨-, hpermit, hnew⟩, hrest⟩ := (adds_cons hs₁ rfl).mp hadds
      obtain ⟨s', hfold, hs'⟩ := (ih _ _).mpr ⟨ps, hrest, rfl⟩
      refine ⟨s', bind_eq_ok.mpr ⟨_, (addAmount_ok h).mpr ⟨p, hpay, hpermit, hnew, rfl, rfl, rfl⟩, hfold⟩,
        ?_⟩
      rw [hs', List.append_assoc, List.singleton_append]

/-! ## The lists that are accepted -/

omit [DecidableEq ZcashAddress] in
theorem distinct_iff {amounts : List AmountParameter}
    {ps : List (Payment ZcashAddress MemoBytes)} (hpays : List.Forall₂ (Pays codecs) amounts ps) :
    (amounts.Pairwise fun a b => codecs.parseAddress a.address ≠ codecs.parseAddress b.address) ↔
      (ps.map Payment.recipientAddress).Nodup := by
  have haddrs : amounts.map (fun a => codecs.parseAddress a.address) =
      (ps.map Payment.recipientAddress).map some := by
    rw [List.map_map]
    exact map_eq_of_forall₂ hpays fun a p hp => hp.address
  rw [← List.nodup_map_iff (Option.some_injective _), ← haddrs, List.Nodup, List.pairwise_map]

omit [DecidableEq ZcashAddress] in
/-- The payments of a list can be added exactly when the list is acceptable. -/
theorem acceptable_iff (h : codecs.Lawful transparent) {amounts : List AmountParameter}
    (hne : amounts ≠ []) :
    Acceptable codecs transparent amounts ↔
      ∃ ps, Adds codecs transparent ⟨[], [], Zatoshis.zero⟩ amounts ps := by
  have htotal {ps : List (Payment ZcashAddress MemoBytes)}
      (hpays : List.Forall₂ (Pays codecs) amounts ps) :
      (amounts.map valueOf).sum = Zatoshis.zero.value + totalOf ps := by
    rw [totalOf, map_eq_of_forall₂ hpays fun a p hp => valueOf_eq hp]
    exact (Nat.zero_add _).symm
  constructor
  · intro hacc
    obtain ⟨ps, hpays⟩ := exists_forall₂_iff.mpr fun a ha => (exists_pays_iff h).mpr
      ⟨hacc.addresses a ha, hacc.memos a ha, hacc.values a ha⟩
    refine ⟨ps, hpays, ?_, (distinct_iff hpays).mp hacc.distinct, by simp, ?_⟩
    · exact (forall_mem_iff_of_forall₂ hpays fun a p hp => permitted_iff hp).mp hacc.transparent
    · rw [← htotal hpays]
      exact hacc.total
  · rintro ⟨ps, hadds⟩
    have hpays := hadds.pays
    have hvalid := fun a ha => (exists_pays_iff h).mp (exists_forall₂_iff.mp ⟨ps, hpays⟩ a ha)
    refine ⟨hne, fun a ha => (hvalid a ha).1, (distinct_iff hpays).mpr hadds.distinct,
      fun a ha => (hvalid a ha).2.1, fun a ha => (hvalid a ha).2.2, ?_, ?_⟩
    · exact (forall_mem_iff_of_forall₂ hpays fun a p hp => permitted_iff hp).mpr hadds.permitted
    · rw [htotal hpays]
      exact hadds.total

theorem buildRequest_ok (h : codecs.Lawful transparent) {amounts : List AmountParameter}
    {request : TransactionRequest ZcashAddress MemoBytes} :
    buildRequest codecs amounts = .ok request ↔ amounts ≠ [] ∧
      ∃ ps, Adds codecs transparent ⟨[], [], Zatoshis.zero⟩ amounts ps ∧
        codecs.requestNew ps = .ok request := by
  cases amounts with
  | nil => simp [buildRequest]
  | cons a amounts =>
    rw [buildRequest, bind_eq_ok]
    · simp only [mapError_eq_ok]
      constructor
      · rintro ⟨s, hs, hnew⟩
        obtain ⟨ps, hadds, hps⟩ := (foldlM_addAmount_ok h _ _ s.payments).mp ⟨s, hs, rfl⟩
        rw [hps] at hnew
        exact ⟨List.cons_ne_nil _ _, ps, hadds, hnew⟩
      · rintro ⟨-, ps, hadds, hnew⟩
        obtain ⟨s, hs, hps⟩ := (foldlM_addAmount_ok h _ _ ps).mpr ⟨ps, hadds, rfl⟩
        exact ⟨s, hs, by rw [hps]; exact hnew⟩
    · exact List.cons_ne_nil _ _

/-- A request is built exactly for an acceptable list, with the payments of its
    entries in their order. -/
theorem buildRequest_iff (h : codecs.Lawful transparent) (amounts : List AmountParameter) :
    ((∃ request, buildRequest codecs amounts = .ok request) ↔
      Acceptable codecs transparent amounts) ∧
      ∀ request, buildRequest codecs amounts = .ok request →
        ∃ ps, request.payments = .enumerate ps ∧
          List.Forall₂ (Pays codecs) amounts ps := by
  constructor
  · constructor
    · rintro ⟨request, hrequest⟩
      obtain ⟨hne, ps, hadds, -⟩ := (buildRequest_ok h).mp hrequest
      exact (acceptable_iff h hne).mpr ⟨ps, hadds⟩
    · intro hacc
      obtain ⟨ps, hadds⟩ := (acceptable_iff h hacc.nonempty).mp hacc
      have htotal : totalOf ps ≤ maxMoney := le_trans (Nat.le_add_left _ _) hadds.total
      obtain ⟨request, hnew⟩ := (h.requestNew_isOk ps).mpr htotal
      exact ⟨request, (buildRequest_ok h).mpr ⟨hacc.nonempty, ps, hadds, hnew⟩⟩
  · intro request hrequest
    obtain ⟨-, ps, hadds, hnew⟩ := (buildRequest_ok h).mp hrequest
    exact ⟨ps, h.requestNew_payments ps request hnew, hadds.pays⟩

end

/-! ## Two recipients -/

namespace TwoRecipients

open Zallet.Common Zallet.Common.Text

/-- `T_ADDR_1` and `SAPLING_ADDR` of the tests. -/
inductive TestAddress
  | tAddr1
  | sapling
  deriving DecidableEq

def TestAddress.text : TestAddress → List Char
  | tAddr1 => "t1VydNnkjBzfL1iAMyUbwGKJAF7PgvuCfMY".toList
  | sapling =>
    "zs1qqqqqqqqqqqqqqqqqqcguyvaw2vjk4sdyeg0lc970u659lvhqq7t0np6hlup5lusxle75c8v35z".toList

def parseAddress (text : List Char) : Option TestAddress :=
  if text = TestAddress.text .tAddr1 then some .tAddr1
  else if text = TestAddress.text .sapling then some .sapling
  else none

theorem utf8Size_hexDigit {c : Char} {d : ℕ} (h : hexDigits.lookup c = some d) :
    c.utf8Size = 1 := by
  have hmem : (c, d) ∈ hexDigits := List.lookup_eq_some_iff.mp h |>.elim fun l₁ h => by
    obtain ⟨l₂, heq, -⟩ := h
    rw [heq]
    simp
  have hall : ∀ e ∈ hexDigits, e.1.utf8Size = 1 := by decide
  exact hall _ hmem

theorem hexDecode_length (text : List Char) (bytes : List UInt8)
    (h : hexDecode text = some bytes) : byteLength text = 2 * bytes.length := by
  induction text using hexDecode.induct generalizing bytes with
  | case1 =>
    obtain rfl : [] = bytes := Option.some.inj h
    rfl
  | case2 c => cases h
  | case3 a b rest hi lo bs hbs hlo hhi ih =>
    simp only [hexDecode, hhi, hlo, hbs, Option.some.injEq] at h
    have hrest := ih bs hbs
    rw [← h]
    simp only [byteLength, List.map_cons, List.sum_cons, List.length_cons, utf8Size_hexDigit hhi,
      utf8Size_hexDigit hlo] at hrest ⊢
    omega
  | case4 a b rest hno ih =>
    rw [hexDecode] at h
    split at h
    · rename_i hhi hlo hbs
      exact (hno _ _ _ hhi hlo hbs).elim
    · cases h

/-- A memo is padded with zeros. -/
def memoFromBytes (bytes : List UInt8) : Option (List UInt8) :=
  if bytes.length ≤ maxMemoBytes then
    some (bytes ++ List.replicate (maxMemoBytes - bytes.length) 0)
  else none

def transparent (addr : TestAddress) : Bool := decide (addr = .tAddr1)

def paymentNew (addr : TestAddress) (amount : Option Zatoshis) (memo : Option (List UInt8)) :
    Except PaymentError (Payment TestAddress (List UInt8)) :=
  if transparent addr = true ∧ memo.isSome = true then .error .TransparentMemo
  else if transparent addr = true ∧ amount = some Zatoshis.zero then
    .error .ZeroValuedTransparentOutput
  else .ok ⟨addr, amount, memo⟩

def requestNew (payments : List (Payment TestAddress (List UInt8))) :
    Except String (TransactionRequest TestAddress (List UInt8)) :=
  if totalOf payments ≤ maxMoney then .ok ⟨.enumerate payments⟩
  else .error "Amount out of range"

def codecs : RequestCodecs TestAddress (List UInt8) where
  parseAddress
  hexDecode
  memoFromBytes
  paymentNew
  requestNew

theorem lawful : codecs.Lawful transparent where
  hexDecode_length := hexDecode_length
  memoFromBytes_isSome bytes := by
    show (memoFromBytes bytes).isSome = true ↔ _
    unfold memoFromBytes
    split
    · simpa
    · rename_i hlong
      simp [hlong]
  paymentNew_ok addr amount memo payment := by
    show paymentNew addr amount memo = .ok payment ↔ _
    unfold paymentNew
    split
    · rename_i hmemo
      simp [hmemo]
    · rename_i hmemo
      split
      · rename_i hzero
        simp [hzero]
      · rename_i hzero
        simp only [Except.ok.injEq, hmemo, hzero, not_false_eq_true, and_true]
        exact eq_comm
  requestNew_isOk payments := by
    show (∃ request, requestNew payments = .ok request) ↔ _
    unfold requestNew
    split
    · simpa
    · rename_i hlarge
      simp [hlarge]
  requestNew_payments payments request h := by
    change requestNew payments = .ok request at h
    unfold requestNew at h
    split at h
    · rw [← Except.ok.inj h]
    · cases h

/-- A transparent payment and a shielded one with a memo. -/
def amounts : List AmountParameter :=
  [⟨TestAddress.text .tAddr1, .Number ['1', '.', '5'], none⟩,
    ⟨TestAddress.text .sapling, .String ['0'], some ['f', '6']⟩]

theorem acceptable : Acceptable codecs transparent amounts where
  nonempty := List.cons_ne_nil _ _
  addresses := by
    rw [amounts, List.forall_mem_cons, List.forall_mem_singleton]
    exact ⟨⟨.tAddr1, by decide +kernel⟩, .sapling, by decide +kernel⟩
  distinct := by
    rw [amounts, List.pairwise_pair]
    decide +kernel
  memos := by
    rw [amounts, List.forall_mem_cons, List.forall_mem_singleton]
    refine ⟨fun memo hmemo => (Option.not_mem_none _ hmemo).elim, fun memo hmemo => ?_⟩
    obtain rfl : ['f', '6'] = memo := Option.some.inj hmemo
    exact ⟨[246], by decide +kernel, by decide⟩
  values := by
    rw [amounts, List.forall_mem_cons, List.forall_mem_singleton]
    exact ⟨⟨⟨150000000, by norm_num [maxMoney]⟩, by decide +kernel⟩, Zatoshis.zero,
      by decide +kernel⟩
  transparent := by
    rw [amounts, List.forall_mem_cons, List.forall_mem_singleton]
    refine ⟨fun _ _ _ => ⟨rfl, by decide +kernel⟩, fun addr haddr htrans => ?_⟩
    have hsapling : codecs.parseAddress (TestAddress.text .sapling) = some .sapling := by
      decide +kernel
    obtain rfl : TestAddress.sapling = addr := Option.some.inj (hsapling.symm.trans haddr)
    cases htrans
  total := by decide +kernel

end TwoRecipients

theorem buildRequest_two_recipients :
    ∃ request, buildRequest TwoRecipients.codecs TwoRecipients.amounts = .ok request :=
  (buildRequest_iff TwoRecipients.lawful TwoRecipients.amounts).1.mpr TwoRecipients.acceptable

end Zallet.Rpc
