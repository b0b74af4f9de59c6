import Zallet.Chain.Types
import Zallet.Common.Loop
import Zallet.Common.Paging
import Zallet.Common.Text
import Zallet.Rpc.Amounts
import Zallet.Rpc.Imports
import Zallet.Rpc.Privacy

/-!
# The transactions of the wallet

`z_listtransactions`
(`zallet-core/src/components/json_rpc/methods/list_transactions.rs`, lines 46–369), read
as a whole or in pages.

A query returns the rows that match in an order of `sort_height`, which is all that its
`ORDER BY` says, and the outputs of a transaction in any order. One row that cannot be read
fails the whole query. The view of the transactions has one row for an account and a
transaction. Account ids and transaction ids stand for their texts, and have their lengths.

* `new_eq_ok`, `readRow_eq_ok`: the rows that can be read, and what they show.
* `paging_lossless_iff`: when the pages have every entry, whatever the orders.
-/

namespace Zallet.Rpc.ListTransactions

open Zallet.Chain (TxId)
open Zallet.Common Zallet.Common.Loop Zallet.Common.Paging
open Zallet.Common.Text (hexEncode)
open Zallet.Sync (ShieldedPool)
open Zallet.Wallet (AccountUuid)

/-! ## The rows -/

/-- A row of `v_transactions`. -/
structure TxRow where
  accountUuid : AccountUuid
  minedHeight : Option ℕ
  txid : TxId
  expiryHeight : Option ℕ
  accountBalanceDelta : ℤ
  feePaid : Option ℕ
  sentNoteCount : ℕ
  receivedNoteCount : ℕ
  blockTime : Option ℤ
  expiredUnmined : Bool
  deriving DecidableEq

/-- A row of `v_tx_outputs`. -/
structure OutputRow where
  outputPool : ℤ
  outputIndex : ℕ
  fromAccount : Option AccountUuid
  toAccount : Option AccountUuid
  toAddress : Option String
  value : ℤ
  isChange : Bool
  memo : Option (List UInt8)
  deriving DecidableEq

/-- The account and the transaction of a row. -/
def TxRow.entry (row : TxRow) : AccountUuid × TxId := (row.accountUuid, row.txid)

/-- The wallet database, with the rows of `v_tx_outputs` by their transaction. -/
structure Database where
  transactions : List TxRow
  outputs : TxId → Multiset OutputRow
  entries_nodup : (transactions.map TxRow.entry).Nodup

/-! ## The query -/

/-- The parameters of the `WHERE` clause. -/
structure Filter where
  accountUuid : Option AccountUuid
  startHeight : Option ℕ
  endHeight : Option ℕ
  deriving DecidableEq

/-- The `WHERE` clause (lines 249–263). A comparison with `NULL` is not true. -/
def Filter.admits (f : Filter) (row : TxRow) : Bool :=
  f.accountUuid.all (fun accountUuid => decide (row.accountUuid = accountUuid)) &&
  f.startHeight.all (fun startHeight =>
    row.minedHeight.any (fun minedHeight => decide (startHeight ≤ minedHeight)) ||
      (row.minedHeight.isNone && f.endHeight.isNone)) &&
  f.endHeight.all (fun endHeight =>
    row.minedHeight.any fun minedHeight => decide (minedHeight < endHeight))

/-- `sort_height` (lines 237–247). `NULL` is last. -/
def sortHeight : Option ℕ → Option ℕ → WithTop ℕ
  | some minedHeight, _ => minedHeight
  | none, some expiryHeight => if expiryHeight = 0 then ⊤ else expiryHeight
  | none, none => ⊤

def TxRow.sortHeight (row : TxRow) : WithTop ℕ :=
  ListTransactions.sortHeight row.minedHeight row.expiryHeight

/-- The rows that match. -/
def Database.matching (db : Database) (f : Filter) : List TxRow :=
  db.transactions.filter f.admits

/-- The orders in which each query, given by its offset and its limit, has the rows and the
    outputs of a row. -/
structure Orders (db : Database) (f : Filter) where
  order : Option ℕ → Option ℕ → List TxRow
  outputs : Option ℕ → Option ℕ → TxRow → List OutputRow
  ordered : ∀ offset limit, Ordered TxRow.sortHeight (db.matching f) (order offset limit)
  outputs_eq : ∀ offset limit row, (outputs offset limit row : Multiset OutputRow) =
    db.outputs row.txid

/-! ## Reading a row -/

/-- `Memo`. -/
inductive Memo
  | Empty
  | Text (text : String)
  | Future (bytes : List UInt8)
  | Arbitrary (bytes : List UInt8)
  deriving DecidableEq

/-- `SqliteClientError::CorruptedData`. -/
structure CorruptedData where
  reason : String
  deriving DecidableEq

/-- What the rows are read with of other crates. An error is its text. -/
structure Readers where
  /-- `MemoBytes::from_bytes`, then `Memo::try_from`. -/
  memo : List UInt8 → Except String Memo
  /-- `OffsetDateTime::from_unix_timestamp`, and its text. -/
  datetime : ℤ → Except String String
  /-- The text of the error of the database. -/
  display : CorruptedData → String

/-- `WalletTxOutput` (lines 46–57). -/
structure WalletTxOutput where
  pool : String
  outputIndex : ℕ
  fromAccount : Option AccountUuid
  toAccount : Option AccountUuid
  toAddress : Option String
  value : ℕ
  isChange : Bool
  memo : Option String
  deriving DecidableEq

/-- `WalletTx` (lines 122–150). -/
structure WalletTx where
  accountUuid : AccountUuid
  minedHeight : Option ℕ
  txid : TxId
  expiryHeight : Option ℕ
  accountBalanceDelta : ℤ
  feePaid : Option ℕ
  sentNoteCount : ℕ
  receivedNoteCount : ℕ
  blockTime : Option ℤ
  blockDatetime : Option String
  expiredUnmined : Bool
  outputs : Multiset WalletTxOutput

/-- `WalletTxOutput::parse_pool_code` (lines 60–68). -/
def WalletTxOutput.parsePoolCode (poolCode : ℤ) : Option PoolType :=
  if poolCode = 0 then some .Transparent
  else if poolCode = 2 then some (.Shielded .Sapling)
  else if poolCode = 3 then some (.Shielded .Orchard)
  else if poolCode = 4 then some (.Shielded .Ironwood)
  else none

/-- `POOL_TRANSPARENT` to `POOL_IRONWOOD` (lines 17–20). -/
def poolText : PoolType → String
  | .Transparent => "transparent"
  | .Shielded .Sapling => "sapling"
  | .Shielded .Orchard => "orchard"
  | .Shielded .Ironwood => "ironwood"

/-- The `Debug` text of `BalanceError`. -/
def balanceErrorText : BalanceError → String
  | .Overflow => "Overflow"
  | .Underflow => "Underflow"

/-- `ZatBalance::from_i64`. -/
def zatBalanceFromI64 (amount : ℤ) : Except BalanceError ℤ :=
  if amount < -maxMoney then .error .Underflow
  else if (maxMoney : ℤ) < amount then .error .Overflow
  else .ok amount

/-- `Zatoshis::from_u64`. -/
def zatoshisFromU64 (amount : ℕ) : Except BalanceError ℕ :=
  if amount ≤ maxMoney then .ok amount else .error .Overflow

/-- What is shown of a memo (lines 108–113). -/
def Memo.render : Memo → Option String
  | .Empty => none
  | .Text text => some text
  | .Future bytes => some (String.ofList (hexEncode bytes))
  | .Arbitrary bytes => some (String.ofList (hexEncode bytes))

section

variable (R : Readers)

/-- The memo of an output (lines 103–119). -/
def readMemo : Option (List UInt8) → Except CorruptedData (Option String)
  | none => .ok none
  | some bytes =>
    match R.memo bytes with
    | .ok memo => .ok memo.render
    | .error e => .error ⟨"Invalid memo data: " ++ e⟩

/-- `WalletTxOutput::new` (lines 70–120). -/
def WalletTxOutput.new (row : OutputRow) : Except CorruptedData (Option WalletTxOutput) := do
  let pool ← match parsePoolCode row.outputPool with
    | some pool => .ok (poolText pool)
    | none => .error ⟨"Invalid pool code: " ++ toString row.outputPool⟩
  let value ← (Zatoshis.fromNonnegativeI64 row.value).mapError fun e =>
    ⟨"Invalid output value " ++ toString row.value ++ ": " ++ balanceErrorText e⟩
  let memo ← readMemo R row.memo
  .ok (some ⟨pool, row.outputIndex, row.fromAccount, row.toAccount, row.toAddress, value.value,
    row.isChange, memo⟩)

/-- The fee of a transaction (lines 186–197). -/
def readFee : Option ℕ → Except CorruptedData (Option ℕ)
  | none => .ok none
  | some v =>
    match zatoshisFromU64 v with
    | .ok fee => .ok (some fee)
    | .error e => .error ⟨"Invalid fee value " ++ toString v ++ ": " ++ balanceErrorText e⟩

/-- The time of a block as a text (lines 201–213). -/
def readDatetime : Option ℤ → Except CorruptedData (Option String)
  | none => .ok none
  | some t =>
    match R.datetime t with
    | .ok text => .ok (some text)
    | .error e => .error ⟨"Invalid unix timestamp " ++ toString t ++ ": " ++ e⟩

/-- `WalletTx::from_parts` (lines 154–217). -/
def WalletTx.fromParts (row : TxRow) (outputs : Multiset WalletTxOutput) :
    Except CorruptedData WalletTx := do
  let accountBalanceDelta ← (zatBalanceFromI64 row.accountBalanceDelta).mapError fun e =>
    ⟨"Invalid balance delta " ++ toString row.accountBalanceDelta ++ ": " ++ balanceErrorText e⟩
  let feePaid ← readFee row.feePaid
  let blockDatetime ← readDatetime R row.blockTime
  .ok {
    accountUuid := row.accountUuid
    minedHeight := row.minedHeight
    txid := row.txid
    expiryHeight := row.expiryHeight
    accountBalanceDelta := accountBalanceDelta
    feePaid := feePaid
    sentNoteCount := row.sentNoteCount
    receivedNoteCount := row.receivedNoteCount
    blockTime := row.blockTime
    blockDatetime := blockDatetime
    expiredUnmined := row.expiredUnmined
    outputs := outputs }

/-- What is done for a row with its outputs (lines 288–330). -/
def readRow (row : TxRow) (outputs : List OutputRow) : Except CorruptedData WalletTx := do
  let txOutputs ← outputs.mapM (WalletTxOutput.new R)
  WalletTx.fromParts R row (txOutputs.reduceOption : Multiset WalletTxOutput)

/-- `query_transactions` (lines 219–334). -/
def queryTransactions (db : Database) (f : Filter) (orders : Orders db f)
    (offset limit : Option ℕ) : Except CorruptedData (List WalletTx) :=
  let rows := (orders.order offset limit).drop (offset.getD 0)
  let rows := match limit with
    | some limit => rows.take limit
    | none => rows
  rows.mapM fun row => readRow R row (orders.outputs offset limit row)

/-- The account of the filter (lines 344–350). -/
def parseAccount (parseUuid : String → Option AccountUuid) :
    Option String → Except RpcError (Option AccountUuid)
  | none => .ok none
  | some s =>
    match parseUuid s with
    | some accountUuid => .ok (some accountUuid)
    | none => .error (LegacyCode.InvalidParameter.withMessage ("not a valid UUID: " ++ s))

/-- `z_listtransactions` (lines 336–369). -/
def zListtransactions (parseUuid : String → Option AccountUuid) (db : Database)
    (orders : (f : Filter) → Orders db f) (accountUuid : Option String)
    (startHeight endHeight offset limit : Option ℕ) : Except RpcError (List WalletTx) := do
  let accountUuid ← parseAccount parseUuid accountUuid
  let f : Filter := ⟨accountUuid, startHeight, endHeight⟩
  (queryTransactions R db f (orders f) offset limit).mapError fun e =>
    LegacyCode.Database.withMessage (R.display e)

end

/-! ## Pages -/

/-- The sort height of an entry of the response. -/
def WalletTx.sortHeight (tx : WalletTx) : WithTop ℕ :=
  ListTransactions.sortHeight tx.minedHeight tx.expiryHeight

/-- The account and the transaction of an entry. -/
def WalletTx.entry (tx : WalletTx) : AccountUuid × TxId := (tx.accountUuid, tx.txid)

/-- Whatever the orders of the queries, the pages up to the first one that is empty have
    every matching entry once, and are the response without pages up to the order of entries
    with the same sort height. -/
def Lossless (R : Readers) (db : Database) (f : Filter) (n : ℕ) : Prop :=
  ∀ orders : Orders db f, ∃ all result,
    queryTransactions R db f orders none none = .ok all ∧
      Paging.Reads (fun offset => queryTransactions R db f orders (some offset) (some n)) n 0
        result ∧
      (result.map WalletTx.entry).Nodup ∧
      (result.map WalletTx.entry).Perm ((db.matching f).map TxRow.entry) ∧
      result.Perm all ∧
      result.map WalletTx.sortHeight = all.map WalletTx.sortHeight

/-- An output has a pool of the wallet, an amount of money and a memo that decodes. -/
structure OutputRow.Readable (R : Readers) (row : OutputRow) : Prop where
  pool : (WalletTxOutput.parsePoolCode row.outputPool).isSome
  nonneg : 0 ≤ row.value
  le_max : row.value ≤ maxMoney
  memo : ∀ bytes ∈ row.memo, ∃ memo, R.memo bytes = .ok memo

/-- A row has amounts of money, a time with a text and outputs that can be read. -/
structure Database.Readable (R : Readers) (db : Database) (row : TxRow) : Prop where
  delta_ge : -(maxMoney : ℤ) ≤ row.accountBalanceDelta
  delta_le : row.accountBalanceDelta ≤ maxMoney
  fee : ∀ fee ∈ row.feePaid, fee ≤ maxMoney
  time : ∀ t ∈ row.blockTime, ∃ text, R.datetime t = .ok text
  outputs : ∀ output ∈ db.outputs row.txid, output.Readable R

section

variable {R : Readers} {db : Database} {f : Filter}

theorem entries_matching_nodup : ((db.matching f).map TxRow.entry).Nodup :=
  db.entries_nodup.sublist (List.filter_sublist.map _)

theorem matching_nodup : (db.matching f).Nodup := entries_matching_nodup.of_map _

/-! ### Rows that can be read -/

theorem fromNonnegativeI64_eq_ok {amount : ℤ} {value : Zatoshis} :
    Zatoshis.fromNonnegativeI64 amount = .ok value ↔ 0 ≤ amount ∧ amount = value.value := by
  unfold Zatoshis.fromNonnegativeI64
  obtain ⟨v, hv⟩ := value
  split
  · simp only [reduceCtorEq, false_iff]
    omega
  · split
    · simp only [Except.ok.injEq, Zatoshis.mk.injEq]
      omega
    · simp only [reduceCtorEq, false_iff]
      omega

theorem readMemo_eq_ok {memo : Option (List UInt8)} {text : Option String} :
    readMemo R memo = .ok text ↔
      (∀ bytes ∈ memo, ∃ m, R.memo bytes = .ok m) ∧
        text = memo.bind fun bytes => (R.memo bytes).toOption.bind Memo.render := by
  cases memo with
  | none => simp [readMemo, eq_comm]
  | some bytes =>
    cases hmemo : R.memo bytes with
    | ok m => simp [readMemo, hmemo, eq_comm, Except.toOption]
    | error e => simp [readMemo, hmemo]

/-- An output as it is shown. -/
def OutputRow.shown (R : Readers) (row : OutputRow) : WalletTxOutput where
  pool := ((WalletTxOutput.parsePoolCode row.outputPool).map poolText).getD ""
  outputIndex := row.outputIndex
  fromAccount := row.fromAccount
  toAccount := row.toAccount
  toAddress := row.toAddress
  value := row.value.toNat
  isChange := row.isChange
  memo := row.memo.bind fun bytes => (R.memo bytes).toOption.bind Memo.render

theorem new_eq_ok {row : OutputRow} {output : Option WalletTxOutput} :
    WalletTxOutput.new R row = .ok output ↔ row.Readable R ∧ output = some (row.shown R) := by
  unfold WalletTxOutput.new
  cases hpool : WalletTxOutput.parsePoolCode row.outputPool with
  | none =>
    refine ⟨fun h => absurd h (by simp [bind, Except.bind]), fun h => ?_⟩
    have := h.1.pool
    simp [hpool] at this
  | some pool =>
    simp only [bind_eq_ok, mapError_eq_ok, fromNonnegativeI64_eq_ok, readMemo_eq_ok,
      Except.ok.injEq]
    constructor
    · rintro ⟨_, rfl, value, ⟨hnonneg, hvalue⟩, memo, ⟨hmemo, rfl⟩, rfl⟩
      refine ⟨⟨by rw [hpool]; rfl, hnonneg, ?_, hmemo⟩, ?_⟩
      · have := value.le_max
        omega
      · simp [OutputRow.shown, hpool, hvalue]
    · rintro ⟨h, rfl⟩
      have hle : row.value.toNat ≤ maxMoney := by
        have := h.le_max
        omega
      refine ⟨_, rfl, ⟨row.value.toNat, hle⟩, ⟨h.nonneg, ?_⟩, _, ⟨h.memo, rfl⟩, ?_⟩
      · exact (Int.toNat_of_nonneg h.nonneg).symm
      · simp [OutputRow.shown, hpool]

theorem zatBalanceFromI64_eq_ok {amount delta : ℤ} :
    zatBalanceFromI64 amount = .ok delta ↔
      (-(maxMoney : ℤ) ≤ amount ∧ amount ≤ maxMoney) ∧ delta = amount := by
  unfold zatBalanceFromI64
  split
  · simp only [reduceCtorEq, false_iff]
    omega
  · split
    · simp only [reduceCtorEq, false_iff]
      omega
    · simp only [Except.ok.injEq]
      omega

theorem readFee_eq_ok {fee shown : Option ℕ} :
    readFee fee = .ok shown ↔ (∀ v ∈ fee, v ≤ maxMoney) ∧ shown = fee := by
  cases fee with
  | none => simp [readFee, eq_comm]
  | some v =>
    by_cases hv : v ≤ maxMoney
    · simp [readFee, zatoshisFromU64, hv, eq_comm]
    · simp [readFee, zatoshisFromU64, hv]

theorem readDatetime_eq_ok {blockTime : Option ℤ} {text : Option String} :
    readDatetime R blockTime = .ok text ↔
      (∀ t ∈ blockTime, ∃ s, R.datetime t = .ok s) ∧
        text = blockTime.bind fun t => (R.datetime t).toOption := by
  cases blockTime with
  | none => simp [readDatetime, eq_comm]
  | some t =>
    cases hdatetime : R.datetime t with
    | ok s => simp [readDatetime, hdatetime, eq_comm, Except.toOption]
    | error e => simp [readDatetime, hdatetime]

/-- A row as it is shown. -/
def Database.shown (R : Readers) (db : Database) (row : TxRow) : WalletTx where
  accountUuid := row.accountUuid
  minedHeight := row.minedHeight
  txid := row.txid
  expiryHeight := row.expiryHeight
  accountBalanceDelta := row.accountBalanceDelta
  feePaid := row.feePaid
  sentNoteCount := row.sentNoteCount
  receivedNoteCount := row.receivedNoteCount
  blockTime := row.blockTime
  blockDatetime := row.blockTime.bind fun t => (R.datetime t).toOption
  expiredUnmined := row.expiredUnmined
  outputs := (db.outputs row.txid).map (OutputRow.shown R)

/-- A row is shown exactly if it and all its outputs can be read. -/
theorem readRow_eq_ok {row : TxRow} {outputs : List OutputRow}
    (houtputs : (outputs : Multiset OutputRow) = db.outputs row.txid) {tx : WalletTx} :
    readRow R row outputs = .ok tx ↔ db.Readable R row ∧ tx = db.shown R row := by
  have hflatten : ∀ l : List OutputRow,
      (l.map fun output => some (output.shown R)).reduceOption = l.map (OutputRow.shown R) := by
    intro l
    simp [List.reduceOption, List.filterMap_map, List.filterMap_eq_map']
  have hmem : ∀ output, output ∈ outputs ↔ output ∈ db.outputs row.txid := by
    intro output
    rw [← houtputs, Multiset.mem_coe]
  simp only [readRow, WalletTx.fromParts, bind_eq_ok, mapError_eq_ok, zatBalanceFromI64_eq_ok,
    readFee_eq_ok, readDatetime_eq_ok, mapM_eq_ok_iff fun _ _ => new_eq_ok]
  constructor
  · rintro ⟨_, ⟨hread, rfl⟩, _, ⟨hdelta, rfl⟩, _, ⟨hfee, rfl⟩, _, ⟨htime, rfl⟩, htx⟩
    refine ⟨⟨hdelta.1, hdelta.2, hfee, htime, fun output h => hread output ((hmem _).mpr h)⟩, ?_⟩
    rw [← Except.ok.inj htx, hflatten, Database.shown, ← houtputs, Multiset.map_coe]
  · rintro ⟨h, rfl⟩
    refine ⟨_, ⟨fun output ho => h.outputs output ((hmem _).mp ho), rfl⟩, _,
      ⟨⟨h.delta_ge, h.delta_le⟩, rfl⟩, _, ⟨h.fee, rfl⟩, _, ⟨h.time, rfl⟩, ?_⟩
    rw [hflatten, Database.shown, ← houtputs, Multiset.map_coe]

theorem shown_injective : Function.Injective (db.shown R) := by
  intro a b h
  cases a
  cases b
  simp only [Database.shown, WalletTx.mk.injEq] at h
  simp [h]

/-! ### Queries -/

theorem queryTransactions_all_eq_ok (orders : Orders db f) {all : List WalletTx} :
    queryTransactions R db f orders none none = .ok all ↔
      (∀ row ∈ db.matching f, db.Readable R row) ∧
        all = (orders.order none none).map (db.shown R) := by
  rw [queryTransactions, mapM_eq_ok_iff fun row _ =>
    readRow_eq_ok (orders.outputs_eq none none row)]
  simp only [Option.getD_none, List.drop_zero, (orders.ordered none none).perm.mem_iff]

/-- Where all rows can be read, a page has the rows of its positions. -/
theorem queryTransactions_page (orders : Orders db f)
    (hread : ∀ row ∈ db.matching f, db.Readable R row) (offset n : ℕ) :
    queryTransactions R db f orders (some offset) (some n) =
      .ok ((page n offset (orders.order (some offset) (some n))).map (db.shown R)) := by
  refine (mapM_eq_ok_iff fun row _ =>
    readRow_eq_ok (orders.outputs_eq (some offset) (some n) row)).mpr ⟨fun row hrow => ?_, rfl⟩
  have hmem := List.mem_of_mem_drop (List.mem_of_mem_take hrow)
  exact hread row ((orders.ordered (some offset) (some n)).perm.mem_iff.mp hmem)

/-- Paging through the transactions is lossless exactly where all matching rows can be read
    and no page ends between two entries of the same sort height. -/
theorem paging_lossless_iff (R : Readers) (db : Database) (f : Filter) {n : ℕ} (hn : 0 < n) :
    Lossless R db f n ↔ (∀ row ∈ db.matching f, db.Readable R row) ∧
      ∀ b, 0 < b → b < (db.matching f).length → n ∣ b →
        CleanCut TxRow.sortHeight (db.matching f) b := by
  rw [← reads_perm_iff CorruptedData hn matching_nodup]
  constructor
  · intro h
    have houtputs : ∀ row : TxRow, ((db.outputs row.txid).toList : Multiset OutputRow) =
        db.outputs row.txid := fun row => Multiset.coe_toList _
    have hread : ∀ row ∈ db.matching f, db.Readable R row := by
      obtain ⟨l, hl⟩ := exists_ordered TxRow.sortHeight (db.matching f)
      obtain ⟨all, -, hall, -⟩ := h ⟨fun _ _ => l, fun _ _ row => (db.outputs row.txid).toList,
        fun _ _ => hl, fun _ _ => houtputs⟩
      exact ((queryTransactions_all_eq_ok _).mp hall).1
    refine ⟨hread, fun order horder => ?_⟩
    let orders : Orders db f := ⟨fun offset _ => order (offset.getD 0),
      fun _ _ row => (db.outputs row.txid).toList, fun offset _ => horder (offset.getD 0),
      fun _ _ => houtputs⟩
    obtain ⟨all, result, hall, hreads, -, -, hperm, -⟩ := h orders
    obtain ⟨rows, hrows, -, -⟩ := reads_perm CorruptedData hn horder (horder 0) 0
    have hpages : (fun offset => queryTransactions R db f orders (some offset) (some n)) =
        fun offset => (pages CorruptedData n order offset).map (List.map (db.shown R)) :=
      funext fun offset => queryTransactions_page orders hread offset n
    rw [hpages] at hreads
    rw [hreads.unique (hrows.map (db.shown R)), ((queryTransactions_all_eq_ok orders).mp hall).2]
      at hperm
    exact ⟨rows, hrows, ((List.map_perm_map_iff shown_injective).mp hperm).trans (horder 0).perm⟩
  · rintro ⟨hread, h⟩ orders
    have horder := fun offset : ℕ => orders.ordered (some offset) (some n)
    obtain ⟨rows, hrows, hperm⟩ := h _ horder
    obtain ⟨rows', hrows', hkey, -⟩ :=
      reads_perm CorruptedData hn horder (orders.ordered none none) 0
    cases hrows.unique hrows'
    have hentries : ((rows.map (db.shown R)).map WalletTx.entry).Perm
        ((db.matching f).map TxRow.entry) := by
      rw [List.map_map]
      exact hperm.map TxRow.entry
    refine ⟨_, rows.map (db.shown R), (queryTransactions_all_eq_ok orders).mpr ⟨hread, rfl⟩, ?_,
      hentries.nodup_iff.mpr entries_matching_nodup, hentries, ?_, ?_⟩
    · rw [funext fun offset => queryTransactions_page orders hread offset n]
      exact hrows.map _
    · exact (hperm.trans (orders.ordered none none).perm.symm).map _
    · rw [List.map_map, List.map_map]
      rw [List.drop_zero] at hkey
      exact hkey

end

/-! ### Two transactions -/

namespace TwoTransactions

/-- A transaction of the account 7. -/
def row (txid : TxId) (minedHeight : Option ℕ) : TxRow where
  accountUuid := 7
  minedHeight := minedHeight
  txid := txid
  expiryHeight := none
  accountBalanceDelta := 1000
  feePaid := some 10000
  sentNoteCount := 0
  receivedNoteCount := 1
  blockTime := minedHeight.map fun _ => 1700000000
  expiredUnmined := false

/-- Its output, a Sapling note with a memo. -/
def output (memo : List UInt8) : OutputRow where
  outputPool := 2
  outputIndex := 0
  fromAccount := none
  toAccount := some 7
  toAddress := none
  value := 1000
  isChange := false
  memo := some memo

/-- The memo `hi`. -/
def hi : List UInt8 := [0x68, 0x69]

/-- A memo that is not valid UTF-8. -/
def invalid : List UInt8 := [0x80]

def readers : Readers where
  memo bytes :=
    if bytes.head? = some 0x80 then
      .error "InvalidUtf8(Utf8Error \x7b valid_up_to: 0, error_len: Some(1) \x7d)"
    else .ok (.Text "hi")
  datetime _ := .ok "2023-11-14T22:13:20Z"
  display e := e.reason

def database (first second : Option ℕ) (memo : List UInt8) : Database where
  transactions := [row 1 first, row 2 second]
  outputs _ := {output memo}
  entries_nodup := by simp [TxRow.entry, row]

/-- All transactions. -/
def everything : Filter := ⟨none, none, none⟩

theorem matching_database (first second : Option ℕ) (memo : List UInt8) :
    (database first second memo).matching everything = [row 1 first, row 2 second] := rfl

theorem readable (first second : Option ℕ) (txid : TxId) (minedHeight : Option ℕ) :
    (database first second hi).Readable readers (row txid minedHeight) where
  delta_ge := by norm_num [row]
  delta_le := by norm_num [row, maxMoney]
  fee fee hfee := by
    obtain rfl := Option.some.inj hfee
    decide
  time t _ := ⟨_, rfl⟩
  outputs o ho := by
    obtain rfl := Multiset.mem_singleton.mp ho
    exact ⟨rfl, by decide, by decide, fun bytes hbytes => ⟨.Text "hi", by
      obtain rfl := Option.some.inj hbytes
      rfl⟩⟩

/-- Transactions that are mined at different heights are paged without loss. -/
theorem lossless_mined : Lossless readers (database (some 100) (some 200) hi) everything 1 := by
  refine (paging_lossless_iff _ _ _ Nat.one_pos).mpr ⟨fun r hr => ?_, fun b hpos hlt _ => ⟨200, ?_⟩⟩
  · rw [matching_database] at hr
    rcases List.mem_pair.mp hr with rfl | rfl
    · exact readable ..
    · exact readable ..
  · rw [matching_database, List.length_cons, List.length_singleton] at hlt
    obtain rfl : b = 1 := by omega
    decide

/-- The second query has two transactions in the mempool in the other order. -/
def orders (memo : List UInt8) : Orders (database none none memo) everything where
  order offset _ := if offset = some 1 then [row 2 none, row 1 none] else [row 1 none, row 2 none]
  outputs _ _ _ := [output memo]
  ordered offset _ := by
    rw [matching_database]
    split
    · exact ⟨List.Perm.swap _ _ _, by decide⟩
    · exact ⟨List.Perm.refl _, by decide⟩
  outputs_eq _ _ _ := rfl

/-- Then one of them is on two pages, and the other on none. -/
theorem not_lossless : ¬ Lossless readers (database none none hi) everything 1 := by
  intro h
  obtain ⟨all, result, -, hreads, hnodup, -⟩ := h (orders hi)
  let shown := (database none none hi).shown readers (row 1 none)
  have hpages : Paging.Reads (fun offset => queryTransactions readers (database none none hi)
      everything (orders hi) (some offset) (some 1)) 1 0 ([shown] ++ ([shown] ++ [])) :=
    .more rfl (List.cons_ne_nil _ _) (.more rfl (List.cons_ne_nil _ _) (.done rfl))
  rw [hreads.unique hpages] at hnodup
  simp at hnodup

/-- A memo that is not valid UTF-8 fails every query that reaches its row. -/
theorem not_lossless_invalid : ¬ Lossless readers (database none none invalid) everything 1 := by
  intro h
  obtain ⟨all, -, hall, -⟩ := h (orders invalid)
  obtain ⟨-, -, -, -, houtputs⟩ := ((queryTransactions_all_eq_ok _).mp hall).1 (row 1 none)
    (by simp [matching_database])
  obtain ⟨memo, hmemo⟩ := (houtputs (output invalid) (Multiset.mem_singleton_self _)).memo _ rfl
  cases hmemo

end TwoTransactions

end Zallet.Rpc.ListTransactions
