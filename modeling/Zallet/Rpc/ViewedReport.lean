import Zallet.Rpc.ViewedParts

/-!
# The report on a viewed transaction

* `Views`: the call does not panic, and its result reports every input and output that the
  wallet can view once, at its index, the fee, and the place of the transaction.
* `views_iff`: when it does.
* `call_hidden_iff`: when the outputs of a result are hidden, as in `ViewTransaction`.
-/

namespace Zallet.Rpc.ViewedTransaction

open Zallet.Chain Zallet.Wallet Zallet.Common.Loop Zallet.Common.Panics
open Zallet.Rpc.GetRawTransaction (decodeHash hashText)
open Zallet.Rpc.ListUnspent Zallet.Rpc.ViewTransaction

section

variable {SaplingIvk OrchardIvk SaplingOutput OrchardAction : Type}
  {V : TxWallet SaplingIvk OrchardIvk SaplingOutput OrchardAction} {view : View}
  {overflowChecks : Bool} {tx : StoredTx SaplingOutput OrchardAction}
  {keys : ViewingKeys SaplingIvk OrchardIvk} {accountIds : List AccountUuid}

/-! ## The place, the fee and the effects -/

theorem minedBlock_eq_ok {height : ℕ} {block : Block} :
    minedBlock V view height = .ok block ↔ view.getBlock height = .ok (some block) := by
  unfold minedBlock
  rcases view.getBlock height with e | (- | block')
  · simp
  · simp
  · simp

theorem fetch_isOk {chainHeight : ℕ} :
    (∃ info, WalletTxInfo.fetch V view tx chainHeight = .ok info) ↔
      ∃ height, V.getTxHeight tx.txid = .ok height ∧
        ∀ h ∈ height, ∃ block, view.getBlock h = .ok (some block) := by
  unfold WalletTxInfo.fetch
  rcases V.getTxHeight tx.txid with e | (- | height)
  · simp [bind, Except.bind]
  · simp [bind, Except.bind]
  · simp [bind_eq_ok, minedBlock_eq_ok, exists_comm]

/-- A block hash is reported with the index of the transaction in the block, if it is there. -/
theorem fetch_block_iff {chainHeight : ℕ} {info : WalletTxInfo}
    (h : WalletTxInfo.fetch V view tx chainHeight = .ok info) :
    (∀ hash, info.blockhash = some hash → ∃ height block i,
        view.getBlock height = .ok (some block) ∧ hashText block.hash = hash ∧
          info.blockindex = some i ∧ block.vtx[i]? = some tx.txid) ↔
      ∀ height block, V.getTxHeight tx.txid = .ok (some height) →
        view.getBlock height = .ok (some block) → tx.txid ∈ block.vtx := by
  obtain ⟨minedHeight, hheight, h⟩ := bind_eq_ok.mp h
  cases minedHeight with
  | none =>
    cases h
    refine iff_of_true (fun hash hhash => by cases hhash) fun height block hsome => ?_
    rw [hheight] at hsome
    cases hsome
  | some height =>
    obtain ⟨block, hblock, h⟩ := bind_eq_ok.mp h
    rw [minedBlock_eq_ok] at hblock
    cases h
    constructor
    · intro hplaced height' block' hheight' hblock'
      obtain rfl := Option.some.inj (Except.ok.inj (hheight.symm.trans hheight'))
      obtain rfl := Option.some.inj (Except.ok.inj (hblock.symm.trans hblock'))
      obtain ⟨-, -, i, -, -, hindex, -⟩ := hplaced _ rfl
      obtain ⟨hlt, hfound, -⟩ := List.findIdx?_eq_some_iff_getElem.mp hindex
      rw [← of_decide_eq_true hfound]
      exact List.getElem_mem hlt
    · intro hmem hash hhash
      obtain rfl := Option.some.inj hhash
      have hin := hmem height block hheight hblock
      have hsome : (block.vtx.findIdx? fun txid => decide (txid = tx.txid)).isSome := by
        rw [List.findIdx?_isSome, List.any_eq_true]
        exact ⟨tx.txid, hin, decide_eq_true rfl⟩
      obtain ⟨i, hindex⟩ := Option.isSome_iff_exists.mp hsome
      obtain ⟨hlt, hfound, -⟩ := List.findIdx?_eq_some_iff_getElem.mp hindex
      refine ⟨height, block, i, hblock, rfl, hindex, ?_⟩
      rw [List.getElem?_eq_getElem hlt, of_decide_eq_true hfound]

theorem accountEffects_isOk :
    (∃ accounts, accountEffects V tx = .ok accounts) ↔
      ∃ rows, V.accountRows tx.txid = .ok rows ∧ ∀ row ∈ rows, row.2.natAbs ≤ maxMoney := by
  have hrow : ∀ row : AccountUuid × ℤ, (∃ r, (if row.2.natAbs ≤ maxMoney then .ok row
      else .error "Balance out of range" : Except String (AccountUuid × ℤ)) = .ok r) ↔
        row.2.natAbs ≤ maxMoney := by
    intro row
    split
    · next hle => exact iff_of_true ⟨row, rfl⟩ hle
    · next hle => exact iff_of_false (fun ⟨r, hr⟩ => by cases hr) hle
  unfold accountEffects
  simp only [bind_eq_ok]
  rw [exists_comm]
  simp only [exists_and_left, mapM_isOk, hrow]

theorem viewInfo_isOk :
    (∃ r, viewInfo V view tx (spentValues view tx) = .ok r) ↔ InfoRead V view tx := by
  unfold viewInfo
  simp only [bind_eq_ok, orDatabaseText_eq_ok, mapError_eq_ok]
  constructor
  · rintro ⟨r, tip, htip, info, hinfo, fee, hfee, accounts, haccounts, -⟩
    exact ⟨⟨tip, htip⟩, fetch_isOk.mp ⟨info, hinfo⟩, ⟨fee, hfee⟩,
      accountEffects_isOk.mp ⟨accounts, haccounts⟩⟩
  · rintro ⟨⟨tip, htip⟩, hheight, ⟨fee, hfee⟩, hrows⟩
    obtain ⟨info, hinfo⟩ := fetch_isOk.mpr hheight
    obtain ⟨accounts, haccounts⟩ := accountEffects_isOk.mpr hrows
    exact ⟨_, tip, htip, info, hinfo, fee, hfee, accounts, haccounts, rfl⟩

/-- The fee that is not known, in terms of the view. -/
theorem feePaid_spentValues_none (h : tx.feePaid (spentValues view tx) = .ok none) :
    isCoinbase tx.vin = true ∨ ∃ prevout ∈ tx.vin, foundOutput view prevout = none := by
  rcases tx.feePaid_none h with hcoinbase | ⟨prevout, hmem, hnone⟩
  · exact Or.inl hcoinbase
  · rw [spentValues] at hnone
    split at hnone
    · exact Or.inr ⟨prevout, hmem, Option.map_eq_none_iff.mp hnone⟩
    · next hnot =>
      refine Or.inl ?_
      by_contra hcoinbase
      exact hnot ⟨Bool.eq_false_iff.mpr hcoinbase, hmem⟩

/-! ## The report -/

theorem ends_report (txidStr : List Char) :
    Ends (report V overflowChecks txidStr ⟨view, tx, accountIds, keys⟩)
      ((InputsClear view overflowChecks tx ∧ NotesFit (allSpendReads V tx)) ∧
        (AllRead (allSpendReads V tx) → (overflowChecks = true → tx.vout.length < 65536) ∧
          NotesFit (allOutputReads V tx keys)))
      (Answered V view tx keys) := by
  have hinfo : Ends (orError (viewInfo V view tx (spentValues view tx))) True
      (InfoRead V view tx) := Ends.mapError viewInfo_isOk
  have hanswered : Answered V view tx keys ↔ AllRead (allSpendReads V tx) ∧
      AllRead (allOutputReads V tx keys) ∧ InfoRead V view tx :=
    ⟨fun h => ⟨h.spends, h.outputs, h.info⟩, fun h => ⟨h.1, h.2.1, h.2.2⟩⟩
  rw [hanswered]
  refine ends_viewSpends.bind ?_
  rintro ⟨values, spends⟩ hspends
  obtain rfl := viewSpends_values hspends
  refine (ends_viewOutputs.bind fun outputs _ => hinfo.bind fun _ _ => Ends.ok _).congr ?_ ?_
  · simp only [implies_true, and_true]
  · simp only [and_true]

/-- A report is faithful unless a number wraps, or the block lacks the transaction. -/
theorem faithful_iff {txidStr : List Char} {result : Transaction}
    (h : report V overflowChecks txidStr ⟨view, tx, accountIds, keys⟩ = .ok result) :
    Faithful V view tx keys result ↔
      ((isCoinbase tx.vin = false → tx.vin.length ≤ 65536) ∧ tx.vout.length ≤ 65536) ∧
        ∀ height block, V.getTxHeight tx.txid = .ok (some height) →
          view.getBlock height = .ok (some block) → tx.txid ∈ block.vtx := by
  obtain ⟨⟨values, spends⟩, hspends, h⟩ := bind_eq_ok.mp h
  dsimp only at h
  obtain ⟨outputs, houtputs, h⟩ := bind_eq_ok.mp h
  obtain ⟨⟨info, fee, accounts⟩, hinfo, h⟩ := bind_eq_ok.mp h
  cases h
  obtain rfl := viewSpends_values hspends
  obtain ⟨tip, -, hinfo⟩ := bind_eq_ok.mp (mapError_eq_ok.mp hinfo)
  obtain ⟨info, hfetch, hinfo⟩ := bind_eq_ok.mp hinfo
  obtain ⟨fee, hfee, hinfo⟩ := bind_eq_ok.mp hinfo
  obtain ⟨accounts, -, hinfo⟩ := bind_eq_ok.mp hinfo
  cases hinfo
  rw [← viewSpends_right_iff hspends, ← viewOutputs_right_iff houtputs,
    ← fetch_block_iff (orDatabaseText_eq_ok.mp hfetch)]
  constructor
  · intro hfaithful
    exact ⟨⟨⟨hfaithful.spends, hfaithful.spends_described⟩,
      hfaithful.outputs, hfaithful.outputs_described⟩, hfaithful.block⟩
  · rintro ⟨⟨⟨hs, hsd⟩, ho, hod⟩, hblock⟩
    refine ⟨hs, hsd, ho, hod, ?_, hblock⟩
    rintro rfl
    exact feePaid_spentValues_none (mapError_eq_ok.mp hfee)

theorem completes_report_iff {txidStr : List Char} :
    Completes (Faithful V view tx keys)
        (report V overflowChecks txidStr ⟨view, tx, accountIds, keys⟩) ↔
      Clear V view overflowChecks tx keys := by
  rw [(ends_report txidStr).completes_iff fun result => faithful_iff]
  constructor
  · rintro ⟨⟨⟨hinputs, hspends⟩, houtputs⟩, hright⟩
    exact {
      found := fun hcoinbase => (hinputs hcoinbase).1
      inputs_counted := fun hcoinbase => (hinputs hcoinbase).2
      spends_fit := hspends
      outputs_counted := fun hread => (houtputs hread).1
      outputs_fit := fun hread => (houtputs hread).2
      numbered := fun hanswered => (hright hanswered).1
      placed := fun hanswered => (hright hanswered).2 }
  · intro h
    exact ⟨⟨⟨fun hcoinbase => ⟨h.found hcoinbase, h.inputs_counted hcoinbase⟩, h.spends_fit⟩,
      fun hread => ⟨h.outputs_counted hread, h.outputs_fit hread⟩⟩,
      fun hanswered => ⟨h.numbered hanswered, h.placed hanswered⟩⟩

end

/-! ## The call -/

section

variable {SaplingIvk OrchardIvk SaplingOutput OrchardAction : Type}

variable (V : TxWallet SaplingIvk OrchardIvk SaplingOutput OrchardAction)
  (snapshot : Except String View) (overflowChecks : Bool) (txidStr : List Char)

/-- The call does not panic, and what it returns is faithful to what it has read. -/
def Views : Prop :=
  (∀ message, call V overflowChecks snapshot txidStr ≠ .error (.Panic message)) ∧
    ∀ result, call V overflowChecks snapshot txidStr = .ok result →
      ∃ request, readRequest V snapshot txidStr = .ok request ∧
        Faithful V request.view request.tx request.keys result

/-- **Viewing a transaction.** The call does not panic and reports the transaction as it is
    exactly if nothing goes wrong on the way: the view has every output that the inputs
    spend, no count passes the 16-bit indices, no note is too large, and the block at the
    height that the wallet has holds the transaction. -/
theorem views_iff :
    Views V snapshot overflowChecks txidStr ↔
      ∀ request, readRequest V snapshot txidStr = .ok request →
        Clear V request.view overflowChecks request.tx request.keys := by
  have hcall : call V overflowChecks snapshot txidStr =
      orError (readRequest V snapshot txidStr) >>= report V overflowChecks txidStr := rfl
  have hviews : Views V snapshot overflowChecks txidStr ↔
      Completes (fun result => ∃ request, readRequest V snapshot txidStr = .ok request ∧
        Faithful V request.view request.tx request.keys result)
        (call V overflowChecks snapshot txidStr) := completes_iff.symm
  rw [hviews, hcall, completes_bind_iff, orError, and_iff_right (noPanic_mapError _)]
  refine forall_congr' fun request => ?_
  rw [mapError_eq_ok]
  refine imp_congr_right fun hread => ?_
  have hrequest : ∀ result, (∃ request', readRequest V snapshot txidStr = .ok request' ∧
      Faithful V request'.view request'.tx request'.keys result) ↔
        Faithful V request.view request.tx request.keys result := by
    intro result
    constructor
    · rintro ⟨request', hread', hfaithful⟩
      obtain rfl := Except.ok.inj (hread.symm.trans hread')
      exact hfaithful
    · intro hfaithful
      exact ⟨request, hread, hfaithful⟩
  simp only [hrequest]
  exact completes_report_iff

/-! ## Hidden outputs -/

variable {V snapshot overflowChecks txidStr}

theorem readRequest_eq_ok {request : Request SaplingIvk OrchardIvk SaplingOutput OrchardAction}
    (h : readRequest V snapshot txidStr = .ok request) :
    V.getAccountIds = .ok request.accountIds ∧ viewingKeys V.toViewWallet = .ok request.keys := by
  obtain ⟨txid, -, h⟩ := bind_eq_ok.mp h
  obtain ⟨view, -, h⟩ := bind_eq_ok.mp h
  obtain ⟨found, -, h⟩ := bind_eq_ok.mp h
  cases found with
  | none => cases h
  | some tx =>
    obtain ⟨accountIds, hids, h⟩ := bind_eq_ok.mp h
    obtain ⟨keys, hkeys, h⟩ := bind_eq_ok.mp h
    cases h
    exact ⟨orDatabaseText_eq_ok.mp hids, hkeys⟩

/-- The outputs of a report are hidden exactly if no transparent one is at an internal
    address. -/
theorem call_hidden_iff {result : Transaction}
    (h : call V overflowChecks snapshot txidStr = .ok result) :
    ∃ request, readRequest V snapshot txidStr = .ok request ∧
      ((∀ o ∈ result.outputs, o.Hidden) ↔
        NoInternalVout V.toViewWallet request.tx.toViewedTx) := by
  obtain ⟨request, hread, h⟩ := bind_eq_ok.mp h
  have hread := mapError_eq_ok.mp hread
  obtain ⟨hids, hkeys⟩ := readRequest_eq_ok hread
  obtain ⟨spends, -, h⟩ := bind_eq_ok.mp h
  obtain ⟨outputs, houtputs, h⟩ := bind_eq_ok.mp h
  obtain ⟨info, -, h⟩ := bind_eq_ok.mp h
  cases h
  refine ⟨request, hread, ?_⟩
  obtain ⟨outs', houts', heq⟩ := viewOutputs_wrapped hids hkeys houtputs
  rw [← viewOutputs_hidden_iff houts', heq, List.forall_mem_map]
  rfl

end

/-! ## A transaction that the node does not follow -/

namespace OtherFork

/-- A transaction that spends one transparent output and creates none. -/
def tx : StoredTx Unit Unit where
  txid := 1
  vout := []
  saplingOutputs := []
  orchardActions := []
  ironwoodActions := []
  vin := [⟨2, 0⟩]
  saplingSpends := []
  version := 5
  expiryHeight := 0
  feePaid values := .ok (values ⟨2, 0⟩)
  feePaid_none h := Or.inr ⟨_, List.mem_singleton_self _, Except.ok.inj h⟩
  saplingSpends_lt := by decide
  saplingOutputs_lt := by decide
  orchardActions_lt := by decide
  ironwoodActions_lt := by decide

/-- A wallet that has the transaction, at a height if it was mined. -/
def wallet (minedHeight : Option ℕ) : TxWallet Unit Unit Unit Unit where
  toViewWallet := ViewTransaction.OneAddress.viewWallet 0
  getTransaction txid := .ok (if txid = 1 then some tx else none)
  nullifier _ := 0
  noteWithNullifier _ _ := .ok none
  getTxHeight _ := .ok minedHeight
  accountRows _ := .ok [(1, -700)]
  chainHeightUnknown := "Chain height unknown"

/-- A view of blocks without the transaction. It has the spent output or not. -/
def view (spent : Option (List (Option TransparentAddress × ℕ))) : View where
  tip := .ok 100
  getTransaction txid := .ok (if txid = 2 then spent.map some else none)
  getBlock _ := .ok (some ⟨7, 1600000000, [9]⟩)

def txidStr : List Char := hashText 1

theorem decodeHash_txidStr : decodeHash txidStr = some 1 := by decide +kernel

theorem readRequest_eq (minedHeight : Option ℕ)
    (spent : Option (List (Option TransparentAddress × ℕ))) :
    readRequest (wallet minedHeight) (.ok (view spent)) txidStr =
      .ok ⟨view spent, tx, [1], ⟨[], [], []⟩⟩ := by
  unfold readRequest
  rw [decodeHash_txidStr]
  rfl

/-- Without the spent output the call panics. With it, the transaction is reported in a block
    of the other fork, at no index. -/
theorem not_views :
    (call (wallet none) false (.ok (view none)) txidStr =
        .error (.Panic "internal error: entered unreachable code") ∧
      ¬ Views (wallet none) (.ok (view none)) false txidStr) ∧
    ∃ result, call (wallet (some 90)) false (.ok (view (some [(none, 700)]))) txidStr = .ok result ∧
      result.blockhash = some (hashText 7) ∧ result.blockindex = none ∧
      ¬ Views (wallet (some 90)) (.ok (view (some [(none, 700)]))) false txidStr := by
  have hpanic : call (wallet none) false (.ok (view none)) txidStr =
      .error (.Panic "internal error: entered unreachable code") := by
    unfold call
    rw [readRequest_eq]
    rfl
  have hstale : ∃ result, call (wallet (some 90)) false (.ok (view (some [(none, 700)]))) txidStr =
      .ok result ∧ result.blockhash = some (hashText 7) ∧ result.blockindex = none := by
    unfold call
    rw [readRequest_eq]
    exact ⟨_, rfl, rfl, rfl⟩
  refine ⟨⟨hpanic, fun h => h.1 _ hpanic⟩, ?_⟩
  obtain ⟨result, hcall, hhash, hindex⟩ := hstale
  refine ⟨result, hcall, hhash, hindex, fun h => ?_⟩
  obtain ⟨request, -, hfaithful⟩ := h.2 result hcall
  obtain ⟨-, -, i, -, -, hsome, -⟩ := hfaithful.block _ hhash
  rw [hindex] at hsome
  cases hsome

end OtherFork

end Zallet.Rpc.ViewedTransaction
