import Zallet.Rpc.ListUnspent

/-!
# Viewing a transaction

The outputs of `z_viewtransaction` (`json_rpc/methods/view_transaction.rs`,
lines 343–418, 466–507, 541–671 and 781–969): the viewing keys of the wallet are
collected, and each output that an address or a key of the wallet recognises is
reported with its recipient.

Note decryption and the wallet database are those of other crates: `ViewWallet`
has the functions that are called. The spends, the status and the fee are in
`ViewedTransaction`; of them the outputs depend only on whether the wallet
funded the transaction, which is an argument here.

* `viewOutputs_hidden_iff`, `walletInternal_hides_address_iff`: the outputs with
  `walletInternal` have no address, here and in `z_listunspent`, exactly if no
  transparent output is at an internal address.
-/

namespace Zallet.Rpc.ViewTransaction

open Zallet.Chain Zallet.Wallet Zallet.Common.Loop
open Zallet.Rpc.ListUnspent

/-! ## The wallet -/

structure Ovk where
  bytes : List UInt8
  deriving DecidableEq

/-- A note, of which the value is read. -/
structure Note where
  value : ℕ
  deriving DecidableEq

/-- The viewing keys of one shielded protocol, for each scope. -/
structure ShieldedFvk (Ivk : Type) where
  toIvk : Scope → Ivk
  toOvk : Scope → Ovk

/-- `UnifiedFullViewingKey`. -/
structure Ufvk (SaplingIvk OrchardIvk : Type) where
  /-- The internal and the external key of `ovks_for_shielding`. -/
  transparent : Option (Ovk × Ovk)
  sapling : Option (ShieldedFvk SaplingIvk)
  orchard : Option (ShieldedFvk OrchardIvk)

/-- The outputs of a transaction; a bundle that is absent has none. -/
structure ViewedTx (SaplingOutput OrchardAction : Type) where
  txid : TxId
  /-- The address and the value of each transparent output. -/
  vout : List (Option TransparentAddress × ℕ)
  saplingOutputs : List SaplingOutput
  orchardActions : List OrchardAction
  ironwoodActions : List OrchardAction

/-- A decrypted note, its recipient and its memo. -/
abbrev Decrypted (Address : Type) := Note × Address × Memo

structure ViewWallet (SaplingIvk OrchardIvk SaplingOutput OrchardAction : Type) where
  encodeTransparent : TransparentAddress → String
  encodeSapling : SaplingAddress → String
  encodeOrchard : OrchardAddress → String
  getAccountIds : Except String (List AccountUuid)
  getUnifiedFullViewingKeys : Except String (List (AccountUuid × Ufvk SaplingIvk OrchardIvk))
  /-- The keys of the seeds that can be decrypted (lines 389–418). -/
  legacyOvks : Except String (List Ovk)
  getTransparentAddressMetadata : AccountUuid → TransparentAddress →
    Except String (Option TransparentAddressMetadata)
  /-- The row of `sent_notes` for an output: its address may be null. -/
  sentTo : TxId → Pool → ℕ → Except String (Option (Option String))
  decryptSapling : SaplingIvk → SaplingOutput → Option (Decrypted SaplingAddress)
  recoverSapling : Ovk → SaplingOutput → Option (Decrypted SaplingAddress)
  /-- Decryption of an action under the note version of the pool. -/
  decryptOrchard : Pool → OrchardIvk → OrchardAction → Option (Decrypted OrchardAddress)
  recoverOrchard : Pool → Ovk → OrchardAction → Option (Decrypted OrchardAddress)

structure ViewedOutput where
  pool : Pool
  tOut : Option ℕ
  output : Option ℕ
  action : Option ℕ
  accountUuid : Option AccountUuid
  address : Option String
  outgoing : Option Bool
  walletInternal : Bool
  value : ℕ
  memo : Option String
  memoStr : Option String
  deriving DecidableEq

section

variable {SaplingIvk OrchardIvk SaplingOutput OrchardAction : Type}

variable (V : ViewWallet SaplingIvk OrchardIvk SaplingOutput OrchardAction)

/-! ## The viewing keys -/

structure ViewingKeys (SaplingIvk OrchardIvk : Type) where
  saplingIvks : List (AccountUuid × SaplingIvk × Scope)
  orchardIvks : List (AccountUuid × OrchardIvk × Scope)
  ovks : List (Ovk × Scope)

/-- One turn of the loop over the unified keys (lines 353–380). -/
def ViewingKeys.addUfvk (keys : ViewingKeys SaplingIvk OrchardIvk)
    (entry : AccountUuid × Ufvk SaplingIvk OrchardIvk) : ViewingKeys SaplingIvk OrchardIvk :=
  let (accountId, ufvk) := entry
  let shielding := ufvk.transparent.elim [] fun (internalOvk, externalOvk) =>
    [(internalOvk, Scope.Internal), (externalOvk, .External)]
  let scopes := [Scope.External, .Internal]
  { saplingIvks := keys.saplingIvks ++ ufvk.sapling.elim [] fun dfvk =>
      scopes.map fun scope => (accountId, dfvk.toIvk scope, scope)
    orchardIvks := keys.orchardIvks ++ ufvk.orchard.elim [] fun fvk =>
      scopes.map fun scope => (accountId, fvk.toIvk scope, scope)
    ovks := keys.ovks ++ shielding ++ scopes.flatMap fun scope =>
      ufvk.sapling.elim [] (fun dfvk => [(dfvk.toOvk scope, scope)]) ++
        ufvk.orchard.elim [] fun fvk => [(fvk.toOvk scope, scope)] }

/-- A failed call of the wallet database. -/
def orDatabaseText {α : Type} (r : Except String α) : Except ErrorObject α :=
  r.mapError fun e => ⟨databaseCode, e, none⟩

/-- Lines 349–418. -/
def viewingKeys : Except ErrorObject (ViewingKeys SaplingIvk OrchardIvk) := do
  let ufvks ← orDatabaseText V.getUnifiedFullViewingKeys
  let keys := ufvks.foldl ViewingKeys.addUfvk ⟨[], [], []⟩
  let legacyOvks ← orDatabaseText V.legacyOvks
  .ok { keys with ovks := keys.ovks ++ legacyOvks.map fun ovk => (ovk, Scope.External) }

/-! ## The outputs -/

/-- The account and the scope of a transparent address: those of the first account
    that has metadata for it. -/
def walletScope (accountIds : List AccountUuid) (address : TransparentAddress) :
    Option (AccountUuid × Option Wallet.TransparentKeyScope) :=
  accountIds.findSome? fun account =>
    match V.getTransparentAddressMetadata account address with
    | .ok (some metadata) => some (account, metadata.scope)
    | _ => none

/-- One turn of the loop over the transparent outputs (lines 783–832). -/
def transparentViewed (accountIds : List AccountUuid) (fundedByThisWallet : Bool) (idx : ℕ)
    (output : Option TransparentAddress × ℕ) : ViewedOutput :=
  let (accountUuid, address, outgoing, walletInternal) :=
    match output.1 with
    | none => (none, none, none, false)
    | some address =>
      let found := walletScope V accountIds address
      let accountUuid := found.map Prod.fst
      let outgoing :=
        match accountUuid, fundedByThisWallet with
        | none, true => some true
        | some _, _ => some false
        | none, false => none
      (accountUuid, some (V.encodeTransparent address), outgoing,
        found.map Prod.snd == some (some TransparentKeyScope.INTERNAL))
  { pool := .transparent
    tOut := some idx
    output := none
    action := none
    accountUuid := accountUuid
    address := address
    outgoing := outgoing
    walletInternal := walletInternal
    value := output.2
    memo := none
    memoStr := none }

/-- `sent_to_address` (lines 466–507). -/
def sentToAddress (txid : TxId) (pool : Pool) (idx : ℕ) (fallbackAddr : Option String) :
    Except ErrorObject (Option String) := do
  let row ← (V.sentTo txid pool idx).mapError fun e =>
    ⟨databaseCode, "Failed to fetch sent-to address: " ++ e, none⟩
  .ok (row.getD fallbackAddr)

/-- What the wallet sees of a shielded output: an incoming note, or else an outgoing
    one. The recipient is kept of an external scope only. -/
def seen {Ivk Out Addr : Type} (decrypt : Ivk → Out → Option (Decrypted Addr))
    (recover : Ovk → Out → Option (Decrypted Addr)) (ivks : List (AccountUuid × Ivk × Scope))
    (ovks : List (Ovk × Scope)) (output : Out) :
    Option (Note × Option AccountUuid × Option Addr × Memo) :=
  let kept (scope : Scope) (addr : Addr) := if scope = .External then some addr else none
  let incoming := ivks.findSome? fun (accountId, ivk, scope) =>
    (decrypt ivk output).map fun (n, a, m) => (n, some accountId, kept scope a, m)
  let outgoing := ovks.findSome? fun (ovk, scope) =>
    (recover ovk output).map fun (n, a, m) => (n, none, kept scope a, m)
  incoming.or outgoing

/-- The loop over the shielded outputs of a pool. -/
def shieldedViewed {Ivk Out Addr : Type} (pool : Pool)
    (decrypt : Ivk → Out → Option (Decrypted Addr)) (recover : Ovk → Out → Option (Decrypted Addr))
    (encode : Addr → String) (position : ℕ → Option ℕ × Option ℕ)
    (ivks : List (AccountUuid × Ivk × Scope)) (ovks : List (Ovk × Scope)) (txid : TxId)
    (outputs : List Out) : Except ErrorObject (List ViewedOutput) :=
  collect (fun (output, idx) =>
    match seen decrypt recover ivks ovks output with
    | none => .ok []
    | some (note, accountUuid, addr, memo) => do
      let address ← sentToAddress V txid pool idx (addr.map encode)
      .ok [{ pool := pool
             tOut := none
             output := (position idx).1
             action := (position idx).2
             accountUuid := accountUuid
             address := address
             outgoing := some accountUuid.isNone
             walletInternal := address.isNone
             value := note.value
             memo := some memo.encoding
             memoStr := memo.text }]) outputs.zipIdx

/-- Lines 835–945. -/
def saplingViewed := shieldedViewed V .sapling V.decryptSapling V.recoverSapling V.encodeSapling
  fun idx => (some idx, none)

/-- `orchard_family_outputs` (lines 541–671). -/
def orchardFamilyOutputs (pool : Pool) :=
  shieldedViewed V pool (V.decryptOrchard pool) (V.recoverOrchard pool) V.encodeOrchard
    fun idx => (none, some idx)

/-- The outputs of `z_viewtransaction`. -/
def viewOutputs (tx : ViewedTx SaplingOutput OrchardAction) (fundedByThisWallet : Bool) :
    Except ErrorObject (List ViewedOutput) := do
  let accountIds ← orDatabaseText V.getAccountIds
  let keys ← viewingKeys V
  let transparent := tx.vout.zipIdx.map fun (output, idx) =>
    transparentViewed V accountIds fundedByThisWallet idx output
  let sapling ← saplingViewed V keys.saplingIvks keys.ovks tx.txid tx.saplingOutputs
  let orchard ← orchardFamilyOutputs V .orchard keys.orchardIvks keys.ovks tx.txid
    tx.orchardActions
  let ironwood ← orchardFamilyOutputs V .ironwood keys.orchardIvks keys.ovks tx.txid
    tx.ironwoodActions
  .ok (transparent ++ sapling ++ orchard ++ ironwood)

/-! ## Internal outputs -/

/-- An internal output is shown without an address. -/
def ViewedOutput.Hidden (o : ViewedOutput) : Prop := o.walletInternal = true → o.address = none

/-- No output of a transaction is at an internal address of the first account that
    knows it. -/
def NoInternalVout (tx : ViewedTx SaplingOutput OrchardAction) : Prop :=
  ∀ accountIds address value account, V.getAccountIds = .ok accountIds →
    (some address, value) ∈ tx.vout →
    walletScope V accountIds address ≠ some (account, some TransparentKeyScope.INTERNAL)

variable {V}

theorem orDatabaseText_eq_ok {α : Type} {r : Except String α} {a : α} :
    orDatabaseText r = .ok a ↔ r = .ok a :=
  mapError_eq_ok

theorem hidden_shieldedViewed {Ivk Out Addr : Type} {pool : Pool}
    {decrypt : Ivk → Out → Option (Decrypted Addr)} {recover : Ovk → Out → Option (Decrypted Addr)}
    {encode : Addr → String} {position : ℕ → Option ℕ × Option ℕ}
    {ivks : List (AccountUuid × Ivk × Scope)} {ovks : List (Ovk × Scope)} {txid : TxId}
    {outputs : List Out} {outs : List ViewedOutput}
    (h : shieldedViewed V pool decrypt recover encode position ivks ovks txid outputs = .ok outs) :
    ∀ o ∈ outs, o.Hidden := by
  obtain ⟨g, hg, rfl⟩ := collect_eq_ok.mp h
  intro o ho
  obtain ⟨⟨output, idx⟩, houtput, ho⟩ := List.mem_flatMap.mp ho
  have hbody := hg _ houtput
  dsimp only at hbody
  split at hbody
  · rw [← Except.ok.inj hbody] at ho
    cases ho
  · obtain ⟨address, -, hout⟩ := bind_eq_ok.mp hbody
    rw [← Except.ok.inj hout, List.mem_singleton] at ho
    rw [ho]
    exact fun hnone => Option.isNone_iff_eq_none.mp hnone

theorem hidden_transparentViewed_iff {accountIds : List AccountUuid} {fundedByThisWallet : Bool}
    {idx : ℕ} {output : Option TransparentAddress × ℕ} :
    (transparentViewed V accountIds fundedByThisWallet idx output).Hidden ↔
      ∀ address account, output.1 = some address →
        walletScope V accountIds address ≠ some (account, some TransparentKeyScope.INTERNAL) := by
  obtain ⟨address, value⟩ := output
  cases address with
  | none => simp [ViewedOutput.Hidden, transparentViewed]
  | some address =>
    have haddress : (transparentViewed V accountIds fundedByThisWallet idx
        (some address, value)).address ≠ none := by simp [transparentViewed]
    have hinternal : (transparentViewed V accountIds fundedByThisWallet idx
        (some address, value)).walletInternal =
          ((walletScope V accountIds address).map Prod.snd ==
            some (some TransparentKeyScope.INTERNAL)) := rfl
    rw [ViewedOutput.Hidden, hinternal, beq_iff_eq, Option.map_eq_some_iff]
    constructor
    · rintro hhidden address' account haddr hscope
      obtain rfl := Option.some.inj haddr
      exact haddress (hhidden ⟨_, hscope, rfl⟩)
    · rintro hnone ⟨⟨account, scope⟩, hscope, rfl⟩
      exact absurd hscope (hnone address account rfl)

/-- The outputs of a transaction are hidden exactly if none of its transparent ones is at
    an internal address. -/
theorem viewOutputs_hidden_iff {tx : ViewedTx SaplingOutput OrchardAction}
    {fundedByThisWallet : Bool} {outs : List ViewedOutput}
    (h : viewOutputs V tx fundedByThisWallet = .ok outs) :
    (∀ o ∈ outs, o.Hidden) ↔ NoInternalVout V tx := by
  obtain ⟨accountIds, hids, h⟩ := bind_eq_ok.mp h
  obtain ⟨keys, -, h⟩ := bind_eq_ok.mp h
  obtain ⟨sapling, hsapling, h⟩ := bind_eq_ok.mp h
  obtain ⟨orchard, horchard, h⟩ := bind_eq_ok.mp h
  obtain ⟨ironwood, hironwood, h⟩ := bind_eq_ok.mp h
  rw [← Except.ok.inj h]
  simp only [List.forall_mem_append]
  have hshielded : (∀ o ∈ sapling, o.Hidden) ∧ (∀ o ∈ orchard, o.Hidden) ∧
      ∀ o ∈ ironwood, o.Hidden :=
    ⟨hidden_shieldedViewed hsapling, hidden_shieldedViewed horchard,
      hidden_shieldedViewed hironwood⟩
  constructor
  · rintro ⟨⟨⟨htransparent, -⟩, -⟩, -⟩ ids address value account hids' hmem
    rw [orDatabaseText_eq_ok] at hids
    obtain rfl := Except.ok.inj (hids.symm.trans hids')
    obtain ⟨idx, hget⟩ := List.getElem?_of_mem hmem
    have hidx := List.mk_mem_zipIdx_iff_getElem?.mpr hget
    have hhidden := htransparent _ (List.mem_map_of_mem hidx)
    exact hidden_transparentViewed_iff.mp hhidden address account rfl
  · intro hnone
    refine ⟨⟨⟨?_, hshielded.1⟩, hshielded.2.1⟩, hshielded.2.2⟩
    intro o ho
    obtain ⟨⟨⟨address, value⟩, idx⟩, hidx, rfl⟩ := List.mem_map.mp ho
    refine hidden_transparentViewed_iff.mpr fun address' account haddr => ?_
    have hmem : (some address', value) ∈ tx.vout := haddr ▸ List.fst_mem_of_mem_zipIdx hidx
    exact hnone accountIds address' value account (orDatabaseText_eq_ok.mp hids) hmem

end

/-! ## Both methods -/

/-- **Internal outputs and addresses.** What `z_listunspent` and `z_viewtransaction`
    report with `walletInternal` has no address exactly if no transparent output
    that they report is at an internal address of the wallet. -/
theorem walletInternal_hides_address_iff (W : UnspentWallet)
    {SaplingIvk OrchardIvk SaplingOutput OrchardAction : Type}
    (V : ViewWallet SaplingIvk OrchardIvk SaplingOutput OrchardAction) :
    (∀ minconf maxconf texts asOfHeight query result,
      parseQuery W minconf maxconf texts asOfHeight = .ok query →
      listUnspent W minconf maxconf texts asOfHeight = .ok result →
      ((∀ o ∈ result, o.walletInternal = true → o.address = none) ↔
        ∀ q ∈ query, NoInternalUtxo W q)) ∧
    ∀ tx fundedByThisWallet outs, viewOutputs V tx fundedByThisWallet = .ok outs →
      ((∀ o ∈ outs, o.walletInternal = true → o.address = none) ↔ NoInternalVout V tx) :=
  ⟨fun _ _ _ _ _ _ hquery hresult => listUnspent_hidden_iff hquery hresult,
    fun _ _ _ h => viewOutputs_hidden_iff h⟩

/-! ## A transparent output, external or internal -/

namespace OneAddress

open ListUnspent.TwoOutputs (tAddr wallet)

/-- The wallet of one transparent output and a note, with a scope for its address. -/
def unspentWallet (scope : Wallet.TransparentKeyScope) : UnspentWallet :=
  { wallet with getTransparentAddressMetadata := fun _ _ => .ok (some ⟨some scope⟩) }

/-- The same account, which sees a transaction with the output. -/
def viewWallet (scope : Wallet.TransparentKeyScope) : ViewWallet Unit Unit Unit Unit where
  encodeTransparent _ := "t1"
  encodeSapling _ := "zs1"
  encodeOrchard _ := "u1"
  getAccountIds := .ok [1]
  getUnifiedFullViewingKeys := .ok []
  legacyOvks := .ok []
  getTransparentAddressMetadata _ _ := .ok (some ⟨some scope⟩)
  sentTo _ _ _ := .ok none
  decryptSapling _ _ := none
  recoverSapling _ _ := none
  decryptOrchard _ _ _ := none
  recoverOrchard _ _ _ := none

def tx : ViewedTx Unit Unit := ⟨7, [(some tAddr, 500)], [], [], []⟩

/-- An output at an external address has its address, and is not internal. -/
theorem hides_address_external :
    (∃ result, listUnspent (unspentWallet 0) none none none none = .ok result ∧
      ∀ o ∈ result, o.walletInternal = true → o.address = none) ∧
    ∃ outs, viewOutputs (viewWallet 0) tx true = .ok outs ∧
      ∀ o ∈ outs, o.walletInternal = true → o.address = none := by
  have hscope : ∀ metadata : TransparentAddressMetadata,
      (Except.ok (some ⟨some 0⟩) : Except String _) = .ok (some metadata) →
      metadata.scope ≠ some TransparentKeyScope.INTERNAL := by
    intro metadata h
    rw [← Option.some.inj (Except.ok.inj h)]
    decide
  refine ⟨⟨_, rfl, ?_⟩, ⟨_, rfl, ?_⟩⟩
  · refine ((walletInternal_hides_address_iff (unspentWallet 0) (viewWallet 0)).1 none none none none
      (some ⟨[], 1, none, 100⟩) _ rfl rfl).mpr ?_
    intro q _ ids id receivers addr coinbaseFilter outputs utxo metadata _ _ _ _ _ _ _ hmetadata
      hinternal
    exact absurd hinternal (hscope metadata hmetadata)
  · refine ((walletInternal_hides_address_iff (unspentWallet 0) (viewWallet 0)).2 tx true _ rfl).mpr ?_
    intro ids address value account hids _ hfound
    obtain rfl := Except.ok.inj hids
    have hwallet : walletScope (viewWallet 0) [1] address = some (1, some 0) := rfl
    rw [hwallet] at hfound
    have hzero : (0 : Wallet.TransparentKeyScope) = TransparentKeyScope.INTERNAL :=
      Option.some.inj (Prod.mk.inj (Option.some.inj hfound)).2
    exact absurd hzero (by decide)

/-- Both methods report an output at an internal address with its address. -/
theorem internal_address_shown :
    (∃ result, listUnspent (unspentWallet 1) none none none none = .ok result ∧
      ¬ ∀ o ∈ result, o.walletInternal = true → o.address = none) ∧
    ∃ outs, viewOutputs (viewWallet 1) tx true = .ok outs ∧
      ¬ ∀ o ∈ outs, o.walletInternal = true → o.address = none :=
  ⟨⟨_, rfl, by decide⟩, ⟨_, rfl, by decide⟩⟩

end OneAddress

end Zallet.Rpc.ViewTransaction
