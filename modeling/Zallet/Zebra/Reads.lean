import Zallet.Chain.TreeState
import Zallet.Zebra.Blocks

/-!
# Tree states and transactions of the `zebra` view

`tree_state_as_of`, `get_transaction`, `get_transaction_status` and
`outpoint_spend_status` of `ZebraChainView` (`backends/zebra/src/chain.rs`,
lines 322–400 and 522–604).
-/

namespace Zallet.Zebra

open Zallet.Effect Zallet.Common Zallet.Chain

/-- `Transaction::read` and `hex::decode`. -/
structure TxCodec where
  readTransaction : List UInt8 → BranchId → Except String Transaction
  hexDecode : String → Except String (List UInt8)

/-- A codec that takes any bytes for a transaction. -/
def anyBytes : TxCodec := ⟨fun bytes _ => .ok ⟨bytes⟩, fun _ => .error "not hex"⟩

/-- `convert::transaction` (convert.rs, lines 75–83). -/
def convertTransaction (params : Parameters) (codec : TxCodec) (bytes : List UInt8)
    (parseHeight : ℕ) : ViewM Transaction :=
  ofOutcome ((codec.readTransaction bytes (BranchId.forHeight params parseHeight)).mapError
    .InvalidData)

namespace ZebraChainView

variable (self : ZebraChainView) (params : Parameters)

/-- The closure `missing_tree` (lines 342–351). -/
def missingTree (height : ℕ) (pool : TreePool) : ChainError :=
  let name := pool.display
  if height ≤ self.finalizedFloor then
    .Unavailable
      (s!"zebra reported no {name} treestate at finalized height {height}, at or " ++
        "after that pool's activation; refusing to substitute an empty frontier")
  else .Unavailable s!"pinned {name} treestate reorged away"

/-- The closure `absent_tree_is_empty` (lines 352–354). -/
def absentTreeIsEmpty (height : ℕ) (pool : TreePool) : Bool :=
  decide (height ≤ self.finalizedFloor) && emptyTreeIsLegitimate params pool height

/-- The match on a pool's bytes (lines 356–391). -/
def pinnedTree (decode : TreeCodec) (height : ℕ) (hash : BlockHash) (pool : TreePool) :
    ViewM Frontier := do
  let answer ← read (.treeBytes pool hash)
  ofOutcome (treeFrom (decode pool) .InvalidData (self.absentTreeIsEmpty params height pool)
    (self.missingTree height pool) answer)

/-- `tree_state_as_of` (lines 322–400). -/
def treeStateAsOf (decode : TreeCodec) (height : ℕ) : ViewM (Option ChainState) := do
  match ← self.resolve height with
  | none => pure none
  | some hash => do
    let finalSaplingTree ← self.pinnedTree params decode height hash .Sapling
    let finalOrchardTree ← self.pinnedTree params decode height hash .Orchard
    let finalIronwoodTree ← self.pinnedTree params decode height hash .Ironwood
    pure (some ⟨height, hash, finalSaplingTree, finalOrchardTree, finalIronwoodTree⟩)

/-- The mempool part of `get_transaction` (lines 552–571). -/
def mempoolTransaction (codec : TxCodec) (txid : TxId) : ViewM (Option ChainTx) := do
  let mempool ← read .getRawMempool
  if txid ∈ mempool then do
    let rawHex ← read (.getRawTransaction txid)
    let raw ← ofOutcome ((codec.hexDecode rawHex).mapError .InvalidData)
    let inner ← convertTransaction params codec raw (self.tip.height + 1)
    pure (some ⟨inner, raw, none, none, none⟩)
  else pure none

/-- `get_transaction` (lines 522–571). -/
def getTransaction (codec : TxCodec) (txid : TxId) : ViewM (Option ChainTx) := do
  match ← read (.transaction txid) with
  | some mined => do
    let inner ← convertTransaction params codec mined.raw mined.height
    let blockHash ← self.resolve mined.height
    pure (some ⟨inner, mined.raw, blockHash, some mined.height, some mined.blockTime⟩)
  | none => do
    match ← read (.sideChainTransaction txid) with
    | some side => do
      let inner ← convertTransaction params codec side.raw (self.tip.height + 1)
      pure (some ⟨inner, side.raw, some side.blockHash, none, none⟩)
    | none => self.mempoolTransaction params codec txid

/-- `get_transaction_status` (lines 573–591). -/
def getTransactionStatus (_self : ZebraChainView) (txid : TxId) : ViewM TransactionStatus := do
  match ← read (.transaction txid) with
  | some mined => pure (.Mined mined.height)
  | none => do
    match ← read (.sideChainTransaction txid) with
    | some _ => pure .NotInMainChain
    | none => do
      let mempool ← read .getRawMempool
      pure (if txid ∈ mempool then .NotInMainChain else .TxidNotRecognized)

/-- `outpoint_spend_status` (lines 593–608). -/
def outpointSpendStatus (_self : ZebraChainView) (outpoint : OutPoint) : ViewM SpendStatus := do
  if ← read (.isUnspent outpoint) then pure .Unspent
  else do
    match ← read (.spendingTransaction outpoint) with
    | some txid => pure (.SpentBy txid)
    | none => pure .SpentSpenderUnknown

end ZebraChainView

end Zallet.Zebra
