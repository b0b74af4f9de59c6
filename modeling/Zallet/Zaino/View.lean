import Zallet.Chain.TreeState
import Zallet.Common.Loop

/-!
# The view of the `zaino` backend

`tree_state_as_of`, `get_transaction` and `get_transaction_status` of
`ZainoChainView` (`backends/zaino/src/chain.rs`, lines 463–549 and 605–699). A
view holds a snapshot of Zaino's chain index, and `Index` is what the index
answers for that snapshot.
-/

namespace Zallet.Zaino

open Zallet.Chain

/-- `BestChainLocation`, of `zaino_state`. -/
inductive BestChainLocation
  | Block (hash : BlockHash) (height : ℕ)
  | Mempool
  deriving DecidableEq

/-- `NonBestChainLocation`, of `zaino_state`. -/
inductive NonBestChainLocation
  | Block (hash : BlockHash) (height : ℕ)
  | Mempool
  deriving DecidableEq

/-- The chain index, read at the view's snapshot. The non-best locations of a
    transaction are in the order in which they are iterated over. -/
structure Index where
  bestChaintip : Except String ChainBlock
  getBlockHash : ℕ → Except String (Option BlockHash)
  getTreestate : BlockHash → Except String (TreePool → Option (List UInt8))
  getRawTransaction : TxId → Except String (Option (List UInt8 × Option (BitVec 32)))
  getTransactionStatus :
    TxId → Except String (Option BestChainLocation × List NonBestChainLocation)
  /-- The first item of `get_block_range(height, Some(height))`. -/
  getBlock : ℕ → Option (Except String (List UInt8))

/-- `Transaction::read`, and the time of `BlockHeader::read`. -/
structure TxCodec where
  readTransaction : List UInt8 → BranchId → Except String Transaction
  headerTime : List UInt8 → Except String ℕ

/-- `block_fetch_error` (lines 68–77). -/
def blockFetchError (e : String) : ChainError :=
  if e.contains "block height not in best chain" then .Unavailable e else .Backend e

namespace Index

variable (index : Index) (params : Parameters)

/-- `tip` (lines 436–444). -/
def tip : Except ChainError ChainBlock := index.bestChaintip.mapError .Backend

/-- The closure `missing_tree` (lines 488–493). -/
def missingTree (height : ℕ) (pool : TreePool) : ChainError :=
  let name := pool.display
  .Unavailable
    (s!"the validator reported no {name} treestate at height {height}, at or " ++
      "after that pool's activation; refusing to substitute an empty frontier")

/-- The match on a pool's treestate (lines 497–536). -/
def servedTree (decode : TreeCodec) (height : ℕ) (trees : TreePool → Option (List UInt8))
    (pool : TreePool) : Except ChainError Frontier :=
  treeFrom (decode pool) .Backend (emptyTreeIsLegitimate params pool height)
    (missingTree height pool) (trees pool)

/-- `tree_state_as_of` (lines 463–549). -/
def treeStateAsOf (decode : TreeCodec) (height : ℕ) : Except ChainError (Option ChainState) := do
  match ← (index.getBlockHash height).mapError .Backend with
  | none => pure none
  | some hash => do
    let trees ← (index.getTreestate hash).mapError .Backend
    let finalSaplingTree ← servedTree params decode height trees .Sapling
    let finalOrchardTree ← servedTree params decode height trees .Orchard
    let finalIronwoodTree ← servedTree params decode height trees .Ironwood
    pure (some ⟨height, hash, finalSaplingTree, finalOrchardTree, finalIronwoodTree⟩)

/-- The branch at which `get_transaction` parses a transaction (lines 617–632). -/
def parseBranch (ids : BranchIds) : Option (BitVec 32) → Except ChainError BranchId
  | some id => (ids.tryFrom id).elim (.error (.Backend "Unknown consensus branch ID")) .ok
  | none => index.tip.map fun tip => BranchId.forHeight params (tip.height + 1)

/-- The transaction and its bytes, as `get_transaction` first reads them (lines
    608–639). -/
def fetchTransaction (ids : BranchIds) (codec : TxCodec) (txid : TxId) :
    Except ChainError (Option (Transaction × List UInt8)) := do
  match ← (index.getRawTransaction txid).mapError .Backend with
  | none => pure none
  | some (raw, branchId) => do
    let branch ← index.parseBranch params ids branchId
    let inner ← (codec.readTransaction raw branch).mapError .Backend
    pure (some (inner, raw))

/-- Where `get_transaction` places a transaction: its block, its height, and
    whether they are of the best chain (lines 641–661). -/
def placement : Option BestChainLocation × List NonBestChainLocation →
    Option BlockHash × Option ℕ × Bool
  | (some (.Block hash height), _) => (some hash, some height, true)
  | (some .Mempool, _) => (none, none, false)
  | (none, .Block hash height :: _) => (some hash, some height, false)
  | (none, _) => (none, none, false)

/-- The time of the header at `height` (`get_block_header`, lines 551–559, and
    `get_block_inner`, lines 784–804). -/
def headerTime (codec : TxCodec) (height : ℕ) : Except ChainError (Option ℕ) :=
  match index.getBlock height with
  | none => .ok none
  | some (.error e) => .error (blockFetchError e)
  | some (.ok bytes) => ((codec.headerTime bytes).mapError .Backend).map some

/-- The block time `get_transaction` reports (lines 666–672). -/
def blockTime (codec : TxCodec) : Option ℕ → Bool → Except ChainError (Option ℕ)
  | some height, true => index.headerTime codec height
  | _, _ => .ok none

/-- `get_transaction` (lines 605–681). -/
def getTransaction (ids : BranchIds) (codec : TxCodec) (txid : TxId) :
    Except ChainError (Option ChainTx) := do
  match ← index.fetchTransaction params ids codec txid with
  | none => pure none
  | some (inner, raw) => do
    let locations ← (index.getTransactionStatus txid).mapError .Backend
    let (blockHash, minedHeight, inBestChain) := placement locations
    let blockTime ← index.blockTime codec minedHeight inBestChain
    pure (some ⟨inner, raw, blockHash, minedHeight, blockTime⟩)

/-- `get_transaction_status` (lines 683–699). -/
def statusOf : Option BestChainLocation × List NonBestChainLocation → TransactionStatus
  | (some (.Block _ height), _) => .Mined height
  | (some .Mempool, _) => .NotInMainChain
  | (none, []) => .TxidNotRecognized
  | (none, _) => .NotInMainChain

def transactionStatus (txid : TxId) : Except ChainError TransactionStatus :=
  ((index.getTransactionStatus txid).mapError .Backend).map statusOf

end Index

end Zallet.Zaino
