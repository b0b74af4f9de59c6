import Mathlib

/-!
# Chain data

The types of `zallet-core/src/components/chain.rs` that the sync engine and
the chain backends pass around.

* `BlockHeight` is a `u32` in the code, with `+` and `-` that saturate. Its
  model is `ℕ`: subtraction of naturals saturates at `0` as well, and no
  height in these models comes near `2^32`.
* A 32-byte hash is a `BitVec 256`; only equality of hashes is ever used.
* A transaction is its raw encoding. The code hands transactions on to
  functions outside the repository and never looks inside them here.
-/

namespace Zallet.Chain

/-- `BlockHash`. -/
abbrev BlockHash := BitVec 256

/-- `TxId`. -/
abbrev TxId := BitVec 256

instance lawfulBEqTxId : LawfulBEq TxId := inferInstance

/-- `TxId::is_null`. -/
def isNull (txid : TxId) : Bool := txid == 0

/-- `ChainBlock`: a block's height and hash (chain.rs, lines 696–700). -/
structure ChainBlock where
  height : ℕ
  hash : BlockHash
  deriving DecidableEq

/-- `ChainError` (chain/error.rs, lines 10–29). The boxed source is its
    text. -/
inductive ChainError
  | Unavailable (source : String)
  | InvalidData (source : String)
  | Backend (source : String)
  deriving DecidableEq

/-- `Range<BlockHeight>`, half open; `stop` is the `end` of the code. -/
structure HeightRange where
  start : ℕ
  stop : ℕ
  deriving DecidableEq

/-- What the code reads of a block header. -/
structure BlockHeader where
  hash : BlockHash
  deriving DecidableEq

structure Transaction where
  raw : List UInt8
  deriving DecidableEq

structure Block where
  claimedHeight : ℕ
  header : BlockHeader
  vtx : List Transaction
  deriving DecidableEq

/-- A note commitment tree frontier: its nodes and the number of leaves
    appended so far. -/
structure Frontier where
  nodes : List (BitVec 256)
  treeSize : ℕ
  deriving DecidableEq

/-- `ChainState`: the note commitment trees as of a block. -/
structure ChainState where
  blockHeight : ℕ
  blockHash : BlockHash
  finalSaplingTree : Frontier
  finalOrchardTree : Frontier
  finalIronwoodTree : Frontier
  deriving DecidableEq

/-- `ChainTx` (chain.rs, lines 763–769). -/
structure ChainTx where
  inner : Transaction
  raw : List UInt8
  blockHash : Option BlockHash
  minedHeight : Option ℕ
  blockTime : Option ℕ
  deriving DecidableEq

structure OutPoint where
  txid : TxId
  n : ℕ
  deriving DecidableEq

inductive TransparentAddress
  | PublicKeyHash (hash : BitVec 160)
  | ScriptHash (hash : BitVec 160)
  deriving DecidableEq

inductive TransactionStatus
  | TxidNotRecognized
  | NotInMainChain
  | Mined (height : ℕ)
  deriving DecidableEq

/-- `SpendStatus` (chain.rs, lines 830–840). -/
inductive SpendStatus
  | Unspent
  | SpentBy (txid : TxId)
  | SpentSpenderUnknown
  deriving DecidableEq

/-! ## Block locators -/

/-- `BlockLocator`: the caller's block hashes, highest height first
    (chain.rs, lines 720–722). -/
structure BlockLocator where
  hashes : List BlockHash
  deriving DecidableEq

/-- `BlockLocator::from_blocks` (chain.rs, lines 735–753). `none` is the
    panic of its assertion that each height is below the one before it. -/
def BlockLocator.fromBlocks (blocks : List ChainBlock) : Option BlockLocator :=
  if blocks.IsChain (fun a b => b.height < a.height) then some ⟨blocks.map (·.hash)⟩ else none

theorem BlockLocator.fromBlocks_eq {blocks : List ChainBlock}
    (h : blocks.IsChain fun a b => b.height < a.height) :
    fromBlocks blocks = some ⟨blocks.map (·.hash)⟩ := by
  unfold fromBlocks
  rw [if_pos h]

end Zallet.Chain
