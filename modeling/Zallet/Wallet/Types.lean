import Zallet.Chain.Types

/-!
# Wallet data

The types of `zcash_client_backend` and `zcash_client_sqlite` that the sync
engine uses. Those crates are not part of the repository: a value that the
sync engine only hands from one of their functions to another is represented
by an encoding, and their functions are the fields of `Upstream`, with what
their documentation says of them.
-/

namespace Zallet.Wallet

open Zallet.Chain

/-- `AccountUuid`. -/
abbrev AccountUuid := BitVec 128

/-- `TransparentKeyScope`: a child index of the account's key. -/
abbrev TransparentKeyScope := BitVec 32

/-- `TransparentAddressMetadata`, of which the code reads the scope. -/
structure TransparentAddressMetadata where
  scope : Option TransparentKeyScope
  deriving DecidableEq

/-- `Nullifiers` of the unspent notes the wallet tracks. -/
structure Nullifiers where
  encoding : List UInt8
  deriving DecidableEq

/-- `ScanningKeys` the batch decryptor used for a block. -/
structure ScanningKeys where
  encoding : List UInt8
  deriving DecidableEq

/-- A transaction of a block with the outputs the batch decryptor found. -/
structure DecryptedTx where
  encoding : List UInt8
  deriving DecidableEq

/-- `BlockMetadata` (its `from_parts` takes the fields in this order). -/
structure BlockMetadata where
  blockHeight : ℕ
  blockHash : BlockHash
  saplingTreeSize : Option ℕ
  orchardTreeSize : Option ℕ
  ironwoodTreeSize : Option ℕ
  deriving DecidableEq

/-- `ScannedBlock`: its height, its hash and what was found in it. -/
structure ScannedBlock where
  height : ℕ
  hash : BlockHash
  contents : List UInt8
  deriving DecidableEq

/-- `ScanError`, by its text. -/
structure ScanError where
  text : String
  deriving DecidableEq

/-- `ScanBlockError`; `other` stands for the variants the code does not
    name. -/
inductive ScanBlockError
  | Scan (e : ScanError)
  | other (text : String)
  deriving DecidableEq

/-- `ScanPriority`, lowest first. -/
inductive ScanPriority
  | Ignored
  | Scanned
  | Historic
  | OpenAdjacent
  | FoundNote
  | ChainTip
  | Verify
  deriving DecidableEq

/-- The order of `ScanPriority` is the order of its variants. -/
def ScanPriority.rank : ScanPriority → ℕ
  | Ignored => 0
  | Scanned => 1
  | Historic => 2
  | OpenAdjacent => 3
  | FoundNote => 4
  | ChainTip => 5
  | Verify => 6

/-- `ScanRange`. -/
structure ScanRange where
  blockRange : HeightRange
  priority : ScanPriority
  deriving DecidableEq

/-- `TransactionsInvolvingAddress`, of which the code reads these fields. -/
structure TransactionsInvolvingAddress where
  address : TransparentAddress
  blockRangeStart : ℕ
  blockRangeEnd : Option ℕ
  deriving DecidableEq

/-- `TransactionDataRequest`. `GetSpendingTx` exists in builds with a spend
    index only. -/
inductive TransactionDataRequest
  | GetStatus (txid : TxId)
  | Enhancement (txid : TxId)
  | TransactionsInvolvingAddress (request : TransactionsInvolvingAddress)
  | GetSpendingTx (outpoint : OutPoint)
  deriving DecidableEq

/-- `SqliteClientError`: the variants the sync engine tells apart. -/
inductive SqliteClientError
  | BlockConflict (height : ℕ)
  | RequestedRewindInvalid (safeRewindHeight : Option ℕ) (requestedHeight : ℕ)
  | PutBlocksCommitmentTree (text : String)
  | CommitmentTree (text : String)
  | TruncateCommitmentTree (text : String)
  | other (text : String)
  deriving DecidableEq

/-- `ShardTreeError`, by its text. -/
structure ShardTreeError where
  text : String
  deriving DecidableEq

/-- An index from a transparent address to the account that controls it
    (`HashMap` in steps.rs, lines 70–71). -/
abbrev TransparentAddressIndex :=
  TransparentAddress → Option (AccountUuid × Option TransparentKeyScope)

/-- `full::scan_block`, without the network parameters, which never
    change. -/
abbrev ScanBlockFn :=
  ℕ → BlockHeader → List DecryptedTx → ScanningKeys → Nullifiers →
    Option BlockMetadata → TransparentAddressIndex → Except ScanBlockError ScannedBlock

/-- The functions of the wallet crates that the sync engine calls, with their
    documented behaviour. -/
structure Upstream where
  /-- `ScanRange::truncate_start`. -/
  truncateStart : ScanRange → ℕ → Option ScanRange
  /-- `ScanRange::truncate_end`. -/
  truncateEnd : ScanRange → ℕ → Option ScanRange
  /-- `ScanRange::split_at`. -/
  splitAt : ScanRange → ℕ → Option (ScanRange × ScanRange)
  /-- `full::scan_block`. -/
  scanBlock : ScanBlockFn
  /-- `ScannedBlock::to_block_metadata`. -/
  toBlockMetadata : ScannedBlock → BlockMetadata
  /-- `Nullifiers::update_with`. -/
  updateWith : Nullifiers → ScannedBlock → Nullifiers
  /-- "Shifts the start of the block range to the right" if the height is
      above it; `None` if the result is empty. -/
  truncateStart_eq : ∀ r h, truncateStart r h =
    if max r.blockRange.start h < r.blockRange.stop then
      some ⟨⟨max r.blockRange.start h, r.blockRange.stop⟩, r.priority⟩ else none
  /-- "Shifts the end of the block range to the left" if the height is below
      it; `None` if the result is empty. -/
  truncateEnd_eq : ∀ r h, truncateEnd r h =
    if r.blockRange.start < min r.blockRange.stop h then
      some ⟨⟨r.blockRange.start, min r.blockRange.stop h⟩, r.priority⟩ else none
  /-- Splits at a height strictly inside the range. -/
  splitAt_eq : ∀ r h, splitAt r h =
    if r.blockRange.start < h ∧ h < r.blockRange.stop then
      some (⟨⟨r.blockRange.start, h⟩, r.priority⟩, ⟨⟨h, r.blockRange.stop⟩, r.priority⟩)
    else none
  /-- A scanned block has the height and the hash it was scanned with. -/
  scanBlock_ok : ∀ height header vtx keys nullifiers metadata addresses scanned,
    scanBlock height header vtx keys nullifiers metadata addresses = .ok scanned →
      scanned.height = height ∧ scanned.hash = header.hash

/-- The functions of a wallet that tracks no account: scanning finds
    nothing. -/
def Upstream.watchNothing : Upstream where
  truncateStart r h :=
    if max r.blockRange.start h < r.blockRange.stop then
      some ⟨⟨max r.blockRange.start h, r.blockRange.stop⟩, r.priority⟩ else none
  truncateEnd r h :=
    if r.blockRange.start < min r.blockRange.stop h then
      some ⟨⟨r.blockRange.start, min r.blockRange.stop h⟩, r.priority⟩ else none
  splitAt r h :=
    if r.blockRange.start < h ∧ h < r.blockRange.stop then
      some (⟨⟨r.blockRange.start, h⟩, r.priority⟩, ⟨⟨h, r.blockRange.stop⟩, r.priority⟩)
    else none
  scanBlock height header _ _ _ _ _ := .ok ⟨height, header.hash, []⟩
  toBlockMetadata scanned := ⟨scanned.height, scanned.hash, none, none, none⟩
  updateWith nullifiers _ := nullifiers
  truncateStart_eq _ _ := rfl
  truncateEnd_eq _ _ := rfl
  splitAt_eq _ _ := rfl
  scanBlock_ok height header vtx keys nullifiers metadata addresses scanned h := by
    have hs : ScannedBlock.mk height header.hash [] = scanned := by simpa using h
    rw [← hs]
    exact ⟨rfl, rfl⟩

end Zallet.Wallet
