import Zallet.Chain.Types
import Zallet.Common.BlockTree

/-!
# The `Chain` and `ChainView` interface

The reads of the traits `Chain` and `ChainView`
(`zallet-core/src/components/chain.rs`, lines 137–190 and 576–693), and what
their documentation promises of an answer.

A view is captured at a tip and serves the chain of that tip: "every read
through the returned `ChainView` reflects one fixed chain history for the
lifetime of the view". In a block tree the tip's hash fixes that history, so
a view is its tip. `ChainOp.Serves T o a` says that `a` is an answer the
documentation allows for the read `o`; any read may also fail, with any
`ChainError`.

A block stream is modelled by everything it will yield: a list of blocks and
the error it ends with, if any. `Streams` is the contract of a stream: the
view's blocks in order, and all of them unless it fails.
-/

namespace Zallet.Chain

open Zallet.Common

/-- A view of the chain as of a captured tip. -/
structure ChainView where
  tip : ChainBlock
  deriving DecidableEq

/-- `CommitmentTreeRoot`: the root of a completed subtree. -/
structure CommitmentTreeRoot where
  subtreeEndHeight : ℕ
  rootHash : BitVec 256
  deriving DecidableEq

/-- What a stream of blocks yields, and the error it ends with. -/
structure BlockStream where
  blocks : List Block
  failure : Option ChainError
  deriving DecidableEq

/-- The reads of `Chain` and `ChainView`. -/
inductive ChainOp
  | snapshot
  | getSaplingSubtreeRoots
  | getOrchardSubtreeRoots
  | getIronwoodSubtreeRoots
  | tip (view : ChainView)
  | findForkPoint (view : ChainView) (locator : BlockLocator)
  | treeStateAsOf (view : ChainView) (height : ℕ)
  | getBlockHeader (view : ChainView) (height : ℕ)
  | getBlock (view : ChainView) (height : ℕ)
  | streamBlocksToTip (view : ChainView) (start : ℕ)
  | streamBlocks (view : ChainView) (range : HeightRange)
  | getMempoolStream (view : ChainView)
  | getTransaction (view : ChainView) (txid : TxId)
  | getTransactionStatus (view : ChainView) (txid : TxId)
  | outpointSpendStatus (view : ChainView) (outpoint : OutPoint)
  | getAddressUnspentOutpoints (view : ChainView) (address : TransparentAddress)
  | getAddressTxIds (view : ChainView) (address : TransparentAddress) (range : HeightRange)
  deriving DecidableEq

/-- The result type of a read that succeeds. -/
@[reducible] def ChainOp.Out : ChainOp → Type
  | snapshot => ChainView
  | getSaplingSubtreeRoots => List CommitmentTreeRoot
  | getOrchardSubtreeRoots => List CommitmentTreeRoot
  | getIronwoodSubtreeRoots => List CommitmentTreeRoot
  | tip _ => ChainBlock
  | findForkPoint _ _ => Option ChainBlock
  | treeStateAsOf _ _ => Option ChainState
  | getBlockHeader _ _ => Option BlockHeader
  | getBlock _ _ => Option Block
  | streamBlocksToTip _ _ => BlockStream
  | streamBlocks _ _ => BlockStream
  | getMempoolStream _ => Option (List Transaction)
  | getTransaction _ _ => Option ChainTx
  | getTransactionStatus _ _ => TransactionStatus
  | outpointSpendStatus _ _ => SpendStatus
  | getAddressUnspentOutpoints _ _ => List OutPoint
  | getAddressTxIds _ _ _ => List TxId

variable (T : BlockTree BlockHash)

/-- The hash of the view's block at `height`. -/
def ChainView.hashAt (view : ChainView) (height : ℕ) : BlockHash :=
  T.ancestor view.tip.hash height

/-- The recorded height of the tip is its height in the tree. -/
def ChainView.WF (view : ChainView) : Prop := T.height view.tip.hash = view.tip.height

/-- The first locator entry on the view's chain. -/
def ChainView.forkPoint (view : ChainView) (locator : BlockLocator) : Option ChainBlock :=
  (locator.hashes.find? fun hash => decide (T.OnChain view.tip.hash hash)).map
    fun hash => ⟨T.height hash, hash⟩

/-- From height `next` on, the stream yields the view's blocks below `stop`
    one after the other, and reaches `stop` unless it fails. -/
def Streams (view : ChainView) (stop : ℕ) :
    ℕ → List Block → Option ChainError → Prop
  | next, [], none => stop ≤ next
  | _, [], some _ => True
  | next, block :: rest, failure =>
    next < stop ∧ block.claimedHeight = next ∧ block.header.hash = view.hashAt T next ∧
      Streams view stop (next + 1) rest failure

/-- The heights and hashes of the view's blocks from `start` up to `stop`. -/
def ChainView.ids (view : ChainView) (start stop : ℕ) : List (ℕ × BlockHash) :=
  (List.range' start (stop - start)).map fun height => (height, view.hashAt T height)

/-- The answers the documentation of `Chain` and `ChainView` allows. -/
def ChainOp.Serves : (o : ChainOp) → o.Out → Prop
  | snapshot, view => view.WF T
  | tip view, block => block = view.tip
  | findForkPoint view locator, block => block = view.forkPoint T locator
  | treeStateAsOf view height, state => match state with
    | none => view.tip.height < height
    | some state => height ≤ view.tip.height ∧ state.blockHeight = height ∧
        state.blockHash = view.hashAt T height
  | getBlockHeader view height, header => match header with
    | none => view.tip.height < height
    | some header => height ≤ view.tip.height ∧ header.hash = view.hashAt T height
  | getBlock view height, block => match block with
    | none => view.tip.height < height
    | some block => height ≤ view.tip.height ∧ block.claimedHeight = height ∧
        block.header.hash = view.hashAt T height
  | streamBlocksToTip view start, stream =>
    Streams T view (view.tip.height + 1) start stream.blocks stream.failure
  | streamBlocks view range, stream =>
    Streams T view (min range.stop (view.tip.height + 1)) range.start stream.blocks stream.failure
  | getSaplingSubtreeRoots, _ => True
  | getOrchardSubtreeRoots, _ => True
  | getIronwoodSubtreeRoots, _ => True
  | getMempoolStream _, _ => True
  | getTransaction _ _, _ => True
  | getTransactionStatus _ _, _ => True
  | outpointSpendStatus _ _, _ => True
  | getAddressUnspentOutpoints _ _, _ => True
  | getAddressTxIds _ _ _, _ => True

/-- The answers of a read: a failure of any kind, or what `Serves` allows. -/
def ChainOp.Answers (o : ChainOp) : Except ChainError o.Out → Prop
  | .ok a => o.Serves T a
  | .error _ => True

/-- The view has gone stale: the read fails with `Unavailable`, or it answers
    with a stream that ends so. -/
def ChainOp.Stale : (o : ChainOp) → Except ChainError o.Out → Prop
  | _, .error (.Unavailable _) => True
  | streamBlocksToTip _ _, .ok stream => ∃ source, stream.failure = some (.Unavailable source)
  | streamBlocks _ _, .ok stream => ∃ source, stream.failure = some (.Unavailable source)
  | _, _ => False

variable {T}

theorem ChainView.WF.onChain {view : ChainView} (h : view.WF T) {height : ℕ}
    (hh : height ≤ view.tip.height) : T.OnChain view.tip.hash (view.hashAt T height) :=
  BlockTree.onChain_ancestor (by rw [h]; exact hh)

theorem ChainView.WF.height_hashAt {view : ChainView} (h : view.WF T) {height : ℕ}
    (hh : height ≤ view.tip.height) : T.height (view.hashAt T height) = height :=
  BlockTree.height_ancestor (by rw [h]; exact hh)

/-- The view's block at the tip's height is the tip. -/
theorem ChainView.WF.hashAt_tip {view : ChainView} (h : view.WF T) :
    view.hashAt T view.tip.height = view.tip.hash := by
  unfold hashAt
  rw [← h, BlockTree.ancestor_self]

/-- A fork point is a locator entry, on the view's chain at its height. -/
theorem ChainView.forkPoint_some {view : ChainView} {locator : BlockLocator} {block : ChainBlock}
    (h : view.forkPoint T locator = some block) :
    block.hash ∈ locator.hashes ∧ T.OnChain view.tip.hash block.hash ∧
      block.height = T.height block.hash := by
  unfold forkPoint at h
  obtain ⟨hash, hfind, rfl⟩ := Option.map_eq_some_iff.mp h
  have hp := List.find?_some hfind
  exact ⟨List.mem_of_find?_eq_some hfind, by simpa using hp, rfl⟩

theorem ChainView.forkPoint_none {view : ChainView} {locator : BlockLocator}
    (h : view.forkPoint T locator = none) :
    ∀ hash ∈ locator.hashes, ¬ T.OnChain view.tip.hash hash := by
  unfold forkPoint at h
  rw [Option.map_eq_none_iff, List.find?_eq_none] at h
  simpa using h

theorem ChainView.mem_ids {view : ChainView} {start stop height : ℕ} {hash : BlockHash} :
    (height, hash) ∈ view.ids T start stop ↔
      start ≤ height ∧ height < stop ∧ hash = view.hashAt T height := by
  unfold ids
  rw [List.mem_map]
  constructor
  · rintro ⟨h, hh, heq⟩
    rw [List.mem_range'_1] at hh
    cases heq
    exact ⟨hh.1, by omega, rfl⟩
  · rintro ⟨h₁, h₂, rfl⟩
    exact ⟨height, List.mem_range'_1.mpr ⟨h₁, by omega⟩, rfl⟩

theorem ChainView.ids_of_le {view : ChainView} {start stop : ℕ} (h : stop ≤ start) :
    view.ids T start stop = [] := by
  have hz : stop - start = 0 := by omega
  rw [ids, hz]
  rfl

theorem ChainView.ids_of_lt {view : ChainView} {start stop : ℕ} (h : start < stop) :
    view.ids T start stop = (start, view.hashAt T start) :: view.ids T (start + 1) stop := by
  have hs : stop - start = (stop - (start + 1)) + 1 := by omega
  rw [ids, hs, List.range'_succ, List.map_cons]
  rfl

/-- A stream that does not fail yields all the view's blocks up to `stop`. -/
theorem Streams.ids_eq {view : ChainView} {stop next : ℕ} {blocks : List Block}
    (h : Streams T view stop next blocks none) :
    blocks.map (fun b => (b.claimedHeight, b.header.hash)) = view.ids T next stop := by
  induction blocks generalizing next with
  | nil =>
    have hle : stop ≤ next := h
    rw [ChainView.ids_of_le hle]
    rfl
  | cons b rest ih =>
    obtain ⟨hlt, hheight, hhash, hrest⟩ := h
    rw [ChainView.ids_of_lt hlt, List.map_cons, ih hrest, hheight, hhash]

/-! ## Forks of one chain -/

/-- The block of fork `fork` at `height`. -/
def forkBlock (fork height : ℕ) : BlockHash := BitVec.ofNat 256 (fork * 2 ^ 32 + height)

/-- Chains numbered by `fork`; each of them leaves fork `0` above height
    `split`. -/
def forkTree (split : ℕ) : BlockTree BlockHash where
  height b := b.toNat % 2 ^ 32
  parent b :=
    if b.toNat % 2 ^ 32 = split + 1 then BitVec.ofNat 256 split else BitVec.ofNat 256 (b.toNat - 1)
  height_parent b hb := by
    have hlt := b.isLt
    by_cases hs : b.toNat % 2 ^ 32 = split + 1
    · rw [if_pos hs, BitVec.toNat_ofNat]
      omega
    · rw [if_neg hs, BitVec.toNat_ofNat]
      omega

end Zallet.Chain
