import Zallet.Chain.Consensus
import Zallet.Chain.View
import Zallet.Common.SortedMap
import Zallet.Effect.Pool

/-!
# The pinned view of the `zebra` backend

`ZebraChainView` (`backends/zebra/src/chain.rs`) captures a tip and serves the
chain of that tip while the backend's best chain moves on. `resolve` finds the
hash at a height: from the best chain where that is final, and above from a
cache that it fills by walking down the headers from the tip. Clones of a view
share the cache, so every access to it is a point where calls interleave.

The backend is a `Reader`: its answer to each query at one moment. It changes
between two operations, within what `Pinned` promises.

* `PinnedWorld`: every cached entry is an ancestor of the tip, and the tip is
  cached.
* `resolve_pinned`: any number of calls in any interleaving.
-/

namespace Zallet.Zebra

open Zallet.Effect Zallet.Common Zallet.Chain

/-- `HeaderInfo` (reader.rs, lines 21–26). -/
structure HeaderInfo where
  height : ℕ
  previousBlockHash : BlockHash
  deriving DecidableEq

/-- `MinedTxInfo` (reader.rs, lines 29–33). -/
structure MinedTxInfo where
  raw : List UInt8
  height : ℕ
  blockTime : ℕ
  deriving DecidableEq

/-- `SideTxInfo` (reader.rs, lines 36–39). -/
structure SideTxInfo where
  raw : List UInt8
  blockHash : BlockHash
  deriving DecidableEq

/-- The reads of `ChainReader` (reader.rs, lines 42–110) and of the validator
    RPC that a view makes. `treeBytes` stands for `sapling_tree_bytes`,
    `orchard_tree_bytes` and `ironwood_tree_bytes`. -/
inductive Query
  | tip
  | bestChainBlockHash (height : ℕ)
  | rawBlockByHash (hash : BlockHash)
  | blockHeaderByHash (hash : BlockHash)
  | treeBytes (pool : TreePool) (hash : BlockHash)
  | findForkPoint (locator : BlockLocator)
  | transaction (txid : TxId)
  | sideChainTransaction (txid : TxId)
  | isUnspent (outpoint : OutPoint)
  | spendingTransaction (outpoint : OutPoint)
  | getRawMempool
  | getRawTransaction (txid : TxId)
  deriving DecidableEq

/-- The result type of a read that succeeds. -/
@[reducible] def Query.Out : Query → Type
  | tip => Option ChainBlock
  | bestChainBlockHash _ => Option BlockHash
  | rawBlockByHash _ => Option (List UInt8)
  | blockHeaderByHash _ => Option HeaderInfo
  | treeBytes _ _ => Option (List UInt8)
  | findForkPoint _ => Option ChainBlock
  | transaction _ => Option MinedTxInfo
  | sideChainTransaction _ => Option SideTxInfo
  | isUnspent _ => Bool
  | spendingTransaction _ => Option TxId
  | getRawMempool => List TxId
  | getRawTransaction _ => String

/-- The backend at one moment: its answer to each read. -/
abbrev Reader := (q : Query) → Except ChainError q.Out

/-- The operations of a view: accesses to the shared cache, and reads. -/
inductive ViewOp
  | cacheGet (height : ℕ)
  | cacheFirstFrom (height : ℕ)
  | cacheInsert (height : ℕ) (hash : BlockHash)
  | read (q : Query)
  | panic (message : String)
  deriving DecidableEq

@[reducible] def ViewOp.Ret : ViewOp → Type
  | cacheGet _ => Option BlockHash
  | cacheFirstFrom _ => Option (ℕ × BlockHash)
  | cacheInsert _ _ => Unit
  | read q => Except ChainError q.Out
  | panic _ => Empty

@[reducible] def viewSig : Sig := ⟨ViewOp, ViewOp.Ret⟩

/-- The backend, and the cache the clones of a view share. -/
structure ViewWorld where
  reader : Reader
  cache : SortedMap ℕ BlockHash

/-- What each operation does. -/
def viewContract : Contract viewSig ViewWorld
  | .cacheGet height, w, r, w' => r = w.cache.get height ∧ w' = w
  | .cacheFirstFrom height, w, r, w' => r = w.cache.firstFrom height ∧ w' = w
  | .cacheInsert height hash, w, _, w' => w' = { w with cache := w.cache.insert height hash }
  | .read q, w, r, w' => r = w.reader q ∧ w' = w
  | .panic _, _, _, _ => False

/-- Programs of a view. -/
abbrev ViewM := ExceptT ChainError (Prog viewSig)

/-- A read, with `?`. -/
def read (q : Query) : ViewM q.Out := liftE id (Prog.call (S := viewSig) (.read q))

/-- Any other operation. -/
def perform (o : ViewOp) : ViewM o.Ret := lift (Prog.call (S := viewSig) o)

/-- `MAX_REORG_DEPTH` (line 55). -/
def maxReorgDepth : ℕ := 1000

/-- `ZebraChainView` without its handles (lines 241–249). -/
structure ZebraChainView where
  tip : ChainBlock
  finalizedFloor : ℕ
  deriving DecidableEq

/-- The view and the cache that `snapshot` makes of a tip (lines 212–224). -/
def ZebraChainView.ofTip (tip : ChainBlock) : ZebraChainView × SortedMap ℕ BlockHash :=
  (⟨tip, tip.height - maxReorgDepth⟩, SortedMap.singleton tip.height tip.hash)

/-- `snapshot` (lines 206–225). -/
def snapshot : ViewM (ZebraChainView × SortedMap ℕ BlockHash) := do
  match ← read .tip with
  | some tip => pure (ZebraChainView.ofTip tip)
  | none => throw (.Unavailable "the chain state has no tip yet")

namespace ZebraChainView

/-- The loop that walks down the headers (lines 272–284), from height
    `height + n` to `height`. -/
def walkDown (height : ℕ) : ℕ → BlockHash → ViewM (Option BlockHash)
  | 0, curHash => pure (some curHash)
  | n + 1, curHash => do
    match ← read (.blockHeaderByHash curHash) with
    | none => throw (.Unavailable "pinned block reorged away during resolve")
    | some header => do
      perform (.cacheInsert (height + n) header.previousBlockHash)
      walkDown height n header.previousBlockHash

/-- `resolve` (lines 253–286). -/
def resolve (self : ZebraChainView) (height : ℕ) : ViewM (Option BlockHash) :=
  if self.tip.height < height then pure none
  else if height ≤ self.finalizedFloor then read (.bestChainBlockHash height)
  else do
    match ← perform (.cacheGet height) with
    | some hash => pure (some hash)
    | none => do
      match ← perform (.cacheFirstFrom height) with
      | some (curHeight, curHash) => walkDown height (curHeight - height) curHash
      | none =>
        perform (.panic "the tip is always cached at or above any non-finalized height") >>=
          Empty.elim

end ZebraChainView

/-! ## Rules -/

section rules

variable {W : Type} {C : Contract viewSig W} {rely : W → W → Prop} {ok : ViewOp → W → Prop} {w : W}

theorem wpE_read {q : Query} {Q : Except ChainError q.Out → W → Prop} :
    wpE C rely ok Q (read q) w ↔
      ∀ w₁, rely w w₁ → ok (.read q) w₁ ∧ ∀ r w₂, C (.read q) w₁ r w₂ → Q r w₂ := by
  have hid : ∀ r : Except ChainError q.Out, r.mapError id = r := fun r => by cases r <;> rfl
  have hQ : (fun (r : Except ChainError q.Out) w' => Q (r.mapError id) w') = Q := by
    funext r w'
    rw [hid]
  unfold read
  refine (wpE_liftE _ _ _).trans ?_
  rw [hQ]
  exact Iff.rfl

theorem wpE_perform {o : ViewOp} {Q : Except ChainError o.Ret → W → Prop} :
    wpE C rely ok Q (perform o) w ↔
      ∀ w₁, rely w w₁ → ok o w₁ ∧ ∀ r w₂, C o w₁ r w₂ → Q (.ok r) w₂ := by
  unfold perform
  rw [wpE_lift, wp_call]

theorem run_read {q : Query} {τ : List (Event viewSig)} {r : Except ChainError q.Out} {w' : W} :
    Run C (read q).run w τ r w' ↔ τ = [⟨.read q, r⟩] ∧ C (.read q) w r w' := by
  have hid : ∀ r : Except ChainError q.Out, r.mapError id = r := fun r => by cases r <;> rfl
  show Run C (.op (.read q) fun r => .pure (r.mapError id)) w τ r w' ↔ _
  rw [run_op]
  constructor
  · rintro ⟨r', w₁, τ', rfl, hC, hrun⟩
    obtain ⟨rfl, rfl, rfl⟩ := run_pure.mp hrun
    rw [hid]
    exact ⟨rfl, hC⟩
  · rintro ⟨rfl, hC⟩
    exact ⟨r, w', [], rfl, hC, run_pure.mpr ⟨rfl, (hid r).symm, rfl⟩⟩

end rules

/-! ## Pinning -/

/-- What the backend promises while it moves on: a header read by its hash
    never changes, and the best chain keeps the captured tip's blocks up to the
    finalized floor. Any read may fail, and a hash may become unreadable. -/
structure Pinned (T : BlockTree BlockHash) (view : ZebraChainView) (R : Reader) : Prop where
  headers : ∀ hash info, R (.blockHeaderByHash hash) = .ok (some info) →
    info.previousBlockHash = T.parent hash
  final : ∀ height hash, height ≤ view.finalizedFloor →
    R (.bestChainBlockHash height) = .ok hash → hash = some (T.ancestor view.tip.hash height)

/-- A view captured at a tip of the tree. -/
structure Captured (T : BlockTree BlockHash) (view : ZebraChainView) : Prop where
  height : T.height view.tip.hash = view.tip.height
  floor : view.finalizedFloor = view.tip.height - maxReorgDepth

/-- The entry is an ancestor of the tip at its height. -/
def IsAncestor (T : BlockTree BlockHash) (view : ZebraChainView) (e : ℕ × BlockHash) : Prop :=
  e.1 ≤ view.tip.height ∧ e.2 = T.ancestor view.tip.hash e.1

/-- The invariant of the shared cache. -/
structure PinnedWorld (T : BlockTree BlockHash) (view : ZebraChainView) (w : ViewWorld) : Prop where
  pinned : Pinned T view w.reader
  ancestors : ∀ e ∈ w.cache, IsAncestor T view e
  tipCached : (view.tip.height, view.tip.hash) ∈ w.cache

/-- The other calls and the backend keep the invariant. -/
def PinnedRely (T : BlockTree BlockHash) (view : ZebraChainView) (w w' : ViewWorld) : Prop :=
  PinnedWorld T view w → PinnedWorld T view w'

/-- Only ancestors of the tip are cached, and nothing panics. -/
def PinnedOk (T : BlockTree BlockHash) (view : ZebraChainView) :
    ViewOp → ViewWorld → Prop
  | .cacheInsert height hash, _ => IsAncestor T view (height, hash)
  | .panic _, _ => False
  | _, _ => True

/-- The answer of `resolve` at a height. -/
def ResolvesTo (T : BlockTree BlockHash) (view : ZebraChainView) (height : ℕ)
    (r : Except ChainError (Option BlockHash)) : Prop :=
  ∀ a, r = .ok a →
    a = if height ≤ view.tip.height then some (T.ancestor view.tip.hash height) else none

section pinning

variable {T : BlockTree BlockHash} {view : ZebraChainView}

theorem ResolvesTo.above {height : ℕ} (h : ResolvesTo T view height (.ok none)) :
    view.tip.height < height := by
  by_contra hle
  have hnone := h none rfl
  rw [if_pos (not_lt.mp hle)] at hnone
  cases hnone

theorem ResolvesTo.found {height : ℕ} {hash : BlockHash}
    (h : ResolvesTo T view height (.ok (some hash))) :
    height ≤ view.tip.height ∧ hash = T.ancestor view.tip.hash height := by
  have hsome := h (some hash) rfl
  split at hsome
  · rename_i hle
    exact ⟨hle, Option.some.inj hsome⟩
  · cases hsome

/-- Caching an ancestor of the tip keeps the invariant. -/
theorem PinnedWorld.insert {w : ViewWorld} (hview : Captured T view) (h : PinnedWorld T view w)
    {height : ℕ} {hash : BlockHash} (he : IsAncestor T view (height, hash)) :
    PinnedWorld T view { w with cache := w.cache.insert height hash } := by
  refine ⟨h.pinned, fun e hmem => ?_, ?_⟩
  · rcases SortedMap.mem_insert.mp hmem with rfl | ⟨-, hmem⟩
    · exact he
    · exact h.ancestors e hmem
  · rw [SortedMap.mem_insert]
    by_cases htip : view.tip.height = height
    · refine Or.inl ?_
      have hhash : hash = T.ancestor view.tip.hash height := he.2
      rw [hhash, ← htip, ← hview.height, BlockTree.ancestor_self]
    · exact Or.inr ⟨htip, h.tipCached⟩

theorem PinnedOk.guarantee (hview : Captured T view) {o : ViewOp} {w w' : ViewWorld} {r : o.Ret}
    (hok : PinnedOk T view o w) (h : viewContract o w r w') : PinnedRely T view w w' := by
  intro hw
  cases o with
  | cacheGet height => rw [h.2]; exact hw
  | cacheFirstFrom height => rw [h.2]; exact hw
  | cacheInsert height hash =>
    have hw' : w' = { w with cache := w.cache.insert height hash } := h
    rw [hw']
    exact hw.insert hview hok
  | read q => rw [h.2]; exact hw
  | panic message => exact h.elim

variable {w : ViewWorld}

/-- The walk down the headers caches ancestors of the tip only, and ends at the
    one asked for. -/
theorem wpE_walkDown (hview : Captured T view) (height n : ℕ) {curHash : BlockHash}
    (hw : PinnedWorld T view w) (hcur : IsAncestor T view (height + n, curHash)) :
    wpE viewContract (PinnedRely T view) (PinnedOk T view)
      (fun r w' => PinnedWorld T view w' ∧ ResolvesTo T view height r)
      (ZebraChainView.walkDown height n curHash) w := by
  induction n generalizing w curHash with
  | zero =>
    have hle : height ≤ view.tip.height := hcur.1
    refine ⟨hw, fun a ha => ?_⟩
    cases ha
    rw [if_pos hle]
    exact congrArg some hcur.2
  | succ n ih =>
    rw [ZebraChainView.walkDown, wpE_bind]
    refine wpE_read.mpr fun w₁ hrely => ⟨trivial, ?_⟩
    rintro r w₂ ⟨hr, rfl⟩
    have hw₁ := hrely hw
    match r, hr with
    | .error e, hr => exact ⟨hw₁, fun a ha => by cases ha⟩
    | .ok none, hr => exact ⟨hw₁, fun a ha => by cases ha⟩
    | .ok (some header), hr =>
      have hle : height + (n + 1) ≤ view.tip.height := hcur.1
      have hparent : IsAncestor T view (height + n, header.previousBlockHash) := by
        have hhash : curHash = T.ancestor view.tip.hash (height + n + 1) := hcur.2
        refine ⟨by show height + n ≤ _; omega, ?_⟩
        show header.previousBlockHash = T.ancestor view.tip.hash (height + n)
        rw [hw₁.pinned.headers curHash header hr.symm, hhash, BlockTree.parent_ancestor]
        rw [hview.height]
        omega
      show wpE _ _ _ _ (perform _ >>= _) w₂
      rw [wpE_bind]
      refine (wpE_perform (o := ViewOp.cacheInsert _ _)).mpr fun w₃ hrely₃ => ⟨hparent, ?_⟩
      rintro u w₄ rfl
      exact ih ((hrely₃ hw₁).insert hview hparent) hparent

/-- `resolve` answers with the captured tip's chain. -/
theorem wpE_resolve (hview : Captured T view) (height : ℕ) (hw : PinnedWorld T view w) :
    wpE viewContract (PinnedRely T view) (PinnedOk T view)
      (fun r w' => PinnedWorld T view w' ∧ ResolvesTo T view height r) (view.resolve height) w := by
  unfold ZebraChainView.resolve
  by_cases htip : view.tip.height < height
  · rw [if_pos htip]
    refine ⟨hw, fun a ha => ?_⟩
    cases ha
    rw [if_neg (by omega)]
  · rw [if_neg htip]
    by_cases hfloor : height ≤ view.finalizedFloor
    · rw [if_pos hfloor]
      refine wpE_read.mpr fun w₁ hrely => ⟨trivial, ?_⟩
      rintro r w₂ ⟨hr, rfl⟩
      refine ⟨hrely hw, fun a ha => ?_⟩
      rw [if_pos (by omega)]
      exact (hrely hw).pinned.final height a hfloor (by rw [← hr, ha])
    · rw [if_neg hfloor, wpE_bind]
      refine (wpE_perform (o := ViewOp.cacheGet height)).mpr fun w₁ hrely => ⟨trivial, ?_⟩
      rintro r w₂ ⟨hr, rfl⟩
      have hw₁ := hrely hw
      rw [andThen_ok]
      cases hget : r with
      | some hash =>
        refine ⟨hw₁, fun a ha => ?_⟩
        cases ha
        rw [if_pos (by omega)]
        rw [hget] at hr
        exact congrArg some (hw₁.ancestors _ (SortedMap.get_mem hr.symm)).2
      | none =>
        show wpE _ _ _ _ (perform _ >>= _) w₂
        rw [wpE_bind]
        refine (wpE_perform (o := ViewOp.cacheFirstFrom height)).mpr fun w₃ hrely₃ => ⟨trivial, ?_⟩
        rintro first w₄ ⟨hfirst, rfl⟩
        have hw₃ := hrely₃ hw₁
        -- the tip is cached, so the lookup finds something
        have hsome : (w₄.cache.firstFrom height).isSome :=
          SortedMap.firstFrom_isSome hw₃.tipCached (not_lt.mp htip)
        rw [← hfirst] at hsome
        obtain ⟨⟨curHeight, curHash⟩, heq⟩ := Option.isSome_iff_exists.mp hsome
        rw [heq] at hfirst ⊢
        obtain ⟨hmem, hle⟩ := SortedMap.firstFrom_mem hfirst.symm
        refine wpE_walkDown hview height (curHeight - height) hw₃ ?_
        have hsub : height + (curHeight - height) = curHeight := by
          have : height ≤ curHeight := hle
          omega
        rw [hsub]
        exact hw₃.ancestors _ hmem

end pinning

/-! ## Interleaved calls -/

/-- The backend moves on: any reader that keeps its promise takes the place of
    the one before it. -/
def backendMoves (T : BlockTree BlockHash) (view : ZebraChainView) (w w' : ViewWorld) : Prop :=
  Pinned T view w'.reader ∧ w'.cache = w.cache

theorem backendMoves.rely {T : BlockTree BlockHash} {view : ZebraChainView} {w w' : ViewWorld}
    (h : backendMoves T view w w') : PinnedRely T view w w' := by
  intro hw
  refine ⟨h.1, ?_, ?_⟩
  · rw [h.2]
    exact hw.ancestors
  · rw [h.2]
    exact hw.tipCached

theorem captured_ofTip {T : BlockTree BlockHash} {tip : ChainBlock}
    (htip : T.height tip.hash = tip.height) : Captured T (ZebraChainView.ofTip tip).1 :=
  ⟨htip, rfl⟩

theorem pinnedWorld_ofTip {T : BlockTree BlockHash} {tip : ChainBlock} {R : Reader}
    (htip : T.height tip.hash = tip.height) (hR : Pinned T (ZebraChainView.ofTip tip).1 R) :
    PinnedWorld T (ZebraChainView.ofTip tip).1 ⟨R, (ZebraChainView.ofTip tip).2⟩ := by
  refine ⟨hR, fun e he => ?_, SortedMap.mem_singleton.mpr rfl⟩
  rw [SortedMap.mem_singleton.mp he]
  refine ⟨le_rfl, ?_⟩
  show tip.hash = T.ancestor tip.hash tip.height
  rw [← htip, BlockTree.ancestor_self]

/-- Calls of `resolve` on clones of one view, interleaved with each other and
    with the backend in any way, answer with the captured tip's chain. A call above the
    tip has answered before it asks the backend. -/
theorem resolve_pinned {ι : Type} [DecidableEq ι] {T : BlockTree BlockHash} {tip : ChainBlock}
    {R : Reader} (heights : ι → ℕ) (htip : T.height tip.hash = tip.height)
    (hR : Pinned T (ZebraChainView.ofTip tip).1 R)
    {c : Pool viewSig ViewWorld ι (Except ChainError (Option BlockHash))}
    (h : Pool.Reach (fun _ => viewContract) (backendMoves T (ZebraChainView.ofTip tip).1)
      ⟨fun i => ((ZebraChainView.ofTip tip).1.resolve (heights i)).run,
        ⟨R, (ZebraChainView.ofTip tip).2⟩⟩ c) :
    (∀ e ∈ c.world.cache, e.1 ≤ tip.height ∧ e.2 = T.ancestor tip.hash e.1) ∧
      (∀ i message, (c.progs i).next ≠ some (.panic message)) ∧
      (∀ i, tip.height < heights i → (c.progs i).result = some (.ok none)) ∧
      (∀ i a, (c.progs i).result = some (.ok a) →
        (a = none ↔ tip.height < heights i) ∧
          ∀ hash, a = some hash → hash = T.ancestor tip.hash (heights i)) ∧
      ∀ i j a b, heights i = heights j → (c.progs i).result = some (.ok a) →
        (c.progs j).result = some (.ok b) → a = b := by
  have hview := captured_ofTip htip
  have hworld := pinnedWorld_ofTip htip hR
  have hwp := fun i => wpE_resolve hview (heights i) hworld
  obtain ⟨hw, hnext, hresult⟩ := Pool.invariant (I := PinnedWorld T (ZebraChainView.ofTip tip).1)
    (fun _ _ _ _ _ hok hC => PinnedOk.guarantee hview hok hC) (fun _ _ => backendMoves.rely)
    hwp hworld h
  have hanswer : ∀ i a, (c.progs i).result = some (.ok a) →
      a = if heights i ≤ tip.height then some (T.ancestor tip.hash (heights i)) else none := by
    intro i a ha
    obtain ⟨w, -, hres⟩ := hresult i _ ha
    exact hres a rfl
  refine ⟨hw.ancestors, ?_, ?_, ?_, ?_⟩
  · exact fun i message h => hnext i _ h
  · intro i habove
    -- such a call asks nothing of the backend
    have hstart : ((ZebraChainView.ofTip tip).1.resolve (heights i)).run = .pure (.ok none) := by
      unfold ZebraChainView.resolve
      rw [if_pos (show (ZebraChainView.ofTip tip).1.tip.height < heights i from habove)]
      rfl
    rw [h.returned hstart]
    rfl
  · intro i a ha
    rw [hanswer i a ha]
    by_cases hle : heights i ≤ tip.height
    · rw [if_pos hle]
      exact ⟨by simp [hle], fun hash hh => (Option.some.inj hh).symm⟩
    · rw [if_neg hle]
      exact ⟨by simp [not_le.mp hle], fun hash hh => by cases hh⟩
  · intro i j a b hij ha hb
    rw [hanswer i a ha, hanswer j b hb, hij]

/-! ## A backend that can be run -/

/-- The reader of a backend whose best chain ends in `best` and that stores
    nothing but headers. -/
def headersOf (T : BlockTree BlockHash) (best : ChainBlock) : Reader
  | .tip => .ok (some best)
  | .bestChainBlockHash height =>
    .ok (if height ≤ best.height then some (T.ancestor best.hash height) else none)
  | .rawBlockByHash _ => .ok none
  | .blockHeaderByHash hash => .ok (some ⟨T.height hash, T.parent hash⟩)
  | .treeBytes _ _ => .ok none
  | .findForkPoint locator => .ok ((ChainView.mk best).forkPoint T locator)
  | .transaction _ => .ok none
  | .sideChainTransaction _ => .ok none
  | .isUnspent _ => .ok true
  | .spendingTransaction _ => .ok none
  | .getRawMempool => .ok []
  | .getRawTransaction _ => .error (.Backend "no such transaction")

/-- Each operation, performed on a cache in front of the reader `R`. -/
def answer (R : Reader) : Handler viewSig (SortedMap ℕ BlockHash)
  | .cacheGet height, cache => some (cache.get height, cache)
  | .cacheFirstFrom height, cache => some (cache.firstFrom height, cache)
  | .cacheInsert height hash, cache => some ((), cache.insert height hash)
  | .read q, cache => some (R q, cache)
  | .panic _, _ => none

theorem answer_keeps (R : Reader) : (answer R).Keeps viewContract (ViewWorld.mk R) := by
  intro o cache r cache' h
  cases o with
  | cacheGet height => cases h; exact ⟨rfl, rfl⟩
  | cacheFirstFrom height => cases h; exact ⟨rfl, rfl⟩
  | cacheInsert height hash => cases h; rfl
  | read q => cases h; exact ⟨rfl, rfl⟩
  | panic message => cases h

theorem answer_keeps_under {R : Reader} {rely : ViewWorld → ViewWorld → Prop}
    (hrely : ∀ cache, rely ⟨R, cache⟩ ⟨R, cache⟩) :
    (answer R).Keeps (viewContract.under rely) (ViewWorld.mk R) :=
  fun o cache r cache' h => ⟨_, hrely cache, answer_keeps R o cache r cache' h⟩

/-- As long as the best chain agrees with the captured tip's up to the finalized
    floor, the backend keeps its promise. -/
theorem headersOf_pinned {T : BlockTree BlockHash} {tip best : ChainBlock}
    (h : ∀ height ≤ tip.height - maxReorgDepth,
      height ≤ best.height ∧ T.ancestor best.hash height = T.ancestor tip.hash height) :
    Pinned T (ZebraChainView.ofTip tip).1 (headersOf T best) := by
  refine ⟨?_, ?_⟩
  · rintro hash info ⟨⟩
    rfl
  · intro height hash hfloor hans
    cases hans
    rw [if_pos (h height hfloor).1, (h height hfloor).2]
    rfl

/-- The tip of fork 1 at height 5. -/
def tipFive : ChainBlock := ⟨5, forkBlock 1 5⟩

/-- Two clones of a view with tip 5 look for heights 3 and 4; the first has
    walked down to 3 before the second starts. -/
theorem resolve_pinned_two_clones :
    ∃ c : Pool viewSig ViewWorld Bool (Except ChainError (Option BlockHash)),
      Pool.Reach (fun _ => viewContract) (backendMoves (forkTree 2) (ZebraChainView.ofTip tipFive).1)
        ⟨fun i => ((ZebraChainView.ofTip tipFive).1.resolve (if i then 3 else 4)).run,
          ⟨headersOf (forkTree 2) tipFive, (ZebraChainView.ofTip tipFive).2⟩⟩ c ∧
      (c.progs true).result = some (.ok (some (forkBlock 1 3))) ∧
      ∀ e ∈ c.world.cache, e.1 ≤ 5 ∧ e.2 = (forkTree 2).ancestor (forkBlock 1 5) e.1 := by
  have hrun := exec_reaches (answer_keeps (headersOf (forkTree 2) tipFive)) 10
    ((ZebraChainView.ofTip tipFive).1.resolve 3).run (ZebraChainView.ofTip tipFive).2
  have hreach : Pool.Reach (fun _ => viewContract)
      (backendMoves (forkTree 2) (ZebraChainView.ofTip tipFive).1) _ _ :=
    Pool.reach_of_reaches (i := true) hrun
      (fun i => ((ZebraChainView.ofTip tipFive).1.resolve (if i then 3 else 4)).run) rfl
  refine ⟨_, hreach, ?_, ?_⟩
  · decide +kernel
  · have htip : (forkTree 2).height tipFive.hash = tipFive.height := by decide +kernel
    have hpin : Pinned (forkTree 2) (ZebraChainView.ofTip tipFive).1
        (headersOf (forkTree 2) tipFive) :=
      headersOf_pinned fun height hle => ⟨hle.trans (Nat.sub_le _ _), rfl⟩
    exact (resolve_pinned (fun i : Bool => if i then 3 else 4) htip hpin hreach).1

end Zallet.Zebra
