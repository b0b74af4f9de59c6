import Zallet.Zebra.View

/-!
# Block reads of the `zebra` view

The reads of `ZebraChainView` that serve blocks (`backends/zebra/src/chain.rs`,
lines 288–320 and 402–437), between any moves of the backend and of the other
clones of the view that keep its invariant.

* `findForkPoint_pinned_iff`: `find_fork_point` asks for the best chain at the
  moment of the call, so its answer is the view's only where the two chains
  agree on the locator.
* `blockReads_complete_iff`: a read of a block ends early, and without an
  error, exactly when a block of the view has become unreadable.
-/

namespace Zallet.Zebra

open Zallet.Effect Zallet.Common Zallet.Chain

/-- `Block::read` and `BlockHeader::read`, of the `zcash_primitives` crate. -/
structure Codec where
  block : List UInt8 → Except String Block
  header : List UInt8 → Except String BlockHeader

namespace ZebraChainView

variable {α : Type} (self : ZebraChainView)

/-- `find_fork_point` (lines 315–320). -/
def findForkPoint (_self : ZebraChainView) (locator : BlockLocator) : ViewM (Option ChainBlock) :=
  read (.findForkPoint locator)

/-- The body `get_block_header` and `get_block` share: the pinned block's bytes,
    decoded. -/
def readPinned (decode : List UInt8 → Except String α) (height : ℕ) : ViewM (Option α) := do
  match ← self.resolve height with
  | none => pure none
  | some hash => do
    match ← read (.rawBlockByHash hash) with
    | none => pure none
    | some bytes => ofOutcome ((decode bytes).mapError .InvalidData |>.map some)

/-- `get_block_header` (lines 402–416). -/
def getBlockHeader (codec : Codec) (height : ℕ) : ViewM (Option BlockHeader) :=
  self.readPinned codec.header height

/-- `get_block` (lines 418–426). -/
def getBlock (codec : Codec) (height : ℕ) : ViewM (Option Block) :=
  self.readPinned codec.block height

/-- The stream's unfolding from `height` on (lines 294–306), with `n` heights
    left up to its end. -/
def unfoldBlocks (codec : Codec) : ℕ → ℕ → Prog viewSig BlockStream
  | 0, _ => pure ⟨[], none⟩
  | n + 1, height => (self.getBlock codec height).run >>= fun
    | .error e => pure ⟨[], some e⟩
    | .ok none => pure ⟨[], none⟩
    | .ok (some block) => do
      let rest ← unfoldBlocks codec n (height + 1)
      pure ⟨block :: rest.blocks, rest.failure⟩

/-- `stream_blocks_inner` (lines 288–307); `stop` is included. -/
def streamBlocksInner (codec : Codec) (start stop : ℕ) : Prog viewSig BlockStream :=
  self.unfoldBlocks codec (stop + 1 - start) start

/-- `stream_blocks_to_tip` (lines 428–430). -/
def streamBlocksToTip (codec : Codec) (start : ℕ) : Prog viewSig BlockStream :=
  self.streamBlocksInner codec start self.tip.height

/-- `stream_blocks` (lines 432–437). -/
def streamBlocks (codec : Codec) (range : HeightRange) : Prog viewSig BlockStream :=
  self.streamBlocksInner codec range.start (range.stop - 1)

end ZebraChainView

/-! ## The fork point -/

section forkPoint

variable {T : BlockTree BlockHash}

/-- No locator entry is on the chain of `best`, or the first entry on the chain
    of `best` or of `tip` is on both. -/
def ForkShared (T : BlockTree BlockHash) (tip best : BlockHash) (locator : BlockLocator) : Prop :=
  (∀ hash ∈ locator.hashes, ¬ T.OnChain best hash) ∨
    ∃ hash, locator.hashes.find? (fun h => decide (T.OnChain best h ∨ T.OnChain tip h)) = some hash ∧
      T.OnChain best hash ∧ T.OnChain tip hash

/-- When the first element that satisfies `p` is the first that satisfies `q`. -/
theorem find?_eq_iff {α : Type} {p q : α → Prop} [DecidablePred p] [DecidablePred q]
    {l : List α} {a : α} (ha : l.find? (fun x => decide (p x)) = some a) :
    l.find? (fun x => decide (q x)) = some a ↔
      ∃ b, l.find? (fun x => decide (p x ∨ q x)) = some b ∧ p b ∧ q b := by
  have hpa : p a := by simpa using List.find?_some ha
  induction l with
  | nil => simp at ha
  | cons x l ih =>
    by_cases hp : p x
    · obtain rfl : x = a := by simpa [List.find?_cons, hp] using ha
      have hor : (x :: l).find? (fun x => decide (p x ∨ q x)) = some x := by
        simp [hp]
      rw [hor]
      constructor
      · intro hq
        exact ⟨x, rfl, hp, by simpa using List.find?_some hq⟩
      · rintro ⟨b, hb, -, hq⟩
        cases hb
        simp [hq]
    · rw [List.find?_cons_of_neg (by simpa using hp)] at ha
      by_cases hq : q x
      · have hne : x ≠ a := fun h => hp (h ▸ hpa)
        simp [hp, hq, hne]
      · rw [List.find?_cons_of_neg (by simpa using hq),
          List.find?_cons_of_neg (by simp [hp, hq])]
        exact ih ha

/-- Whenever `find_fork_point` answers with a block, it is the first locator
    entry on the chain of the captured tip: this holds exactly when the best
    chain at the call shares the fork with the view. -/
theorem findForkPoint_pinned_iff {view : ZebraChainView} {best : ChainBlock}
    {locator : BlockLocator} {w : ViewWorld}
    (hbest : w.reader (.findForkPoint locator) = .ok ((ChainView.mk best).forkPoint T locator)) :
    (∀ τ block w', Run viewContract (view.findForkPoint locator).run w τ (.ok (some block)) w' →
        (ChainView.mk view.tip).forkPoint T locator = some block) ↔
      ForkShared T view.tip.hash best.hash locator := by
  have hread : ∀ τ r w', Run viewContract (view.findForkPoint locator).run w τ r w' ↔
      τ = [⟨.read (.findForkPoint locator), r⟩] ∧
        r = .ok ((ChainView.mk best).forkPoint T locator) ∧ w' = w := by
    intro τ r w'
    rw [← hbest]
    exact run_read
  unfold ForkShared
  cases hfind : locator.hashes.find? fun hash => decide (T.OnChain best.hash hash) with
  | none =>
    have hnone : (ChainView.mk best).forkPoint T locator = none := by
      unfold ChainView.forkPoint
      rw [hfind]
      rfl
    constructor
    · intro _
      exact Or.inl (ChainView.forkPoint_none hnone)
    · intro _ τ block w' h
      rw [hread, hnone] at h
      cases h.2.1
  | some hash =>
    have hsome : (ChainView.mk best).forkPoint T locator = some ⟨T.height hash, hash⟩ := by
      unfold ChainView.forkPoint
      rw [hfind]
      rfl
    have hon : ∃ hash ∈ locator.hashes, T.OnChain best.hash hash :=
      ⟨hash, List.mem_of_find?_eq_some hfind, by simpa using List.find?_some hfind⟩
    have hview : (ChainView.mk view.tip).forkPoint T locator = some ⟨T.height hash, hash⟩ ↔
        locator.hashes.find? (fun h => decide (T.OnChain view.tip.hash h)) = some hash := by
      unfold ChainView.forkPoint
      rw [Option.map_eq_some_iff]
      constructor
      · rintro ⟨h, hh, heq⟩
        obtain rfl : h = hash := congrArg ChainBlock.hash heq
        exact hh
      · exact fun h => ⟨hash, h, rfl⟩
    rw [← find?_eq_iff hfind, ← hview]
    constructor
    · intro h
      exact Or.inr (h _ _ w ((hread _ _ _).mpr ⟨rfl, by rw [hsome], rfl⟩))
    · rintro (h | h) τ block w' hrun
      · obtain ⟨x, hx, hxon⟩ := hon
        exact absurd hxon (h x hx)
      · rw [hread, hsome] at hrun
        cases hrun.2.1
        exact h

/-- The locator of a wallet with blocks 4 and 2. -/
def fourAndTwo : BlockLocator := ⟨[forkBlock 1 4, forkBlock 0 2]⟩

/-- The best chain has grown to height 7 since the snapshot. -/
def grownToSeven : ViewWorld :=
  ⟨headersOf (forkTree 2) ⟨7, forkBlock 1 7⟩, (ZebraChainView.ofTip tipFive).2⟩

theorem findForkPoint_pinned_grown :
    ForkShared (forkTree 2) tipFive.hash (forkBlock 1 7) fourAndTwo ∧
      ∀ τ block w', Run viewContract
        ((ZebraChainView.ofTip tipFive).1.findForkPoint fourAndTwo).run grownToSeven τ
          (.ok (some block)) w' →
        (ChainView.mk tipFive).forkPoint (forkTree 2) fourAndTwo = some block := by
  have hshared : ForkShared (forkTree 2) tipFive.hash (forkBlock 1 7) fourAndTwo :=
    Or.inr ⟨forkBlock 1 4, by decide +kernel, by decide +kernel, by decide +kernel⟩
  have hbest : grownToSeven.reader (.findForkPoint fourAndTwo) =
      .ok ((ChainView.mk ⟨7, forkBlock 1 7⟩).forkPoint (forkTree 2) fourAndTwo) := rfl
  refine ⟨hshared, ?_⟩
  have hiff := @findForkPoint_pinned_iff _ (ZebraChainView.ofTip tipFive).1 _ _ _ hbest
  exact hiff.mpr hshared

/-- A view is captured on fork 1 at height 5 and the best chain moves to fork 0:
    `find_fork_point` answers with block 5 of fork 0. -/
theorem findForkPoint_follows_best_chain :
    ∃ w w' τ block, backendMoves (forkTree 2) (ZebraChainView.ofTip tipFive).1
        ⟨headersOf (forkTree 2) tipFive, (ZebraChainView.ofTip tipFive).2⟩ w ∧
      Run viewContract ((ZebraChainView.ofTip tipFive).1.findForkPoint ⟨[forkBlock 0 5]⟩).run w τ
        (.ok (some block)) w' ∧
      ¬ (forkTree 2).OnChain tipFive.hash block.hash := by
  have hmove : backendMoves (forkTree 2) (ZebraChainView.ofTip tipFive).1
      ⟨headersOf (forkTree 2) tipFive, (ZebraChainView.ofTip tipFive).2⟩
      ⟨headersOf (forkTree 2) ⟨5, forkBlock 0 5⟩, (ZebraChainView.ofTip tipFive).2⟩ := by
    refine ⟨headersOf_pinned fun height hle => ?_, rfl⟩
    obtain rfl : height = 0 := by
      have hfloor : tipFive.height - maxReorgDepth = 0 := by decide
      omega
    exact ⟨by decide, by decide +kernel⟩
  refine ⟨_, _, _, ⟨5, forkBlock 0 5⟩, hmove, run_read.mpr ⟨rfl, ?_, rfl⟩, by decide +kernel⟩
  decide +kernel

end forkPoint

/-! ## Blocks -/

/-- The bytes served for a hash decode, if at all, to the block with that
    hash. -/
def Decodes (T : BlockTree BlockHash) (codec : Codec) (R : Reader) : Prop :=
  ∀ hash bytes b, R (.rawBlockByHash hash) = .ok (some bytes) → codec.block bytes = .ok b →
    b.claimedHeight = T.height hash ∧ b.header.hash = hash

/-- The moves of the backend and of the other clones of the view. -/
def blockMoves (T : BlockTree BlockHash) (codec : Codec) (view : ZebraChainView)
    (w w' : ViewWorld) : Prop :=
  PinnedRely T view w w' ∧ Decodes T codec w'.reader

/-- Each block that was asked for could be read. -/
def Readable (τ : List (Event viewSig)) : Prop :=
  ∀ hash, (⟨.read (.rawBlockByHash hash), .ok none⟩ : Event viewSig) ∉ τ

/-- The operations of `resolve`. -/
def ViewOp.Resolves : ViewOp → Prop
  | cacheGet _ => True
  | cacheFirstFrom _ => True
  | cacheInsert _ _ => True
  | read (.bestChainBlockHash _) => True
  | read (.blockHeaderByHash _) => True
  | panic _ => True
  | _ => False

/-- The bound of a program that performs only the operations of `resolve`. -/
def resolving : Bounds viewSig ChainError := ⟨ViewOp.Resolves, fun _ _ => True, fun _ => True⟩

section blocks

variable {α : Type} {T : BlockTree BlockHash} {codec : Codec} {view : ZebraChainView}
  {w w' : ViewWorld} {τ τ₁ τ₂ : List (Event viewSig)}

theorem readable_append : Readable (τ₁ ++ τ₂) ↔ Readable τ₁ ∧ Readable τ₂ := by
  unfold Readable
  simp only [List.mem_append, not_or]
  exact forall_and

theorem readable_of_resolving (h : ∀ ev ∈ τ, ev.op.Resolves) : Readable τ :=
  fun _ hmem => h _ hmem

theorem within_read {q : Query} (hq : ViewOp.Resolves (.read q)) : Within resolving (read q) :=
  wpE_read.mpr fun _ _ => ⟨hq, fun _ _ _ _ _ => trivial⟩

theorem within_perform {o : ViewOp} (ho : o.Resolves) : Within resolving (perform o) :=
  wpE_perform.mpr fun _ _ => ⟨ho, fun _ _ _ _ _ => trivial⟩

theorem within_walkDown (height n : ℕ) (curHash : BlockHash) :
    Within resolving (ZebraChainView.walkDown height n curHash) := by
  induction n generalizing curHash with
  | zero => exact Within.pure _
  | succ n ih =>
    rw [ZebraChainView.walkDown]
    refine (within_read (q := .blockHeaderByHash curHash) trivial).bind fun info => ?_
    cases info with
    | none => exact Within.throw trivial
    | some header =>
      exact (within_perform (o := ViewOp.cacheInsert _ _) trivial).bind fun _ => ih _

theorem within_resolve (height : ℕ) : Within resolving (view.resolve height) := by
  unfold ZebraChainView.resolve
  split
  · exact Within.pure _
  · split
    · exact within_read trivial
    · refine (within_perform (o := ViewOp.cacheGet height) trivial).bind fun hash => ?_
      cases hash with
      | some hash => exact Within.pure _
      | none =>
        refine (within_perform (o := ViewOp.cacheFirstFrom height) trivial).bind fun first => ?_
        cases first with
        | some first => exact within_walkDown _ _ _
        | none => exact (within_perform (o := ViewOp.panic _) trivial).bind fun r => r.elim

/-- What a run of `readPinned` does: it fails, or the height is above the tip,
    or the block is unreadable, or it answers with the pinned block. -/
inductive ReadPinned (T : BlockTree BlockHash) (codec : Codec) (view : ZebraChainView)
    (decode : List UInt8 → Except String α) (height : ℕ) :
    List (Event viewSig) → Except ChainError (Option α) → Prop
  | failed {τ : List (Event viewSig)} {e : ChainError} :
      Readable τ → ReadPinned T codec view decode height τ (.error e)
  | above {τ : List (Event viewSig)} :
      Readable τ → view.tip.height < height → ReadPinned T codec view decode height τ (.ok none)
  | unreadable {τ : List (Event viewSig)} :
      ¬ Readable τ → height ≤ view.tip.height → ReadPinned T codec view decode height τ (.ok none)
  | decoded {τ : List (Event viewSig)} {R : Reader} {bytes : List UInt8} {a : α} :
      Readable τ → height ≤ view.tip.height → Decodes T codec R →
      R (.rawBlockByHash (T.ancestor view.tip.hash height)) = .ok (some bytes) →
      decode bytes = .ok a → ReadPinned T codec view decode height τ (.ok (some a))

/-- The hash that `resolve` finds, among the other users of the view. -/
theorem run_resolve {rely : ViewWorld → ViewWorld → Prop} (hview : Captured T view)
    (hw : PinnedWorld T view w) (hrely : ∀ w w', rely w w' → PinnedRely T view w w') {height : ℕ}
    {r : Except ChainError (Option BlockHash)}
    (hrun : Run (viewContract.under rely) (view.resolve height).run w τ r w') :
    PinnedWorld T view w' ∧ ResolvesTo T view height r ∧ ∀ ev ∈ τ, ev.op.Resolves := by
  have hwp := wp_anti (wpE_resolve hview height hw) (fun _ _ _ _ h => h) hrely
  have hpost := wp_run_under hwp hrun
  exact ⟨hpost.1, hpost.2, (run_within (within_resolve height) hrun fun _ _ => trivial).1⟩

theorem run_readPinned (hview : Captured T view) (hw : PinnedWorld T view w)
    {decode : List UInt8 → Except String α} {height : ℕ} {r : Except ChainError (Option α)}
    (hrun : Run (viewContract.under (blockMoves T codec view)) (view.readPinned decode height).run
      w τ r w') :
    PinnedWorld T view w' ∧ ReadPinned T codec view decode height τ r := by
  unfold ZebraChainView.readPinned at hrun
  rw [ExceptT.run_bind, run_bind] at hrun
  obtain ⟨τ₁, r₁, w₁, τ₂, h₁, h₂, rfl⟩ := hrun
  obtain ⟨hw₁, hres, hops⟩ := run_resolve hview hw (fun _ _ h => h.1) h₁
  have hread := readable_of_resolving hops
  match r₁, hres, h₂ with
  | .error e, _, h₂ =>
    obtain ⟨rfl, rfl, rfl⟩ := run_pure.mp h₂
    exact ⟨hw₁, .failed (readable_append.mpr ⟨hread, fun _ => List.not_mem_nil⟩)⟩
  | .ok none, hres, h₂ =>
    obtain ⟨rfl, rfl, rfl⟩ := run_pure.mp h₂
    exact ⟨hw₁, .above (readable_append.mpr ⟨hread, fun _ => List.not_mem_nil⟩) hres.above⟩
  | .ok (some hash), hres, h₂ =>
    obtain ⟨hle, rfl⟩ := hres.found
    change Run _ (read _ >>= _ : ViewM _).run _ _ _ _ at h₂
    rw [ExceptT.run_bind, run_bind] at h₂
    obtain ⟨τ₂, r₂, w₂, τ₃, hraw, h₃, rfl⟩ := h₂
    obtain ⟨rfl, w₃, hmove, hr, rfl⟩ := run_read.mp hraw
    have hw₂ := hmove.1 hw₁
    match r₂, hr, h₃ with
    | .error e, _, h₃ =>
      obtain ⟨rfl, rfl, rfl⟩ := run_pure.mp h₃
      refine ⟨hw₂, .failed (readable_append.mpr ⟨hread, ?_⟩)⟩
      simp [Readable]
    | .ok none, _, h₃ =>
      obtain ⟨rfl, rfl, rfl⟩ := run_pure.mp h₃
      refine ⟨hw₂, .unreadable (fun h => ?_) hle⟩
      exact (readable_append.mp h).2 _ (List.mem_singleton.mpr rfl)
    | .ok (some bytes), hr, h₃ =>
      obtain ⟨rfl, rfl, rfl⟩ := run_pure.mp h₃
      have hτ : Readable (τ₁ ++ ([⟨.read (.rawBlockByHash (T.ancestor view.tip.hash height)),
          .ok (some bytes)⟩] ++ [])) := by
        refine readable_append.mpr ⟨hread, ?_⟩
        simp [Readable]
      refine ⟨hw₂, ?_⟩
      cases hdec : decode bytes with
      | error e => exact .failed hτ
      | ok a => exact .decoded hτ hle hmove.2 hr.symm hdec

/-- The stream ended without an error only if it yielded the view's blocks from
    `start` up to `stop`. -/
def Complete (T : BlockTree BlockHash) (view : ZebraChainView) (start stop : ℕ)
    (stream : BlockStream) : Prop :=
  stream.failure = none →
    stream.blocks.map (fun b => (b.claimedHeight, b.header.hash)) =
      (ChainView.mk view.tip).ids T start stop

theorem run_unfoldBlocks (hview : Captured T view) {n height : ℕ} (hw : PinnedWorld T view w)
    {stream : BlockStream}
    (hrun : Run (viewContract.under (blockMoves T codec view)) (view.unfoldBlocks codec n height)
      w τ stream w') :
    Complete T view height (min (height + n) (view.tip.height + 1)) stream ↔ Readable τ := by
  induction n generalizing height w τ stream with
  | zero =>
    obtain ⟨rfl, rfl, rfl⟩ := run_pure.mp hrun
    refine iff_of_true (fun _ => ?_) (fun _ => List.not_mem_nil)
    rw [ChainView.ids_of_le (by omega)]
    rfl
  | succ n ih =>
    rw [ZebraChainView.unfoldBlocks, run_bind] at hrun
    obtain ⟨τ₁, r, w₁, τ₂, h₁, h₂, rfl⟩ := hrun
    obtain ⟨hw₁, hread⟩ := run_readPinned hview hw h₁
    cases hread with
    | failed hτ =>
      obtain ⟨rfl, rfl, rfl⟩ := run_pure.mp h₂
      rw [List.append_nil]
      exact iff_of_true (fun h => by cases h) hτ
    | above hτ habove =>
      obtain ⟨rfl, rfl, rfl⟩ := run_pure.mp h₂
      rw [List.append_nil]
      refine iff_of_true (fun _ => ?_) hτ
      rw [ChainView.ids_of_le (by omega)]
      rfl
    | unreadable hτ hle =>
      obtain ⟨rfl, rfl, rfl⟩ := run_pure.mp h₂
      rw [List.append_nil]
      refine iff_of_false (fun h => ?_) hτ
      have hids := h rfl
      rw [ChainView.ids_of_lt (by omega)] at hids
      cases hids
    | @decoded R bytes block hτ hle hdecodes hraw hdec =>
      obtain ⟨τ₃, rest, w₂, τ₄, h₃, h₄, rfl⟩ := (run_bind _ _).mp h₂
      obtain ⟨rfl, rfl, rfl⟩ := run_pure.mp h₄
      rw [List.append_nil, readable_append, ← ih hw₁ h₃]
      obtain ⟨hheight, hhash⟩ := hdecodes _ _ _ hraw hdec
      rw [BlockTree.height_ancestor (by rw [hview.height]; exact hle)] at hheight
      have hstop : min (height + 1 + n) (view.tip.height + 1) =
          min (height + (n + 1)) (view.tip.height + 1) := by omega
      have hlt : height < min (height + (n + 1)) (view.tip.height + 1) := by omega
      unfold Complete
      rw [hstop, ChainView.ids_of_lt hlt, List.map_cons, hheight, hhash]
      constructor
      · exact fun h => ⟨hτ, fun hnone => (List.cons.inj (h hnone)).2⟩
      · exact fun h hnone => congrArg _ (h.2 hnone)

theorem run_streamBlocksInner (hview : Captured T view) {start stop : ℕ}
    (hw : PinnedWorld T view w) {stream : BlockStream}
    (hrun : Run (viewContract.under (blockMoves T codec view))
      (view.streamBlocksInner codec start stop) w τ stream w') :
    Complete T view start (min stop view.tip.height + 1) stream ↔ Readable τ := by
  rw [← run_unfoldBlocks hview hw hrun]
  unfold Complete
  by_cases hle : start ≤ stop
  · have heq : min (start + (stop + 1 - start)) (view.tip.height + 1) =
        min stop view.tip.height + 1 := by omega
    rw [heq]
  · rw [ChainView.ids_of_le (by omega), ChainView.ids_of_le (by omega)]

/-- `none` is the answer above the tip only, if the block could be read. -/
theorem ReadPinned.none_iff {decode : List UInt8 → Except String α} {height : ℕ}
    {r : Except ChainError (Option α)} (h : ReadPinned T codec view decode height τ r) :
    (r = .ok none → view.tip.height < height) ↔ Readable τ := by
  cases h with
  | failed hτ => exact iff_of_true (fun h => by cases h) hτ
  | above hτ habove => exact iff_of_true (fun _ => habove) hτ
  | unreadable hτ hle => exact iff_of_false (fun h => absurd (h rfl) (not_lt.mpr hle)) hτ
  | decoded hτ => exact iff_of_true (fun h => by cases h) hτ

/-- The block reads of a view, between any moves of the backend and of its other
    clones: a stream that ends without an error has yielded all the view's
    blocks, and a read answers `none` only above the tip, exactly when each
    block that was asked for could be read. -/
theorem blockReads_complete_iff (hview : Captured T view) (hw : PinnedWorld T view w) :
    (∀ start τ stream w', Run (viewContract.under (blockMoves T codec view))
        (view.streamBlocksToTip codec start) w τ stream w' →
      (Complete T view start (view.tip.height + 1) stream ↔ Readable τ)) ∧
    (∀ range τ stream w', Run (viewContract.under (blockMoves T codec view))
        (view.streamBlocks codec range) w τ stream w' →
      (Complete T view range.start (min (range.stop - 1) view.tip.height + 1) stream ↔
        Readable τ)) ∧
    (∀ height τ r w', Run (viewContract.under (blockMoves T codec view))
        (view.getBlock codec height).run w τ r w' →
      ((r = .ok none → view.tip.height < height) ↔ Readable τ)) ∧
    ∀ height τ r w', Run (viewContract.under (blockMoves T codec view))
        (view.getBlockHeader codec height).run w τ r w' →
      ((r = .ok none → view.tip.height < height) ↔ Readable τ) := by
  refine ⟨fun start τ stream w' hrun => ?_, fun range τ stream w' hrun => ?_,
    fun height τ r w' hrun => ?_, fun height τ r w' hrun => ?_⟩
  · have h := run_streamBlocksInner hview hw hrun
    rwa [min_self] at h
  · exact run_streamBlocksInner hview hw hrun
  · exact (run_readPinned hview hw hrun).2.none_iff
  · exact (run_readPinned hview hw hrun).2.none_iff

/-- Bytes that give the fork and the height of a block. -/
def forkCodec : Codec where
  block
    | [fork, height] => .ok ⟨height.toNat, ⟨forkBlock fork.toNat height.toNat⟩, []⟩
    | _ => .error "not a block"
  header
    | fork :: height :: _ => .ok ⟨forkBlock fork.toNat height.toNat⟩
    | _ => .error "not a header"

/-- The backend of `headersOf`, which can read the blocks of fork 1 at the given
    heights. -/
def storing (heights : List UInt8) : Reader
  | .rawBlockByHash hash => .ok
    ((heights.find? fun height => hash == forkBlock 1 height.toNat).map fun height => [1, height])
  | q => headersOf (forkTree 2) tipFive q

theorem storing_pinned (heights : List UInt8) :
    PinnedWorld (forkTree 2) (ZebraChainView.ofTip tipFive).1
      ⟨storing heights, (ZebraChainView.ofTip tipFive).2⟩ := by
  have hheaders : Pinned (forkTree 2) (ZebraChainView.ofTip tipFive).1
      (headersOf (forkTree 2) tipFive) :=
    headersOf_pinned fun height hle => ⟨hle.trans (Nat.sub_le _ _), rfl⟩
  exact pinnedWorld_ofTip (by decide +kernel) ⟨hheaders.headers, hheaders.final⟩

theorem storing_decodes (heights : List UInt8) :
    Decodes (forkTree 2) forkCodec (storing heights) := by
  intro hash bytes b hraw hdec
  obtain ⟨height, hfind, rfl⟩ := Option.map_eq_some_iff.mp (Except.ok.inj hraw)
  obtain rfl : hash = forkBlock 1 height.toNat := by simpa using List.find?_some hfind
  cases hdec
  have hlt : height.toNat < 2 ^ 8 := height.toNat_lt
  refine ⟨?_, rfl⟩
  show height.toNat = (forkBlock 1 height.toNat).toNat % 2 ^ 32
  unfold forkBlock
  rw [BitVec.toNat_ofNat]
  omega

/-- The reads of one clone while nothing else moves. -/
theorem storing_keeps (heights : List UInt8) :
    (answer (storing heights)).Keeps
      (viewContract.under (blockMoves (forkTree 2) forkCodec (ZebraChainView.ofTip tipFive).1))
      (ViewWorld.mk (storing heights)) :=
  answer_keeps_under fun _ => ⟨id, storing_decodes heights⟩

/-- Blocks 4 and 5 can be read, and the stream from 4 on yields both. -/
theorem blockReads_complete_stored :
    ∃ τ stream w', Run
        (viewContract.under (blockMoves (forkTree 2) forkCodec (ZebraChainView.ofTip tipFive).1))
        ((ZebraChainView.ofTip tipFive).1.streamBlocksToTip forkCodec 4)
        ⟨storing [4, 5], (ZebraChainView.ofTip tipFive).2⟩ τ stream w' ∧
      stream.failure = none ∧ Readable τ := by
  have hresult : (exec (answer (storing [4, 5])) 20
      ((ZebraChainView.ofTip tipFive).1.streamBlocksToTip forkCodec 4)
      (ZebraChainView.ofTip tipFive).2).2.1.result =
        some ⟨[⟨4, ⟨forkBlock 1 4⟩, []⟩, ⟨5, ⟨forkBlock 1 5⟩, []⟩], none⟩ := by
    decide +kernel
  have hrun := exec_run (storing_keeps [4, 5]) hresult
  have hiff := (blockReads_complete_iff (captured_ofTip (by decide +kernel))
    (storing_pinned [4, 5])).1 4 _ _ _ hrun
  refine ⟨_, _, _, hrun, rfl, hiff.mp fun _ => ?_⟩
  decide +kernel

/-- Block 5 of the view has become unreadable: the stream from 4 on ends after
    block 4 and reports no error. -/
theorem streamBlocksToTip_ends_early :
    ∃ τ stream w', Run
        (viewContract.under (blockMoves (forkTree 2) forkCodec (ZebraChainView.ofTip tipFive).1))
        ((ZebraChainView.ofTip tipFive).1.streamBlocksToTip forkCodec 4)
        ⟨storing [4], (ZebraChainView.ofTip tipFive).2⟩ τ stream w' ∧
      ¬ Complete (forkTree 2) (ZebraChainView.ofTip tipFive).1 4 6 stream := by
  have hresult : (exec (answer (storing [4])) 20
      ((ZebraChainView.ofTip tipFive).1.streamBlocksToTip forkCodec 4)
      (ZebraChainView.ofTip tipFive).2).2.1.result =
        some ⟨[⟨4, ⟨forkBlock 1 4⟩, []⟩], none⟩ := by
    decide +kernel
  have hrun := exec_run (storing_keeps [4]) hresult
  refine ⟨_, _, _, hrun, fun h => ?_⟩
  have hlen := congrArg List.length (h rfl)
  revert hlen
  decide +kernel

end blocks

end Zallet.Zebra
