import Zallet.Zaino.View
import Zallet.Zebra.Reads

/-!
# Tree states are never made up

`tree_state_as_of` in both backends: a `ChainState` it returns is at the height
that was asked for, on the view's chain, and each of its frontiers is grounded
in what the backend served for that pool and that block; everything else is an
error (`treeStateAsOf_grounded`). The pools are read in the order Sapling,
Orchard, Ironwood, and the first tree that cannot be used decides the error.
-/

namespace Zallet.Zebra

open Zallet.Effect Zallet.Common Zallet.Chain

variable {W β : Type} {C : Contract viewSig W} {w w' : W} {τ : List (Event viewSig)}
  {self : ZebraChainView} {params : Parameters} {decode : TreeCodec} {height : ℕ}
  {hash : BlockHash} {pool : TreePool}

/-- The frontier `tree_state_as_of` makes of what was served for a pool. -/
def ZebraChainView.treeOf (self : ZebraChainView) (params : Parameters) (decode : TreeCodec)
    (height : ℕ) (pool : TreePool) : Option (List UInt8) → Except ChainError Frontier :=
  treeFrom (decode pool) .InvalidData (self.absentTreeIsEmpty params height pool)
    (self.missingTree height pool)

theorem absentTreeIsEmpty_legitimate (h : self.absentTreeIsEmpty params height pool = true) :
    emptyTreeIsLegitimate params pool height = true := by
  unfold ZebraChainView.absentTreeIsEmpty at h
  rw [Bool.and_eq_true] at h
  exact h.2

theorem run_pinnedTree {r : Except ChainError Frontier}
    (h : Run C (self.pinnedTree params decode height hash pool).run w τ r w') :
    ∃ answer, τ = [⟨.read (.treeBytes pool hash), answer⟩] ∧
      r = answer.bind (self.treeOf params decode height pool) := by
  unfold ZebraChainView.pinnedTree at h
  rw [ExceptT.run_bind, run_bind] at h
  obtain ⟨τ₁, answer, w₁, τ₂, h₁, h₂, rfl⟩ := h
  obtain ⟨rfl, -⟩ := run_read.mp h₁
  cases answer with
  | error e =>
    obtain ⟨rfl, rfl, rfl⟩ := run_pure.mp h₂
    exact ⟨.error e, rfl, rfl⟩
  | ok a =>
    obtain ⟨rfl, rfl, rfl⟩ := run_pure.mp h₂
    exact ⟨.ok a, rfl, rfl⟩

/-- An answer in the trace that cannot be used decides the outcome. -/
def Decided (self : ZebraChainView) (params : Parameters) (decode : TreeCodec) (height : ℕ)
    (τ : List (Event viewSig)) (r : Except ChainError β) : Prop :=
  ∀ pool hash answer e, (⟨.read (.treeBytes pool hash), .ok answer⟩ : Event viewSig) ∈ τ →
    self.treeOf params decode height pool answer = .error e → r = .error e

theorem decided_nil {r : Except ChainError β} : Decided self params decode height [] r :=
  fun _ _ _ _ hmem => absurd hmem List.not_mem_nil

theorem decided_bind {f : Frontier → ViewM β} {r : Except ChainError β}
    (hf : ∀ tree w₁ τ₂, Run C (f tree).run w₁ τ₂ r w' → Decided self params decode height τ₂ r)
    (h : Run C (self.pinnedTree params decode height hash pool >>= f).run w τ r w') :
    Decided self params decode height τ r := by
  rw [ExceptT.run_bind, run_bind] at h
  obtain ⟨τ₁, r₁, w₁, τ₂, h₁, h₂, rfl⟩ := h
  obtain ⟨answer, rfl, rfl⟩ := run_pinnedTree h₁
  intro pool' hash' a e hmem herror
  rw [List.singleton_append, List.mem_cons] at hmem
  rcases hmem with heq | hmem
  · cases heq
    have hbind : (Except.ok a : Except ChainError _).bind
        (self.treeOf params decode height pool) = .error e := herror
    rw [hbind] at h₂
    obtain ⟨-, rfl, -⟩ := run_pure.mp h₂
    rfl
  · cases hbind : answer.bind (self.treeOf params decode height pool) with
    | error e' =>
      rw [hbind] at h₂
      obtain ⟨rfl, -, -⟩ := run_pure.mp h₂
      exact absurd hmem List.not_mem_nil
    | ok tree =>
      rw [hbind] at h₂
      exact hf tree w₁ τ₂ h₂ pool' hash' a e hmem herror

/-- A tree that was found is grounded in an answer of the trace. -/
theorem grounded_pinnedTree {tree : Frontier}
    (h : Run C (self.pinnedTree params decode height hash pool).run w τ (.ok tree) w') :
    ∃ answer, (⟨.read (.treeBytes pool hash), .ok answer⟩ : Event viewSig) ∈ τ ∧
      Grounded params decode height pool answer tree := by
  obtain ⟨answer, rfl, hr⟩ := run_pinnedTree h
  cases answer with
  | error e => cases hr
  | ok a =>
    exact ⟨a, List.mem_singleton.mpr rfl,
      grounded_of_treeFrom absentTreeIsEmpty_legitimate hr.symm⟩

/-- `tree_state_as_of` of a pinned `zebra` view. -/
theorem run_treeStateAsOf {T : BlockTree BlockHash} {view : ZebraChainView}
    {rely : ViewWorld → ViewWorld → Prop} {w w' : ViewWorld}
    {r : Except ChainError (Option ChainState)}
    (hview : Captured T view) (hw : PinnedWorld T view w)
    (hrely : ∀ w w', rely w w' → PinnedRely T view w w')
    (h : Run (viewContract.under rely) (view.treeStateAsOf params decode height).run w τ r w') :
    (∀ cs, r = .ok (some cs) →
      cs.blockHeight = height ∧ height ≤ view.tip.height ∧
      cs.blockHash = T.ancestor view.tip.hash height ∧
      ∀ pool, ∃ answer,
        (⟨.read (.treeBytes pool cs.blockHash), .ok answer⟩ : Event viewSig) ∈ τ ∧
          Grounded params decode height pool answer (cs.tree pool)) ∧
    (r = .ok none → view.tip.height < height) ∧
    Decided view params decode height τ r := by
  unfold ZebraChainView.treeStateAsOf at h
  rw [ExceptT.run_bind, run_bind] at h
  obtain ⟨τ₁, r₁, w₁, τ₂, h₁, h₂, rfl⟩ := h
  obtain ⟨hw₁, hres, hops⟩ := run_resolve hview hw hrely h₁
  -- the reads of `resolve` are not reads of trees
  have hpast : ∀ r : Except ChainError (Option ChainState),
      Decided view params decode height τ₂ r → Decided view params decode height (τ₁ ++ τ₂) r := by
    intro r hdecided pool hash answer e hmem
    rcases List.mem_append.mp hmem with hmem | hmem
    · exact (hops _ hmem).elim
    · exact hdecided pool hash answer e hmem
  match r₁, hres, h₂ with
  | .error e, _, h₂ =>
    obtain ⟨rfl, rfl, rfl⟩ := run_pure.mp h₂
    exact ⟨fun cs hcs => (by cases hcs), fun h => (by cases h), hpast _ decided_nil⟩
  | .ok none, hres, h₂ =>
    obtain ⟨rfl, rfl, rfl⟩ := run_pure.mp h₂
    exact ⟨fun cs hcs => (by cases hcs), fun _ => hres.above, hpast _ decided_nil⟩
  | .ok (some hash), hres, h₂ =>
    obtain ⟨hle, hhash⟩ := hres.found
    refine ⟨fun cs hcs => ?_, fun hnone => ?_, hpast _ ?_⟩
    · subst hcs
      obtain ⟨τs, sapling, w₂, τ₃, hs, h₃, rfl⟩ := run_bind_ok h₂
      obtain ⟨τo, orchard, w₃, τ₄, ho, h₄, rfl⟩ := run_bind_ok h₃
      obtain ⟨τi, ironwood, w₄, τ₅, hi, h₅, rfl⟩ := run_bind_ok h₄
      obtain ⟨rfl, hcs, rfl⟩ := run_pure.mp h₅
      cases hcs
      refine ⟨rfl, hle, hhash, fun pool => ?_⟩
      cases pool with
      | Sapling =>
        obtain ⟨answer, hmem, hgrounded⟩ := grounded_pinnedTree hs
        exact ⟨answer, by simp [hmem], hgrounded⟩
      | Orchard =>
        obtain ⟨answer, hmem, hgrounded⟩ := grounded_pinnedTree ho
        exact ⟨answer, by simp [hmem], hgrounded⟩
      | Ironwood =>
        obtain ⟨answer, hmem, hgrounded⟩ := grounded_pinnedTree hi
        exact ⟨answer, by simp [hmem], hgrounded⟩
    · subst hnone
      obtain ⟨τs, sapling, w₂, τ₃, hs, h₃, rfl⟩ := run_bind_ok h₂
      obtain ⟨τo, orchard, w₃, τ₄, ho, h₄, rfl⟩ := run_bind_ok h₃
      obtain ⟨τi, ironwood, w₄, τ₅, hi, h₅, rfl⟩ := run_bind_ok h₄
      obtain ⟨-, hcs, -⟩ := run_pure.mp h₅
      cases hcs
    · refine decided_bind (fun sapling w₂ τ₃ h₃ => ?_) h₂
      refine decided_bind (fun orchard w₃ τ₄ h₄ => ?_) h₃
      refine decided_bind (fun ironwood w₄ τ₅ h₅ => ?_) h₄
      obtain ⟨rfl, -, -⟩ := run_pure.mp h₅
      exact decided_nil

end Zallet.Zebra

namespace Zallet.Zaino

open Zallet.Chain
open Zallet.Common.Loop (bind_eq_ok mapError_eq_ok)

/-- The order in which the pools are read. -/
def before : TreePool → List TreePool
  | .Sapling => []
  | .Orchard => [.Sapling]
  | .Ironwood => [.Sapling, .Orchard]

variable {index : Index} {params : Parameters} {decode : TreeCodec} {height : ℕ}

theorem servedTree_grounded {trees : TreePool → Option (List UInt8)} {pool : TreePool}
    {tree : Frontier} (h : Index.servedTree params decode height trees pool = .ok tree) :
    Grounded params decode height pool (trees pool) tree :=
  grounded_of_treeFrom id h

/-- A tree that is grounded in what was served is found. -/
theorem servedTree_eq {trees : TreePool → Option (List UInt8)} {pool : TreePool} {tree : Frontier}
    (h : Grounded params decode height pool (trees pool) tree) :
    Index.servedTree params decode height trees pool = .ok tree := by
  unfold Index.servedTree
  rcases h with ⟨bytes, hbytes, hdec⟩ | ⟨hnone, rfl, hinactive⟩
  · rw [hbytes, treeFrom, hdec]
    rfl
  · rw [hnone, treeFrom, if_pos (emptyTreeIsLegitimate_iff.mpr hinactive)]

theorem servedTree_missing {trees : TreePool → Option (List UInt8)} {pool : TreePool}
    (hnone : trees pool = none) (hactive : ActiveAt params height pool) :
    Index.servedTree params decode height trees pool = .error (Index.missingTree height pool) := by
  unfold Index.servedTree
  rw [hnone]
  exact treeFrom_none id hactive

/-- A tree state of a `zaino` view. -/
theorem treeStateAsOf_some {cs : ChainState}
    (h : index.treeStateAsOf params decode height = .ok (some cs)) :
    cs.blockHeight = height ∧ index.getBlockHash height = .ok (some cs.blockHash) ∧
      ∃ trees, index.getTreestate cs.blockHash = .ok trees ∧
        ∀ pool, Grounded params decode height pool (trees pool) (cs.tree pool) := by
  unfold Index.treeStateAsOf at h
  obtain ⟨hash, hhash, h⟩ := bind_eq_ok.mp h
  rw [mapError_eq_ok] at hhash
  cases hash with
  | none => cases h
  | some hash =>
    obtain ⟨trees, htrees, h⟩ := bind_eq_ok.mp h
    rw [mapError_eq_ok] at htrees
    obtain ⟨sapling, hs, h⟩ := bind_eq_ok.mp h
    obtain ⟨orchard, ho, h⟩ := bind_eq_ok.mp h
    obtain ⟨ironwood, hi, h⟩ := bind_eq_ok.mp h
    cases h
    refine ⟨rfl, hhash, trees, htrees, fun pool => ?_⟩
    cases pool with
    | Sapling => exact servedTree_grounded hs
    | Orchard => exact servedTree_grounded ho
    | Ironwood => exact servedTree_grounded hi

theorem treeStateAsOf_none (h : index.treeStateAsOf params decode height = .ok none) :
    index.getBlockHash height = .ok none := by
  unfold Index.treeStateAsOf at h
  obtain ⟨hash, hhash, h⟩ := bind_eq_ok.mp h
  rw [mapError_eq_ok] at hhash
  cases hash with
  | none => exact hhash
  | some hash =>
    obtain ⟨trees, htrees, h⟩ := bind_eq_ok.mp h
    obtain ⟨sapling, hs, h⟩ := bind_eq_ok.mp h
    obtain ⟨orchard, ho, h⟩ := bind_eq_ok.mp h
    obtain ⟨ironwood, hi, h⟩ := bind_eq_ok.mp h
    cases h

/-- A tree that is absent at or after activation, after trees that can be
    used. -/
theorem treeStateAsOf_missing {hash : BlockHash} {trees : TreePool → Option (List UInt8)}
    {pool : TreePool} (hhash : index.getBlockHash height = .ok (some hash))
    (htrees : index.getTreestate hash = .ok trees)
    (hbefore : ∀ earlier ∈ before pool,
      ∃ tree, Grounded params decode height earlier (trees earlier) tree)
    (hnone : trees pool = none) (hactive : ActiveAt params height pool) :
    index.treeStateAsOf params decode height = .error (Index.missingTree height pool) := by
  have hmissing : Index.servedTree params decode height trees pool =
      .error (Index.missingTree height pool) := servedTree_missing hnone hactive
  have hfound : ∀ earlier ∈ before pool,
      ∃ tree, Index.servedTree params decode height trees earlier = .ok tree := fun earlier h =>
    (hbefore earlier h).imp fun tree => servedTree_eq
  unfold Index.treeStateAsOf
  rw [hhash]
  show (index.getTreestate hash).mapError ChainError.Backend >>= _ = _
  rw [htrees]
  cases pool with
  | Sapling =>
    show Index.servedTree params decode height trees .Sapling >>= _ = _
    rw [hmissing]
    rfl
  | Orchard =>
    obtain ⟨sapling, hs⟩ := hfound .Sapling (by simp [before])
    show Index.servedTree params decode height trees .Sapling >>= _ = _
    rw [hs]
    show Index.servedTree params decode height trees .Orchard >>= _ = _
    rw [hmissing]
    rfl
  | Ironwood =>
    obtain ⟨sapling, hs⟩ := hfound .Sapling (by simp [before])
    obtain ⟨orchard, ho⟩ := hfound .Orchard (by simp [before])
    show Index.servedTree params decode height trees .Sapling >>= _ = _
    rw [hs]
    show Index.servedTree params decode height trees .Orchard >>= _ = _
    rw [ho]
    show Index.servedTree params decode height trees .Ironwood >>= _ = _
    rw [hmissing]
    rfl

end Zallet.Zaino

namespace Zallet.Backends

open Zallet.Effect Zallet.Common Zallet.Chain Zallet.Zebra Zallet.Zaino

/-- In both backends, for every height, activation schedule and answers: a tree
    state is at the height, on the view's chain, and grounded in the answers for
    its block; none is answered only where the view has no block; and a tree
    absent at or after activation, if no tree before it was unusable, makes the
    view unavailable. A `zebra` view reads a tree only after it could use the
    ones before. -/
theorem treeStateAsOf_grounded (params : Parameters) (decode : TreeCodec) (height : ℕ) :
    (∀ (T : BlockTree BlockHash) (view : ZebraChainView) (w w' : ViewWorld)
        (τ : List (Event viewSig)) (r : Except ChainError (Option ChainState)),
      Captured T view → PinnedWorld T view w →
      Run (viewContract.under (PinnedRely T view)) (view.treeStateAsOf params decode height).run
        w τ r w' →
      (∀ cs, r = .ok (some cs) →
        cs.blockHeight = height ∧ height ≤ view.tip.height ∧
        cs.blockHash = T.ancestor view.tip.hash height ∧
        ∀ pool, ∃ answer,
          (⟨.read (.treeBytes pool cs.blockHash), .ok answer⟩ : Event viewSig) ∈ τ ∧
            Grounded params decode height pool answer (cs.tree pool)) ∧
      (r = .ok none → view.tip.height < height) ∧
      ∀ pool hash, (⟨.read (.treeBytes pool hash), .ok none⟩ : Event viewSig) ∈ τ →
        ActiveAt params height pool → ∃ source, r = .error (.Unavailable source)) ∧
    ∀ index : Index,
      (∀ cs, index.treeStateAsOf params decode height = .ok (some cs) →
        cs.blockHeight = height ∧ index.getBlockHash height = .ok (some cs.blockHash) ∧
        ∃ trees, index.getTreestate cs.blockHash = .ok trees ∧
          ∀ pool, Grounded params decode height pool (trees pool) (cs.tree pool)) ∧
      (index.treeStateAsOf params decode height = .ok none →
        index.getBlockHash height = .ok none) ∧
      ∀ hash trees pool, index.getBlockHash height = .ok (some hash) →
        index.getTreestate hash = .ok trees →
        (∀ earlier ∈ before pool,
          ∃ tree, Grounded params decode height earlier (trees earlier) tree) →
        trees pool = none → ActiveAt params height pool →
        ∃ source, index.treeStateAsOf params decode height = .error (.Unavailable source) := by
  refine ⟨fun T view w w' τ r hview hw hrun => ?_, fun index => ⟨fun cs => treeStateAsOf_some,
    treeStateAsOf_none, fun hash trees pool hhash htrees hbefore hnone hactive => ?_⟩⟩
  · obtain ⟨hsome, hnone, hdecided⟩ := run_treeStateAsOf hview hw (fun _ _ h => h) hrun
    refine ⟨hsome, hnone, fun pool hash hmem hactive => ?_⟩
    have hmissing := hdecided pool hash none _ hmem
      (treeFrom_none absentTreeIsEmpty_legitimate hactive)
    rw [hmissing]
    unfold ZebraChainView.missingTree
    split <;> exact ⟨_, rfl⟩
  · exact ⟨_, treeStateAsOf_missing hhash htrees hbefore hnone hactive⟩

/-- Sapling and NU5 are active from height 1 on. -/
def sinceOne : Parameters where
  activationHeight
    | .Sapling => some 1
    | .Nu5 => some 1
    | _ => none

/-- A codec that knows the empty tree only. -/
def emptyTreeOnly : TreeCodec
  | _, [] => .ok Frontier.empty
  | _, _ => .error "not a tree"

/-- The backend of `headersOf`, which serves the given Sapling bytes and no other
    tree. -/
def servingSapling (bytes : List UInt8) : Reader
  | .treeBytes .Sapling _ => .ok (some bytes)
  | q => headersOf (forkTree 2) tipFive q

/-- An index with one block at height 5, which serves the given Sapling bytes and
    no other tree. -/
def indexAtFive (bytes : List UInt8) : Index where
  bestChaintip := .ok tipFive
  getBlockHash height := .ok (if height = 5 then some tipFive.hash else none)
  getTreestate _ := .ok fun
    | .Sapling => some bytes
    | _ => none
  getRawTransaction _ := .ok none
  getTransactionStatus _ := .ok (none, [])
  getBlock _ := none

theorem servingSapling_pinned (bytes : List UInt8) :
    PinnedWorld (forkTree 2) (ZebraChainView.ofTip tipFive).1
      ⟨servingSapling bytes, (ZebraChainView.ofTip tipFive).2⟩ := by
  have hheaders : Pinned (forkTree 2) (ZebraChainView.ofTip tipFive).1
      (headersOf (forkTree 2) tipFive) :=
    headersOf_pinned fun height hle => ⟨hle.trans (Nat.sub_le _ _), rfl⟩
  exact pinnedWorld_ofTip (by decide +kernel) ⟨hheaders.headers, hheaders.final⟩

theorem servingSapling_keeps (bytes : List UInt8) :
    (answer (servingSapling bytes)).Keeps
      (viewContract.under (PinnedRely (forkTree 2) (ZebraChainView.ofTip tipFive).1))
      (ViewWorld.mk (servingSapling bytes)) :=
  answer_keeps_under fun _ => id

theorem orchard_activeAt_five : ActiveAt sinceOne 5 .Orchard := ⟨1, rfl, by decide⟩

/-- An empty Sapling tree is served, and no Orchard tree at height 5. -/
theorem treeStateAsOf_grounded_absent :
    (∃ τ r w', Run (viewContract.under (PinnedRely (forkTree 2) (ZebraChainView.ofTip tipFive).1))
        ((ZebraChainView.ofTip tipFive).1.treeStateAsOf sinceOne emptyTreeOnly 5).run
        ⟨servingSapling [], (ZebraChainView.ofTip tipFive).2⟩ τ r w' ∧
      ∃ source, r = .error (.Unavailable source)) ∧
    ∃ source, (indexAtFive []).treeStateAsOf sinceOne emptyTreeOnly 5 =
      .error (.Unavailable source) := by
  obtain ⟨hzebra, hzaino⟩ := treeStateAsOf_grounded sinceOne emptyTreeOnly 5
  constructor
  · have hresult : (exec (answer (servingSapling [])) 9
        ((ZebraChainView.ofTip tipFive).1.treeStateAsOf sinceOne emptyTreeOnly 5).run
        (ZebraChainView.ofTip tipFive).2).2.1.result =
          some (.error (.Unavailable "pinned Orchard treestate reorged away")) := by
      decide +kernel
    have hrun := exec_run (servingSapling_keeps []) hresult
    refine ⟨_, _, _, hrun, ?_⟩
    have hmem : (⟨.read (.treeBytes .Orchard tipFive.hash), .ok none⟩ : Event viewSig) ∈
        (exec (answer (servingSapling [])) 9
          ((ZebraChainView.ofTip tipFive).1.treeStateAsOf sinceOne emptyTreeOnly 5).run
          (ZebraChainView.ofTip tipFive).2).1 := List.mem_of_getElem? (i := 2) rfl
    exact (hzebra _ _ _ _ _ _ (captured_ofTip (by decide +kernel)) (servingSapling_pinned [])
      hrun).2.2 .Orchard tipFive.hash hmem orchard_activeAt_five
  · refine (hzaino (indexAtFive [])).2.2 tipFive.hash _ .Orchard rfl rfl ?_ rfl
      orchard_activeAt_five
    intro earlier hmem
    obtain rfl : earlier = .Sapling := by simpa [before] using hmem
    exact ⟨Frontier.empty, Or.inl ⟨[], rfl, rfl⟩⟩

/-- Undecodable Sapling bytes hide that the Orchard tree is absent, in both
    backends. -/
theorem treeStateAsOf_undecodable_first :
    (∃ τ w', Run (viewContract.under (PinnedRely (forkTree 2) (ZebraChainView.ofTip tipFive).1))
        ((ZebraChainView.ofTip tipFive).1.treeStateAsOf sinceOne emptyTreeOnly 5).run
        ⟨servingSapling [0], (ZebraChainView.ofTip tipFive).2⟩ τ
        (.error (.InvalidData "not a tree")) w' ∧
      servingSapling [0] (.treeBytes .Orchard tipFive.hash) = .ok none) ∧
    (indexAtFive [0]).treeStateAsOf sinceOne emptyTreeOnly 5 = .error (.Backend "not a tree") ∧
    ActiveAt sinceOne 5 .Orchard := by
  have hresult : (exec (answer (servingSapling [0])) 9
      ((ZebraChainView.ofTip tipFive).1.treeStateAsOf sinceOne emptyTreeOnly 5).run
      (ZebraChainView.ofTip tipFive).2).2.1.result =
        some (.error (.InvalidData "not a tree")) := by
    decide +kernel
  exact ⟨⟨_, _, exec_run (servingSapling_keeps [0]) hresult, rfl⟩, rfl,
    orchard_activeAt_five⟩

end Zallet.Backends
