import Zallet.Sync.SteadyState

/-!
# The wallet follows one chain

`OneChain T d prevTip`: the wallet records `prevTip`, and every hash it records
at or below it is that of an ancestor. The steady-state task keeps this from
turn to turn as long as its rewinds reach the fork point
(`ReachesForkPoint`): otherwise it applies blocks on top of a block that is not
their ancestor.

* `wpE_iterationOn_oneChain`: the iteration on one view.
* `wpE_handleOutcome_oneChain`: what follows a stale view, a block conflict or
  a diverged tree.
-/

namespace Zallet.Sync

open Zallet.Effect Zallet.Common Zallet.Chain Zallet.Wallet

/-! ## The invariant -/

/-- Every hash recorded at or below `prevTip` is that of an ancestor of
    `prevTip`. -/
structure Below (T : BlockTree BlockHash) (d : WalletDb) (prevTip : ChainBlock) : Prop where
  height : T.height prevTip.hash = prevTip.height
  ancestors : ∀ h hash, h ≤ prevTip.height → d.blocks h = some hash →
    hash = T.ancestor prevTip.hash h

/-- `Below`, and `prevTip` itself is recorded. -/
structure OneChain (T : BlockTree BlockHash) (d : WalletDb) (prevTip : ChainBlock) : Prop
    extends Below T d prevTip where
  recorded : d.blocks prevTip.height = some prevTip.hash

/-- `block` is the view's block at its height. -/
def OnView (T : BlockTree BlockHash) (view : ChainView) (block : ChainBlock) : Prop :=
  block.height ≤ view.tip.height ∧ view.hashAt T block.height = block.hash

section pure

variable {T : BlockTree BlockHash} {d : WalletDb} {prevTip block : ChainBlock} {view : ChainView}

/-- A recorded block below `prevTip` is an ancestor, so the wallet truncated
    to it is on its chain. -/
theorem Below.truncate (h : Below T d prevTip) (hle : block.height ≤ prevTip.height)
    (hb : d.blocks block.height = some block.hash) :
    OneChain T (d.truncate block.height) block := by
  have hhash : block.hash = T.ancestor prevTip.hash block.height := h.ancestors _ _ hle hb
  have hle' : block.height ≤ T.height prevTip.hash := by
    rw [h.height]
    exact hle
  refine ⟨⟨?_, ?_⟩, ?_⟩
  · rw [hhash]
    exact BlockTree.height_ancestor hle'
  · intro k hash hk hr
    rw [WalletDb.truncate_blocks, if_pos hk] at hr
    rw [hhash, BlockTree.ancestor_ancestor hk hle']
    exact h.ancestors k hash (by omega) hr
  · rw [WalletDb.truncate_blocks, if_pos le_rfl]
    exact hb

/-- Truncating keeps `Below`. -/
theorem Below.truncated (h : Below T d prevTip) (height : ℕ) :
    Below T (d.truncate height) prevTip := by
  refine ⟨h.height, fun k hash hk hr => ?_⟩
  rw [WalletDb.truncate_blocks] at hr
  by_cases hle : k ≤ height
  · rw [if_pos hle] at hr
    exact h.ancestors k hash hk hr
  · rw [if_neg hle] at hr
    cases hr

/-- Only the blocks at or below `prevTip` matter. -/
theorem OneChain.congr {d' : WalletDb} (h : OneChain T d prevTip)
    (hd : ∀ k ≤ prevTip.height, d'.blocks k = d.blocks k) : OneChain T d' prevTip := by
  refine ⟨⟨h.height, fun k hash hk hr => ?_⟩, ?_⟩
  · rw [hd k hk] at hr
    exact h.ancestors k hash hk hr
  · rw [hd _ le_rfl]
    exact h.recorded

/-- The view's block on top of `prevTip`, recorded, is on one chain with what
    is below. -/
theorem OneChain.extend {d' : WalletDb} (hview : view.WF T) (h : OneChain T d prevTip)
    (hon : OnView T view prevTip) (hlt : prevTip.height < view.tip.height)
    (hd : ∀ k, d'.blocks k = if k = prevTip.height + 1 then
      some (view.hashAt T (prevTip.height + 1)) else d.blocks k) :
    OneChain T d' ⟨prevTip.height + 1, view.hashAt T (prevTip.height + 1)⟩ := by
  have hle : prevTip.height + 1 ≤ T.height view.tip.hash := by
    rw [hview]
    exact hlt
  refine ⟨⟨hview.height_hashAt hlt, fun k hash hk hr => ?_⟩, ?_⟩
  · show hash = T.ancestor (view.hashAt T (prevTip.height + 1)) k
    have hk' : k ≤ prevTip.height + 1 := hk
    unfold ChainView.hashAt
    rw [BlockTree.ancestor_ancestor hk' hle]
    rw [hd] at hr
    by_cases hkeq : k = prevTip.height + 1
    · rw [if_pos hkeq] at hr
      rw [← Option.some.inj hr, hkeq]
      rfl
    · rw [if_neg hkeq] at hr
      have hkle : k ≤ prevTip.height := by omega
      rw [h.ancestors k hash hkle hr, ← hon.2]
      exact BlockTree.ancestor_ancestor hkle (by omega)
  · show d'.blocks (prevTip.height + 1) = _
    rw [hd, if_pos rfl]

/-- A recorded ancestor of `prevTip` on the view's chain is on the view at
    its recorded height. -/
theorem Below.onView (h : Below T d prevTip) (hview : view.WF T) {k : ℕ} {hash : BlockHash}
    (hk : k ≤ prevTip.height) (hr : d.blocks k = some hash)
    (hon : T.OnChain view.tip.hash hash) : T.height hash = k ∧ OnView T view ⟨k, hash⟩ := by
  have hh : T.height hash = k := by
    rw [h.ancestors k hash hk hr]
    exact BlockTree.height_ancestor (by rw [h.height]; exact hk)
  refine ⟨hh, ?_, ?_⟩
  · show k ≤ view.tip.height
    have := hon.1
    rw [hh, hview] at this
    exact this
  · show T.ancestor view.tip.hash k = hash
    have := hon.2
    rwa [hh] at this

/-- If a block of the wallet below `prevTip` is on the view, so is every block
    of the wallet below that one. -/
theorem Below.onView_of_le (h : Below T d prevTip) (hview : view.WF T)
    (hon : OnView T view block) (hle : block.height ≤ prevTip.height)
    (hb : d.blocks block.height = some block.hash) {c : ChainBlock}
    (hc : c.height ≤ block.height) (hcr : d.blocks c.height = some c.hash) : OnView T view c := by
  have hblock := h.ancestors _ _ hle hb
  have hcanc := h.ancestors c.height c.hash (by omega) hcr
  have hb' : block.height ≤ T.height prevTip.hash := by
    rw [h.height]
    exact hle
  refine ⟨by have := hon.1; omega, ?_⟩
  have hagree : T.ancestor block.hash c.height = T.ancestor view.tip.hash c.height := by
    rw [← hon.2]
    refine BlockTree.ancestor_ancestor hc ?_
    rw [hview]
    exact hon.1
  show T.ancestor view.tip.hash c.height = c.hash
  rw [← hagree, hblock, BlockTree.ancestor_ancestor hc hb', ← hcanc]

/-- The view's block at the tip's height is the tip. -/
theorem OnView.eq_tip (hview : view.WF T) (hon : OnView T view block)
    (hheight : block.height = view.tip.height) : block = view.tip := by
  have hhash := hon.2
  rw [hheight, hview.hashAt_tip] at hhash
  cases block
  cases hv : view.tip
  rw [hv] at hheight hhash
  simp only at hheight hhash
  rw [hheight, hhash]

end pure

/-! ## The iteration -/

/-- The rewind to `target` does not end above it: the wallet has a checkpoint
    that low, or no checkpoint at all. -/
def ReachesForkPoint (w : SyncWorld) (target : ℕ) : Prop :=
  w.db.checkpoints = [] ∨ ∃ c ∈ w.db.checkpoints, c ≤ target

instance (w : SyncWorld) (target : ℕ) : Decidable (ReachesForkPoint w target) :=
  inferInstanceAs (Decidable (w.db.checkpoints = [] ∨ ∃ c ∈ w.db.checkpoints, c ≤ target))

theorem ReachesForkPoint.lands_le {w : SyncWorld} {target landed : ℕ}
    (h : ReachesForkPoint w target) (hl : Lands w.db target landed) : landed ≤ target := by
  rcases hl with hl | ⟨hnone, hmin⟩
  · exact hl.le
  · rcases h with h | ⟨c, hc, hle⟩
    · rw [h] at hmin
      cases hmin
    · have := hnone c hc
      omega

/-- How an iteration may leave the wallet when it fails with `e`. -/
structure Interrupted (T : BlockTree BlockHash) (e : SyncError) (w : SyncWorld) : Prop where
  below : Below T w.db w.prevTip
  retryable : isRetryable e = true → OneChain T w.db w.prevTip
  conflict : ∀ height, e = .Other (.BlockConflict height) →
    OneChain T w.db w.prevTip ∧ height = w.prevTip.height + 1

theorem OneChain.interrupted {T : BlockTree BlockHash} {e : SyncError} {w : SyncWorld}
    (h : OneChain T w.db w.prevTip) (he : e.NoConflict) : Interrupted T e w :=
  ⟨h.toBelow, fun _ => h, fun height heq => absurd heq (he height)⟩

section iteration

variable {T : BlockTree BlockHash} (U : Upstream) {view : ChainView} {shutdownHeight : Option ℕ}
  {ok : SyncOp → SyncWorld → Prop} {w : SyncWorld}
  {Q : Except SyncError (ControlFlow ℕ Unit) → SyncWorld → Prop}

/-- The apply loop: every block is recorded on top of `prev_tip`. -/
theorem wpE_applyBlocks_oneChain (hok : ∀ o w, o.Quiet → ok o w)
    (hpanic : ∀ m w, ok (.panic m) w) (hview : view.WF T) (blocks : List Block)
    {failure : Option ChainError}
    (hstream : Streams T view (view.tip.height + 1) (w.prevTip.height + 1) blocks failure)
    (hJ : OneChain T w.db w.prevTip) (hon : OnView T view w.prevTip)
    (hQ : ∀ w', OneChain T w'.db w'.prevTip → OnView T view w'.prevTip →
      (failure = none → w'.prevTip.height = view.tip.height) → Q (.ok (.Continue ())) w')
    (hB : ∀ boundary w', Q (.ok (.Break boundary)) w')
    (hE : ∀ e w', Interrupted T e w' → Q (.error e) w') :
    wpE (contract T) Eq ok Q (applyBlocks U view shutdownHeight blocks) w := by
  induction blocks generalizing w with
  | nil =>
    refine hQ w hJ hon ?_
    rintro rfl
    have hle : view.tip.height + 1 ≤ w.prevTip.height + 1 := hstream
    have := hon.1
    omega
  | cons block rest ih =>
    obtain ⟨hlt, hheight, hhash, hrest⟩ := hstream
    rw [applyBlocks, wpE_bind]
    refine wpE_perform_alone (hok _ _ trivial) ?_
    rintro prevTip w₁ ⟨rfl, rfl⟩
    rw [andThen_ok, wpE_bind]
    refine wpE_assert (fun _ => ?_) fun _ _ _ => hpanic _ _
    rw [andThen_ok, wpE_bind]
    refine wpE_scanBlock U (Reading.alone hok w₁) view block shutdownHeight rfl ?_ ?_ ?_
    · intro h _ _
      exact hB _ _
    · rintro fromState scanned w₂ rfl _ hsh hshash
      refine AtPut.single (hok _ _ trivial) ?_ ?_ ?_
      · intro d hd
        rw [hsh, hshash, hheight, hhash] at hd
        rw [andThen_ok, andThen_ok]
        simp only
        rw [wpE_bind]
        -- the block is recorded, `prev_tip` is not updated yet
        have hJ' : OneChain T d w₂.prevTip := by
          refine hJ.congr fun k hk => ?_
          rw [hd, if_neg (by omega)]
        refine wpE_db_alone (hok _ _ trivial) ?_ ?_
        · rintro _ db' rfl
          rw [andThen_ok, wpE_bind]
          refine wpE_perform_alone (hok _ _ trivial) ?_
          rintro _ w₃ rfl
          rw [andThen_ok, hheight, hhash]
          refine ih hrest ?_ ?_
          · exact hJ.extend hview hon (by omega) hd
          · exact ⟨by show w₂.prevTip.height + 1 ≤ _; omega, rfl⟩
        · intro e he
          exact hE _ _ (OneChain.interrupted hJ' (noConflict_of_fails (by simp) he))
      · refine hE _ _ ⟨hJ.toBelow, fun _ => hJ, fun height heq => ⟨hJ, ?_⟩⟩
        cases heq
        rw [hsh, hheight]
      · intro e he
        exact hE _ _ (hJ.interrupted he)
    · rintro e w₂ rfl he
      exact hE _ _ (hJ.interrupted he)

/-- The whole stream: afterwards `prev_tip` is the view's tip. -/
theorem wpE_applyToTip_oneChain (hok : ∀ o w, o.Quiet → ok o w)
    (hpanic : ∀ m w, ok (.panic m) w) (hview : view.WF T) (hJ : OneChain T w.db w.prevTip)
    (hon : OnView T view w.prevTip)
    (hQ : ∀ w', OneChain T w'.db w'.prevTip → w'.prevTip = view.tip → Q (.ok (.Continue ())) w')
    (hB : ∀ boundary w', Q (.ok (.Break boundary)) w')
    (hE : ∀ e w', Interrupted T e w' → Q (.error e) w') :
    wpE (contract T) Eq ok Q (applyToTip U view shutdownHeight) w := by
  unfold applyToTip
  rw [wpE_bind]
  refine wpE_perform_alone (hok _ _ trivial) ?_
  rintro prevTip w₁ ⟨rfl, rfl⟩
  rw [andThen_ok, wpE_bind]
  refine wpE_chain_alone (hok _ _ trivial) ?_ ?_
  · intro stream hstream
    rw [andThen_ok, wpE_bind]
    refine wpE_applyBlocks_oneChain U hok hpanic hview stream.blocks hstream hJ hon ?_ ?_ ?_
    · intro w₂ hJ₂ hon₂ hend
      rw [andThen_ok]
      simp only
      rw [wpE_bind]
      cases hf : stream.failure with
      | some e => exact hE _ _ (hJ₂.interrupted (SyncError.noConflict_chain e))
      | none => exact hQ w₂ hJ₂ (hon₂.eq_tip hview (hend hf))
    · intro boundary w₂
      exact hB boundary w₂
    · intro e w₂ he
      exact hE e w₂ he
  · intro e
    exact hE _ _ (hJ.interrupted (SyncError.noConflict_chain e))

/-- A fork point of a wallet on one chain is a block of the wallet and of the
    view, and only a birthday above `prev_tip` can raise it above that. -/
theorem IsForkPoint.onView (hJ : OneChain T w.db w.prevTip) (hview : view.WF T)
    {block : ChainBlock} (h : IsForkPoint T view w.db w.prevTip block) :
    OnView T view block ∧ w.db.blocks block.height = some block.hash ∧
      block.height ≤ max w.prevTip.height (w.db.birthday.getD 0) := by
  cases h with
  | located h =>
    obtain ⟨hmem, hchain, hheight⟩ := ChainView.forkPoint_some h
    obtain ⟨k, hk, hr⟩ := mem_walletLocator hmem
    obtain ⟨hh, hon⟩ := hJ.toBelow.onView hview hk hr hchain
    rw [hh] at hheight
    subst hheight
    exact ⟨hon, hr, by omega⟩
  | fresh h =>
    have hmem := tip_mem_walletLocator hJ.recorded
    rw [h] at hmem
    cases hmem
  | steppedBack _ _ _ hmax hr hle hhash => exact ⟨⟨hle, hhash⟩, hr, by omega⟩

/-- After the rewind `prev_tip` is a block of the wallet and of the view. -/
theorem wpE_rewindToForkPoint_oneChain {Q : Except SyncError Unit → SyncWorld → Prop}
    (hok : ∀ o w, o.Quiet → ok o w) (hpanic : ∀ m w, ok (.panic m) w) (hview : view.WF T)
    (hJ : OneChain T w.db w.prevTip) {forkPoint : ChainBlock} (hon : OnView T view forkPoint)
    (hr : w.db.blocks forkPoint.height = some forkPoint.hash)
    (hQ : ∀ w', OneChain T w'.db w'.prevTip → OnView T view w'.prevTip → Q (.ok ()) w')
    (hE : ∀ e w', Interrupted T e w' → Q (.error e) w') :
    wpE (rewinding T ReachesForkPoint) Eq ok Q (rewindToForkPoint forkPoint w.prevTip) w := by
  unfold rewindToForkPoint
  by_cases hne : forkPoint ≠ w.prevTip
  · rw [if_pos hne, wpE_bind]
    refine wpE_assert (fun hlt => ?_) fun _ _ _ => hpanic _ _
    rw [andThen_ok, wpE_bind]
    refine wpE_truncateToWalletCheckpoint hok _ ?_ ?_ ?_
    · intro block hguard hl hb
      have hle : block.height ≤ forkPoint.height := hguard.lands_le hl
      have hon' := hJ.toBelow.onView_of_le hview hon (by omega) hr hle hb
      rw [andThen_ok, wpE_bind]
      apply wpE_rewinding
      refine wpE_perform_alone (hok _ _ trivial) ?_
      rintro _ w₁ rfl
      rw [andThen_ok]
      apply wpE_rewinding
      refine wpE_perform_alone (hok _ _ trivial) ?_
      rintro _ w₂ rfl
      exact hQ _ (hJ.toBelow.truncate (by omega) hb) hon'
    · intro e he hretry
      exact hE _ _ (hJ.interrupted he)
    · intro e landed he hretry _ _
      refine hE _ _ ⟨hJ.toBelow.truncated landed, ?_, fun height heq => absurd heq (he height)⟩
      intro h
      rw [hretry] at h
      cases h
  · rw [if_neg hne]
    rw [not_not] at hne
    rw [hne] at hon
    exact hQ w hJ hon

/-- The iteration after a change of the tip. -/
theorem wpE_followTip_oneChain (hok : ∀ o w, o.Quiet → ok o w)
    (hpanic : ∀ m w, ok (.panic m) w) (hview : view.WF T) (hJ : OneChain T w.db w.prevTip)
    (hQ : ∀ w', OneChain T w'.db w'.prevTip → w'.prevTip = view.tip → Q (.ok (.Continue ())) w')
    (hB : ∀ boundary w', Q (.ok (.Break boundary)) w')
    (hE : ∀ e w', Interrupted T e w' → Q (.error e) w') :
    wpE (rewinding T ReachesForkPoint) Eq ok Q (followTip U view view.tip shutdownHeight) w := by
  unfold followTip
  rw [wpE_bind]
  apply wpE_rewinding
  refine wpE_announceTip hok view.tip fun w₁ hd₁ hp₁ => ?_
  have hJ₁ : OneChain T w₁.db w₁.prevTip := by
    rw [hd₁, hp₁]
    exact hJ
  rw [andThen_ok, wpE_bind]
  apply wpE_rewinding
  refine wpE_perform_alone (hok _ _ trivial) ?_
  rintro prevTip w₂ ⟨rfl, rfl⟩
  rw [andThen_ok, wpE_bind]
  apply wpE_rewinding
  refine wpE_locateForkPoint hok view _ ?_ ?_
  · intro forkPoint hfork
    obtain ⟨hon, hr, -⟩ := IsForkPoint.onView hJ₁ hview hfork
    rw [andThen_ok, wpE_bind]
    refine wpE_assert (fun _ => ?_) fun _ _ _ => hpanic _ _
    rw [andThen_ok, wpE_bind]
    refine wpE_rewindToForkPoint_oneChain hok hpanic hview hJ₁ hon hr ?_ ?_
    · intro w₃ hJ₃ hon₃
      rw [andThen_ok]
      apply wpE_rewinding
      exact wpE_applyToTip_oneChain U hok hpanic hview hJ₃ hon₃ hQ hB hE
    · intro e w₃ he
      exact hE e w₃ he
  · intro e he
    exact hE _ _ (hJ₁.interrupted he)

/-- The iteration on one view. When it announces that the tip has been
    reached, `prev_tip` is the view's tip. -/
theorem wpE_iterationOn_oneChain (hok : ∀ o w, o.Quiet → ok o w)
    (hpanic : ∀ m w, ok (.panic m) w)
    (hmark : ∀ w, OneChain T w.db w.prevTip → w.prevTip = view.tip →
      ok (.status .markTipReached) w)
    (hview : view.WF T) (hJ : OneChain T w.db w.prevTip)
    (hQ : ∀ w', OneChain T w'.db w'.prevTip → Q (.ok (.Continue ())) w')
    (hB : ∀ boundary w', Q (.ok (.Break boundary)) w')
    (hE : ∀ e w', Interrupted T e w' → Q (.error e) w') :
    wpE (rewinding T ReachesForkPoint) Eq ok Q (iterationOn U view shutdownHeight) w := by
  -- once `prev_tip` is the view's tip, nothing moves any more
  have hend : ∀ tipChanged (w' : SyncWorld), OneChain T w'.db w'.prevTip →
      w'.prevTip = view.tip → wpE (rewinding T ReachesForkPoint) Eq ok Q
        (finishIteration view view.tip tipChanged shutdownHeight) w' := by
    intro tipChanged w' hJ' htip
    have hsame : ∀ w'' : SyncWorld, w''.db = w'.db → w''.prevTip = w'.prevTip →
        OneChain T w''.db w''.prevTip := by
      intro w'' hd hp
      rw [hd, hp]
      exact hJ'
    apply wpE_rewinding
    refine wpE_finishIteration hok view _ tipChanged _ ?_ ?_ (fun b => hB b w') ?_
    · intro w'' hd hp
      exact hmark w'' (hsame w'' hd hp) (by rw [hp, htip])
    · intro w'' hd hp
      exact hQ w'' (hsame w'' hd hp)
    · intro e w'' hd hp he
      exact hE e w'' ((hsame w'' hd hp).interrupted he)
  unfold iterationOn
  rw [wpE_bind]
  apply wpE_rewinding
  refine wpE_chain_alone (hok _ _ trivial) ?_ ?_
  · intro currentTip htip
    have htip' : currentTip = view.tip := htip
    rw [htip', andThen_ok, wpE_bind]
    apply wpE_rewinding
    refine wpE_perform_alone (hok _ _ trivial) ?_
    rintro prevTip w₁ ⟨rfl, rfl⟩
    rw [andThen_ok]
    by_cases hchanged : view.tip ≠ w₁.prevTip
    · rw [if_pos hchanged, wpE_bind]
      refine wpE_followTip_oneChain U hok hpanic hview hJ ?_ ?_ ?_
      · intro w₂ hJ₂ htip₂
        exact hend _ w₂ hJ₂ htip₂
      · intro boundary w₂
        exact hB boundary w₂
      · intro e w₂ he
        exact hE e w₂ he
    · rw [if_neg hchanged]
      rw [not_not] at hchanged
      exact hend _ w₁ hJ hchanged.symm
  · intro e
    exact hE _ _ (hJ.interrupted (SyncError.noConflict_chain e))

end iteration

/-! ## The outcome of an iteration -/

/-- The rewind after a block conflict reaches the fork point, and the birthday
    does not keep the search for it above `prev_tip`. -/
def ResolvesConflict (w : SyncWorld) (target : ℕ) : Prop :=
  ReachesForkPoint w target ∧ w.db.birthday.getD 0 ≤ w.prevTip.height

/-- The contract under which an outcome is handled: `ResolvesConflict` is
    assumed of the block conflict arm, and nothing of the others. -/
def resolving (T : BlockTree BlockHash) :
    Except SyncError (ControlFlow ℕ Unit) → Contract syncSig SyncWorld
  | .error (.Other (.BlockConflict _)) => rewinding T ResolvesConflict
  | _ => contract T

section outcome

variable {T : BlockTree BlockHash} {ok : SyncOp → SyncWorld → Prop} {w : SyncWorld}

/-- After a block conflict the wallet is rewound to a block of its own
    chain. -/
theorem wpE_resolveConflict_oneChain (hok : ∀ o w, o.Quiet → ok o w)
    (hJ : OneChain T w.db w.prevTip) {Q : Except SyncError Unit → SyncWorld → Prop}
    (hQ : ∀ w', OneChain T w'.db w'.prevTip → Q (.ok ()) w') (hE : ∀ e w', Q (.error e) w') :
    wpE (rewinding T ResolvesConflict) Eq ok Q (resolveConflict (w.prevTip.height + 1)) w := by
  unfold resolveConflict
  rw [wpE_bind]
  apply wpE_rewinding
  refine wpE_db_alone (hok _ _ trivial) ?_ fun e _ => hE _ _
  rintro hash db' ⟨rfl, rfl⟩
  rw [Nat.add_sub_cancel, hJ.recorded, andThen_ok, wpE_bind]
  show wpE (rewinding T ResolvesConflict) Eq ok Q (chain .snapshot >>= _) w
  rw [wpE_bind]
  apply wpE_rewinding
  refine wpE_chain_alone (hok _ _ trivial) ?_ fun e => hE _ _
  intro view hview
  rw [andThen_ok, wpE_bind]
  apply wpE_rewinding
  refine wpE_locateForkPoint hok view _ ?_ fun e _ => hE _ _
  intro forkPoint hfork
  have hfork' : IsForkPoint T view w.db w.prevTip forkPoint := hfork
  obtain ⟨hon, hr, hmax⟩ := IsForkPoint.onView hJ hview hfork'
  rw [andThen_ok, wpE_bind]
  refine wpE_truncateToWalletCheckpoint hok _ ?_ (fun e _ _ => hE _ _) fun e _ _ _ _ _ => hE _ _
  intro block hguard hl hb
  have hle : block.height ≤ forkPoint.height := hguard.1.lands_le hl
  have hbirthday : w.db.birthday.getD 0 ≤ w.prevTip.height := hguard.2
  have hJ' := hJ.toBelow.truncate (by omega) hb
  rw [andThen_ok, wpE_bind]
  apply wpE_rewinding
  refine wpE_perform_alone (hok _ _ trivial) ?_
  rintro _ w₁ rfl
  rw [andThen_ok]
  apply wpE_rewinding
  refine wpE_perform_alone (hok _ _ trivial) ?_
  rintro _ w₂ rfl
  exact hQ _ hJ'

/-- After a tree divergence the wallet is rewound below `prev_tip`, on its own
    chain wherever it lands. -/
theorem wpE_resolveDivergence_oneChain (hok : ∀ o w, o.Quiet → ok o w)
    (hJ : Below T w.db w.prevTip) (recovery : TreeRecovery)
    {Q : Except SyncError TreeRecovery → SyncWorld → Prop}
    (hQ : ∀ recovery w', OneChain T w'.db w'.prevTip → Q (.ok recovery) w')
    (hE : ∀ e w', Q (.error e) w') :
    wpE (contract T) Eq ok Q (resolveDivergence recovery) w := by
  unfold resolveDivergence
  rw [wpE_bind]
  refine wpE_perform_alone (hok _ _ trivial) ?_
  rintro prevTip w₁ ⟨rfl, rfl⟩
  rw [andThen_ok, wpE_bind]
  refine wpE_recoverFromTreeDivergence hok _ _ ?_ ?_
  · intro block hlt hb
    have hJ' := hJ.truncate (by omega) hb
    rw [andThen_ok]
    simp only
    rw [wpE_bind]
    refine wpE_perform_alone (hok _ _ trivial) ?_
    rintro _ w₂ rfl
    rw [andThen_ok, wpE_bind]
    refine wpE_perform_alone (hok _ _ trivial) ?_
    rintro _ w₃ rfl
    exact hQ _ _ hJ'
  · intro e w₂
    exact hE e w₂

/-- What the end of an iteration guarantees to the code that handles it. -/
def Outcome (T : BlockTree BlockHash) : Except SyncError (ControlFlow ℕ Unit) → SyncWorld → Prop
  | .ok (.Continue ()), w => OneChain T w.db w.prevTip
  | .ok (.Break _), _ => True
  | .error e, w => Interrupted T e w

theorem resolving_noConflict {e : SyncError} (h : e.NoConflict) :
    resolving T (.error e) = contract T := by
  unfold resolving
  split
  · rename_i height heq
    cases heq
    exact absurd rfl (h height)
  · rfl

/-- Whatever the outcome was, the wallet is on one chain when the loop goes
    on. -/
theorem wpE_handleOutcome_oneChain (recovery : TreeRecovery)
    (outcome : Except SyncError (ControlFlow ℕ Unit)) (h : Outcome T outcome w) :
    wpE (resolving T outcome) Eq (fun _ _ => True)
      (fun r w' => ∀ recovery', r = .ok (.Continue recovery') → OneChain T w'.db w'.prevTip)
      (handleOutcome recovery outcome) w := by
  match outcome, h with
  | .ok (.Continue ()), h =>
    refine (wpE_bind _ _ _).mpr (wpE_perform_alone trivial ?_)
    rintro prevTip w₁ ⟨rfl, rfl⟩
    intro _ _
    exact h
  | .ok (.Break boundary), _ =>
    intro recovery' hr
    cases hr
  | .error e, h =>
    have h' : Interrupted T e w := h
    rcases e.arms with hr | ⟨height, rfl⟩ | ⟨hn, hr, ht⟩ | hf
    · have hn : e.NoConflict := by
        intro height he
        rw [he] at hr
        cases hr
      rw [resolving_noConflict hn, handleOutcome_retryable recovery hr, wpE_bind]
      refine wpE_signal trivial trivial fun _ w₁ hd hp => ?_
      intro _ _
      rw [hd, hp]
      exact h'.retryable hr
    · obtain ⟨hJ, rfl⟩ := h'.conflict height rfl
      rw [handleOutcome_conflict, wpE_bind]
      refine wpE_resolveConflict_oneChain (fun _ _ _ => trivial) hJ ?_ ?_
      · intro w₁ hJ₁ _ _
        exact hJ₁
      · intro e w₁ _ hr
        cases hr
    · rw [resolving_noConflict hn, handleOutcome_divergence recovery hn hr ht, wpE_bind]
      refine wpE_resolveDivergence_oneChain (fun _ _ _ => trivial) h'.below recovery ?_ ?_
      · intro recovery' w₁ hJ₁ _ _
        exact hJ₁
      · intro e w₁ _ hr
        cases hr
    · rw [handleOutcome_fatal recovery hf]
      intro _ hr
      cases hr

end outcome

/-! ## Whole runs -/

section runs

variable {T : BlockTree BlockHash} {U : Upstream} {shutdownHeight : Option ℕ}

/-- The iteration ends with an `Outcome`. -/
theorem run_iteration_outcome {w w' : SyncWorld} {τ : List (Event syncSig)}
    {outcome : Except SyncError (ControlFlow ℕ Unit)} (hJ : OneChain T w.db w.prevTip)
    (hrun : Run (rewinding T ReachesForkPoint) (steadyStateIteration U shutdownHeight).run w τ
      outcome w') : Outcome T outcome w' := by
  have hwp : wpE (rewinding T ReachesForkPoint) Eq (fun _ _ => True) (Outcome T)
      (steadyStateIteration U shutdownHeight) w := by
    unfold steadyStateIteration
    rw [wpE_bind]
    apply wpE_rewinding
    refine wpE_chain_alone (by trivial) ?_ ?_
    · intro view hview
      rw [andThen_ok]
      exact wpE_iterationOn_oneChain U (fun _ _ _ => trivial) (fun _ _ => trivial)
        (fun _ _ _ => trivial) hview hJ (fun _ h => h) (fun _ _ => trivial) fun _ _ h => h
    · intro e
      exact hJ.interrupted (SyncError.noConflict_chain e)
  exact wp_run hwp hrun

/-- One turn of the loop. -/
theorem SteadyTurn.oneChain {s s' : SteadyHead}
    (h : SteadyTurn U shutdownHeight (rewinding T ReachesForkPoint) (resolving T) s s')
    (hJ : OneChain T s.world.db s.world.prevTip) : OneChain T s'.world.db s'.world.prevTip := by
  obtain ⟨τ, outcome, w, τ', h₁, h₂⟩ := h
  have hout := run_iteration_outcome hJ h₁
  exact wp_run (wpE_handleOutcome_oneChain s.recovery outcome hout) h₂ _ rfl

/-- Any number of turns. -/
theorem SteadyTurns.oneChain {s s' : SteadyHead}
    (h : SteadyTurns U shutdownHeight (rewinding T ReachesForkPoint) (resolving T) s s')
    (hJ : OneChain T s.world.db s.world.prevTip) : OneChain T s'.world.db s'.world.prevTip := by
  induction h with
  | refl => exact hJ
  | tail _ hturn ih => exact hturn.oneChain ih

/-- Where an iteration announces that it has reached the tip. -/
theorem markTipReached_oneChain {w w' : SyncWorld} {view : ChainView} {τ : List (Event syncSig)}
    {k : Unit → Prog syncSig (Except SyncError (ControlFlow ℕ Unit))}
    (hJ : OneChain T w.db w.prevTip)
    (hr : Reaches (rewinding T ReachesForkPoint) (steadyStateIteration U shutdownHeight).run w
      (⟨.chain .snapshot, .ok view⟩ :: τ) (.op (.status .markTipReached) k) w') :
    OneChain T w'.db w'.prevTip ∧ w'.prevTip = view.tip := by
  cases hr with
  | step hC hrest =>
    obtain ⟨⟨hview, hw⟩, -⟩ := hC
    rw [hw] at hrest
    have hwp : wpE (rewinding T ReachesForkPoint) Eq
        (fun o w => o = .status .markTipReached →
          OneChain T w.db w.prevTip ∧ w.prevTip = view.tip)
        (fun _ _ => True) (iterationOn U view shutdownHeight) w := by
      refine wpE_iterationOn_oneChain U ?_ ?_ ?_ hview hJ (fun _ _ => trivial)
        (fun _ _ => trivial) fun _ _ _ => trivial
      · rintro o _ ho rfl
        exact ho.elim
      · rintro m _ h
        cases h
      · intro _ h htip _
        exact ⟨h, htip⟩
    exact (wp_reaches hwp hrest _ rfl).1 rfl

/-- The steady-state task keeps the wallet on one chain: if every rewind
    after a reorg or a block conflict reaches its fork point, the wallet is on
    one chain after every turn, and whenever an iteration announces that the
    tip has been reached, every block recorded up to `prev_tip` is the captured
    view's block at its height. -/
theorem steadyState_keeps_oneChain (T : BlockTree BlockHash) (U : Upstream)
    (shutdownHeight : Option ℕ) (s s' : SteadyHead)
    (hJ : OneChain T s.world.db s.world.prevTip)
    (hrun : SteadyTurns U shutdownHeight (rewinding T ReachesForkPoint) (resolving T) s s') :
    OneChain T s'.world.db s'.world.prevTip ∧
      ∀ view τ k w, Reaches (rewinding T ReachesForkPoint)
        (steadyStateIteration U shutdownHeight).run s'.world
        (⟨.chain .snapshot, .ok view⟩ :: τ) (.op (.status .markTipReached) k) w →
        w.prevTip = view.tip ∧
          ∀ h hash, h ≤ view.tip.height → w.db.blocks h = some hash → hash = view.hashAt T h := by
  have hJ' := hrun.oneChain hJ
  refine ⟨hJ', fun view τ k w hr => ?_⟩
  obtain ⟨hJw, htip⟩ := markTipReached_oneChain hJ' hr
  refine ⟨htip, fun h hash hh hb => ?_⟩
  rw [← htip] at hh
  rw [hJw.ancestors h hash hh hb, htip]
  rfl

end runs

/-! ## A reorg -/

/-- A way to check `OneChain` of a particular wallet. -/
theorem oneChain_of_check {T : BlockTree BlockHash} {d : WalletDb} {prevTip : ChainBlock}
    (hheight : T.height prevTip.hash = prevTip.height)
    (hr : d.blocks prevTip.height = some prevTip.hash)
    (h : ∀ k ∈ List.range (prevTip.height + 1),
      (d.blocks k).all (fun hash => hash == T.ancestor prevTip.hash k) = true) :
    OneChain T d prevTip := by
  refine ⟨⟨hheight, fun k hash hk hb => ?_⟩, hr⟩
  have := h k (List.mem_range.mpr (by omega))
  rw [hb] at this
  simpa using this

/-- The blocks of a wallet that followed fork 1 up to height 10; fork 1
    leaves fork 0 above height 6. -/
def followedBlocks (h : ℕ) : Option BlockHash :=
  if h ≤ 6 then some (forkBlock 0 h) else if h ≤ 10 then some (forkBlock 1 h) else none

/-- That wallet, with the given checkpoints. -/
def followedFork (checkpoints : List ℕ) : SyncWorld where
  db := ⟨followedBlocks, checkpoints, none⟩
  signals := .initial
  prevTip := ⟨10, forkBlock 1 10⟩
  boundary := 0

/-- The backend has moved to fork 0 when the wallet looks again. -/
def reorged (checkpoints : List ℕ) : Replay :=
  ⟨followedFork checkpoints, [.ok ⟨⟨9, forkBlock 0 9⟩⟩]⟩

theorem followedFork_oneChain (checkpoints : List ℕ) :
    OneChain (forkTree 6) (followedFork checkpoints).db (followedFork checkpoints).prevTip := by
  have h : OneChain (forkTree 6) ⟨followedBlocks, [], none⟩ ⟨10, forkBlock 1 10⟩ :=
    oneChain_of_check (by decide +kernel) (by decide +kernel) (by decide +kernel)
  exact h.congr fun _ _ => rfl

/-- With a checkpoint at the fork point the wallet changes over to fork 0. -/
theorem steadyState_keeps_oneChain_reorg :
    ∃ s', SteadyTurn .watchNothing none (rewinding (forkTree 6) ReachesForkPoint)
      (resolving (forkTree 6)) ⟨default, followedFork [6, 8, 9, 10]⟩ s' ∧
      OneChain (forkTree 6) s'.world.db s'.world.prevTip ∧
      s'.world.prevTip = ⟨9, forkBlock 0 9⟩ := by
  have hkeeps : ((Script.quiet (forkTree 6)).rewindingReplay
      fun w target => decide (ReachesForkPoint w target)).Keeps
      (rewinding (forkTree 6) ReachesForkPoint) Replay.world :=
    Script.rewindingReplay_keeps _ fun _ _ h => of_decide_eq_true h
  have hkeeps' := (Script.quiet (forkTree 6)).replay_keeps
  have hturn : SteadyTurn _ _ _ (resolving (forkTree 6)) _ _ :=
    steadyTurn_exec .watchNothing none (.ok (.Continue ())) hkeeps hkeeps' default default 60
      (reorged [6, 8, 9, 10]) (by decide +kernel) (by decide +kernel)
  refine ⟨_, hturn, ?_, ?_⟩
  · exact (steadyState_keeps_oneChain _ _ _ _ _ (followedFork_oneChain _) (.single hturn)).1
  · decide +kernel

/-- Without a checkpoint at or below the fork point the wallet keeps blocks 7
    and 8 of fork 1 and puts fork 0 on top of them. -/
theorem steadyState_mixes_forks :
    OneChain (forkTree 6) (followedFork [8, 9, 10]).db (followedFork [8, 9, 10]).prevTip ∧
      ∃ s', SteadyTurn .watchNothing none (contract (forkTree 6)) (fun _ => contract (forkTree 6))
        ⟨default, followedFork [8, 9, 10]⟩ s' ∧
        ¬ OneChain (forkTree 6) s'.world.db s'.world.prevTip := by
  have hkeeps := (Script.quiet (forkTree 6)).replay_keeps
  have hturn : SteadyTurn _ _ _ (fun _ => contract (forkTree 6)) _ _ :=
    steadyTurn_exec .watchNothing none (.ok (.Continue ())) hkeeps hkeeps default default 60
      (reorged [8, 9, 10]) (by decide +kernel) (by decide +kernel)
  refine ⟨followedFork_oneChain _, _, hturn, fun h => ?_⟩
  -- height 8 still holds the block of fork 1
  have h₈ := h.ancestors 8 (forkBlock 1 8) (by decide +kernel) (by decide +kernel)
  exact absurd h₈ (by decide +kernel)

end Zallet.Sync
