import Zallet.Sync.Locator
import Zallet.Sync.Steps

/-!
# Finding where the wallet rejoins the chain

`locate_fork_point` (`sync.rs`, lines 476–509) asks the view for the first
entry of the wallet's locator on its chain, and falls back to
`step_back_to_best_chain` (lines 737–781), a walk down the wallet's own blocks.

`IsForkPoint` lists what it can return and `wpE_locateForkPoint` says that it
returns nothing else and changes nothing.
-/

namespace Zallet.Sync

open Zallet.Effect Zallet.Common Zallet.Chain Zallet.Wallet

/-- `FORK_SEARCH_STEP`. -/
def forkSearchStep : ℕ := 10

/-- `rewind_step` (lines 739–744). -/
def rewindStep (height birthday : ℕ) : ℕ × Bool :=
  let next := max (height - forkSearchStep) birthday
  (next, decide (next ≤ birthday))

/-- Below the birthday floor every step goes further down. -/
theorem rewindStep_lt {height birthday : ℕ} (h : ¬ (rewindStep height birthday).2 = true) :
    (rewindStep height birthday).1 < height := by
  have hn : ¬ max (height - 10) birthday ≤ birthday := by
    intro hle
    exact h (decide_eq_true hle)
  show max (height - 10) birthday < height
  omega

/-- The closure `|height| Ok(db_data.get_block_hash(height)?)`. -/
def walletHash (height : ℕ) : SyncM (Option BlockHash) := db (DbOp.getBlockHash height)

/-- The block of the wallet at `height`, if it is on the view's chain
    (lines 767–776). -/
def probe (view : ChainView) (walletHash : ℕ → SyncM (Option BlockHash)) (height : ℕ) :
    SyncM (Option BlockHash) := do
  match ← walletHash height with
  | none => pure none
  | some wh => do
    let header ← chain (.getBlockHeader view height)
    if header.map (·.hash) = some wh then pure (some wh) else pure none

/-- `step_back_to_best_chain` (lines 753–781), its loop entered with
    `height`. -/
def stepBackToBestChain (view : ChainView) (height birthday : ℕ)
    (walletHash : ℕ → SyncM (Option BlockHash)) : SyncM ChainBlock := do
  let next := (rewindStep height birthday).1
  match ← probe view walletHash next with
  | some wh => pure ⟨next, wh⟩
  | none =>
    if _h : (rewindStep height birthday).2 = true then
      throw (.WalletDivergedBelowBirthday birthday)
    else stepBackToBestChain view next birthday walletHash
termination_by height
decreasing_by exact rewindStep_lt _h

/-- `locate_fork_point` (lines 476–509). -/
def locateForkPoint (view : ChainView) (prevTip : ChainBlock) : SyncM ChainBlock := do
  let birthday ← db .getWalletBirthday
  let locator ← buildBlockLocator prevTip.height
  match ← chain (.findForkPoint view locator) with
  | some forkPoint => pure forkPoint
  | none =>
    if locator.hashes = [] then pure prevTip
    else stepBackToBestChain view prevTip.height (birthday.getD 0) walletHash

/-- What `locate_fork_point` can return: the first locator entry on the view's
    chain; `prevTip` if the locator is empty; or a block of the wallet on the
    view's chain, between the birthday and the step below `prevTip`. -/
inductive IsForkPoint (T : BlockTree BlockHash) (view : ChainView) (d : WalletDb)
    (prevTip : ChainBlock) : ChainBlock → Prop
  | located {block : ChainBlock} :
      view.forkPoint T (walletLocator d prevTip.height) = some block →
      IsForkPoint T view d prevTip block
  | fresh : (walletLocator d prevTip.height).hashes = [] → IsForkPoint T view d prevTip prevTip
  | steppedBack {block : ChainBlock} : (walletLocator d prevTip.height).hashes ≠ [] →
      view.forkPoint T (walletLocator d prevTip.height) = none →
      d.birthday.getD 0 ≤ block.height →
      block.height ≤ max (prevTip.height - forkSearchStep) (d.birthday.getD 0) →
      d.blocks block.height = some block.hash → block.height ≤ view.tip.height →
      view.hashAt T block.height = block.hash → IsForkPoint T view d prevTip block

/-! ## The walk below the locator -/

/-- The best chain a view serves. -/
def bestHash (T : BlockTree BlockHash) (view : ChainView) (height : ℕ) : Option BlockHash :=
  if height ≤ view.tip.height then some (view.hashAt T height) else none

theorem bestHash_eq_some {T : BlockTree BlockHash} {view : ChainView} {height : ℕ}
    {hash : BlockHash} :
    bestHash T view height = some hash ↔ height ≤ view.tip.height ∧ view.hashAt T height = hash := by
  unfold bestHash
  by_cases h : height ≤ view.tip.height
  · rw [if_pos h, Option.some.injEq]
    exact ⟨fun heq => ⟨h, heq⟩, fun heq => heq.2⟩
  · rw [if_neg h]
    simp [h]

/-- A block of the view's chain is its block at that block's height. -/
theorem bestHash_height {T : BlockTree BlockHash} {view : ChainView} (hwf : view.WF T)
    {hash : BlockHash} :
    bestHash T view (T.height hash) = some hash ↔ T.OnChain view.tip.hash hash := by
  rw [bestHash_eq_some, ← hwf]
  exact Iff.rfl

/-- The height of the `k`-th probe of a walk that starts at `height`. -/
def probeHeight (height birthday k : ℕ) : ℕ := max birthday (height - forkSearchStep * k)

/-- Wallet and view record the same block at `height`. -/
def Agrees (T : BlockTree BlockHash) (view : ChainView) (d : WalletDb) (height : ℕ) : Prop :=
  ∃ hash, d.blocks height = some hash ∧ bestHash T view height = some hash

/-- The results of a walk that starts at `height`: the block of the first
    probe at which wallet and view agree; a divergence if there is none; or an
    error of a failed read. -/
inductive WalkEnds (T : BlockTree BlockHash) (view : ChainView) (d : WalletDb)
    (height birthday : ℕ) (failed : SyncError → Prop) : Except SyncError ChainBlock → Prop
  | found {block : ChainBlock} (k : ℕ) : block.height = probeHeight height birthday (k + 1) →
      d.blocks block.height = some block.hash → bestHash T view block.height = some block.hash →
      (∀ j < k, ¬ Agrees T view d (probeHeight height birthday (j + 1))) →
      WalkEnds T view d height birthday failed (.ok block)
  | diverged : (∀ k, ¬ Agrees T view d (probeHeight height birthday (k + 1))) →
      WalkEnds T view d height birthday failed (.error (.WalletDivergedBelowBirthday birthday))
  | failed {e : SyncError} : failed e → WalkEnds T view d height birthday failed (.error e)

/-- The next probe of a walk that has not reached the birthday. -/
theorem probeHeight_succ {height birthday : ℕ}
    (h : ¬ max (height - forkSearchStep) birthday ≤ birthday) (k : ℕ) :
    probeHeight (max (height - forkSearchStep) birthday) birthday k =
      probeHeight height birthday (k + 1) := by
  unfold probeHeight forkSearchStep at *
  omega

/-- All probes of a walk that has reached the birthday are there. -/
theorem probeHeight_reached {height birthday : ℕ}
    (h : max (height - forkSearchStep) birthday ≤ birthday) (k : ℕ) :
    probeHeight height birthday (k + 1) = max (height - forkSearchStep) birthday := by
  unfold probeHeight forkSearchStep at *
  omega

section walk

variable {T : BlockTree BlockHash} {K : (o : SyncOp) → SyncWorld → o.Ret → Prop}
  {failed : SyncError → Prop} {ok : SyncOp → SyncWorld → Prop} {w : SyncWorld}

/-- A probe finds the wallet's block exactly if wallet and view agree. -/
theorem wpE_probe (hF : FailsWith K failed) (hok : ∀ o w, o.Reads → ok o w)
    (view : ChainView) (height : ℕ) {Q : Except SyncError (Option BlockHash) → SyncWorld → Prop}
    (hsome : ∀ hash, w.db.blocks height = some hash → bestHash T view height = some hash →
      Q (.ok (some hash)) w)
    (hnone : ¬ Agrees T view w.db height → Q (.ok none) w)
    (hE : ∀ e, failed e → Q (.error e) w) :
    wpE ((contract T).restrict K) Eq ok Q (probe view walletHash height) w := by
  unfold probe walletHash
  rw [wpE_bind]
  refine wpE_db_restrict hF (by trivial) (hok _ _ trivial) ?_ hE
  rintro hash ⟨rfl, -⟩
  rw [andThen_ok]
  cases hb : w.db.blocks height with
  | none =>
    refine hnone ?_
    rintro ⟨hash, hhash, -⟩
    rw [hb] at hhash
    cases hhash
  | some wh =>
    simp only
    rw [wpE_bind]
    refine wpE_chain_restrict hF (hok _ _ trivial) ?_ hE
    intro header hserves
    rw [andThen_ok]
    have hbest : header.map (·.hash) = bestHash T view height := by
      cases header with
      | none =>
        have hlt : view.tip.height < height := hserves
        rw [bestHash, if_neg (by omega)]
        rfl
      | some header =>
        obtain ⟨hle, hhash⟩ := hserves
        rw [bestHash, if_pos hle, ← hhash]
        rfl
    rw [hbest]
    by_cases heq : bestHash T view height = some wh
    · rw [if_pos heq]
      exact hsome wh hb heq
    · rw [if_neg heq]
      refine hnone ?_
      rintro ⟨hash, hhash, hagree⟩
      rw [hb] at hhash
      cases hhash
      exact heq hagree

theorem wpE_stepBackToBestChain (hF : FailsWith K failed) (hok : ∀ o w, o.Reads → ok o w)
    (view : ChainView) (height birthday : ℕ) :
    wpE ((contract T).restrict K) Eq ok
      (fun r w' => w' = w ∧ WalkEnds T view w.db height birthday failed r)
      (stepBackToBestChain view height birthday walletHash) w := by
  -- by induction on the height, which falls with every step that is not the last
  induction height using Nat.strong_induction_on with
  | _ height ih =>
    rw [stepBackToBestChain, wpE_bind]
    have hnext : (rewindStep height birthday).1 = max (height - forkSearchStep) birthday := rfl
    have hreached : (rewindStep height birthday).2 =
        decide (max (height - forkSearchStep) birthday ≤ birthday) := rfl
    have hfirst : probeHeight height birthday 1 = max (height - forkSearchStep) birthday := by
      unfold probeHeight
      rw [mul_one, max_comm]
    rw [hnext, hreached]
    refine wpE_probe hF hok view _ ?_ ?_ ?_
    · intro hash hb hbest
      refine ⟨rfl, .found 0 hfirst.symm hb hbest ?_⟩
      intro j hj
      omega
    · intro hnot
      rw [andThen_ok]
      simp only [decide_eq_true_eq]
      by_cases hr : max (height - forkSearchStep) birthday ≤ birthday
      · rw [dif_pos hr]
        refine ⟨rfl, .diverged ?_⟩
        intro k
        rw [probeHeight_reached hr]
        exact hnot
      · rw [dif_neg hr]
        have hlt : max (height - forkSearchStep) birthday < height := by
          unfold forkSearchStep at *
          omega
        refine wpE_post (ih _ hlt) ?_
        rintro r w' ⟨rfl, hends⟩
        refine ⟨rfl, ?_⟩
        -- the probes of the rest are the later probes of the whole walk
        cases hends with
        | found k hheight hb hbest hbefore =>
          refine .found (k + 1) ?_ hb hbest ?_
          · rw [hheight, probeHeight_succ hr]
          · intro j hj
            cases j with
            | zero =>
              rw [hfirst]
              exact hnot
            | succ j =>
              rw [← probeHeight_succ hr]
              exact hbefore j (by omega)
        | diverged hnone =>
          refine .diverged ?_
          intro k
          cases k with
          | zero =>
            rw [hfirst]
            exact hnot
          | succ k =>
            rw [← probeHeight_succ hr]
            exact hnone k
        | failed he => exact .failed he
    · intro e he
      exact ⟨rfl, .failed he⟩

end walk

/-- The results of `locate_fork_point`: the first locator entry on the view's
    chain, `prevTip` if the locator is empty, the result of the walk, or an
    error of a failed read. -/
inductive LocateEnds (T : BlockTree BlockHash) (view : ChainView) (d : WalletDb)
    (prevTip : ChainBlock) (failed : SyncError → Prop) : Except SyncError ChainBlock → Prop
  | located {block : ChainBlock} :
      view.forkPoint T (walletLocator d prevTip.height) = some block →
      LocateEnds T view d prevTip failed (.ok block)
  | fresh : (walletLocator d prevTip.height).hashes = [] →
      LocateEnds T view d prevTip failed (.ok prevTip)
  | walked {r : Except SyncError ChainBlock} : (walletLocator d prevTip.height).hashes ≠ [] →
      view.forkPoint T (walletLocator d prevTip.height) = none →
      WalkEnds T view d prevTip.height (d.birthday.getD 0) failed r →
      LocateEnds T view d prevTip failed r
  | failed {e : SyncError} : failed e → LocateEnds T view d prevTip failed (.error e)

section locate

variable {T : BlockTree BlockHash} {K : (o : SyncOp) → SyncWorld → o.Ret → Prop}
  {failed : SyncError → Prop} {ok : SyncOp → SyncWorld → Prop} {w : SyncWorld}

theorem wpE_locateForkPoint_ends (hF : FailsWith K failed) (hok : ∀ o w, o.Reads → ok o w)
    (view : ChainView) (prevTip : ChainBlock) :
    wpE ((contract T).restrict K) Eq ok
      (fun r w' => w' = w ∧ LocateEnds T view w.db prevTip failed r)
      (locateForkPoint view prevTip) w := by
  have hfailed : ∀ e, failed e →
      w = w ∧ LocateEnds T view w.db prevTip failed (.error e) := fun e he => ⟨rfl, .failed he⟩
  unfold locateForkPoint
  rw [wpE_bind]
  refine wpE_db_restrict hF (by trivial) (hok _ _ trivial) ?_ hfailed
  rintro birthday ⟨rfl, -⟩
  rw [andThen_ok, wpE_bind]
  refine wpE_buildBlockLocator hF hok _ ?_ hfailed
  rw [andThen_ok, wpE_bind]
  refine wpE_chain_restrict hF (hok _ _ trivial) ?_ hfailed
  intro found hfound
  have hfp : found = view.forkPoint T (walletLocator w.db prevTip.height) := hfound
  rw [andThen_ok]
  cases found with
  | some block => exact ⟨rfl, .located hfp.symm⟩
  | none =>
    simp only
    by_cases hempty : (walletLocator w.db prevTip.height).hashes = []
    · rw [if_pos hempty]
      exact ⟨rfl, .fresh hempty⟩
    · rw [if_neg hempty]
      refine wpE_post (wpE_stepBackToBestChain hF hok view _ _) ?_
      rintro r w' ⟨rfl, hends⟩
      exact ⟨rfl, .walked hempty hfp.symm hends⟩

theorem wpE_locateForkPoint (hok : ∀ o w, o.Quiet → ok o w) (view : ChainView)
    (prevTip : ChainBlock) {Q : Except SyncError ChainBlock → SyncWorld → Prop}
    (hQ : ∀ block, IsForkPoint T view w.db prevTip block → Q (.ok block) w)
    (hE : ∀ e, e.NoConflict → Q (.error e) w) :
    wpE (contract T) Eq ok Q (locateForkPoint view prevTip) w := by
  have hends := wpE_unrestricted (wpE_locateForkPoint_ends (T := T) (w := w) failsWith_noConflict
    (fun o w ho => hok o w ho.quiet) view prevTip)
  refine wpE_post hends ?_
  rintro r w' ⟨rfl, h⟩
  cases h with
  | located h => exact hQ _ (.located h)
  | fresh h => exact hQ _ (.fresh h)
  | walked hne hnone h =>
    cases h with
    | found k hheight hb hbest _ =>
      obtain ⟨hle, hhash⟩ := bestHash_eq_some.mp hbest
      refine hQ _ (.steppedBack hne hnone ?_ ?_ hb hle hhash)
      · rw [hheight]
        exact le_max_left _ _
      · rw [hheight]
        unfold probeHeight forkSearchStep
        omega
    | diverged _ =>
      refine hE _ ?_
      intro height he
      cases he
    | failed he => exact hE _ he
  | failed he => exact hE _ he

end locate

/-! ## Bounds -/

section within

variable {B : Bounds syncSig SyncError}

/-- Whatever hashes the database returns, the collected blocks are at
    strictly decreasing heights if the requested heights are. -/
theorem within_collectBlocks (hB : Lookups B) {heights : List ℕ} :
    wpE (W := Unit) (fun o _ r _ => B.answers o r) Eq (fun o _ => B.ops o)
      (fun r _ => match r with
        | .ok blocks => (blocks.map (·.height)).Sublist heights
        | .error e => B.errors e)
      (collectBlocks heights) () := by
  induction heights with
  | nil => exact List.Sublist.refl []
  | cons height rest ih =>
    rw [collectBlocks, wpE_bind]
    refine wpE_post (hB.db (by trivial)) fun r _ hr => ?_
    cases r with
    | error e => exact hr e rfl
    | ok hash =>
      rw [andThen_ok, wpE_bind]
      refine wpE_post ih fun r _ hs => ?_
      cases r with
      | error e => exact hs
      | ok blocks =>
        cases hash with
        | none => exact hs.cons height
        | some hash => exact hs.cons_cons height

theorem within_buildBlockLocator (hB : Lookups B) (tip : ℕ) :
    Within B (buildBlockLocator tip) := by
  unfold Within buildBlockLocator
  rw [wpE_bind]
  refine wpE_post (within_collectBlocks hB) fun r _ hr => ?_
  cases r with
  | error e =>
    intro e' he'
    cases he'
    exact hr
  | ok blocks =>
    have hdec : (blocks.map (·.height)).Pairwise (· > ·) :=
      (locatorBlockHeights_decreasing tip).sublist hr
    have hchain : blocks.IsChain fun a b => b.height < a.height :=
      (List.pairwise_map.mp hdec).isChain
    rw [andThen_ok, BlockLocator.fromBlocks_eq hchain]
    exact Within.pure _

theorem within_stepBackToBestChain (hB : Lookups B) (view : ChainView) (height birthday : ℕ) :
    Within B (stepBackToBestChain view height birthday walletHash) := by
  have hprobe : ∀ height, Within B (probe view walletHash height) := by
    intro height
    unfold probe
    refine Within.bind (hB.db (by trivial)) fun hash => ?_
    cases hash with
    | none => exact Within.pure _
    | some wh =>
      refine (hB.chain (by trivial)).bind fun header => ?_
      split
      · exact Within.pure _
      · exact Within.pure _
  induction height using Nat.strong_induction_on with
  | _ height ih =>
    rw [stepBackToBestChain]
    refine (hprobe _).bind fun found => ?_
    cases found with
    | some wh => exact Within.pure _
    | none =>
      simp only
      split
      · exact Within.throw (hB.otherError _ rfl)
      · rename_i h
        exact ih _ (rewindStep_lt h)

theorem within_locateForkPoint (hB : Lookups B) (view : ChainView) (prevTip : ChainBlock) :
    Within B (locateForkPoint view prevTip) := by
  unfold locateForkPoint
  refine (hB.db (by trivial)).bind fun birthday => ?_
  refine (within_buildBlockLocator hB _).bind fun locator => ?_
  refine (hB.chain (by trivial)).bind fun found => ?_
  cases found with
  | some forkPoint => exact Within.pure _
  | none =>
    simp only
    split
    · exact Within.pure _
    · exact within_stepBackToBestChain hB view _ _

end within

end Zallet.Sync
