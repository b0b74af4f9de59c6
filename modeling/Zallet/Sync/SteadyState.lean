import Zallet.Sync.ForkPoint
import Zallet.Sync.TreeRecovery

/-!
# The steady-state task

`steady_state` and `steady_state_iteration` (`sync.rs`, lines 783–1078). One
turn of the task runs an iteration and then handles its outcome: progress, a
stale view, a block conflict, a diverged tree, or an error that ends the task.

`SteadyTurn D D' s s'` is one such turn from the loop state and world `s` to
`s'`, with the iteration run under the contract `D` and the outcome handled
under `D'`. The two contracts are `contract T`, or `contract T` cut down to
the answers a result assumes.
-/

namespace Zallet.Sync

open Zallet.Effect Zallet.Common Zallet.Chain Zallet.Wallet

section programs

variable (U : Upstream)

/-- The loop that applies the blocks of a stream (lines 987–1013). -/
def applyBlocks (view : ChainView) (shutdownHeight : Option ℕ) :
    List Block → SyncM (ControlFlow ℕ Unit)
  | [] => pure (.Continue ())
  | block :: rest => do
    let height := block.claimedHeight
    let prevTip ← perform .getPrevTip
    assert (height = prevTip.height + 1) "assertion `left == right` failed"
    match ← scanBlock U view block shutdownHeight with
    | .Break boundary => pure (.Break boundary)
    | .Continue () => do
      db (.updateChainTip height)
      perform (.setPrevTip ⟨height, block.header.hash⟩)
      applyBlocks view shutdownHeight rest

/-- The blocks above `prev_tip`, applied until the stream ends
    (lines 980–1013). -/
def applyToTip (view : ChainView) (shutdownHeight : Option ℕ) : SyncM (ControlFlow ℕ Unit) := do
  let prevTip ← perform .getPrevTip
  let stream ← chain (.streamBlocksToTip view (prevTip.height + 1))
  match ← applyBlocks U view shutdownHeight stream.blocks with
  | .Break boundary => pure (.Break boundary)
  | .Continue () => do
    endOfStream stream.failure
    pure (.Continue ())

/-- The rewind after a reorg (lines 958–978). -/
def rewindToForkPoint (forkPoint prevTip : ChainBlock) : SyncM Unit :=
  if forkPoint ≠ prevTip then do
    assert (forkPoint.height < prevTip.height)
      "assertion failed: fork_point.height() < prev_tip.height()"
    let resumeFrom ← truncateToWalletCheckpoint forkPoint.height
    perform (.status (.beginRecovery resumeFrom.height))
    perform (.setPrevTip resumeFrom)
  else pure ()

/-- The new tip is made known to the other tasks (lines 940–952). -/
def announceTip (currentTip : ChainBlock) : SyncM Unit := do
  perform (.updateBoundary currentTip.height)
  perform .notifyOne
  perform (.status (.setTip currentTip.height))

/-- The iteration after a change of the tip (lines 934–1014). -/
def followTip (view : ChainView) (currentTip : ChainBlock) (shutdownHeight : Option ℕ) :
    SyncM (ControlFlow ℕ Unit) := do
  announceTip currentTip
  let prevTip ← perform .getPrevTip
  let forkPoint ← locateForkPoint view prevTip
  assert (forkPoint.height ≤ currentTip.height)
    "assertion failed: fork_point.height() <= current_tip.height()"
  rewindToForkPoint forkPoint prevTip
  applyToTip U view shutdownHeight

/-- The loop over the mempool stream (lines 1045–1051). -/
def storeMempool : List Transaction → SyncM Unit
  | [] => pure ()
  | tx :: rest => do
    db (.decryptAndStoreTransaction tx none)
    storeMempool rest

/-- The end of an iteration that has reached the tip (lines 1025–1075). -/
def reachTip (view : ChainView) (tipChanged : Bool) : SyncM Unit := do
  let fullyScanned ← db .blockFullyScanned
  perform (.status (.setFullySynced (fullyScanned.map (·.blockHeight))))
  perform (.status .markTipReached)
  perform (.status .endRecovery)
  match ← chain (.getMempoolStream view) with
  | some mempoolStream => storeMempool mempoolStream
  | none =>
    if tipChanged then do
      perform .yieldNow
      perform (.sleep 500)
    else perform (.sleep 500)

/-- The iteration once the blocks up to the tip are applied
    (lines 1016–1077). -/
def finishIteration (view : ChainView) (currentTip : ChainBlock) (tipChanged : Bool)
    (shutdownHeight : Option ℕ) : SyncM (ControlFlow ℕ Unit) :=
  match shutdownHeight.filter fun h => decide (h ≤ currentTip.height) with
  | some boundary => pure (.Break boundary)
  | none => do
    reachTip view tipChanged
    pure (.Continue ())

/-- The iteration once a view has been captured (lines 931–1077). -/
def iterationOn (view : ChainView) (shutdownHeight : Option ℕ) : SyncM (ControlFlow ℕ Unit) := do
  let currentTip ← chain (.tip view)
  let prevTip ← perform .getPrevTip
  if currentTip ≠ prevTip then
    match ← followTip U view currentTip shutdownHeight with
    | .Break boundary => pure (.Break boundary)
    | .Continue () => finishIteration view currentTip true shutdownHeight
  else finishIteration view currentTip false shutdownHeight

/-- `steady_state_iteration` (lines 919–1078). -/
def steadyStateIteration (shutdownHeight : Option ℕ) : SyncM (ControlFlow ℕ Unit) := do
  let view ← chain .snapshot
  iterationOn U view shutdownHeight

/-- The block conflict arm (lines 861–887). -/
def resolveConflict (height : ℕ) : SyncM Unit := do
  let rewindHeight := height - 1
  let hash ← db (.getBlockHash rewindHeight)
  let hash ← okOr (.WalletDivergedBelowBirthday rewindHeight) hash
  let view ← chain .snapshot
  let forkPoint ← locateForkPoint view ⟨rewindHeight, hash⟩
  let resumeFrom ← truncateToWalletCheckpoint forkPoint.height
  perform (.status (.beginRecovery resumeFrom.height))
  perform (.setPrevTip resumeFrom)

/-- The tree divergence arm (lines 895–908). -/
def resolveDivergence (recovery : TreeRecovery) : SyncM TreeRecovery := do
  let prevTip ← perform .getPrevTip
  let (resumeFrom, recovery) ← recoverFromTreeDivergence prevTip recovery
  perform (.status (.beginRecovery resumeFrom.height))
  perform (.setPrevTip resumeFrom)
  pure recovery

/-- The `match` on the outcome of an iteration (lines 819–911). -/
def handleOutcome (recovery : TreeRecovery) :
    Except SyncError (ControlFlow ℕ Unit) → SyncM (ControlFlow Unit TreeRecovery)
  | .ok (.Continue ()) => do
    let prevTip ← perform .getPrevTip
    pure (.Continue (recovery.noteProgress prevTip.height).1)
  | .ok (.Break _) => pure (.Break ())
  | .error error =>
    if isRetryable error then do
      perform (.sleep reorgRetryBackoff)
      pure (.Continue recovery)
    else
      match error with
      | .Other (.BlockConflict height) => do
        resolveConflict height
        pure (.Continue recovery)
      | error =>
        if isTreeDivergence error then do
          let recovery ← resolveDivergence recovery
          pure (.Continue recovery)
        else throw error

/-- One turn of the loop of `steady_state`. -/
def steadyTurn (shutdownHeight : Option ℕ) (recovery : TreeRecovery) :
    SyncM (ControlFlow Unit TreeRecovery) := do
  let outcome ← attempt (steadyStateIteration U shutdownHeight)
  handleOutcome recovery outcome

/-- `steady_state` (lines 786–913), for `n` turns of its loop. -/
def steadyState (prevTip : ChainBlock) (shutdownHeight : Option ℕ) (n : ℕ) :
    SyncM (ControlFlow Unit TreeRecovery) := do
  perform (.setPrevTip prevTip)
  perform .notifyOne
  turns (steadyTurn U shutdownHeight) n default

end programs

/-! ## The arms of the outcome -/

/-- An error that no arm recovers from. -/
structure SyncError.Fatal (e : SyncError) : Prop where
  retryable : isRetryable e = false
  noConflict : e.NoConflict
  treeDivergence : isTreeDivergence e = false

/-- Each error belongs to one arm of `handleOutcome`. -/
theorem SyncError.arms (e : SyncError) :
    isRetryable e = true ∨ (∃ height, e = .Other (.BlockConflict height)) ∨
      (e.NoConflict ∧ isRetryable e = false ∧ isTreeDivergence e = true) ∨ e.Fatal := by
  by_cases hr : isRetryable e = true
  · exact Or.inl hr
  · rw [Bool.not_eq_true] at hr
    by_cases hc : ∃ height, e = .Other (.BlockConflict height)
    · exact Or.inr (Or.inl hc)
    · have hn : e.NoConflict := fun height h => hc ⟨height, h⟩
      by_cases ht : isTreeDivergence e = true
      · exact Or.inr (Or.inr (Or.inl ⟨hn, hr, ht⟩))
      · rw [Bool.not_eq_true] at ht
        exact Or.inr (Or.inr (Or.inr ⟨hr, hn, ht⟩))

section arms

variable (recovery : TreeRecovery)

theorem handleOutcome_retryable {e : SyncError} (h : isRetryable e = true) :
    handleOutcome recovery (.error e) =
      perform (.sleep reorgRetryBackoff) >>= fun _ => pure (.Continue recovery) := by
  simp only [handleOutcome, h, if_true]

theorem handleOutcome_conflict (height : ℕ) :
    handleOutcome recovery (.error (.Other (.BlockConflict height))) =
      resolveConflict height >>= fun _ => pure (.Continue recovery) := rfl

theorem handleOutcome_divergence {e : SyncError} (hn : e.NoConflict)
    (hr : isRetryable e = false) (ht : isTreeDivergence e = true) :
    handleOutcome recovery (.error e) =
      resolveDivergence recovery >>= fun recovery => pure (.Continue recovery) := by
  simp only [handleOutcome, hr, Bool.false_eq_true, if_false]
  split
  · rename_i height
    exact absurd rfl (hn height)
  · rw [if_pos ht]

theorem handleOutcome_fatal {e : SyncError} (h : e.Fatal) :
    handleOutcome recovery (.error e) = throw e := by
  simp only [handleOutcome, h.retryable, Bool.false_eq_true, if_false]
  split
  · rename_i height
    exact absurd rfl (h.noConflict height)
  · rw [if_neg (by rw [h.treeDivergence]; simp)]

end arms

/-! ## Specifications -/

theorem wpE_announceTip {T : BlockTree BlockHash} {ok : SyncOp → SyncWorld → Prop}
    {w : SyncWorld} (hok : ∀ o w, o.Quiet → ok o w) (currentTip : ChainBlock)
    {Q : Except SyncError Unit → SyncWorld → Prop}
    (hQ : ∀ w', w'.db = w.db → w'.prevTip = w.prevTip → Q (.ok ()) w') :
    wpE (contract T) Eq ok Q (announceTip currentTip) w := by
  unfold announceTip
  rw [wpE_bind]
  refine wpE_signal trivial (hok _ _ trivial) fun _ w₁ hd₁ hp₁ => ?_
  rw [andThen_ok, wpE_bind]
  refine wpE_signal trivial (hok _ _ trivial) fun _ w₂ hd₂ hp₂ => ?_
  rw [andThen_ok]
  refine wpE_signal trivial (hok _ _ trivial) fun _ w₃ hd₃ hp₃ => ?_
  exact hQ w₃ (by rw [hd₃, hd₂, hd₁]) (by rw [hp₃, hp₂, hp₁])

theorem wpE_storeMempool {T : BlockTree BlockHash} {ok : SyncOp → SyncWorld → Prop}
    {w : SyncWorld} (hok : ∀ o w, o.Quiet → ok o w) (txs : List Transaction)
    {Q : Except SyncError Unit → SyncWorld → Prop} (hQ : Q (.ok ()) w)
    (hE : ∀ e, e.NoConflict → Q (.error e) w) :
    wpE (contract T) Eq ok Q (storeMempool txs) w := by
  induction txs with
  | nil => exact hQ
  | cons tx rest ih =>
    rw [storeMempool, wpE_bind]
    refine wpE_db_alone (hok _ _ trivial) ?_ ?_
    · rintro _ db' rfl
      exact ih
    · intro e he
      exact hE _ (noConflict_of_fails (by simp) he)

/-- The end of an iteration leaves the recorded blocks and `prev_tip`
    alone. -/
theorem wpE_reachTip {T : BlockTree BlockHash} {ok : SyncOp → SyncWorld → Prop} {w : SyncWorld}
    (hok : ∀ o w, o.Quiet → ok o w) (view : ChainView) (tipChanged : Bool)
    {Q : Except SyncError Unit → SyncWorld → Prop}
    (hmark : ∀ w', w'.db = w.db → w'.prevTip = w.prevTip → ok (.status .markTipReached) w')
    (hQ : ∀ w', w'.db = w.db → w'.prevTip = w.prevTip → Q (.ok ()) w')
    (hE : ∀ e w', w'.db = w.db → w'.prevTip = w.prevTip → e.NoConflict → Q (.error e) w') :
    wpE (contract T) Eq ok Q (reachTip view tipChanged) w := by
  unfold reachTip
  rw [wpE_bind]
  refine wpE_db_alone (hok _ _ trivial) ?_ ?_
  · rintro fullyScanned db' rfl
    rw [andThen_ok, wpE_bind]
    refine wpE_signal trivial (hok _ _ trivial) fun _ w₁ hd₁ hp₁ => ?_
    rw [andThen_ok, wpE_bind]
    refine wpE_signal trivial (hmark w₁ hd₁ hp₁) fun _ w₂ hd₂ hp₂ => ?_
    rw [andThen_ok, wpE_bind]
    refine wpE_signal trivial (hok _ _ trivial) fun _ w₃ hd₃ hp₃ => ?_
    have hd : w₃.db = w.db := by rw [hd₃, hd₂, hd₁]
    have hp : w₃.prevTip = w.prevTip := by rw [hp₃, hp₂, hp₁]
    rw [andThen_ok, wpE_bind]
    refine wpE_chain_alone (hok _ _ trivial) ?_ ?_
    · intro stream _
      rw [andThen_ok]
      cases stream with
      | some txs => exact wpE_storeMempool hok txs (hQ w₃ hd hp) fun e he => hE e w₃ hd hp he
      | none =>
        simp only
        cases tipChanged with
        | true =>
          rw [if_pos rfl, wpE_bind]
          refine wpE_signal trivial (hok _ _ trivial) fun _ w₄ hd₄ hp₄ => ?_
          rw [andThen_ok]
          refine wpE_signal trivial (hok _ _ trivial) fun _ w₅ hd₅ hp₅ => ?_
          exact hQ w₅ (by rw [hd₅, hd₄, hd]) (by rw [hp₅, hp₄, hp])
        | false =>
          rw [if_neg (by simp)]
          refine wpE_signal trivial (hok _ _ trivial) fun _ w₄ hd₄ hp₄ => ?_
          exact hQ w₄ (by rw [hd₄, hd]) (by rw [hp₄, hp])
    · intro e
      exact hE _ w₃ hd hp (SyncError.noConflict_chain e)
  · intro e he
    exact hE _ w rfl rfl (noConflict_of_fails (by simp) he)

theorem wpE_finishIteration {T : BlockTree BlockHash} {ok : SyncOp → SyncWorld → Prop}
    {w : SyncWorld} (hok : ∀ o w, o.Quiet → ok o w) (view : ChainView) (currentTip : ChainBlock)
    (tipChanged : Bool) (shutdownHeight : Option ℕ)
    {Q : Except SyncError (ControlFlow ℕ Unit) → SyncWorld → Prop}
    (hmark : ∀ w', w'.db = w.db → w'.prevTip = w.prevTip → ok (.status .markTipReached) w')
    (hQ : ∀ w', w'.db = w.db → w'.prevTip = w.prevTip → Q (.ok (.Continue ())) w')
    (hB : ∀ boundary, Q (.ok (.Break boundary)) w)
    (hE : ∀ e w', w'.db = w.db → w'.prevTip = w.prevTip → e.NoConflict → Q (.error e) w') :
    wpE (contract T) Eq ok Q (finishIteration view currentTip tipChanged shutdownHeight) w := by
  unfold finishIteration
  split
  · exact hB _
  · rw [wpE_bind]
    exact wpE_reachTip hok view tipChanged hmark hQ hE

/-! ## Bounds -/

section within

variable {B : Bounds syncSig SyncError}

theorem within_announceTip (hboundary : ∀ height, B.ops (.updateBoundary height))
    (hnotify : B.ops .notifyOne) (htip : ∀ height, B.ops (.status (.setTip height)))
    (currentTip : ChainBlock) : Within B (announceTip currentTip) := by
  unfold announceTip
  refine (within_perform (hboundary _)).bind fun _ => ?_
  exact (within_perform hnotify).bind fun _ => within_perform (htip _)

theorem within_reachTip (hsignals : ∀ o : SyncOp, o.Signals → B.ops o) (hB : Lookups B)
    (view : ChainView) (tipChanged : Bool) (hmempool : B.ops (.chain (.getMempoolStream view)))
    (hstore : ∀ tx, B.ops (.db (.decryptAndStoreTransaction tx none))) :
    Within B (reachTip view tipChanged) := by
  have hsignal : ∀ o : SyncOp, o.Signals → Within B (perform o) := fun o ho =>
    within_perform (hsignals o ho)
  have hloop : ∀ txs, Within B (storeMempool txs) := by
    intro txs
    induction txs with
    | nil => exact Within.pure ()
    | cons tx rest ih =>
      rw [storeMempool]
      exact (within_db (hstore tx) fun _ => hB.otherError _ rfl).bind fun _ => ih
  unfold reachTip
  refine (hB.db (by trivial)).bind fun fullyScanned => ?_
  refine (hsignal _ (by trivial)).bind fun _ => (hsignal _ (by trivial)).bind fun _ => ?_
  refine (hsignal _ (by trivial)).bind fun _ => ?_
  refine (within_chain hmempool (hB.chainError _)).bind fun stream => ?_
  split
  · exact hloop _
  · split
    · exact (hsignal _ (by trivial)).bind fun _ => hsignal _ (by trivial)
    · exact hsignal _ (by trivial)

/-- Bounds that allow handling the outcome of an iteration. -/
structure Handling (B : Bounds syncSig SyncError) : Prop extends Lookups B where
  snapshot : B.ops (.chain .snapshot)
  truncates : ∀ height, B.ops (.db (.truncateToHeight height))
  getPrevTip : B.ops .getPrevTip
  setPrevTip : ∀ block, B.ops (.setPrevTip block)
  begins : ∀ height, B.ops (.status (.beginRecovery height))
  pause : ∀ millis, B.ops (.sleep millis)

theorem within_resume (hB : Handling B) (resumeFrom : ChainBlock) :
    Within B (perform (.status (.beginRecovery resumeFrom.height)) >>= fun _ =>
      perform (.setPrevTip resumeFrom)) :=
  (within_perform (hB.begins _)).bind fun _ => within_perform (hB.setPrevTip _)

theorem within_resolveConflict (hB : Handling B) (height : ℕ) :
    Within B (resolveConflict height) := by
  unfold resolveConflict
  refine (hB.db (by trivial)).bind fun hash => ?_
  refine (within_okOr (hB.otherError _ rfl) hash).bind fun hash => ?_
  refine (within_chain hB.snapshot (hB.chainError _)).bind fun view => ?_
  refine (within_locateForkPoint hB.toLookups view _).bind fun forkPoint => ?_
  refine (within_truncateToWalletCheckpoint hB.toLookups hB.truncates _).bind fun resumeFrom => ?_
  exact within_resume hB resumeFrom

theorem within_resolveDivergence (hB : Handling B) (recovery : TreeRecovery) :
    Within B (resolveDivergence recovery) := by
  unfold resolveDivergence
  refine (within_perform hB.getPrevTip).bind fun prevTip => ?_
  refine Within.bind ?_ fun r => ?_
  · unfold recoverFromTreeDivergence
    refine (hB.db (by trivial)).bind fun birthday => ?_
    refine (within_okOr (hB.otherError _ rfl) _).bind fun target => ?_
    refine (within_truncateToWalletCheckpoint hB.toLookups hB.truncates _).bind
      fun resumeFrom => ?_
    split
    · exact Within.throw (hB.otherError _ rfl)
    · exact Within.pure _
  · refine (within_perform (hB.begins _)).bind fun _ => ?_
    exact (within_perform (hB.setPrevTip _)).bind fun _ => Within.pure _

theorem within_handleOutcome (hB : Handling B) (recovery : TreeRecovery)
    (outcome : Except SyncError (ControlFlow ℕ Unit)) :
    Within B (handleOutcome recovery outcome) := by
  match outcome with
  | .ok (.Continue ()) =>
    exact (within_perform hB.getPrevTip).bind fun _ => Within.pure _
  | .ok (.Break _) => exact Within.pure _
  | .error e =>
    rcases e.arms with hr | ⟨height, rfl⟩ | ⟨hn, hr, ht⟩ | hf
    · rw [handleOutcome_retryable recovery hr]
      exact (within_perform (hB.pause _)).bind fun _ => Within.pure _
    · rw [handleOutcome_conflict]
      exact (within_resolveConflict hB height).bind fun _ => Within.pure _
    · rw [handleOutcome_divergence recovery hn hr ht]
      exact (within_resolveDivergence hB recovery).bind fun _ => Within.pure _
    · rw [handleOutcome_fatal recovery hf]
      exact Within.throw (hB.otherError _ hf.retryable)

/-- Bounds that allow applying blocks after a rewind. -/
structure Applying (B : Bounds syncSig SyncError) : Prop extends Scanning B, Handling B where
  panics : ∀ message, B.ops (.panic message)
  chainTips : ∀ height, B.ops (.db (.updateChainTip height))
  tipStreamError : ∀ view start (stream : BlockStream) e,
    B.answers (.chain (.streamBlocksToTip view start)) (.ok stream) → stream.failure = some e →
      B.errors (.Chain e)

section applying

variable (hB : Applying B)

include hB

theorem within_assert (c : Prop) [Decidable c] (message : String) :
    Within B (assert c message) := by
  unfold assert
  split
  · exact Within.pure ()
  · exact (within_perform (hB.panics message)).bind fun a => a.elim

theorem within_rewindToForkPoint (forkPoint prevTip : ChainBlock) :
    Within B (rewindToForkPoint forkPoint prevTip) := by
  unfold rewindToForkPoint
  split
  · refine (within_assert hB _ _).bind fun _ => ?_
    refine (within_truncateToWalletCheckpoint hB.toLookups hB.truncates _).bind fun resumeFrom => ?_
    exact within_resume hB.toHandling resumeFrom
  · exact Within.pure ()

variable (U : Upstream) (view : ChainView) (shutdownHeight : Option ℕ)

theorem within_applyBlocks (blocks : List Block) :
    Within B (applyBlocks U view shutdownHeight blocks) := by
  induction blocks with
  | nil => exact Within.pure _
  | cons block rest ih =>
    rw [applyBlocks]
    refine (within_perform hB.getPrevTip).bind fun prevTip => ?_
    refine (within_assert hB _ _).bind fun _ => ?_
    refine (within_scanBlock U hB.toScanning view block shutdownHeight).bind fun flow => ?_
    cases flow with
    | Break boundary => exact Within.pure _
    | Continue u =>
      refine (within_db (hB.chainTips _) fun _ => hB.otherError _ rfl).bind fun _ => ?_
      exact (within_perform (hB.setPrevTip _)).bind fun _ => ih

theorem within_applyToTip : Within B (applyToTip U view shutdownHeight) := by
  unfold applyToTip
  refine (within_perform hB.getPrevTip).bind fun prevTip => ?_
  refine within_chain_bind (hB.reads _ (by trivial)) (hB.chainError _) fun stream hstream => ?_
  refine (within_applyBlocks hB U view shutdownHeight _).bind fun flow => ?_
  cases flow with
  | Break boundary => exact Within.pure _
  | Continue u =>
    refine Within.bind ?_ fun _ => Within.pure _
    unfold endOfStream
    cases hf : stream.failure with
    | none => exact Within.pure ()
    | some e => exact Within.throw (hB.tipStreamError view _ stream e hstream hf)

/-- What follows the announcement of a changed tip. -/
theorem within_afterAnnounce (currentTip : ChainBlock) :
    Within B (do
      let prevTip ← perform .getPrevTip
      let forkPoint ← locateForkPoint view prevTip
      assert (forkPoint.height ≤ currentTip.height)
        "assertion failed: fork_point.height() <= current_tip.height()"
      rewindToForkPoint forkPoint prevTip
      applyToTip U view shutdownHeight) := by
  refine (within_perform hB.getPrevTip).bind fun prevTip => ?_
  refine (within_locateForkPoint hB.toLookups view prevTip).bind fun forkPoint => ?_
  refine (within_assert hB _ _).bind fun _ => ?_
  exact (within_rewindToForkPoint hB forkPoint prevTip).bind fun _ =>
    within_applyToTip hB U view shutdownHeight

end applying

end within

/-! ## Turns -/

/-- The loop state of `steady_state` and the world. -/
structure SteadyHead where
  recovery : TreeRecovery
  world : SyncWorld

/-- One turn of the loop that does not end the task. -/
def SteadyTurn (U : Upstream) (shutdownHeight : Option ℕ) (D : Contract syncSig SyncWorld)
    (D' : Except SyncError (ControlFlow ℕ Unit) → Contract syncSig SyncWorld)
    (s s' : SteadyHead) : Prop :=
  ∃ τ outcome w τ', Run D (steadyStateIteration U shutdownHeight).run s.world τ outcome w ∧
    Run (D' outcome) (handleOutcome s.recovery outcome).run w τ' (.ok (.Continue s'.recovery))
      s'.world

/-- Any number of turns. -/
def SteadyTurns (U : Upstream) (shutdownHeight : Option ℕ) (D : Contract syncSig SyncWorld)
    (D' : Except SyncError (ControlFlow ℕ Unit) → Contract syncSig SyncWorld) :
    SteadyHead → SteadyHead → Prop :=
  Relation.ReflTransGen (SteadyTurn U shutdownHeight D D')

/-- A turn executed on a script: the iteration with the handler `h`, its
    outcome with `h'`. -/
theorem steadyTurn_exec (U : Upstream) (shutdownHeight : Option ℕ)
    {D : Contract syncSig SyncWorld}
    {D' : Except SyncError (ControlFlow ℕ Unit) → Contract syncSig SyncWorld}
    {h h' : Handler syncSig Replay} (outcome : Except SyncError (ControlFlow ℕ Unit))
    (hD : h.Keeps D Replay.world) (hD' : h'.Keeps (D' outcome) Replay.world)
    (recovery recovery' : TreeRecovery) (n : ℕ) (σ : Replay)
    (h₁ : (exec h n (steadyStateIteration U shutdownHeight).run σ).2.1.result = some outcome)
    (h₂ : (exec h' n (handleOutcome recovery outcome).run
      (exec h n (steadyStateIteration U shutdownHeight).run σ).2.2).2.1.result =
      some (.ok (.Continue recovery'))) :
    SteadyTurn U shutdownHeight D D' ⟨recovery, σ.world⟩ ⟨recovery',
      (exec h' n (handleOutcome recovery outcome).run
        (exec h n (steadyStateIteration U shutdownHeight).run σ).2.2).2.2.world⟩ :=
  ⟨_, outcome, _, _, exec_run hD h₁, exec_run hD' h₂⟩

/-- A turn of the program is a `SteadyTurn`. -/
theorem steadyTurn_run {U : Upstream} {shutdownHeight : Option ℕ}
    {C : Contract syncSig SyncWorld} {s s' : SteadyHead} {τ : List (Event syncSig)}
    (h : Run C (steadyTurn U shutdownHeight s.recovery).run s.world τ
      (.ok (.Continue s'.recovery)) s'.world) :
    SteadyTurn U shutdownHeight C (fun _ => C) s s' := by
  unfold steadyTurn at h
  rw [ExceptT.run_bind, run_bind] at h
  obtain ⟨τ₁, r, w, τ₂, h₁, h₂, -⟩ := h
  obtain ⟨outcome, rfl, hrun⟩ := run_attempt.mp h₁
  exact ⟨τ₁, outcome, w, τ₂, hrun, h₂⟩

/-- The loop of `steady_state` is a sequence of `SteadyTurn`s. -/
theorem steadyTurns_run {U : Upstream} {shutdownHeight : Option ℕ}
    {C : Contract syncSig SyncWorld} {n : ℕ} {s s' : SteadyHead} {τ : List (Event syncSig)}
    (h : Run C (turns (steadyTurn U shutdownHeight) n s.recovery).run s.world τ
      (.ok (.Continue s'.recovery)) s'.world) :
    SteadyTurns U shutdownHeight C (fun _ => C) s s' := by
  induction n generalizing s τ with
  | zero =>
    obtain ⟨-, hr, hw⟩ := run_pure.mp h
    have hs : s' = s := by
      cases s
      cases s'
      cases hr
      cases hw
      rfl
    rw [hs]
    exact .refl
  | succ n ih =>
    rw [turns, ExceptT.run_bind, run_bind] at h
    obtain ⟨τ₁, r, w, τ₂, h₁, h₂, -⟩ := h
    cases r with
    | error e => cases (run_pure.mp h₂).2.1
    | ok flow =>
      cases flow with
      | Break b => cases (run_pure.mp h₂).2.1
      | Continue recovery =>
        have hturn : SteadyTurn U shutdownHeight C (fun _ => C) s ⟨recovery, w⟩ :=
          steadyTurn_run h₁
        have hrest : SteadyTurns U shutdownHeight C (fun _ => C) ⟨recovery, w⟩ s' := ih h₂
        exact .head hturn hrest

end Zallet.Sync
