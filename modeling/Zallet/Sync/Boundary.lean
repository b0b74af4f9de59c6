import Zallet.Effect.Pool
import Zallet.Sync.Initialize
import Zallet.Sync.RecoverHistory
import Zallet.Sync.StaleViews

/-!
# The consensus divergence boundary

From `shutdown_height` on, the rules this build knows may differ from the
chain's. `initialize`, `steady_state` and `recover_history` enforce the
boundary separately: `scan_blocks` clamps its range, `scan_block` and the end
of an iteration compare heights.

* `boundary_respected`: in every interleaving of the three, no block at or
  above the boundary is stored and no mempool is read there, and a range that
  straddles the boundary is scanned up to it before it is reported.
-/

namespace Zallet.Sync

open Zallet.Effect Zallet.Common Zallet.Chain Zallet.Wallet

/-- Nothing at or above the boundary is interpreted. -/
def BelowBoundary (shutdownHeight : Option ℕ) : SyncOp → SyncWorld → Prop
  | .db (.putBlocks _ blocks), _ =>
    ∀ b ∈ blocks, ∀ boundary, shutdownHeight = some boundary → b.height < boundary
  | .chain (.getMempoolStream view), _ =>
    ∀ boundary, shutdownHeight = some boundary → view.tip.height < boundary
  | _, _ => True

/-- `p` respects the boundary among any other tasks. -/
def Respects (T : BlockTree BlockHash) (shutdownHeight : Option ℕ) {α : Type} (p : SyncM α) :
    Prop :=
  ∀ w, wpE (contract T) (fun _ _ => True) (BelowBoundary shutdownHeight) (fun _ _ => True) p w

/-- The operations that neither store blocks nor read the mempool. -/
def noScan : Bounds syncSig SyncError where
  ops
    | .db (.putBlocks _ _) => False
    | .chain (.getMempoolStream _) => False
    | _ => True
  answers _ _ := True
  errors _ := True

theorem handling_noScan : Handling noScan where
  reads o ho := by
    unfold noScan
    simp only
    split
    · exact ho
    · exact ho
    · trivial
  chainError _ _ _ := trivial
  otherError _ _ := trivial
  snapshot := trivial
  truncates _ := trivial
  getPrevTip := trivial
  setPrevTip _ := trivial
  begins _ := trivial
  pause _ := trivial

section respects

variable {T : BlockTree BlockHash} {shutdownHeight : Option ℕ} {α β : Type}

theorem belowBoundary_of_noScan {o : SyncOp} (ho : noScan.ops o) (w : SyncWorld) :
    BelowBoundary shutdownHeight o w := by
  fun_cases BelowBoundary shutdownHeight o w with
  | case1 => exact ho.elim
  | case2 => exact ho.elim
  | case3 => trivial

theorem reading_belowBoundary :
    Reading (fun _ _ => True) (BelowBoundary shutdownHeight) fun _ => True where
  stable _ _ _ _ := trivial
  allowed o w ho _ := belowBoundary_of_noScan (handling_noScan.reads o ho) w

theorem Respects.of_within {p : SyncM α} (hp : Within noScan p) : Respects T shutdownHeight p := by
  intro w
  refine wpE_post (wpE_of_within (I := fun _ => True) hp trivial (fun _ _ _ _ => trivial) ?_)
    fun _ _ _ => trivial
  exact fun o w₁ ho _ => ⟨belowBoundary_of_noScan ho w₁, fun _ _ _ => ⟨trivial, trivial⟩⟩

theorem Respects.bind {p : SyncM α} {f : α → SyncM β} (hp : Respects T shutdownHeight p)
    (hf : ∀ a, Respects T shutdownHeight (f a)) : Respects T shutdownHeight (p >>= f) := by
  intro w
  rw [wpE_bind]
  refine wpE_post (hp w) fun r w' _ => ?_
  cases r with
  | ok a => exact hf a w'
  | error e => trivial

theorem Respects.attempt {p : SyncM α} (hp : Respects T shutdownHeight p) :
    Respects T shutdownHeight (attempt p) := by
  intro w
  rw [wpE_attempt]
  exact wpE_post (hp w) fun _ _ _ => trivial

theorem Respects.turns {γ : Type} {body : γ → SyncM (ControlFlow β γ)}
    (hbody : ∀ s, Respects T shutdownHeight (body s)) (n : ℕ) (s : γ) :
    Respects T shutdownHeight (turns body n s) := by
  intro w
  refine wpE_post (wpE_turns (I := fun _ _ => True) (Q := fun _ _ => True) ?_ n s w trivial)
    fun _ _ _ => trivial
  intro s w _
  refine wpE_post (hbody s w) fun r _ _ => ?_
  match r with
  | .ok (.Continue _) => trivial
  | .ok (.Break _) => trivial
  | .error _ => trivial

theorem respects_perform {o : SyncOp} (ho : noScan.ops o) :
    Respects T shutdownHeight (perform o) :=
  .of_within (within_perform ho)

theorem respects_chain {o : ChainOp} (ho : noScan.ops (.chain o)) :
    Respects T shutdownHeight (chain o) :=
  .of_within (within_chain ho fun _ _ => trivial)

theorem respects_db {o : DbOp} (ho : noScan.ops (.db o)) : Respects T shutdownHeight (db o) :=
  .of_within (within_db ho fun _ => trivial)

theorem respects_pure (a : α) : Respects T shutdownHeight (pure a : SyncM α) := fun _ => trivial

/-! ## The two scans -/

variable (U : Upstream)

/-- `scan_block` stores its block only below the boundary. -/
theorem respects_scanBlock (view : ChainView) (block : Block) :
    Respects T shutdownHeight (scanBlock U view block shutdownHeight) := by
  intro w
  refine wpE_scanBlock U reading_belowBoundary view block shutdownHeight trivial
    (fun _ _ _ => trivial) ?_ fun _ _ _ _ => trivial
  intro fromState scanned w' _ hlt hheight _
  refine ⟨fun b hb boundary hs => ?_, fun r w₁ _ => ?_⟩
  · rw [List.mem_singleton] at hb
    rw [hb, hheight]
    exact hlt boundary hs
  · cases r <;> trivial

/-- The blocks `scan_blocks` stores are below the clamped end of its range. -/
theorem respects_scanBlocks (view : ChainView) (scanRange : ScanRange) :
    Respects T shutdownHeight (scanBlocks U view scanRange shutdownHeight) := by
  intro w
  refine wpE_scanBlocks U reading_belowBoundary view scanRange shutdownHeight trivial
    (fun _ _ => trivial) (fun _ _ => trivial) ?_ fun _ _ _ _ => trivial
  intro boundary fromState scanned w' _ hclamp hids
  refine ⟨fun b hb h hs => ?_, fun r w₁ _ => ?_⟩
  · have hmem : (b.height, b.hash) ∈ scanned.map fun s => (s.height, s.hash) :=
      List.mem_map_of_mem (f := fun s : ScannedBlock => (s.height, s.hash)) hb
    rw [hids, ChainView.mem_ids] at hmem
    have hspec := clampToBoundary_spec scanRange.blockRange shutdownHeight
    rw [hclamp, hs] at hspec
    cases boundary with
    | none =>
      have := hspec.2 h rfl
      have := hmem.2.1
      simp only [Option.getD_none] at this
      omega
    | some stop =>
      have hstop : h = stop := Option.some.inj hspec.1
      have := hmem.2.1
      simp only [Option.getD_some] at this
      omega
  · cases r <;> trivial

/-- A range that straddles the boundary is stored up to the boundary before
    `Break` is reported. -/
theorem run_scanBlocks_straddling {view : ChainView} {scanRange : ScanRange} {boundary stop : ℕ}
    (hstart : scanRange.blockRange.start < boundary) (hstop : boundary < scanRange.blockRange.stop)
    {w w' : SyncWorld} {τ : List (Event syncSig)}
    (h : Run (amongOthers T) (scanBlocks U view scanRange (some boundary)).run w τ
      (.ok (.Break stop)) w') :
    stop = boundary ∧ ∀ k, scanRange.blockRange.start ≤ k → k < boundary → k ≤ view.tip.height →
      w'.db.blocks k = some (view.hashAt T k) := by
  have hclamp : clampToBoundary scanRange.blockRange (some boundary) = .Continue (some boundary) := by
    have hmin : min boundary scanRange.blockRange.stop = boundary := by omega
    have hle : ¬ boundary ≤ scanRange.blockRange.start := by omega
    simp [clampToBoundary, hmin, hle, hstop]
  have hwp : wpE (contract T) (fun _ _ => True) (BelowBoundary none)
      (fun r w' => r = .ok (.Break stop) → stop = boundary ∧
        ∀ k, scanRange.blockRange.start ≤ k → k < boundary → k ≤ view.tip.height →
          w'.db.blocks k = some (view.hashAt T k))
      (scanBlocks U view scanRange (some boundary)) w := by
    refine wpE_scanBlocks U reading_belowBoundary view scanRange _ trivial ?_ ?_ ?_ ?_
    · intro stop' hbreak
      rw [hclamp] at hbreak
      cases hbreak
    · intro w' _ hr
      cases hr
    · intro boundary' fromState scanned w₁ _ hclamp' hids
      rw [hclamp] at hclamp'
      cases hclamp'
      refine ⟨fun b _ h hs => (by cases hs), ?_⟩
      rintro r w₂ ⟨d, ha, rfl⟩
      cases r with
      | error e => exact fun hr => by cases hr
      | ok u =>
        intro hr
        cases hr
        refine ⟨rfl, fun k hk₁ hk₂ hk₃ => ?_⟩
        obtain ⟨hconflict, checkpoints, rfl⟩ := ha
        -- the block at height k is one of those stored
        have hmem : (k, view.hashAt T k) ∈ scanned.map fun s => (s.height, s.hash) := by
          rw [hids, ChainView.mem_ids]
          exact ⟨hk₁, by simp only [Option.getD_some]; omega, rfl⟩
        obtain ⟨b, hb, heq⟩ := List.mem_map.mp hmem
        obtain ⟨rfl, hhash⟩ := Prod.mk.inj heq
        obtain ⟨hash, hrec⟩ := Option.isSome_iff_exists.mp
          (WalletDb.put_blocks_isSome w₁.db hb)
        show (w₁.db.put scanned).blocks b.height = _
        rw [hrec, ← hhash]
        rcases WalletDb.put_blocks_some hrec with hold | ⟨b', hb', hheight, rfl⟩
        · by_contra hne
          exact hconflict b hb ⟨hash, hold, fun h => hne (by rw [h])⟩
        · have hmem' : (b'.height, b'.hash) ∈ scanned.map fun s => (s.height, s.hash) :=
            List.mem_map_of_mem (f := fun s : ScannedBlock => (s.height, s.hash)) hb'
          rw [hids, ChainView.mem_ids] at hmem'
          rw [hmem'.2.2, hheight, hhash]
    · intro e w₁ _ _ hr
      cases hr
  exact wp_run_under hwp h rfl

/-! ## The tasks -/

theorem respects_initializeWallet (n : ℕ) :
    Respects T shutdownHeight (initializeWallet U shutdownHeight n) := by
  have htip : ∀ view height, Respects T shutdownHeight (scanTip U view height shutdownHeight) := by
    intro view height
    unfold scanTip
    refine (respects_chain (by trivial)).bind fun block => ?_
    refine (Respects.of_within (within_okOr (by trivial) block)).bind fun tipBlock => ?_
    exact respects_scanBlock U view tipBlock
  have hbest : ∀ view height,
      Respects T shutdownHeight (bestEffortTipScan U view height shutdownHeight) := by
    intro view height
    unfold bestEffortTipScan
    refine Respects.bind ?_ fun unrecorded => ?_
    · unfold tipUnrecorded
      split
      · exact (respects_db (by trivial)).bind fun _ => respects_pure _
      · exact respects_pure _
    · split
      · refine (htip view height).attempt.bind fun r => ?_
        split
        · exact respects_pure _
        · split
          · exact respects_pure _
          · exact fun _ => trivial
      · exact respects_pure _
  have hrange : ∀ view scanRange,
      Respects T shutdownHeight (scanInitialRange U view scanRange shutdownHeight) := by
    intro view scanRange
    unfold scanInitialRange
    refine (respects_scanBlocks U view scanRange).attempt.bind fun r => ?_
    split
    · exact respects_pure _
    · exact respects_pure _
    · split
      · exact (respects_perform (by trivial)).bind fun _ => respects_pure _
      · exact fun _ => trivial
  unfold initializeWallet
  refine (Respects.of_within (within_updateSubtreeRoots handling_noScan.toLookups
    fun _ _ _ => trivial)).bind fun _ => ?_
  refine Respects.bind (Respects.turns (fun u => ?_) n ()) fun flow => ?_
  · unfold initializeTurn
    refine (respects_chain (by trivial)).bind fun view => ?_
    unfold initializeOn
    refine (respects_chain (by trivial)).bind fun currentTip => ?_
    refine (respects_db (by trivial)).bind fun _ => (respects_perform (by trivial)).bind fun _ => ?_
    refine (respects_db (by trivial)).bind fun suggested => ?_
    split
    · exact (hbest view _).bind fun _ => respects_pure _
    · refine (hrange view _).bind fun flow => ?_
      split
      · exact respects_pure _
      · exact respects_pure _
  · split
    · exact respects_pure _
    · refine (respects_db (by trivial)).bind fun _ => (respects_perform (by trivial)).bind fun _ => ?_
      exact respects_pure _

theorem respects_recoverHistory (batchSize n : ℕ) :
    Respects T shutdownHeight (recoverHistory U batchSize shutdownHeight n) := by
  have hretries : ∀ scanRange backoffs,
      Respects T shutdownHeight (scanWithRetries U scanRange shutdownHeight backoffs) := by
    intro scanRange backoffs
    induction backoffs with
    | nil => exact (respects_chain (by trivial)).bind fun view => respects_scanBlocks U view scanRange
    | cons backoff rest ih =>
      rw [scanWithRetries]
      refine (respects_chain (by trivial)).bind fun view => ?_
      refine (respects_scanBlocks U view scanRange).attempt.bind fun r => ?_
      split
      · exact respects_pure _
      · split
        · exact (respects_perform (by trivial)).bind fun _ => ih
        · exact fun _ => trivial
  have hbatches : ∀ ranges, Respects T shutdownHeight (recoverBatches U shutdownHeight ranges) := by
    intro ranges
    induction ranges with
    | nil => exact respects_pure _
    | cons scanRange rest ih =>
      rw [recoverBatches]
      refine (hretries scanRange _).bind fun flow => ?_
      split
      · exact respects_pure _
      · refine (respects_db (by trivial)).bind fun _ => ?_
        refine (respects_perform (by trivial)).bind fun _ => ?_
        refine (respects_db (by trivial)).bind fun latestRanges => ?_
        split
        · exact respects_pure _
        · exact ih
  unfold recoverHistory
  refine (respects_perform (by trivial)).bind fun _ => Respects.turns (fun u => ?_) n ()
  unfold recoverTurn
  refine (respects_perform (by trivial)).bind fun _ => ?_
  refine (respects_db (by trivial)).bind fun suggested => ?_
  split
  · exact (respects_perform (by trivial)).bind fun _ => respects_pure _
  · exact (hbatches _).bind fun _ => respects_pure _

/-- The end of an iteration reads the mempool only below the boundary. -/
theorem respects_finishIteration (view : ChainView) (tipChanged : Bool) :
    Respects T shutdownHeight (finishIteration view view.tip tipChanged shutdownHeight) := by
  unfold finishIteration
  split
  · exact respects_pure _
  · rename_i hfilter
    have hlt : ∀ boundary, shutdownHeight = some boundary → view.tip.height < boundary := by
      intro boundary hs
      rw [hs] at hfilter
      simpa [Option.filter] using hfilter
    -- the only operation left to look at is the read of the mempool
    have hp : Within ⟨fun o => noScan.ops o ∨ o = .chain (.getMempoolStream view),
        fun _ _ => True, fun _ => True⟩ (reachTip view tipChanged) := by
      refine within_reachTip ?_ ?_ view tipChanged (Or.inr rfl) fun _ => Or.inl trivial
      · intro o ho
        cases o with
        | chain o => exact ho.elim
        | db o => exact ho.elim
        | _ => exact Or.inl trivial
      · exact ⟨fun o ho => Or.inl (handling_noScan.reads o ho), fun _ _ _ => trivial,
          fun _ _ => trivial⟩
    refine Respects.bind (fun w => ?_) fun _ => respects_pure _
    refine wpE_post (wpE_of_within (I := fun _ => True) hp trivial (fun _ _ _ _ => trivial) ?_)
      fun _ _ _ => trivial
    rintro o w₁ (ho | rfl) -
    · exact ⟨belowBoundary_of_noScan ho w₁, fun _ _ _ => ⟨trivial, trivial⟩⟩
    · exact ⟨hlt, fun _ _ _ => ⟨trivial, trivial⟩⟩

theorem respects_followTip (view : ChainView) (currentTip : ChainBlock) :
    Respects T shutdownHeight (followTip U view currentTip shutdownHeight) := by
  have hassert : ∀ (c : Prop) [Decidable c] message,
      Respects T shutdownHeight (assert c message) := fun c _ message w =>
    wpE_assert (fun _ => trivial) fun _ _ _ => trivial
  have happly : ∀ blocks, Respects T shutdownHeight (applyBlocks U view shutdownHeight blocks) := by
    intro blocks
    induction blocks with
    | nil => exact respects_pure _
    | cons block rest ih =>
      rw [applyBlocks]
      refine (respects_perform (by trivial)).bind fun prevTip => (hassert _ _).bind fun _ => ?_
      refine (respects_scanBlock U view block).bind fun flow => ?_
      split
      · exact respects_pure _
      · refine (respects_db (by trivial)).bind fun _ => ?_
        exact (respects_perform (by trivial)).bind fun _ => ih
  unfold followTip
  refine (Respects.of_within (within_announceTip (fun _ => trivial) (by trivial)
    (fun _ => trivial) currentTip)).bind fun _ => ?_
  refine (respects_perform (by trivial)).bind fun prevTip => ?_
  refine (Respects.of_within (within_locateForkPoint handling_noScan.toLookups view prevTip)).bind
    fun forkPoint => (hassert _ _).bind fun _ => ?_
  refine Respects.bind ?_ fun _ => ?_
  · unfold rewindToForkPoint
    split
    · refine (hassert _ _).bind fun _ => ?_
      refine (Respects.of_within (within_truncateToWalletCheckpoint handling_noScan.toLookups
        (fun _ => trivial) _)).bind fun resumeFrom => ?_
      exact (respects_perform (by trivial)).bind fun _ => respects_perform (by trivial)
    · exact respects_pure _
  · unfold applyToTip
    refine (respects_perform (by trivial)).bind fun prevTip => ?_
    refine (respects_chain (by trivial)).bind fun stream => ?_
    refine (happly stream.blocks).bind fun flow => ?_
    split
    · exact respects_pure _
    · refine Respects.bind ?_ fun _ => respects_pure _
      unfold endOfStream
      split
      · exact fun _ => trivial
      · exact respects_pure _

theorem respects_steadyState (prevTip : ChainBlock) (n : ℕ) :
    Respects T shutdownHeight (steadyState U prevTip shutdownHeight n) := by
  have hon : ∀ view, Respects T shutdownHeight (iterationOn U view shutdownHeight) := by
    intro view w
    unfold iterationOn
    rw [wpE_bind]
    refine wpE_chain_read reading_belowBoundary (by trivial) trivial ?_ fun _ _ _ => trivial
    rintro currentTip w₁ - rfl
    rw [andThen_ok]
    refine (respects_perform (o := SyncOp.getPrevTip) (by trivial)).bind (fun prevTip => ?_) w₁
    split
    · refine (respects_followTip U view view.tip).bind fun flow => ?_
      split
      · exact respects_pure _
      · exact respects_finishIteration view true
    · exact respects_finishIteration view false
  unfold steadyState
  refine (respects_perform (by trivial)).bind fun _ => ?_
  refine (respects_perform (by trivial)).bind fun _ => ?_
  refine Respects.turns (fun recovery => ?_) n default
  unfold steadyTurn
  refine Respects.bind (Respects.attempt ?_) fun outcome => ?_
  · unfold steadyStateIteration
    refine (respects_chain (by trivial)).bind fun view => ?_
    exact hon view
  · exact .of_within (within_handleOutcome handling_noScan recovery outcome)

/-- Preparing the wallet, and the two tasks that scan. -/
inductive ScanTask
  | initializeWallet
  | steadyState
  | recoverHistory
  deriving DecidableEq

/-- Their programs. -/
def scanTasks (batchSize : ℕ) (shutdownHeight : Option ℕ) (prevTip : ChainBlock) (l n m : ℕ) :
    ScanTask → Prog syncSig (Except SyncError Unit)
  | .initializeWallet => (initializeWallet U shutdownHeight l >>= fun _ => pure ()).run
  | .steadyState => (steadyState U prevTip shutdownHeight n >>= fun _ => pure ()).run
  | .recoverHistory => (recoverHistory U batchSize shutdownHeight m >>= fun _ => pure ()).run

theorem wp_scanTasks (batchSize : ℕ) (prevTip : ChainBlock) (l n m : ℕ) (w : SyncWorld)
    (i : ScanTask) :
    wp (contract T) (fun _ _ => True) (BelowBoundary shutdownHeight) (fun _ _ => True)
      (scanTasks U batchSize shutdownHeight prevTip l n m i) w := by
  cases i with
  | initializeWallet =>
    exact (respects_initializeWallet U l).bind (fun _ => respects_pure ()) w
  | steadyState => exact (respects_steadyState U prevTip n).bind (fun _ => respects_pure ()) w
  | recoverHistory =>
    exact (respects_recoverHistory U batchSize m).bind (fun _ => respects_pure ()) w

/-- Nothing at or above the boundary is interpreted, in any interleaving of
    the three and of anything else that changes the world; and a scan range that
    straddles the boundary is stored up to it before `Break` is reported. -/
theorem boundary_respected (T : BlockTree BlockHash) (U : Upstream) (batchSize : ℕ)
    (shutdownHeight : Option ℕ) (prevTip : ChainBlock) (l n m : ℕ) (w : SyncWorld) :
    (∀ c, Pool.Reach (fun _ => contract T) (fun _ _ => True)
        ⟨scanTasks U batchSize shutdownHeight prevTip l n m, w⟩ c →
      ∀ i o k, c.progs i = .op o k → BelowBoundary shutdownHeight o c.world) ∧
    ∀ view scanRange boundary stop w τ w', shutdownHeight = some boundary →
      scanRange.blockRange.start < boundary → boundary < scanRange.blockRange.stop →
      Run (amongOthers T) (scanBlocks U view scanRange shutdownHeight).run w τ
        (.ok (.Break stop)) w' →
      stop = boundary ∧ ∀ h, scanRange.blockRange.start ≤ h → h < boundary →
        h ≤ view.tip.height → w'.db.blocks h = some (view.hashAt T h) := by
  refine ⟨?_, ?_⟩
  · intro c h i o k ho
    obtain ⟨w', -, hwp⟩ := Pool.inv (fun _ _ _ _ _ _ => trivial) (fun _ _ => trivial)
      (fun _ _ _ _ _ _ _ _ _ => trivial) (fun _ _ _ _ => trivial)
      (wp_scanTasks U batchSize prevTip l n m w) h i
    rw [ho] at hwp
    exact (hwp c.world trivial).1
  · rintro view scanRange boundary stop w τ w' rfl hstart hstop h
    exact run_scanBlocks_straddling U hstart hstop h

/-- Heights 3 to 8 of fork 0 with the boundary at 6: blocks 3, 4 and 5 are
    stored. -/
theorem boundary_respected_straddling :
    ∃ τ w', Run (amongOthers (forkTree 6))
      (scanBlocks .watchNothing ⟨⟨9, forkBlock 0 9⟩⟩ ⟨⟨3, 9⟩, .Historic⟩ (some 6)).run
      (walletWith fun _ => none) τ (.ok (.Break 6)) w' ∧
      w'.db.blocks 5 = some (forkBlock 0 5) := by
  have h := exec_run (n := 30)
    (p := (scanBlocks .watchNothing ⟨⟨9, forkBlock 0 9⟩⟩ ⟨⟨3, 9⟩, .Historic⟩ (some 6)).run)
    (s := ⟨walletWith fun _ => none, []⟩) (a := .ok (.Break 6))
    (replay_amongOthers (.quiet (forkTree 6))) (by decide +kernel)
  refine ⟨_, _, h, ?_⟩
  have hstored := (boundary_respected (forkTree 6) .watchNothing 10 (some 6) ⟨0, forkBlock 0 0⟩
    1 1 1 (walletWith fun _ => none)).2 _ _ _ _ _ _ _ rfl (by decide) (by decide) h
  rw [hstored.2 5 (by decide) (by decide) (by decide)]
  decide +kernel

end respects

end Zallet.Sync
