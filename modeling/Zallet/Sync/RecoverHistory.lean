import Zallet.Sync.Steps

/-!
# The history recovery task

`recover_history` (`sync.rs`, lines 1085–1195) scans the ranges the wallet
suggests below the boundary, in batches, and waits for `steady_state` when it
finds the note commitment tree diverged.

The batches of a range come from an iterator that splits off `batch_size`
blocks until nothing can be split off. `batches_eq` is its defining equation:
the bound on the number of batches in the definition is never reached.

`within_recoverHistory`: the only operations of the task that change anything
are `put_blocks` and the publication of the fully scanned height.
-/

namespace Zallet.Sync

open Zallet.Effect Zallet.Common Zallet.Chain Zallet.Wallet

/-- `TREE_DIVERGENCE_RETRIES`. -/
def treeDivergenceRetries : ℕ := 5

/-- `TREE_DIVERGENCE_BACKOFF` in milliseconds. -/
def treeDivergenceBackoff : List ℕ := [1000, 2000, 5000, 15000, 30000]

section programs

variable (U : Upstream)

/-- At most `n` batches of `remaining`. -/
def batchesUpTo (batchSize : ℕ) : ℕ → ScanRange → List ScanRange
  | 0, _ => []
  | n + 1, remaining =>
    match U.splitAt remaining (remaining.blockRange.start + batchSize) with
    | some (cur, next) => cur :: batchesUpTo batchSize n next
    | none => [remaining]

/-- The batches of a scan range (lines 1122–1134). -/
def batches (batchSize : ℕ) (scanRange : ScanRange) : List ScanRange :=
  batchesUpTo U batchSize (scanRange.blockRange.stop - scanRange.blockRange.start + 1) scanRange

/-- The loop that scans one batch (lines 1141–1171); `backoffs` are the waits
    that are left. -/
def scanWithRetries (scanRange : ScanRange) (shutdownHeight : Option ℕ) :
    List ℕ → SyncM (ControlFlow ℕ Unit)
  | [] => do
    let view ← chain .snapshot
    scanBlocks U view scanRange shutdownHeight
  | backoff :: rest => do
    let view ← chain .snapshot
    match ← attempt (scanBlocks U view scanRange shutdownHeight) with
    | .ok outcome => pure outcome
    | .error error =>
      if isTreeDivergence error then do
        perform (.sleep backoff)
        scanWithRetries scanRange shutdownHeight rest
      else throw error

/-- The loop over the batches of a range (lines 1122–1193). -/
def recoverBatches (shutdownHeight : Option ℕ) : List ScanRange → SyncM Unit
  | [] => pure ()
  | scanRange :: rest => do
    match ← scanWithRetries U scanRange shutdownHeight
      (treeDivergenceBackoff.take treeDivergenceRetries) with
    | .Break _ => pure ()
    | .Continue () => do
      let fullyScanned ← db .blockFullyScanned
      perform (.status (.setFullySynced (fullyScanned.map (·.blockHeight))))
      let latestRanges ← db .suggestScanRanges
      if latestRanges.head?.any fun range => decide (scanRange.priority.rank < range.priority.rank)
      then pure ()
      else recoverBatches shutdownHeight rest

/-- The range to scan next (lines 1107–1113). -/
def selectHistoricRange (suggested : List ScanRange) (upperBoundary : ℕ) : Option ScanRange :=
  (suggested.filterMap fun r => U.truncateEnd r upperBoundary).head?

/-- One turn of the loop of `recover_history`. -/
def recoverTurn (batchSize : ℕ) (shutdownHeight : Option ℕ) (_ : Unit) :
    SyncM (ControlFlow Unit Unit) := do
  let upperBoundary ← perform .loadBoundary
  let suggested ← db .suggestScanRanges
  match selectHistoricRange U suggested upperBoundary with
  | none => do
    perform .tick
    pure (.Continue ())
  | some scanRange => do
    recoverBatches U shutdownHeight (batches U batchSize scanRange)
    pure (.Continue ())

/-- `recover_history` (lines 1085–1195), for `n` turns of its loop. -/
def recoverHistory (batchSize : ℕ) (shutdownHeight : Option ℕ) (n : ℕ) :
    SyncM (ControlFlow Unit Unit) := do
  perform .tick
  turns (recoverTurn U batchSize shutdownHeight) n ()

end programs

/-! ## Batches -/

section batches

variable {U : Upstream} {batchSize : ℕ}

theorem splitAt_some {r cur next : ScanRange} {h : ℕ} (hs : U.splitAt r h = some (cur, next)) :
    r.blockRange.start < h ∧ h < r.blockRange.stop ∧
      cur.blockRange = ⟨r.blockRange.start, h⟩ ∧ next.blockRange = ⟨h, r.blockRange.stop⟩ := by
  rw [U.splitAt_eq] at hs
  by_cases hc : r.blockRange.start < h ∧ h < r.blockRange.stop
  · rw [if_pos hc] at hs
    cases hs
    exact ⟨hc.1, hc.2, rfl, rfl⟩
  · rw [if_neg hc] at hs
    cases hs

/-- More fuel than blocks makes no difference. -/
theorem batchesUpTo_eq {n m : ℕ} {r : ScanRange}
    (hn : r.blockRange.stop - r.blockRange.start < n)
    (hm : r.blockRange.stop - r.blockRange.start < m) :
    batchesUpTo U batchSize n r = batchesUpTo U batchSize m r := by
  induction n generalizing m r with
  | zero => omega
  | succ n ih =>
    cases m with
    | zero => omega
    | succ m =>
      rw [batchesUpTo, batchesUpTo]
      cases hs : U.splitAt r (r.blockRange.start + batchSize) with
      | none => rfl
      | some p =>
        obtain ⟨cur, next⟩ := p
        obtain ⟨h₁, h₂, -, hnext⟩ := splitAt_some hs
        simp only
        rw [ih (m := m)]
        · rw [hnext]
          show r.blockRange.stop - (r.blockRange.start + batchSize) < n
          omega
        · rw [hnext]
          show r.blockRange.stop - (r.blockRange.start + batchSize) < m
          omega

/-- The iterator of the source. -/
theorem batches_eq (r : ScanRange) :
    batches U batchSize r =
      match U.splitAt r (r.blockRange.start + batchSize) with
      | some (cur, next) => cur :: batches U batchSize next
      | none => [r] := by
  rw [batches, batchesUpTo]
  cases hs : U.splitAt r (r.blockRange.start + batchSize) with
  | none => rfl
  | some p =>
    obtain ⟨cur, next⟩ := p
    obtain ⟨h₁, h₂, -, hnext⟩ := splitAt_some hs
    have hlt : next.blockRange.stop - next.blockRange.start <
        r.blockRange.stop - r.blockRange.start := by
      rw [hnext]
      show r.blockRange.stop - (r.blockRange.start + batchSize) < _
      omega
    simp only
    rw [batches, batchesUpTo_eq hlt (Nat.lt_succ_self _)]

end batches

/-! ## Bounds -/

/-- The operations of `recover_history`. -/
structure Recovering (B : Bounds syncSig SyncError) : Prop extends Scanning B where
  snapshot : B.ops (.chain .snapshot)
  publish : ∀ height, B.ops (.status (.setFullySynced height))
  pause : ∀ millis, B.ops (.sleep millis)
  tick : B.ops .tick
  boundary : B.ops .loadBoundary

section within

variable {B : Bounds syncSig SyncError} (U : Upstream) (hB : Recovering B)

include hB

theorem within_scanWithRetries (scanRange : ScanRange) (shutdownHeight : Option ℕ)
    (backoffs : List ℕ) : Within B (scanWithRetries U scanRange shutdownHeight backoffs) := by
  have hsnapshot : Within B (chain .snapshot) := within_chain hB.snapshot (hB.chainError _)
  induction backoffs with
  | nil =>
    rw [scanWithRetries]
    exact hsnapshot.bind fun view => within_scanBlocks U hB.toScanning view _ _
  | cons backoff rest ih =>
    rw [scanWithRetries]
    refine hsnapshot.bind fun view => ?_
    refine Within.attempt_bind (within_scanBlocks U hB.toScanning view _ _) fun outcome ho => ?_
    cases outcome with
    | ok outcome => exact Within.pure _
    | error e =>
      simp only
      split
      · exact (within_perform (hB.pause _)).bind fun _ => ih
      · exact Within.throw (ho e rfl)

theorem within_recoverBatches (shutdownHeight : Option ℕ) (ranges : List ScanRange) :
    Within B (recoverBatches U shutdownHeight ranges) := by
  induction ranges with
  | nil => exact Within.pure ()
  | cons scanRange rest ih =>
    rw [recoverBatches]
    refine (within_scanWithRetries U hB scanRange shutdownHeight _).bind fun flow => ?_
    cases flow with
    | Break boundary => exact Within.pure ()
    | Continue u =>
      refine (hB.db (by trivial)).bind fun fullyScanned => ?_
      refine (within_perform (hB.publish _)).bind fun _ => ?_
      refine (hB.db (by trivial)).bind fun latestRanges => ?_
      split
      · exact Within.pure ()
      · exact ih

theorem within_recoverTurn (batchSize : ℕ) (shutdownHeight : Option ℕ) (u : Unit) :
    Within B (recoverTurn U batchSize shutdownHeight u) := by
  unfold recoverTurn
  refine (within_perform hB.boundary).bind fun upperBoundary => ?_
  refine (hB.db (by trivial)).bind fun suggested => ?_
  split
  · exact (within_perform hB.tick).bind fun _ => Within.pure _
  · exact (within_recoverBatches U hB shutdownHeight _).bind fun _ => Within.pure _

theorem within_recoverHistory (batchSize : ℕ) (shutdownHeight : Option ℕ) (n : ℕ) :
    Within B (recoverHistory U batchSize shutdownHeight n) := by
  unfold recoverHistory
  refine (within_perform hB.tick).bind fun _ => ?_
  exact Within.turns (within_recoverTurn U hB batchSize shutdownHeight) n ()

end within

end Zallet.Sync
