import Zallet.Wallet.Types

/-!
# Sync errors and the published sync status

`SyncError` (`sync/error.rs`), the classification of errors in `sync.rs`
(`is_retryable`, `is_tree_divergence`), and the signals from which the
JSON-RPC layer derives whether the wallet may be used (`sync/status.rs`).
-/

namespace Zallet.Sync

open Zallet.Chain Zallet.Wallet

/-- `SyncError` (error.rs, lines 11–37). -/
inductive SyncError
  | BatchDecryptorUnavailable
  | Chain (e : ChainError)
  | Scan (e : ScanError)
  | Tree (e : ShardTreeError)
  | Other (e : SqliteClientError)
  | WalletDivergedBelowBirthday (birthday : ℕ)
  | WalletTreeDiverged (observedAt rolledBackTo birthday : ℕ)
  deriving DecidableEq

/-- `REORG_RETRY_BACKOFF` in milliseconds. -/
def reorgRetryBackoff : ℕ := 200

/-- `is_retryable` (sync.rs, lines 452–454). -/
def isRetryable : SyncError → Bool
  | .Chain (.Unavailable _) => true
  | _ => false

/-- `is_tree_divergence` (sync.rs, lines 552–563). -/
def isTreeDivergence : SyncError → Bool
  | .Tree _ => true
  | .Other (.PutBlocksCommitmentTree _) => true
  | .Other (.CommitmentTree _) => true
  | .Other (.TruncateCommitmentTree _) => true
  | _ => false

/-- `scan_block_error` (steps.rs, lines 86–93). -/
def scanBlockError : ScanBlockError → SyncError
  | .Scan e => .Scan e
  | .other text => .Chain (.Backend text)

/-! ## Status -/

/-- `SyncStatus` (status.rs, lines 28–38). -/
inductive SyncStatus
  | CatchingUp (fullySynced : Option ℕ) (tip : ℕ)
  | Synced
  | Recovering (rolledBackTo : ℕ)
  deriving DecidableEq

/-- `SyncSignals` (status.rs, lines 42–51). -/
structure SyncSignals where
  tip : ℕ
  fullySynced : Option ℕ
  tipReached : Bool
  recovering : Option ℕ
  deriving DecidableEq

/-- `SyncSignals::status` (lines 59–76). -/
def SyncSignals.status (s : SyncSignals) (tolerance : ℕ) : SyncStatus :=
  match s.recovering with
  | some rolledBackTo => .Recovering rolledBackTo
  | none =>
    let withinTip := s.fullySynced.any fun fs => decide (s.tip - fs ≤ tolerance)
    if s.tipReached && withinTip then .Synced else .CatchingUp s.fullySynced s.tip

/-- The signals of a new `channel` (lines 159–164). -/
def SyncSignals.initial : SyncSignals where
  tip := 0
  fullySynced := none
  tipReached := false
  recovering := none

/-- The methods of `SyncStatusWriter` (lines 86–111). -/
inductive StatusOp
  | setTip (tip : ℕ)
  | setFullySynced (fullySynced : Option ℕ)
  | markTipReached
  | beginRecovery (rolledBackTo : ℕ)
  | endRecovery
  deriving DecidableEq

/-- The update each method sends. -/
def StatusOp.apply (s : SyncSignals) : StatusOp → SyncSignals
  | setTip tip => { s with tip := tip }
  | setFullySynced fullySynced => { s with fullySynced := fullySynced }
  | markTipReached => { s with tipReached := true }
  | beginRecovery rolledBackTo => { s with recovering := some rolledBackTo }
  | endRecovery => { s with recovering := none }

/-- The wallet is shown as usable only after the tip has been reached and
    while no recovery is under way, whatever the tolerance. -/
theorem SyncSignals.status_synced {s : SyncSignals} {tolerance : ℕ}
    (h : s.status tolerance = .Synced) : s.recovering = none ∧ s.tipReached = true := by
  unfold status at h
  cases hr : s.recovering with
  | some rolledBackTo => simp [hr] at h
  | none =>
    simp only [hr] at h
    by_cases hc : (s.tipReached && s.fullySynced.any fun fs => decide (s.tip - fs ≤ tolerance)) = true
    · rw [Bool.and_eq_true] at hc
      exact ⟨rfl, hc.1⟩
    · rw [if_neg hc] at h
      cases h

end Zallet.Sync
