import Zallet.Common.Loop
import Zallet.Rpc.GetRawTransaction
import Zallet.Sync.Status

/-!
# The status of the wallet

`getwalletstatus`
(`zallet-core/src/components/json_rpc/methods/get_wallet_status.rs`, lines 25–211).

The sums are machine integers: in a build with overflow checks an overflow is a panic, and
without them it wraps.

* `syncWorkRemaining_eq_some`: the remaining work, up to the sizes of the integers.
* `call_presents_iff`: when the response does not present an unsynced wallet as synced.
-/

namespace Zallet.Rpc.WalletStatus

open Zallet.Chain (ChainBlock ChainView)
open Zallet.Common.Loop
open Zallet.Rpc.GetRawTransaction (CallFailure hashText)
open Zallet.Sync (SyncStatus)
open Zallet.Wallet

/-! ## Sums of machine integers -/

/-- The sum of two unsigned integers of `w` bits. `none` is the panic of a build with overflow
    checks. -/
def add (overflowChecks : Bool) (w a b : ℕ) : Option ℕ :=
  if a + b < 2 ^ w then some (a + b)
  else if overflowChecks then none
  else some ((a + b) % 2 ^ w)

/-- `Iterator::sum`. -/
def sum (overflowChecks : Bool) (w : ℕ) : ℕ → List ℕ → Option ℕ
  | total, [] => some total
  | total, a :: l => do
    let total ← add overflowChecks w total a
    sum overflowChecks w total l

theorem add_eq_some {overflowChecks : Bool} {w a b c : ℕ} :
    add overflowChecks w a b = some c ↔
      (overflowChecks = true → a + b < 2 ^ w) ∧ c = (a + b) % 2 ^ w := by
  unfold add
  split_ifs with hlt hchecks
  · simp [hlt, Nat.mod_eq_of_lt, eq_comm]
  · simp [hlt, hchecks]
  · simp [hchecks, eq_comm]

/-- A sum is the exact one up to the size of the integers. -/
theorem sum_eq_some {overflowChecks : Bool} {w total c : ℕ} {l : List ℕ} (htotal : total < 2 ^ w) :
    sum overflowChecks w total l = some c ↔
      (overflowChecks = true → total + l.sum < 2 ^ w) ∧ c = (total + l.sum) % 2 ^ w := by
  induction l generalizing total with
  | nil => simp [sum, htotal, Nat.mod_eq_of_lt, eq_comm]
  | cons a l ih =>
    have hmod : (total + a) % 2 ^ w < 2 ^ w := Nat.mod_lt _ (by positivity)
    simp only [sum, Option.bind_eq_bind, Option.bind_eq_some_iff, add_eq_some, List.sum_cons]
    constructor
    · rintro ⟨_, ⟨hfirst, rfl⟩, h⟩
      obtain ⟨hrest, rfl⟩ := (ih hmod).mp h
      rw [Nat.mod_add_mod, add_assoc]
      refine ⟨fun hchecks => ?_, rfl⟩
      have hlt := hrest hchecks
      rwa [Nat.mod_eq_of_lt (hfirst hchecks), add_assoc] at hlt
    · rintro ⟨hfits, rfl⟩
      have hfirst (hchecks : overflowChecks = true) : total + a < 2 ^ w := by
        have hlt := hfits hchecks
        omega
      refine ⟨_, ⟨hfirst, rfl⟩, (ih hmod).mpr ⟨fun hchecks => ?_, ?_⟩⟩
      · rw [Nat.mod_eq_of_lt (hfirst hchecks), add_assoc]
        exact hfits hchecks
      · rw [Nat.mod_add_mod, add_assoc]

/-! ## What the call reads -/

/-- `Ratio<u64>`. -/
structure Ratio where
  numerator : ℕ
  denominator : ℕ
  numerator_lt : numerator < 2 ^ 64
  denominator_lt : denominator < 2 ^ 64
  deriving DecidableEq

/-- `data_api::Progress`. -/
structure ScanProgress where
  scan : Ratio
  recovery : Option Ratio
  deriving DecidableEq

/-- `WalletSummary`, of which the call reads the progress. -/
structure WalletSummary where
  progress : ScanProgress
  deriving DecidableEq

/-- What the wallet database answers. -/
structure StatusReads where
  chainHeight : Except String (Option ℕ)
  blockMetadata : ℕ → Except String (Option BlockMetadata)
  blockFullyScanned : Except String (Option BlockMetadata)
  suggestScanRanges : Except String (List ScanRange)
  getWalletSummary : Except String (Option WalletSummary)

/-- What the chain answers. -/
structure ChainReads where
  snapshot : Except String ChainView
  tip : ChainView → Except String ChainBlock

/-! ## The call -/

structure ChainTip where
  blockhash : List Char
  height : ℕ
  deriving DecidableEq

/-- `Progress` (lines 91–95). -/
structure Progress where
  numerator : ℕ
  denominator : ℕ
  deriving DecidableEq

structure SyncWorkRemaining where
  unscannedBlocks : ℕ
  progress : Progress
  deriving DecidableEq

/-- `GetWalletStatus` (lines 25–65). -/
structure GetWalletStatus where
  nodeTip : ChainTip
  walletTip : Option ChainTip
  fullySyncedHeight : Option ℕ
  syncWorkRemaining : Option SyncWorkRemaining
  locked : Bool
  deriving DecidableEq

structure WalletData where
  tipMetadata : BlockMetadata
  blockFullyScanned : Option BlockMetadata
  scanRanges : List ScanRange
  summary : Option WalletSummary

/-- `status_data` (lines 132–157). -/
def statusData (R : StatusReads) : Except String (Option WalletData) := do
  let tipHeight ← R.chainHeight
  let tipMetadata ←
    match tipHeight with
    | some blockHeight => R.blockMetadata blockHeight
    | none => .ok none
  match tipMetadata with
  | none => .ok none
  | some tipMetadata => do
    let blockFullyScanned ← R.blockFullyScanned
    let scanRanges ← R.suggestScanRanges
    let summary ← R.getWalletSummary
    .ok (some ⟨tipMetadata, blockFullyScanned, scanRanges, summary⟩)

/-- `chain_tip` (lines 167–172). -/
def WalletData.chainTip (d : WalletData) : ChainTip :=
  ⟨hashText d.tipMetadata.blockHash, d.tipMetadata.blockHeight⟩

/-- `fully_synced_height` (lines 174–176). -/
def WalletData.fullySyncedHeight (d : WalletData) : Option ℕ :=
  d.blockFullyScanned.map BlockMetadata.blockHeight

/-- The number of blocks of a range. The difference of two heights stops at zero. -/
def rangeLength (r : ScanRange) : ℕ := r.blockRange.stop - r.blockRange.start

/-- The progress of the scan and, if there is one, of the recovery (lines 186–197). -/
def ScanProgress.total (overflowChecks : Bool) (p : ScanProgress) : Option Progress :=
  match p.recovery with
  | some recovery => do
    let numerator ← add overflowChecks 64 p.scan.numerator recovery.numerator
    let denominator ← add overflowChecks 64 p.scan.denominator recovery.denominator
    some ⟨numerator, denominator⟩
  | none => some ⟨p.scan.numerator, p.scan.denominator⟩

/-- `sync_work_remaining` (lines 178–210). -/
def WalletData.syncWorkRemaining (overflowChecks : Bool) (d : WalletData) :
    Option (Option SyncWorkRemaining) :=
  match d.summary with
  | none => some none
  | some s => do
    let unscannedBlocks ← sum overflowChecks 32 0 (d.scanRanges.map rangeLength)
    let progress ← s.progress.total overflowChecks
    some (if unscannedBlocks = 0 ∧ progress.numerator = progress.denominator then none
      else some ⟨unscannedBlocks, progress⟩)

/-- A failed read, under its code. -/
def failed (code : LegacyCode) (text : String) : CallFailure := .Error (code.withMessage text)

/-- `call` (lines 97–130). -/
def call (overflowChecks : Bool) (chain : ChainReads) (R : StatusReads) (syncStatus : SyncStatus) :
    Except CallFailure GetWalletStatus := do
  let view ← chain.snapshot.mapError (failed .InWarmup)
  let nodeTip ← (chain.tip view).mapError (failed .InWarmup)
  let walletData ← (statusData R).mapError (failed .Database)
  match walletData.elim (some none) (WalletData.syncWorkRemaining overflowChecks) with
  | none => .error (.Panic "attempt to add with overflow")
  | some syncWorkRemaining =>
    .ok
      { nodeTip := ⟨hashText nodeTip.hash, nodeTip.height⟩
        walletTip := walletData.map WalletData.chainTip
        fullySyncedHeight := walletData.bind WalletData.fullySyncedHeight
        syncWorkRemaining := syncWorkRemaining
        locked := decide (syncStatus ≠ .Synced) }

/-! ## A wallet and its status -/

/-- The answers of a wallet database. -/
structure WalletState where
  chainHeight : Option ℕ
  blockMetadata : ℕ → Option BlockMetadata
  blockFullyScanned : Option BlockMetadata
  suggestScanRanges : List ScanRange
  summary : Option WalletSummary

def WalletState.reads (s : WalletState) : StatusReads where
  chainHeight := .ok s.chainHeight
  blockMetadata := fun height => .ok (s.blockMetadata height)
  blockFullyScanned := .ok s.blockFullyScanned
  suggestScanRanges := .ok s.suggestScanRanges
  getWalletSummary := .ok s.summary

/-- The block at the height of the chain, if it has been scanned. -/
def WalletState.tip (s : WalletState) : Option BlockMetadata := s.chainHeight.bind s.blockMetadata

/-- The number of blocks in the suggested ranges. -/
def WalletState.unscannedBlocks (s : WalletState) : ℕ := (s.suggestScanRanges.map rangeLength).sum

/-- The progress of the scan and the recovery. -/
def ScanProgress.exact (p : ScanProgress) : Progress where
  numerator := p.scan.numerator + p.recovery.elim 0 Ratio.numerator
  denominator := p.scan.denominator + p.recovery.elim 0 Ratio.denominator

/-- Nothing is left to scan, and the wallet is synced to its tip. -/
structure AtTip (suggestScanRanges : List ScanRange) (fullySyncedHeight tipHeight : Option ℕ) :
    Prop where
  scanned : ∀ r ∈ suggestScanRanges, r.blockRange.stop ≤ r.blockRange.start
  synced : fullySyncedHeight = tipHeight

/-- What the documentation of the fields promises. -/
structure Honest (s : WalletState) (status : GetWalletStatus) : Prop where
  walletTip : s.chainHeight.isSome → status.walletTip.isSome
  fullySyncedHeight : status.fullySyncedHeight.isSome ↔ s.blockFullyScanned.isSome
  omitted : status.syncWorkRemaining = none →
    AtTip s.suggestScanRanges status.fullySyncedHeight (status.walletTip.map ChainTip.height)
  exact : ∀ work, status.syncWorkRemaining = some work → ∃ summary, s.summary = some summary ∧
    work = ⟨s.unscannedBlocks, summary.progress.exact⟩

/-- The call does not panic, and its status is honest. -/
def Presents (s : WalletState) (outcome : Except CallFailure GetWalletStatus) : Prop :=
  (∀ message, outcome ≠ .error (.Panic message)) ∧ ∀ status, outcome = .ok status → Honest s status

/-! ## When the status is honest -/

/-- The sums are no larger than the integers. -/
def Fits (s : WalletState) (p : ScanProgress) : Prop :=
  s.unscannedBlocks < 2 ^ 32 ∧ p.exact.numerator < 2 ^ 64 ∧ p.exact.denominator < 2 ^ 64

/-- The sums show no work, up to the sizes of the integers. -/
def LooksDone (s : WalletState) (p : ScanProgress) : Prop :=
  s.unscannedBlocks % 2 ^ 32 = 0 ∧ p.exact.numerator % 2 ^ 64 = p.exact.denominator % 2 ^ 64

/-- The wallet is synced to the block at its chain height. -/
def WalletState.AtTip (s : WalletState) : Prop :=
  WalletStatus.AtTip s.suggestScanRanges (s.blockFullyScanned.map BlockMetadata.blockHeight)
    (s.tip.map BlockMetadata.blockHeight)

/-- The states that the call presents. -/
structure Presentable (overflowChecks : Bool) (s : WalletState) : Prop where
  /-- The block at the chain height has been scanned. -/
  tip : s.chainHeight.isSome → s.tip.isSome
  /-- Without that block or a summary nothing is left to do. -/
  unknown : s.tip = none ∨ s.summary = none → s.AtTip
  /-- The sums fit, or wrap and show no work. -/
  fits : s.tip.isSome → ∀ summary, s.summary = some summary →
    Fits s summary.progress ∨ overflowChecks = false ∧ LooksDone s summary.progress
  /-- Where the sums show no work nothing is left to do. -/
  done : s.tip.isSome → ∀ summary, s.summary = some summary →
    LooksDone s summary.progress → s.AtTip

section

variable {overflowChecks : Bool} {s : WalletState}

theorem statusData_reads (s : WalletState) :
    statusData s.reads = .ok (s.tip.map fun tipMetadata =>
      ⟨tipMetadata, s.blockFullyScanned, s.suggestScanRanges, s.summary⟩) := by
  cases hheight : s.chainHeight with
  | none => simp only [statusData, WalletState.reads, WalletState.tip, hheight, bind, Except.bind,
      Option.bind_none, Option.map_none]
  | some height =>
    cases hmetadata : s.blockMetadata height with
    | none => simp only [statusData, WalletState.reads, WalletState.tip, hheight, hmetadata, bind,
        Except.bind, Option.bind_some, Option.map_none]
    | some tipMetadata => simp only [statusData, WalletState.reads, WalletState.tip, hheight,
        hmetadata, bind, Except.bind, Option.bind_some, Option.map_some]

/-- The progress is the exact one, up to the size of the integers. -/
theorem total_eq_some {p : ScanProgress} {progress : Progress} :
    p.total overflowChecks = some progress ↔
      (overflowChecks = true → p.exact.numerator < 2 ^ 64 ∧ p.exact.denominator < 2 ^ 64) ∧
      progress = ⟨p.exact.numerator % 2 ^ 64, p.exact.denominator % 2 ^ 64⟩ := by
  obtain ⟨scan, recovery⟩ := p
  cases recovery with
  | none =>
    have hnumerator := scan.numerator_lt
    have hdenominator := scan.denominator_lt
    simp only [ScanProgress.total, ScanProgress.exact, Option.elim_none, add_zero,
      Nat.mod_eq_of_lt hnumerator, Nat.mod_eq_of_lt hdenominator, Option.some.injEq]
    constructor
    · rintro rfl
      exact ⟨fun _ => ⟨hnumerator, hdenominator⟩, rfl⟩
    · rintro ⟨-, rfl⟩
      rfl
  | some recovery =>
    simp only [ScanProgress.total, ScanProgress.exact, Option.elim_some, Option.bind_eq_bind,
      Option.bind_eq_some_iff, add_eq_some, Option.some.injEq]
    constructor
    · rintro ⟨_, ⟨hnumerator, rfl⟩, _, ⟨hdenominator, rfl⟩, rfl⟩
      exact ⟨fun hchecks => ⟨hnumerator hchecks, hdenominator hchecks⟩, rfl⟩
    · rintro ⟨hfits, rfl⟩
      exact ⟨_, ⟨fun hchecks => (hfits hchecks).1, rfl⟩, _, ⟨fun hchecks => (hfits hchecks).2, rfl⟩,
        rfl⟩

/-- The work that is shown for sums that wrap. -/
def shownWork (s : WalletState) (p : ScanProgress) : Option SyncWorkRemaining :=
  if s.unscannedBlocks % 2 ^ 32 = 0 ∧
      p.exact.numerator % 2 ^ 64 = p.exact.denominator % 2 ^ 64 then none
  else
    some ⟨s.unscannedBlocks % 2 ^ 32,
      ⟨p.exact.numerator % 2 ^ 64, p.exact.denominator % 2 ^ 64⟩⟩

/-- The remaining work, up to the sizes of the integers. -/
theorem syncWorkRemaining_eq_some {tipMetadata : BlockMetadata} {summary : WalletSummary}
    {work : Option SyncWorkRemaining} :
    WalletData.syncWorkRemaining overflowChecks
        ⟨tipMetadata, s.blockFullyScanned, s.suggestScanRanges, some summary⟩ = some work ↔
      (overflowChecks = true → Fits s summary.progress) ∧ work = shownWork s summary.progress := by
  have hsum {c : ℕ} : sum overflowChecks 32 0 (s.suggestScanRanges.map rangeLength) = some c ↔
      (overflowChecks = true → s.unscannedBlocks < 2 ^ 32) ∧ c = s.unscannedBlocks % 2 ^ 32 := by
    rw [sum_eq_some (by positivity), zero_add]
    rfl
  simp only [WalletData.syncWorkRemaining, Option.bind_eq_bind, Option.bind_eq_some_iff, hsum,
    total_eq_some, Option.some.injEq]
  constructor
  · rintro ⟨_, ⟨hunscanned, rfl⟩, _, ⟨hprogress, rfl⟩, rfl⟩
    exact ⟨fun hchecks => ⟨hunscanned hchecks, hprogress hchecks⟩, rfl⟩
  · rintro ⟨hfits, rfl⟩
    exact ⟨_, ⟨fun hchecks => (hfits hchecks).1, rfl⟩, _, ⟨fun hchecks => (hfits hchecks).2, rfl⟩,
      rfl⟩

theorem shownWork_eq_none_iff {p : ScanProgress} : shownWork s p = none ↔ LooksDone s p := by
  unfold shownWork LooksDone
  split_ifs with h
  · exact iff_of_true rfl h
  · exact iff_of_false (by simp) h

/-- Where work is shown it is exact if and only if the sums fit. -/
theorem shownWork_exact_iff {p : ScanProgress} (h : ¬ LooksDone s p) :
    shownWork s p = some ⟨s.unscannedBlocks, p.exact⟩ ↔ Fits s p := by
  have hmod {a w : ℕ} : a % 2 ^ w = a ↔ a < 2 ^ w :=
    Nat.mod_eq_iff_lt (by positivity)
  rw [shownWork, if_neg (show ¬ (_ ∧ _) from h), Option.some.injEq, SyncWorkRemaining.mk.injEq,
    Fits, hmod]
  refine and_congr_right fun _ => ?_
  rw [← hmod, ← hmod (a := p.exact.denominator)]
  constructor
  · intro heq
    exact ⟨congrArg Progress.numerator heq, congrArg Progress.denominator heq⟩
  · rintro ⟨hnumerator, hdenominator⟩
    rw [hnumerator, hdenominator]

variable {nodeTip : ChainTip} {locked : Bool}

/-- The status where the block at the chain height is unknown. -/
theorem honest_unknown_iff (htip : s.tip = none) :
    Honest s ⟨nodeTip, none, none, none, locked⟩ ↔ Presentable overflowChecks s := by
  constructor
  · intro h
    have hscanned : s.blockFullyScanned = none :=
      Option.not_isSome_iff_eq_none.mp fun hsome => by simpa using h.fullySyncedHeight.mpr hsome
    refine ⟨fun hheight => by simpa using h.walletTip hheight, fun _ => ?_, by simp [htip],
      by simp [htip]⟩
    rw [WalletState.AtTip, htip, hscanned]
    exact h.omitted rfl
  · intro h
    obtain ⟨hranges, hsynced⟩ := h.unknown (Or.inl htip)
    rw [htip, Option.map_none, Option.map_eq_none_iff] at hsynced
    refine ⟨fun hheight => ?_, by simp [hsynced], fun _ => ⟨hranges, rfl⟩, by simp⟩
    have := h.tip hheight
    simp [htip] at this

variable {tipMetadata : BlockMetadata}

/-- The status of a wallet that has scanned the block at its chain height. -/
def known (s : WalletState) (nodeTip : ChainTip) (tipMetadata : BlockMetadata)
    (work : Option SyncWorkRemaining) (locked : Bool) : GetWalletStatus :=
  ⟨nodeTip, some ⟨hashText tipMetadata.blockHash, tipMetadata.blockHeight⟩,
    s.blockFullyScanned.map BlockMetadata.blockHeight, work, locked⟩

/-- It is honest exactly if nothing is left to do where no work is shown, and the work is
    exact where it is. -/
theorem honest_known_iff (htip : s.tip = some tipMetadata) {work : Option SyncWorkRemaining} :
    Honest s (known s nodeTip tipMetadata work locked) ↔
      (work = none → s.AtTip) ∧ ∀ w, work = some w → ∃ summary, s.summary = some summary ∧
        w = ⟨s.unscannedBlocks, summary.progress.exact⟩ := by
  constructor
  · intro h
    refine ⟨fun hwork => ?_, h.exact⟩
    rw [WalletState.AtTip, htip]
    exact h.omitted hwork
  · rintro ⟨homitted, hexact⟩
    refine ⟨fun _ => rfl, by simp [known], fun hwork => ?_, hexact⟩
    have hattip := homitted hwork
    rw [WalletState.AtTip, htip] at hattip
    exact hattip

/-- Without a summary no work is shown. -/
theorem honest_noSummary_iff (htip : s.tip = some tipMetadata) (hsummary : s.summary = none) :
    Honest s (known s nodeTip tipMetadata none locked) ↔ Presentable overflowChecks s := by
  rw [honest_known_iff htip]
  constructor
  · rintro ⟨hattip, -⟩
    exact ⟨fun _ => by simp [htip], fun _ => hattip rfl, by simp [hsummary], by simp [hsummary]⟩
  · intro h
    exact ⟨fun _ => h.unknown (Or.inr hsummary), by simp⟩

variable (nodeTip locked) in
/-- With a summary the sums must fit, or wrap and show no work. -/
theorem honest_summary_iff (htip : s.tip = some tipMetadata) {summary : WalletSummary}
    (hsummary : s.summary = some summary) :
    (overflowChecks = true → Fits s summary.progress) ∧
        Honest s (known s nodeTip tipMetadata (shownWork s summary.progress) locked) ↔
      Presentable overflowChecks s := by
  rw [honest_known_iff htip, shownWork_eq_none_iff]
  constructor
  · rintro ⟨hchecks, homitted, hexact⟩
    refine ⟨fun _ => by simp [htip], by simp [htip, hsummary], ?_, ?_⟩
    · intro _ summary' hsummary'
      obtain rfl : summary = summary' := by simpa [hsummary] using hsummary'
      by_cases hdone : LooksDone s summary.progress
      · cases overflowChecks with
        | true => exact Or.inl (hchecks rfl)
        | false => exact Or.inr ⟨rfl, hdone⟩
      · refine Or.inl ((shownWork_exact_iff hdone).mp ?_)
        obtain ⟨work, hwork⟩ := Option.ne_none_iff_exists'.mp (mt shownWork_eq_none_iff.mp hdone)
        obtain ⟨summary', hsummary', rfl⟩ := hexact work hwork
        obtain rfl : summary = summary' := by simpa [hsummary] using hsummary'
        exact hwork
    · intro _ summary' hsummary' hdone
      obtain rfl : summary = summary' := by simpa [hsummary] using hsummary'
      exact homitted hdone
  · intro h
    have hsome : s.tip.isSome := by simp [htip]
    refine ⟨?_, h.done hsome summary hsummary, ?_⟩
    · rintro rfl
      obtain hfits | ⟨hfalse, -⟩ := h.fits hsome summary hsummary
      · exact hfits
      · cases hfalse
    · intro work hwork
      have hdone : ¬ LooksDone s summary.progress := fun hdone => by
        rw [shownWork_eq_none_iff.mpr hdone] at hwork
        cases hwork
      obtain hfits | ⟨-, hdone'⟩ := h.fits hsome summary hsummary
      · rw [(shownWork_exact_iff hdone).mpr hfits] at hwork
        exact ⟨summary, hsummary, (Option.some.inj hwork).symm⟩
      · exact absurd hdone' hdone

end

/-! ## The response -/

/-- The node answers. -/
def ChainReads.Answers (chain : ChainReads) : Prop :=
  ∃ view nodeTip, chain.snapshot = .ok view ∧ chain.tip view = .ok nodeTip

theorem presents_error {s : WalletState} (e : RpcError) : Presents s (.error (.Error e)) :=
  ⟨fun _ => by simp, fun _ h => by cases h⟩

theorem presents_ok_iff {s : WalletState} {status : GetWalletStatus} :
    Presents s (.ok status) ↔ Honest s status :=
  ⟨fun h => h.2 status rfl, fun h => ⟨fun _ => by simp, fun _ hok => by cases hok; exact h⟩⟩

theorem not_presents_panic {s : WalletState} {message : String} :
    ¬ Presents s (.error (.Panic message)) :=
  fun h => h.1 message rfl

/-- Where the node answers, the call returns the status of the wallet or panics. -/
theorem presents_answers_iff (overflowChecks : Bool) {chain : ChainReads} (s : WalletState)
    (syncStatus : SyncStatus) (h : chain.Answers) :
    Presents s (call overflowChecks chain s.reads syncStatus) ↔ Presentable overflowChecks s := by
  obtain ⟨view, nodeTip, hsnapshot, htip⟩ := h
  simp only [call, hsnapshot, htip, statusData_reads, Except.mapError, bind, Except.bind]
  cases hmetadata : s.tip with
  | none => exact presents_ok_iff.trans (honest_unknown_iff hmetadata)
  | some tipMetadata =>
    cases hsummary : s.summary with
    | none => exact presents_ok_iff.trans (honest_noSummary_iff hmetadata hsummary)
    | some summary =>
      rw [← honest_summary_iff ⟨hashText nodeTip.hash, nodeTip.height⟩
        (decide (syncStatus ≠ .Synced)) hmetadata hsummary]
      simp only [Option.map_some, Option.elim_some]
      cases hwork : WalletData.syncWorkRemaining overflowChecks
          ⟨tipMetadata, s.blockFullyScanned, s.suggestScanRanges, some summary⟩ with
      | none =>
        refine iff_of_false not_presents_panic fun ⟨hfits, _⟩ => ?_
        rw [syncWorkRemaining_eq_some.mpr ⟨hfits, rfl⟩] at hwork
        cases hwork
      | some work =>
        obtain ⟨hfits, rfl⟩ := syncWorkRemaining_eq_some.mp hwork
        exact presents_ok_iff.trans (iff_and_self.mpr fun _ => hfits)

/-- The call never presents an unsynced wallet as synced exactly for the states that it
    presents, where the node answers at all. -/
theorem call_presents_iff (overflowChecks : Bool) (chain : ChainReads) (s : WalletState)
    (syncStatus : SyncStatus) :
    Presents s (call overflowChecks chain s.reads syncStatus) ↔
      (chain.Answers → Presentable overflowChecks s) := by
  by_cases hanswers : chain.Answers
  · rw [presents_answers_iff overflowChecks s syncStatus hanswers]
    exact ⟨fun h _ => h, fun h => h hanswers⟩
  · refine iff_of_true ?_ fun h => absurd h hanswers
    cases hsnapshot : chain.snapshot with
    | error text =>
      simp only [call, hsnapshot, Except.mapError, bind, Except.bind]
      exact presents_error _
    | ok view =>
      cases htip : chain.tip view with
      | error text =>
        simp only [call, hsnapshot, htip, Except.mapError, bind, Except.bind]
        exact presents_error _
      | ok nodeTip => exact absurd ⟨view, nodeTip, hsnapshot, htip⟩ hanswers

/-! ## A wallet that catches up -/

namespace CatchingUp

/-- The wallet knows of block 10, and has scanned up to block 4. -/
def wallet : WalletState where
  chainHeight := some 10
  blockMetadata := fun height => if height ≤ 4 then some ⟨height, 0, none, none, none⟩ else none
  blockFullyScanned := some ⟨4, 0, none, none, none⟩
  suggestScanRanges := [⟨⟨5, 11⟩, .Historic⟩]
  summary := some ⟨⟨⟨4, 10, by norm_num, by norm_num⟩, none⟩⟩

def chain : ChainReads where
  snapshot := .ok ⟨⟨10, 0⟩⟩
  tip := fun _ => .ok ⟨10, 0⟩

def status : GetWalletStatus := ⟨⟨hashText 0, 10⟩, none, none, none, true⟩

/-- Its status shows no tip, no height and no work. -/
theorem omits_work : call true chain wallet.reads (.CatchingUp (some 4) 10) = .ok status ∧
    wallet.chainHeight.isSome ∧ wallet.blockFullyScanned.isSome ∧
    ¬ Presents wallet (.ok status) := by
  refine ⟨rfl, rfl, rfl, fun h => ?_⟩
  have hstatus := (presents_ok_iff.mp h).walletTip rfl
  cases hstatus

end CatchingUp

end Zallet.Rpc.WalletStatus
