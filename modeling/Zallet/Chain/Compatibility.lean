import Zallet.Chain.Consensus
import Zallet.Chain.Types
import Zallet.Common.Schedule

/-!
# Consensus compatibility

`check_consensus_compatibility` (`zallet-core/src/components/chain.rs`, lines
192–516) compares the upgrades the backing full node reports with the ones this
build schedules, before the wallet trusts any block of the node.

Both sides are schedules of consensus branch IDs. `branchIncompatibility` is the
divergence of the two at one ID (`divergenceHeight_branchIncompatibility`), so
the check answers with the least height at which the sides' active branches
differ (`checkConsensusCompatibility_exact`).
-/

namespace Zallet.Chain

open Zallet.Common

/-- `UpgradeStatus` (lines 200–207). -/
inductive UpgradeStatus
  | Active
  | Pending
  | Disabled
  deriving DecidableEq

/-- `ReportedUpgrade` (lines 214–219). -/
structure ReportedUpgrade where
  branchId : BitVec 32
  name : String
  activationHeight : ℕ
  status : UpgradeStatus
  deriving DecidableEq

/-- `Incompatibility` (lines 263–294). -/
inductive Incompatibility
  | UnknownUpgrade (branchId : BitVec 32) (name : String) (activationHeight : ℕ)
  | ActivationHeightMismatch (branchId : BitVec 32) (name : String) (expected node : Option ℕ)
      (divergenceHeight : ℕ)
  deriving DecidableEq

/-- `Incompatibility::divergence_height` (lines 299–308). -/
def Incompatibility.divergenceHeight : Incompatibility → ℕ
  | UnknownUpgrade _ _ activationHeight => activationHeight
  | ActivationHeightMismatch _ _ _ _ divergenceHeight => divergenceHeight

/-- The closure `side` of `describe` (lines 325–328). -/
def describeSide : Option ℕ → String
  | some height => s!"activates it at height {height}"
  | none => "does not schedule it"

/-- `Incompatibility::describe` (lines 310–336). -/
def Incompatibility.describe : Incompatibility → String
  | UnknownUpgrade branchId name activationHeight =>
    let id := branchId.toHex
    s!"{name} (branch ID {id}, unrecognized, activates at height {activationHeight})"
  | ActivationHeightMismatch branchId name expected node _ =>
    let id := branchId.toHex
    let theirs := describeSide node
    let ours := describeSide expected
    s!"{name} (branch ID {id}): full node {theirs}, but this Zallet build {ours}"

/-- `Debug` of `BranchId`. -/
def BranchId.debug : BranchId → String
  | Sprout => "Sprout"
  | Overwinter => "Overwinter"
  | Sapling => "Sapling"
  | Blossom => "Blossom"
  | Heartwood => "Heartwood"
  | Canopy => "Canopy"
  | Nu5 => "Nu5"
  | Nu6 => "Nu6"
  | Nu6_1 => "Nu6_1"
  | Nu6_2 => "Nu6_2"
  | Nu6_3 => "Nu6_3"

/-- The height from which the node follows an upgrade (lines 390–393). -/
def ReportedUpgrade.scheduled (upgrade : ReportedUpgrade) : Option ℕ :=
  match upgrade.status with
  | .Disabled => none
  | .Active => some upgrade.activationHeight
  | .Pending => some upgrade.activationHeight

/-- `branch_incompatibility` (lines 383–432). -/
def branchIncompatibility (ids : BranchIds) (params : Parameters) (branchId : BitVec 32)
    (reported : Option ReportedUpgrade) : Option Incompatibility :=
  let node := reported.bind ReportedUpgrade.scheduled
  match ids.tryFrom branchId with
  | some branch =>
    let expected := (branch.heightBounds params).map Prod.fst
    let divergenceHeight :=
      match expected, node with
      | some expected, some node => if expected = node then none else some (min expected node)
      | some height, none => some height
      | none, height => height
    divergenceHeight.map fun divergenceHeight =>
      .ActivationHeightMismatch branchId ((reported.map ReportedUpgrade.name).getD branch.debug)
        expected node divergenceHeight
  | none =>
    node.map fun activationHeight =>
      .UnknownUpgrade branchId ((reported.map ReportedUpgrade.name).getD "") activationHeight

/-- The map `reported` of `detect_incompatibilities` (lines 354–355): the last
    upgrade reported with an ID. -/
def reportedUpgrade (upgrades : List ReportedUpgrade) (branchId : BitVec 32) :
    Option ReportedUpgrade :=
  upgrades.reverse.find? fun upgrade => decide (upgrade.branchId = branchId)

/-- The IDs either side knows about, in order (lines 359–365). -/
def examinedIds (ids : BranchIds) (upgrades : List ReportedUpgrade) : List (BitVec 32) :=
  (upgrades.map ReportedUpgrade.branchId ++ networkUpgrades.map ids.toU32).dedup.insertionSort
    (· ≤ ·)

/-- `detect_incompatibilities` (lines 349–371). -/
def detectIncompatibilities (ids : BranchIds) (params : Parameters)
    (upgrades : List ReportedUpgrade) : List Incompatibility :=
  (examinedIds ids upgrades).filterMap fun branchId =>
    branchIncompatibility ids params branchId (reportedUpgrade upgrades branchId)

/-- `Decision` (lines 438–448). -/
inductive Decision
  | Diverged (active : List Incompatibility)
  | Pending (height : ℕ) (upgrades : List Incompatibility)
  deriving DecidableEq

/-- The least divergence height (lines 455–457). -/
def earliest (first : Incompatibility) (rest : List Incompatibility) : ℕ :=
  rest.foldl (fun least i => min least i.divergenceHeight) first.divergenceHeight

/-- `classify` (lines 453–475), of `first` and the rest of the incompatibilities. -/
def classify (first : Incompatibility) (rest : List Incompatibility) (tip : ℕ) : Decision :=
  let (active, pending) := (first :: rest).partition fun i => decide (i.divergenceHeight ≤ tip)
  if active.isEmpty then .Pending (earliest first rest) pending else .Diverged active

/-- The errors of `check_consensus_compatibility`: those of its reads, and
    `err-init-incompatible-consensus` with its list of upgrades. -/
inductive CheckError
  | ReportedUpgrades (source : String)
  | Snapshot (source : ChainError)
  | IncompatibleConsensus (upgrades : String)
  deriving DecidableEq

/-- `check_consensus_compatibility` (lines 485–516), with the outcomes of its two
    reads. -/
def checkConsensusCompatibility (ids : BranchIds) (params : Parameters)
    (reportedUpgrades : Except String (List ReportedUpgrade)) (tip : Except ChainError ℕ) :
    Except CheckError (Option ℕ) := do
  let upgrades ← reportedUpgrades.mapError .ReportedUpgrades
  match detectIncompatibilities ids params upgrades with
  | [] => pure none
  | first :: rest =>
    let tip ← tip.mapError .Snapshot
    match classify first rest tip with
    | .Diverged active =>
      throw (.IncompatibleConsensus (", ".intercalate (active.map Incompatibility.describe)))
    | .Pending height _ => pure (some height)

/-! ## What the check compares -/

/-- The branches the node has activated at `height`. -/
def nodeRules (upgrades : List ReportedUpgrade) (height : ℕ) : Set (BitVec 32) :=
  {id | ∃ upgrade ∈ upgrades, upgrade.branchId = id ∧ upgrade.status ≠ .Disabled ∧
    upgrade.activationHeight ≤ height}

/-- The branches of `branches` that this build has activated at `height`. -/
def buildRules (ids : BranchIds) (params : Parameters) (branches : Set BranchId) (height : ℕ) :
    Set (BitVec 32) :=
  {id | ∃ branch ∈ branches, ids.toU32 branch = id ∧
    ∃ bounds ∈ branch.heightBounds params, bounds.1 ≤ height}

/-- The branches that are compared: the upgrades this build knows, and any other
    branch that the node names. -/
def comparedBranches (ids : BranchIds) (upgrades : List ReportedUpgrade) : Set BranchId :=
  {branch | branch ∈ networkUpgrades ∨ ∃ upgrade ∈ upgrades, upgrade.branchId = ids.toU32 branch}

/-- The node's schedule, as the code looks it up. -/
def nodeSchedule (upgrades : List ReportedUpgrade) : Schedule (BitVec 32) :=
  fun branchId => (reportedUpgrade upgrades branchId).bind ReportedUpgrade.scheduled

/-- Where this build activates a branch. -/
def expectedHeight (ids : BranchIds) (params : Parameters) : Schedule (BitVec 32) :=
  fun branchId => (ids.tryFrom branchId).bind fun branch => (branch.heightBounds params).map Prod.fst

/-- This build's schedule of the examined branches. -/
def buildSchedule (ids : BranchIds) (params : Parameters) (upgrades : List ReportedUpgrade) :
    Schedule (BitVec 32) :=
  fun branchId =>
    if branchId ∈ examinedIds ids upgrades then expectedHeight ids params branchId else none

variable {ids : BranchIds} {params : Parameters} {upgrades : List ReportedUpgrade}

theorem mem_examinedIds {branchId : BitVec 32} :
    branchId ∈ examinedIds ids upgrades ↔
      (∃ upgrade ∈ upgrades, upgrade.branchId = branchId) ∨
        ∃ branch ∈ networkUpgrades, ids.toU32 branch = branchId := by
  unfold examinedIds
  rw [List.mem_insertionSort, List.mem_dedup, List.mem_append, List.mem_map, List.mem_map]

theorem reportedUpgrade_mem {branchId : BitVec 32} {upgrade : ReportedUpgrade}
    (h : reportedUpgrade upgrades branchId = some upgrade) :
    upgrade ∈ upgrades ∧ upgrade.branchId = branchId :=
  ⟨List.mem_reverse.mp (List.mem_of_find?_eq_some h), by simpa using List.find?_some h⟩

/-- Without duplicates, the upgrade found for an ID is the one reported with
    it. -/
theorem reportedUpgrade_eq (hnodup : (upgrades.map ReportedUpgrade.branchId).Nodup)
    {upgrade : ReportedUpgrade} (h : upgrade ∈ upgrades) :
    reportedUpgrade upgrades upgrade.branchId = some upgrade := by
  have hsome : (reportedUpgrade upgrades upgrade.branchId).isSome := by
    unfold reportedUpgrade
    rw [List.find?_isSome]
    exact ⟨upgrade, List.mem_reverse.mpr h, by simp⟩
  obtain ⟨found, hfound⟩ := Option.isSome_iff_exists.mp hsome
  obtain ⟨hmem, hid⟩ := reportedUpgrade_mem hfound
  rw [hfound, List.inj_on_of_nodup_map hnodup hmem h hid]

theorem mem_scheduled {upgrade : ReportedUpgrade} {height : ℕ} :
    height ∈ upgrade.scheduled ↔ upgrade.status ≠ .Disabled ∧ upgrade.activationHeight = height := by
  unfold ReportedUpgrade.scheduled
  cases upgrade.status <;> simp

theorem activeAt_nodeSchedule (hnodup : (upgrades.map ReportedUpgrade.branchId).Nodup)
    (height : ℕ) : (nodeSchedule upgrades).activeAt height = nodeRules upgrades height := by
  ext id
  constructor
  · rintro ⟨a, ha, hle⟩
    obtain ⟨upgrade, hfound, hsched⟩ := Option.bind_eq_some_iff.mp ha
    obtain ⟨hmem, hid⟩ := reportedUpgrade_mem hfound
    obtain ⟨hstatus, rfl⟩ := mem_scheduled.mp hsched
    exact ⟨upgrade, hmem, hid, hstatus, hle⟩
  · rintro ⟨upgrade, hmem, rfl, hstatus, hle⟩
    refine ⟨upgrade.activationHeight, ?_, hle⟩
    exact Option.bind_eq_some_iff.mpr
      ⟨upgrade, reportedUpgrade_eq hnodup hmem, mem_scheduled.mpr ⟨hstatus, rfl⟩⟩

theorem activeAt_buildSchedule (height : ℕ) :
    (buildSchedule ids params upgrades).activeAt height =
      buildRules ids params (comparedBranches ids upgrades) height := by
  ext id
  constructor
  · rintro ⟨a, ha, hle⟩
    unfold buildSchedule at ha
    split at ha
    · rename_i hmem
      obtain ⟨branch, hbranch, hfirst⟩ := Option.bind_eq_some_iff.mp ha
      obtain ⟨bounds, hbounds, rfl⟩ := Option.map_eq_some_iff.mp hfirst
      have hid := (ids.tryFrom_eq_some id branch).mp hbranch
      refine ⟨branch, ?_, hid, bounds, hbounds, hle⟩
      rcases mem_examinedIds.mp hmem with ⟨upgrade, hup, heq⟩ | ⟨branch', hb', heq⟩
      · exact Or.inr ⟨upgrade, hup, heq.trans hid.symm⟩
      · have hsame := (ids.tryFrom_eq_some id branch').mpr heq
        rw [hbranch] at hsame
        cases hsame
        exact Or.inl hb'
    · cases ha
  · rintro ⟨branch, hbranch, rfl, bounds, hbounds, hle⟩
    have hmem : ids.toU32 branch ∈ examinedIds ids upgrades := by
      rcases hbranch with h | ⟨upgrade, hup, heq⟩
      · exact mem_examinedIds.mpr (Or.inr ⟨branch, h, rfl⟩)
      · exact mem_examinedIds.mpr (Or.inl ⟨upgrade, hup, heq⟩)
    refine ⟨bounds.1, ?_, hle⟩
    show buildSchedule ids params upgrades _ = some bounds.1
    unfold buildSchedule expectedHeight
    rw [if_pos hmem, (ids.tryFrom_eq_some _ branch).mpr rfl, Option.bind_some, hbounds]
    rfl

/-! ## The check -/

/-- One branch is flagged where the two sides' activations of it diverge. -/
theorem divergenceHeight_branchIncompatibility (ids : BranchIds) (params : Parameters)
    (branchId : BitVec 32) (reported : Option ReportedUpgrade) :
    (branchIncompatibility ids params branchId reported).map Incompatibility.divergenceHeight =
      Schedule.divergence (expectedHeight ids params branchId)
        (reported.bind ReportedUpgrade.scheduled) := by
  unfold branchIncompatibility expectedHeight
  cases ids.tryFrom branchId with
  | none =>
    simp only [Option.bind_none, Schedule.divergence, Option.map_map]
    exact Option.map_id'
  | some branch =>
    simp only [Option.bind_some, Option.map_map]
    exact Option.map_id'

/-- The heights of the incompatibilities are the divergences of the two
    schedules. -/
theorem mem_detectIncompatibilities {d : ℕ} :
    (∃ i ∈ detectIncompatibilities ids params upgrades, i.divergenceHeight = d) ↔
      ∃ id, Schedule.divergence (buildSchedule ids params upgrades id)
        (nodeSchedule upgrades id) = some d := by
  unfold detectIncompatibilities
  simp only [List.mem_filterMap]
  constructor
  · rintro ⟨i, ⟨id, hid, hi⟩, rfl⟩
    have hdiv := divergenceHeight_branchIncompatibility ids params id (reportedUpgrade upgrades id)
    rw [hi] at hdiv
    refine ⟨id, ?_⟩
    unfold buildSchedule
    rw [if_pos hid]
    exact hdiv.symm
  · rintro ⟨id, hdiv⟩
    have hid : id ∈ examinedIds ids upgrades := by
      by_contra hid
      -- then neither side knows the branch
      have hnode : nodeSchedule upgrades id = none := by
        unfold nodeSchedule
        cases hfound : reportedUpgrade upgrades id with
        | none => rfl
        | some upgrade =>
          obtain ⟨hmem, heq⟩ := reportedUpgrade_mem hfound
          exact absurd (mem_examinedIds.mpr (Or.inl ⟨upgrade, hmem, heq⟩)) hid
      unfold buildSchedule at hdiv
      rw [if_neg hid, hnode] at hdiv
      cases hdiv
    unfold buildSchedule at hdiv
    rw [if_pos hid] at hdiv
    have hmap := (divergenceHeight_branchIncompatibility ids params id
      (reportedUpgrade upgrades id)).trans hdiv
    obtain ⟨i, hi, hheight⟩ := Option.map_eq_some_iff.mp hmap
    exact ⟨i, ⟨id, hid, hi⟩, hheight⟩

theorem foldl_min_spec (rest : List Incompatibility) (least : ℕ) :
    (rest.foldl (fun least i => min least i.divergenceHeight) least = least ∨
      ∃ i ∈ rest, i.divergenceHeight =
        rest.foldl (fun least i => min least i.divergenceHeight) least) ∧
    rest.foldl (fun least i => min least i.divergenceHeight) least ≤ least ∧
    ∀ i ∈ rest, rest.foldl (fun least i => min least i.divergenceHeight) least ≤
      i.divergenceHeight := by
  induction rest generalizing least with
  | nil => simp
  | cons i rest ih =>
    obtain ⟨hmem, hle, hall⟩ := ih (min least i.divergenceHeight)
    rw [List.foldl_cons]
    refine ⟨?_, hle.trans (min_le_left _ _), ?_⟩
    · rcases hmem with heq | ⟨j, hj, heq⟩
      · rcases min_choice least i.divergenceHeight with h | h
        · exact Or.inl (heq.trans h)
        · exact Or.inr ⟨i, List.mem_cons_self, (heq.trans h).symm⟩
      · exact Or.inr ⟨j, List.mem_cons_of_mem _ hj, heq⟩
    · intro j hj
      rcases List.mem_cons.mp hj with rfl | hj
      · exact hle.trans (min_le_right _ _)
      · exact hall j hj

theorem earliest_mem (first : Incompatibility) (rest : List Incompatibility) :
    ∃ i ∈ first :: rest, i.divergenceHeight = earliest first rest := by
  rcases (foldl_min_spec rest first.divergenceHeight).1 with h | ⟨i, hi, h⟩
  · exact ⟨first, List.mem_cons_self, h.symm⟩
  · exact ⟨i, List.mem_cons_of_mem _ hi, h⟩

theorem earliest_le {first : Incompatibility} {rest : List Incompatibility} {i : Incompatibility}
    (hi : i ∈ first :: rest) : earliest first rest ≤ i.divergenceHeight := by
  rcases List.mem_cons.mp hi with rfl | hi
  · exact (foldl_min_spec rest _).2.1
  · exact (foldl_min_spec rest _).2.2 i hi

theorem classify_pending {first : Incompatibility} {rest : List Incompatibility} {tip : ℕ}
    (h : ∀ i ∈ first :: rest, tip < i.divergenceHeight) :
    ∃ pending, classify first rest tip = .Pending (earliest first rest) pending := by
  unfold classify
  rw [List.partition_eq_filter_filter]
  have hempty : (first :: rest).filter (fun i => decide (i.divergenceHeight ≤ tip)) = [] := by
    rw [List.filter_eq_nil_iff]
    intro i hi
    simpa using h i hi
  simp only [hempty]
  exact ⟨_, rfl⟩

theorem classify_diverged {first : Incompatibility} {rest : List Incompatibility} {tip : ℕ}
    (h : ∃ i ∈ first :: rest, i.divergenceHeight ≤ tip) :
    ∃ active, classify first rest tip = .Diverged active := by
  obtain ⟨i, hi, hle⟩ := h
  unfold classify
  rw [List.partition_eq_filter_filter]
  have hmem : i ∈ (first :: rest).filter fun i => decide (i.divergenceHeight ≤ tip) :=
    List.mem_filter.mpr ⟨hi, by simpa using hle⟩
  have hne : ((first :: rest).filter fun i => decide (i.divergenceHeight ≤ tip)).isEmpty = false :=
    List.isEmpty_eq_false_iff_exists_mem.mpr ⟨i, hmem⟩
  simp only [hne]
  exact ⟨_, rfl⟩

/-- At the height of an incompatibility the two sides differ. -/
theorem rules_ne (hnodup : (upgrades.map ReportedUpgrade.branchId).Nodup) {i : Incompatibility}
    (hi : i ∈ detectIncompatibilities ids params upgrades) :
    nodeRules upgrades i.divergenceHeight ≠
      buildRules ids params (comparedBranches ids upgrades) i.divergenceHeight := by
  obtain ⟨id, hdiv⟩ := mem_detectIncompatibilities.mp ⟨i, hi, rfl⟩
  rw [← activeAt_nodeSchedule hnodup, ← activeAt_buildSchedule]
  exact (Schedule.activeAt_ne hdiv).symm

/-- Below the heights of all incompatibilities the two sides agree. -/
theorem rules_eq (hnodup : (upgrades.map ReportedUpgrade.branchId).Nodup) {height : ℕ}
    (h : ∀ i ∈ detectIncompatibilities ids params upgrades, height < i.divergenceHeight) :
    nodeRules upgrades height = buildRules ids params (comparedBranches ids upgrades) height := by
  rw [← activeAt_nodeSchedule hnodup, ← activeAt_buildSchedule]
  symm
  refine Schedule.agreeBelow_iff.mpr (fun id e hdiv => ?_) height (Nat.lt_succ_self height)
  obtain ⟨i, hi, rfl⟩ := mem_detectIncompatibilities.mpr ⟨id, hdiv⟩
  exact h i hi

/-- For a node that reports no branch ID twice, the check compares the branches
    the node and this build have activated: it answers `none` if they agree at
    all heights, the least height at which they differ if that is above the tip,
    and an error if they differ at or below the tip. -/
theorem checkConsensusCompatibility_exact
    (hnodup : (upgrades.map ReportedUpgrade.branchId).Nodup) (tip : ℕ) :
    (checkConsensusCompatibility ids params (.ok upgrades) (.ok tip) = .ok none ↔
      ∀ height, nodeRules upgrades height =
        buildRules ids params (comparedBranches ids upgrades) height) ∧
    (∀ d, checkConsensusCompatibility ids params (.ok upgrades) (.ok tip) = .ok (some d) ↔
      tip < d ∧
      nodeRules upgrades d ≠ buildRules ids params (comparedBranches ids upgrades) d ∧
      ∀ height < d, nodeRules upgrades height =
        buildRules ids params (comparedBranches ids upgrades) height) ∧
    ((∃ e, checkConsensusCompatibility ids params (.ok upgrades) (.ok tip) = .error e) ↔
      ∃ height ≤ tip, nodeRules upgrades height ≠
        buildRules ids params (comparedBranches ids upgrades) height) := by
  have hne := fun i => @rules_ne ids params upgrades hnodup i
  have heq := fun height => @rules_eq ids params upgrades hnodup height
  have hcheck : checkConsensusCompatibility ids params (.ok upgrades) (.ok tip) =
      match detectIncompatibilities ids params upgrades with
      | [] => .ok none
      | first :: rest =>
        match classify first rest tip with
        | .Diverged active =>
          .error (.IncompatibleConsensus (", ".intercalate (active.map Incompatibility.describe)))
        | .Pending height _ => .ok (some height) := rfl
  rw [hcheck]
  clear hcheck
  generalize nodeRules upgrades = node at hne heq ⊢
  generalize buildRules ids params (comparedBranches ids upgrades) = build at hne heq ⊢
  cases hincs : detectIncompatibilities ids params upgrades with
  | nil =>
    have hagree : ∀ height, node height = build height := by
      intro height
      refine heq height ?_
      rw [hincs]
      exact fun i hi => absurd hi List.not_mem_nil
    refine ⟨iff_of_true rfl hagree, fun d => iff_of_false (by simp) ?_, iff_of_false (by simp) ?_⟩
    · exact fun h => h.2.1 (hagree d)
    · rintro ⟨height, -, h⟩
      exact h (hagree height)
  | cons first rest =>
    rw [hincs] at hne heq
    by_cases hall : ∀ i ∈ first :: rest, tip < i.divergenceHeight
    · obtain ⟨pending, hclass⟩ := classify_pending hall
      obtain ⟨i, hi, hearliest⟩ := earliest_mem first rest
      have hdiffer : node (earliest first rest) ≠ build (earliest first rest) := by
        rw [← hearliest]
        exact hne i hi
      have hbelow : ∀ height < earliest first rest, node height = build height :=
        fun height hlt => heq height fun j hj => hlt.trans_le (earliest_le hj)
      have htip : tip < earliest first rest := by
        rw [← hearliest]
        exact hall i hi
      simp only [hclass]
      refine ⟨iff_of_false (by simp) (fun h => hdiffer (h _)), fun d => ?_,
        iff_of_false (by simp) ?_⟩
      · constructor
        · intro h
          cases h
          exact ⟨htip, hdiffer, hbelow⟩
        · rintro ⟨-, hd, hd'⟩
          have h₁ : ¬ earliest first rest < d := fun h => hdiffer (hd' _ h)
          have h₂ : ¬ d < earliest first rest := fun h => hd (hbelow d h)
          rw [le_antisymm (not_lt.mp h₂) (not_lt.mp h₁)]
      · rintro ⟨height, hle, h⟩
        exact h (hbelow height (hle.trans_lt htip))
    · simp only [not_forall, not_lt, exists_prop] at hall
      obtain ⟨i, hi, hle⟩ := hall
      obtain ⟨active, hclass⟩ := classify_diverged ⟨i, hi, hle⟩
      have hdiffer := hne i hi
      simp only [hclass]
      refine ⟨iff_of_false (by simp) (fun h => hdiffer (h _)), fun d => iff_of_false (by simp) ?_,
        iff_of_true ⟨_, rfl⟩ ⟨_, hle, hdiffer⟩⟩
      rintro ⟨htip, -, hbelow⟩
      exact hdiffer (hbelow _ (hle.trans_lt htip))

/-! ## Branch numbers -/

/-- The branch IDs of the network upgrades up to NU6.1. The numbers of the last
    two, which are scheduled nowhere below, are arbitrary. -/
def branchNumber : BranchId → BitVec 32
  | .Sprout => 0
  | .Overwinter => 0x5ba81b19
  | .Sapling => 0x76b809bb
  | .Blossom => 0x2bb40e60
  | .Heartwood => 0xf5b9230b
  | .Canopy => 0xe9ff75a6
  | .Nu5 => 0xc2d6d0b4
  | .Nu6 => 0xc8e71055
  | .Nu6_1 => 0x4dec4df0
  | .Nu6_2 => 1
  | .Nu6_3 => 2

def branchNumbers : BranchIds where
  toU32 := branchNumber
  tryFrom id := (.Sprout :: networkUpgrades).find? fun branch => decide (branchNumber branch = id)
  tryFrom_eq_some id branch := by
    constructor
    · intro h
      simpa using List.find?_some h
    · rintro rfl
      cases branch <;> decide

/-- A test network that schedules the upgrades up to Canopy at height 1. -/
def upToCanopy : Parameters where
  activationHeight
    | .Overwinter => some 1
    | .Sapling => some 1
    | .Blossom => some 1
    | .Heartwood => some 1
    | .Canopy => some 1
    | _ => none

/-- The upgrades a node on `upToCanopy` reports. -/
def canopyNode : List ReportedUpgrade :=
  [⟨0x5ba81b19, "Overwinter", 1, .Active⟩, ⟨0x76b809bb, "Sapling", 1, .Active⟩,
    ⟨0x2bb40e60, "Blossom", 1, .Active⟩, ⟨0xf5b9230b, "Heartwood", 1, .Active⟩,
    ⟨0xe9ff75a6, "Canopy", 1, .Active⟩]

/-- The node schedules NU5 at height 9, which this build does not. -/
theorem checkConsensusCompatibility_pending_nu5 :
    checkConsensusCompatibility branchNumbers upToCanopy
        (.ok (canopyNode ++ [⟨0xc2d6d0b4, "NU5", 9, .Pending⟩])) (.ok 5) = .ok (some 9) ∧
      ∀ height < 9, nodeRules (canopyNode ++ [⟨0xc2d6d0b4, "NU5", 9, .Pending⟩]) height =
        buildRules branchNumbers upToCanopy (comparedBranches branchNumbers
          (canopyNode ++ [⟨0xc2d6d0b4, "NU5", 9, .Pending⟩])) height := by
  have hcheck : checkConsensusCompatibility branchNumbers upToCanopy
      (.ok (canopyNode ++ [⟨0xc2d6d0b4, "NU5", 9, .Pending⟩])) (.ok 5) = .ok (some 9) := by
    decide +kernel
  exact ⟨hcheck, (((checkConsensusCompatibility_exact (by decide) 5).2.1 9).mp hcheck).2.2⟩

/-- Sprout, branch ID 0, is not among this build's upgrades, and a node that
    reports it from height 0 on is not flagged. Neither is one that does not,
    although Sprout is a branch this build knows. -/
theorem checkConsensusCompatibility_ignores_sprout :
    (checkConsensusCompatibility branchNumbers upToCanopy
        (.ok (⟨0, "Sprout", 0, .Active⟩ :: canopyNode)) (.ok 5) = .ok none ∧
      nodeRules (⟨0, "Sprout", 0, .Active⟩ :: canopyNode) 0 ≠
        buildRules branchNumbers upToCanopy {branch | branch ∈ networkUpgrades} 0) ∧
    (checkConsensusCompatibility branchNumbers upToCanopy (.ok canopyNode) (.ok 5) = .ok none ∧
      nodeRules canopyNode 0 ≠ buildRules branchNumbers upToCanopy Set.univ 0) := by
  have hbuild : (0 : BitVec 32) ∉
      buildRules branchNumbers upToCanopy {branch | branch ∈ networkUpgrades} 0 := by
    rintro ⟨branch, hmem, hid, -⟩
    have hne : ∀ branch ∈ networkUpgrades, branchNumber branch ≠ 0 := by decide
    exact hne branch hmem hid
  have hsprout : (0 : BitVec 32) ∈ buildRules branchNumbers upToCanopy Set.univ 0 :=
    ⟨.Sprout, trivial, rfl, (0, some 1), rfl, le_rfl⟩
  refine ⟨⟨by decide +kernel, fun h => hbuild ?_⟩, by decide +kernel, fun h => ?_⟩
  · rw [← h]
    exact ⟨⟨0, "Sprout", 0, .Active⟩, List.mem_cons_self, rfl, by decide, le_rfl⟩
  · rw [← h] at hsprout
    obtain ⟨upgrade, hmem, hid, -⟩ := hsprout
    have hne : ∀ upgrade ∈ canopyNode, upgrade.branchId ≠ 0 := by decide
    exact hne upgrade hmem hid

end Zallet.Chain
