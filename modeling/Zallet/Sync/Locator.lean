import Zallet.Sync.Machine

/-!
# Block locators (`sync/locator.rs`)

`locatorBlockHeights tip` lists the heights to sample for a locator: the tip,
then exponentially growing gaps, then the floor. The heights strictly
decrease (`locatorBlockHeights_decreasing`), so the assertion of
`BlockLocator::from_blocks` never fires and `build_block_locator` returns the
wallet's own hashes at those heights (`wpE_buildBlockLocator`).
-/

namespace Zallet.Sync

open Zallet.Effect Zallet.Common Zallet.Chain Zallet.Wallet

/-- `MAX_LOCATOR_DEPTH`. -/
def maxLocatorDepth : ℕ := 1000

/-- `std::iter::successors(Some(1u32), |step| step.checked_mul(2))`: the powers
    of two below `2^32`. -/
def locatorSteps : List ℕ := (List.range 32).map (2 ^ ·)

/-- `u32::checked_sub`. -/
def checkedSub (a b : ℕ) : Option ℕ := if b ≤ a then some (a - b) else none

/-- `locator_block_heights` (lines 22–35). -/
def locatorBlockHeights (tip : ℕ) : List ℕ :=
  let min := tip - maxLocatorDepth
  let exponential := locatorSteps.filterMap (checkedSub tip)
  (tip :: exponential).takeWhile (fun height => decide (min < height)) ++ [min]

/-- The loop of `build_block_locator` (lines 46–51): the wallet's blocks at
    `heights`, where it has one. -/
def collectBlocks : List ℕ → SyncM (List ChainBlock)
  | [] => pure []
  | height :: rest => do
    let hash ← db (.getBlockHash height)
    let blocks ← collectBlocks rest
    match hash with
    | some hash => pure (⟨height, hash⟩ :: blocks)
    | none => pure blocks

/-- `build_block_locator` (lines 42–53). -/
def buildBlockLocator (tip : ℕ) : SyncM BlockLocator := do
  let blocks ← collectBlocks (locatorBlockHeights tip)
  match BlockLocator.fromBlocks blocks with
  | some locator => pure locator
  | none => perform (.panic "locator block heights must be strictly decreasing") >>= Empty.elim

/-! ## The sampled heights -/

theorem checkedSub_eq_some {a b c : ℕ} : checkedSub a b = some c ↔ b ≤ a ∧ c = a - b := by
  unfold checkedSub
  by_cases h : b ≤ a
  · rw [if_pos h, Option.some.injEq]
    omega
  · rw [if_neg h]
    simp [h]

theorem locatorSteps_increasing : locatorSteps.Pairwise (· < ·) := by decide

theorem locatorSteps_pos : ∀ step ∈ locatorSteps, 0 < step := by decide

/-- The tip and the exponentially spaced heights below it. -/
theorem exponential_decreasing (tip : ℕ) :
    (tip :: locatorSteps.filterMap (checkedSub tip)).Pairwise (· > ·) := by
  rw [List.pairwise_cons, List.pairwise_filterMap]
  constructor
  · intro height hh
    obtain ⟨step, hstep, hsub⟩ := List.mem_filterMap.mp hh
    have hpos := locatorSteps_pos step hstep
    rw [checkedSub_eq_some] at hsub
    omega
  · refine locatorSteps_increasing.imp ?_
    intro a b hab x hx y hy
    rw [checkedSub_eq_some] at hx hy
    omega

/-- The heights of a locator strictly decrease. -/
theorem locatorBlockHeights_decreasing (tip : ℕ) :
    (locatorBlockHeights tip).Pairwise (· > ·) := by
  unfold locatorBlockHeights
  rw [List.pairwise_append]
  refine ⟨?_, List.pairwise_singleton _ _, ?_⟩
  · exact (exponential_decreasing tip).sublist (List.takeWhile_sublist _)
  · intro height hh min hmin
    have hgt := List.mem_takeWhile_imp hh
    rw [List.mem_singleton] at hmin
    simp only [decide_eq_true_eq] at hgt
    omega

/-- No sampled height is above the tip. -/
theorem le_of_mem_locatorBlockHeights {tip height : ℕ} (h : height ∈ locatorBlockHeights tip) :
    height ≤ tip := by
  unfold locatorBlockHeights at h
  rcases List.mem_append.mp h with h | h
  · have h' := (List.takeWhile_sublist _).subset h
    rcases List.mem_cons.mp h' with rfl | h'
    · exact le_rfl
    · obtain ⟨step, -, hsub⟩ := List.mem_filterMap.mp h'
      rw [checkedSub_eq_some] at hsub
      omega
  · rw [List.mem_singleton] at h
    omega

/-- The tip itself is sampled. -/
theorem tip_mem_locatorBlockHeights (tip : ℕ) : tip ∈ locatorBlockHeights tip := by
  by_cases htip : tip - maxLocatorDepth < tip
  · apply List.mem_append_left
    rw [List.takeWhile_cons_of_pos (by simpa using htip)]
    exact List.mem_cons_self
  · apply List.mem_append_right
    rw [List.mem_singleton]
    omega

/-! ## The wallet's locator -/

/-- The wallet's blocks at `heights`, where it has one. -/
def walletBlocks (d : WalletDb) (heights : List ℕ) : List ChainBlock :=
  heights.filterMap fun height => (d.blocks height).map fun hash => ⟨height, hash⟩

/-- The locator of the wallet's history up to `tip`. -/
def walletLocator (d : WalletDb) (tip : ℕ) : BlockLocator :=
  ⟨(walletBlocks d (locatorBlockHeights tip)).map (·.hash)⟩

theorem mem_walletBlocks {d : WalletDb} {heights : List ℕ} {b : ChainBlock} :
    b ∈ walletBlocks d heights ↔ b.height ∈ heights ∧ d.blocks b.height = some b.hash := by
  unfold walletBlocks
  rw [List.mem_filterMap]
  constructor
  · rintro ⟨height, hh, hb⟩
    obtain ⟨hash, hhash, rfl⟩ := Option.map_eq_some_iff.mp hb
    exact ⟨hh, hhash⟩
  · rintro ⟨hh, hb⟩
    exact ⟨b.height, hh, by rw [hb]; rfl⟩

/-- The hashes of the wallet's locator are those it records at the sampled
    heights. -/
theorem mem_walletLocator_iff {d : WalletDb} {tip : ℕ} {hash : BlockHash} :
    hash ∈ (walletLocator d tip).hashes ↔
      ∃ height ∈ locatorBlockHeights tip, d.blocks height = some hash := by
  unfold walletLocator
  rw [List.mem_map]
  constructor
  · rintro ⟨b, hb, rfl⟩
    obtain ⟨hh, hr⟩ := mem_walletBlocks.mp hb
    exact ⟨b.height, hh, hr⟩
  · rintro ⟨height, hh, hr⟩
    exact ⟨⟨height, hash⟩, mem_walletBlocks.mpr ⟨hh, hr⟩, rfl⟩

/-- They are recorded at or below the tip. -/
theorem mem_walletLocator {d : WalletDb} {tip : ℕ} {hash : BlockHash}
    (h : hash ∈ (walletLocator d tip).hashes) :
    ∃ height ≤ tip, d.blocks height = some hash := by
  obtain ⟨height, hh, hr⟩ := mem_walletLocator_iff.mp h
  exact ⟨height, le_of_mem_locatorBlockHeights hh, hr⟩

/-- The hash recorded at the tip is in the locator. -/
theorem tip_mem_walletLocator {d : WalletDb} {tip : ℕ} {hash : BlockHash}
    (h : d.blocks tip = some hash) : hash ∈ (walletLocator d tip).hashes :=
  mem_walletLocator_iff.mpr ⟨tip, tip_mem_locatorBlockHeights tip, h⟩

/-- The wallet's blocks at strictly decreasing heights strictly decrease. -/
theorem walletBlocks_decreasing {d : WalletDb} {heights : List ℕ} (h : heights.Pairwise (· > ·)) :
    (walletBlocks d heights).Pairwise fun a b => b.height < a.height := by
  unfold walletBlocks
  rw [List.pairwise_filterMap]
  refine h.imp ?_
  intro a b hab x hx y hy
  obtain ⟨hash, -, rfl⟩ := Option.map_eq_some_iff.mp hx
  obtain ⟨hash', -, rfl⟩ := Option.map_eq_some_iff.mp hy
  exact hab

/-- They pass the assertion of `BlockLocator::from_blocks`. -/
theorem fromBlocks_walletBlocks {d : WalletDb} {heights : List ℕ}
    (h : heights.Pairwise (· > ·)) :
    BlockLocator.fromBlocks (walletBlocks d heights) =
      some ⟨(walletBlocks d heights).map (·.hash)⟩ :=
  BlockLocator.fromBlocks_eq (walletBlocks_decreasing h).isChain

section

variable {T : BlockTree BlockHash} {K : (o : SyncOp) → SyncWorld → o.Ret → Prop}
  {failed : SyncError → Prop} {ok : SyncOp → SyncWorld → Prop} {w : SyncWorld}

theorem wpE_collectBlocks (hF : FailsWith K failed) (hok : ∀ o w, o.Reads → ok o w)
    (heights : List ℕ) {Q : Except SyncError (List ChainBlock) → SyncWorld → Prop}
    (hQ : Q (.ok (walletBlocks w.db heights)) w) (hE : ∀ e, failed e → Q (.error e) w) :
    wpE ((contract T).restrict K) Eq ok Q (collectBlocks heights) w := by
  induction heights generalizing Q with
  | nil => exact hQ
  | cons height rest ih =>
    rw [collectBlocks, wpE_bind]
    refine wpE_db_restrict hF (by trivial) (hok _ _ trivial) ?_ hE
    rintro hash ⟨rfl, -⟩
    rw [andThen_ok, wpE_bind]
    refine ih ?_ hE
    rw [andThen_ok]
    cases hb : w.db.blocks height with
    | none => simpa [walletBlocks, hb] using hQ
    | some hash => simpa [walletBlocks, hb] using hQ

/-- `build_block_locator` returns the wallet's locator or fails, and changes
    nothing. -/
theorem wpE_buildBlockLocator (hF : FailsWith K failed) (hok : ∀ o w, o.Reads → ok o w) (tip : ℕ)
    {Q : Except SyncError BlockLocator → SyncWorld → Prop}
    (hQ : Q (.ok (walletLocator w.db tip)) w) (hE : ∀ e, failed e → Q (.error e) w) :
    wpE ((contract T).restrict K) Eq ok Q (buildBlockLocator tip) w := by
  unfold buildBlockLocator
  rw [wpE_bind]
  refine wpE_collectBlocks hF hok _ ?_ hE
  rw [andThen_ok, fromBlocks_walletBlocks (locatorBlockHeights_decreasing tip)]
  exact hQ

end

end Zallet.Sync
