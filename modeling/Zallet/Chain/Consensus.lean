import Mathlib

/-!
# Network upgrades

Consensus branches and their activation heights, as `zcash_protocol` defines
them, and what `zallet-core` adds: the list of upgrades this build recognizes
(`network.rs`) and the shielded pools with the upgrades that activate them
(`components/chain.rs`).

The 32-bit number of each branch is a parameter, `BranchIds`; only that
`try_from` inverts it is ever used. Branches behind an unstable compiler flag
are left out.
-/

namespace Zallet.Chain

/-- `NetworkUpgrade`. -/
inductive NetworkUpgrade
  | Overwinter
  | Sapling
  | Blossom
  | Heartwood
  | Canopy
  | Nu5
  | Nu6
  | Nu6_1
  | Nu6_2
  | Nu6_3
  deriving DecidableEq

/-- `BranchId`. -/
inductive BranchId
  | Sprout
  | Overwinter
  | Sapling
  | Blossom
  | Heartwood
  | Canopy
  | Nu5
  | Nu6
  | Nu6_1
  | Nu6_2
  | Nu6_3
  deriving DecidableEq

/-- `Parameters`: where each upgrade activates, if it is scheduled. -/
structure Parameters where
  activationHeight : NetworkUpgrade → Option ℕ

/-- `u32::from` and `try_from` of a `BranchId`. -/
structure BranchIds where
  toU32 : BranchId → BitVec 32
  tryFrom : BitVec 32 → Option BranchId
  tryFrom_eq_some : ∀ id branch, tryFrom id = some branch ↔ toU32 branch = id

/-- The upgrade that begins a branch and the one that ends it; Sprout begins
    with the chain. -/
def BranchId.upgrades : BranchId → Option NetworkUpgrade × Option NetworkUpgrade
  | Sprout => (none, some .Overwinter)
  | Overwinter => (some .Overwinter, some .Sapling)
  | Sapling => (some .Sapling, some .Blossom)
  | Blossom => (some .Blossom, some .Heartwood)
  | Heartwood => (some .Heartwood, some .Canopy)
  | Canopy => (some .Canopy, some .Nu5)
  | Nu5 => (some .Nu5, some .Nu6)
  | Nu6 => (some .Nu6, some .Nu6_1)
  | Nu6_1 => (some .Nu6_1, some .Nu6_2)
  | Nu6_2 => (some .Nu6_2, some .Nu6_3)
  | Nu6_3 => (some .Nu6_3, none)

/-- `BranchId::height_bounds`. -/
def BranchId.heightBounds (branch : BranchId) (params : Parameters) : Option (ℕ × Option ℕ) :=
  match branch.upgrades with
  | (none, last) => (last.bind params.activationHeight).map fun upper => (0, some upper)
  | (some first, last) =>
    (params.activationHeight first).map fun lower => (lower, last.bind params.activationHeight)

/-- `BranchId::for_height`: the branch of the latest upgrade active at `height`. -/
def BranchId.forHeight (params : Parameters) (height : ℕ) : BranchId :=
  let active (branch : BranchId) : Bool :=
    match branch.heightBounds params with
    | some (activation, _) => decide (activation ≤ height)
    | none => false
  ([.Nu6_3, .Nu6_2, .Nu6_1, .Nu6, .Nu5, .Canopy, .Heartwood, .Blossom, .Sapling, .Overwinter].find?
    active).getD .Sprout

/-- `NETWORK_UPGRADES` (network.rs, lines 23–36). -/
def networkUpgrades : List BranchId :=
  [.Overwinter, .Sapling, .Blossom, .Heartwood, .Canopy, .Nu5, .Nu6, .Nu6_1, .Nu6_2, .Nu6_3]

/-! ## Pools -/

/-- `TreePool` (chain.rs, lines 518–527). -/
inductive TreePool
  | Sapling
  | Orchard
  | Ironwood
  deriving DecidableEq

/-- `TreePool::activated_by` (lines 532–538). -/
def TreePool.activatedBy : TreePool → NetworkUpgrade
  | Sapling => .Sapling
  | Orchard => .Nu5
  | Ironwood => .Nu6_3

/-- `Display` of `TreePool` (lines 541–549). -/
def TreePool.display : TreePool → String
  | Sapling => "Sapling"
  | Orchard => "Orchard"
  | Ironwood => "Ironwood"

/-- `empty_tree_is_legitimate` (lines 567–574). -/
def emptyTreeIsLegitimate (params : Parameters) (pool : TreePool) (height : ℕ) : Bool :=
  match params.activationHeight pool.activatedBy with
  | none => true
  | some activation => decide (height < activation)

theorem emptyTreeIsLegitimate_iff {params : Parameters} {pool : TreePool} {height : ℕ} :
    emptyTreeIsLegitimate params pool height = true ↔
      ∀ activation ∈ params.activationHeight pool.activatedBy, height < activation := by
  unfold emptyTreeIsLegitimate
  cases params.activationHeight pool.activatedBy with
  | none => simp
  | some activation => simp

end Zallet.Chain
