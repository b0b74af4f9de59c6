import Zallet.Chain.Compatibility
import Zallet.Common.Radix
import Zallet.Common.Text

/-!
# Regtest network-upgrade parameters

`zallet-core/src/network.rs`, lines 38–166: the parameters `branch:height` of a local
network, as they are written in the configuration, and the activation heights they give.

The public networks are parameters, and so are the 32-bit numbers of the branches.

* `tryFrom_eq_ok`: the texts that are read as a parameter.
* `nuparams_roundtrip`: what is written is read back, and a text that is read means what
  the parameter that it is rewritten to means.
* `regtest_network`: an upgrade that is left out activates with the next one; and the nodes
  that such a network is compatible with.
-/

namespace Zallet.Chain.Nuparams

open Zallet.Common Zallet.Common.Text Zallet.Common.Radix

/-! ## Parameters of regtest mode -/

/-- How many values a `u32` has. -/
def u32Values : ℕ := 2 ^ 32

/-- `RegTestNuParam` (lines 117–120). -/
structure RegTestNuParam where
  consensusBranchId : BranchId
  activationHeight : UInt32
  deriving DecidableEq

/-- The error of `try_from`. -/
def invalid : String := "Invalid `regtest_nuparam`"

variable (ids : BranchIds)

/-- `RegTestNuParam::try_from` (lines 125–143). -/
def RegTestNuParam.tryFrom (value : List Char) : Except String RegTestNuParam :=
  match splitOnce ':' value with
  | none => .error invalid
  | some (branchId, height) =>
    match (fromStrRadix 16 u32Values branchId).bind fun id => ids.tryFrom (BitVec.ofNat 32 id) with
    | none => .error invalid
    | some consensusBranchId =>
      match fromStrRadix 10 u32Values height with
      | none => .error invalid
      | some height => .ok ⟨consensusBranchId, UInt32.ofNat height⟩

/-- `String::from` (lines 146–154): `\x7b:08x\x7d:\x7b\x7d`. -/
def RegTestNuParam.toText (nuparam : RegTestNuParam) : List Char :=
  List.leftpad 8 '0' (Nat.toDigits 16 (ids.toU32 nuparam.consensusBranchId).toNat) ++
    ':' :: Nat.toDigits 10 nuparam.activationHeight.toNat

/-! ## The networks -/

/-- `NetworkType`. -/
inductive NetworkType
  | Main
  | Test
  | Regtest
  deriving DecidableEq

/-- `LocalNetwork`. -/
structure LocalNetwork where
  overwinter : Option UInt32
  sapling : Option UInt32
  blossom : Option UInt32
  heartwood : Option UInt32
  canopy : Option UInt32
  nu5 : Option UInt32
  nu6 : Option UInt32
  nu6_1 : Option UInt32
  nu6_2 : Option UInt32
  nu6_3 : Option UInt32
  deriving DecidableEq

/-- `Network` (lines 11–16), with `consensus::Network` by its type. -/
inductive Network
  | Consensus (network : NetworkType)
  | RegTest (network : LocalNetwork)

/-- `find_nu` (lines 47–52). -/
def findNu (nuparams : List RegTestNuParam) (nu : BranchId) : Option UInt32 :=
  (nuparams.find? fun p => p.consensusBranchId == nu).map RegTestNuParam.activationHeight

/-- The walk from the latest upgrade to the earliest (lines 57–65). -/
def carryBack (find : BranchId → Option UInt32) :
    List BranchId → Option UInt32 → List (BranchId × Option UInt32)
  | [], _ => []
  | nu :: rest, next =>
    let next := (find nu).or next
    (nu, next) :: carryBack find rest next

/-- `height` (lines 66–71). -/
def heightOf (heights : List (BranchId × Option UInt32)) (nu : BranchId) : Option UInt32 :=
  (heights.find? fun entry => entry.1 == nu).bind Prod.snd

/-- `Network::from_type` (lines 41–88). -/
def Network.fromType (networkType : NetworkType) (nuparams : List RegTestNuParam) : Network :=
  match networkType with
  | .Main => .Consensus .Main
  | .Test => .Consensus .Test
  | .Regtest =>
    let heights := carryBack (findNu nuparams) networkUpgrades.reverse none
    .RegTest {
      overwinter := heightOf heights .Overwinter
      sapling := heightOf heights .Sapling
      blossom := heightOf heights .Blossom
      heartwood := heightOf heights .Heartwood
      canopy := heightOf heights .Canopy
      nu5 := heightOf heights .Nu5
      nu6 := heightOf heights .Nu6
      nu6_1 := heightOf heights .Nu6_1
      nu6_2 := heightOf heights .Nu6_2
      nu6_3 := heightOf heights .Nu6_3 }

/-- `LocalNetwork::activation_height`. -/
def LocalNetwork.activationHeight (network : LocalNetwork) : NetworkUpgrade → Option UInt32
  | .Overwinter => network.overwinter
  | .Sapling => network.sapling
  | .Blossom => network.blossom
  | .Heartwood => network.heartwood
  | .Canopy => network.canopy
  | .Nu5 => network.nu5
  | .Nu6 => network.nu6
  | .Nu6_1 => network.nu6_1
  | .Nu6_2 => network.nu6_2
  | .Nu6_3 => network.nu6_3

/-- `Network::activation_height` (lines 99–104); `publicNetwork` gives the public ones. -/
def Network.parameters (publicNetwork : NetworkType → Parameters) : Network → Parameters
  | .Consensus network => publicNetwork network
  | .RegTest network => ⟨fun nu => (network.activationHeight nu).map UInt32.toNat⟩

/-! ## Texts -/

/-- `text` spells `n`, perhaps with a plus. -/
def Writes (radix : ℕ) (text : List Char) (n : ℕ) : Prop :=
  ∃ ds ≠ [], (text = ds ∨ text = '+' :: ds) ∧ Spells radix ds n

section texts

variable {ids}

theorem fromStrRadix_u32 {radix n : ℕ} {text : List Char} (hr : 0 < radix) (hn : n < 2 ^ 32) :
    fromStrRadix radix u32Values text = some n ↔ Writes radix text n := by
  rw [fromStrRadix_eq_some hr (by norm_num [u32Values])]
  exact and_iff_right hn

theorem Writes.notMem {text : List Char} {n : ℕ} (h : Writes 16 text n) : ':' ∉ text := by
  obtain ⟨ds, -, htext, hds⟩ := h
  have hnot : ':' ∉ ds := by
    intro hmem
    obtain ⟨d, hd⟩ := hds.digit ':' hmem
    have hnone : toDigit 16 ':' = none := by decide
    rw [hnone] at hd
    cases hd
  rcases htext with htext | htext
  · rwa [htext]
  · rw [htext, List.mem_cons, not_or]
    exact ⟨by decide, hnot⟩

theorem writes_toDigits {radix : ℕ} (h1 : 1 < radix) (hr : radix ≤ 16) (k n : ℕ) :
    Writes radix (List.leftpad k '0' (Nat.toDigits radix n)) n := by
  refine ⟨_, ?_, Or.inl rfl, spells_zeros h1 (spells_toDigits h1 hr n) _⟩
  intro h
  exact Nat.toDigits_ne_nil (List.append_eq_nil_iff.mp h).2

/-- The texts that are read: the number of the branch and the height, in their radix. -/
theorem tryFrom_eq_ok {value : List Char} {nuparam : RegTestNuParam} :
    RegTestNuParam.tryFrom ids value = .ok nuparam ↔
      ∃ branchId height, value = branchId ++ ':' :: height ∧
        Writes 16 branchId (ids.toU32 nuparam.consensusBranchId).toNat ∧
        Writes 10 height nuparam.activationHeight.toNat := by
  unfold RegTestNuParam.tryFrom
  constructor
  · intro h
    cases hsplit : splitOnce ':' value with
    | none => simp [hsplit] at h
    | some parts =>
      obtain ⟨branchId, height⟩ := parts
      simp only [hsplit] at h
      cases hid : (fromStrRadix 16 u32Values branchId).bind
          fun id => ids.tryFrom (BitVec.ofNat 32 id) with
      | none => simp [hid] at h
      | some branch =>
        cases hheight : fromStrRadix 10 u32Values height with
        | none => simp [hid, hheight] at h
        | some n =>
          simp only [hid, hheight, Except.ok.injEq] at h
          subst h
          obtain ⟨id, hread, hbranch⟩ := Option.bind_eq_some_iff.mp hid
          have hlt := ((fromStrRadix_eq_some (by norm_num) (by norm_num [u32Values])).mp hread).1
          have hn := ((fromStrRadix_eq_some (by norm_num) (by norm_num [u32Values])).mp hheight).1
          have hu32 := (ids.tryFrom_eq_some _ _).mp hbranch
          refine ⟨branchId, height, (splitOnce_eq_some.mp hsplit).2, ?_, ?_⟩
          · rw [hu32, BitVec.toNat_ofNat, Nat.mod_eq_of_lt (show id < 2 ^ 32 from hlt)]
            exact (fromStrRadix_u32 (by norm_num) hlt).mp hread
          · rw [UInt32.toNat_ofNat_of_lt' hn]
            exact (fromStrRadix_u32 (by norm_num) hn).mp hheight
  · intro ⟨branchId, height, hvalue, hid, hheight⟩
    have hsplit : splitOnce ':' value = some (branchId, height) :=
      splitOnce_eq_some.mpr ⟨hid.notMem, hvalue⟩
    have hread := (fromStrRadix_u32 (by norm_num) (BitVec.isLt _)).mpr hid
    have hn := (fromStrRadix_u32 (by norm_num) (UInt32.toNat_lt _)).mpr hheight
    have hbranch := (ids.tryFrom_eq_some _ nuparam.consensusBranchId).mpr rfl
    simp only [hsplit, hread, hn, Option.bind_some, BitVec.ofNat_toNat, BitVec.setWidth_eq,
      hbranch, UInt32.ofNat_toNat]

theorem tryFrom_toText (nuparam : RegTestNuParam) :
    RegTestNuParam.tryFrom ids (nuparam.toText ids) = .ok nuparam := by
  rw [tryFrom_eq_ok]
  have hheight : Writes 10 (List.leftpad 0 '0' (Nat.toDigits 10 nuparam.activationHeight.toNat))
      nuparam.activationHeight.toNat := writes_toDigits (by norm_num) (by norm_num) 0 _
  rw [List.leftpad, Nat.zero_sub, List.replicate_zero, List.nil_append] at hheight
  exact ⟨_, _, rfl, writes_toDigits (by norm_num) (by norm_num) 8 _, hheight⟩

end texts

/-! ## Activation heights -/

/-- The upgrades from `nu` on, in activation order. -/
def upgradesFrom (nu : BranchId) : List BranchId := networkUpgrades.drop (networkUpgrades.idxOf nu)

/-- The height of the next upgrade, `nu` included, that the parameters specify. -/
def nextSpecified (nuparams : List RegTestNuParam) (nu : BranchId) : Option UInt32 :=
  (upgradesFrom nu).findSome? (findNu nuparams)

/-- What the walk over the upgrades `rest` behind `next` yields for one of them: the first
    height that it passes on the way back. -/
theorem heightOf_carryBack (find : BranchId → Option UInt32) {nu : BranchId} {ups : List BranchId}
    (hmem : nu ∈ ups) (hnodup : ups.Nodup) (next : Option UInt32) :
    heightOf (carryBack find ups.reverse next) nu =
      ((ups.drop (ups.idxOf nu)).findSome? find).or next := by
  induction ups using List.reverseRecOn generalizing next with
  | nil => cases hmem
  | append_singleton ups last ih =>
    rw [List.reverse_append, List.reverse_singleton, List.singleton_append, carryBack, heightOf]
    by_cases hlast : last = nu
    · subst hlast
      have hnot : last ∉ ups := by
        intro h
        have hdisjoint := (List.nodup_append.mp hnodup).2.2 last h last (List.mem_singleton_self _)
        exact hdisjoint rfl
      rw [List.idxOf_append_of_notMem hnot, List.drop_append]
      simp
    · have hin : nu ∈ ups := by
        rcases List.mem_append.mp hmem with h | h
        · exact h
        · exact absurd (List.mem_singleton.mp h).symm hlast
      rw [List.find?_cons_of_neg (by simpa using hlast)]
      show heightOf _ nu = _
      rw [ih hin (List.nodup_append.mp hnodup).1, List.idxOf_append_of_mem hin,
        List.drop_append_of_le_length (List.idxOf_le_length), List.findSome?_append,
        ← Option.or_assoc]
      simp

variable (publicNetwork : NetworkType → Parameters) (nuparams : List RegTestNuParam)

/-- The upgrade that begins a branch. -/
theorem mem_networkUpgrades {branch : BranchId} :
    branch ∈ networkUpgrades ↔ branch ≠ .Sprout := by
  cases branch <;> decide

theorem activationHeight_fromType {branch : BranchId} {nu : NetworkUpgrade}
    (h : branch.upgrades.1 = some nu) :
    ((Network.fromType .Regtest nuparams).parameters publicNetwork).activationHeight nu =
      (nextSpecified nuparams branch).map UInt32.toNat := by
  have hmem : branch ∈ networkUpgrades := by
    rw [mem_networkUpgrades]
    intro hsprout
    rw [hsprout] at h
    cases h
  have hheight := heightOf_carryBack (findNu nuparams) hmem (by decide) none
  rw [Option.or_none] at hheight
  rw [nextSpecified, upgradesFrom, ← hheight]
  cases branch <;> cases h <;> rfl

/-- In a list of increasing values, the first one found is the least. -/
theorem findSome?_drop_le {K : Type} {find : K → Option UInt32} {keys : List K} {k : ℕ}
    {a b : UInt32} (hmono : keys.Pairwise fun x y => ∀ a ∈ find x, ∀ b ∈ find y, a ≤ b)
    (ha : keys.findSome? find = some a) (hb : (keys.drop k).findSome? find = some b) : a ≤ b := by
  induction keys generalizing k with
  | nil => cases ha
  | cons key keys ih =>
    obtain ⟨hkey, hrest⟩ := List.pairwise_cons.mp hmono
    cases k with
    | zero =>
      rw [List.drop_zero, ha] at hb
      rw [Option.some.inj hb]
      exact UInt32.le_refl b
    | succ k =>
      rw [List.drop_succ_cons] at hb
      rw [List.findSome?_cons] at ha
      cases hfind : find key with
      | none =>
        simp only [hfind] at ha
        exact ih hrest ha hb
      | some v =>
        simp only [hfind, Option.some.injEq] at ha
        obtain ⟨later, hlater, hv⟩ := List.exists_of_findSome?_eq_some hb
        rw [← ha]
        exact hkey later (List.mem_of_mem_drop hlater) v hfind b hv

theorem upgradesFrom_drop {earlier later : BranchId}
    (hle : networkUpgrades.idxOf earlier ≤ networkUpgrades.idxOf later) :
    upgradesFrom later = (upgradesFrom earlier).drop
      (networkUpgrades.idxOf later - networkUpgrades.idxOf earlier) := by
  rw [upgradesFrom, upgradesFrom, List.drop_drop, Nat.add_sub_cancel' hle]

/-- With an upgrade, all earlier ones are scheduled. -/
theorem nextSpecified_earlier {earlier later : BranchId}
    (hle : networkUpgrades.idxOf earlier ≤ networkUpgrades.idxOf later) {b : UInt32}
    (hb : nextSpecified nuparams later = some b) : ∃ a, nextSpecified nuparams earlier = some a := by
  rw [nextSpecified, upgradesFrom_drop hle] at hb
  obtain ⟨nu, hnu, hfind⟩ := List.exists_of_findSome?_eq_some hb
  rw [← Option.isSome_iff_exists, nextSpecified, List.findSome?_isSome_iff]
  exact ⟨nu, List.mem_of_mem_drop hnu, by rw [hfind, Option.isSome_some]⟩

/-- The parameters name their upgrades in activation order. -/
def Increasing : Prop :=
  ∀ p ∈ nuparams, ∀ q ∈ nuparams, networkUpgrades.idxOf p.consensusBranchId ≤
    networkUpgrades.idxOf q.consensusBranchId → p.activationHeight ≤ q.activationHeight

theorem findNu_mem {nu : BranchId} {a : UInt32} (h : findNu nuparams nu = some a) :
    ∃ p ∈ nuparams, p.consensusBranchId = nu ∧ p.activationHeight = a := by
  obtain ⟨p, hp, ha⟩ := Option.map_eq_some_iff.mp h
  exact ⟨p, List.mem_of_find?_eq_some hp, by simpa using List.find?_some hp, ha⟩

theorem nextSpecified_le {earlier later : BranchId} (hinc : Increasing nuparams)
    (hle : networkUpgrades.idxOf earlier ≤ networkUpgrades.idxOf later) {a b : UInt32}
    (ha : nextSpecified nuparams earlier = some a) (hb : nextSpecified nuparams later = some b) :
    a ≤ b := by
  rw [nextSpecified, upgradesFrom_drop hle] at hb
  refine findSome?_drop_le ?_ ha hb
  have hidx : networkUpgrades.Pairwise fun x y =>
      networkUpgrades.idxOf x ≤ networkUpgrades.idxOf y := by decide
  refine (hidx.sublist (List.drop_sublist _ _)).imp ?_
  intro x y hxy a ha b hb
  obtain ⟨p, hp, rfl, rfl⟩ := findNu_mem nuparams ha
  obtain ⟨q, hq, rfl, rfl⟩ := findNu_mem nuparams hb
  exact hinc p hp q hq hxy

/-! ## Compatible nodes -/

/-- The check finds nothing exactly if the two schedules are the same. -/
theorem check_eq_none {params : Parameters} {upgrades : List ReportedUpgrade} {tip : ℕ} :
    checkConsensusCompatibility ids params (.ok upgrades) (.ok tip) = .ok none ↔
      ∀ id, buildSchedule ids params upgrades id = nodeSchedule upgrades id := by
  have hnil : checkConsensusCompatibility ids params (.ok upgrades) (.ok tip) = .ok none ↔
      detectIncompatibilities ids params upgrades = [] := by
    cases hdetect : detectIncompatibilities ids params upgrades with
    | nil => simp [checkConsensusCompatibility, hdetect, Except.mapError, bind, Except.bind,
        pure, Except.pure]
    | cons first rest =>
      cases hclass : classify first rest tip with
      | Diverged active =>
        simp [checkConsensusCompatibility, hdetect, hclass, Except.mapError, bind, Except.bind,
          throw, throwThe, MonadExceptOf.throw]
      | Pending height pending =>
        simp [checkConsensusCompatibility, hdetect, hclass, Except.mapError, bind, Except.bind,
          pure, Except.pure]
  rw [hnil]
  constructor
  · intro h id
    rw [← Schedule.divergence_eq_none, Option.eq_none_iff_forall_not_mem]
    intro d hd
    obtain ⟨i, hi, -⟩ := mem_detectIncompatibilities.mpr ⟨id, hd⟩
    rw [h] at hi
    cases hi
  · intro h
    rw [List.eq_nil_iff_forall_not_mem]
    intro i hi
    obtain ⟨id, hd⟩ := mem_detectIncompatibilities.mp ⟨i, hi, rfl⟩
    rw [Schedule.divergence_eq_none.mpr (h id)] at hd
    cases hd

/-- The upgrade that begins a branch other than Sprout. -/
theorem exists_upgrade {branch : BranchId} (h : branch ≠ .Sprout) :
    ∃ nu, branch.upgrades.1 = some nu := by
  cases branch with
  | Sprout => exact absurd rfl h
  | _ => exact ⟨_, rfl⟩

theorem heightBounds_fst {branch : BranchId} {nu : NetworkUpgrade} (params : Parameters)
    (h : branch.upgrades.1 = some nu) :
    (branch.heightBounds params).map Prod.fst = params.activationHeight nu := by
  cases hup : branch.upgrades with
  | mk first last =>
    rw [hup] at h
    obtain rfl : first = some nu := h
    simp [BranchId.heightBounds, hup, Option.map_map, Function.comp_def]

/-- The schedule of a local network. -/
def regtestSchedule : Schedule (BitVec 32) :=
  fun id => (ids.tryFrom id).bind fun branch => (nextSpecified nuparams branch).map UInt32.toNat

theorem nextSpecified_sprout : nextSpecified nuparams .Sprout = none := rfl

variable {upgrades : List ReportedUpgrade}

/-- What this build expects of a node on the local network, as long as the node does not
    name Sprout. -/
theorem buildSchedule_regtest (hsprout : ∀ upgrade ∈ upgrades, upgrade.branchId ≠ ids.toU32 .Sprout)
    (id : BitVec 32) :
    buildSchedule ids ((Network.fromType .Regtest nuparams).parameters publicNetwork) upgrades id =
      regtestSchedule ids nuparams id := by
  unfold buildSchedule expectedHeight regtestSchedule
  cases hid : ids.tryFrom id with
  | none => simp
  | some branch =>
    have htoU32 := (ids.tryFrom_eq_some id branch).mp hid
    by_cases hbranch : branch = .Sprout
    · subst hbranch
      have hnot : id ∉ examinedIds ids upgrades := by
        rw [mem_examinedIds]
        rintro (⟨upgrade, hupgrade, heq⟩ | ⟨branch, hmem, heq⟩)
        · exact hsprout upgrade hupgrade (heq.trans htoU32.symm)
        · rw [← htoU32] at heq
          have hsame := (ids.tryFrom_eq_some _ branch).mpr heq
          rw [(ids.tryFrom_eq_some _ BranchId.Sprout).mpr rfl, Option.some.injEq] at hsame
          exact mem_networkUpgrades.mp hmem hsame.symm
      rw [if_neg hnot, Option.bind_some, nextSpecified_sprout, Option.map_none]
    · have hmem : id ∈ examinedIds ids upgrades := by
        rw [mem_examinedIds]
        exact Or.inr ⟨branch, mem_networkUpgrades.mpr hbranch, htoU32⟩
      obtain ⟨nu, hnu⟩ := exists_upgrade hbranch
      rw [if_pos hmem, Option.bind_some, Option.bind_some, heightBounds_fst _ hnu,
        activationHeight_fromType publicNetwork nuparams hnu]

/-! ## Results -/

/-- **What is written is read back.** The text of a parameter is read as that parameter;
    and the texts that are read are a number in hexadecimal and one in decimal around a
    colon, both of 32 bits and the first that of a known branch. -/
theorem nuparams_roundtrip :
    (∀ nuparam : RegTestNuParam,
      RegTestNuParam.tryFrom ids (nuparam.toText ids) = .ok nuparam) ∧
    ∀ (value : List Char) (nuparam : RegTestNuParam),
      RegTestNuParam.tryFrom ids value = .ok nuparam ↔
        ∃ branchId height, value = branchId ++ ':' :: height ∧
          Writes 16 branchId (ids.toU32 nuparam.consensusBranchId).toNat ∧
          Writes 10 height nuparam.activationHeight.toNat :=
  ⟨tryFrom_toText, fun _ _ => tryFrom_eq_ok⟩

/-- **Local networks.** An upgrade activates at the height of the next upgrade that the
    parameters specify, itself included; so with an upgrade all earlier ones are scheduled,
    and no later than it if the parameters are in activation order. A node that does not
    name Sprout is compatible with the network exactly if it schedules these upgrades at
    these heights and no others. -/
theorem regtest_network (nuparams : List RegTestNuParam) :
    (∀ branch nu, branch.upgrades.1 = some nu →
      ((Network.fromType .Regtest nuparams).parameters publicNetwork).activationHeight nu =
        (nextSpecified nuparams branch).map UInt32.toNat) ∧
    (∀ earlier later b, networkUpgrades.idxOf earlier ≤ networkUpgrades.idxOf later →
      nextSpecified nuparams later = some b → ∃ a, nextSpecified nuparams earlier = some a ∧
        (Increasing nuparams → a ≤ b)) ∧
    ∀ (upgrades : List ReportedUpgrade) (tip : ℕ),
      (∀ upgrade ∈ upgrades, upgrade.branchId ≠ ids.toU32 .Sprout) →
      (checkConsensusCompatibility ids
          ((Network.fromType .Regtest nuparams).parameters publicNetwork) (.ok upgrades)
          (.ok tip) = .ok none ↔
        ∀ id, nodeSchedule upgrades id = (ids.tryFrom id).bind fun branch =>
          (nextSpecified nuparams branch).map UInt32.toNat) := by
  refine ⟨fun _ _ => activationHeight_fromType publicNetwork nuparams, ?_, ?_⟩
  · intro earlier later b hle hb
    obtain ⟨a, ha⟩ := nextSpecified_earlier nuparams hle hb
    exact ⟨a, ha, fun hinc => nextSpecified_le nuparams hinc hle ha hb⟩
  · intro upgrades tip hsprout
    rw [check_eq_none]
    apply forall_congr'
    intro id
    rw [buildSchedule_regtest ids publicNetwork nuparams hsprout, regtestSchedule]
    exact eq_comm

end Zallet.Chain.Nuparams
