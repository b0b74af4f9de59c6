import Zallet.Sync.ForkPoint

/-!
# How well the fork search samples the wallet's history

`locate_fork_point` compares the wallet with the chain at two families of
heights: those of the block locator (`sync/locator.rs`), and, if none of these
is on the chain, every tenth height below `prev_tip` down to the birthday
(`sync.rs`, lines 737–781).

* `locator_rewinds_at_most_double`: the locator's heights strictly decrease
  from the tip to the floor, and a wallet that holds the whole window rewinds
  by less than twice the depth of a reorg.
* `step_back_finds_first_probe`: the walk ends after one probe for each ten
  blocks, at the first probed height where wallet and chain agree.
* `divergence_verdict_iff`: the wallet is declared diverged by mistake exactly
  if every block it shares with the chain lies between the sampled heights.
-/

namespace Zallet.Sync

open Zallet.Effect Zallet.Common Zallet.Chain Zallet.Wallet

/-! ## The window of a locator -/

/-- In a decreasing list, the elements above a bound come first. -/
theorem mem_takeWhile_of_decreasing {l : List ℕ} (h : l.Pairwise (· > ·)) {min height : ℕ} :
    height ∈ l.takeWhile (fun x => decide (min < x)) ↔ height ∈ l ∧ min < height := by
  induction l with
  | nil => simp
  | cons x l ih =>
    rw [List.pairwise_cons] at h
    by_cases hx : min < x
    · rw [List.takeWhile_cons_of_pos (by simpa using hx), List.mem_cons, List.mem_cons, ih h.2]
      constructor
      · rintro (rfl | ⟨hmem, hlt⟩)
        · exact ⟨Or.inl rfl, hx⟩
        · exact ⟨Or.inr hmem, hlt⟩
      · rintro ⟨rfl | hmem, hlt⟩
        · exact Or.inl rfl
        · exact Or.inr ⟨hmem, hlt⟩
    · rw [List.takeWhile_cons_of_neg (by simpa using hx)]
      constructor
      · intro hmem
        cases hmem
      · rintro ⟨hmem, hlt⟩
        rcases List.mem_cons.mp hmem with rfl | hmem
        · omega
        · have := h.1 height hmem
          omega

/-- The sampled heights: the floor, and above it the tip and the heights a
    power of two below it. -/
theorem mem_locatorBlockHeights {tip height : ℕ} :
    height ∈ locatorBlockHeights tip ↔
      height = tip - maxLocatorDepth ∨
        tip - maxLocatorDepth < height ∧
          (height = tip ∨ ∃ k < 32, 2 ^ k ≤ tip ∧ height = tip - 2 ^ k) := by
  have hexp : height ∈ locatorSteps.filterMap (checkedSub tip) ↔
      ∃ k < 32, 2 ^ k ≤ tip ∧ height = tip - 2 ^ k := by
    rw [List.mem_filterMap]
    constructor
    · rintro ⟨step, hstep, hsub⟩
      obtain ⟨k, hk, rfl⟩ := List.mem_map.mp hstep
      exact ⟨k, List.mem_range.mp hk, checkedSub_eq_some.mp hsub⟩
    · rintro ⟨k, hk, hsub⟩
      exact ⟨2 ^ k, List.mem_map.mpr ⟨k, List.mem_range.mpr hk, rfl⟩, checkedSub_eq_some.mpr hsub⟩
  unfold locatorBlockHeights
  simp only
  rw [List.mem_append, mem_takeWhile_of_decreasing (exponential_decreasing tip), List.mem_cons,
    hexp, List.mem_singleton]
  constructor
  · rintro (⟨h, hlt⟩ | h)
    · exact Or.inr ⟨hlt, h⟩
    · exact Or.inl h
  · rintro (h | ⟨hlt, h⟩)
    · exact Or.inr h
    · exact Or.inl ⟨h, hlt⟩

/-- No sampled height is below the floor. -/
theorem floor_le_of_mem_locatorBlockHeights {tip height : ℕ}
    (h : height ∈ locatorBlockHeights tip) : tip - maxLocatorDepth ≤ height := by
  rcases mem_locatorBlockHeights.mp h with h | ⟨hlt, -⟩
  · exact h.ge
  · exact hlt.le

theorem locatorBlockHeights_head (tip : ℕ) : (locatorBlockHeights tip).head? = some tip := by
  unfold locatorBlockHeights
  simp only
  by_cases htip : tip - maxLocatorDepth < tip
  · rw [List.takeWhile_cons_of_pos (by simpa using htip)]
    rfl
  · rw [List.takeWhile_cons_of_neg (by simpa using htip)]
    simp only [List.nil_append, List.head?_cons, Option.some.injEq]
    omega

theorem locatorBlockHeights_getLast (tip : ℕ) :
    (locatorBlockHeights tip).getLast? = some (tip - maxLocatorDepth) := by
  unfold locatorBlockHeights
  simp only
  exact List.getLast?_concat ..

/-- Every depth within the window is sampled to within a factor of two. -/
theorem exists_sampled_below {tip f : ℕ} (hfloor : tip - maxLocatorDepth ≤ f) (hf : f < tip) :
    ∃ height ∈ locatorBlockHeights tip, height ≤ f ∧ tip - height < 2 * (tip - f) := by
  unfold maxLocatorDepth at hfloor
  -- the smallest power of two that is at least the depth
  obtain ⟨k, hk⟩ : ∃ k, k = Nat.clog 2 (tip - f) := ⟨_, rfl⟩
  have hge : tip - f ≤ 2 ^ k := hk ▸ Nat.le_pow_clog (by norm_num) _
  have hlt : 2 ^ k < 2 * (tip - f) := by
    by_cases hone : tip - f = 1
    · have hzero : k = 0 := by
        rw [hk, hone]
        exact Nat.clog_one_right 2
      rw [hzero, hone]
      norm_num
    · have hpred := Nat.pow_pred_clog_lt_self (b := 2) (by norm_num) (x := tip - f) (by omega)
      rw [← hk] at hpred
      have hkpos : 0 < k := hk ▸ Nat.clog_pos (by norm_num) (by omega)
      have hsucc : 2 ^ k = 2 * 2 ^ k.pred := by
        rw [← pow_succ']
        congr 1
        exact (Nat.succ_pred_eq_of_pos hkpos).symm
      omega
  by_cases hs : 2 ^ k ≤ tip ∧ tip - maxLocatorDepth < tip - 2 ^ k
  · have hk32 : k < 32 := by
      by_contra hcon
      have h32 : 2 ^ 32 ≤ 2 ^ k := Nat.pow_le_pow_right (by norm_num) (by omega)
      unfold maxLocatorDepth at hs
      omega
    exact ⟨tip - 2 ^ k, mem_locatorBlockHeights.mpr (Or.inr ⟨hs.2, Or.inr ⟨k, hk32, hs.1, rfl⟩⟩),
      by omega, by omega⟩
  · unfold maxLocatorDepth at hs
    refine ⟨tip - maxLocatorDepth, mem_locatorBlockHeights.mpr (Or.inl rfl), ?_, ?_⟩
    · unfold maxLocatorDepth
      exact hfloor
    · unfold maxLocatorDepth
      omega

/-- The first of the wallet's blocks in a locator that is on the best chain
    `best`. -/
def firstShared (d : WalletDb) (best : ℕ → Option BlockHash) (tip : ℕ) : Option ChainBlock :=
  (walletBlocks d (locatorBlockHeights tip)).find? fun b => decide (best b.height = some b.hash)

/-- Where wallet and chain agree up to `f`, the first shared block of the
    locator is less than twice as deep as `f`. -/
theorem firstShared_spec {d : WalletDb} {best : ℕ → Option BlockHash} {tip f : ℕ}
    (hfloor : tip - maxLocatorDepth ≤ f) (hf : f < tip)
    (hheld : ∀ height, tip - maxLocatorDepth ≤ height → height ≤ tip → (d.blocks height).isSome)
    (hagree : ∀ height, tip - maxLocatorDepth ≤ height → height ≤ tip →
      (d.blocks height = best height ↔ height ≤ f)) :
    ∃ b, firstShared d best tip = some b ∧ b.height ≤ f ∧ tip - b.height < 2 * (tip - f) := by
  obtain ⟨h₀, hmem₀, hle₀, hdepth₀⟩ := exists_sampled_below hfloor hf
  have hwindow : ∀ height ∈ locatorBlockHeights tip,
      tip - maxLocatorDepth ≤ height ∧ height ≤ tip := fun height hmem =>
    ⟨floor_le_of_mem_locatorBlockHeights hmem, le_of_mem_locatorBlockHeights hmem⟩
  obtain ⟨hash₀, hhash₀⟩ :=
    Option.isSome_iff_exists.mp (hheld h₀ (hwindow h₀ hmem₀).1 (hwindow h₀ hmem₀).2)
  have hbest₀ : best h₀ = some hash₀ := by
    rw [← (hagree h₀ (hwindow h₀ hmem₀).1 (hwindow h₀ hmem₀).2).mpr hle₀, hhash₀]
  have hb₀ : (⟨h₀, hash₀⟩ : ChainBlock) ∈ walletBlocks d (locatorBlockHeights tip) :=
    mem_walletBlocks.mpr ⟨hmem₀, hhash₀⟩
  cases hfirst : firstShared d best tip with
  | none =>
    have hnone := List.find?_eq_none.mp hfirst ⟨h₀, hash₀⟩ hb₀
    simp only [hbest₀, decide_true, not_true_eq_false] at hnone
  | some b =>
    obtain ⟨hp, before, after, happend, hbefore⟩ := List.find?_eq_some_iff_append.mp hfirst
    have hb : b ∈ walletBlocks d (locatorBlockHeights tip) := List.mem_of_find?_eq_some hfirst
    obtain ⟨hmem, hblocks⟩ := mem_walletBlocks.mp hb
    have hbest : best b.height = some b.hash := by simpa using hp
    have hle : b.height ≤ f :=
      (hagree _ (hwindow _ hmem).1 (hwindow _ hmem).2).mp (hblocks.trans hbest.symm)
    -- the entry at `h₀` is shared, so it does not stand before the first shared one
    have hge : h₀ ≤ b.height := by
      rw [happend, List.mem_append, List.mem_cons] at hb₀
      rcases hb₀ with hb₀ | rfl | hb₀
      · have hnot := hbefore _ hb₀
        simp only [hbest₀, decide_true, Bool.not_true, Bool.false_eq_true] at hnot
      · exact le_rfl
      · have hdec := walletBlocks_decreasing (d := d) (locatorBlockHeights_decreasing tip)
        rw [happend, List.pairwise_append, List.pairwise_cons] at hdec
        exact (hdec.2.1.1 _ hb₀).le
    exact ⟨b, rfl, hle, by omega⟩

/-- The fork point a view finds for a wallet that records every block at its
    own height. -/
theorem forkPoint_walletLocator {T : BlockTree BlockHash} {view : ChainView} {d : WalletDb}
    (hwf : view.WF T) (hheights : ∀ height hash, d.blocks height = some hash →
      T.height hash = height) (tip : ℕ) :
    view.forkPoint T (walletLocator d tip) = firstShared d (bestHash T view) tip := by
  unfold ChainView.forkPoint walletLocator firstShared
  simp only [List.find?_map, Option.map_map]
  have hentry : ∀ b ∈ walletBlocks d (locatorBlockHeights tip), T.height b.hash = b.height :=
    fun b hb => hheights _ _ (mem_walletBlocks.mp hb).2
  have hfind : (walletBlocks d (locatorBlockHeights tip)).find?
        ((fun hash => decide (T.OnChain view.tip.hash hash)) ∘ fun b => b.hash) =
      (walletBlocks d (locatorBlockHeights tip)).find?
        fun b => decide (bestHash T view b.height = some b.hash) := by
    apply List.find?_congr
    intro b hb
    simp only [Function.comp_apply, decide_eq_decide]
    rw [← hentry b hb, bestHash_height hwf]
  rw [hfind]
  cases hfirst : (walletBlocks d (locatorBlockHeights tip)).find?
      fun b => decide (bestHash T view b.height = some b.hash) with
  | none => rfl
  | some b =>
    have hb := hentry b (List.mem_of_find?_eq_some hfirst)
    simp only [Option.map_some, Function.comp_apply, hb]

/-- The sampled heights strictly decrease from the tip to the floor of the
    window and the locator built from them is never rejected. If the wallet
    holds the whole window and agrees with a best chain up to `f`, the first
    shared entry of the locator is less than twice as deep as the reorg, and it
    is what `locate_fork_point` returns. -/
theorem locator_rewinds_at_most_double (tip : ℕ) :
    (locatorBlockHeights tip).Pairwise (· > ·) ∧
    (locatorBlockHeights tip).head? = some tip ∧
    (locatorBlockHeights tip).getLast? = some (tip - 1000) ∧
    (∀ (T : BlockTree BlockHash) (w w' : SyncWorld) (message : String),
      ¬ Performs (contract T) (buildBlockLocator tip).run w (.panic message) w') ∧
    ∀ (d : WalletDb) (best : ℕ → Option BlockHash) (f : ℕ), tip - 1000 ≤ f → f < tip →
      (∀ height, tip - 1000 ≤ height → height ≤ tip → (d.blocks height).isSome) →
      (∀ height, tip - 1000 ≤ height → height ≤ tip →
        (d.blocks height = best height ↔ height ≤ f)) →
      ∃ b, firstShared d best tip = some b ∧ b.height ≤ f ∧
        tip - b.height ≤ max 1 (2 * (tip - f)) ∧ tip - b.height < 2 * (tip - f) + 1 ∧
        ∀ (T : BlockTree BlockHash) (view : ChainView) (w w' : SyncWorld) (prevTip : ChainBlock)
          (τ : List (Event syncSig)) (block : ChainBlock), view.WF T → best = bestHash T view →
          (∀ height hash, d.blocks height = some hash → T.height hash = height) →
          w.db = d → prevTip.height = tip →
          Run (contract T) (locateForkPoint view prevTip).run w τ (.ok block) w' → block = b := by
  refine ⟨locatorBlockHeights_decreasing tip, locatorBlockHeights_head tip,
    locatorBlockHeights_getLast tip, ?_, ?_⟩
  · intro T w w' message hp
    have hwp : wpE (contract T) Eq (fun o _ => o.Reads) (fun _ _ => True)
        (buildBlockLocator tip) w :=
      wpE_unrestricted (wpE_buildBlockLocator failsWith_noConflict (fun _ _ ho => ho) tip trivial
        fun _ _ => trivial)
    exact wp_performs hwp hp
  · intro d best f hfloor hf hheld hagree
    obtain ⟨b, hfirst, hle, hdepth⟩ := firstShared_spec hfloor hf hheld hagree
    refine ⟨b, hfirst, hle, by omega, by omega, ?_⟩
    rintro T view w w' prevTip τ block hwf rfl hheights rfl rfl hrun
    have hpoint := forkPoint_walletLocator hwf hheights prevTip.height
    rw [hfirst] at hpoint
    have hwp : wpE (contract T) Eq (fun _ _ => True)
        (fun r _ => ∀ block, r = .ok block → block = b) (locateForkPoint view prevTip) w := by
      refine wpE_locateForkPoint (fun _ _ _ => trivial) view prevTip ?_ ?_
      · rintro block hblock _ ⟨rfl⟩
        cases hblock with
        | located h => exact Option.some.inj (h.symm.trans hpoint)
        | fresh h =>
          unfold ChainView.forkPoint at hpoint
          rw [h] at hpoint
          cases hpoint
        | steppedBack _ h => cases h.symm.trans hpoint
      · rintro e - block ⟨⟩
    exact wp_run hwp hrun block rfl

/-- A wallet at height 2000 on fork 0, and a best chain that left it after
    1990. -/
theorem locator_rewinds_ten_block_reorg :
    ∃ b, firstShared ⟨fun height => some (forkBlock 0 height), [], none⟩
        (fun height => some (forkBlock (if height ≤ 1990 then 0 else 1) height)) 2000 = some b ∧
      b.height ≤ 1990 ∧ 2000 - b.height < 2 * 10 + 1 := by
  have hagree : ∀ height, 2000 - 1000 ≤ height → height ≤ 2000 →
      (some (forkBlock 0 height) = some (forkBlock (if height ≤ 1990 then 0 else 1) height) ↔
        height ≤ 1990) := by
    intro height _ hle
    rw [Option.some.injEq]
    by_cases h : height ≤ 1990
    · simp [h]
    · rw [if_neg h, ← BitVec.toNat_inj, forkBlock, forkBlock, BitVec.toNat_ofNat,
        BitVec.toNat_ofNat]
      omega
  obtain ⟨b, hfirst, hle, -, hdepth, -⟩ := (locator_rewinds_at_most_double 2000).2.2.2.2
    ⟨fun height => some (forkBlock 0 height), [], none⟩ _ 1990 (by norm_num) (by norm_num)
    (fun _ _ _ => rfl) hagree
  exact ⟨b, hfirst, hle, hdepth⟩

/-! ## The walk below the locator -/

/-- The errors of a failed read of the chain or of the database. -/
def ReadFailed : SyncError → Prop
  | .Chain _ => True
  | .Other _ => True
  | _ => False

theorem failsWith_readFailed : FailsWith (fun _ _ _ => True) ReadFailed where
  chain _ _ _ _ := trivial
  db _ _ _ _ _ _ := trivial

/-- A read that does not fail. -/
def SyncOp.Answered : (o : SyncOp) → SyncWorld → o.Ret → Prop
  | chain _, _, .error _ => False
  | db _, _, .error _ => False
  | _, _, _ => True

theorem failsWith_answered : FailsWith SyncOp.Answered fun _ => False where
  chain _ _ _ h := h
  db _ _ _ _ h _ := h

/-- Every read can be answered. -/
theorem reads_answered {T : BlockTree BlockHash} {o : SyncOp} {w : SyncWorld} (ho : o.Reads) :
    ∃ r w', ((contract T).restrict SyncOp.Answered) o w r w' := by
  have hserved : ∀ o : ChainOp, (SyncOp.chain o).Reads → ∃ a, o.Serves T a := by
    intro o ho
    cases o with
    | snapshot => exact ho.elim
    | getMempoolStream view => exact ho.elim
    | tip view => exact ⟨view.tip, rfl⟩
    | findForkPoint view locator => exact ⟨_, rfl⟩
    | treeStateAsOf view height =>
      by_cases h : height ≤ view.tip.height
      · exact ⟨some ⟨height, view.hashAt T height, ⟨[], 0⟩, ⟨[], 0⟩, ⟨[], 0⟩⟩, h, rfl, rfl⟩
      · exact ⟨none, Nat.lt_of_not_le h⟩
    | getBlockHeader view height =>
      by_cases h : height ≤ view.tip.height
      · exact ⟨some ⟨view.hashAt T height⟩, h, rfl⟩
      · exact ⟨none, Nat.lt_of_not_le h⟩
    | getBlock view height =>
      by_cases h : height ≤ view.tip.height
      · exact ⟨some ⟨height, ⟨view.hashAt T height⟩, []⟩, h, rfl, rfl⟩
      · exact ⟨none, Nat.lt_of_not_le h⟩
    | streamBlocksToTip view start => exact ⟨⟨[], some (.Backend "")⟩, trivial⟩
    | streamBlocks view range => exact ⟨⟨[], some (.Backend "")⟩, trivial⟩
    | getTransaction view txid => exact ⟨none, trivial⟩
    | getTransactionStatus view txid => exact ⟨.TxidNotRecognized, trivial⟩
    | outpointSpendStatus view outpoint => exact ⟨.Unspent, trivial⟩
    | _ => exact ⟨[], trivial⟩
  have hdone : ∀ o : DbOp, (SyncOp.db o).Reads → ∃ a, o.Done w.db a w.db := by
    intro o ho
    cases o with
    | getWalletBirthday => exact ⟨_, rfl, rfl⟩
    | getBlockHash height => exact ⟨_, rfl, rfl⟩
    | blockMetadata height =>
      cases hb : w.db.blocks height with
      | none => exact ⟨none, hb, rfl⟩
      | some hash => exact ⟨some ⟨height, hash, none, none, none⟩, ⟨rfl, hb⟩, rfl⟩
    | blockFullyScanned => exact ⟨none, rfl⟩
    | suggestScanRanges => exact ⟨[], rfl⟩
    | unspentNullifiers => exact ⟨⟨[]⟩, rfl⟩
    | getAccountIds => exact ⟨[], rfl⟩
    | getTransparentReceivers account includeChange includeStandalone => exact ⟨[], rfl⟩
    | getSpendableTransparentOutputs address targetHeight => exact ⟨[], rfl⟩
    | transactionDataRequests => exact ⟨[], rfl⟩
    | _ => exact ho.elim
  cases o with
  | chain o =>
    obtain ⟨a, ha⟩ := hserved o ho
    exact ⟨.ok a, w, ⟨ha, rfl⟩, trivial⟩
  | db o =>
    obtain ⟨a, ha⟩ := hdone o ho
    exact ⟨.ok a, w, ⟨w.db, ha, rfl⟩, trivial⟩
  | queueBlock block => exact ⟨none, w, ⟨(fun reply h => by cases h), rfl⟩, trivial⟩
  | awaitBlock reply => exact ⟨none, w, ⟨(fun result h => by cases h), rfl⟩, trivial⟩
  | _ => exact ho.elim

/-- The operations of two programs that run one after the other. -/
theorem atMost_bind {α β : Type} {m n : ℕ} {p : SyncM α} {f : α → SyncM β}
    (hp : p.run.AtMost m) (hf : ∀ a, (f a).run.AtMost n) : (p >>= f).run.AtMost (m + n) := by
  refine Prog.AtMost.bind hp ?_
  intro r
  cases r with
  | ok a => exact hf a
  | error e => trivial

/-- A probe reads the wallet and at most once the chain. -/
theorem probe_atMost (view : ChainView) (height : ℕ) :
    (probe view walletHash height).run.AtMost (1 + 1) := by
  have hread : ∀ o, (db o).run.AtMost 1 := fun o r => by cases r <;> trivial
  have hchain : ∀ o, (chain o).run.AtMost 1 := fun o r => by cases r <;> trivial
  refine atMost_bind (hread _) ?_
  intro hash
  cases hash with
  | none => trivial
  | some wh =>
    refine (atMost_bind (n := 0) (hchain _) ?_).mono le_rfl
    intro header
    split
    · trivial
    · trivial

/-- The walk makes one probe for each ten blocks above the birthday. -/
theorem stepBackToBestChain_atMost (view : ChainView) (height birthday : ℕ) :
    (stepBackToBestChain view height birthday walletHash).run.AtMost
      (2 * ((height - birthday) / 10 + 1)) := by
  induction height using Nat.strong_induction_on with
  | _ height ih =>
    rw [stepBackToBestChain]
    have hreached : (rewindStep height birthday).2 =
        decide (max (height - forkSearchStep) birthday ≤ birthday) := rfl
    have hbound : 2 * ((height - birthday) / 10 + 1) = 1 + 1 + 2 * ((height - birthday) / 10) := by
      omega
    rw [hbound]
    refine atMost_bind (probe_atMost view _) ?_
    intro found
    cases found with
    | some wh => trivial
    | none =>
      simp only
      by_cases hr : (rewindStep height birthday).2 = true
      · rw [dif_pos hr]
        trivial
      · rw [dif_neg hr]
        refine (ih _ (rewindStep_lt hr)).mono ?_
        rw [hreached, decide_eq_true_eq] at hr
        show 2 * ((max (height - forkSearchStep) birthday - birthday) / 10 + 1) ≤ _
        unfold forkSearchStep at *
        omega

/-- The walk ends after at most two reads for each of its probes, at the first
    probed height at which wallet and view record the same block; and, unless a
    read fails, it reports a divergence exactly if there is no such height. -/
theorem step_back_finds_first_probe (T : BlockTree BlockHash) (view : ChainView) (w : SyncWorld)
    (prevTip : ChainBlock) (birthday : ℕ) :
    (∀ τ q w', Reaches (contract T)
        (stepBackToBestChain view prevTip.height birthday walletHash).run w τ q w' →
      τ.length ≤ 2 * ((prevTip.height - birthday) / 10 + 1) ∧
        ∃ τ' r w'', Run (contract T) q w' τ' r w'') ∧
    ∀ τ r w', Run (contract T)
        (stepBackToBestChain view prevTip.height birthday walletHash).run w τ r w' →
      (∀ b, r = .ok b →
        birthday ≤ b.height ∧ (birthday < prevTip.height → b.height < prevTip.height) ∧
        w.db.blocks b.height = some b.hash ∧ bestHash T view b.height = some b.hash ∧
        ∀ k ≥ 1, b.height < max birthday (prevTip.height - 10 * k) →
          ¬ Agrees T view w.db (max birthday (prevTip.height - 10 * k))) ∧
      (r = .error (.WalletDivergedBelowBirthday birthday) →
        ∀ k ≥ 1, ¬ Agrees T view w.db (max birthday (prevTip.height - 10 * k))) ∧
      ((∀ e, r = .error e → ¬ ReadFailed e) →
        (r = .error (.WalletDivergedBelowBirthday birthday) ↔
          ∀ k ≥ 1, ¬ Agrees T view w.db (max birthday (prevTip.height - 10 * k)))) := by
  have hwp := wpE_stepBackToBestChain (T := T) (w := w) failsWith_readFailed
    (fun o _ (ho : o.Reads) => ho) view prevTip.height birthday
  have hwp := wpE_unrestricted hwp
  constructor
  · intro τ q w' hreach
    refine ⟨(stepBackToBestChain_atMost view prevTip.height birthday).length_le hreach, ?_⟩
    refine wp_total (wp_reaches hwp hreach) ?_
    intro o w ho
    obtain ⟨r, w', hC, -⟩ := reads_answered (T := T) (w := w) ho
    exact ⟨r, w', hC⟩
  · intro τ r w' hrun
    obtain ⟨-, hends⟩ := wp_run hwp hrun
    cases hends with
    | @found block k hheight hb hbest hbefore =>
      have hagrees : Agrees T view w.db (probeHeight prevTip.height birthday (k + 1)) := by
        rw [← hheight]
        exact ⟨block.hash, hb, hbest⟩
      refine ⟨?_, ?_, ?_⟩
      · rintro b ⟨rfl⟩
        have hh : block.height = max birthday (prevTip.height - 10 * (k + 1)) := hheight
        refine ⟨by omega, by omega, hb, hbest, ?_⟩
        -- a probe above the first match comes before it
        intro j hj habove
        have hlt : j - 1 < k := by omega
        have hnot := hbefore (j - 1) hlt
        rw [Nat.sub_add_cancel hj] at hnot
        exact hnot
      · intro h
        cases h
      · intro _
        constructor
        · intro h
          cases h
        · intro hnone
          exact absurd hagrees (hnone (k + 1) (by omega))
    | diverged hnone =>
      have hnone' : ∀ k ≥ 1, ¬ Agrees T view w.db (max birthday (prevTip.height - 10 * k)) := by
        intro k hk
        have hnot := hnone (k - 1)
        rw [Nat.sub_add_cancel hk] at hnot
        exact hnot
      refine ⟨?_, fun _ => hnone', fun _ => ⟨fun _ => hnone', fun _ => rfl⟩⟩
      intro b h
      cases h
    | failed he =>
      refine ⟨?_, ?_, ?_⟩
      · intro b h
        cases h
      · rintro ⟨⟩
        exact he.elim
      · intro hfailed
        exact absurd he (hfailed _ rfl)

/-! ## The verdict that the wallet has diverged -/

/-- `locate_fork_point` declares the wallet diverged only if no block it
    records between its birthday and `prevTip` is on the view's chain. -/
def TruthfulVerdict (T : BlockTree BlockHash) (view : ChainView) (w : SyncWorld)
    (prevTip : ChainBlock) : Prop :=
  ∀ τ birthday w', Run (contract T) (locateForkPoint view prevTip).run w τ
      (.error (.WalletDivergedBelowBirthday birthday)) w' →
    ∀ height hash, w.db.birthday.getD 0 ≤ height → height ≤ prevTip.height →
      w.db.blocks height = some hash → ¬ T.OnChain view.tip.hash hash

/-- What a divergence means: the locator has entries, none of them is on the
    view's chain, and no probe finds a shared block. -/
theorem locate_diverged {T : BlockTree BlockHash} {view : ChainView} {w w' : SyncWorld}
    {prevTip : ChainBlock} {birthday : ℕ} {τ : List (Event syncSig)}
    (h : Run (contract T) (locateForkPoint view prevTip).run w τ
      (.error (.WalletDivergedBelowBirthday birthday)) w') :
    (walletLocator w.db prevTip.height).hashes ≠ [] ∧
      view.forkPoint T (walletLocator w.db prevTip.height) = none ∧
      ∀ k ≥ 1, ¬ Agrees T view w.db (probeHeight prevTip.height (w.db.birthday.getD 0) k) := by
  have hwp := wpE_unrestricted (wpE_locateForkPoint_ends (T := T) (w := w) failsWith_readFailed
    (fun o _ (ho : o.Reads) => ho) view prevTip)
  obtain ⟨-, hends⟩ := wp_run hwp h
  cases hends with
  | walked hne hnone hwalk =>
    refine ⟨hne, hnone, ?_⟩
    intro k hk
    cases hwalk with
    | diverged hprobes =>
      have hnot := hprobes (k - 1)
      rw [Nat.sub_add_cancel hk] at hnot
      exact hnot
    | failed he => exact he.elim
  | failed he => exact he.elim

/-- If nothing shared is sampled, the wallet is declared diverged as long as
    no read fails. -/
theorem exists_divergence_run (T : BlockTree BlockHash) (view : ChainView) (w : SyncWorld)
    (prevTip : ChainBlock) (hne : (walletLocator w.db prevTip.height).hashes ≠ [])
    (hpoint : view.forkPoint T (walletLocator w.db prevTip.height) = none)
    (hprobes : ∀ k ≥ 1,
      ¬ Agrees T view w.db (probeHeight prevTip.height (w.db.birthday.getD 0) k)) :
    ∃ τ w', Run (contract T) (locateForkPoint view prevTip).run w τ
      (.error (.WalletDivergedBelowBirthday (w.db.birthday.getD 0))) w' := by
  have hwp := wpE_locateForkPoint_ends (T := T) (w := w) failsWith_answered
    (fun o _ (ho : o.Reads) => ho) view prevTip
  obtain ⟨τ, r, w', hrun⟩ := wp_total hwp fun o w ho => reads_answered ho
  obtain ⟨-, hends⟩ := wp_run hwp hrun
  have hr : r = .error (.WalletDivergedBelowBirthday (w.db.birthday.getD 0)) := by
    cases hends with
    | located h =>
      rw [hpoint] at h
      cases h
    | fresh h => exact absurd h hne
    | walked _ _ hwalk =>
      cases hwalk with
      | @found block k hheight hb hbest _ =>
        refine absurd ?_ (hprobes (k + 1) (by omega))
        rw [← hheight]
        exact ⟨block.hash, hb, hbest⟩
      | diverged _ => rfl
      | failed he => exact he.elim
    | failed he => exact he.elim
  subst hr
  exact ⟨τ, w', hrun.mono fun _ _ _ _ hC => hC.1⟩

/-- The verdict is wrong exactly if the wallet shares a block with the view's
    chain, but none of those it records at a sampled height: the heights of the
    locator, and every tenth height from `prevTip` down to the birthday. -/
theorem divergence_verdict_iff (T : BlockTree BlockHash) (view : ChainView) (w : SyncWorld)
    (prevTip : ChainBlock) :
    TruthfulVerdict T view w prevTip ↔
      (∀ height ∈ locatorBlockHeights prevTip.height, w.db.blocks height = none) ∨
      (∃ height ∈ locatorBlockHeights prevTip.height, ∃ hash, w.db.blocks height = some hash ∧
        T.OnChain view.tip.hash hash) ∨
      (∃ k ≥ 1, Agrees T view w.db
        (max (w.db.birthday.getD 0) (prevTip.height - 10 * k))) ∨
      ∀ height hash, w.db.birthday.getD 0 ≤ height → height ≤ prevTip.height →
        w.db.blocks height = some hash → ¬ T.OnChain view.tip.hash hash := by
  have hempty : (walletLocator w.db prevTip.height).hashes = [] ↔
      ∀ height ∈ locatorBlockHeights prevTip.height, w.db.blocks height = none := by
    rw [List.eq_nil_iff_forall_not_mem]
    constructor
    · intro h height hmem
      by_contra hb
      obtain ⟨hash, hhash⟩ := Option.ne_none_iff_exists'.mp hb
      exact h hash (mem_walletLocator_iff.mpr ⟨height, hmem, hhash⟩)
    · intro h hash hmem
      obtain ⟨height, hheight, hhash⟩ := mem_walletLocator_iff.mp hmem
      rw [h height hheight] at hhash
      cases hhash
  constructor
  · intro htruth
    by_cases hne : (walletLocator w.db prevTip.height).hashes = []
    · exact Or.inl (hempty.mp hne)
    · cases hpoint : view.forkPoint T (walletLocator w.db prevTip.height) with
      | some block =>
        obtain ⟨hmem, hon, -⟩ := ChainView.forkPoint_some hpoint
        obtain ⟨height, hheight, hhash⟩ := mem_walletLocator_iff.mp hmem
        exact Or.inr (Or.inl ⟨height, hheight, block.hash, hhash, hon⟩)
      | none =>
        by_cases hprobe : ∃ k ≥ 1, Agrees T view w.db
            (max (w.db.birthday.getD 0) (prevTip.height - 10 * k))
        · exact Or.inr (Or.inr (Or.inl hprobe))
        · obtain ⟨τ, w', hrun⟩ := exists_divergence_run T view w prevTip hne hpoint
            fun k hk hagrees => hprobe ⟨k, hk, hagrees⟩
          exact Or.inr (Or.inr (Or.inr (htruth τ _ w' hrun)))
  · intro hcond τ birthday w' hrun
    obtain ⟨hne, hpoint, hprobes⟩ := locate_diverged hrun
    rcases hcond with h | ⟨height, hheight, hash, hhash, hon⟩ | ⟨k, hk, hagrees⟩ | h
    · exact absurd (hempty.mpr h) hne
    · exact absurd hon (ChainView.forkPoint_none hpoint hash
        (mem_walletLocator_iff.mpr ⟨height, hheight, hhash⟩))
    · exact absurd hagrees (hprobes k hk)
    · exact h

/-- A wallet restored with birthday 1 that has scanned 995 to 1000; above 995
    it is on fork 1. -/
def sparseWallet : WalletDb where
  blocks height :=
    if height = 995 then some (forkBlock 0 995)
    else if 996 ≤ height ∧ height ≤ 1000 then some (forkBlock 1 height) else none
  checkpoints := []
  birthday := some 1

/-- The view is on fork 0: it shares block 995 with the wallet, but 995 is not
    sampled, and the wallet is declared diverged. -/
theorem sparse_wallet_declared_diverged :
    (⟨⟨1000, forkBlock 0 1000⟩⟩ : ChainView).WF (forkTree 995) ∧
    ¬ TruthfulVerdict (forkTree 995) ⟨⟨1000, forkBlock 0 1000⟩⟩
      ⟨sparseWallet, .initial, ⟨1000, forkBlock 1 1000⟩, 900⟩ ⟨1000, forkBlock 1 1000⟩ := by
  refine ⟨rfl, ?_⟩
  intro htruth
  have hprobes : ∀ k ≥ 1, ¬ Agrees (forkTree 995) ⟨⟨1000, forkBlock 0 1000⟩⟩ sparseWallet
      (probeHeight 1000 1 k) := by
    rintro k hk ⟨hash, hb, -⟩
    have hle : probeHeight 1000 1 k < 995 := by
      unfold probeHeight forkSearchStep
      omega
    have hnone : sparseWallet.blocks (probeHeight 1000 1 k) = none := by
      simp only [sparseWallet]
      rw [if_neg (by omega), if_neg (by omega)]
    rw [hnone] at hb
    cases hb
  have hentries : (walletLocator sparseWallet 1000).hashes ≠ [] := by decide +kernel
  have hpoint : (⟨⟨1000, forkBlock 0 1000⟩⟩ : ChainView).forkPoint (forkTree 995)
      (walletLocator sparseWallet 1000) = none := by decide +kernel
  have hshared : (forkTree 995).OnChain (forkBlock 0 1000) (forkBlock 0 995) := by decide +kernel
  obtain ⟨τ, w', hrun⟩ := exists_divergence_run (forkTree 995) ⟨⟨1000, forkBlock 0 1000⟩⟩
    ⟨sparseWallet, .initial, ⟨1000, forkBlock 1 1000⟩, 900⟩ ⟨1000, forkBlock 1 1000⟩
    hentries hpoint hprobes
  exact htruth τ _ w' hrun 995 (forkBlock 0 995) (by decide) (by decide) rfl hshared

end Zallet.Sync
