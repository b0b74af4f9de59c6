import Zallet.Sync.Initialize

/-!
# The catch-up loop makes progress

The loop of `initialize` (`sync.rs`, lines 320–431) goes on until the wallet
suggests nothing that it may scan. A range that cannot be scanned would keep it
going without progress, so `select_initial_scan_range` (lines 274–292) cuts
every suggestion down to the heights that are *eligible*: at or below the tip,
and, unless the suggestion is to be verified, at or above the boundary.

* `selectInitialScanRange_eq_some`, `selectInitialScanRange_eq_none`: the
  selection is the first suggestion with an eligible height, cut down to its
  eligible heights.
* `run_initializeTurn`: a turn that neither ends the loop nor fails stores all
  the view's blocks of the selected range.
* `catch_up_makes_progress`: hence the loop takes at most one turn for each
  height that has not been scanned.
-/

namespace Zallet.Sync

open Zallet.Effect Zallet.Common Zallet.Chain Zallet.Wallet

/-! ## Eligible heights -/

/-- The range contains `height`. -/
def ScanRange.Has (r : ScanRange) (height : ℕ) : Prop :=
  r.blockRange.start ≤ height ∧ height < r.blockRange.stop

/-- A height of a suggestion that `initialize` may scan. -/
structure Eligible (currentTip startingBoundary : ℕ) (r : ScanRange) (height : ℕ) : Prop where
  inside : ScanRange.Has r height
  atMostTip : height ≤ currentTip
  wanted : r.priority = .Verify ∨
    ScanPriority.Historic.rank ≤ r.priority.rank ∧ startingBoundary ≤ height

section selection

variable {U : Upstream} {currentTip startingBoundary : ℕ} {suggested : List ScanRange}
  {r s : ScanRange}

/-- The closure of `select_initial_scan_range`. -/
def clampSuggestion (U : Upstream) (currentTip startingBoundary : ℕ) (r : ScanRange) :
    Option ScanRange :=
  (U.truncateEnd r (currentTip + 1)).bind fun r =>
    if r.priority = .Verify then some r
    else if ScanPriority.Historic.rank ≤ r.priority.rank then U.truncateStart r startingBoundary
    else none

theorem selectInitialScanRange_findSome :
    selectInitialScanRange U suggested currentTip startingBoundary =
      suggested.findSome? (clampSuggestion U currentTip startingBoundary) :=
  List.head?_filterMap

/-- A suggestion is cut down to its eligible heights. -/
theorem clampSuggestion_some (h : clampSuggestion U currentTip startingBoundary s = some r) :
    r.priority = s.priority ∧ r.blockRange.start < r.blockRange.stop ∧
      ∀ height, ScanRange.Has r height ↔ Eligible currentTip startingBoundary s height := by
  unfold clampSuggestion at h
  obtain ⟨r₁, h₁, hr⟩ := Option.bind_eq_some_iff.mp h
  rw [U.truncateEnd_eq, Option.ite_none_right_eq_some] at h₁
  obtain ⟨hlt, h₁⟩ := h₁
  obtain rfl := Option.some.inj h₁
  simp only at hr
  by_cases hv : s.priority = .Verify
  · rw [if_pos hv] at hr
    obtain rfl := Option.some.inj hr
    refine ⟨rfl, hlt, ?_⟩
    intro height
    constructor
    · rintro ⟨h₁, h₂⟩
      simp only at h₁ h₂
      exact ⟨⟨h₁, by omega⟩, by omega, Or.inl hv⟩
    · rintro ⟨⟨h₁, h₂⟩, h₃, -⟩
      refine ⟨h₁, ?_⟩
      simp only
      omega
  · rw [if_neg hv, Option.ite_none_right_eq_some] at hr
    obtain ⟨hrank, hr⟩ := hr
    rw [U.truncateStart_eq, Option.ite_none_right_eq_some] at hr
    obtain ⟨hlt', hr⟩ := hr
    obtain rfl := Option.some.inj hr
    refine ⟨rfl, hlt', ?_⟩
    intro height
    constructor
    · rintro ⟨h₁, h₂⟩
      simp only at h₁ h₂
      exact ⟨⟨by omega, by omega⟩, by omega, Or.inr ⟨hrank, by omega⟩⟩
    · rintro ⟨⟨h₁, h₂⟩, h₃, hw⟩
      rcases hw with hw | ⟨-, hw⟩
      · exact absurd hw hv
      · constructor
        · simp only
          omega
        · simp only
          omega

/-- A suggestion without an eligible height is dropped. -/
theorem clampSuggestion_none (h : clampSuggestion U currentTip startingBoundary s = none)
    (height : ℕ) : ¬ Eligible currentTip startingBoundary s height := by
  rintro ⟨⟨h₁, h₂⟩, h₃, hw⟩
  unfold clampSuggestion at h
  rw [U.truncateEnd_eq, if_pos (by omega), Option.bind_some] at h
  simp only at h
  by_cases hv : s.priority = .Verify
  · rw [if_pos hv] at h
    cases h
  · rcases hw with hw | ⟨hrank, hw⟩
    · exact hv hw
    · rw [if_neg hv, if_pos hrank, U.truncateStart_eq, if_pos (by simp only; omega)] at h
      cases h

/-- The selection is the first suggestion with an eligible height, cut down to
    its eligible heights. -/
theorem selectInitialScanRange_eq_some
    (h : selectInitialScanRange U suggested currentTip startingBoundary = some r) :
    ∃ before s after, suggested = before ++ s :: after ∧
      (∀ s' ∈ before, ∀ height, ¬ Eligible currentTip startingBoundary s' height) ∧
      r.priority = s.priority ∧ r.blockRange.start < r.blockRange.stop ∧
      ∀ height, ScanRange.Has r height ↔ Eligible currentTip startingBoundary s height := by
  rw [selectInitialScanRange_findSome, List.findSome?_eq_some_iff] at h
  obtain ⟨before, s, after, hsplit, hs, hbefore⟩ := h
  refine ⟨before, s, after, hsplit, ?_, clampSuggestion_some hs⟩
  exact fun s' hs' => clampSuggestion_none (hbefore s' hs')

/-- Nothing is selected exactly if no suggestion has an eligible height. -/
theorem selectInitialScanRange_eq_none :
    selectInitialScanRange U suggested currentTip startingBoundary = none ↔
      ∀ s ∈ suggested, ∀ height, ¬ Eligible currentTip startingBoundary s height := by
  rw [selectInitialScanRange_findSome, List.findSome?_eq_none_iff]
  constructor
  · exact fun h s hs => clampSuggestion_none (h s hs)
  · intro h s hs
    cases hr : clampSuggestion U currentTip startingBoundary s with
    | none => rfl
    | some r =>
      obtain ⟨-, hlt, hhas⟩ := clampSuggestion_some hr
      have hstart : ScanRange.Has r r.blockRange.start := ⟨le_rfl, hlt⟩
      exact absurd ((hhas _).mp hstart) (h s hs _)

end selection

/-! ## What a scan stores -/

section scans

variable {T : BlockTree BlockHash} {U : Upstream} {view : ChainView} {w w' : SyncWorld}
  {τ : List (Event syncSig)}

/-- A read leaves the world alone. -/
theorem run_db_read {o : DbOp} (ho : (SyncOp.db o).Reads) {a : o.Out}
    (h : Run (contract T) (db o).run w τ (.ok a) w') : w' = w :=
  contract_reads ho (run_db h).2

/-- A range that is scanned is stored as a whole, up to the tip. -/
theorem run_scanFrom {range : HeightRange} {fromState : ChainState}
    (h : Run (contract T) (scanFrom U view range fromState).run w τ (.ok ()) w') :
    ∃ (scanned : List ScannedBlock) (checkpoints : List ℕ),
      ⟨.db (.putBlocks fromState scanned), .ok ()⟩ ∈ τ ∧
      scanned.map (fun s => (s.height, s.hash)) =
        view.ids T range.start (min range.stop (view.tip.height + 1)) ∧
      w'.db = { w.db.put scanned with checkpoints := checkpoints } := by
  have hR : Reading Eq (fun _ _ => True) (· = w) := Reading.alone (fun _ _ _ => trivial) w
  unfold scanFrom at h
  obtain ⟨τ₁, stream, w₁, τ₂, h₁, hr₁, rfl⟩ := run_bind_ok h
  obtain ⟨-, hstream, rfl⟩ := run_chain h₁
  obtain ⟨τ₃, batch, w₂, τ₄, h₂, hr₂, rfl⟩ := run_bind_ok hr₁
  have hqueue : wpE (contract T) Eq (fun _ _ => True) (fun r w' => w' = w₁ ∧ ∀ batch, r = .ok batch →
      batch = stream.blocks.map fun b => (b.claimedHeight, ⟨b⟩)) (queueBlocks stream.blocks) w₁ := by
    refine wpE_queueBlocks hR _ rfl ?_ ?_
    · rintro _ rfl
      exact ⟨rfl, fun batch hb => (Except.ok.inj hb).symm⟩
    · rintro e _ rfl -
      refine ⟨rfl, ?_⟩
      intro batch hb
      cases hb
  obtain ⟨rfl, hbatch⟩ := wp_run hqueue h₂
  obtain rfl := hbatch batch rfl
  obtain ⟨τ₅, _, w₃, τ₆, h₃, hr₃, rfl⟩ := run_bind_ok hr₂
  cases hf : stream.failure with
  | some e =>
    rw [hf] at h₃
    cases (run_pure.mp h₃).2.1
  | none =>
    rw [hf] at h₃
    obtain ⟨rfl, -, rfl⟩ := run_pure.mp h₃
    have hs : Streams T view (min range.stop (view.tip.height + 1)) range.start stream.blocks
        stream.failure := hstream
    rw [hf] at hs
    obtain ⟨τ₇, nullifiers, w₄, τ₈, h₄, hr₄, rfl⟩ := run_bind_ok hr₃
    obtain rfl := run_db_read (by trivial) h₄
    obtain ⟨τ₉, addresses, w₅, τ₁₀, h₅, hr₅, rfl⟩ := run_bind_ok hr₄
    have haddresses : wpE (contract T) Eq (fun _ _ => True) (fun _ w' => w' = w₄)
        transparentAddressIndex w₄ := by
      refine wpE_transparentAddressIndex hR rfl ?_ ?_
      · rintro _ _ rfl
        rfl
      · rintro _ _ rfl -
        rfl
    have hw₅ := wp_run haddresses h₅
    subst hw₅
    obtain ⟨τ₁₁, scanned, w₆, τ₁₂, h₆, hr₆, rfl⟩ := run_bind_ok hr₅
    have hscan : wpE (contract T) Eq (fun _ _ => True) (fun r w' => w' = w₅ ∧
        ∀ scanned, r = .ok scanned → scanned.map (fun s => (s.height, s.hash)) =
          stream.blocks.map fun b => (b.claimedHeight, b.header.hash))
        (scanBatch U addresses (stream.blocks.map fun b => (b.claimedHeight, ⟨b⟩)) nullifiers
          (some (priorBlockMetadata fromState))) w₅ := by
      refine wpE_scanBatch U hR addresses _ _ _ rfl ?_ ?_
      · rintro scanned _ rfl hids
        refine ⟨rfl, ?_⟩
        rintro _ ⟨⟩
        exact hids
      · rintro e _ rfl -
        refine ⟨rfl, ?_⟩
        intro scanned hs
        cases hs
    obtain ⟨rfl, hids⟩ := wp_run hscan h₆
    obtain ⟨rfl, d, ⟨-, checkpoints, hd⟩, rfl⟩ := run_db hr₆
    refine ⟨scanned, checkpoints, ?_, (hids scanned rfl).trans hs.ids_eq, hd⟩
    simp

/-- A scan that lets the loop go on has stored its whole range. -/
theorem run_scanBlocks_continue {scanRange : ScanRange} {shutdownHeight : Option ℕ}
    (hrange : scanRange.blockRange.start < scanRange.blockRange.stop)
    (hstop : scanRange.blockRange.stop ≤ view.tip.height + 1)
    (h : Run (contract T) (scanBlocks U view scanRange shutdownHeight).run w τ
      (.ok (.Continue ())) w') :
    ∃ fromState scanned checkpoints, ⟨.db (.putBlocks fromState scanned), .ok ()⟩ ∈ τ ∧
      scanned.map (fun s => (s.height, s.hash)) =
        view.ids T scanRange.blockRange.start scanRange.blockRange.stop ∧
      w'.db = { w.db.put scanned with checkpoints := checkpoints } := by
  unfold scanBlocks at h
  cases hc : clampToBoundary scanRange.blockRange shutdownHeight with
  | Break stop =>
    simp only [hc] at h
    cases (run_pure.mp h).2.1
  | Continue boundary =>
    simp only [hc] at h
    obtain ⟨τ₁, state, w₁, τ₂, h₁, hr₁, rfl⟩ := run_bind_ok h
    obtain ⟨-, hstate, rfl⟩ := run_chain h₁
    cases state with
    | none =>
      -- the block before the range is at or below the tip
      have hlt : view.tip.height < (boundary.elim scanRange.blockRange fun stop =>
          (⟨scanRange.blockRange.start, stop⟩ : HeightRange)).start - 1 := hstate
      cases boundary with
      | none =>
        simp only [Option.elim_none] at hlt
        omega
      | some stop =>
        simp only [Option.elim_some] at hlt
        omega
    | some fromState =>
      obtain ⟨τ₃, _, w₂, τ₄, h₂, hr₂, rfl⟩ := run_bind_ok hr₁
      obtain ⟨rfl, hflow, rfl⟩ := run_pure.mp hr₂
      cases boundary with
      | some stop => cases hflow
      | none =>
        obtain ⟨scanned, checkpoints, hput, hids, hdb⟩ := run_scanFrom h₂
        have hmin : min scanRange.blockRange.stop (view.tip.height + 1) =
            scanRange.blockRange.stop := by omega
        refine ⟨fromState, scanned, checkpoints, by simp [hput], ?_, hdb⟩
        rw [hids, Option.elim_none, hmin]

end scans

/-! ## Turns of the loop -/

/-- The backend stays at one view, and no read of it finds the view stale. -/
def FixedView (view : ChainView) : (o : SyncOp) → SyncWorld → o.Ret → Prop
  | .chain .snapshot, _, .ok captured => captured = view
  | o, _, r => ¬ o.Stale r

/-- The wallet suggests only heights at which it has recorded no block. -/
def FreshSuggestions : (o : SyncOp) → SyncWorld → o.Ret → Prop
  | .db .suggestScanRanges, w, .ok suggested =>
    ∀ s ∈ suggested, ∀ height, ScanRange.Has s height → w.db.blocks height = none
  | _, _, _ => True

theorem FixedView.not_stale {view : ChainView} {o : SyncOp} {w : SyncWorld} {r : o.Ret}
    (h : FixedView view o w r) : ¬ o.Stale r := by
  unfold FixedView at h
  split at h
  · exact fun hs => hs
  · exact h

/-- The heights up to `tip` at which no block is recorded. -/
def unscanned (d : WalletDb) (tip : ℕ) : Finset ℕ :=
  (Finset.range (tip + 1)).filter fun height => d.blocks height = none

/-- Storing a block at an unscanned height leaves fewer of them. -/
theorem card_unscanned_lt {d d' : WalletDb} {tip : ℕ} {scanned : List ScannedBlock}
    {b : ScannedBlock} (hb : b ∈ scanned) (htip : b.height ≤ tip) (hnone : d.blocks b.height = none)
    (hd' : d'.blocks = (d.put scanned).blocks) :
    (unscanned d' tip).card < (unscanned d tip).card := by
  apply Finset.card_lt_card
  rw [Finset.ssubset_iff_of_subset]
  · refine ⟨b.height, ?_, ?_⟩
    · simp only [unscanned, Finset.mem_filter, Finset.mem_range]
      exact ⟨by omega, hnone⟩
    · simp only [unscanned, Finset.mem_filter, hd']
      rintro ⟨-, hb'⟩
      have hsome := WalletDb.put_blocks_isSome d hb
      rw [hb'] at hsome
      cases hsome
  · intro height hmem
    simp only [unscanned, Finset.mem_filter, hd'] at hmem ⊢
    refine ⟨hmem.1, ?_⟩
    by_contra hsome
    have hkept := @WalletDb.put_blocks_mono _ scanned _ (Option.isSome_iff_ne_none.mpr hsome)
    rw [hmem.2] at hkept
    cases hkept

section turns

variable {T : BlockTree BlockHash} {U : Upstream} {view : ChainView} {shutdownHeight : Option ℕ}
  {w w' : SyncWorld} {τ : List (Event syncSig)}

/-- A turn goes on after its scan only if the scan stored its range, or the
    view was stale. -/
theorem run_scanInitialRange {scanRange : ScanRange}
    (hrange : scanRange.blockRange.start < scanRange.blockRange.stop)
    (hstop : scanRange.blockRange.stop ≤ view.tip.height + 1)
    (hstale : ∀ ev ∈ τ, ¬ ev.op.Stale ev.ret)
    (h : Run (contract T) (scanInitialRange U view scanRange shutdownHeight).run w τ
      (.ok (.Continue ())) w') :
    ∃ fromState scanned checkpoints, ⟨.db (.putBlocks fromState scanned), .ok ()⟩ ∈ τ ∧
      scanned.map (fun s => (s.height, s.hash)) =
        view.ids T scanRange.blockRange.start scanRange.blockRange.stop ∧
      w'.db = { w.db.put scanned with checkpoints := checkpoints } := by
  unfold scanInitialRange at h
  obtain ⟨τ₁, outcome, w₁, τ₂, h₁, h₂, rfl⟩ := run_bind_ok h
  obtain ⟨_, heq, hscan⟩ := run_attempt.mp h₁
  cases heq
  match outcome, hscan, h₂ with
  | .ok (.Break stop), _, h₂ => cases (run_pure.mp h₂).2.1
  | .ok (.Continue ()), hscan, h₂ =>
    obtain ⟨rfl, -, rfl⟩ := run_pure.mp h₂
    rw [List.append_nil]
    exact run_scanBlocks_continue hrange hstop hscan
  | .error e, hscan, h₂ =>
    have hretry : isRetryable e = false :=
      (run_within (within_scanBlocks U scanning_staleOnly view scanRange shutdownHeight) hscan
        fun ev hev => hstale ev (List.mem_append_left _ hev)).2 e rfl
    simp only [hretry] at h₂
    cases (run_pure.mp h₂).2.1

/-- A turn that neither ends the loop nor fails has stored the view's blocks of
    the range it selected. -/
theorem run_initializeTurn {K : (o : SyncOp) → SyncWorld → o.Ret → Prop}
    (hK : ∀ o w r, K o w r → FixedView view o w r)
    (h : Run ((contract T).restrict K) (initializeTurn U shutdownHeight ()).run w τ
      (.ok (.Continue ())) w') :
    ∃ (w₁ : SyncWorld) (suggested : List ScanRange) (scanRange : ScanRange)
        (fromState : ChainState) (scanned : List ScannedBlock) (checkpoints : List ℕ),
      w₁.db = w.db ∧ K (.db .suggestScanRanges) w₁ (.ok suggested) ∧
      selectInitialScanRange U suggested view.tip.height (view.tip.height - 100) =
        some scanRange ∧
      ⟨.db (.putBlocks fromState scanned), .ok ()⟩ ∈ τ ∧
      scanned.map (fun s => (s.height, s.hash)) =
        view.ids T scanRange.blockRange.start scanRange.blockRange.stop ∧
      w'.db = { w.db.put scanned with checkpoints := checkpoints } := by
  have hstale : ∀ ev ∈ τ, ¬ ev.op.Stale ev.ret := by
    intro ev hev
    obtain ⟨_, _, -, hk⟩ := Reaches.allowed h ev hev
    exact (hK _ _ _ hk).not_stale
  have hboundary : updateBoundary 0 view.tip.height = view.tip.height - 100 := by
    unfold updateBoundary
    omega
  unfold initializeTurn at h
  obtain ⟨τ₁, captured, w₁, τ₂, h₁, hr₁, rfl⟩ := run_bind_ok h
  obtain ⟨-, ⟨-, rfl⟩, hview⟩ := run_chain h₁
  obtain rfl : captured = view := hK _ _ _ hview
  unfold initializeOn at hr₁
  obtain ⟨τ₃, currentTip, w₂, τ₄, h₂, hr₂, rfl⟩ := run_bind_ok hr₁
  obtain ⟨-, ⟨htip, rfl⟩, -⟩ := run_chain h₂
  obtain rfl : currentTip = captured.tip := htip
  obtain ⟨τ₅, _, w₃, τ₆, h₃, hr₃, rfl⟩ := run_bind_ok hr₂
  obtain ⟨-, ⟨d₃, hd₃, rfl⟩, -⟩ := run_db h₃
  obtain ⟨τ₇, _, w₄, τ₈, h₄, hr₄, rfl⟩ := run_bind_ok hr₃
  obtain ⟨-, hw₄, -⟩ := run_perform h₄
  obtain ⟨τ₉, suggested, w₅, τ₁₀, h₅, hr₅, rfl⟩ := run_bind_ok hr₄
  obtain ⟨-, ⟨d₅, hd₅, rfl⟩, hfresh⟩ := run_db h₅
  have hd : w₄.db = w₂.db := by
    rw [(contract_signals (by trivial) hw₄).1]
    exact hd₃
  have hd' : d₅ = w₂.db := hd₅.trans hd
  rw [hboundary] at hr₅
  split at hr₅
  · obtain ⟨τ₁₁, _, w₆, τ₁₂, -, h₆, rfl⟩ := run_bind_ok hr₅
    cases (run_pure.mp h₆).2.1
  · rename_i scanRange hselect
    obtain ⟨hlt, hstop⟩ := selectInitialScanRange_spec hselect
    obtain ⟨τ₁₁, flow, w₆, τ₁₂, h₆, h₇, rfl⟩ := run_bind_ok hr₅
    cases flow with
    | Break b => cases (run_pure.mp h₇).2.1
    | Continue u =>
      obtain ⟨rfl, -, rfl⟩ := run_pure.mp h₇
      have hscan := Reaches.mono (fun _ _ _ _ hC => hC.1) h₆
      obtain ⟨fromState, scanned, checkpoints, hput, hids, hdb⟩ :=
        run_scanInitialRange hlt hstop (fun ev hev => hstale ev (by simp [hev])) hscan
      refine ⟨w₄, suggested, scanRange, fromState, scanned, checkpoints, hd, hfresh, hselect,
        by simp [hput], hids, ?_⟩
      rw [hdb]
      show { d₅.put scanned with checkpoints := checkpoints } = _
      rw [hd']

/-- Each turn that goes on leaves fewer unscanned heights. -/
theorem card_unscanned_turn
    (h : Run ((contract T).restrict fun o w r => FixedView view o w r ∧ FreshSuggestions o w r)
      (initializeTurn U shutdownHeight ()).run w τ (.ok (.Continue ())) w') :
    (unscanned w'.db view.tip.height).card < (unscanned w.db view.tip.height).card := by
  obtain ⟨w₁, suggested, scanRange, fromState, scanned, checkpoints, hw₁, ⟨-, hfresh⟩, hselect, -,
    hids, hdb⟩ := run_initializeTurn (fun _ _ _ hk => hk.1) h
  obtain ⟨before, s, after, hsplit, -, -, hlt, hhas⟩ := selectInitialScanRange_eq_some hselect
  -- the first block of the range is among the stored ones
  have hfirst : ScanRange.Has scanRange scanRange.blockRange.start := ⟨le_rfl, hlt⟩
  have heligible := (hhas _).mp hfirst
  have hmem : (scanRange.blockRange.start, view.hashAt T scanRange.blockRange.start) ∈
      scanned.map fun s => (s.height, s.hash) := by
    rw [hids, ChainView.mem_ids]
    exact ⟨le_rfl, hlt, rfl⟩
  obtain ⟨b, hb, hbeq⟩ := List.mem_map.mp hmem
  have hheight : b.height = scanRange.blockRange.start := congrArg Prod.fst hbeq
  have hnone : w₁.db.blocks scanRange.blockRange.start = none :=
    hfresh s (by rw [hsplit]; simp) _ heligible.inside
  refine card_unscanned_lt hb ?_ ?_ (by rw [hdb])
  · rw [hheight]
    exact heligible.atMostTip
  · rw [hheight, ← hw₁]
    exact hnone

theorem card_unscanned_turns {n : ℕ}
    (h : Run ((contract T).restrict fun o w r => FixedView view o w r ∧ FreshSuggestions o w r)
      (turns (initializeTurn U shutdownHeight) n ()).run w τ (.ok (.Continue ())) w') :
    n ≤ (unscanned w.db view.tip.height).card := by
  induction n generalizing w τ with
  | zero => exact Nat.zero_le _
  | succ n ih =>
    rw [turns] at h
    obtain ⟨τ₁, flow, w₁, τ₂, h₁, h₂, rfl⟩ := run_bind_ok h
    cases flow with
    | Break b => cases (run_pure.mp h₂).2.1
    | Continue u =>
      have hrest := ih h₂
      have hturn := card_unscanned_turn h₁
      omega

end turns

/-- The selected range is the first suggestion with an eligible height, cut
    down to its eligible heights, and there is none exactly if there is no
    eligible height. Hence against a backend that stays at one view, a turn that
    neither ends the loop nor fails stores at least one block, all of them the
    view's; and if the wallet suggests nothing it has scanned, there are at most
    as many such turns as unscanned heights. -/
theorem catch_up_makes_progress (U : Upstream) (shutdownHeight : Option ℕ) :
    (∀ suggested currentTip startingBoundary,
      (∀ r, selectInitialScanRange U suggested currentTip startingBoundary = some r →
        ∃ before s after, suggested = before ++ s :: after ∧
          (∀ s' ∈ before, ∀ height, ¬ Eligible currentTip startingBoundary s' height) ∧
          (∃ height, ScanRange.Has r height) ∧
          ∀ height, ScanRange.Has r height →
            Eligible currentTip startingBoundary s height ∧ ScanRange.Has s height ∧
              height ≤ currentTip ∧ (r.priority ≠ .Verify → startingBoundary ≤ height)) ∧
      (selectInitialScanRange U suggested currentTip startingBoundary = none ↔
        ∀ s ∈ suggested, ∀ height, ¬ Eligible currentTip startingBoundary s height)) ∧
    (∀ (T : BlockTree BlockHash) (view : ChainView) (w w' : SyncWorld) (τ : List (Event syncSig)),
      Run ((contract T).restrict (FixedView view)) (initializeTurn U shutdownHeight ()).run w τ
        (.ok (.Continue ())) w' →
      ∃ fromState scanned, ⟨.db (.putBlocks fromState scanned), .ok ()⟩ ∈ τ ∧ scanned ≠ [] ∧
        ∀ b ∈ scanned, b.height ≤ view.tip.height ∧ b.hash = view.hashAt T b.height) ∧
    ∀ (T : BlockTree BlockHash) (view : ChainView) (w w' : SyncWorld) (τ : List (Event syncSig))
        (n : ℕ),
      Run ((contract T).restrict fun o w r => FixedView view o w r ∧ FreshSuggestions o w r)
        (turns (initializeTurn U shutdownHeight) n ()).run w τ (.ok (.Continue ())) w' →
      n ≤ (unscanned w.db view.tip.height).card := by
  refine ⟨?_, ?_, ?_⟩
  · intro suggested currentTip startingBoundary
    refine ⟨?_, selectInitialScanRange_eq_none⟩
    intro r hr
    obtain ⟨before, s, after, hsplit, hbefore, hpriority, hlt, hhas⟩ :=
      selectInitialScanRange_eq_some hr
    refine ⟨before, s, after, hsplit, hbefore, ⟨r.blockRange.start, le_rfl, hlt⟩, ?_⟩
    intro height hheight
    have heligible := (hhas height).mp hheight
    refine ⟨heligible, heligible.inside, heligible.atMostTip, ?_⟩
    intro hverify
    rcases heligible.wanted with hwanted | ⟨-, hwanted⟩
    · exact absurd (hpriority.trans hwanted) hverify
    · exact hwanted
  · intro T view w w' τ h
    obtain ⟨w₁, suggested, scanRange, fromState, scanned, checkpoints, -, -, hselect, hput, hids,
      -⟩ := run_initializeTurn (fun _ _ _ hk => hk) h
    obtain ⟨hlt, hstop⟩ := selectInitialScanRange_spec hselect
    refine ⟨fromState, scanned, hput, ?_, ?_⟩
    · rintro rfl
      rw [ChainView.ids_of_lt hlt] at hids
      cases hids
    · intro b hb
      have hmem : (b.height, b.hash) ∈ scanned.map fun s => (s.height, s.hash) :=
        List.mem_map.mpr ⟨b, hb, rfl⟩
      rw [hids, ChainView.mem_ids] at hmem
      exact ⟨by omega, hmem.2.2⟩
  · intro T view w w' τ n h
    exact card_unscanned_turns h

/-! ## A wallet that catches up -/

/-- The ranges that suggest exactly what is missing. -/
def queueOf (d : WalletDb) (tip : ℕ) : List ScanRange :=
  ((List.range (tip + 1)).filter fun h =>
    (d.birthday.any fun birthday => decide (birthday ≤ h)) && (d.blocks h).isNone).map
      fun h => ⟨⟨h, h + 1⟩, .Historic⟩

/-- No suggested height has been scanned. -/
theorem queueOf_fresh {d : WalletDb} {tip : ℕ} :
    ∀ s ∈ queueOf d tip, ∀ height, ScanRange.Has s height → d.blocks height = none := by
  intro s hs height hheight
  obtain ⟨k, hk, rfl⟩ := List.mem_map.mp hs
  have hnone : (d.blocks k).isNone = true := by
    have hfilter := (List.mem_filter.mp hk).2
    exact (Bool.and_eq_true_iff.mp hfilter).2
  obtain rfl : height = k := by
    obtain ⟨hle, hlt⟩ := hheight
    simp only at hle hlt
    omega
  exact Option.isNone_iff_eq_none.mp hnone

/-- The script, with a queue that suggests what is missing. -/
def Script.queue (s : Script) (tip : ℕ) : Handler syncSig Replay
  | .db .suggestScanRanges, σ => some (.ok (queueOf σ.world.db tip), σ)
  | o, σ => s.replay o σ

theorem Script.queue_replays {s : Script} {tip : ℕ} {o : SyncOp} {σ σ' : Replay} {r : o.Ret}
    (h : s.queue tip o σ = some (r, σ')) (ho : o ≠ .db .suggestScanRanges) :
    s.replay o σ = some (r, σ') := by
  rw [← h]
  unfold Script.queue
  split
  · exact absurd rfl ho
  · rfl

theorem Script.queue_fresh (s : Script) (tip : ℕ) :
    Handler.Keeps (s.queue tip) ((contract s.tree).restrict FreshSuggestions) Replay.world := by
  intro o σ r σ' h
  by_cases ho : o = .db .suggestScanRanges
  · subst ho
    cases h
    exact ⟨⟨σ.world.db, rfl, rfl⟩, queueOf_fresh⟩
  · refine ⟨s.replay_keeps o σ r σ' (Script.queue_replays h ho), ?_⟩
    unfold FreshSuggestions
    split
    · exact absurd rfl ho
    · trivial

/-- The backend serves `view` and nothing fails. -/
def servesView (view : ChainView) : (o : SyncOp) → Replay → o.Ret → Bool
  | .chain .snapshot, _, .ok captured => decide (captured = view)
  | .chain (.streamBlocksToTip _ _), _, .ok stream => stream.failure.isNone
  | .chain (.streamBlocks _ _), _, .ok stream => stream.failure.isNone
  | .chain _, _, .error _ => false
  | _, _, _ => true

theorem fixedView_of_servesView {view : ChainView} {o : SyncOp} {σ : Replay} {r : o.Ret}
    (h : servesView view o σ r = true) : FixedView view o σ.world r := by
  cases o with
  | chain o =>
    cases r with
    | error e => cases o <;> cases h
    | ok a =>
      cases o with
      | snapshot =>
        have ha : a = view := of_decide_eq_true h
        exact ha
      | streamBlocksToTip captured start =>
        have hnone : BlockStream.failure a = none := Option.isNone_iff_eq_none.mp h
        rintro ⟨source, hs⟩
        rw [hnone] at hs
        cases hs
      | streamBlocks captured range =>
        have hnone : BlockStream.failure a = none := Option.isNone_iff_eq_none.mp h
        rintro ⟨source, hs⟩
        rw [hnone] at hs
        cases hs
      | _ => exact id
  | _ => exact id

/-- A backend that stays at one view, and its wallet. -/
def steadyBackend (view : ChainView) : Handler syncSig Replay :=
  ((Script.quiet (forkTree 6)).queue view.tip.height).checked (servesView view)

theorem steadyBackend_fresh (view : ChainView) :
    Handler.Keeps (steadyBackend view) ((contract (forkTree 6)).restrict fun o w r =>
      FixedView view o w r ∧ FreshSuggestions o w r) Replay.world := by
  have hfixed : ∀ o σ r, servesView view o σ r = true → FixedView view o σ.world r :=
    fun o σ r hserves => fixedView_of_servesView hserves
  have h := ((Script.quiet (forkTree 6)).queue_fresh view.tip.height).checked hfixed
  intro o σ r σ' hs
  obtain ⟨⟨hC, hQ⟩, hF⟩ := h o σ r σ' hs
  exact ⟨hC, hF, hQ⟩

/-- The tip 102. -/
def viewAt102 : ChainView := ⟨⟨102, forkBlock 0 102⟩⟩

/-- A wallet born at height 101 that has scanned nothing. -/
def newAt101 : SyncWorld where
  db := ⟨fun _ => none, [], some 101⟩
  signals := .initial
  prevTip := ⟨0, forkBlock 0 0⟩
  boundary := 0

/-- Two turns scan the two heights from the birthday to the tip, and the first of them
    stores blocks of the view only. -/
theorem catch_up_makes_progress_two :
    (∃ τ w', Run ((contract (forkTree 6)).restrict fun o w r =>
        FixedView viewAt102 o w r ∧ FreshSuggestions o w r)
        (turns (initializeTurn .watchNothing none) 2 ()).run newAt101 τ (.ok (.Continue ())) w' ∧
      2 ≤ (unscanned newAt101.db 102).card ∧ w'.db.blocks 101 = some (forkBlock 0 101) ∧
      w'.db.blocks 102 = some (forkBlock 0 102)) ∧
    ∃ τ w' fromState scanned, Run ((contract (forkTree 6)).restrict (FixedView viewAt102))
        (initializeTurn .watchNothing none ()).run newAt101 τ (.ok (.Continue ())) w' ∧
      ⟨.db (.putBlocks fromState scanned), .ok ()⟩ ∈ τ ∧ scanned ≠ [] ∧
      ∀ b ∈ scanned, b.height ≤ 102 ∧ b.hash = viewAt102.hashAt (forkTree 6) b.height := by
  obtain ⟨-, hturn, hturns⟩ := catch_up_makes_progress .watchNothing none
  have htwo := exec_run (steadyBackend_fresh viewAt102) (n := 60)
    (p := (turns (initializeTurn .watchNothing none) 2 ()).run)
    (s := ⟨newAt101, List.replicate 2 (.ok viewAt102)⟩)
    (a := .ok (.Continue ())) (by decide +kernel)
  have hone := (exec_run (steadyBackend_fresh viewAt102) (n := 60)
    (p := (initializeTurn .watchNothing none ()).run)
    (s := ⟨newAt101, List.replicate 2 (.ok viewAt102)⟩)
    (a := .ok (.Continue ())) (by decide +kernel)).mono
      (D := (contract (forkTree 6)).restrict (FixedView viewAt102))
      fun _ _ _ _ hC => ⟨hC.1, hC.2.1⟩
  obtain ⟨fromState, scanned, hput, hsome, hblocks⟩ := hturn (forkTree 6) viewAt102 _ _ _ hone
  constructor
  · exact ⟨_, _, htwo, hturns _ _ _ _ _ 2 htwo, by decide +kernel, by decide +kernel⟩
  · exact ⟨_, _, fromState, scanned, hone, hput, hsome, hblocks⟩

end Zallet.Sync
