import Zallet.Sync.Batches
import Zallet.Sync.CatchUp

/-!
# The wallet catches up

`initialize` scans from the boundary up to the tip before the other tasks
start, and `recover_history` then scans what is left below the boundary
(`sync.rs`, lines 298–442 and 1085–1195). Neither loop counts its turns. While
the backend stays at one view and `suggest_scan_ranges` suggests the heights that
have not been scanned (`Answering`), each turn leaves fewer of them (`missing`)
or finds nothing left to do.

* `run_initializeWallet_settles`: `initialize` returns, and every height from the
  boundary up to the tip has been scanned.
* `wpE_recoverTurn_progress`, `wpE_recoverTurns_progress`: a turn of
  `recover_history`, and its loop, while other tasks add blocks of the view and
  raise the boundary (`Advances`).
* `wallet_catches_up`: the two after each other.
-/

namespace Zallet.Sync

open Zallet.Effect Zallet.Common Zallet.Chain Zallet.Wallet

/-! ## A backend at one view -/

/-- `suggest_scan_ranges` once `tip` has been recorded as the chain tip: the
    heights from the birthday up to the tip that have not been scanned. -/
structure SuggestsMissing (d : WalletDb) (tip : ℕ) (suggested : List ScanRange) : Prop where
  heights : ∀ h, (∃ r ∈ suggested, ScanRange.Has r h) ↔
    (∃ birthday, d.birthday = some birthday ∧ birthday ≤ h) ∧ h ≤ tip ∧ d.blocks h = none
  priority : ∀ r ∈ suggested, ScanPriority.Historic.rank ≤ r.priority.rank

/-- The wallet suggests what is missing. -/
def QueueMissing (tip : ℕ) : (o : SyncOp) → SyncWorld → o.Ret → Prop
  | .db .suggestScanRanges, w, .ok suggested => SuggestsMissing w.db tip suggested
  | _, _, _ => True

/-- The backend stays at `view`, and no read of it finds the view stale. -/
def Answering (view : ChainView) (o : SyncOp) (w : SyncWorld) (r : o.Ret) : Prop :=
  FixedView view o w r ∧ QueueMissing view.tip.height o w r

/-- The heights from the birthday up to `tip` that have not been scanned. -/
def missing (d : WalletDb) (tip : ℕ) : Finset ℕ :=
  (unscanned d tip).filter fun h => d.birthday.any fun birthday => decide (birthday ≤ h)

theorem mem_missing {d : WalletDb} {tip h : ℕ} :
    h ∈ missing d tip ↔
      (∃ birthday, d.birthday = some birthday ∧ birthday ≤ h) ∧ h ≤ tip ∧ d.blocks h = none := by
  simp only [missing, unscanned, Finset.mem_filter, Finset.mem_range, Option.any_eq_true,
    decide_eq_true_eq]
  constructor
  · rintro ⟨⟨hlt, hnone⟩, hb⟩
    exact ⟨hb, by omega, hnone⟩
  · rintro ⟨hb, hle, hnone⟩
    exact ⟨⟨by omega, hnone⟩, hb⟩

/-- Every height from the birthday on that `P` selects has been scanned. -/
def ScannedWhere (P : ℕ → Prop) (d : WalletDb) : Prop :=
  ∀ birthday, d.birthday = some birthday → ∀ h, birthday ≤ h → P h → (d.blocks h).isSome

/-! ## What other tasks do meanwhile -/

/-- Other tasks add blocks of the view, and raise the boundary to a height that
    is not above the tip. -/
structure Advances (T : BlockTree BlockHash) (view : ChainView) (w w' : SyncWorld) : Prop where
  db : Extends T [view] w.db w'.db
  birthday : w'.db.birthday = w.db.birthday
  boundary : w.boundary ≤ w'.boundary
  belowTip : w.boundary ≤ view.tip.height → w'.boundary ≤ view.tip.height

section advances

variable {T : BlockTree BlockHash} {view : ChainView} {w w₁ w' : SyncWorld} {d d₁ d' : WalletDb}

theorem Extends.trans_one (h₁ : Extends T [view] d d₁) (h₂ : Extends T [view] d₁ d') :
    Extends T [view] d d' := by
  have h := h₁.trans h₂
  refine ⟨h.keeps, fun k hash hk => ?_⟩
  rcases h.adds k hash hk with hk | ⟨v, hv, hle, hhash⟩
  · exact Or.inl hk
  · exact Or.inr ⟨v, by simpa using hv, hle, hhash⟩

theorem Extends.isSome (h : Extends T [view] d d') {k : ℕ} (hk : (d.blocks k).isSome) :
    (d'.blocks k).isSome := by
  obtain ⟨hash, hhash⟩ := Option.isSome_iff_exists.mp hk
  rw [h.keeps k hash hhash]
  rfl

theorem Advances.refl (w : SyncWorld) : Advances T view w w :=
  ⟨Extends.refl _ _, rfl, le_rfl, id⟩

theorem Advances.trans (h₁ : Advances T view w w₁) (h₂ : Advances T view w₁ w') :
    Advances T view w w' where
  db := h₁.db.trans_one h₂.db
  birthday := h₂.birthday.trans h₁.birthday
  boundary := h₁.boundary.trans h₂.boundary
  belowTip hle := h₂.belowTip (h₁.belowTip hle)

/-- An operation that leaves the database and the boundary alone. -/
theorem Advances.of_eq (hd : w'.db = w.db) (hb : w'.boundary = w.boundary) :
    Advances T view w w' := by
  refine ⟨Extends.of_eq _ hd, by rw [hd], hb.ge, ?_⟩
  rw [hb]
  exact id

/-- Storing blocks of the view. -/
theorem Advances.of_putBlocks {start stop : ℕ} {scanned : List ScannedBlock} {c : List ℕ}
    (hstop : stop ≤ view.tip.height + 1)
    (hids : scanned.map (fun s => (s.height, s.hash)) = view.ids T start stop)
    (hconflict : ∀ b ∈ scanned, ¬ w.db.Conflicts b) :
    Advances T view w { w with db := { w.db.put scanned with checkpoints := c } } :=
  ⟨Extends.of_putBlocks hstop hids hconflict, by simp, le_rfl, id⟩

theorem ScannedWhere.advance {P : ℕ → Prop} (h : ScannedWhere P w.db)
    (hw : Advances T view w w') : ScannedWhere P w'.db := by
  intro birthday hb k hk hP
  rw [hw.birthday] at hb
  exact hw.db.isSome (h birthday hb k hk hP)

/-- Nothing that has been scanned goes missing. -/
theorem missing_subset (hd : Extends T [view] d d') (hb : d'.birthday = d.birthday) (tip : ℕ) :
    missing d' tip ⊆ missing d tip := by
  intro h hh
  obtain ⟨hbirthday, hle, hnone⟩ := mem_missing.mp hh
  refine mem_missing.mpr ⟨by rwa [← hb], hle, ?_⟩
  by_contra hsome
  have hkept := hd.isSome (Option.isSome_iff_ne_none.mpr hsome)
  rw [hnone] at hkept
  cases hkept

/-- A missing height that has been scanned leaves fewer of them. -/
theorem card_missing_lt (hd : Extends T [view] d d') (hb : d'.birthday = d.birthday) {tip h : ℕ}
    (hh : h ∈ missing d tip) (hsome : (d'.blocks h).isSome) :
    (missing d' tip).card < (missing d tip).card := by
  apply Finset.card_lt_card
  rw [Finset.ssubset_iff_of_subset (missing_subset hd hb tip)]
  refine ⟨h, hh, fun hmem => ?_⟩
  rw [(mem_missing.mp hmem).2.2] at hsome
  cases hsome

theorem Advances.card_missing_le (h : Advances T view w w') (tip : ℕ) :
    (missing w'.db tip).card ≤ (missing w.db tip).card :=
  Finset.card_le_card (missing_subset h.db h.birthday tip)

end advances

/-! ## One scan -/

section scans

variable {T : BlockTree BlockHash} (U : Upstream) {view : ChainView} {shutdownHeight : Option ℕ}
  {w : SyncWorld}

/-- The outcome of scanning a range: blocks of the view have been added, and all
    of them unless the scan failed. -/
def ScanOutcome (T : BlockTree BlockHash) (view : ChainView) (range : HeightRange)
    (w : SyncWorld) (r : Except SyncError (ControlFlow ℕ Unit)) (w' : SyncWorld) : Prop :=
  Advances T view w w' ∧ ∀ flow, r = .ok flow → flow = .Continue () ∧
    ∀ h, range.start ≤ h → h < range.stop → (w'.db.blocks h).isSome

theorem ScanOutcome.of_error {range : HeightRange} {w' : SyncWorld} {e : SyncError}
    (h : Advances T view w w') : ScanOutcome T view range w (.error e) w' :=
  ⟨h, fun flow hr => by cases hr⟩

/-- Other tasks only advance, so a scan can read among them. -/
theorem reading_advances (w : SyncWorld) :
    Reading (Advances T view) (fun _ _ => True) (Advances T view w) where
  stable _ _ h₁ h₂ := h₁.trans h₂
  allowed _ _ _ _ := trivial

/-- A scan of a range that ends at the tip or below stores the whole range, unless
    it fails. -/
theorem wpE_scanBlocks_stores {scanRange : ScanRange}
    (hrange : scanRange.blockRange.start < scanRange.blockRange.stop)
    (hstop : scanRange.blockRange.stop ≤ view.tip.height + 1)
    (hshutdown : ∀ h, shutdownHeight = some h → view.tip.height < h) :
    wpE (contract T) (Advances T view) (fun _ _ => True)
      (ScanOutcome T view scanRange.blockRange w) (scanBlocks U view scanRange shutdownHeight)
      w := by
  have hR : Reading (Advances T view) (fun _ _ => True) (Advances T view w) := reading_advances w
  have hclamp : clampToBoundary scanRange.blockRange shutdownHeight = .Continue none := by
    have hspec := clampToBoundary_spec scanRange.blockRange shutdownHeight
    cases hc : clampToBoundary scanRange.blockRange shutdownHeight with
    | Break stop =>
      rw [hc] at hspec
      obtain ⟨hle, heq | hs⟩ := hspec
      · omega
      · have := hshutdown stop hs
        omega
    | Continue boundary =>
      cases boundary with
      | none => rfl
      | some stop =>
        rw [hc] at hspec
        have := hshutdown stop hspec.1
        omega
  unfold scanBlocks
  rw [hclamp]
  simp only [Option.elim_none]
  rw [wpE_bind]
  refine wpE_chain_read hR (by trivial) (Advances.refl w) ?_ ?_
  · intro state w₁ hw₁ hstate
    rw [andThen_ok]
    cases state with
    | none =>
      -- the block before the range is at or below the tip
      have hlt : view.tip.height < scanRange.blockRange.start - 1 := hstate
      omega
    | some fromState =>
      rw [wpE_bind]
      refine wpE_scanFrom U hR view _ fromState hw₁ ?_ ?_
      · intro scanned w₂ hw₂ hids
        rw [Nat.min_eq_left hstop] at hids
        refine ⟨trivial, ?_⟩
        rintro r w₃ ⟨d, ha, rfl⟩
        cases r with
        | error e =>
          obtain ⟨-, rfl⟩ := ha
          exact ScanOutcome.of_error hw₂
        | ok a =>
          obtain ⟨hconflict, checkpoints, rfl⟩ := ha
          refine ⟨hw₂.trans (Advances.of_putBlocks hstop hids hconflict), ?_⟩
          rintro flow ⟨⟩
          refine ⟨rfl, fun h hle hlt => ?_⟩
          have hmem : (h, view.hashAt T h) ∈ scanned.map fun s => (s.height, s.hash) := by
            rw [hids, ChainView.mem_ids]
            exact ⟨hle, hlt, rfl⟩
          obtain ⟨b, hb, heq⟩ := List.mem_map.mp hmem
          obtain rfl : b.height = h := congrArg Prod.fst heq
          exact WalletDb.put_blocks_isSome _ hb
      · intro e w₂ hw₂ _
        exact ScanOutcome.of_error hw₂
  · intro e w₁ hw₁
    exact ScanOutcome.of_error hw₁

end scans

/-! ## `initialize` -/

section initialization

variable {T : BlockTree BlockHash} {U : Upstream} {view : ChainView} {shutdownHeight : Option ℕ}
  {w w' : SyncWorld} {τ : List (Event syncSig)}

/-- No operation changes the birthday. -/
theorem reaches_birthday {α : Type} {p q : Prog syncSig α} (h : Reaches (contract T) p w τ q w') :
    w'.db.birthday = w.db.birthday := by
  induction h with
  | refl p w => rfl
  | step hC _ ih =>
    rw [ih]
    rcases contract_cases hC with rfl | ⟨s, -, rfl⟩ | ⟨block, -, rfl⟩ | ⟨tipHeight, -, rfl⟩ |
      ⟨height, landed, -, -, rfl⟩ | ⟨fromState, blocks, checkpoints, -, -, rfl⟩
    · rfl
    · rfl
    · rfl
    · rfl
    · rfl
    · simp

/-- The turn that ends the loop: from the boundary up to the tip nothing is
    missing. -/
theorem run_initializeTurn_break {result : ChainBlock × ℕ}
    (hshutdown : ∀ h, shutdownHeight = some h → view.tip.height < h)
    (h : Run ((contract T).restrict (Answering view)) (initializeTurn U shutdownHeight ()).run w τ
      (.ok (.Break result)) w') :
    result = (view.tip, view.tip.height - 100) ∧ Extends T [view] w.db w'.db ∧
      ScannedWhere (fun h => view.tip.height - 100 ≤ h ∧ h ≤ view.tip.height) w'.db := by
  have hbirthday : w'.db.birthday = w.db.birthday :=
    reaches_birthday (h.mono fun _ _ _ _ hC => hC.1)
  have hboundary : updateBoundary 0 view.tip.height = view.tip.height - 100 := by
    unfold updateBoundary
    omega
  unfold initializeTurn at h
  obtain ⟨τ₁, captured, w₁, τ₂, h₁, hr₁, rfl⟩ := run_bind_ok h
  obtain ⟨-, ⟨-, rfl⟩, hview, -⟩ := run_chain h₁
  obtain rfl : captured = view := hview
  unfold initializeOn at hr₁
  obtain ⟨τ₃, currentTip, w₂, τ₄, h₂, hr₂, rfl⟩ := run_bind_ok hr₁
  obtain ⟨-, ⟨htip, rfl⟩, -⟩ := run_chain h₂
  obtain rfl : currentTip = captured.tip := htip
  obtain ⟨τ₅, _, w₃, τ₆, h₃, hr₃, rfl⟩ := run_bind_ok hr₂
  obtain ⟨-, ⟨d₃, hd₃, rfl⟩, -⟩ := run_db h₃
  obtain ⟨τ₇, _, w₄, τ₈, h₄, hr₄, rfl⟩ := run_bind_ok hr₃
  obtain ⟨-, hw₄, -⟩ := run_perform h₄
  obtain ⟨τ₉, suggested, w₅, τ₁₀, h₅, hr₅, rfl⟩ := run_bind_ok hr₄
  obtain ⟨-, ⟨d₅, hd₅, rfl⟩, -, hmissing⟩ := run_db h₅
  have hsuggests : SuggestsMissing w₄.db captured.tip.height suggested := hmissing
  have hd : w₄.db = w₂.db := by
    rw [(contract_signals (by trivial) hw₄).1]
    exact hd₃
  have hd' : d₅ = w₂.db := hd₅.trans hd
  rw [hd] at hsuggests
  rw [hboundary] at hr₅
  split at hr₅
  · rename_i hselect
    obtain ⟨τ₁₁, _, w₆, τ₁₂, h₆, h₇, rfl⟩ := run_bind_ok hr₅
    obtain ⟨rfl, hflow, rfl⟩ := run_pure.mp h₇
    cases hflow
    obtain ⟨hext, -⟩ := run_bestEffortTipScan U (Reaches.mono (fun _ _ _ _ hC => hC.1) h₆)
    simp only [hd'] at hext
    refine ⟨rfl, hext, ?_⟩
    rintro birthday hb h hle ⟨hge, htop⟩
    rw [hbirthday] at hb
    refine hext.isSome ?_
    by_contra hsome
    have hnone : w₂.db.blocks h = none := by simpa using hsome
    obtain ⟨r, hr, hhas⟩ := (hsuggests.heights h).mpr ⟨⟨birthday, hb, hle⟩, htop, hnone⟩
    exact selectInitialScanRange_eq_none.mp hselect r hr h
      ⟨hhas, htop, Or.inr ⟨hsuggests.priority r hr, hge⟩⟩
  · rename_i scanRange hselect
    obtain ⟨hlt, hstop⟩ := selectInitialScanRange_spec hselect
    obtain ⟨τ₁₁, flow, w₆, τ₁₂, h₆, h₇, rfl⟩ := run_bind_ok hr₅
    cases flow with
    | Continue u => cases (run_pure.mp h₇).2.1
    | Break b =>
      -- only the shutdown height stops a scan
      obtain ⟨-, hbreak⟩ := wp_run (wpE_scanInitialRange U hlt hstop)
        (Reaches.mono (fun _ _ _ _ hC => hC.1) h₆)
      obtain ⟨height, hheight, hle⟩ := hbreak rfl
      have := hshutdown height hheight
      omega

/-- A turn adds blocks of the view. -/
theorem run_initializeTurn_extends {flow : ControlFlow (ChainBlock × ℕ) Unit}
    (h : Run ((contract T).restrict (Answering view)) (initializeTurn U shutdownHeight ()).run w τ
      (.ok flow) w') : Extends T [view] w.db w'.db := by
  unfold initializeTurn at h
  obtain ⟨τ₁, captured, w₁, τ₂, h₁, hr₁, rfl⟩ := run_bind_ok h
  obtain ⟨-, ⟨-, rfl⟩, hview, -⟩ := run_chain h₁
  obtain rfl : captured = view := hview
  exact (run_initializeOn U (Reaches.mono (fun _ _ _ _ hC => hC.1) hr₁)).1

/-- A turn that goes on leaves fewer heights missing. -/
theorem run_initializeTurn_continue
    (h : Run ((contract T).restrict (Answering view)) (initializeTurn U shutdownHeight ()).run w τ
      (.ok (.Continue ())) w') :
    (missing w'.db view.tip.height).card < (missing w.db view.tip.height).card := by
  have hbirthday : w'.db.birthday = w.db.birthday :=
    reaches_birthday (h.mono fun _ _ _ _ hC => hC.1)
  obtain ⟨w₁, suggested, scanRange, fromState, scanned, checkpoints, hw₁, ⟨-, hmissing⟩, hselect,
    -, hids, hdb⟩ := run_initializeTurn (fun _ _ _ hk => hk.1) h
  have hsuggests : SuggestsMissing w₁.db view.tip.height suggested := hmissing
  rw [hw₁] at hsuggests
  obtain ⟨before, s, after, hsplit, -, -, hlt, hhas⟩ := selectInitialScanRange_eq_some hselect
  have hfirst : ScanRange.Has scanRange scanRange.blockRange.start := ⟨le_rfl, hlt⟩
  -- the first height of the range is missing, and its block is among the stored ones
  have hin : scanRange.blockRange.start ∈ missing w.db view.tip.height := by
    refine mem_missing.mpr ((hsuggests.heights _).mp ⟨s, ?_, ((hhas _).mp hfirst).inside⟩)
    rw [hsplit]
    simp
  refine card_missing_lt (run_initializeTurn_extends h) hbirthday hin ?_
  have hmem : (scanRange.blockRange.start, view.hashAt T scanRange.blockRange.start) ∈
      scanned.map fun s => (s.height, s.hash) := by
    rw [hids, ChainView.mem_ids]
    exact ⟨le_rfl, hlt, rfl⟩
  obtain ⟨b, hb, hbeq⟩ := List.mem_map.mp hmem
  obtain hheight : b.height = scanRange.blockRange.start := congrArg Prod.fst hbeq
  rw [hdb, ← hheight]
  exact WalletDb.put_blocks_isSome _ hb

/-- The loop of `initialize` ends within as many turns as heights are missing, and
    then none is missing from the boundary up to the tip. -/
theorem run_initializeTurns_settles
    (hshutdown : ∀ h, shutdownHeight = some h → view.tip.height < h) {n : ℕ}
    {flow : ControlFlow (ChainBlock × ℕ) Unit}
    (h : Run ((contract T).restrict (Answering view))
      (turns (initializeTurn U shutdownHeight) n ()).run w τ (.ok flow) w') :
    Extends T [view] w.db w'.db ∧
      ((flow = .Continue () ∧
          (missing w'.db view.tip.height).card + n ≤ (missing w.db view.tip.height).card) ∨
        flow = .Break (view.tip, view.tip.height - 100) ∧
          ScannedWhere (fun h => view.tip.height - 100 ≤ h ∧ h ≤ view.tip.height) w'.db) := by
  induction n generalizing w τ with
  | zero =>
    obtain ⟨-, hflow, rfl⟩ := run_pure.mp h
    cases hflow
    exact ⟨Extends.refl _ _, Or.inl ⟨rfl, le_rfl⟩⟩
  | succ n ih =>
    rw [turns] at h
    obtain ⟨τ₁, outcome, w₁, τ₂, h₁, h₂, rfl⟩ := run_bind_ok h
    have hext := run_initializeTurn_extends h₁
    cases outcome with
    | Break result =>
      obtain ⟨rfl, hdone⟩ := run_initializeTurn_break hshutdown h₁
      obtain ⟨-, hflow, rfl⟩ := run_pure.mp h₂
      cases hflow
      exact ⟨hext, Or.inr ⟨rfl, hdone.2⟩⟩
    | Continue u =>
      have hfewer := run_initializeTurn_continue h₁
      obtain ⟨hrest, hflow⟩ := ih h₂
      refine ⟨hext.trans_one hrest, ?_⟩
      rcases hflow with ⟨rfl, hcard⟩ | hdone
      · exact Or.inl ⟨rfl, by omega⟩
      · exact Or.inr hdone

/-- `initialize` returns within as many turns as heights are missing, and then
    none is missing from the boundary up to the tip. -/
theorem run_initializeWallet_settles
    (hshutdown : ∀ h, shutdownHeight = some h → view.tip.height < h) {n : ℕ}
    (hn : (missing w.db view.tip.height).card < n) {flow : ControlFlow (ChainBlock × ℕ) Unit}
    (h : Run ((contract T).restrict (Answering view)) (initializeWallet U shutdownHeight n).run w τ
      (.ok flow) w') :
    flow = .Break (view.tip, view.tip.height - 100) ∧ Extends T [view] w.db w'.db ∧
      ScannedWhere (fun h => view.tip.height - 100 ≤ h ∧ h ≤ view.tip.height) w'.db := by
  unfold initializeWallet at h
  obtain ⟨τ₁, _, w₁, τ₂, hroots, hr₁, rfl⟩ := run_bind_ok h
  obtain ⟨τ₃, outcome, w₂, τ₄, hloop, hr₂, rfl⟩ := run_bind_ok hr₁
  obtain ⟨rfl, -⟩ := run_updateSubtreeRoots (Reaches.mono (fun _ _ _ _ hC => hC.1) hroots)
  obtain ⟨hext, ⟨rfl, hcard⟩ | ⟨rfl, hdone⟩⟩ := run_initializeTurns_settles hshutdown hloop
  · omega
  · obtain ⟨τ₅, fullyScanned, w₃, τ₆, hscanned, hr₃, rfl⟩ := run_bind_ok hr₂
    obtain ⟨τ₇, _, w₄, τ₈, hstatus, hr₄, rfl⟩ := run_bind_ok hr₃
    obtain ⟨-, ⟨d, hd, rfl⟩, -⟩ := run_db hscanned
    obtain ⟨-, hw₄, -⟩ := run_perform hstatus
    obtain ⟨-, hflow, rfl⟩ := run_pure.mp hr₄
    cases hflow
    have hdb : w'.db = w₂.db := by
      rw [(contract_signals (by trivial) hw₄).1]
      exact hd
    rw [hdb]
    exact ⟨rfl, hext, hdone⟩

end initialization

/-! ## `recover_history` -/

section recovery

variable {T : BlockTree BlockHash} (U : Upstream) {view : ChainView} {shutdownHeight : Option ℕ}
  {w : SyncWorld}

/-- The operations of `recover_history` besides scanning leave the database and
    the boundary alone. -/
theorem advances_of_bookkeeping {o : SyncOp} {r : o.Ret} {w' : SyncWorld}
    (ho : o.Bookkeeping ∨ o = .loadBoundary ∨ o = .chain .snapshot ∨ ∃ millis, o = .sleep millis)
    (h : contract T o w r w') : Advances T view w w' := by
  rcases contract_cases h with rfl | ⟨s, -, rfl⟩ | ⟨block, rfl, -⟩ | ⟨tipHeight, rfl, -⟩ |
    ⟨height, landed, rfl, -⟩ | ⟨fromState, blocks, checkpoints, rfl, -⟩
  · exact Advances.refl _
  · exact Advances.of_eq rfl rfl
  · simp [SyncOp.Bookkeeping] at ho
  · simp [SyncOp.Bookkeeping] at ho
  · simp [SyncOp.Bookkeeping] at ho
  · simp [SyncOp.Bookkeeping] at ho

/-- A read of the database among tasks that advance. -/
theorem wpE_db_answering {o : DbOp} {Q : Except SyncError o.Out → SyncWorld → Prop}
    (ho : (SyncOp.db o).Reads)
    (hQ : ∀ a w', Advances T view w w' → Answering view (.db o) w' (.ok a) → Q (.ok a) w')
    (hE : ∀ e w', Advances T view w w' → Q (.error e) w') :
    wpE ((contract T).restrict (Answering view)) (Advances T view) (fun _ _ => True) Q (db o)
      w := by
  rw [wpE_db]
  intro w₁ hw₁
  refine ⟨trivial, fun r w₂ hr => ?_⟩
  obtain ⟨hC, hK⟩ := hr
  obtain rfl := contract_reads ho hC
  cases r with
  | ok a => exact hQ a w₂ hw₁ hK
  | error e => exact hE _ w₂ hw₁

/-- An operation besides scanning, among tasks that advance. -/
theorem wpE_perform_answering {o : SyncOp} {Q : Except SyncError o.Ret → SyncWorld → Prop}
    (ho : o.Bookkeeping ∨ o = .loadBoundary ∨ o = .chain .snapshot ∨ ∃ millis, o = .sleep millis)
    (hQ : ∀ r w₁ w', Advances T view w w₁ → Advances T view w₁ w' → contract T o w₁ r w' →
      Q (.ok r) w') :
    wpE ((contract T).restrict (Answering view)) (Advances T view) (fun _ _ => True) Q (perform o)
      w := by
  rw [wpE_perform]
  intro w₁ hw₁
  refine ⟨trivial, fun r w₂ hr => ?_⟩
  exact hQ r w₁ w₂ hw₁ (advances_of_bookkeeping ho hr.1) hr.1

/-- A scan that is tried again while the tree has diverged. -/
theorem wpE_scanWithRetries_stores {scanRange : ScanRange}
    (hrange : scanRange.blockRange.start < scanRange.blockRange.stop)
    (hstop : scanRange.blockRange.stop ≤ view.tip.height + 1)
    (hshutdown : ∀ h, shutdownHeight = some h → view.tip.height < h) (backoffs : List ℕ) :
    wpE ((contract T).restrict (Answering view)) (Advances T view) (fun _ _ => True)
      (ScanOutcome T view scanRange.blockRange w)
      (scanWithRetries U scanRange shutdownHeight backoffs) w := by
  have hscan : ∀ w₁, wpE ((contract T).restrict (Answering view)) (Advances T view)
      (fun _ _ => True) (ScanOutcome T view scanRange.blockRange w₁)
      (scanBlocks U view scanRange shutdownHeight) w₁ := by
    intro w₁
    exact wp_anti (wpE_scanBlocks_stores U hrange hstop hshutdown) (fun _ _ _ _ h => h.1)
      fun _ _ h => h
  induction backoffs generalizing w with
  | nil =>
    rw [scanWithRetries, wpE_bind, wpE_chain]
    intro w₁ hw₁
    refine ⟨trivial, fun r w₂ hr => ?_⟩
    obtain ⟨⟨-, rfl⟩, hview, -⟩ := hr
    cases r with
    | error e => exact ScanOutcome.of_error hw₁
    | ok captured =>
      obtain rfl : captured = view := hview
      exact wpE_post (hscan w₂) fun r w' hr => ⟨hw₁.trans hr.1, hr.2⟩
  | cons backoff rest ih =>
    rw [scanWithRetries, wpE_bind, wpE_chain]
    intro w₁ hw₁
    refine ⟨trivial, fun r w₂ hr => ?_⟩
    obtain ⟨⟨-, rfl⟩, hview, -⟩ := hr
    cases r with
    | error e => exact ScanOutcome.of_error hw₁
    | ok captured =>
      obtain rfl : captured = view := hview
      show wpE _ _ _ _ (attempt (scanBlocks U captured scanRange shutdownHeight) >>= _) w₂
      rw [wpE_bind, wpE_attempt]
      refine wpE_post (hscan w₂) fun r w₃ hr => ?_
      have hw₃ := hw₁.trans hr.1
      rw [andThen_ok]
      cases r with
      | ok flow => exact ⟨hw₃, hr.2⟩
      | error e =>
        simp only
        by_cases he : isTreeDivergence e = true
        · rw [if_pos he, wpE_bind]
          refine wpE_perform_answering (Or.inr (Or.inr (Or.inr ⟨_, rfl⟩))) ?_
          intro _ w₄ w₅ hw₄ hw₅ _
          exact wpE_post ih fun r w' hr =>
            ⟨((hw₃.trans hw₄).trans hw₅).trans hr.1, hr.2⟩
        · rw [if_neg he]
          exact ScanOutcome.of_error hw₃

/-- Batches at the tip or below: blocks of the view are added, and those of the
    first batch unless the scan fails. -/
theorem wpE_recoverBatches_stores {bs : List ScanRange}
    (hbs : ∀ b ∈ bs, b.blockRange.start < b.blockRange.stop ∧
      b.blockRange.stop ≤ view.tip.height + 1)
    (hshutdown : ∀ h, shutdownHeight = some h → view.tip.height < h) :
    wpE ((contract T).restrict (Answering view)) (Advances T view) (fun _ _ => True)
      (fun r w' => Advances T view w w' ∧ (r = .ok () → ∀ b, bs.head? = some b →
        ∀ h, b.blockRange.start ≤ h → h < b.blockRange.stop → (w'.db.blocks h).isSome))
      (recoverBatches U shutdownHeight bs) w := by
  induction bs generalizing w with
  | nil =>
    refine ⟨Advances.refl w, fun _ b hb => ?_⟩
    cases hb
  | cons b rest ih =>
    obtain ⟨⟨hrange, hstop⟩, hrest⟩ := List.forall_mem_cons.mp hbs
    rw [recoverBatches, wpE_bind]
    refine wpE_post (wpE_scanWithRetries_stores U hrange hstop hshutdown _) fun r w₁ hr => ?_
    obtain ⟨hw₁, hflow⟩ := hr
    cases r with
    | error e =>
      refine ⟨hw₁, fun h => ?_⟩
      cases h
    | ok flow =>
      obtain ⟨rfl, hstored⟩ := hflow flow rfl
      -- what comes later keeps what has been stored
      have hkeep : ∀ w', Advances T view w₁ w' → ∀ b', (b :: rest).head? = some b' →
          ∀ h, b'.blockRange.start ≤ h → h < b'.blockRange.stop → (w'.db.blocks h).isSome := by
        rintro w' hw' b' ⟨⟩ h hle hlt
        exact hw'.db.isSome (hstored h hle hlt)
      rw [andThen_ok]
      simp only
      rw [wpE_bind]
      refine wpE_db_answering (by trivial) ?_ ?_
      · intro fullyScanned w₂ hw₂ _
        rw [andThen_ok, wpE_bind]
        refine wpE_perform_answering (Or.inl trivial) ?_
        intro _ w₃ w₄ hw₃ hw₄ _
        have hw₄ := (hw₂.trans hw₃).trans hw₄
        rw [andThen_ok, wpE_bind]
        refine wpE_db_answering (by trivial) ?_ ?_
        · intro latestRanges w₅ hw₅ _
          have hw₅ := hw₄.trans hw₅
          rw [andThen_ok]
          split
          · exact ⟨hw₁.trans hw₅, fun _ => hkeep w₅ hw₅⟩
          · refine wpE_post (ih hrest) fun r w' hr => ?_
            exact ⟨(hw₁.trans hw₅).trans hr.1, fun _ => hkeep w' (hw₅.trans hr.1)⟩
        · intro e w₅ hw₅
          refine ⟨hw₁.trans (hw₄.trans hw₅), fun h => ?_⟩
          cases h
      · intro e w₂ hw₂
        refine ⟨hw₁.trans hw₂, fun h => ?_⟩
        cases h

/-- A wallet that suggests what is missing, and nothing below `upper`, has scanned
    everything there. -/
theorem scannedWhere_of_selectHistoricRange_none {d : WalletDb} {suggested : List ScanRange}
    {tip upper : ℕ} (hsuggests : SuggestsMissing d tip suggested) (hupper : upper ≤ tip)
    (hselect : selectHistoricRange U suggested upper = none) : ScannedWhere (· < upper) d := by
  intro birthday hb h hle hlt
  -- a missing height below the boundary would be in a suggestion
  by_contra hsome
  have hnone : d.blocks h = none := by simpa using hsome
  obtain ⟨r, hr, hstart, hstop⟩ :=
    (hsuggests.heights h).mpr ⟨⟨birthday, hb, hle⟩, by omega, hnone⟩
  unfold selectHistoricRange at hselect
  rw [List.head?_eq_none_iff, List.filterMap_eq_nil_iff] at hselect
  have hdropped := hselect r hr
  rw [U.truncateEnd_eq, if_pos (by omega)] at hdropped
  cases hdropped

/-- The batches of a selected range begin with a height that is missing, and none of
    them reaches above the tip. -/
theorem batches_missing {batchSize : ℕ} (hbatch : 1 ≤ batchSize) {d : WalletDb}
    {suggested : List ScanRange} {tip upper : ℕ} (hsuggests : SuggestsMissing d tip suggested)
    (hupper : upper ≤ tip) {range : ScanRange}
    (hselect : selectHistoricRange U suggested upper = some range) :
    (∀ b ∈ batches U batchSize range, b.blockRange.start < b.blockRange.stop ∧
        b.blockRange.stop ≤ tip + 1) ∧
      ∃ b, (batches U batchSize range).head? = some b ∧ b.blockRange.start ∈ missing d tip := by
  obtain ⟨s, hs, hlt, hrange⟩ := selectHistoricRange_some hselect
  have hne : range.blockRange.start < range.blockRange.stop := by
    rw [hrange]
    exact hlt
  obtain ⟨hcut, last, hlast, -⟩ := batches_cut (U := U) hbatch hne
  constructor
  · intro b hb
    have hsize := (hcut.size b hb).1
    have hin := (hcut.inside b hb).2
    unfold blockCount at hsize
    rw [hrange] at hin
    simp only at hin
    omega
  · cases hbatches : batches U batchSize range with
    | nil =>
      rw [hbatches] at hlast
      cases hlast
    | cons b rest =>
      have hfirst : b.blockRange.start = s.blockRange.start := by
        rw [hcut.starts b (by rw [hbatches]; rfl), hrange]
      refine ⟨b, rfl, ?_⟩
      rw [hfirst]
      refine mem_missing.mpr ((hsuggests.heights _).mp ⟨s, hs, le_rfl, ?_⟩)
      omega

/-- What a turn of `recover_history` does: unless it fails, it leaves fewer
    heights missing, or none below the boundary was. -/
theorem wpE_recoverTurn_progress {batchSize : ℕ} (hbatch : 1 ≤ batchSize)
    (hshutdown : ∀ h, shutdownHeight = some h → view.tip.height < h)
    (hboundary : w.boundary ≤ view.tip.height) :
    wpE ((contract T).restrict (Answering view)) (Advances T view) (fun _ _ => True)
      (fun r w' => Advances T view w w' ∧ ∀ flow, r = .ok flow → flow = .Continue () ∧
        ((missing w'.db view.tip.height).card < (missing w.db view.tip.height).card ∨
          ScannedWhere (· < w.boundary) w'.db))
      (recoverTurn U batchSize shutdownHeight ()) w := by
  unfold recoverTurn
  rw [wpE_bind]
  refine wpE_perform_answering (Or.inr (Or.inl rfl)) ?_
  intro upperBoundary w₀ w₁ hw₀ hw₁ hload
  obtain ⟨rfl, rfl⟩ := hload
  have hupper : w₁.boundary ≤ view.tip.height := hw₀.belowTip hboundary
  rw [andThen_ok, wpE_bind]
  refine wpE_db_answering (by trivial) ?_ ?_
  · intro suggested w₂ hw₂ hanswer
    have hsuggests : SuggestsMissing w₂.db view.tip.height suggested := hanswer.2
    have hw₂ := hw₀.trans hw₂
    rw [andThen_ok]
    cases hselect : selectHistoricRange U suggested w₁.boundary with
    | none =>
      simp only
      rw [wpE_bind]
      refine wpE_perform_answering (Or.inl trivial) ?_
      intro _ w₃ w₄ hw₃ hw₄ _
      have hlater := hw₃.trans hw₄
      refine ⟨hw₂.trans hlater, ?_⟩
      rintro flow ⟨⟩
      refine ⟨rfl, Or.inr (ScannedWhere.advance ?_ hlater)⟩
      intro birthday hb h hle hlt
      exact scannedWhere_of_selectHistoricRange_none U hsuggests hupper hselect birthday hb h hle
        (lt_of_lt_of_le hlt hw₀.boundary)
    | some range =>
      obtain ⟨hbs, b, hhead, hin⟩ := batches_missing U hbatch hsuggests hupper hselect
      simp only
      rw [wpE_bind]
      refine wpE_post (wpE_recoverBatches_stores U hbs hshutdown) fun r w₃ hr => ?_
      obtain ⟨hw₃, hstored⟩ := hr
      cases r with
      | error e =>
        refine ⟨hw₂.trans hw₃, fun flow h => ?_⟩
        cases h
      | ok u =>
        refine ⟨hw₂.trans hw₃, ?_⟩
        rintro flow ⟨⟩
        refine ⟨rfl, Or.inl ?_⟩
        -- the first height of the suggestion was missing and has been stored
        have hsome := hstored rfl b hhead _ le_rfl (hbs b (List.mem_of_mem_head? hhead)).1
        exact (card_missing_lt hw₃.db hw₃.birthday hin hsome).trans_le
          (hw₂.card_missing_le view.tip.height)
  · intro e w₂ hw₂
    refine ⟨hw₀.trans hw₂, fun flow h => ?_⟩
    cases h

/-- The loop of `recover_history`: after `n` turns there are at least `n` missing
    heights less, or none below the boundary. -/
theorem wpE_recoverTurns_progress {batchSize : ℕ} (hbatch : 1 ≤ batchSize)
    (hshutdown : ∀ h, shutdownHeight = some h → view.tip.height < h) (n : ℕ)
    (hboundary : w.boundary ≤ view.tip.height) :
    wpE ((contract T).restrict (Answering view)) (Advances T view) (fun _ _ => True)
      (fun r w' => Advances T view w w' ∧ ∀ flow, r = .ok flow →
        (missing w'.db view.tip.height).card + n ≤ (missing w.db view.tip.height).card ∨
          ScannedWhere (· < w.boundary) w'.db)
      (turns (recoverTurn U batchSize shutdownHeight) n ()) w := by
  induction n generalizing w with
  | zero => exact ⟨Advances.refl w, fun flow _ => Or.inl le_rfl⟩
  | succ n ih =>
    rw [turns, wpE_bind]
    refine wpE_post (wpE_recoverTurn_progress U hbatch hshutdown hboundary) fun r w₁ hr => ?_
    obtain ⟨hw₁, hturn⟩ := hr
    cases r with
    | error e =>
      refine ⟨hw₁, fun flow h => ?_⟩
      cases h
    | ok flow =>
      obtain ⟨rfl, hfewer⟩ := hturn flow rfl
      rw [andThen_ok]
      refine wpE_post (ih (hw₁.belowTip hboundary)) fun r w₂ hr => ?_
      obtain ⟨hw₂, hturns⟩ := hr
      refine ⟨hw₁.trans hw₂, fun flow hflow => ?_⟩
      rcases hfewer with hfewer | hdone
      · rcases hturns flow hflow with hrest | hrest
        · left
          omega
        · right
          intro birthday hb h hle hlt
          exact hrest birthday hb h hle (lt_of_lt_of_le hlt hw₁.boundary)
      · exact Or.inr (hdone.advance hw₂)

/-- `recover_history` among tasks that advance: once it has taken more turns than
    there were heights missing, none is missing below the boundary. -/
theorem run_recoverHistory_completes {batchSize m : ℕ} (hbatch : 1 ≤ batchSize)
    (hshutdown : ∀ h, shutdownHeight = some h → view.tip.height < h)
    (hboundary : w.boundary ≤ view.tip.height)
    (hm : (missing w.db view.tip.height).card < m) {w' : SyncWorld} {τ : List (Event syncSig)}
    {flow : ControlFlow Unit Unit}
    (h : Run (((contract T).restrict (Answering view)).under (Advances T view))
      (recoverHistory U batchSize shutdownHeight m).run w τ (.ok flow) w') :
    Advances T view w w' ∧ ScannedWhere (· < w.boundary) w'.db := by
  have hwp : wpE ((contract T).restrict (Answering view)) (Advances T view) (fun _ _ => True)
      (fun r w' => Advances T view w w' ∧ ∀ flow, r = .ok flow →
        ScannedWhere (· < w.boundary) w'.db)
      (recoverHistory U batchSize shutdownHeight m) w := by
    unfold recoverHistory
    rw [wpE_bind]
    refine wpE_perform_answering (Or.inl trivial) ?_
    intro _ w₁ w₂ hw₁ hw₂ _
    have hw₂ := hw₁.trans hw₂
    refine wpE_post (wpE_recoverTurns_progress U hbatch hshutdown m (hw₂.belowTip hboundary))
      fun r w₃ hr => ?_
    refine ⟨hw₂.trans hr.1, fun flow hflow => ?_⟩
    have hle := hw₂.card_missing_le view.tip.height
    rcases hr.2 flow hflow with hcard | hdone
    · omega
    · intro birthday hb h hge hlt
      exact hdone birthday hb h hge (lt_of_lt_of_le hlt hw₂.boundary)
  obtain ⟨hadvances, hdone⟩ := wp_run_under hwp h
  exact ⟨hadvances, hdone flow rfl⟩

end recovery

/-! ## From start to finish -/

/-- What `WalletSync::spawn` hands to the tasks it starts. -/
def startTasks (w : SyncWorld) (startingTip : ChainBlock) (startingBoundary : ℕ) : SyncWorld :=
  { w with prevTip := startingTip, boundary := startingBoundary }

/-- Against a backend that stays at one view, a wallet that does not shut down
    below its tip catches up. `initialize` returns within as many turns as heights
    are missing, and then every height from the boundary up to the tip has been
    scanned; and once `recover_history` has taken more turns than heights
    are missing then, whatever other tasks add or raise meanwhile, every height
    from the birthday up to the tip has been scanned. What the wallet had recorded
    is still there, and the rest are the blocks of the view. -/
theorem wallet_catches_up (T : BlockTree BlockHash) (U : Upstream) (view : ChainView)
    (batchSize : ℕ) (shutdownHeight : Option ℕ) (n : ℕ) (w w₁ : SyncWorld)
    (τ₁ : List (Event syncSig)) (flow₁ : ControlFlow (ChainBlock × ℕ) Unit)
    (hbatch : 1 ≤ batchSize) (hshutdown : ∀ h, shutdownHeight = some h → view.tip.height < h)
    (hn : (missing w.db view.tip.height).card < n)
    (hinit : Run ((contract T).restrict (Answering view)) (initializeWallet U shutdownHeight n).run
      w τ₁ (.ok flow₁) w₁) :
    flow₁ = .Break (view.tip, view.tip.height - 100) ∧ Extends T [view] w.db w₁.db ∧
    ScannedWhere (fun h => view.tip.height - 100 ≤ h ∧ h ≤ view.tip.height) w₁.db ∧
    ∀ m τ₂ flow₂ w₂, (missing w₁.db view.tip.height).card < m →
      Run (((contract T).restrict (Answering view)).under (Advances T view))
        (recoverHistory U batchSize shutdownHeight m).run
        (startTasks w₁ view.tip (view.tip.height - 100)) τ₂ (.ok flow₂) w₂ →
      Extends T [view] w.db w₂.db ∧
        ∀ birthday, w.db.birthday = some birthday → ∀ h, birthday ≤ h → h ≤ view.tip.height →
          ∃ hash, w₂.db.blocks h = some hash ∧
            (w.db.blocks h = some hash ∨ hash = view.hashAt T h) := by
  obtain ⟨rfl, hext₁, habove⟩ := run_initializeWallet_settles hshutdown hn hinit
  have hbirthday : w₁.db.birthday = w.db.birthday :=
    reaches_birthday (hinit.mono fun _ _ _ _ hC => hC.1)
  refine ⟨rfl, hext₁, habove, fun m τ₂ flow₂ w₂ hm hrecover => ?_⟩
  obtain ⟨hadvances, hbelow⟩ := run_recoverHistory_completes U hbatch hshutdown
    (w := startTasks w₁ view.tip (view.tip.height - 100)) (Nat.sub_le _ _) hm hrecover
  have hext₂ : Extends T [view] w₁.db w₂.db := hadvances.db
  have hext := hext₁.trans_one hext₂
  refine ⟨hext, fun birthday hb h hle htop => ?_⟩
  have hsome : (w₂.db.blocks h).isSome := by
    rw [← hbirthday] at hb
    by_cases hh : h < view.tip.height - 100
    · exact hbelow birthday (hadvances.birthday.trans hb) h hle hh
    · exact hext₂.isSome (habove birthday hb h hle ⟨by omega, htop⟩)
  obtain ⟨hash, hhash⟩ := Option.isSome_iff_exists.mp hsome
  refine ⟨hash, hhash, ?_⟩
  rcases hext.adds h hash hhash with hold | ⟨v, hv, -, rfl⟩
  · exact Or.inl hold
  · rw [List.mem_singleton.mp hv]
    exact Or.inr rfl

/-! ## A wallet with two heights missing -/

theorem suggestsMissing_queueOf (d : WalletDb) (tip : ℕ) :
    SuggestsMissing d tip (queueOf d tip) := by
  have hmem : ∀ r, r ∈ queueOf d tip ↔
      ∃ h, h ∈ missing d tip ∧ (⟨⟨h, h + 1⟩, .Historic⟩ : ScanRange) = r := by
    intro r
    simp [queueOf, missing, unscanned, and_comm, and_assoc]
  constructor
  · intro h
    rw [← mem_missing]
    constructor
    · rintro ⟨r, hr, hle, hlt⟩
      obtain ⟨k, hk, rfl⟩ := (hmem r).mp hr
      obtain rfl : k = h := by
        simp only at hle hlt
        omega
      exact hk
    · intro hh
      exact ⟨_, (hmem _).mpr ⟨h, hh, rfl⟩, le_rfl, Nat.lt_succ_self h⟩
  · intro r hr
    obtain ⟨k, -, rfl⟩ := (hmem r).mp hr
    exact le_rfl

theorem Script.queue_keeps (s : Script) (tip : ℕ) :
    Handler.Keeps (s.queue tip) ((contract s.tree).restrict (QueueMissing tip)) Replay.world := by
  intro o σ r σ' h
  by_cases ho : o = .db .suggestScanRanges
  · subst ho
    cases h
    exact ⟨⟨σ.world.db, rfl, rfl⟩, suggestsMissing_queueOf _ _⟩
  · refine ⟨s.replay_keeps o σ r σ' (Script.queue_replays h ho), ?_⟩
    unfold QueueMissing
    split
    · exact absurd rfl ho
    · trivial

theorem steadyBackend_keeps (view : ChainView) :
    Handler.Keeps (steadyBackend view) ((contract (forkTree 6)).restrict (Answering view))
      Replay.world := by
  have hfixed : ∀ o σ r, servesView view o σ r = true → FixedView view o σ.world r :=
    fun o σ r hserves => fixedView_of_servesView hserves
  have h := ((Script.quiet (forkTree 6)).queue_keeps view.tip.height).checked hfixed
  intro o σ r σ' hs
  obtain ⟨⟨hC, hQ⟩, hF⟩ := h o σ r σ' hs
  exact ⟨hC, hF, hQ⟩

/-- A wallet born at height 1 that has scanned the heights 2 to 101. -/
def twoMissing : SyncWorld where
  db := ⟨fun h => if 2 ≤ h ∧ h ≤ 101 then some (forkBlock 0 h) else none, [], some 1⟩
  signals := .initial
  prevTip := ⟨0, forkBlock 0 0⟩
  boundary := 0

/-- The wallet after `initialize`. -/
def afterInitialize : Replay :=
  (exec (steadyBackend viewAt102) 60 (initializeWallet .watchNothing none 3).run
    ⟨twoMissing, List.replicate 3 (.ok viewAt102)⟩).2.2

theorem run_initialize_twoMissing :
    ∃ τ, Run ((contract (forkTree 6)).restrict (Answering viewAt102))
      (initializeWallet .watchNothing none 3).run twoMissing τ
      (.ok (.Break (viewAt102.tip, 2))) afterInitialize.world := by
  have hrun := exec_run (steadyBackend_keeps viewAt102) (n := 60)
    (p := (initializeWallet .watchNothing none 3).run)
    (s := ⟨twoMissing, List.replicate 3 (.ok viewAt102)⟩)
    (a := .ok (.Break (viewAt102.tip, 2))) (by decide +kernel)
  unfold afterInitialize
  exact ⟨_, hrun⟩

/-- Where `recover_history` starts. -/
def startTwoMissing : SyncWorld :=
  startTasks afterInitialize.world viewAt102.tip (viewAt102.tip.height - 100)

/-- Height 102 is scanned by `initialize`, and height 1 by `recover_history`. -/
theorem wallet_catches_up_twoMissing :
    ∃ τ₁ τ₂ w₂, Run ((contract (forkTree 6)).restrict (Answering viewAt102))
        (initializeWallet .watchNothing none 3).run twoMissing τ₁
        (.ok (.Break (viewAt102.tip, 2))) afterInitialize.world ∧
      Run (((contract (forkTree 6)).restrict (Answering viewAt102)).under
          (Advances (forkTree 6) viewAt102))
        (recoverHistory .watchNothing 10 none 2).run startTwoMissing τ₂
        (.ok (.Continue ())) w₂ ∧
      (∀ h, 2 ≤ h → h ≤ 102 → (afterInitialize.world.db.blocks h).isSome) ∧
      ∀ h, 1 ≤ h → h ≤ 102 → (w₂.db.blocks h).isSome := by
  obtain ⟨τ₁, hinit⟩ := run_initialize_twoMissing
  have hrecover := exec_run (steadyBackend_keeps viewAt102) (n := 60)
    (p := (recoverHistory .watchNothing 10 none 2).run)
    (s := ⟨startTwoMissing, List.replicate 2 (.ok viewAt102)⟩)
    (a := .ok (.Continue ())) (by decide +kernel)
  have hunder := hrecover.mono (D := ((contract (forkTree 6)).restrict (Answering viewAt102)).under
    (Advances (forkTree 6) viewAt102)) fun o w r w' hC => ⟨w, Advances.refl w, hC⟩
  obtain ⟨-, -, habove, hall⟩ := wallet_catches_up (forkTree 6) .watchNothing viewAt102 10 none 3 twoMissing
    afterInitialize.world _ _ (by decide) (by simp) (by decide +kernel) hinit
  have hcard : (missing afterInitialize.world.db viewAt102.tip.height).card < 2 := by
    decide +kernel
  obtain ⟨-, hscanned⟩ := hall 2 _ _ _ hcard hunder
  have hbirthday : afterInitialize.world.db.birthday = some 1 := by decide +kernel
  refine ⟨_, _, _, hinit, hunder, fun h hle htop => ?_, fun h hle htop => ?_⟩
  · exact habove 1 hbirthday h (by omega) ⟨hle, htop⟩
  obtain ⟨hash, hhash, -⟩ := hscanned 1 rfl h hle htop
  rw [hhash]
  rfl

end Zallet.Sync
