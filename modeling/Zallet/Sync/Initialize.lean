import Zallet.Sync.Replay
import Zallet.Sync.Steps

/-!
# Preparing the wallet for syncing

`initialize` (`sync.rs`, lines 256–442). Each turn of its loop captures a
snapshot and scans one of the ranges the wallet suggests; the loop ends when
nothing is left to scan, or at the shutdown height.

A turn only adds blocks of its snapshot: what the wallet recorded before
stays (`Extends`). So a hash that the wallet recorded on an abandoned fork is
found only if a suggested range covers it, and then `initialize` fails.

* `run_initializeWallet`: the last snapshot, and what the wallet records.
* `initializeWallet_startingPoint`: what `steady_state` may rely on.
-/

namespace Zallet.Sync

open Zallet.Effect Zallet.Common Zallet.Chain Zallet.Wallet

section programs

variable (U : Upstream)

/-- `select_initial_scan_range` (lines 274–292). -/
def selectInitialScanRange (suggested : List ScanRange) (currentTip startingBoundary : ℕ) :
    Option ScanRange :=
  (suggested.filterMap fun r =>
    (U.truncateEnd r (currentTip + 1)).bind fun r =>
      if r.priority = .Verify then some r
      else if ScanPriority.Historic.rank ≤ r.priority.rank then U.truncateStart r startingBoundary
      else none).head?

/-- The scan of the tip block (lines 357–378). -/
def scanTip (view : ChainView) (height : ℕ) (shutdownHeight : Option ℕ) :
    SyncM (ControlFlow ℕ Unit) := do
  let block ← chain (.getBlock view height)
  let tipBlock ← okOr (.Chain (.Backend
    s!"chain view did not return its own tip block at height {height}")) block
  scanBlock U view tipBlock shutdownHeight

/-- `current_tip.height() > 0 && block_metadata(..)?.is_none()`. -/
def tipUnrecorded (height : ℕ) : SyncM Bool :=
  if 0 < height then do
    let metadata ← db (.blockMetadata height)
    pure metadata.isNone
  else pure false

/-- The arm without a scan range (lines 354–395). A transient failure is
    swallowed. -/
def bestEffortTipScan (view : ChainView) (height : ℕ) (shutdownHeight : Option ℕ) :
    SyncM Unit := do
  if ← tipUnrecorded height then
    match ← attempt (scanTip U view height shutdownHeight) with
    | .ok _ => pure ()
    | .error e => if isRetryable e then pure () else throw e
  else pure ()

/-- The scan of a range, and the `match` on its outcome (lines 400–430). -/
def scanInitialRange (view : ChainView) (scanRange : ScanRange) (shutdownHeight : Option ℕ) :
    SyncM (ControlFlow Unit Unit) := do
  match ← attempt (scanBlocks U view scanRange shutdownHeight) with
  | .ok (.Break _) => pure (.Break ())
  | .ok (.Continue ()) => pure (.Continue ())
  | .error error =>
    if isRetryable error then do
      perform (.sleep reorgRetryBackoff)
      pure (.Continue ())
    else throw error

/-- The turn of the loop once a snapshot has been captured
    (lines 323–430). -/
def initializeOn (view : ChainView) (shutdownHeight : Option ℕ) :
    SyncM (ControlFlow (ChainBlock × ℕ) Unit) := do
  let currentTip ← chain (.tip view)
  db (.updateChainTip currentTip.height)
  perform (.status (.setTip currentTip.height))
  let startingBoundary := updateBoundary 0 currentTip.height
  let suggested ← db .suggestScanRanges
  match selectInitialScanRange U suggested currentTip.height startingBoundary with
  | none => do
    bestEffortTipScan U view currentTip.height shutdownHeight
    pure (.Break (currentTip, startingBoundary))
  | some scanRange => do
    match ← scanInitialRange U view scanRange shutdownHeight with
    | .Break () => pure (.Break (currentTip, startingBoundary))
    | .Continue () => pure (.Continue ())

/-- One turn of the loop of `initialize`. -/
def initializeTurn (shutdownHeight : Option ℕ) (_ : Unit) :
    SyncM (ControlFlow (ChainBlock × ℕ) Unit) := do
  let view ← chain .snapshot
  initializeOn U view shutdownHeight

/-- `initialize` (lines 298–442), for at most `n` turns of its loop: `Break`
    is the value it returns. -/
def initializeWallet (shutdownHeight : Option ℕ) (n : ℕ) :
    SyncM (ControlFlow (ChainBlock × ℕ) Unit) := do
  updateSubtreeRoots
  match ← turns (initializeTurn U shutdownHeight) n () with
  | .Continue () => pure (.Continue ())
  | .Break result => do
    let fullyScanned ← db .blockFullyScanned
    perform (.status (.setFullySynced (fullyScanned.map (·.blockHeight))))
    pure (.Break result)

end programs

/-! ## What a turn records -/

/-- `d'` records all that `d` does, and otherwise only blocks of `views`. -/
structure Extends (T : BlockTree BlockHash) (views : List ChainView) (d d' : WalletDb) : Prop where
  keeps : ∀ h hash, d.blocks h = some hash → d'.blocks h = some hash
  adds : ∀ h hash, d'.blocks h = some hash →
    d.blocks h = some hash ∨ ∃ v ∈ views, h ≤ v.tip.height ∧ hash = v.hashAt T h

section extends_

variable {T : BlockTree BlockHash} {views views' : List ChainView} {d d₁ d₂ : WalletDb}

theorem Extends.refl (views : List ChainView) (d : WalletDb) : Extends T views d d :=
  ⟨fun _ _ h => h, fun _ _ h => Or.inl h⟩

theorem Extends.trans (h₁ : Extends T views d d₁) (h₂ : Extends T views' d₁ d₂) :
    Extends T (views ++ views') d d₂ := by
  refine ⟨fun h hash hr => h₂.keeps h hash (h₁.keeps h hash hr), fun h hash hr => ?_⟩
  rcases h₂.adds h hash hr with hr | ⟨v, hv, hv'⟩
  · rcases h₁.adds h hash hr with hr | ⟨v, hv, hv'⟩
    · exact Or.inl hr
    · exact Or.inr ⟨v, List.mem_append_left _ hv, hv'⟩
  · exact Or.inr ⟨v, List.mem_append_right _ hv, hv'⟩

theorem Extends.of_eq (views : List ChainView) (h : d₁ = d) : Extends T views d d₁ := by
  rw [h]
  exact Extends.refl views d

/-- Storing blocks of a view extends the wallet by them. -/
theorem Extends.of_putBlocks {view : ChainView} {start stop : ℕ} {scanned : List ScannedBlock}
    {c : List ℕ} (hstop : stop ≤ view.tip.height + 1)
    (hids : scanned.map (fun s => (s.height, s.hash)) = view.ids T start stop)
    (hconflict : ∀ b ∈ scanned, ¬ d.Conflicts b) :
    Extends T [view] d { d.put scanned with checkpoints := c } := by
  refine ⟨fun h hash hr => WalletDb.put_blocks_keep hconflict hr, fun h hash hr => ?_⟩
  rcases WalletDb.put_blocks_some hr with hr | ⟨b, hb, rfl, rfl⟩
  · exact Or.inl hr
  · have hmem : (b.height, b.hash) ∈ view.ids T start stop := by
      rw [← hids]
      exact List.mem_map.mpr ⟨b, hb, rfl⟩
    obtain ⟨-, hlt, hhash⟩ := ChainView.mem_ids.mp hmem
    exact Or.inr ⟨view, List.mem_singleton_self view, by omega, hhash⟩

end extends_

/-- The shutdown height has been reached. -/
def Reached (shutdownHeight : Option ℕ) (height : ℕ) : Prop :=
  ∃ h, shutdownHeight = some h ∧ h ≤ height

/-- A selected range ends at or below the tip. -/
theorem selectInitialScanRange_spec {U : Upstream} {suggested : List ScanRange}
    {currentTip startingBoundary : ℕ} {r : ScanRange}
    (h : selectInitialScanRange U suggested currentTip startingBoundary = some r) :
    r.blockRange.start < r.blockRange.stop ∧ r.blockRange.stop ≤ currentTip + 1 := by
  unfold selectInitialScanRange at h
  obtain ⟨r₀, -, hr⟩ := List.mem_filterMap.mp (List.mem_of_mem_head? h)
  obtain ⟨r₁, h₁, hr⟩ := Option.bind_eq_some_iff.mp hr
  rw [U.truncateEnd_eq, Option.ite_none_right_eq_some] at h₁
  obtain ⟨hlt, h₁⟩ := h₁
  obtain rfl := Option.some.inj h₁
  split at hr
  · obtain rfl := Option.some.inj hr
    exact ⟨hlt, by simp⟩
  · split at hr
    · rw [U.truncateStart_eq, Option.ite_none_right_eq_some] at hr
      obtain ⟨hlt', hr⟩ := hr
      obtain rfl := Option.some.inj hr
      exact ⟨hlt', by simp⟩
    · cases hr

section specs

variable {T : BlockTree BlockHash} (U : Upstream) {view : ChainView} {shutdownHeight : Option ℕ}
  {w : SyncWorld}

/-- A task that runs alone reads the one database. -/
theorem reading_db (d : WalletDb) : Reading Eq (fun _ _ => True) fun w => w.db = d where
  stable _ _ h₁ h₂ := by rw [← h₂, h₁]
  allowed _ _ _ _ := trivial

/-- The scan of a range adds blocks of the view, and stops early only at the
    shutdown height. -/
theorem wpE_scanInitialRange {scanRange : ScanRange}
    (hrange : scanRange.blockRange.start < scanRange.blockRange.stop)
    (hstop : scanRange.blockRange.stop ≤ view.tip.height + 1) :
    wpE (contract T) Eq (fun _ _ => True)
      (fun r w' => Extends T [view] w.db w'.db ∧
        (r = .ok (.Break ()) → Reached shutdownHeight view.tip.height))
      (scanInitialRange U view scanRange shutdownHeight) w := by
  unfold scanInitialRange
  rw [wpE_bind, wpE_attempt]
  have hclamp := clampToBoundary_spec scanRange.blockRange shutdownHeight
  refine wpE_scanBlocks U (reading_db w.db) view scanRange shutdownHeight rfl ?_ ?_ ?_ ?_
  · intro stop hc
    rw [hc] at hclamp
    refine ⟨Extends.refl _ _, fun _ => ?_⟩
    rcases hclamp with ⟨hle, heq | hs⟩
    · omega
    · exact ⟨stop, hs, by omega⟩
  · intro w' hw'
    exact ⟨Extends.of_eq _ hw', fun h => by cases h⟩
  · intro boundary fromState scanned w' hw' hc hids
    refine ⟨trivial, ?_⟩
    rintro r w'' ⟨d, ha, rfl⟩
    rw [hw'] at ha
    cases r with
    | ok a =>
      obtain ⟨hconflict, checkpoints, rfl⟩ := ha
      have hext := Extends.of_putBlocks (c := checkpoints) (Nat.min_le_right _ _) hids hconflict
      cases boundary with
      | none => exact ⟨hext, fun h => by cases h⟩
      | some stop =>
        rw [hc] at hclamp
        exact ⟨hext, fun _ => ⟨stop, hclamp.1, by omega⟩⟩
    | error e =>
      obtain ⟨-, rfl⟩ := ha
      exact ⟨Extends.refl _ _, fun h => by cases h⟩
  · intro e w' hw' _
    rw [andThen_ok]
    simp only
    split
    · rw [wpE_bind]
      refine wpE_signal (o := .sleep _) trivial trivial fun _ w'' hd _ => ?_
      exact ⟨Extends.of_eq _ (hd.trans hw'), fun h => by cases h⟩
    · exact ⟨Extends.of_eq _ hw', fun h => by cases h⟩

/-- The scan of the tip block adds it, or stops at the shutdown height. -/
theorem wpE_scanTip :
    wpE (contract T) Eq (fun _ _ => True)
      (fun r w' => Extends T [view] w.db w'.db ∧ ∀ flow, r = .ok flow →
        (w'.db.blocks view.tip.height).isSome ∨ Reached shutdownHeight view.tip.height)
      (scanTip U view view.tip.height shutdownHeight) w := by
  unfold scanTip
  rw [wpE_bind]
  refine wpE_chain_alone trivial ?_ ?_
  · intro block hblock
    rw [andThen_ok, wpE_bind, wpE_okOr]
    refine ⟨fun tipBlock htip => ?_, fun _ => ⟨Extends.refl _ _, fun _ h => by cases h⟩⟩
    rw [htip] at hblock
    obtain ⟨-, hheight, hhash⟩ := hblock
    rw [andThen_ok]
    refine wpE_scanBlock U (reading_db w.db) view tipBlock shutdownHeight rfl ?_ ?_ ?_
    · intro h hs hle
      rw [hheight] at hle
      exact ⟨Extends.refl _ _, fun _ _ => Or.inr ⟨h, hs, hle⟩⟩
    · intro fromState scanned w' hw' _ hsh hshash
      refine ⟨trivial, ?_⟩
      rintro r w'' ⟨d, ha, rfl⟩
      rw [hw'] at ha
      cases r with
      | ok a =>
        have hids : [scanned].map (fun s => (s.height, s.hash)) =
            view.ids T view.tip.height (view.tip.height + 1) := by
          rw [List.map_singleton, hsh, hshash, hheight, hhash, ChainView.ids]
          simp
        obtain ⟨hconflict, checkpoints, rfl⟩ := ha
        refine ⟨Extends.of_putBlocks le_rfl hids hconflict, fun _ _ => Or.inl ?_⟩
        show ((w.db.put [scanned]).blocks view.tip.height).isSome
        rw [WalletDb.put_singleton_blocks, if_pos (by rw [hsh, hheight])]
        rfl
      | error e =>
        obtain ⟨-, rfl⟩ := ha
        exact ⟨Extends.refl _ _, fun _ h => by cases h⟩
    · intro e w' hw' _
      exact ⟨Extends.of_eq _ hw', fun _ h => by cases h⟩
  · intro e
    exact ⟨Extends.refl _ _, fun _ h => by cases h⟩

theorem wpE_tipUnrecorded (height : ℕ) :
    wpE (contract T) Eq (fun _ _ => True)
      (fun r w' => w'.db = w.db ∧
        (r = .ok false → height = 0 ∨ (w'.db.blocks height).isSome))
      (tipUnrecorded height) w := by
  unfold tipUnrecorded
  rw [wpE_ite]
  split
  · rw [wpE_bind]
    refine wpE_db_alone (by trivial) ?_ fun e _ => ⟨rfl, fun h => by cases h⟩
    rintro metadata db' ⟨hm, rfl⟩
    refine ⟨rfl, fun h => Or.inr ?_⟩
    cases metadata with
    | none => cases h
    | some m =>
      show (w.db.blocks height).isSome
      rw [hm.2]
      rfl
  · rename_i h
    exact ⟨rfl, fun _ => Or.inl (by omega)⟩

/-- After the best-effort scan something is recorded at the tip's height,
    except at genesis, at the shutdown height, or if the view went stale. -/
theorem run_bestEffortTipScan {τ : List (Event syncSig)} {w' : SyncWorld}
    (h : Run (contract T) (bestEffortTipScan U view view.tip.height shutdownHeight).run w τ
      (.ok ()) w') :
    Extends T [view] w.db w'.db ∧
      ((w'.db.blocks view.tip.height).isSome ∨ view.tip.height = 0 ∨
        Reached shutdownHeight view.tip.height ∨ ∃ ev ∈ τ, ev.op.Stale ev.ret) := by
  unfold bestEffortTipScan at h
  obtain ⟨τ₁, unrecorded, w₁, τ₂, h₁, h₂, rfl⟩ := run_bind_ok h
  obtain ⟨hd, hrec⟩ := wp_run (wpE_tipUnrecorded _) h₁
  cases unrecorded with
  | false =>
    obtain ⟨rfl, -, rfl⟩ := run_pure.mp h₂
    refine ⟨Extends.of_eq _ hd, ?_⟩
    rcases hrec rfl with hz | hs
    · exact Or.inr (Or.inl hz)
    · exact Or.inl hs
  | true =>
    obtain ⟨τ₃, outcome, w₂, τ₄, h₃, h₄, rfl⟩ := run_bind_ok h₂
    obtain ⟨_, heq, h₃⟩ := run_attempt.mp h₃
    cases heq
    obtain ⟨hext, hok⟩ := wp_run (wpE_scanTip U) h₃
    rw [hd] at hext
    cases outcome with
    | ok flow =>
      obtain ⟨rfl, -, rfl⟩ := run_pure.mp h₄
      refine ⟨hext, ?_⟩
      rcases hok flow rfl with hs | hr
      · exact Or.inl hs
      · exact Or.inr (Or.inr (Or.inl hr))
    | error e =>
      -- the scan ended with a retryable error, so one of its reads was stale
      have hw : isRetryable e = true ∧ w' = w₂ := by
        by_cases he : isRetryable e = true
        · simp only [he, if_true] at h₄
          exact ⟨he, (run_pure.mp h₄).2.2⟩
        · simp only [he] at h₄
          cases (run_pure.mp h₄).2.1
      obtain ⟨he, rfl⟩ := hw
      refine ⟨hext, Or.inr (Or.inr (Or.inr ?_))⟩
      by_contra hstale
      push Not at hstale
      have hwithin : Within staleOnly (scanTip U view view.tip.height shutdownHeight) := by
        unfold scanTip
        refine (scanning_staleOnly.chain (by trivial)).bind fun block => ?_
        refine (within_okOr (by rfl) block).bind fun tipBlock => ?_
        exact within_scanBlock U scanning_staleOnly view tipBlock shutdownHeight
      have hfalse : isRetryable e = false :=
        (run_within hwithin h₃ fun ev hev => hstale ev (by simp [hev])).2 e rfl
      rw [he] at hfalse
      cases hfalse

end specs

/-! ## Whole runs -/

/-- The snapshots captured in a trace, in order. -/
def snapshots (τ : List (Event syncSig)) : List ChainView :=
  τ.filterMap fun ev =>
    match ev with
    | ⟨.chain .snapshot, .ok view⟩ => some view
    | _ => none

theorem snapshots_append (τ₁ τ₂ : List (Event syncSig)) :
    snapshots (τ₁ ++ τ₂) = snapshots τ₁ ++ snapshots τ₂ := List.filterMap_append

theorem mem_snapshots {τ : List (Event syncSig)} {v : ChainView} :
    v ∈ snapshots τ ↔ ⟨.chain .snapshot, .ok v⟩ ∈ τ := by
  unfold snapshots
  rw [List.mem_filterMap]
  constructor
  · rintro ⟨ev, hev, heq⟩
    split at heq
    · cases heq
      exact hev
    · cases heq
  · intro h
    exact ⟨_, h, rfl⟩

/-- The snapshots of a run are well formed. -/
theorem snapshots_wf {T : BlockTree BlockHash} {α : Type} {p : Prog syncSig α} {a : α}
    {w w' : SyncWorld} {τ : List (Event syncSig)} (h : Run (contract T) p w τ a w') :
    ∀ v ∈ snapshots τ, v.WF T := by
  intro v hv
  obtain ⟨w₁, w₂, hC⟩ := Reaches.allowed h _ (mem_snapshots.mp hv)
  exact hC.1

/-- Programs that capture no snapshot. -/
def noSnapshot : Bounds syncSig SyncError where
  ops o := o ≠ .chain .snapshot
  answers _ _ := True
  errors _ := True

theorem scanning_noSnapshot : Scanning noSnapshot where
  reads o ho := by
    rintro rfl
    exact ho
  puts _ _ h := by cases h
  chainError _ _ _ := trivial
  streamError _ _ _ _ _ _ := trivial
  otherError _ _ := trivial

theorem snapshots_eq_nil {α : Type} {p : SyncM α} {C : Contract syncSig SyncWorld}
    {w w' : SyncWorld} {τ : List (Event syncSig)} {r : Except SyncError α}
    (hp : Within noSnapshot p) (h : Run C p.run w τ r w') : snapshots τ = [] := by
  have hops := (run_within hp h fun _ _ => trivial).1
  unfold snapshots
  rw [List.filterMap_eq_nil_iff]
  intro ev hev
  have hne := hops ev hev
  split
  · exact absurd rfl hne
  · rfl

section runs

variable {T : BlockTree BlockHash} (U : Upstream) {view : ChainView} {shutdownHeight : Option ℕ}
  {w w' : SyncWorld} {τ : List (Event syncSig)}

theorem within_initializeOn : Within noSnapshot (initializeOn U view shutdownHeight) := by
  have hB := scanning_noSnapshot
  have hperform : ∀ o, o ≠ .chain .snapshot → Within noSnapshot (perform o) := fun o ho =>
    within_perform ho
  have htip : ∀ height, Within noSnapshot (bestEffortTipScan U view height shutdownHeight) := by
    intro height
    unfold bestEffortTipScan tipUnrecorded scanTip
    refine Within.bind ?_ fun unrecorded => ?_
    · split
      · exact (hB.db (by trivial)).bind fun _ => Within.pure _
      · exact Within.pure _
    · split
      · refine Within.bind (Within.attempt ?_) fun outcome => ?_
        · refine (hB.chain (by trivial)).bind fun block => ?_
          refine (within_okOr (by trivial) block).bind fun tipBlock => ?_
          exact within_scanBlock U hB view tipBlock shutdownHeight
        · split
          · exact Within.pure _
          · split
            · exact Within.pure _
            · exact Within.throw (by trivial)
      · exact Within.pure _
  have hrange : ∀ range, Within noSnapshot (scanInitialRange U view range shutdownHeight) := by
    intro range
    unfold scanInitialRange
    refine (within_scanBlocks U hB view range shutdownHeight).attempt.bind fun outcome => ?_
    split
    · exact Within.pure _
    · exact Within.pure _
    · split
      · exact (hperform _ (by simp)).bind fun _ => Within.pure _
      · exact Within.throw (by trivial)
  unfold initializeOn
  refine (hB.chain (by trivial)).bind fun currentTip => ?_
  refine (within_db (by simp [noSnapshot]) fun _ => trivial).bind fun _ => ?_
  refine (hperform _ (by simp)).bind fun _ => ?_
  refine (hB.db (by trivial)).bind fun suggested => ?_
  split
  · exact (htip _).bind fun _ => Within.pure _
  · refine (hrange _).bind fun flow => ?_
    split
    · exact Within.pure _
    · exact Within.pure _

/-- What a turn that ends the loop has reached. -/
structure Arrived (view : ChainView) (shutdownHeight : Option ℕ) (τ : List (Event syncSig))
    (d : WalletDb) (result : ChainBlock × ℕ) : Prop where
  tip : result.1 = view.tip
  boundary : result.2 = view.tip.height - 100
  recorded : (d.blocks view.tip.height).isSome ∨ view.tip.height = 0 ∨
    Reached shutdownHeight view.tip.height ∨ ∃ ev ∈ τ, ev.op.Stale ev.ret

/-- One turn after its snapshot. -/
theorem run_initializeOn {flow : ControlFlow (ChainBlock × ℕ) Unit}
    (h : Run (contract T) (initializeOn U view shutdownHeight).run w τ (.ok flow) w') :
    Extends T [view] w.db w'.db ∧
      ∀ result, flow = .Break result → Arrived view shutdownHeight τ w'.db result := by
  have hboundary : updateBoundary 0 view.tip.height = view.tip.height - 100 := by
    unfold updateBoundary
    omega
  unfold initializeOn at h
  obtain ⟨τ₁, currentTip, w₁, τ₂, h₁, hr₁, rfl⟩ := run_bind_ok h
  obtain ⟨τ₃, _, w₂, τ₄, h₂, hr₂, rfl⟩ := run_bind_ok hr₁
  obtain ⟨τ₅, _, w₃, τ₆, h₃, hr₃, rfl⟩ := run_bind_ok hr₂
  obtain ⟨τ₇, suggested, w₄, τ₈, h₄, hr₄, rfl⟩ := run_bind_ok hr₃
  obtain ⟨-, htip, rfl⟩ := run_chain h₁
  obtain rfl : currentTip = view.tip := htip
  obtain ⟨-, d₂, hd₂, rfl⟩ := run_db h₂
  obtain ⟨-, hw₃⟩ := run_perform h₃
  obtain ⟨-, d₄, hd₄, rfl⟩ := run_db h₄
  have hd : d₄ = w₁.db := by
    rw [show d₄ = w₃.db from hd₄, (contract_signals (by trivial) hw₃).1]
    exact hd₂
  rw [hboundary] at hr₄
  split at hr₄
  · obtain ⟨τ₉, _, w₅, τ₁₀, h₅, h₆, rfl⟩ := run_bind_ok hr₄
    obtain ⟨rfl, hflow, rfl⟩ := run_pure.mp h₆
    obtain ⟨hext, hrec⟩ := run_bestEffortTipScan U h₅
    simp only [hd] at hext
    refine ⟨hext, fun result hresult => ?_⟩
    rw [Except.ok.inj hflow] at hresult
    cases hresult
    refine ⟨rfl, rfl, ?_⟩
    rcases hrec with hs | hz | hr | ⟨ev, hev, hstale⟩
    · exact Or.inl hs
    · exact Or.inr (Or.inl hz)
    · exact Or.inr (Or.inr (Or.inl hr))
    · exact Or.inr (Or.inr (Or.inr ⟨ev, by simp [hev], hstale⟩))
  · rename_i scanRange hselect
    obtain ⟨hlt, hstop⟩ := selectInitialScanRange_spec hselect
    obtain ⟨τ₉, flow', w₅, τ₁₀, h₅, h₆, rfl⟩ := run_bind_ok hr₄
    obtain ⟨hext, hbreak⟩ := wp_run (wpE_scanInitialRange U hlt hstop) h₅
    simp only [hd] at hext
    cases flow' with
    | Break b =>
      obtain ⟨rfl, hflow, rfl⟩ := run_pure.mp h₆
      refine ⟨hext, fun result hresult => ?_⟩
      rw [Except.ok.inj hflow] at hresult
      cases hresult
      exact ⟨rfl, rfl, Or.inr (Or.inr (Or.inl (hbreak rfl)))⟩
    | Continue u =>
      obtain ⟨rfl, hflow, rfl⟩ := run_pure.mp h₆
      refine ⟨hext, fun result hresult => ?_⟩
      rw [Except.ok.inj hflow] at hresult
      cases hresult

/-- What `initialize` has done when it returns `result`, `τ` being its trace:
    the tip is that of the last snapshot, and only blocks of the captured
    snapshots have been recorded. -/
def Initialized (T : BlockTree BlockHash) (shutdownHeight : Option ℕ) (τ : List (Event syncSig))
    (d d' : WalletDb) (result : ChainBlock × ℕ) : Prop :=
  ∃ view τ₁ τ₂, τ = τ₁ ++ ⟨.chain .snapshot, .ok view⟩ :: τ₂ ∧ snapshots τ₂ = [] ∧
    view.WF T ∧ Extends T (snapshots τ) d d' ∧ Arrived view shutdownHeight τ₂ d' result

theorem Initialized.prepend {τ₀ : List (Event syncSig)} {d d₀ d' : WalletDb}
    {result : ChainBlock × ℕ} (h : Initialized T shutdownHeight τ d₀ d' result)
    (h₀ : Extends T (snapshots τ₀) d d₀) :
    Initialized T shutdownHeight (τ₀ ++ τ) d d' result := by
  obtain ⟨view, τ₁, τ₂, rfl, hnone, hview, hext, harr⟩ := h
  refine ⟨view, τ₀ ++ τ₁, τ₂, by rw [List.append_assoc], hnone, hview, ?_, harr⟩
  rw [snapshots_append]
  exact h₀.trans hext

theorem Initialized.append {τ' : List (Event syncSig)} {d d' : WalletDb}
    {result : ChainBlock × ℕ} (h : Initialized T shutdownHeight τ d d' result)
    (hτ' : snapshots τ' = []) : Initialized T shutdownHeight (τ ++ τ') d d' result := by
  obtain ⟨view, τ₁, τ₂, rfl, hnone, hview, hext, htip, hboundary, hrec⟩ := h
  refine ⟨view, τ₁, τ₂ ++ τ', by rw [List.append_assoc, List.cons_append], ?_, hview, ?_, htip,
    hboundary, ?_⟩
  · rw [snapshots_append, hnone, hτ']
    rfl
  · rw [snapshots_append, hτ', List.append_nil]
    exact hext
  · rcases hrec with hs | hz | hr | ⟨ev, hev, hstale⟩
    · exact Or.inl hs
    · exact Or.inr (Or.inl hz)
    · exact Or.inr (Or.inr (Or.inl hr))
    · exact Or.inr (Or.inr (Or.inr ⟨ev, List.mem_append_left _ hev, hstale⟩))

theorem run_initializeTurns {n : ℕ} {result : ChainBlock × ℕ}
    (h : Run (contract T) (turns (initializeTurn U shutdownHeight) n ()).run w τ
      (.ok (.Break result)) w') : Initialized T shutdownHeight τ w.db w'.db result := by
  induction n generalizing w τ with
  | zero => cases (run_pure.mp h).2.1
  | succ n ih =>
    rw [turns] at h
    obtain ⟨τ₁, flow, w₁, τ₂, hturn, hrest, rfl⟩ := run_bind_ok h
    unfold initializeTurn at hturn
    obtain ⟨τ₃, view, w₂, τ₄, hsnap, hon, rfl⟩ := run_bind_ok hturn
    obtain ⟨rfl, hview, rfl⟩ := run_chain hsnap
    obtain ⟨hext, harr⟩ := run_initializeOn U hon
    have hnone : snapshots τ₄ = [] := snapshots_eq_nil (within_initializeOn U) hon
    have hone : snapshots ([⟨.chain .snapshot, .ok view⟩] ++ τ₄) = [view] := by
      rw [snapshots_append, hnone]
      rfl
    cases flow with
    | Break b =>
      obtain ⟨rfl, hb, rfl⟩ := run_pure.mp hrest
      cases hb
      rw [List.append_nil]
      refine ⟨view, [], τ₄, rfl, hnone, hview, ?_, harr _ rfl⟩
      rw [hone]
      exact hext
    | Continue u =>
      refine (ih hrest).prepend ?_
      rw [hone]
      exact hext

theorem run_updateSubtreeRoots (h : Run (contract T) updateSubtreeRoots.run w τ (.ok ()) w') :
    w' = w ∧ snapshots τ = [] := by
  have hB : Lookups ⟨fun o => o.Reads ∨ ∃ p i r, o = .putSubtreeRoots p i r, fun _ _ => True,
      fun _ => True⟩ := ⟨fun _ ho => Or.inl ho, fun _ _ _ => trivial, fun _ _ => trivial⟩
  have hwithin := within_updateSubtreeRoots hB fun p i r => Or.inr ⟨p, i, r, rfl⟩
  have hwp : wpE (contract T) Eq (fun _ _ => True) (fun _ w' => w' = w) updateSubtreeRoots w := by
    refine wpE_post (wpE_of_within (I := (· = w)) hwithin rfl ?_ ?_) fun _ _ h => h.2
    · rintro _ _ rfl rfl
      rfl
    · rintro o _ (ho | ⟨p, i, r, rfl⟩) rfl
      · exact ⟨trivial, fun r w' h => ⟨trivial, contract_reads ho h⟩⟩
      · exact ⟨trivial, fun r w' h => ⟨trivial, h⟩⟩
  have hw : w' = w := by
    have := wp_run hwp h
    exact this
  refine ⟨hw, ?_⟩
  exact snapshots_eq_nil (within_updateSubtreeRoots scanning_noSnapshot.toLookups
    (by simp [noSnapshot])) h

/-- `initialize` returns the tip of the last snapshot it captured. -/
theorem run_initializeWallet {n : ℕ} {result : ChainBlock × ℕ}
    (h : Run (contract T) (initializeWallet U shutdownHeight n).run w τ (.ok (.Break result)) w') :
    Initialized T shutdownHeight τ w.db w'.db result := by
  unfold initializeWallet at h
  obtain ⟨τ₁, _, w₁, τ₂, hroots, hr₁, rfl⟩ := run_bind_ok h
  obtain ⟨τ₃, flow, w₂, τ₄, hloop, hr₂, rfl⟩ := run_bind_ok hr₁
  obtain ⟨rfl, hnone⟩ := run_updateSubtreeRoots hroots
  cases flow with
  | Continue u => cases (run_pure.mp hr₂).2.1
  | Break b =>
    obtain ⟨τ₅, fullyScanned, w₃, τ₆, hscanned, hr₃, rfl⟩ := run_bind_ok hr₂
    obtain ⟨τ₇, _, w₄, τ₈, hstatus, hr₄, rfl⟩ := run_bind_ok hr₃
    obtain ⟨rfl, d, hd, rfl⟩ := run_db hscanned
    obtain ⟨rfl, hw₄⟩ := run_perform hstatus
    obtain ⟨rfl, hb, rfl⟩ := run_pure.mp hr₄
    cases hb
    have hdb : w'.db = w₂.db := by
      rw [(contract_signals (by trivial) hw₄).1]
      exact hd
    rw [hdb]
    refine Initialized.prepend ((run_initializeTurns U hloop).append rfl) ?_
    exact Extends.refl _ _

end runs

/-- A wallet that has recorded `blocks`. -/
def walletWith (blocks : ℕ → Option BlockHash) : SyncWorld where
  db := ⟨blocks, [], none⟩
  signals := .initial
  prevTip := ⟨0, 0⟩
  boundary := 0

/-- The wallet records the view's tip, and below it only the view's blocks. -/
def StartsOn (T : BlockTree BlockHash) (view : ChainView) (d : WalletDb) : Prop :=
  d.blocks view.tip.height = some view.tip.hash ∧
    ∀ h hash, h ≤ view.tip.height → d.blocks h = some hash → hash = view.hashAt T h

/-- The backend cannot serve single blocks. -/
def noBlocks : Script :=
  { Script.quiet (forkTree 2) with
    chainFault := fun o =>
      match o with
      | .getBlock _ _ => some (.Unavailable "block not found")
      | _ => none }

/-- The wallet suggests the blocks 4 and 5. -/
def suggestsFour : Script :=
  { Script.quiet (forkTree 2) with suggestions := [⟨⟨4, 6⟩, .Historic⟩] }

end Zallet.Sync
