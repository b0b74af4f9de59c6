import Zallet.Sync.Gate

/-!
# Batches below the boundary

`recover_history` (`sync.rs`, lines 1085–1195) takes the first suggestion that
reaches below the boundary it loaded, cuts it off there, and scans it in
batches. The boundary is an atomic that `steady_state` raises whenever it finds
the tip changed (lines 934–951).

* `Cut`: what the batches of a range look like, also when scanning stopped
  early (`Cut.of_append`); `batches_cut` says that the iterator yields them.
* `Scans`: a trace that scans the given batches, one after the other.
* `tipsOf`: the tips of a trace that raised the boundary. An iteration of
  `steady_state` has one if its tip differs from `prev_tip` and none otherwise
  (`run_iterationOn_tips`).
* `history_batches_and_boundary`: the batches of a turn, and the boundary in
  every interleaving.
-/

namespace Zallet.Sync

open Zallet.Effect Zallet.Common Zallet.Chain Zallet.Wallet

/-! ## Cutting a range -/

/-- The number of blocks of a range. -/
def blockCount (r : ScanRange) : ℕ := r.blockRange.stop - r.blockRange.start

/-- `bs` are batches of `range`, from its start on: contiguous, not empty and of
    at most `batchSize` blocks, and only the last one of fewer. -/
structure Cut (batchSize : ℕ) (range : HeightRange) (bs : List ScanRange) : Prop where
  starts : ∀ b, bs.head? = some b → b.blockRange.start = range.start
  contiguous : bs.IsChain fun a b => a.blockRange.stop = b.blockRange.start
  inside : ∀ b ∈ bs, range.start ≤ b.blockRange.start ∧ b.blockRange.stop ≤ range.stop
  size : ∀ b ∈ bs, 1 ≤ blockCount b ∧ blockCount b ≤ batchSize
  full : ∀ b ∈ bs.dropLast, blockCount b = batchSize

variable {U : Upstream} {batchSize : ℕ}

/-- The batches before any of them are batches as well. -/
theorem Cut.of_append {range : HeightRange} {ps bs : List ScanRange} (h : Cut batchSize range bs)
    (hp : ps <+: bs) : Cut batchSize range ps := by
  obtain ⟨rest, rfl⟩ := hp
  refine ⟨?_, (List.isChain_append.mp h.contiguous).1, ?_, ?_, ?_⟩
  · intro b hb
    refine h.starts b ?_
    rw [List.head?_append, hb]
    rfl
  · exact fun b hb => h.inside b (List.mem_append_left _ hb)
  · exact fun b hb => h.size b (List.mem_append_left _ hb)
  · intro b hb
    refine h.full b ?_
    cases rest with
    | nil => rwa [List.append_nil]
    | cons next rest =>
      rw [List.dropLast_append_of_ne_nil (List.cons_ne_nil next rest)]
      exact List.mem_append_left _ ((List.dropLast_prefix ps).subset hb)

theorem Cut.singleton {r : ScanRange} (hr : r.blockRange.start < r.blockRange.stop)
    (hshort : r.blockRange.stop ≤ r.blockRange.start + batchSize) :
    Cut batchSize r.blockRange [r] := by
  refine ⟨?_, List.isChain_singleton r, ?_, ?_, ?_⟩
  · rintro b ⟨rfl⟩
    rfl
  · intro b hb
    rw [List.mem_singleton.mp hb]
    exact ⟨le_rfl, le_rfl⟩
  · intro b hb
    rw [List.mem_singleton.mp hb]
    unfold blockCount
    omega
  · intro b hb
    cases hb

/-- A full batch before those of the rest of the range. -/
theorem Cut.cons (hbatch : 1 ≤ batchSize) {range rest : HeightRange} {cur : ScanRange}
    {bs : List ScanRange} (hcur : cur.blockRange = ⟨range.start, rest.start⟩)
    (hrest : rest = ⟨range.start + batchSize, range.stop⟩) (hle : rest.start ≤ range.stop)
    (hcut : Cut batchSize rest bs) (hbs : bs ≠ []) : Cut batchSize range (cur :: bs) := by
  subst hrest
  have hcount : blockCount cur = batchSize := by
    unfold blockCount
    rw [hcur]
    show range.start + batchSize - range.start = batchSize
    omega
  refine ⟨?_, ?_, ?_, ?_, ?_⟩
  · rintro b ⟨rfl⟩
    rw [hcur]
  · rw [List.isChain_cons]
    refine ⟨?_, hcut.contiguous⟩
    intro b hb
    rw [hcut.starts b hb, hcur]
  · intro b hb
    rcases List.mem_cons.mp hb with rfl | hb
    · rw [hcur]
      exact ⟨le_rfl, hle⟩
    · obtain ⟨hstart, hstop⟩ := hcut.inside b hb
      exact ⟨(Nat.le_add_right _ _).trans hstart, hstop⟩
  · intro b hb
    rcases List.mem_cons.mp hb with rfl | hb
    · rw [hcount]
      exact ⟨hbatch, le_rfl⟩
    · exact hcut.size b hb
  · intro b hb
    rw [List.dropLast_cons_of_ne_nil hbs] at hb
    rcases List.mem_cons.mp hb with rfl | hb
    · exact hcount
    · exact hcut.full b hb

/-- The iterator of the source cuts all of a range. -/
theorem batches_cut (hbatch : 1 ≤ batchSize) {r : ScanRange}
    (hr : r.blockRange.start < r.blockRange.stop) :
    Cut batchSize r.blockRange (batches U batchSize r) ∧
      ∃ b, (batches U batchSize r).getLast? = some b ∧
        b.blockRange.stop = r.blockRange.stop := by
  -- by induction on the number of blocks: each batch leaves a shorter range
  induction hn : blockCount r using Nat.strong_induction_on generalizing r with
  | _ n ih =>
    rw [batches_eq]
    cases hs : U.splitAt r (r.blockRange.start + batchSize) with
    | none =>
      have hshort : r.blockRange.stop ≤ r.blockRange.start + batchSize := by
        rw [U.splitAt_eq] at hs
        by_contra hlong
        rw [if_pos ⟨by omega, by omega⟩] at hs
        cases hs
      exact ⟨.singleton hr hshort, r, rfl, rfl⟩
    | some p =>
      obtain ⟨cur, next⟩ := p
      obtain ⟨h₁, h₂, hcur, hnext⟩ := splitAt_some hs
      have hne : next.blockRange.start < next.blockRange.stop := by
        rw [hnext]
        exact h₂
      have hlt : blockCount next < n := by
        rw [← hn]
        unfold blockCount
        rw [hnext]
        show r.blockRange.stop - (r.blockRange.start + batchSize) < _
        omega
      obtain ⟨hcut, b, hlast, hstop⟩ := ih _ hlt hne rfl
      have hrest : batches U batchSize next ≠ [] := by
        intro hnil
        rw [hnil] at hlast
        cases hlast
      have hcur' : cur.blockRange = ⟨r.blockRange.start, next.blockRange.start⟩ := by
        rw [hcur, hnext]
      have hle : next.blockRange.start ≤ r.blockRange.stop := by
        rw [hnext]
        exact h₂.le
      refine ⟨.cons hbatch hcur' hnext hle hcut hrest, b, ?_, ?_⟩
      · rw [List.getLast?_cons, hlast]
        rfl
      · rw [hstop, hnext]

/-- The range to scan is the first suggestion that reaches below the boundary,
    cut off there. -/
theorem selectHistoricRange_some {suggested : List ScanRange} {upperBoundary : ℕ} {r : ScanRange}
    (h : selectHistoricRange U suggested upperBoundary = some r) :
    ∃ s ∈ suggested, s.blockRange.start < min s.blockRange.stop upperBoundary ∧
      r.blockRange = ⟨s.blockRange.start, min s.blockRange.stop upperBoundary⟩ := by
  unfold selectHistoricRange at h
  obtain ⟨s, hs, hr⟩ := List.mem_filterMap.mp (List.mem_of_mem_head? h)
  rw [U.truncateEnd_eq, Option.ite_none_right_eq_some] at hr
  obtain ⟨hlt, hr⟩ := hr
  obtain rfl := Option.some.inj hr
  exact ⟨s, hs, hlt, rfl⟩

/-! ## The batches of a turn -/

/-- What `recover_history` does besides scanning. -/
def SyncOp.Bookkeeping : SyncOp → Prop
  | db .blockFullyScanned => True
  | db .suggestScanRanges => True
  | status (.setFullySynced _) => True
  | tick => True
  | _ => False

/-- The trace scans the batches of a list, one after the other and none more
    than once; `scanWithRetries` hands its batch to `scan_blocks` until that does
    not report a diverged tree. -/
inductive Scans {W : Type} (C : Contract syncSig W) (U : Upstream) (shutdownHeight : Option ℕ) :
    List ScanRange → List (Event syncSig) → Prop
  | nil : Scans C U shutdownHeight [] []
  | note {ev : Event syncSig} {bs : List ScanRange} {τ : List (Event syncSig)} :
      ev.op.Bookkeeping → Scans C U shutdownHeight bs τ → Scans C U shutdownHeight bs (ev :: τ)
  | scan {b : ScanRange} {bs : List ScanRange} {τ₁ τ₂ : List (Event syncSig)} {w w' : W}
      {r : Except SyncError (ControlFlow ℕ Unit)} :
      Run C (scanWithRetries U b shutdownHeight
        (treeDivergenceBackoff.take treeDivergenceRetries)).run w τ₁ r w' →
      Scans C U shutdownHeight bs τ₂ → Scans C U shutdownHeight (b :: bs) (τ₁ ++ τ₂)

section turns

variable {W : Type} {C : Contract syncSig W} {shutdownHeight : Option ℕ} {w w' : W}
  {τ : List (Event syncSig)}

/-- The loop over the batches scans them in order and may stop early. -/
theorem recoverBatches_scans {bs : List ScanRange} {r : Except SyncError Unit}
    (h : Run C (recoverBatches U shutdownHeight bs).run w τ r w') :
    ∃ passed, passed <+: bs ∧ Scans C U shutdownHeight passed τ := by
  induction bs generalizing w τ with
  | nil =>
    obtain ⟨rfl, -, -⟩ := run_pure.mp h
    exact ⟨[], List.prefix_refl [], .nil⟩
  | cons b rest ih =>
    have hone : [b] <+: b :: rest := ⟨rest, rfl⟩
    rw [recoverBatches] at h
    rcases run_bind_cases h with ⟨e, -, hscan⟩ | ⟨τ₁, flow, w₁, τ₂, hscan, h₂, rfl⟩
    · rw [← List.append_nil τ]
      exact ⟨[b], hone, .scan hscan .nil⟩
    · cases flow with
      | Break stop =>
        obtain ⟨rfl, -, -⟩ := run_pure.mp h₂
        exact ⟨[b], hone, .scan hscan .nil⟩
      | Continue u =>
        rcases run_bind_cases h₂ with ⟨e, -, hread⟩ | ⟨τ₃, scanned, w₃, τ₄, hread, h₄, rfl⟩
        · obtain ⟨a, -, rfl⟩ := run_db_event hread
          exact ⟨[b], hone, .scan hscan (.note trivial .nil)⟩
        · obtain ⟨a, -, rfl⟩ := run_db_event hread
          rcases run_bind_cases h₄ with ⟨e, -, hset⟩ | ⟨τ₅, u', w₅, τ₆, hset, h₆, rfl⟩
          · obtain ⟨a', ha, -⟩ := run_perform_event hset
            cases ha
          · obtain ⟨a', -, rfl⟩ := run_perform_event hset
            rcases run_bind_cases h₆ with ⟨e, -, hlist⟩ | ⟨τ₇, ranges, w₇, τ₈, hlist, h₈, rfl⟩
            · obtain ⟨a'', -, rfl⟩ := run_db_event hlist
              exact ⟨[b], hone, .scan hscan (.note trivial (.note trivial (.note trivial .nil)))⟩
            · obtain ⟨a'', -, rfl⟩ := run_db_event hlist
              split at h₈
              · obtain ⟨rfl, -, -⟩ := run_pure.mp h₈
                exact ⟨[b], hone,
                  .scan hscan (.note trivial (.note trivial (.note trivial .nil)))⟩
              · obtain ⟨passed, hpassed, hscans⟩ := ih h₈
                refine ⟨b :: passed, List.cons_prefix_cons.mpr ⟨rfl, hpassed⟩, ?_⟩
                exact .scan hscan (.note trivial (.note trivial (.note trivial hscans)))

/-- One turn of `recover_history`: it loads the boundary, and scans batches of
    one suggestion cut off there. -/
theorem recoverTurn_scans (hbatch : 1 ≤ batchSize) {r : Except SyncError (ControlFlow Unit Unit)}
    (h : Run C (recoverTurn U batchSize shutdownHeight ()).run w τ r w') :
    ∃ boundary τ' passed, τ = ⟨.loadBoundary, boundary⟩ :: τ' ∧
      Scans C U shutdownHeight passed τ' ∧ (passed = [] ∨
        ∃ suggested s, ⟨.db .suggestScanRanges, .ok suggested⟩ ∈ τ' ∧ s ∈ suggested ∧
          Cut batchSize ⟨s.blockRange.start, min s.blockRange.stop boundary⟩ passed) := by
  unfold recoverTurn at h
  rcases run_bind_cases h with ⟨e, -, hload⟩ | ⟨τ₁, boundary, w₁, τ₂, hload, h₂, rfl⟩
  · obtain ⟨a, ha, -⟩ := run_perform_event hload
    cases ha
  · obtain ⟨a, ha, rfl⟩ := run_perform_event hload
    obtain rfl : boundary = a := Except.ok.inj ha
    refine ⟨boundary, τ₂, ?_⟩
    rcases run_bind_cases h₂ with ⟨e, -, hlist⟩ | ⟨τ₃, suggested, w₃, τ₄, hlist, h₄, rfl⟩
    · obtain ⟨a, -, rfl⟩ := run_db_event hlist
      exact ⟨[], rfl, .note trivial .nil, Or.inl rfl⟩
    · obtain ⟨a, ha, rfl⟩ := run_db_event hlist
      have hsuggested : a = .ok suggested := by
        cases a with
        | ok ranges =>
          cases ha
          rfl
        | error e => cases ha
      cases hselect : selectHistoricRange U suggested boundary with
      | none =>
        simp only [hselect] at h₄
        rcases run_bind_cases h₄ with ⟨e, -, htick⟩ | ⟨τ₅, u, w₅, τ₆, htick, h₆, rfl⟩
        · obtain ⟨a', ha', -⟩ := run_perform_event htick
          cases ha'
        · obtain ⟨a', -, rfl⟩ := run_perform_event htick
          obtain ⟨rfl, -, -⟩ := run_pure.mp h₆
          exact ⟨[], rfl, .note trivial (.note trivial .nil), Or.inl rfl⟩
      | some scanRange =>
        simp only [hselect] at h₄
        obtain ⟨s, hs, hlt, hrange⟩ := selectHistoricRange_some hselect
        have hne : scanRange.blockRange.start < scanRange.blockRange.stop := by
          rw [hrange]
          exact hlt
        have hscans : ∃ passed, passed <+: batches U batchSize scanRange ∧
            Scans C U shutdownHeight passed τ₄ := by
          rcases run_bind_cases h₄ with ⟨e, -, hloop⟩ | ⟨τ₅, u, w₅, τ₆, hloop, h₆, rfl⟩
          · exact recoverBatches_scans hloop
          · obtain ⟨rfl, -, -⟩ := run_pure.mp h₆
            rw [List.append_nil]
            exact recoverBatches_scans hloop
        obtain ⟨passed, hpassed, hscans⟩ := hscans
        have hcut := ((batches_cut hbatch hne).1).of_append hpassed
        rw [hrange] at hcut
        refine ⟨passed, rfl, .note trivial hscans, Or.inr ⟨suggested, s, ?_, hs, hcut⟩⟩
        rw [hsuggested]
        exact List.mem_cons_self

end turns

/-! ## The boundary -/

/-- The tips that raised the boundary in a trace. -/
def tipsOf (τ : List (Event syncSig)) : List ℕ :=
  τ.filterMap fun ev =>
    match ev.op with
    | .updateBoundary height => some height
    | _ => none

/-- The operations that leave the boundary alone. -/
def keepsBoundary : Bounds syncSig SyncError where
  ops o := ∀ height, o ≠ .updateBoundary height
  answers _ _ := True
  errors _ := True

theorem scanning_keepsBoundary : Scanning keepsBoundary where
  reads o ho height heq := by
    subst heq
    exact ho
  chainError _ _ _ := trivial
  otherError _ _ := trivial
  puts _ _ _ := by simp
  streamError _ _ _ _ _ _ := trivial

theorem tipsOf_eq_nil {τ : List (Event syncSig)} (h : ∀ ev ∈ τ, keepsBoundary.ops ev.op) :
    tipsOf τ = [] := by
  unfold tipsOf
  rw [List.filterMap_eq_nil_iff]
  intro ev hev
  have hne := h ev hev
  split
  · rename_i height heq
    exact absurd heq (hne height)
  · rfl

section iteration

variable {W : Type} {C : Contract syncSig W} {w w' : W} {τ : List (Event syncSig)}

/-- A program within `keepsBoundary` raises the boundary nowhere. -/
theorem tipsOf_within {α : Type} {p : SyncM α} (hp : Within keepsBoundary p) {r : Except SyncError α}
    (h : Run C p.run w τ r w') : tipsOf τ = [] :=
  tipsOf_eq_nil (run_within hp h fun _ _ => trivial).1

theorem within_keeps_perform {o : SyncOp} (ho : ∀ height, o ≠ .updateBoundary height) :
    Within keepsBoundary (perform o) := within_perform ho

theorem applying_keepsBoundary : Applying keepsBoundary where
  toScanning := scanning_keepsBoundary
  snapshot _ := by simp
  truncates _ _ := by simp
  getPrevTip _ := by simp
  setPrevTip _ _ := by simp
  begins _ _ := by simp
  pause _ _ := by simp
  panics _ _ := by simp
  chainTips _ _ := by simp
  tipStreamError _ _ _ _ _ _ := trivial

theorem within_keeps_finishIteration (view : ChainView) (currentTip : ChainBlock)
    (tipChanged : Bool) (shutdownHeight : Option ℕ) :
    Within keepsBoundary (finishIteration view currentTip tipChanged shutdownHeight) := by
  have hstore : ∀ txs, Within keepsBoundary (storeMempool txs) := by
    intro txs
    induction txs with
    | nil => exact Within.pure ()
    | cons tx rest ih =>
      rw [storeMempool]
      exact (within_db (by simp [keepsBoundary]) fun _ => trivial).bind fun _ => ih
  unfold finishIteration
  split
  · exact Within.pure _
  · refine Within.bind ?_ fun _ => Within.pure _
    unfold reachTip
    refine (scanning_keepsBoundary.toLookups.db (by trivial)).bind fun fullyScanned => ?_
    refine (within_keeps_perform (by simp)).bind fun _ => ?_
    refine (within_keeps_perform (by simp)).bind fun _ => ?_
    refine (within_keeps_perform (by simp)).bind fun _ => ?_
    refine (within_chain (by simp [keepsBoundary]) fun _ _ => trivial).bind fun stream => ?_
    split
    · exact hstore _
    · split
      · exact (within_keeps_perform (by simp)).bind fun _ => within_keeps_perform (by simp)
      · exact within_keeps_perform (by simp)

/-- The iteration raises the boundary once if the tip changed, and by that
    tip. -/
theorem run_followTip_tips {view : ChainView} {currentTip : ChainBlock}
    {shutdownHeight : Option ℕ} {r : Except SyncError (ControlFlow ℕ Unit)}
    (h : Run C (followTip U view currentTip shutdownHeight).run w τ r w') :
    tipsOf τ = [currentTip.height] := by
  unfold followTip at h
  have hannounce : ∀ {τ : List (Event syncSig)} {r : Except SyncError Unit} {w w' : W},
      Run C (announceTip currentTip).run w τ r w' → tipsOf τ = [currentTip.height] := by
    intro τ r w w' h
    unfold announceTip at h
    rcases run_bind_cases h with ⟨e, -, h₁⟩ | ⟨τ₁, u, w₁, τ₂, h₁, h₂, rfl⟩
    · obtain ⟨a, ha, -⟩ := run_perform_event h₁
      cases ha
    · obtain ⟨a, -, rfl⟩ := run_perform_event h₁
      have hrest : tipsOf τ₂ = [] := by
        refine tipsOf_within ?_ h₂
        exact (within_keeps_perform (by simp)).bind fun _ => within_keeps_perform (by simp)
      show currentTip.height :: tipsOf τ₂ = [currentTip.height]
      rw [hrest]
  rcases run_bind_cases h with ⟨e, -, h₁⟩ | ⟨τ₁, u, w₁, τ₂, h₁, h₂, rfl⟩
  · exact hannounce h₁
  · unfold tipsOf
    rw [List.filterMap_append]
    show tipsOf τ₁ ++ tipsOf τ₂ = _
    rw [hannounce h₁,
      tipsOf_within (within_afterAnnounce applying_keepsBoundary U view shutdownHeight currentTip) h₂]
    rfl

/-- The tips that raise the boundary are those an iteration of `steady_state`
    finds different from `prev_tip`. -/
theorem run_iterationOn_tips {view : ChainView} {shutdownHeight : Option ℕ}
    {r : Except SyncError (ControlFlow ℕ Unit)}
    (h : Run C (iterationOn U view shutdownHeight).run w τ r w') :
    (∃ e, τ = [⟨.chain (.tip view), .error e⟩]) ∨
      ∃ currentTip prevTip τ',
        τ = ⟨.chain (.tip view), .ok currentTip⟩ :: ⟨.getPrevTip, prevTip⟩ :: τ' ∧
        tipsOf τ' = if currentTip ≠ prevTip then [currentTip.height] else [] := by
  unfold iterationOn at h
  rcases run_bind_cases h with ⟨e, -, h₁⟩ | ⟨τ₁, currentTip, w₁, τ₂, h₁, h₂, rfl⟩
  · obtain ⟨a, ha, rfl⟩ := run_chain_event h₁
    cases a with
    | ok tip => cases ha
    | error e' => exact Or.inl ⟨e', rfl⟩
  · obtain ⟨a, ha, rfl⟩ := run_chain_event h₁
    have hread : a = .ok currentTip := by
      cases a with
      | ok tip =>
        cases ha
        rfl
      | error e => cases ha
    subst hread
    rcases run_bind_cases h₂ with ⟨e, -, h₃⟩ | ⟨τ₃, prevTip, w₃, τ₄, h₃, h₄, rfl⟩
    · obtain ⟨a, ha, -⟩ := run_perform_event h₃
      cases ha
    · obtain ⟨a, ha, rfl⟩ := run_perform_event h₃
      obtain rfl : prevTip = a := Except.ok.inj ha
      refine Or.inr ⟨currentTip, prevTip, τ₄, rfl, ?_⟩
      by_cases htip : currentTip ≠ prevTip
      · rw [if_pos htip] at h₄ ⊢
        rcases run_bind_cases h₄ with ⟨e, -, h₅⟩ | ⟨τ₅, flow, w₅, τ₆, h₅, h₆, rfl⟩
        · exact run_followTip_tips h₅
        · have hrest : tipsOf τ₆ = [] := by
            cases flow with
            | Break boundary => exact tipsOf_within (Within.pure _) h₆
            | Continue u =>
              exact tipsOf_within (within_keeps_finishIteration view currentTip true _) h₆
          unfold tipsOf
          rw [List.filterMap_append]
          show tipsOf τ₅ ++ tipsOf τ₆ = _
          rw [run_followTip_tips h₅, hrest]
          rfl
      · rw [if_neg htip] at h₄ ⊢
        exact tipsOf_within (within_keeps_finishIteration view currentTip false _) h₄

end iteration

/-- The tips that raised the boundary so far. -/
def recordTip : (o : SyncOp) → SyncWorld → o.Ret → SyncWorld → List ℕ → List ℕ
  | .updateBoundary height, _, _, _, tips => tips ++ [height]
  | _, _, _, _, tips => tips

/-- The operations of a task, with the tips recorded. -/
def tipContract (T : BlockTree BlockHash) : Contract syncSig (SyncWorld × List ℕ) :=
  (contract T).observed recordTip

/-- Other connections change the database. -/
def otherWrites (w w' : SyncWorld × List ℕ) : Prop := ∃ d, w' = ({ w.1 with db := d }, w.2)

/-- The boundary is 100 blocks below the highest tip. -/
structure BelowHighestTip (w : SyncWorld × List ℕ) : Prop where
  above : ∀ tip ∈ w.2, tip - 100 ≤ w.1.boundary
  attained : ∃ tip ∈ w.2, w.1.boundary = tip - 100

/-- An operation that does not raise the boundary records no tip. -/
theorem recordTip_of_keeps {o : SyncOp} (ho : ∀ height, o ≠ .updateBoundary height)
    (w w' : SyncWorld) (r : o.Ret) (tips : List ℕ) : recordTip o w r w' tips = tips := by
  cases o with
  | updateBoundary height => exact absurd rfl (ho height)
  | _ => rfl

theorem tipContract_step {T : BlockTree BlockHash} {o : SyncOp} {w w' : SyncWorld × List ℕ}
    {r : o.Ret} (h : tipContract T o w r w') :
    (w'.1.boundary = w.1.boundary ∧ w'.2 = w.2) ∨
      ∃ height, w'.1.boundary = max w.1.boundary (height - 100) ∧ w'.2 = w.2 ++ [height] := by
  obtain ⟨hC, htips⟩ := h
  by_cases ho : ∃ height, o = .updateBoundary height
  · obtain ⟨height, rfl⟩ := ho
    have hw : w'.1 = { w.1 with boundary := updateBoundary w.1.boundary height } := hC
    exact Or.inr ⟨height, by rw [hw]; rfl, htips⟩
  · push Not at ho
    rw [recordTip_of_keeps ho] at htips
    refine Or.inl ⟨?_, htips⟩
    rcases contract_cases hC with h | ⟨s, -, h⟩ | ⟨block, -, h⟩ | ⟨height, heq, -⟩ |
      ⟨height, landed, -, -, h⟩ | ⟨fromState, blocks, checkpoints, -, -, h⟩
    · rw [h]
    · rw [h]
    · rw [h]
    · exact absurd heq (ho height)
    · rw [h]
    · rw [h]

theorem BelowHighestTip.step {w w' : SyncWorld × List ℕ} (hw : BelowHighestTip w)
    (h : (w'.1.boundary = w.1.boundary ∧ w'.2 = w.2) ∨
      ∃ height, w'.1.boundary = max w.1.boundary (height - 100) ∧ w'.2 = w.2 ++ [height]) :
    BelowHighestTip w' := by
  obtain ⟨habove, tip, htip, hattained⟩ := hw
  rcases h with ⟨hb, ht⟩ | ⟨height, hb, ht⟩
  · exact ⟨by rw [hb, ht]; exact habove, tip, by rw [ht]; exact htip, by rw [hb, hattained]⟩
  · constructor
    · intro t hmem
      rw [ht, List.mem_append, List.mem_singleton] at hmem
      rcases hmem with hmem | rfl
      · have := habove t hmem
        omega
      · omega
    · by_cases hmax : w.1.boundary ≤ height - 100
      · exact ⟨height, by simp [ht], by omega⟩
      · exact ⟨tip, by simp [ht, htip], by omega⟩

section interleavings

variable {T : BlockTree BlockHash} {ι α : Type} [DecidableEq ι]
  {c c' : Pool syncSig (SyncWorld × List ℕ) ι α}

theorem pool_step_boundary (h : Pool.Step (fun _ => tipContract T) otherWrites c c') :
    (c'.world.1.boundary = c.world.1.boundary ∧ c'.world.2 = c.world.2) ∨
      ∃ height, c'.world.1.boundary = max c.world.1.boundary (height - 100) ∧
        c'.world.2 = c.world.2 ++ [height] := by
  cases h with
  | thread i _ hC => exact tipContract_step hC
  | @env w' he =>
    obtain ⟨d, rfl⟩ := he
    exact Or.inl ⟨rfl, rfl⟩

/-- Whatever programs run, the boundary stays below the highest tip. -/
theorem belowHighestTip_of_reach (hc : BelowHighestTip c.world)
    (h : Pool.Reach (fun _ => tipContract T) otherWrites c c') : BelowHighestTip c'.world := by
  induction h with
  | refl => exact hc
  | tail _ hstep ih => exact ih.step (pool_step_boundary hstep)

/-- The boundary never falls. -/
theorem boundary_le_of_reach (h : Pool.Reach (fun _ => tipContract T) otherWrites c c') :
    c.world.1.boundary ≤ c'.world.1.boundary := by
  induction h with
  | refl => exact le_rfl
  | tail _ hstep ih =>
    rcases pool_step_boundary hstep with ⟨hb, -⟩ | ⟨height, hb, -⟩
    · omega
    · omega

end interleavings

/-- The batches that one turn of `recover_history` hands to `scan_blocks` are, in
    order, batches of one suggestion cut off at the boundary it loaded, from its
    start on. In every interleaving of the tasks the boundary never falls and is
    100 blocks below the highest tip so far: the one the wallet started with, and
    those that an iteration of `steady_state` found different from `prev_tip`. -/
theorem history_batches_and_boundary (T : BlockTree BlockHash) (U : Upstream) (batchSize : ℕ)
    (hbatch : 1 ≤ batchSize) (shutdownHeight : Option ℕ) :
    (∀ (C : Contract syncSig SyncWorld) (w w' : SyncWorld) (τ : List (Event syncSig))
        (r : Except SyncError (ControlFlow Unit Unit)),
      Run C (recoverTurn U batchSize shutdownHeight ()).run w τ r w' →
      ∃ boundary τ' passed, τ = ⟨.loadBoundary, boundary⟩ :: τ' ∧
        Scans C U shutdownHeight passed τ' ∧
        (∀ b ∈ passed, ∀ height, height < b.blockRange.stop → height < boundary) ∧
        (passed = [] ∨
          ∃ suggested s, ⟨.db .suggestScanRanges, .ok suggested⟩ ∈ τ' ∧ s ∈ suggested ∧
            Cut batchSize ⟨s.blockRange.start, min s.blockRange.stop boundary⟩ passed)) ∧
    (∀ (prevTip : ChainBlock) (n m : ℕ) (w : SyncWorld) (tip : ℕ), w.boundary = tip - 100 →
      ∀ c, Pool.Reach (fun _ => tipContract T) otherWrites
          ⟨syncTasks U batchSize shutdownHeight prevTip n m, (w, [tip])⟩ c →
        BelowHighestTip c.world ∧
        ∀ c', Pool.Reach (fun _ => tipContract T) otherWrites c c' →
          c.world.1.boundary ≤ c'.world.1.boundary) ∧
    ∀ (C : Contract syncSig SyncWorld) (view : ChainView) (w w' : SyncWorld)
        (τ : List (Event syncSig)) (r : Except SyncError (ControlFlow ℕ Unit)),
      Run C (iterationOn U view shutdownHeight).run w τ r w' →
      (∃ e, τ = [⟨.chain (.tip view), .error e⟩]) ∨
        ∃ currentTip prevTip τ',
          τ = ⟨.chain (.tip view), .ok currentTip⟩ :: ⟨.getPrevTip, prevTip⟩ :: τ' ∧
          tipsOf τ' = if currentTip ≠ prevTip then [currentTip.height] else [] := by
  refine ⟨?_, ?_, ?_⟩
  · intro C w w' τ r h
    obtain ⟨boundary, τ', passed, hτ, hscans, hpassed⟩ := recoverTurn_scans hbatch h
    refine ⟨boundary, τ', passed, hτ, hscans, ?_, hpassed⟩
    intro b hb height hheight
    rcases hpassed with rfl | ⟨suggested, s, -, -, hcut⟩
    · cases hb
    · have hin : b.blockRange.stop ≤ min s.blockRange.stop boundary := (hcut.inside b hb).2
      omega
  · intro prevTip n m w tip hw c hc
    have hstart : BelowHighestTip (w, [tip]) := by
      refine ⟨?_, tip, List.mem_singleton_self tip, hw⟩
      intro t ht
      rw [List.mem_singleton.mp ht]
      exact hw.ge
    exact ⟨belowHighestTip_of_reach hstart hc, fun c' hc' => boundary_le_of_reach hc'⟩
  · intro C view w w' τ r h
    exact run_iterationOn_tips h

/-- The suggestion 1 to 8 with the boundary at 6 and batches of two. -/
def suggestsEight : Script :=
  { Script.quiet (forkTree 2) with suggestions := [⟨⟨1, 9⟩, .Historic⟩] }

/-- The boundaries that a trace loaded. -/
def boundariesOf (τ : List (Event syncSig)) : List ℕ :=
  τ.filterMap fun ev =>
    match ev with
    | ⟨.loadBoundary, boundary⟩ => some boundary
    | _ => none

/-- The suggestions that a trace read. -/
def suggestionsOf (τ : List (Event syncSig)) : List (List ScanRange) :=
  τ.filterMap fun ev =>
    match ev with
    | ⟨.db .suggestScanRanges, .ok suggested⟩ => some suggested
    | _ => none

/-- The operation stores blocks. -/
def storesBlocks : SyncOp → Bool
  | .db (.putBlocks ..) => true
  | _ => false

/-- A trace that stores blocks scans a batch. -/
theorem Scans.ne_nil {W : Type} {C : Contract syncSig W} {shutdownHeight : Option ℕ}
    {bs : List ScanRange} {τ : List (Event syncSig)} (h : Scans C U shutdownHeight bs τ)
    (hstores : ∃ ev ∈ τ, storesBlocks ev.op = true) : bs ≠ [] := by
  induction h with
  | nil =>
    obtain ⟨ev, hev, -⟩ := hstores
    cases hev
  | @note note bs τ hnote _ ih =>
    obtain ⟨ev, hev, hop⟩ := hstores
    obtain rfl | hev := List.mem_cons.mp hev
    · unfold storesBlocks at hop
      split at hop
      · rename_i heq
        rw [heq] at hnote
        exact hnote.elim
      · cases hop
    · exact ih ⟨ev, hev, hop⟩
  | scan _ _ _ => exact List.cons_ne_nil _ _

/-- One turn scans the blocks 1 to 5 in batches of two. -/
theorem history_batches_below_six :
    ∃ τ' w' passed, Run (contract (forkTree 2)) (recoverTurn .watchNothing 2 none ()).run
        ⟨⟨fun _ => none, [], none⟩, .initial, ⟨106, forkBlock 0 106⟩, 6⟩
        (⟨.loadBoundary, (6 : ℕ)⟩ :: τ') (.ok (.Continue ())) w' ∧
      w'.db.blocks 5 = some (forkBlock 0 5) ∧ w'.db.blocks 6 = none ∧
      Scans (contract (forkTree 2)) .watchNothing none passed τ' ∧ passed ≠ [] ∧
      Cut 2 ⟨1, 6⟩ passed := by
  let start : Replay := ⟨⟨⟨fun _ => none, [], none⟩, .initial, ⟨106, forkBlock 0 106⟩, 6⟩,
    List.replicate 3 (.ok ⟨⟨106, forkBlock 0 106⟩⟩)⟩
  have hrun := exec_run suggestsEight.replay_keeps (n := 60)
    (p := (recoverTurn .watchNothing 2 none ()).run) (s := start)
    (a := .ok (.Continue ())) (by decide +kernel)
  have hboundaries : ∀ b ∈ boundariesOf (exec suggestsEight.replay 60
      (recoverTurn .watchNothing 2 none ()).run start).1, b = 6 := by decide +kernel
  have hsuggestions : ∀ l ∈ suggestionsOf (exec suggestsEight.replay 60
      (recoverTurn .watchNothing 2 none ()).run start).1, l = [⟨⟨1, 9⟩, .Historic⟩] := by
    decide +kernel
  have hstores : (exec suggestsEight.replay 60
      (recoverTurn .watchNothing 2 none ()).run start).1.any (storesBlocks ·.op) = true := by
    decide +kernel
  obtain ⟨boundary, τ', passed, hτ, hscans, -, hpassed⟩ :=
    (history_batches_and_boundary (forkTree 2) .watchNothing 2 (by decide) none).1 _ _ _ _ _ hrun
  rw [hτ] at hrun hboundaries hsuggestions hstores
  obtain rfl : boundary = 6 := hboundaries boundary List.mem_cons_self
  have hsome : passed ≠ [] := by
    apply hscans.ne_nil
    obtain ⟨ev, hev, hop⟩ := List.any_eq_true.mp hstores
    obtain rfl | hev := List.mem_cons.mp hev
    · cases hop
    · exact ⟨ev, hev, hop⟩
  obtain ⟨suggested, s, hmem, hs, hcut⟩ := hpassed.resolve_left hsome
  have hsuggested : suggested = [⟨⟨1, 9⟩, .Historic⟩] :=
    hsuggestions suggested (List.mem_filterMap.mpr ⟨_, List.mem_cons_of_mem _ hmem, rfl⟩)
  rw [hsuggested] at hs
  obtain rfl := List.mem_singleton.mp hs
  exact ⟨τ', _, passed, hrun, by decide +kernel, by decide +kernel, hscans, hsome, hcut⟩

end Zallet.Sync
