import Zallet.Sync.Gate

/-!
# The published status against the database

`fully_synced` of the status is a copy of `block_fully_scanned()`, which two
tasks read and publish in two operations each, while a rewind of the wallet
(`z_import_address.rs`, lines 72–101, or `steady_state`'s own) can lower the
original at any time. `Kept` is what a rewind has to respect for the copy to
stay true: the height that a reader may see, and the heights that a task has
read and not yet published.

* `Truthful`: the invariant, and `truthful_of_reach` for every interleaving.
* `synced_truthful`: a reader that sees `Synced` can rely on the database.
-/

namespace Zallet.Sync

open Zallet.Effect Zallet.Common Zallet.Chain Zallet.Wallet

/-! ## `block_fully_scanned` -/

/-- Every block from the wallet's birthday up to `p` has been scanned. -/
def AllScanned (d : WalletDb) (p : ℕ) : Prop :=
  ∃ birthday, d.birthday = some birthday ∧ birthday ≤ p ∧
    ∀ h, birthday ≤ h → h ≤ p → (d.blocks h).isSome

/-- The answer of `block_fully_scanned()`: the greatest such height. -/
def FullyScanned (d : WalletDb) : Option ℕ → Prop
  | none => ∀ p, ¬ AllScanned d p
  | some f => AllScanned d f ∧ ¬ AllScanned d (f + 1)

/-- `AllScanned`, decided. -/
def allScanned (d : WalletDb) (p : ℕ) : Bool :=
  d.birthday.any fun birthday => decide (birthday ≤ p) &&
    (List.range (p + 1)).all fun h => decide (h < birthday) || (d.blocks h).isSome

theorem allScanned_iff (d : WalletDb) (p : ℕ) : allScanned d p = true ↔ AllScanned d p := by
  simp only [allScanned, AllScanned, Option.any_eq_true, Bool.and_eq_true, decide_eq_true_eq,
    List.all_eq_true, List.mem_range, Bool.or_eq_true]
  refine exists_congr fun birthday => and_congr Iff.rfl (and_congr Iff.rfl ?_)
  constructor
  · intro hall h hh hp
    exact (hall h (by omega)).resolve_left (by omega)
  · intro hscanned h hp
    by_cases hh : h < birthday
    · exact Or.inl hh
    · exact Or.inr (hscanned h (by omega) (by omega))

instance (d : WalletDb) (p : ℕ) : Decidable (AllScanned d p) :=
  decidable_of_iff _ (allScanned_iff d p)

instance (d : WalletDb) (f : ℕ) : Decidable (FullyScanned d (some f)) :=
  inferInstanceAs (Decidable (AllScanned d f ∧ ¬ AllScanned d (f + 1)))

section scanned

variable {d d' : WalletDb} {p : ℕ}

theorem AllScanned.mono (h : AllScanned d p) (hbirthday : d'.birthday = d.birthday)
    (hblocks : ∀ k, k ≤ p → (d.blocks k).isSome → (d'.blocks k).isSome) : AllScanned d' p := by
  obtain ⟨birthday, hb, hle, hscanned⟩ := h
  exact ⟨birthday, hbirthday.trans hb, hle, fun k hk hkp => hblocks k hkp (hscanned k hk hkp)⟩

theorem AllScanned.put (h : AllScanned d p) (blocks : List ScannedBlock) (checkpoints : List ℕ) :
    AllScanned { d.put blocks with checkpoints := checkpoints } p :=
  h.mono (by simp) fun _ _ => WalletDb.put_blocks_mono

/-- A rewind to `height` lowers the fully scanned height to at most `height`, and
    leaves what lies below. -/
theorem allScanned_truncate {height : ℕ} :
    AllScanned (d.truncate height) p ↔ AllScanned d p ∧ p ≤ height := by
  constructor
  · rintro ⟨birthday, hb, hle, hscanned⟩
    have hheight : p ≤ height := by
      have hp := hscanned p hle le_rfl
      rw [WalletDb.truncate_blocks] at hp
      by_contra hlt
      rw [if_neg hlt] at hp
      cases hp
    refine ⟨⟨birthday, hb, hle, fun k hk hkp => ?_⟩, hheight⟩
    have hk' := hscanned k hk hkp
    rwa [WalletDb.truncate_blocks, if_pos (hkp.trans hheight)] at hk'
  · rintro ⟨h, hle⟩
    refine h.mono rfl fun k hk hsome => ?_
    rwa [WalletDb.truncate_blocks, if_pos (hk.trans hle)]

theorem AllScanned.le_fullyScanned (h : AllScanned d p) {m : Option ℕ} (hm : FullyScanned d m) :
    ∃ f, m = some f ∧ p ≤ f := by
  cases m with
  | none => exact absurd h (hm p)
  | some f =>
    refine ⟨f, rfl, ?_⟩
    by_contra hlt
    obtain ⟨birthday, hb, hle, -⟩ := hm.1
    obtain ⟨birthday', hb', -, hscanned⟩ := h
    obtain rfl : birthday = birthday' := Option.some.inj (hb.symm.trans hb')
    exact hm.2 ⟨birthday, hb, by omega, fun k hk hkf => hscanned k hk (by omega)⟩

end scanned

/-! ## What is read and published -/

/-- The answers of `block_fully_scanned` are those of the database. -/
def ReadsDatabase : (o : SyncOp) → SyncWorld → o.Ret → Prop
  | .db .blockFullyScanned, w, .ok m => FullyScanned w.db (m.map (·.blockHeight))
  | _, _, _ => True

/-- What each task has read of the fully scanned height and not yet published,
    and whether `steady_state` has published it and not yet ended the recovery. -/
structure PublishState where
  held : SyncTask → Option ℕ
  announcing : Prop

/-- The effect of the operations of task `i`. -/
def PublishState.step (i : SyncTask) :
    (o : SyncOp) → SyncWorld → o.Ret → SyncWorld → PublishState → PublishState
  | .db .blockFullyScanned, _, .ok m, _, s =>
    { s with held := Function.update s.held i (m.map (·.blockHeight)) }
  | .status (.setFullySynced _), _, _, _, s =>
    ⟨Function.update s.held i none, s.announcing ∨ i = .steadyState⟩
  | .status .endRecovery, _, _, _, s => { s with announcing := False }
  | _, _, _, _, s => s

/-- A reader may see `Synced`, now or when `steady_state` is done announcing the
    tip. -/
def GateOpen (w : SyncWorld × PublishState) : Prop :=
  w.1.signals.recovering = none ∧ w.1.signals.tipReached = true ∨ w.2.announcing

/-- A rewind to `height` falls below no fully scanned height that a reader may
    rely on or a task is about to publish. -/
def Kept (w : SyncWorld × PublishState) (height : ℕ) : Prop :=
  (∀ i p, w.2.held i = some p → p ≤ height) ∧
    (GateOpen w → ∀ p, w.1.signals.fullySynced = some p → p ≤ height)

/-- The rewinds of `steady_state` are such. -/
def RewindsKept : (o : SyncOp) → SyncWorld × PublishState → o.Ret → Prop
  | .db (.truncateToHeight _), w, .ok landed => Kept w landed
  | _, _, _ => True

/-- The operations of the two tasks, with the rewinds of `steady_state` cut down
    to those that `K` admits. -/
def statusContract (T : BlockTree BlockHash)
    (K : (o : SyncOp) → SyncWorld × PublishState → o.Ret → Prop) (i : SyncTask) :
    Contract syncSig (SyncWorld × PublishState) :=
  (((contract T).restrict ReadsDatabase).observed (PublishState.step i)).restrict K

/-- `z_importaddress` rewinds the wallet to the block before an account's
    birthday, in the worlds and to the heights that `allowed` admits. -/
def rewindsBy (allowed : SyncWorld × PublishState → ℕ → Prop)
    (w w' : SyncWorld × PublishState) : Prop :=
  ∃ height, allowed w height ∧ w' = ({ w.1 with db := w.1.db.truncate height }, w.2)

/-! ## The invariant -/

/-- What is held, and what a reader may rely on, is true of the database. -/
structure Truthful (w : SyncWorld × PublishState) : Prop where
  held : ∀ i p, w.2.held i = some p → AllScanned w.1.db p
  published : GateOpen w → ∀ p, w.1.signals.fullySynced = some p → AllScanned w.1.db p

/-- A task publishes what it has read, and `steady_state` announces the tip only
    after it has published. -/
def publishOk (i : SyncTask) : SyncOp → SyncWorld × PublishState → Prop
  | .status (.setFullySynced height), w => height = w.2.held i
  | .status .markTipReached, w => i = .steadyState ∧ w.2.announcing
  | .status .endRecovery, w => i = .steadyState ∧ w.2.announcing
  | _, _ => True

/-- What a task relies on. -/
def PublishRely (i : SyncTask) (w w' : SyncWorld × PublishState) : Prop :=
  w'.2.held i = w.2.held i ∧ (i = .steadyState → w.2.announcing → w'.2.announcing)

section steps

variable {T : BlockTree BlockHash} {i : SyncTask} {o : SyncOp} {w w' : SyncWorld × PublishState}
  {r : o.Ret} {K : (o : SyncOp) → SyncWorld × PublishState → o.Ret → Prop}

/-- All that an operation of a task can do to what is published. -/
theorem statusContract_cases (h : statusContract T K i o w r w') :
    (w'.1.db = w.1.db ∧ w'.1.signals = w.1.signals ∧ w'.2 = w.2) ∨
      (∃ m : Option ℕ, FullyScanned w.1.db m ∧ w'.1 = w.1 ∧
        w'.2 = { w.2 with held := Function.update w.2.held i m }) ∨
      (∃ s, o = .status s ∧ w'.1 = { w.1 with signals := s.apply w.1.signals } ∧
        w'.2 = PublishState.step i (.status s) w.1 () w'.1 w.2) ∨
      (∃ height landed, o = .db (.truncateToHeight height) ∧
        (K = RewindsKept → Kept w landed) ∧ w'.1 = { w.1 with db := w.1.db.truncate landed } ∧
        w'.2 = w.2) ∨
      ∃ blocks checkpoints, w'.1 =
        { w.1 with db := { w.1.db.put blocks with checkpoints := checkpoints } } ∧ w'.2 = w.2 := by
  obtain ⟨w, s⟩ := w
  obtain ⟨w', s'⟩ := w'
  obtain ⟨⟨⟨hC, hread⟩, hs⟩, hK⟩ := h
  simp only at hC hread hs ⊢
  subst hs
  cases o with
  | db o =>
    obtain ⟨d, ha, rfl⟩ := hC
    cases o with
    | blockFullyScanned =>
      cases r with
      | ok m =>
        obtain rfl : d = w.db := ha
        have hm : FullyScanned w.db (m.map (·.blockHeight)) := hread
        exact Or.inr (Or.inl ⟨_, hm, rfl, rfl⟩)
      | error e =>
        obtain ⟨-, rfl⟩ := ha
        exact Or.inl ⟨rfl, rfl, rfl⟩
    | truncateToHeight height =>
      cases r with
      | ok landed =>
        obtain ⟨-, rfl⟩ := ha
        refine Or.inr (Or.inr (Or.inr (Or.inl ⟨height, landed, rfl, ?_, rfl, rfl⟩)))
        rintro rfl
        exact hK
      | error e =>
        obtain ⟨-, rfl⟩ := ha
        exact Or.inl ⟨rfl, rfl, rfl⟩
    | _ =>
      rcases WalletDb.acts_cases ha with rfl | ⟨height, landed, ho, -⟩ |
        ⟨fromState, blocks, checkpoints, -, -, rfl⟩
      · exact Or.inl ⟨rfl, rfl, rfl⟩
      · cases ho
      · exact Or.inr (Or.inr (Or.inr (Or.inr ⟨blocks, checkpoints, rfl, rfl⟩)))
  | status o =>
    obtain rfl : w' = { w with signals := o.apply w.signals } := hC
    exact Or.inr (Or.inr (Or.inl ⟨o, rfl, rfl, rfl⟩))
  | _ =>
    rcases contract_cases hC with rfl | ⟨s, ho, -⟩ | ⟨block, -, rfl⟩ | ⟨tipHeight, -, rfl⟩ |
      ⟨height, landed, ho, -⟩ | ⟨fromState, blocks, checkpoints, ho, -⟩
    · exact Or.inl ⟨rfl, rfl, rfl⟩
    · cases ho
    · exact Or.inl ⟨rfl, rfl, rfl⟩
    · exact Or.inl ⟨rfl, rfl, rfl⟩
    · cases ho
    · cases ho

/-- A rewind that keeps what is published keeps the invariant. -/
theorem Truthful.rewind {height : ℕ} (hw : Truthful w) (hkept : Kept w height) :
    Truthful ({ w.1 with db := w.1.db.truncate height }, w.2) where
  held i p hp := allScanned_truncate.mpr ⟨hw.held i p hp, hkept.1 i p hp⟩
  published ho p hp := allScanned_truncate.mpr ⟨hw.published ho p hp, hkept.2 ho p hp⟩

/-- Each method of `SyncStatusWriter` keeps the invariant, if the height that is
    published is the one that was read, and the tip is announced after it. -/
theorem Truthful.status {s : StatusOp} (hok : publishOk i (.status s) w) (hw : Truthful w) :
    Truthful ({ w.1 with signals := s.apply w.1.signals },
      PublishState.step i (.status s) w.1 () { w.1 with signals := s.apply w.1.signals } w.2) := by
  cases s with
  | setTip tip => exact ⟨hw.held, hw.published⟩
  | setFullySynced height =>
    obtain rfl : height = w.2.held i := hok
    constructor
    · intro j p hp
      by_cases hj : j = i
      · subst hj
        simp [PublishState.step] at hp
      · refine hw.held j p ?_
        simpa [PublishState.step, Function.update_of_ne hj] using hp
    · exact fun _ p hp => hw.held i p hp
  | markTipReached => exact ⟨hw.held, fun _ => hw.published (Or.inr hok.2)⟩
  | beginRecovery height =>
    refine ⟨hw.held, ?_⟩
    rintro (⟨hrec, -⟩ | hannouncing)
    · cases hrec
    · exact hw.published (Or.inr hannouncing)
  | endRecovery => exact ⟨hw.held, fun _ => hw.published (Or.inr hok.2)⟩

theorem Truthful.step (hok : publishOk i o w) (h : statusContract T RewindsKept i o w r w')
    (hw : Truthful w) : Truthful w' := by
  rcases statusContract_cases h with ⟨hd, hs, hg⟩ | ⟨m, hm, hw', hg⟩ | ⟨s, rfl, hw', hg⟩ |
    ⟨height, landed, -, hkept, hw', hg⟩ | ⟨blocks, checkpoints, hw', hg⟩
  · constructor
    · rw [hd, hg]
      exact hw.held
    · unfold GateOpen
      rw [hd, hs, hg]
      exact hw.published
  · constructor
    · intro j p hp
      rw [hw']
      rw [hg] at hp
      by_cases hj : j = i
      · subst hj
        simp only [Function.update_self] at hp
        rw [hp] at hm
        exact hm.1
      · simp only [Function.update_of_ne hj] at hp
        exact hw.held j p hp
    · unfold GateOpen
      rw [hw', hg]
      exact hw.published
  · have hstep := Truthful.status hok hw
    rw [← hw'] at hstep
    rw [← hg] at hstep
    exact hstep
  · have hstep := hw.rewind (hkept rfl)
    rw [← hw', ← hg] at hstep
    exact hstep
  · constructor
    · intro j p hp
      rw [hw']
      rw [hg] at hp
      exact (hw.held j p hp).put blocks checkpoints
    · unfold GateOpen
      rw [hw', hg]
      exact fun ho p hp => (hw.published ho p hp).put blocks checkpoints

/-- A task leaves what the other holds and announces alone, unless it ends a
    recovery. -/
theorem publishRely_of_step {j : SyncTask} (hij : i ≠ j)
    (hend : i = .steadyState → o ≠ .status .endRecovery)
    (h : statusContract T K j o w r w') : PublishRely i w w' := by
  rcases statusContract_cases h with ⟨-, -, hg⟩ | ⟨m, -, -, hg⟩ | ⟨s, rfl, -, hg⟩ |
    ⟨height, landed, -, -, -, hg⟩ | ⟨blocks, checkpoints, -, hg⟩
  · rw [PublishRely, hg]
    exact ⟨rfl, fun _ => id⟩
  · rw [PublishRely, hg]
    exact ⟨Function.update_of_ne hij _ _, fun _ => id⟩
  · rw [PublishRely, hg]
    cases s with
    | setTip tip => exact ⟨rfl, fun _ => id⟩
    | setFullySynced height => exact ⟨Function.update_of_ne hij _ _, fun _ => Or.inl⟩
    | markTipReached => exact ⟨rfl, fun _ => id⟩
    | beginRecovery height => exact ⟨rfl, fun _ => id⟩
    | endRecovery => exact ⟨rfl, fun hi => absurd rfl (hend hi)⟩
  · rw [PublishRely, hg]
    exact ⟨rfl, fun _ => id⟩
  · rw [PublishRely, hg]
    exact ⟨rfl, fun _ => id⟩

/-! ## The tasks -/

/-- The operations about which there is nothing to show. -/
def unannounced : Bounds syncSig SyncError where
  ops
    | .status (.setFullySynced _) => False
    | .status .markTipReached => False
    | .status .endRecovery => False
    | _ => True
  answers _ _ := True
  errors _ := True

theorem publishOk_of_unannounced (ho : unannounced.ops o) : publishOk i o w := by
  fun_cases publishOk i o w with
  | case1 => exact ho.elim
  | case2 => exact ho.elim
  | case3 => exact ho.elim
  | case4 => trivial

theorem applying_unannounced : Applying unannounced where
  reads o ho := by
    unfold unannounced
    simp only
    split
    · exact ho
    · exact ho
    · exact ho
    · trivial
  chainError _ _ _ := trivial
  otherError _ _ := trivial
  puts _ _ := trivial
  streamError _ _ _ _ _ _ := trivial
  snapshot := trivial
  truncates _ := trivial
  getPrevTip := trivial
  setPrevTip _ := trivial
  begins _ := trivial
  pause _ := trivial
  panics _ := trivial
  chainTips _ := trivial
  tipStreamError _ _ _ _ _ _ := trivial

/-- `p` publishes what it reads, among the other task and the rescans. -/
def Publishes (T : BlockTree BlockHash) (i : SyncTask) {α : Type} (p : SyncM α) : Prop :=
  Sustains (statusContract T RewindsKept i) (PublishRely i) (publishOk i) (fun _ => True)
    (fun _ _ => True) p

theorem publishes_of_unannounced {α : Type} {p : SyncM α} (hp : Within unannounced p) :
    Publishes T i p :=
  Sustains.of_within hp (fun _ _ _ _ => trivial)
    (fun _ _ ho _ => ⟨publishOk_of_unannounced ho, fun _ _ _ => ⟨trivial, trivial⟩⟩)
    fun _ _ _ _ => trivial

/-- Reading the fully scanned height, and publishing it. -/
theorem wpE_publish {α : Type} {k : Unit → SyncM α}
    (hk : ∀ w', (i = .steadyState → w'.2.announcing) →
      wpE (statusContract T RewindsKept i) (PublishRely i) (publishOk i)
        (sustained (fun _ => True) fun _ _ => True) (k ()) w') :
    wpE (statusContract T RewindsKept i) (PublishRely i) (publishOk i)
      (sustained (fun _ => True) fun _ _ => True)
      (db .blockFullyScanned >>= fun m =>
        perform (.status (.setFullySynced (m.map (·.blockHeight)))) >>= k) w := by
  rw [wpE_bind]
  refine wpE_db.mpr fun w₁ _ => ⟨trivial, fun r w₂ hC => ?_⟩
  cases r with
  | error e => trivial
  | ok m =>
    have hheld : w₂.2.held i = m.map (·.blockHeight) := by
      rw [hC.1.2]
      exact Function.update_self ..
    show wpE _ _ _ _ (perform (.status (.setFullySynced (m.map (·.blockHeight)))) >>= k) w₂
    rw [wpE_bind]
    refine wpE_perform.mpr fun w₃ hr => ⟨?_, fun r w₄ hC' => hk w₄ fun hi => ?_⟩
    · show m.map (·.blockHeight) = w₃.2.held i
      rw [hr.1, hheld]
    · rw [hC'.1.2]
      exact Or.inr hi

variable (U : Upstream) (shutdownHeight : Option ℕ)

theorem publishes_recoverBatches (ranges : List ScanRange) :
    Publishes T i (recoverBatches U shutdownHeight ranges) := by
  have hsnapshot : Publishes T i (chain .snapshot) :=
    publishes_of_unannounced (within_chain (by trivial) fun _ _ => trivial)
  have hretries : ∀ scanRange backoffs,
      Publishes T i (scanWithRetries U scanRange shutdownHeight backoffs) := by
    intro scanRange backoffs
    have hscan : ∀ view, Publishes T i (scanBlocks U view scanRange shutdownHeight) := fun view =>
      publishes_of_unannounced (within_scanBlocks U applying_unannounced.toScanning view _ _)
    induction backoffs with
    | nil =>
      rw [scanWithRetries]
      exact hsnapshot.bind hscan
    | cons backoff rest ih =>
      rw [scanWithRetries]
      refine hsnapshot.bind fun view => ?_
      refine ((hscan view).attempt fun _ _ _ => trivial).bind fun outcome => ?_
      cases outcome with
      | ok outcome => exact .pure _
      | error e =>
        simp only
        split
        · exact (publishes_of_unannounced (within_perform (by trivial))).bind fun _ => ih
        · exact publishes_of_unannounced (Within.throw trivial)
  induction ranges with
  | nil => exact .pure _
  | cons scanRange rest ih =>
    rw [recoverBatches]
    refine (hretries scanRange _).bind fun flow => ?_
    cases flow with
    | Break boundary => exact .pure _
    | Continue u =>
      intro w _
      refine wpE_publish fun w' _ => ?_
      refine Sustains.bind (publishes_of_unannounced (applying_unannounced.toLookups.db (by trivial)))
        (fun latestRanges => ?_) w' trivial
      split
      · exact .pure _
      · exact ih

theorem publishes_recoverHistory (batchSize n : ℕ) :
    Publishes T i (recoverHistory U batchSize shutdownHeight n) := by
  unfold recoverHistory
  refine (publishes_of_unannounced (within_perform (by trivial))).bind fun _ => ?_
  refine Sustains.turns (fun u => ?_) n ()
  unfold recoverTurn
  refine (publishes_of_unannounced (within_perform (by trivial))).bind fun upperBoundary => ?_
  refine Sustains.bind (publishes_of_unannounced (applying_unannounced.toLookups.db (by trivial)))
    fun suggested => ?_
  split
  · exact (publishes_of_unannounced (within_perform (by trivial))).bind fun _ => .pure _
  · exact (publishes_recoverBatches U shutdownHeight _).bind fun _ => .pure _

/-- An iteration that has reached the tip announces what it has published. -/
theorem publishes_reachTip (view : ChainView) (tipChanged : Bool) :
    Publishes T .steadyState (reachTip view tipChanged) := by
  have hstore : ∀ txs, Publishes T .steadyState (storeMempool txs) := by
    intro txs
    induction txs with
    | nil => exact .pure _
    | cons tx rest ih =>
      rw [storeMempool]
      exact (publishes_of_unannounced (within_db (by trivial) fun _ => trivial)).bind fun _ => ih
  unfold reachTip
  intro w _
  refine wpE_publish fun w₁ hw₁ => ?_
  rw [wpE_bind]
  refine wpE_perform.mpr fun w₂ hr₂ => ?_
  have hw₂ := hr₂.2 rfl (hw₁ rfl)
  refine ⟨⟨rfl, hw₂⟩, fun r w₃ hC₃ => ?_⟩
  have hw₃ : w₃.2.announcing := by
    rw [hC₃.1.2]
    exact hw₂
  rw [andThen_ok, wpE_bind]
  refine wpE_perform.mpr fun w₄ hr₄ => ⟨⟨rfl, hr₄.2 rfl hw₃⟩, fun r w₅ _ => ?_⟩
  -- from here on nothing is published
  refine Sustains.bind (publishes_of_unannounced (within_chain (by trivial) fun _ _ => trivial))
    (fun stream => ?_) w₅ trivial
  split
  · exact hstore _
  · split
    · exact (publishes_of_unannounced (within_perform (by trivial))).bind fun _ =>
        publishes_of_unannounced (within_perform (by trivial))
    · exact publishes_of_unannounced (within_perform (by trivial))

theorem publishes_steadyState (prevTip : ChainBlock) (n : ℕ) :
    Publishes T .steadyState (steadyState U prevTip shutdownHeight n) := by
  have hfinish : ∀ view currentTip tipChanged,
      Publishes T .steadyState (finishIteration view currentTip tipChanged shutdownHeight) := by
    intro view currentTip tipChanged
    unfold finishIteration
    split
    · exact .pure _
    · exact (publishes_reachTip view tipChanged).bind fun _ => .pure _
  have hon : ∀ view, Publishes T .steadyState (iterationOn U view shutdownHeight) := by
    intro view
    unfold iterationOn
    refine Sustains.bind (publishes_of_unannounced
      (applying_unannounced.toLookups.chain (by trivial))) fun currentTip => ?_
    refine (publishes_of_unannounced (within_perform (by trivial))).bind fun prevTip => ?_
    split
    · refine Sustains.bind (publishes_of_unannounced ?_) fun flow => ?_
      · unfold followTip
        exact (within_announceTip (fun _ => trivial) trivial (fun _ => trivial) currentTip).bind
          fun _ => within_afterAnnounce applying_unannounced U view shutdownHeight currentTip
      · cases flow with
        | Break boundary => exact .pure _
        | Continue u => exact hfinish view _ _
    · exact hfinish view _ _
  unfold steadyState
  refine (publishes_of_unannounced (within_perform (by trivial))).bind fun _ => ?_
  refine (publishes_of_unannounced (within_perform (by trivial))).bind fun _ => ?_
  refine Sustains.turns (fun recovery => ?_) n default
  unfold steadyTurn steadyStateIteration
  refine Sustains.bind (Sustains.attempt ?_ fun _ _ _ => trivial) fun outcome => ?_
  · exact (publishes_of_unannounced (within_chain (by trivial) fun _ _ => trivial)).bind hon
  · exact publishes_of_unannounced
      (within_handleOutcome applying_unannounced.toHandling recovery outcome)

end steps

/-! ## Every interleaving -/

section every

variable {T : BlockTree BlockHash} {U : Upstream}

theorem wp_publishTasks (batchSize : ℕ) (shutdownHeight : Option ℕ) (prevTip : ChainBlock)
    (n m : ℕ) (w : SyncWorld × PublishState) (i : SyncTask) :
    wp (statusContract T RewindsKept i) (PublishRely i) (publishOk i) (fun _ _ => True)
      (syncTasks U batchSize shutdownHeight prevTip n m i) w := by
  have hrun : ∀ {p : SyncM Unit}, Publishes T i p →
      wp (statusContract T RewindsKept i) (PublishRely i) (publishOk i) (fun _ _ => True) p.run w :=
    fun hp => wp_post (hp w trivial) fun _ _ _ => trivial
  cases i with
  | steadyState =>
    exact hrun ((publishes_steadyState U shutdownHeight prevTip n).bind fun _ => .pure _)
  | recoverHistory =>
    exact hrun ((publishes_recoverHistory U shutdownHeight batchSize m).bind fun _ => .pure _)

theorem truthful_of_reach (batchSize : ℕ) (shutdownHeight : Option ℕ) (prevTip : ChainBlock)
    (n m : ℕ) {w : SyncWorld × PublishState} (hw : Truthful w)
    {c : Pool syncSig (SyncWorld × PublishState) SyncTask (Except SyncError Unit)}
    (h : Pool.Reach (statusContract T RewindsKept) (rewindsBy Kept)
      ⟨syncTasks U batchSize shutdownHeight prevTip n m, w⟩ c) : Truthful c.world := by
  refine Pool.world_inv ?_ ?_ ?_ ?_ ?_ ?_
    (wp_publishTasks (T := T) (U := U) batchSize shutdownHeight prevTip n m w) hw h
  · rintro i w₁ w₂ w₃ ⟨hh₁, ha₁⟩ ⟨hh₂, ha₂⟩
    exact ⟨hh₂.trans hh₁, fun hi ha => ha₂ hi (ha₁ hi ha)⟩
  · exact fun i w => ⟨rfl, fun _ => id⟩
  · intro i j hij o w r w' hok hC
    refine publishRely_of_step hij ?_ hC
    -- only `steady_state` ends a recovery
    rintro rfl rfl
    exact hij hok.1.symm
  · rintro i w w' ⟨height, -, rfl⟩
    exact ⟨rfl, fun _ => id⟩
  · exact fun i o w r w' hok hC hI => hI.step hok hC
  · rintro w w' ⟨height, hkept, rfl⟩ hI
    exact hI.rewind hkept

/-- A reader sees `Synced` only if the published height is near the published
    tip. -/
theorem fullySynced_of_synced {s : SyncSignals} {tolerance : ℕ}
    (h : s.status tolerance = .Synced) : ∃ p, s.fullySynced = some p ∧ s.tip - p ≤ tolerance := by
  obtain ⟨hrec, htip⟩ := SyncSignals.status_synced h
  unfold SyncSignals.status at h
  rw [hrec, htip] at h
  cases hs : s.fullySynced with
  | none => simp [hs] at h
  | some p => exact ⟨p, rfl, by simpa [hs] using h⟩

/-- Every interleaving of the two tasks with rescans, started before the tip has
    been reached: if no rewind of the wallet falls below a height that a reader
    may rely on or a task is about to publish, a reader that sees `Synced` finds
    the database scanned to within the tolerance of the published tip. -/
theorem synced_truthful (T : BlockTree BlockHash) (U : Upstream) (batchSize : ℕ)
    (shutdownHeight : Option ℕ) (prevTip : ChainBlock) (n m : ℕ) (w : SyncWorld)
    (hw : w.signals.tipReached = false)
    (c : Pool syncSig (SyncWorld × PublishState) SyncTask (Except SyncError Unit))
    (h : Pool.Reach (statusContract T RewindsKept) (rewindsBy Kept)
      ⟨syncTasks U batchSize shutdownHeight prevTip n m, (w, ⟨fun _ => none, False⟩)⟩ c)
    (tolerance : ℕ) (hs : c.world.1.signals.status tolerance = .Synced)
    (fullyScanned : Option ℕ) (hf : FullyScanned c.world.1.db fullyScanned) :
    ∃ f, fullyScanned = some f ∧ c.world.1.signals.tip - f ≤ tolerance := by
  have hstart : Truthful (w, (⟨fun _ => none, False⟩ : PublishState)) := by
    refine ⟨fun i p hp => (by cases hp), ?_⟩
    rintro (⟨-, ht⟩ | ha)
    · rw [hw] at ht
      cases ht
    · exact ha.elim
  have htruthful := truthful_of_reach batchSize shutdownHeight prevTip n m hstart h
  obtain ⟨p, hp, hle⟩ := fullySynced_of_synced hs
  have hscanned := htruthful.published (Or.inl (SyncSignals.status_synced hs)) p hp
  obtain ⟨f, rfl, hpf⟩ := hscanned.le_fullyScanned hf
  exact ⟨f, rfl, by omega⟩

end every

/-! ## A rescan after the tip has been reached -/

/-- The script answers `block_fully_scanned` as its database does. -/
def answersScanned : (o : SyncOp) → Replay → o.Ret → Bool
  | .db .blockFullyScanned, σ, r =>
    match r with
    | .ok (some m) => decide (FullyScanned σ.world.db (some m.blockHeight))
    | .ok none => false
    | .error _ => true
  | _, _, _ => true

theorem answersScanned_reads {o : SyncOp} {σ : Replay} {r : o.Ret}
    (h : answersScanned o σ r = true) : ReadsDatabase o σ.world r := by
  cases o with
  | db o =>
    cases o with
    | blockFullyScanned =>
      rcases r with e | m | m
      · trivial
      · cases h
      · have hm : FullyScanned σ.world.db (some m.blockHeight) := of_decide_eq_true h
        exact hm
    | _ => trivial
  | _ => trivial

/-- A run in which nothing is rewound, with what is published recorded. -/
theorem reaches_published {s : Script} {K : (o : SyncOp) → SyncWorld × PublishState → o.Ret → Prop}
    (hK : ∀ o w r, beforeRewind o = true → K o w r) {p : Prog syncSig (Except SyncError Unit)}
    {σ : Replay} {n : ℕ} {a : Except SyncError Unit} (i : SyncTask)
    (ha : (exec (s.replay.checked answersScanned) n p σ).2.1.result = some a)
    (hτ : ∀ ev ∈ (exec (s.replay.checked answersScanned) n p σ).1, beforeRewind ev.op = true)
    (g : PublishState) :
    ∃ g', Reaches (statusContract s.tree K i) p (σ.world, g)
      (exec (s.replay.checked answersScanned) n p σ).1 (.pure a)
      ((exec (s.replay.checked answersScanned) n p σ).2.2.world, g') := by
  have hkeeps := s.replay_keeps.checked (K := ReadsDatabase) fun _ _ _ => answersScanned_reads
  obtain ⟨g', hreach⟩ := (exec_run hkeeps ha).observed (PublishState.step i) g
  exact ⟨g', hreach.restrict fun ev hev w => hK _ _ _ (hτ ev hev)⟩

/-- A wallet born at height 1 that has scanned up to the tip 10, and a backend
    whose tip is still that one. -/
def scannedToTip : Replay where
  world :=
    { db := ⟨fun h => if 1 ≤ h ∧ h ≤ 10 then some (forkBlock 0 h) else none, [10], some 1⟩
      signals := { SyncSignals.initial with tip := 10 }
      prevTip := ⟨10, forkBlock 0 10⟩
      boundary := 0 }
  snapshots := [.ok ⟨⟨10, forkBlock 0 10⟩⟩]

/-- The two tasks, for one turn of `steady_state`. -/
def oneTurn : SyncTask → Prog syncSig (Except SyncError Unit) :=
  syncTasks .watchNothing 10 none scannedToTip.world.prevTip 1 1

/-- The run of `steady_state`. -/
def announced : List (Event syncSig) × Prog syncSig (Except SyncError Unit) × Replay :=
  exec ((Script.quiet (forkTree 6)).replay.checked answersScanned) 30 (oneTurn .steadyState)
    scannedToTip

/-- `steady_state` has announced the tip. -/
theorem reach_announced {K : (o : SyncOp) → SyncWorld × PublishState → o.Ret → Prop}
    (hK : ∀ o w r, beforeRewind o = true → K o w r)
    (allowed : SyncWorld × PublishState → ℕ → Prop) :
    ∃ progs g, Pool.Reach (statusContract (forkTree 6) K) (rewindsBy allowed)
      ⟨oneTurn, (scannedToTip.world, ⟨fun _ => none, False⟩)⟩ ⟨progs, (announced.2.2.world, g)⟩ := by
  obtain ⟨g, hreach⟩ := reaches_published (s := .quiet (forkTree 6)) (n := 30) (a := .ok ()) hK
    .steadyState (p := oneTurn .steadyState) (σ := scannedToTip) (by decide +kernel)
    (by decide +kernel) ⟨fun _ => none, False⟩
  exact ⟨_, g, Pool.reach_of_reaches (i := SyncTask.steadyState) hreach oneTurn rfl⟩

/-- A reader sees `Synced` after the turn. -/
theorem synced_truthful_announced :
    ∃ c, Pool.Reach (statusContract (forkTree 6) RewindsKept) (rewindsBy Kept)
        ⟨oneTurn, (scannedToTip.world, ⟨fun _ => none, False⟩)⟩ c ∧
      c.world.1.signals.status 0 = .Synced ∧
      ∀ m, FullyScanned c.world.1.db m → ∃ f, m = some f ∧ c.world.1.signals.tip - f ≤ 0 := by
  have hK : ∀ o w r, beforeRewind o = true → RewindsKept o w r := by
    intro o w r h
    fun_cases RewindsKept o w r with
    | case1 => cases h
    | case2 => trivial
  obtain ⟨progs, g, hreach⟩ := reach_announced hK Kept
  have hsynced : announced.2.2.world.signals.status 0 = .Synced := by decide +kernel
  exact ⟨_, hreach, hsynced,
    synced_truthful _ _ _ _ _ _ _ _ (by decide +kernel) _ hreach 0 hsynced⟩

/-- A rescan for an account born at height 5 rewinds the wallet to height 4: a
    reader still sees `Synced`, with no tolerance. -/
theorem synced_after_rescan :
    ∃ c f, Pool.Reach (statusContract (forkTree 6) fun _ _ _ => True) (rewindsBy fun _ _ => True)
        ⟨oneTurn, (scannedToTip.world, ⟨fun _ => none, False⟩)⟩ c ∧
      c.world.1.signals.status 0 = .Synced ∧ FullyScanned c.world.1.db (some f) ∧
      ¬ c.world.1.signals.tip - f ≤ 0 := by
  obtain ⟨progs, g, hreach⟩ := reach_announced (fun _ _ _ _ => trivial) fun _ _ => True
  have hsynced : announced.2.2.world.signals.status 0 = .Synced := by decide +kernel
  have hscanned : FullyScanned (announced.2.2.world.db.truncate 4) (some 4) := by decide +kernel
  have hbehind : ¬ announced.2.2.world.signals.tip - 4 ≤ 0 := by decide +kernel
  exact ⟨_, 4, hreach.tail (.env ⟨4, trivial, rfl⟩), hsynced, hscanned, hbehind⟩

end Zallet.Sync
