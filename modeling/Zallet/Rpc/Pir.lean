import Zallet.Effect.History
import Zallet.Rpc.TransparentOutputs

/-!
# Spent notes and the PIR provider

`Pir::check_notes_on` and `Pir::prepare_witnesses`
(`zallet-core/src/components/json_rpc/pir.rs`, lines 103–241) and
`z_getspendablebalance` (methods/z_get_spendable_balance.rs, lines 39–68). A
note is unspent for them if the wallet has scanned no spend of it and the
provider, which keeps the nullifiers of the blocks from `earliest` to `latest`,
does not report one.

The wallet is asked twice, for its notes and then for the height it has fully
scanned, and the sync tasks may scan and rewind before every operation. A block
scanned between the two answers is counted as scanned although its spends were
not known when the notes were listed (`spent_note_counted`). `pir_sound` is the
guarantee for every run in which no such block below `earliest` spends a listed
note (`QuietReads`).

* `PirNet` is what does not change during a run: the spends of the chain, the
  provider's data set and the tree states of the chain views.
* `listed`, `scannedAtNotes`, `scannedAtHeight`, `cleared` and `view` are
  history that no program reads.
* A timeout is an error of the operation that is waited for.
-/

namespace Zallet.Rpc

open Zallet.Effect Zallet.Chain Relation

/-! ## Data -/

abbrev Nullifier := BitVec 256

/-- `PirIronwoodNote`. -/
structure PirIronwoodNote where
  noteId : ℕ
  nullifier : Nullifier
  position : ℕ
  minedHeight : ℕ
  value : ℕ
  deriving DecidableEq

/-- `PirIronwoodWitness`. -/
structure PirIronwoodWitness where
  noteId : ℕ
  position : ℕ
  siblings : List (BitVec 256)
  deriving DecidableEq

/-- A witness as the provider returns it. -/
structure FetchedWitness where
  siblings : List (BitVec 256)
  anchorRoot : BitVec 256
  deriving DecidableEq

/-- What the code reads of the provider's health. -/
structure PirHealth where
  nullifierPhase : String
  witnessPhase : String
  deriving DecidableEq

/-- `Check` (lines 36–40). -/
structure PirCheck where
  notes : List PirIronwoodNote
  checkedThrough : ℕ
  witnessServing : Bool
  deriving DecidableEq

/-- The calls of the wallet database, the provider and the chain. -/
inductive PirOp
  | handle
  | clearPirIronwoodWitnesses
  | pirIronwoodNotes
  | blockFullyScanned
  | session
  | health
  | connectSpend
  | isSpent (nullifier : Nullifier)
  | connectWitness
  | snapshot
  | treeStateAsOf (view height : ℕ)
  | getWitnesses (positions : List ℕ)
  | replacePirIronwoodWitnesses (anchorHeight : ℕ) (anchorRoot : BitVec 256)
      (witnesses : List PirIronwoodWitness)
  deriving DecidableEq

@[reducible] def PirOp.Ret : PirOp → Type
  | handle => Except String Unit
  | clearPirIronwoodWitnesses => Except String Unit
  | pirIronwoodNotes => Except String (List PirIronwoodNote)
  | blockFullyScanned => Except String (Option ℕ)
  | session => Except String Unit
  | health => Except String PirHealth
  | connectSpend => Except String (ℕ × ℕ)
  | isSpent _ => Except String Bool
  | connectWitness => Except String ℕ
  | snapshot => Except String ℕ
  | treeStateAsOf _ _ => Except String (Option ChainState)
  | getWitnesses _ => Except String (List FetchedWitness)
  | replacePirIronwoodWitnesses _ _ _ => Except String Unit

@[reducible] def pirSig : Sig := ⟨PirOp, PirOp.Ret⟩

/-- Programs that end with an `anyhow` error, by its text. -/
abbrev PirProg := ExceptT String (Prog pirSig)

/-- `Option::context`. -/
def context {α : Type} (text : String) : Option α → PirProg α
  | some a => pure a
  | none => throw text

/-! ## The calls -/

/-- The loop over the notes of `check_notes_on` (lines 119–123). -/
def unspentNotes : List PirIronwoodNote → PirProg (List PirIronwoodNote)
  | [] => pure []
  | note :: rest => do
    let spent ← liftE id (Prog.call (S := pirSig) (.isSpent note.nullifier))
    let unspent ← unspentNotes rest
    pure (if spent then unspent else note :: unspent)

/-- `Pir::check_notes_on` (lines 103–130), on the session in use. -/
def checkNotesOn (activation : ℕ) (notes : List PirIronwoodNote) (lastScanned : ℕ) :
    PirProg PirCheck := do
  let health ← liftE id (Prog.call (S := pirSig) .health)
  if health.nullifierPhase ≠ "serving" then
    throw "PIR nullifier provider is not serving"
  else do
    let (earliest, latest) ← liftE id (Prog.call (S := pirSig) .connectSpend)
    if earliest > max (lastScanned + 1) activation then
      throw "PIR nullifier retention does not cover the unscanned range"
    else do
      let unspent ← unspentNotes notes
      pure ⟨unspent, latest, health.witnessPhase == "serving"⟩

/-- The witnesses to store, unless one of them has another root (lines
    219–233). -/
def storedWitnesses (chainRoot : BitVec 256) :
    List (PirIronwoodNote × FetchedWitness) → Except String (List PirIronwoodWitness)
  | [] => .ok []
  | (note, witness) :: rest =>
    if witness.anchorRoot ≠ chainRoot then .error "PIR witness root does not match the chain"
    else (storedWitnesses chainRoot rest).map
      (⟨note.noteId, note.position, witness.siblings⟩ :: ·)

/-- `Pir::prepare_witnesses_inner` (lines 168–241). `root` is the root of a
    frontier. -/
def prepareWitnessesInner (root : Frontier → BitVec 256) (activation : ℕ)
    (notes : List PirIronwoodNote) (lastScanned : ℕ) : PirProg Unit := do
  liftE id (Prog.call (S := pirSig) .session)
  let checked ← checkNotesOn activation notes lastScanned
  if checked.notes = [] then pure ()
  else if checked.witnessServing = false then throw "PIR witness provider is not serving"
  else do
    let anchorHeight ← liftE id (Prog.call (S := pirSig) .connectWitness)
    if checked.checkedThrough < anchorHeight then
      throw "PIR datasets do not share a usable snapshot"
    else if 2 ^ 32 ≤ anchorHeight then throw "PIR anchor height exceeds the Zcash height range"
    else do
      let view ← liftE id (Prog.call (S := pirSig) .snapshot)
      let state ← liftE id (Prog.call (S := pirSig) (.treeStateAsOf view anchorHeight))
      let state ← context "PIR anchor is above the chain tip" state
      let chainRoot := root state.finalIronwoodTree
      if checked.notes.any (anchorHeight < ·.minedHeight) then
        throw "PIR anchor predates a wallet note"
      else do
        let fetched ← liftE id
          (Prog.call (S := pirSig) (.getWitnesses (checked.notes.map (·.position))))
        let witnesses ← ofOutcome (storedWitnesses chainRoot (checked.notes.zip fetched))
        liftE id (Prog.call (S := pirSig) .handle)
        liftE id (Prog.call (S := pirSig)
          (.replacePirIronwoodWitnesses anchorHeight chainRoot witnesses))

/-- `Pir::prepare_witnesses` (lines 143–166). -/
def prepareWitnesses (root : Frontier → BitVec 256) (activation : ℕ) : PirProg Unit := do
  liftE id (Prog.call (S := pirSig) .handle)
  liftE id (Prog.call (S := pirSig) .clearPirIronwoodWitnesses)
  let notes ← liftE id (Prog.call (S := pirSig) .pirIronwoodNotes)
  if notes = [] then pure ()
  else do
    let lastScanned ← liftE id (Prog.call (S := pirSig) .blockFullyScanned)
    let lastScanned ← context "wallet has not scanned any blocks" lastScanned
    prepareWitnessesInner root activation notes lastScanned

/-- `ResultType` (z_get_spendable_balance.rs, lines 20–30), with the balance in
    zatoshis. -/
structure SpendableBalance where
  balance : ℕ
  walletScannedThrough : Option ℕ
  pirCheckedThrough : Option ℕ
  deriving DecidableEq

/-- `Zatoshis + Zatoshis`. -/
def addZatoshis (a b : ℕ) : Option ℕ := if a + b ≤ maxMoney then some (a + b) else none

/-- The sum of the values (lines 59–62). -/
def totalFrom (total : ℕ) : List PirIronwoodNote → Except String ℕ
  | [] => .ok total
  | note :: rest =>
    match addZatoshis total note.value with
    | some total => totalFrom total rest
    | none => .error "spendable balance overflow"

/-- The notes that `calculate` counts, with the height it reports, and the
    height it found scanned (lines 40–57); the check is `none` if the wallet has
    no notes. `pir` is `false` if PIR is disabled. -/
def countedNotes (activation : ℕ) (pir : Bool) : PirProg (Option ℕ × Option PirCheck) := do
  liftE id (Prog.call (S := pirSig) .handle)
  let notes ← liftE id (Prog.call (S := pirSig) .pirIronwoodNotes)
  let lastScanned ← liftE id (Prog.call (S := pirSig) .blockFullyScanned)
  if notes = [] then pure (lastScanned, none)
  else do
    let last ← context "wallet has not scanned any blocks" lastScanned
    if pir = false then throw "PIR is disabled"
    else do
      liftE id (Prog.call (S := pirSig) .session)
      let checked ← checkNotesOn activation notes last
      pure (lastScanned, some checked)

/-- `calculate` (lines 39–68). -/
def calculate (activation : ℕ) (pir : Bool) : PirProg SpendableBalance := do
  let (lastScanned, checked) ← countedNotes activation pir
  match checked with
  | none => pure ⟨0, lastScanned, none⟩
  | some checked => do
    let total ← ofOutcome (totalFrom 0 checked.notes)
    pure ⟨total, lastScanned, some checked.checkedThrough⟩

/-! ## The world -/

/-- What does not change during a run. -/
structure PirNet where
  /-- The Ironwood nullifiers revealed by the block at a height. -/
  spends : ℕ → List Nullifier
  /-- The activation height of Ironwood. -/
  activation : ℕ
  /-- The heights whose nullifiers the provider has. -/
  earliest : ℕ
  latest : ℕ
  /-- The tree states of a chain view. -/
  tree : ℕ → ℕ → Option ChainState
  /-- There are no Ironwood spends before its activation. -/
  activation_le : ∀ h nf, nf ∈ spends h → activation ≤ h

/-- The stored witnesses. -/
structure StoredWitnesses where
  anchorHeight : ℕ
  anchorRoot : BitVec 256
  witnesses : List PirIronwoodWitness
  deriving DecidableEq

structure PirWorld where
  /-- The heights of the scanned blocks. -/
  scanned : Finset ℕ
  notes : List PirIronwoodNote
  stored : Option StoredWitnesses
  cleared : Bool
  listed : List PirIronwoodNote
  scannedAtNotes : Finset ℕ
  scannedAtHeight : Finset ℕ
  view : Option ℕ
  deriving DecidableEq

/-- A step of the sync tasks: a block is scanned, or the wallet is rewound. The
    notes it knows change with it. -/
inductive SyncMove : PirWorld → PirWorld → Prop
  | scan (w : PirWorld) (height : ℕ) (notes : List PirIronwoodNote) :
    SyncMove w { w with scanned := Insert.insert height w.scanned, notes := notes }
  | rewind (w : PirWorld) (height : ℕ) (notes : List PirIronwoodNote) :
    SyncMove w { w with scanned := w.scanned.filter (· ≤ height), notes := notes }

/-- A nullifier the provider reports. -/
def PirNet.Reported (N : PirNet) (nf : Nullifier) : Prop :=
  ∃ h, N.earliest ≤ h ∧ h ≤ N.latest ∧ nf ∈ N.spends h

/-- The notes without a spend in a scanned block. -/
def PirNet.unspent (N : PirNet) (w : PirWorld) : List PirIronwoodNote :=
  w.notes.filter fun n => ∀ h ∈ w.scanned, n.nullifier ∉ N.spends h

/-- What the calls answer and do. A call that fails does nothing. -/
def pirContract (N : PirNet) : Contract pirSig PirWorld
  | .clearPirIronwoodWitnesses, w, .ok _, w' => w' = { w with stored := none, cleared := true }
  | .pirIronwoodNotes, w, .ok notes, w' =>
    notes = N.unspent w ∧ w' = { w with listed := notes, scannedAtNotes := w.scanned }
  | .blockFullyScanned, w, .ok last, w' =>
    (∀ f, last = some f → ∀ h ≤ f, h ∈ w.scanned) ∧ w' = { w with scannedAtHeight := w.scanned }
  | .connectSpend, w, .ok range, w' => range = (N.earliest, N.latest) ∧ w' = w
  | .isSpent nf, w, .ok spent, w' => (spent = true ↔ N.Reported nf) ∧ w' = w
  | .snapshot, w, .ok view, w' => w' = { w with view := some view }
  | .treeStateAsOf view height, w, .ok state, w' => state = N.tree view height ∧ w' = w
  | .replacePirIronwoodWitnesses anchorHeight anchorRoot witnesses, w, .ok _, w' =>
    w' = { w with stored := some ⟨anchorHeight, anchorRoot, witnesses⟩ }
  | _, w, _, w' => w' = w

/-- A note without a spend up to the provider's last height. -/
def PirNet.NeverSpent (N : PirNet) (n : PirIronwoodNote) : Prop :=
  ∀ h ≤ N.latest, n.nullifier ∉ N.spends h

/-- No block that was scanned between the two answers of the wallet, and is
    older than what the provider has, spends a listed note. -/
def QuietReads (N : PirNet) (w : PirWorld) : Prop :=
  ∀ h ∈ w.scannedAtHeight, h ∉ w.scannedAtNotes → h < N.earliest →
    ∀ n ∈ w.listed, n.nullifier ∉ N.spends h

/-! ## Checked notes -/

/-- `wpE` of a call beside the sync tasks. -/
abbrev PirHolds {α : Type} (N : PirNet) (Q : Except String α → PirWorld → Prop) (p : PirProg α)
    (w : PirWorld) : Prop :=
  wpE (pirContract N) (ReflTransGen SyncMove) (fun _ _ => True) Q p w

/-- What the sync tasks leave as it is. -/
def SyncStable (I : PirWorld → Prop) : Prop := ∀ w w', I w → ReflTransGen SyncMove w w' → I w'

theorem syncStable {I : PirWorld → Prop}
    (h : ∀ w scanned notes, I w → I { w with scanned := scanned, notes := notes }) : SyncStable I := by
  intro w w' hI hmoves
  induction hmoves with
  | refl => exact hI
  | tail _ hmove ih =>
    cases hmove with
    | scan height notes => exact h _ _ _ ih
    | rewind height notes => exact h _ _ _ ih

section Checks

variable {N : PirNet} {I : PirWorld → Prop} {w : PirWorld}

/-- The notes that the provider does not report. -/
theorem pir_unspentNotes (hstable : SyncStable I) (notes : List PirIronwoodNote) (hI : I w) :
    PirHolds N (fun r w' => I w' ∧ ∀ unspent, r = .ok unspent → ∀ n ∈ unspent,
      n ∈ notes ∧ ¬ N.Reported n.nullifier) (unspentNotes notes) w := by
  induction notes generalizing w with
  | nil =>
    refine ⟨hI, fun unspent h => ?_⟩
    cases h
    exact fun n hn => absurd hn List.not_mem_nil
  | cons note rest ih =>
    refine wpE_call_bind hstable hI rfl fun w₁ r w₂ hI₁ hC => ?_
    cases r with
    | error e =>
      obtain rfl : w₂ = w₁ := hC
      exact ⟨hI₁, fun unspent h => by cases h⟩
    | ok spent =>
      obtain ⟨hspent, rfl⟩ := hC
      show PirHolds N _ (unspentNotes rest >>= _) _
      rw [PirHolds, wpE_bind]
      refine wpE_post (ih hI₁) fun r w₃ hr => ?_
      cases r with
      | error e => exact ⟨hr.1, fun unspent h => by cases h⟩
      | ok unspent =>
        refine ⟨hr.1, fun all h n hn => ?_⟩
        have hrest := fun h => (hr.2 unspent rfl n h).imp_left (List.mem_cons_of_mem note)
        cases h
        split at hn
        · exact hrest hn
        · rename_i hnot
          rcases List.mem_cons.mp hn with rfl | hn
          · exact ⟨List.mem_cons_self, fun h => hnot (hspent.mpr h)⟩
          · exact hrest hn

/-- What a successful check says. -/
structure Checked (N : PirNet) (notes : List PirIronwoodNote) (last : ℕ) (c : PirCheck) : Prop where
  covers : N.earliest ≤ max (last + 1) N.activation
  through : c.checkedThrough = N.latest
  notes : ∀ n ∈ c.notes, n ∈ notes ∧ ¬ N.Reported n.nullifier

theorem pir_checkNotesOn (hstable : SyncStable I) (notes : List PirIronwoodNote) (last : ℕ)
    (hI : I w) : PirHolds N (fun r w' => I w' ∧ ∀ c, r = .ok c → Checked N notes last c)
      (checkNotesOn N.activation notes last) w := by
  refine wpE_call_bind hstable hI rfl fun w₁ r w₂ hI₁ hC => ?_
  obtain rfl : w₂ = w₁ := hC
  cases r with
  | error e => exact ⟨hI₁, fun c h => by cases h⟩
  | ok health =>
  show PirHolds N _ (if _ then _ else _) _
  split
  · exact ⟨hI₁, fun c h => by cases h⟩
  refine wpE_call_bind hstable hI₁ rfl fun w₃ r w₄ hI₃ hC => ?_
  cases r with
  | error e =>
    obtain rfl : w₄ = w₃ := hC
    exact ⟨hI₃, fun c h => by cases h⟩
  | ok range =>
  obtain ⟨rfl, rfl⟩ := hC
  show PirHolds N _ (if _ then _ else _) _
  split
  · exact ⟨hI₃, fun c h => by cases h⟩
  · rename_i hcovers
    rw [PirHolds, wpE_bind]
    refine wpE_post (pir_unspentNotes hstable notes hI₃) fun r w₅ hr => ?_
    cases r with
    | error e => exact ⟨hr.1, fun c h => by cases h⟩
    | ok unspent =>
      refine ⟨hr.1, fun c h => ?_⟩
      cases h
      exact ⟨not_lt.mp hcovers, rfl, hr.2 unspent rfl⟩

end Checks

/-- What the two answers of the wallet say. -/
structure Asked (N : PirNet) (notes : List PirIronwoodNote) (last : ℕ) (w : PirWorld) : Prop where
  listed : w.listed = notes
  unspent : ∀ n ∈ notes, ∀ h ∈ w.scannedAtNotes, n.nullifier ∉ N.spends h
  scanned : ∀ h ≤ last, h ∈ w.scannedAtHeight

/-- A checked note has no spend up to the provider's last height, if the
    answers of the wallet were quiet. -/
theorem neverSpent_of_checked {N : PirNet} {notes : List PirIronwoodNote} {last : ℕ}
    {w : PirWorld} {c : PirCheck} (ha : Asked N notes last w) (hq : QuietReads N w)
    (hc : Checked N notes last c) : ∀ n ∈ c.notes, N.NeverSpent n := by
  intro n hn h hle hspent
  obtain ⟨hlisted, hnot⟩ := hc.notes n hn
  -- The provider would have reported a spend that it has.
  have hlt : h < N.earliest := by
    by_contra hge
    exact hnot ⟨h, not_lt.mp hge, hle, hspent⟩
  have hact : N.activation ≤ h := N.activation_le h _ hspent
  have hlast : h ≤ last := by
    have hcovers := hc.covers
    omega
  by_cases hbefore : h ∈ w.scannedAtNotes
  · exact ha.unspent n hlisted h hbefore hspent
  · exact hq h (ha.scanned h hlast) hbefore hlt n (ha.listed ▸ hlisted) hspent

/-! ## Stored witnesses -/

/-- The stored witnesses are those of notes that are not spent, under an anchor
    that the provider has checked and with the root of the captured view. -/
def Vouched (N : PirNet) (root : Frontier → BitVec 256) (w : PirWorld) : Prop :=
  ∀ s, w.stored = some s →
    s.anchorHeight ≤ N.latest ∧
    (∃ view state, w.view = some view ∧ N.tree view s.anchorHeight = some state ∧
      s.anchorRoot = root state.finalIronwoodTree) ∧
    ∀ x ∈ s.witnesses, ∃ n ∈ w.listed, n.noteId = x.noteId ∧ n.position = x.position ∧
      n.minedHeight ≤ s.anchorHeight ∧ N.NeverSpent n

/-- What `prepare_witnesses` returns with. -/
def Prepared (N : PirNet) (root : Frontier → BitVec 256) (r : Except String Unit) (w : PirWorld) :
    Prop :=
  (r = .ok () → QuietReads N w → Vouched N root w) ∧
    ∀ e, r = .error e → w.cleared = true → w.stored = none

/-- Nothing is stored. -/
theorem prepared_none {N : PirNet} {root : Frontier → BitVec 256} {r : Except String Unit}
    {w : PirWorld} (h : w.stored = none) : Prepared N root r w := by
  refine ⟨fun _ _ s hs => ?_, fun _ _ _ => h⟩
  rw [h] at hs
  cases hs

/-- Each stored witness is that of a note. -/
theorem storedWitnesses_mem {chainRoot : BitVec 256}
    {pairs : List (PirIronwoodNote × FetchedWitness)} {witnesses : List PirIronwoodWitness}
    (h : storedWitnesses chainRoot pairs = .ok witnesses) {x : PirIronwoodWitness}
    (hx : x ∈ witnesses) :
    ∃ p ∈ pairs, p.1.noteId = x.noteId ∧ p.1.position = x.position := by
  induction pairs generalizing witnesses with
  | nil =>
    cases h
    cases hx
  | cons pair rest ih =>
    obtain ⟨note, witness⟩ := pair
    rw [storedWitnesses] at h
    split at h
    · cases h
    · cases hrest : storedWitnesses chainRoot rest with
      | error e =>
        rw [hrest] at h
        cases h
      | ok others =>
        rw [hrest] at h
        cases h
        rcases List.mem_cons.mp hx with rfl | hx
        · exact ⟨_, List.mem_cons_self, rfl, rfl⟩
        · obtain ⟨p, hp, hids⟩ := ih hrest hx
          exact ⟨p, List.mem_cons_of_mem _ hp, hids⟩

theorem stable_asked {N : PirNet} {notes : List PirIronwoodNote} {last : ℕ} :
    SyncStable fun w => Asked N notes last w ∧ w.stored = none :=
  syncStable fun _ _ _ h => ⟨⟨h.1.listed, h.1.unspent, h.1.scanned⟩, h.2⟩

theorem stable_view {N : PirNet} {notes : List PirIronwoodNote} {last view : ℕ} :
    SyncStable fun w => (Asked N notes last w ∧ w.stored = none) ∧ w.view = some view :=
  syncStable fun _ _ _ h => ⟨⟨⟨h.1.1.listed, h.1.1.unspent, h.1.1.scanned⟩, h.1.2⟩, h.2⟩

section Prepare

variable {N : PirNet} {root : Frontier → BitVec 256} {w : PirWorld}

/-- The last part of `prepare_witnesses_inner`, once the tree state is
    known. -/
theorem pir_store {notes : List PirIronwoodNote} {last view anchorHeight : ℕ} {state : ChainState}
    {checked : PirCheck} (hc : Checked N notes last checked)
    (hanchor : anchorHeight ≤ checked.checkedThrough)
    (hstate : N.tree view anchorHeight = some state)
    (hmined : ∀ n ∈ checked.notes, n.minedHeight ≤ anchorHeight)
    (hI : (Asked N notes last w ∧ w.stored = none) ∧ w.view = some view) :
    PirHolds N (Prepared N root) (do
      let fetched ← liftE id
        (Prog.call (S := pirSig) (.getWitnesses (checked.notes.map (·.position))))
      let witnesses ← ofOutcome
        (storedWitnesses (root state.finalIronwoodTree) (checked.notes.zip fetched))
      liftE id (Prog.call (S := pirSig) .handle)
      liftE id (Prog.call (S := pirSig)
        (.replacePirIronwoodWitnesses anchorHeight (root state.finalIronwoodTree) witnesses))) w := by
  refine wpE_call_bind stable_view hI rfl fun w₁ r w₂ hI₁ hC => ?_
  obtain rfl : w₂ = w₁ := hC
  cases r with
  | error e => exact prepared_none hI₁.1.2
  | ok fetched =>
  show PirHolds N _ (ofOutcome (storedWitnesses _ _) >>= _) _
  cases hw : storedWitnesses (root state.finalIronwoodTree) (checked.notes.zip fetched) with
  | error e => exact prepared_none hI₁.1.2
  | ok witnesses =>
  refine wpE_call_bind stable_view hI₁ rfl fun w₃ r w₄ hI₃ hC => ?_
  obtain rfl : w₄ = w₃ := hC
  cases r with
  | error e => exact prepared_none hI₃.1.2
  | ok _ =>
  show PirHolds N _ (liftE id _) _
  rw [PirHolds, wpE_liftE]
  intro w₅ hmoves
  obtain ⟨⟨hasked, hstored⟩, hview⟩ := stable_view _ _ hI₃ hmoves
  refine ⟨trivial, fun r w₆ hC => ?_⟩
  cases r with
  | error e =>
    obtain rfl : w₆ = w₅ := hC
    exact prepared_none hstored
  | ok _ =>
    obtain rfl : w₆ = { w₅ with
      stored := some ⟨anchorHeight, root state.finalIronwoodTree, witnesses⟩ } := hC
    refine ⟨fun _ hquiet s hs => ?_, fun e he => by cases he⟩
    cases hs
    refine ⟨hc.through ▸ hanchor, ⟨view, state, hview, hstate, rfl⟩, fun x hx => ?_⟩
    obtain ⟨p, hp, hid, hpos⟩ := storedWitnesses_mem hw hx
    have hn : p.1 ∈ checked.notes := (List.of_mem_zip hp).1
    have hlisted : p.1 ∈ w₅.listed := hasked.listed ▸ (hc.notes p.1 hn).1
    exact ⟨p.1, hlisted, hid, hpos, hmined p.1 hn,
      neverSpent_of_checked hasked hquiet hc p.1 hn⟩

theorem pir_prepareWitnessesInner {notes : List PirIronwoodNote} {last : ℕ}
    (hI : Asked N notes last w ∧ w.stored = none) :
    PirHolds N (Prepared N root) (prepareWitnessesInner root N.activation notes last) w := by
  refine wpE_call_bind stable_asked hI rfl fun w₁ r w₂ hI₁ hC => ?_
  obtain rfl : w₂ = w₁ := hC
  cases r with
  | error e => exact prepared_none hI₁.2
  | ok _ =>
  show PirHolds N _ (checkNotesOn N.activation notes last >>= _) _
  rw [PirHolds, wpE_bind]
  refine wpE_post (pir_checkNotesOn stable_asked notes last hI₁) fun r w₃ hr => ?_
  obtain ⟨hI₃, hchecked⟩ := hr
  cases r with
  | error e => exact prepared_none hI₃.2
  | ok checked =>
  have hc := hchecked checked rfl
  show PirHolds N _ (if _ then _ else _) _
  split
  · exact prepared_none hI₃.2
  split
  · exact prepared_none hI₃.2
  refine wpE_call_bind stable_asked hI₃ rfl fun w₄ r w₅ hI₄ hC => ?_
  obtain rfl : w₅ = w₄ := hC
  cases r with
  | error e => exact prepared_none hI₄.2
  | ok anchorHeight =>
  show PirHolds N _ (if _ then _ else _) _
  split
  · exact prepared_none hI₄.2
  rename_i hanchor
  split
  · exact prepared_none hI₄.2
  refine wpE_call_bind stable_asked hI₄ rfl fun w₆ r w₇ hI₆ hC => ?_
  cases r with
  | error e =>
    obtain rfl : w₇ = w₆ := hC
    exact prepared_none hI₆.2
  | ok view =>
  obtain rfl : w₇ = { w₆ with view := some view } := hC
  have hI₇ : (Asked N notes last { w₆ with view := some view } ∧
      ({ w₆ with view := some view } : PirWorld).stored = none) ∧
      ({ w₆ with view := some view } : PirWorld).view = some view :=
    ⟨⟨⟨hI₆.1.listed, hI₆.1.unspent, hI₆.1.scanned⟩, hI₆.2⟩, rfl⟩
  refine wpE_call_bind stable_view hI₇ rfl fun w₈ r w₉ hI₈ hC => ?_
  cases r with
  | error e =>
    obtain rfl : w₉ = w₈ := hC
    exact prepared_none hI₈.1.2
  | ok state =>
  obtain ⟨hstate, rfl⟩ := hC
  cases state with
  | none => exact prepared_none hI₈.1.2
  | some state =>
  show PirHolds N _ (if _ then _ else _) _
  split
  · exact prepared_none hI₈.1.2
  · rename_i hmined
    simp only [List.any_eq_true, decide_eq_true_eq, not_exists, not_and, not_lt] at hmined
    exact pir_store hc (not_lt.mp hanchor) hstate.symm hmined hI₈

theorem stable_stored : SyncStable fun w => w.stored = none :=
  syncStable fun _ _ _ h => h

theorem stable_cleared : SyncStable fun w => w.cleared = false :=
  syncStable fun _ _ _ h => h

/-- The wallet has listed `notes`. -/
def ListedNotes (N : PirNet) (notes : List PirIronwoodNote) (w : PirWorld) : Prop :=
  w.listed = notes ∧ ∀ n ∈ notes, ∀ h ∈ w.scannedAtNotes, n.nullifier ∉ N.spends h

theorem listedNotes_read {w w' : PirWorld} {notes : List PirIronwoodNote}
    (hC : pirContract N .pirIronwoodNotes w (.ok notes) w') : ListedNotes N notes w' := by
  obtain ⟨hnotes, rfl⟩ := hC
  refine ⟨rfl, fun n hn => ?_⟩
  rw [hnotes, PirNet.unspent, List.mem_filter] at hn
  simpa using hn.2

theorem stable_listed {notes : List PirIronwoodNote} :
    SyncStable fun w => ListedNotes N notes w ∧ w.stored = none :=
  syncStable fun _ _ _ h => h

theorem asked_read {w w' : PirWorld} {notes : List PirIronwoodNote} {last : ℕ}
    (hl : ListedNotes N notes w) (hC : pirContract N .blockFullyScanned w (.ok (some last)) w') :
    Asked N notes last w' := by
  obtain ⟨hscanned, rfl⟩ := hC
  exact ⟨hl.1, hl.2, hscanned last rfl⟩

theorem pir_prepareWitnesses (hcleared : w.cleared = false) :
    PirHolds N (Prepared N root) (prepareWitnesses root N.activation) w := by
  have hfail : ∀ {w : PirWorld} {e : String}, w.cleared = false → Prepared N root (.error e) w := by
    intro w e h
    refine ⟨(by cases ·), fun _ _ hc => ?_⟩
    rw [h] at hc
    cases hc
  refine wpE_call_bind stable_cleared hcleared rfl fun w₁ r w₂ hI₁ hC => ?_
  obtain rfl : w₂ = w₁ := hC
  cases r with
  | error e => exact hfail hI₁
  | ok _ =>
  refine wpE_call_bind stable_cleared hI₁ rfl fun w₃ r w₄ hI₃ hC => ?_
  cases r with
  | error e =>
    obtain rfl : w₄ = w₃ := hC
    exact hfail hI₃
  | ok _ =>
  obtain rfl : w₄ = { w₃ with stored := none, cleared := true } := hC
  refine wpE_call_bind stable_stored rfl rfl fun w₅ r w₆ hI₅ hC => ?_
  cases r with
  | error e =>
    obtain rfl : w₆ = w₅ := hC
    exact prepared_none hI₅
  | ok notes =>
  have hlisted := listedNotes_read hC
  obtain ⟨-, rfl⟩ := hC
  show PirHolds N _ (if _ then _ else _) _
  split
  · exact prepared_none hI₅
  refine wpE_call_bind stable_listed ⟨hlisted, hI₅⟩ rfl fun w₇ r w₈ hI₇ hC => ?_
  cases r with
  | error e =>
    obtain rfl : w₈ = w₇ := hC
    exact prepared_none hI₇.2
  | ok last =>
  cases last with
  | none =>
    obtain ⟨-, rfl⟩ := hC
    exact prepared_none hI₇.2
  | some last =>
    have hasked := asked_read hI₇.1 hC
    obtain ⟨-, rfl⟩ := hC
    exact pir_prepareWitnessesInner ⟨hasked, hI₇.2⟩

end Prepare

/-! ## The balance -/

/-- The notes that are counted are not spent. -/
def Counted (N : PirNet) (w : PirWorld) (checked : Option PirCheck) : Prop :=
  QuietReads N w → ∀ c, checked = some c → c.checkedThrough = N.latest ∧ ∀ n ∈ c.notes, N.NeverSpent n

theorem stable_true : SyncStable fun _ => True := fun _ _ _ _ => trivial

theorem stable_listing {N : PirNet} {notes : List PirIronwoodNote} :
    SyncStable (ListedNotes N notes) :=
  syncStable fun _ _ _ h => h

theorem stable_asking {N : PirNet} {notes : List PirIronwoodNote} {last : ℕ} :
    SyncStable (Asked N notes last) :=
  syncStable fun _ _ _ h => ⟨h.listed, h.unspent, h.scanned⟩

theorem pir_countedNotes {N : PirNet} (pir : Bool) (w : PirWorld) :
    PirHolds N (fun r w' => ∀ last checked, r = .ok (last, checked) → Counted N w' checked)
      (countedNotes N.activation pir) w := by
  refine wpE_call_bind stable_true trivial rfl fun w₁ r w₂ _ hC => ?_
  cases r with
  | error e => exact fun _ _ h => by cases h
  | ok _ =>
  refine wpE_call_bind stable_true trivial rfl fun w₃ r w₄ _ hC => ?_
  cases r with
  | error e => exact fun _ _ h => by cases h
  | ok notes =>
  refine wpE_call_bind stable_listing (listedNotes_read hC) rfl fun w₅ r w₆ hlisted hC => ?_
  cases r with
  | error e => exact fun _ _ h => by cases h
  | ok last =>
  show PirHolds N _ (if _ then _ else _) _
  split
  · intro last' checked h
    cases h
    exact fun _ c hc => by cases hc
  cases last with
  | none => exact fun _ _ h => by cases h
  | some last =>
  show PirHolds N _ (if _ then _ else _) _
  split
  · exact fun _ _ h => by cases h
  refine wpE_call_bind stable_asking (asked_read hlisted hC) rfl fun w₇ r w₈ hasked hC => ?_
  obtain rfl : w₈ = w₇ := hC
  cases r with
  | error e => exact fun _ _ h => by cases h
  | ok _ =>
  show PirHolds N _ (checkNotesOn N.activation notes last >>= _) _
  rw [PirHolds, wpE_bind]
  refine wpE_post (pir_checkNotesOn stable_asking notes last hasked) fun r w₉ hr => ?_
  cases r with
  | error e => exact fun _ _ h => by cases h
  | ok checked =>
    intro last' checked' h hquiet c hsome
    cases h
    cases hsome
    have hc := hr.2 checked rfl
    exact ⟨hc.through, neverSpent_of_checked hr.1 hquiet hc⟩

/-- The sum of the values of the counted notes. -/
theorem totalFrom_ok {total total' : ℕ} {notes : List PirIronwoodNote}
    (h : totalFrom total notes = .ok total') : total' = total + (notes.map (·.value)).sum := by
  induction notes generalizing total with
  | nil =>
    cases h
    simp
  | cons note rest ih =>
    rw [totalFrom] at h
    unfold addZatoshis at h
    split at h
    · rename_i sum hsum
      split at hsum
      · cases hsum
        rw [ih h, List.map_cons, List.sum_cons]
        omega
      · cases hsum
    · cases h

/-- The result of `calculate` for the notes it counts. -/
def Balances (res : SpendableBalance) (checked : Option PirCheck) : Prop :=
  res.balance = ((checked.elim [] (·.notes)).map (·.value)).sum ∧
    res.pirCheckedThrough = checked.map (·.checkedThrough)

theorem run_calculate {C : Contract pirSig PirWorld} {activation : ℕ} {pir : Bool}
    {w w' : PirWorld} {τ : List (Event pirSig)} {res : SpendableBalance}
    (h : Run C (calculate activation pir).run w τ (.ok res) w') :
    ∃ last checked, Run C (countedNotes activation pir).run w τ (.ok (last, checked)) w' ∧
      Balances res checked := by
  obtain ⟨τ₁, ⟨last, checked⟩, w₁, τ₂, h₁, h₂, rfl⟩ := run_bind_ok h
  refine ⟨last, checked, ?_⟩
  cases checked with
  | none =>
    obtain ⟨rfl, hres, rfl⟩ := run_pure.mp h₂
    cases hres
    exact ⟨by rwa [List.append_nil], rfl, rfl⟩
  | some checked =>
    obtain ⟨τ₃, total, w₂, τ₄, h₃, h₄, rfl⟩ := run_bind_ok h₂
    obtain ⟨rfl, htotal, rfl⟩ := run_pure.mp h₃
    obtain ⟨rfl, hres, rfl⟩ := run_pure.mp h₄
    cases hres
    have hsum := totalFrom_ok htotal.symm
    refine ⟨by simpa using h₁, ?_, rfl⟩
    rw [hsum, Nat.zero_add]
    rfl

/-- In every run in which no block that is scanned between the two answers of
    the wallet and is older than the provider's data spends a listed note:
    `prepare_witnesses` stores witnesses of unspent notes only, under a checked
    anchor with the root of the captured view, and none if it fails after the
    clear; and `calculate` counts unspent notes only. -/
theorem pir_sound (N : PirNet) (root : Frontier → BitVec 256) (pir : Bool) {w w' : PirWorld}
    {τ : List (Event pirSig)} (hcleared : w.cleared = false) (hquiet : QuietReads N w') :
    (∀ r, Run ((pirContract N).under (ReflTransGen SyncMove))
        (prepareWitnesses root N.activation).run w τ r w' →
      (r = .ok () → Vouched N root w') ∧ ∀ e, r = .error e → w'.cleared = true → w'.stored = none) ∧
    ∀ res, Run ((pirContract N).under (ReflTransGen SyncMove)) (calculate N.activation pir).run w τ
        (.ok res) w' →
      ∃ last checked, Run ((pirContract N).under (ReflTransGen SyncMove))
          (countedNotes N.activation pir).run w τ (.ok (last, checked)) w' ∧
        Balances res checked ∧
        ∀ c, checked = some c → c.checkedThrough = N.latest ∧ ∀ n ∈ c.notes, N.NeverSpent n := by
  constructor
  · intro r hrun
    have hprepared := wp_run_under (pir_prepareWitnesses hcleared) hrun
    exact ⟨fun hr => hprepared.1 hr hquiet, hprepared.2⟩
  · intro res hrun
    obtain ⟨last, checked, hcounted, hres⟩ := run_calculate hrun
    have hnever := wp_run_under (pir_countedNotes pir w) hcounted last checked rfl
    exact ⟨last, checked, hcounted, hres, hnever hquiet⟩

/-! ## A block between the two answers -/

/-- A chain whose block 5 spends the note with nullifier 7, and a provider that
    has the blocks from `earliest` to 6. -/
def spentAtFive (earliest : ℕ) : PirNet where
  spends h := if h = 5 then [7] else []
  activation := 3
  earliest := earliest
  latest := 6
  tree _ _ := none
  activation_le := by
    intro h nf hnf
    split at hnf
    · omega
    · cases hnf

/-- A wallet that has scanned the blocks below 5 and has one note. -/
def walletAtFour (nullifier : Nullifier) : PirWorld where
  scanned := {0, 1, 2, 3, 4}
  notes := [⟨1, nullifier, 0, 4, 100⟩]
  stored := none
  cleared := false
  listed := []
  scannedAtNotes := ∅
  scannedAtHeight := ∅
  view := none

/-- The provider answers, and the sync tasks scan block 5 before the wallet is
    asked for its height. -/
def scansFive (N : PirNet) : Handler pirSig PirWorld
  | .handle, w => some (.ok (), w)
  | .pirIronwoodNotes, w =>
    some (.ok (N.unspent w), { w with listed := N.unspent w, scannedAtNotes := w.scanned })
  | .blockFullyScanned, w =>
    if Finset.range 6 ⊆ Insert.insert 5 w.scanned then
      some (.ok (some 5), { w with
        scanned := Insert.insert 5 w.scanned, scannedAtHeight := Insert.insert 5 w.scanned })
    else none
  | .session, w => some (.ok (), w)
  | .health, w => some (.ok ⟨"serving", "serving"⟩, w)
  | .connectSpend, w => some (.ok (N.earliest, N.latest), w)
  | .isSpent nf, w =>
    some (.ok ((List.range (N.latest + 1)).any fun h => N.earliest ≤ h && (N.spends h).contains nf), w)
  | _, _ => none

theorem scansFive_keeps (N : PirNet) :
    (scansFive N).Keeps ((pirContract N).under (ReflTransGen SyncMove)) id := by
  intro o w r w' h
  cases o with
  | blockFullyScanned =>
    refine ⟨{ w with scanned := Insert.insert 5 w.scanned }, .single (.scan w 5 w.notes), ?_⟩
    by_cases hsub : Finset.range 6 ⊆ Insert.insert 5 w.scanned
    · have h' := (if_pos hsub).symm.trans h
      cases h'
      refine ⟨fun f hf height hle => hsub ?_, rfl⟩
      cases hf
      exact Finset.mem_range.mpr (Nat.lt_succ_of_le hle)
    · cases (if_neg hsub).symm.trans h
  | isSpent nf =>
    cases h
    refine ⟨w, .refl, ?_, rfl⟩
    simp only [List.any_eq_true, List.mem_range, Bool.and_eq_true, decide_eq_true_eq,
      List.contains_iff_mem, PirNet.Reported]
    constructor
    · rintro ⟨h, hlt, hge, hmem⟩
      exact ⟨h, hge, Nat.le_of_lt_succ hlt, hmem⟩
    · rintro ⟨h, hge, hle, hmem⟩
      exact ⟨h, Nat.lt_succ_of_le hle, hge, hmem⟩
  | handle | session | health =>
    cases h
    exact ⟨w, .refl, rfl⟩
  | pirIronwoodNotes | connectSpend =>
    cases h
    exact ⟨w, .refl, rfl, rfl⟩
  | _ => cases h

/-- The block scanned between the answers does not spend the note, which is
    counted. -/
theorem pir_sound_counts :
    ∃ τ res w', Run ((pirContract (spentAtFive 6)).under (ReflTransGen SyncMove))
      (calculate 3 true).run (walletAtFour 8) τ (.ok res) w' ∧ QuietReads (spentAtFive 6) w' ∧
      res = ⟨100, some 5, some 6⟩ ∧
      ∃ last checked, Run ((pirContract (spentAtFive 6)).under (ReflTransGen SyncMove))
          (countedNotes 3 true).run (walletAtFour 8) τ (.ok (last, checked)) w' ∧
        Balances res checked ∧ ∀ c, checked = some c → c.checkedThrough = 6 ∧
          ∀ n ∈ c.notes, (spentAtFive 6).NeverSpent n := by
  have hrun := exec_run (scansFive_keeps (spentAtFive 6)) (n := 10) (p := (calculate 3 true).run)
    (s := walletAtFour 8) (a := .ok ⟨100, some 5, some 6⟩) (by decide +kernel)
  have hquiet : QuietReads (spentAtFive 6)
      (exec (scansFive (spentAtFive 6)) 10 (calculate 3 true).run (walletAtFour 8)).2.2 := by
    unfold QuietReads
    decide +kernel
  exact ⟨_, _, _, hrun, hquiet, rfl, (pir_sound (spentAtFive 6) (fun _ => 0) true rfl hquiet).2 _ hrun⟩

/-- The block scanned between the answers spends the note, which is counted
    as unspent through height 6. -/
theorem spent_note_counted :
    (∃ τ w', Run ((pirContract (spentAtFive 6)).under (ReflTransGen SyncMove))
      (calculate 3 true).run (walletAtFour 7) τ (.ok ⟨100, some 5, some 6⟩) w') ∧
    ∃ τ c w', Run ((pirContract (spentAtFive 6)).under (ReflTransGen SyncMove))
      (countedNotes 3 true).run (walletAtFour 7) τ (.ok (some 5, some c)) w' ∧
      c.checkedThrough = 6 ∧ ∃ n ∈ c.notes, ∃ h ≤ 6, n.nullifier ∈ (spentAtFive 6).spends h := by
  have hbalance := exec_run (scansFive_keeps (spentAtFive 6)) (n := 10) (p := (calculate 3 true).run)
    (s := walletAtFour 7) (a := .ok ⟨100, some 5, some 6⟩) (by decide +kernel)
  have hrun := exec_run (scansFive_keeps (spentAtFive 6)) (n := 10) (p := (countedNotes 3 true).run)
    (s := walletAtFour 7) (a := .ok (some 5, some ⟨[⟨1, 7, 0, 4, 100⟩], 6, true⟩)) (by decide +kernel)
  exact ⟨⟨_, _, hbalance⟩, _, _, _, hrun, rfl, _, List.mem_cons_self, 5, by decide, by decide⟩

end Zallet.Rpc
