import Zallet.Sync.Machine

/-!
# Scanning blocks (`sync/steps.rs`)

The steps the sync tasks are made of. `scan_blocks` and `scan_block` read
blocks of a view, hand them to the batch decryptor, scan the results and
store them with a single `put_blocks`.

* `wpE_scanBlock`, `wpE_scanBlocks`: everything before `put_blocks` leaves
  the world alone, and the stored blocks have the heights and hashes of the
  view's blocks. The environment may move the world inside a set `I` of
  worlds that it cannot leave; for a task that runs alone `I` is one world.
* `clampToBoundary_spec`: the three ways a range relates to the boundary.
-/

namespace Zallet.Sync

open Zallet.Effect Zallet.Common Zallet.Chain Zallet.Wallet

/-- `db_data.put_*_subtree_roots(0, &roots)?`. -/
def putSubtreeRoots (pool : ShieldedPool) (roots : List CommitmentTreeRoot) : SyncM Unit :=
  liftE .Tree (Prog.call (S := syncSig) (.putSubtreeRoots pool 0 roots))

/-- `update_subtree_roots` (lines 31–67). -/
def updateSubtreeRoots : SyncM Unit := do
  let saplingRoots ← chain .getSaplingSubtreeRoots
  putSubtreeRoots .Sapling saplingRoots
  let orchardRoots ← chain .getOrchardSubtreeRoots
  putSubtreeRoots .Orchard orchardRoots
  let ironwoodRoots ← chain .getIronwoodSubtreeRoots
  putSubtreeRoots .Ironwood ironwoodRoots

/-- `index.insert(address, (account, metadata.scope()))` for the receivers of
    one account. -/
def insertReceivers (account : AccountUuid)
    (receivers : List (TransparentAddress × TransparentAddressMetadata))
    (index : TransparentAddressIndex) : TransparentAddressIndex :=
  receivers.foldl
    (fun index r => Function.update index r.1 (some (account, r.2.scope))) index

/-- The loop over the accounts in `transparent_address_index`. -/
def indexAccounts : List AccountUuid → TransparentAddressIndex → SyncM TransparentAddressIndex
  | [], index => pure index
  | account :: rest, index => do
    let receivers ← db (.getTransparentReceivers account true true)
    indexAccounts rest (insertReceivers account receivers index)

/-- `transparent_address_index` (lines 75–83). -/
def transparentAddressIndex : SyncM TransparentAddressIndex := do
  let accounts ← db .getAccountIds
  indexAccounts accounts fun _ => none

/-- `clamp_to_boundary` (lines 109–121). -/
def clampToBoundary (range : HeightRange) (shutdownHeight : Option ℕ) :
    ControlFlow ℕ (Option ℕ) :=
  let stop := shutdownHeight.elim range.stop fun h => min h range.stop
  if stop ≤ range.start then .Break stop
  else if stop < range.stop then .Continue (some stop)
  else .Continue none

/-- `BlockMetadata::from_parts` of the state before the first block. -/
def priorBlockMetadata (fromState : ChainState) : BlockMetadata where
  blockHeight := fromState.blockHeight
  blockHash := fromState.blockHash
  saplingTreeSize := some (fromState.finalSaplingTree.treeSize % 2 ^ 32)
  orchardTreeSize := some (fromState.finalOrchardTree.treeSize % 2 ^ 32)
  ironwoodTreeSize := some (fromState.finalIronwoodTree.treeSize % 2 ^ 32)

/-- The loop that queues the blocks of a stream (lines 161–168). -/
def queueBlocks : List Block → SyncM (List (ℕ × BlockReply))
  | [] => pure []
  | block :: rest => do
    let result ← perform (.queueBlock block)
    let reply ← okOr .BatchDecryptorUnavailable result
    let batch ← queueBlocks rest
    pure ((block.claimedHeight, reply) :: batch)

/-- The end of a stream: its error, if it has one. -/
def endOfStream (failure : Option ChainError) : SyncM Unit :=
  match failure with
  | some e => throw (.Chain e)
  | none => pure ()

section

variable (U : Upstream)

/-- Wait for the batch decryptor and scan one block. -/
def scanReply (height : ℕ) (reply : BlockReply) (nullifiers : Nullifiers)
    (prior : Option BlockMetadata) (addresses : TransparentAddressIndex) :
    SyncM ScannedBlock := do
  let result ← perform (.awaitBlock reply)
  let result ← okOr .BatchDecryptorUnavailable result
  ofOutcome ((U.scanBlock height result.header result.vtx result.scanningKeys nullifiers prior
    addresses).mapError scanBlockError)

/-- The loop over the batch (lines 185–205). -/
def scanBatch (addresses : TransparentAddressIndex) :
    List (ℕ × BlockReply) → Nullifiers → Option BlockMetadata → SyncM (List ScannedBlock)
  | [], _, _ => pure []
  | (height, reply) :: rest, nullifiers, prior => do
    let scanned ← scanReply U height reply nullifiers prior addresses
    let more ← scanBatch addresses rest (U.updateWith nullifiers scanned)
      (some (U.toBlockMetadata scanned))
    pure (scanned :: more)

/-- The body of `scan_blocks` once its range starts at or below the view's
    tip (lines 156–207). -/
def scanFrom (view : ChainView) (range : HeightRange) (fromState : ChainState) : SyncM Unit := do
  let stream ← chain (.streamBlocks view range)
  let batch ← queueBlocks stream.blocks
  endOfStream stream.failure
  let nullifiers ← db .unspentNullifiers
  let addresses ← transparentAddressIndex
  let scanned ← scanBatch U addresses batch nullifiers (some (priorBlockMetadata fromState))
  db (.putBlocks fromState scanned)

/-- `scan_blocks` (lines 124–223). -/
def scanBlocks (view : ChainView) (scanRange : ScanRange) (shutdownHeight : Option ℕ) :
    SyncM (ControlFlow ℕ Unit) :=
  match clampToBoundary scanRange.blockRange shutdownHeight with
  | .Break stop => pure (.Break stop)
  | .Continue boundary => do
    let range := boundary.elim scanRange.blockRange fun stop => ⟨scanRange.blockRange.start, stop⟩
    match ← chain (.treeStateAsOf view (range.start - 1)) with
    | some fromState => do
      scanFrom U view range fromState
      pure (boundary.elim (.Continue ()) .Break)
    | none => do
      let _ ← chain (.tip view)
      pure (.Continue ())

/-- `scan_block` (lines 226–291). -/
def scanBlock (view : ChainView) (block : Block) (shutdownHeight : Option ℕ) :
    SyncM (ControlFlow ℕ Unit) := do
  let height := block.claimedHeight
  if shutdownHeight.any fun h => decide (h ≤ height) then
    pure (.Break height)
  else
    let state ← chain (.treeStateAsOf view (height - 1))
    let fromState ← okOr (.Chain (.Backend
      "Programming error: tried to scan block ahead of the chain view's tip")) state
    let result ← perform (.queueBlock block)
    let reply ← okOr .BatchDecryptorUnavailable result
    let nullifiers ← db .unspentNullifiers
    let addresses ← transparentAddressIndex
    let scanned ← scanReply U height reply nullifiers (some (priorBlockMetadata fromState))
      addresses
    db (.putBlocks fromState [scanned])
    pure (.Continue ())

end

/-- How a range relates to the boundary: it is at or above it, it straddles
    it and is cut there, or it is below it. -/
theorem clampToBoundary_spec (range : HeightRange) (shutdownHeight : Option ℕ) :
    match clampToBoundary range shutdownHeight with
    | .Break stop => stop ≤ range.start ∧ (stop = range.stop ∨ shutdownHeight = some stop)
    | .Continue (some stop) => shutdownHeight = some stop ∧ range.start < stop ∧ stop < range.stop
    | .Continue none =>
      range.start < range.stop ∧ ∀ h, shutdownHeight = some h → range.stop ≤ h := by
  have hstop : ∃ stop, (shutdownHeight.elim range.stop fun h => min h range.stop) = stop ∧
      stop ≤ range.stop ∧ (stop = range.stop ∨ shutdownHeight = some stop) ∧
      ∀ h, shutdownHeight = some h → stop ≤ h := by
    cases shutdownHeight with
    | none => exact ⟨_, rfl, le_rfl, Or.inl rfl, by simp⟩
    | some h =>
      refine ⟨_, rfl, Nat.min_le_right _ _, ?_, ?_⟩
      · rcases Nat.le_total h range.stop with hle | hle
        · exact Or.inr (by simp [hle])
        · exact Or.inl (by simp [hle])
      · intro h' hh'
        rw [← Option.some.inj hh']
        exact Nat.min_le_left _ _
  obtain ⟨stop, heq, hle, hor, hmin⟩ := hstop
  unfold clampToBoundary
  rw [heq]
  by_cases h₁ : stop ≤ range.start
  · simp only [if_pos h₁]
    exact ⟨h₁, hor⟩
  · by_cases h₂ : stop < range.stop
    · simp only [if_neg h₁, if_pos h₂]
      rcases hor with hor | hor
      · omega
      · exact ⟨hor, by omega, h₂⟩
    · simp only [if_neg h₁, if_neg h₂]
      refine ⟨by omega, fun h hh => ?_⟩
      have := hmin h hh
      omega

/-! ## Specifications -/

section specs

variable {T : BlockTree BlockHash} {rely : SyncWorld → SyncWorld → Prop}
  {ok : SyncOp → SyncWorld → Prop} {I : SyncWorld → Prop} {w : SyncWorld}

theorem wpE_indexAccounts (hR : Reading rely ok I) (accounts : List AccountUuid)
    (index : TransparentAddressIndex) (hI : I w)
    {Q : Except SyncError TransparentAddressIndex → SyncWorld → Prop}
    (hQ : ∀ a w', I w' → Q (.ok a) w') (hE : ∀ e w', I w' → e.NoConflict → Q (.error e) w') :
    wpE (contract T) rely ok Q (indexAccounts accounts index) w := by
  induction accounts generalizing index w with
  | nil => exact hQ index w hI
  | cons account rest ih =>
    rw [indexAccounts, wpE_bind]
    refine wpE_db_read hR (by trivial) hI ?_ ?_
    · intro receivers w' hI' _
      exact ih _ hI'
    · intro e w' hI' he
      exact hE _ w' hI' (noConflict_of_fails (by simp) he)

theorem wpE_transparentAddressIndex (hR : Reading rely ok I) (hI : I w)
    {Q : Except SyncError TransparentAddressIndex → SyncWorld → Prop}
    (hQ : ∀ a w', I w' → Q (.ok a) w') (hE : ∀ e w', I w' → e.NoConflict → Q (.error e) w') :
    wpE (contract T) rely ok Q transparentAddressIndex w := by
  unfold transparentAddressIndex
  rw [wpE_bind]
  refine wpE_db_read hR (by trivial) hI ?_ ?_
  · intro accounts w' hI' _
    exact wpE_indexAccounts hR accounts _ hI' hQ hE
  · intro e w' hI' he
    exact hE _ w' hI' (noConflict_of_fails (by simp) he)

/-- What both scans read of the wallet before they scan. -/
theorem wpE_scanInputs (hR : Reading rely ok I) (hI : I w) {α : Type}
    {f : Nullifiers → TransparentAddressIndex → SyncM α}
    {Q : Except SyncError α → SyncWorld → Prop}
    (hQ : ∀ nullifiers addresses w', I w' →
      wpE (contract T) rely ok Q (f nullifiers addresses) w')
    (hE : ∀ e w', I w' → e.NoConflict → Q (.error e) w') :
    wpE (contract T) rely ok Q (do
      let nullifiers ← db .unspentNullifiers
      let addresses ← transparentAddressIndex
      f nullifiers addresses) w := by
  rw [wpE_bind]
  refine wpE_db_read hR (by trivial) hI ?_ ?_
  · intro nullifiers w₁ hI₁ _
    rw [andThen_ok, wpE_bind]
    refine wpE_transparentAddressIndex hR hI₁ ?_ hE
    intro addresses w₂ hI₂
    exact hQ nullifiers addresses w₂ hI₂
  · intro e w₁ hI₁ he
    exact hE _ w₁ hI₁ (noConflict_of_fails (by simp) he)

theorem SyncError.noConflict_batch : SyncError.NoConflict .BatchDecryptorUnavailable := by
  intro height h
  cases h

theorem wpE_queueBlock (hR : Reading rely ok I) (block : Block) (hI : I w)
    {Q : Except SyncError (Option BlockReply) → SyncWorld → Prop}
    (hQ : ∀ w', I w' → Q (.ok (some ⟨block⟩)) w') (hN : ∀ w', I w' → Q (.ok none) w') :
    wpE (contract T) rely ok Q (perform (.queueBlock block)) w := by
  refine wpE_perform_read hR (by trivial) hI ?_
  intro r w' hI' hr
  cases r with
  | none => exact hN w' hI'
  | some reply =>
    obtain rfl : reply.block = block := hr.1 reply rfl
    exact hQ w' hI'

/-- Every block of the stream is queued, in order. -/
theorem wpE_queueBlocks (hR : Reading rely ok I) (blocks : List Block) (hI : I w)
    {Q : Except SyncError (List (ℕ × BlockReply)) → SyncWorld → Prop}
    (hQ : ∀ w', I w' → Q (.ok (blocks.map fun b => (b.claimedHeight, ⟨b⟩))) w')
    (hE : ∀ e w', I w' → e.NoConflict → Q (.error e) w') :
    wpE (contract T) rely ok Q (queueBlocks blocks) w := by
  induction blocks generalizing w Q with
  | nil => exact hQ w hI
  | cons block rest ih =>
    rw [queueBlocks, wpE_bind]
    refine wpE_queueBlock hR block hI ?_ ?_
    · intro w₁ hI₁
      rw [andThen_ok, wpE_bind]
      show wpE (contract T) rely ok Q (queueBlocks rest >>= _) w₁
      rw [wpE_bind]
      refine ih hI₁ ?_ ?_
      · intro w₂ hI₂
        exact hQ w₂ hI₂
      · intro e w₂ hI₂ he
        exact hE e w₂ hI₂ he
    · intro w₁ hI₁
      exact hE _ w₁ hI₁ SyncError.noConflict_batch

variable (U : Upstream)

/-- A scanned block has the height and the hash of the queued block. -/
theorem wpE_scanReply (hR : Reading rely ok I) (height : ℕ) (reply : BlockReply)
    (nullifiers : Nullifiers) (prior : Option BlockMetadata) (addresses : TransparentAddressIndex)
    (hI : I w) {Q : Except SyncError ScannedBlock → SyncWorld → Prop}
    (hQ : ∀ scanned w', I w' → scanned.height = height →
      scanned.hash = reply.block.header.hash → Q (.ok scanned) w')
    (hE : ∀ e w', I w' → e.NoConflict → Q (.error e) w') :
    wpE (contract T) rely ok Q (scanReply U height reply nullifiers prior addresses) w := by
  unfold scanReply
  rw [wpE_bind]
  refine wpE_perform_read hR (by trivial) hI ?_
  intro r w' hI' hr
  rw [andThen_ok, wpE_bind]
  cases r with
  | none => exact hE _ w' hI' SyncError.noConflict_batch
  | some result =>
    show Q _ w'
    cases hs : U.scanBlock height result.header result.vtx result.scanningKeys nullifiers prior
        addresses with
    | error e =>
      refine hE _ w' hI' ?_
      intro h he
      cases e with
      | Scan e => cases he
      | other text => cases he
    | ok scanned =>
      obtain ⟨hh, hhash⟩ := U.scanBlock_ok _ _ _ _ _ _ _ _ hs
      have hheader : result.header = reply.block.header := hr.1 result rfl
      rw [hheader] at hhash
      exact hQ scanned w' hI' hh hhash

theorem wpE_scanBatch (hR : Reading rely ok I) (addresses : TransparentAddressIndex)
    (blocks : List Block) (nullifiers : Nullifiers) (prior : Option BlockMetadata) (hI : I w)
    {Q : Except SyncError (List ScannedBlock) → SyncWorld → Prop}
    (hQ : ∀ (scanned : List ScannedBlock) w', I w' →
      scanned.map (fun s => (s.height, s.hash)) =
        blocks.map (fun b => (b.claimedHeight, b.header.hash)) → Q (.ok scanned) w')
    (hE : ∀ e w', I w' → e.NoConflict → Q (.error e) w') :
    wpE (contract T) rely ok Q
      (scanBatch U addresses (blocks.map fun b => (b.claimedHeight, ⟨b⟩)) nullifiers prior) w := by
  induction blocks generalizing nullifiers prior w Q with
  | nil => exact hQ [] w hI rfl
  | cons block rest ih =>
    rw [List.map_cons, scanBatch, wpE_bind]
    refine wpE_scanReply U hR _ _ _ _ _ hI ?_ ?_
    · intro scanned w₁ hI₁ hh hhash
      rw [andThen_ok, wpE_bind]
      refine ih _ _ hI₁ ?_ ?_
      · intro more w₂ hI₂ hmore
        refine hQ (scanned :: more) w₂ hI₂ ?_
        rw [List.map_cons, List.map_cons, hmore, hh, hhash]
      · intro e w₂ hI₂ he
        exact hE e w₂ hI₂ he
    · intro e w₁ hI₁ he
      exact hE e w₁ hI₁ he

/-- What happens at the `put_blocks` of a scan, and after it. -/
def AtPut (T : BlockTree BlockHash) (ok : SyncOp → SyncWorld → Prop)
    (Q : Except SyncError Unit → SyncWorld → Prop) (fromState : ChainState)
    (scanned : List ScannedBlock) (w : SyncWorld) : Prop :=
  ok (.db (.putBlocks fromState scanned)) w ∧
    ∀ r w', contract T (.db (.putBlocks fromState scanned)) w r w' → Q (r.mapError .Other) w'

theorem wpE_putBlocks (hR : Reading rely ok I) (hI : I w) {fromState : ChainState}
    {scanned : List ScannedBlock} {Q : Except SyncError Unit → SyncWorld → Prop}
    (h : ∀ w', I w' → AtPut T ok Q fromState scanned w') :
    wpE (contract T) rely ok Q (db (.putBlocks fromState scanned)) w := by
  refine wpE_db.mpr fun w₁ hw => ?_
  exact h w₁ (hR.stable w w₁ hI hw)

/-- Storing one block: its hash is recorded at its height, or another hash is
    already there, or the call fails for another reason. -/
theorem AtPut.single {fromState : ChainState} {scanned : ScannedBlock}
    {Q : Except SyncError Unit → SyncWorld → Prop}
    (hok : ok (.db (.putBlocks fromState [scanned])) w)
    (hput : ∀ d : WalletDb, (∀ k, d.blocks k = if k = scanned.height then some scanned.hash
      else w.db.blocks k) → Q (.ok ()) { w with db := d })
    (hconflict : Q (.error (.Other (.BlockConflict scanned.height))) w)
    (hE : ∀ e, SyncError.NoConflict (.Other e) → Q (.error (.Other e)) w) :
    AtPut T ok Q fromState [scanned] w := by
  refine ⟨hok, ?_⟩
  rintro r w' ⟨db', ha, rfl⟩
  cases r with
  | ok a =>
    obtain ⟨-, checkpoints, rfl⟩ := ha
    exact hput _ fun k => WalletDb.put_singleton_blocks w.db scanned k
  | error e =>
    obtain ⟨hf, rfl⟩ := ha
    by_cases hc : ∃ height, e = .BlockConflict height
    · obtain ⟨height, rfl⟩ := hc
      obtain ⟨fromState', blocks, ho, b, hb, hheight, -⟩ := hf
      cases ho
      rw [List.mem_singleton] at hb
      rw [← hheight, hb]
      exact hconflict
    · refine hE e ?_
      intro height he
      cases he
      exact hc ⟨height, rfl⟩

/-- `scanFrom` stores exactly the view's blocks in the range, up to the
    tip. -/
theorem wpE_scanFrom (hR : Reading rely ok I) (view : ChainView) (range : HeightRange)
    (fromState : ChainState) (hI : I w) {Q : Except SyncError Unit → SyncWorld → Prop}
    (hput : ∀ (scanned : List ScannedBlock) w', I w' →
      scanned.map (fun s => (s.height, s.hash)) =
        view.ids T range.start (min range.stop (view.tip.height + 1)) →
      AtPut T ok Q fromState scanned w')
    (hE : ∀ e w', I w' → e.NoConflict → Q (.error e) w') :
    wpE (contract T) rely ok Q (scanFrom U view range fromState) w := by
  unfold scanFrom
  rw [wpE_bind]
  refine wpE_chain_read hR (by trivial) hI ?_ ?_
  · intro stream w₁ hI₁ hstream
    rw [andThen_ok, wpE_bind]
    refine wpE_queueBlocks hR _ hI₁ ?_ hE
    intro w₂ hI₂
    rw [andThen_ok, wpE_bind]
    cases hf : stream.failure with
    | some e => exact hE _ w₂ hI₂ (SyncError.noConflict_chain e)
    | none =>
      have hs : Streams T view (min range.stop (view.tip.height + 1)) range.start stream.blocks
          stream.failure := hstream
      rw [hf] at hs
      refine wpE_scanInputs hR hI₂ ?_ hE
      intro nullifiers addresses w₃ hI₃
      rw [wpE_bind]
      refine wpE_scanBatch U hR _ _ _ _ hI₃ ?_ hE
      intro scanned w₄ hI₄ hids
      rw [andThen_ok]
      refine wpE_putBlocks hR hI₄ fun w₅ hI₅ => ?_
      exact hput scanned w₅ hI₅ (hids.trans hs.ids_eq)
  · intro e w₁ hI₁
    exact hE _ w₁ hI₁ (SyncError.noConflict_chain e)

/-- `scan_blocks` stops at once, finds its range beyond the tip, or stores the
    view's blocks in the clamped range. -/
theorem wpE_scanBlocks (hR : Reading rely ok I) (view : ChainView) (scanRange : ScanRange)
    (shutdownHeight : Option ℕ) (hI : I w)
    {Q : Except SyncError (ControlFlow ℕ Unit) → SyncWorld → Prop}
    (hbreak : ∀ stop, clampToBoundary scanRange.blockRange shutdownHeight = .Break stop →
      Q (.ok (.Break stop)) w)
    (hskip : ∀ w', I w' → Q (.ok (.Continue ())) w')
    (hput : ∀ boundary fromState (scanned : List ScannedBlock) w', I w' →
      clampToBoundary scanRange.blockRange shutdownHeight = .Continue boundary →
      scanned.map (fun s => (s.height, s.hash)) =
        view.ids T scanRange.blockRange.start
          (min (boundary.getD scanRange.blockRange.stop) (view.tip.height + 1)) →
      AtPut T ok (andThen Q fun _ => Q (.ok (boundary.elim (.Continue ()) .Break))) fromState
        scanned w')
    (hE : ∀ e w', I w' → e.NoConflict → Q (.error e) w') :
    wpE (contract T) rely ok Q (scanBlocks U view scanRange shutdownHeight) w := by
  unfold scanBlocks
  cases hc : clampToBoundary scanRange.blockRange shutdownHeight with
  | Break stop => exact hbreak stop hc
  | Continue boundary =>
    simp only
    rw [wpE_bind]
    refine wpE_chain_read hR (by trivial) hI ?_ ?_
    · intro state w₁ hI₁ _
      rw [andThen_ok]
      cases state with
      | none =>
        rw [wpE_bind]
        refine wpE_chain_read hR (by trivial) hI₁ ?_ ?_
        · intro tip w₂ hI₂ _
          exact hskip w₂ hI₂
        · intro e w₂ hI₂
          exact hE _ w₂ hI₂ (SyncError.noConflict_chain e)
      | some fromState =>
        rw [wpE_bind]
        refine wpE_scanFrom U hR view _ fromState hI₁ ?_ hE
        intro scanned w₂ hI₂ hids
        refine hput boundary fromState scanned w₂ hI₂ hc ?_
        rw [hids]
        cases boundary <;> rfl
    · intro e w₁ hI₁
      exact hE _ w₁ hI₁ (SyncError.noConflict_chain e)

/-- `scan_block` stops at the boundary or stores the block. -/
theorem wpE_scanBlock (hR : Reading rely ok I) (view : ChainView) (block : Block)
    (shutdownHeight : Option ℕ) (hI : I w)
    {Q : Except SyncError (ControlFlow ℕ Unit) → SyncWorld → Prop}
    (hbreak : ∀ h, shutdownHeight = some h → h ≤ block.claimedHeight →
      Q (.ok (.Break block.claimedHeight)) w)
    (hput : ∀ fromState (scanned : ScannedBlock) w', I w' →
      (∀ h, shutdownHeight = some h → block.claimedHeight < h) →
      scanned.height = block.claimedHeight → scanned.hash = block.header.hash →
      AtPut T ok (andThen Q fun _ => Q (.ok (.Continue ()))) fromState [scanned] w')
    (hE : ∀ e w', I w' → e.NoConflict → Q (.error e) w') :
    wpE (contract T) rely ok Q (scanBlock U view block shutdownHeight) w := by
  unfold scanBlock
  simp only
  by_cases hs : (shutdownHeight.any fun h => decide (h ≤ block.claimedHeight)) = true
  · rw [if_pos hs]
    obtain ⟨h, hh, hle⟩ := (Option.any_eq_true _ _).mp hs
    exact hbreak h hh (of_decide_eq_true hle)
  · rw [if_neg hs]
    have hlt : ∀ h, shutdownHeight = some h → block.claimedHeight < h := by
      intro h hh
      by_contra hle
      apply hs
      rw [hh]
      simpa using hle
    rw [wpE_bind]
    refine wpE_chain_read hR (by trivial) hI ?_ ?_
    · intro state w₁ hI₁ _
      rw [andThen_ok, wpE_bind]
      cases state with
      | none => exact hE _ w₁ hI₁ (SyncError.noConflict_chain _)
      | some fromState =>
        show wpE (contract T) rely ok Q (perform (.queueBlock block) >>= _) w₁
        rw [wpE_bind]
        refine wpE_queueBlock hR block hI₁ ?_ ?_
        · intro w₂ hI₂
          refine wpE_scanInputs hR hI₂ ?_ hE
          intro nullifiers addresses w₃ hI₃
          rw [wpE_bind]
          refine wpE_scanReply U hR _ _ _ _ _ hI₃ ?_ hE
          intro scanned w₄ hI₄ hh hhash
          rw [andThen_ok, wpE_bind]
          refine wpE_putBlocks hR hI₄ fun w₅ hI₅ => ?_
          exact hput fromState scanned w₅ hI₅ hlt hh hhash
        · intro w₂ hI₂
          exact hE _ w₂ hI₂ SyncError.noConflict_batch
    · intro e w₁ hI₁
      exact hE _ w₁ hI₁ (SyncError.noConflict_chain e)

end specs

/-! ## Bounds -/

/-- Bounds that allow reading, with every error that is not a stale view, and
    a stale view only if a read reports one. -/
structure Lookups (B : Bounds syncSig SyncError) : Prop where
  reads : ∀ o : SyncOp, o.Reads → B.ops o
  chainError : ∀ o e, B.answers (.chain o) (.error e) → B.errors (.Chain e)
  otherError : ∀ e, isRetryable e = false → B.errors e

/-- Bounds that allow scanning: reads and `put_blocks`. -/
structure Scanning (B : Bounds syncSig SyncError) : Prop extends Lookups B where
  puts : ∀ fromState blocks, B.ops (.db (.putBlocks fromState blocks))
  streamError : ∀ view range (stream : BlockStream) e,
    B.answers (.chain (.streamBlocks view range)) (.ok stream) → stream.failure = some e →
      B.errors (.Chain e)

theorem scanning_staleOnly : Scanning staleOnly where
  reads _ _ := trivial
  puts _ _ := trivial
  chainError o e h := by
    cases e with
    | Unavailable source => exact absurd (by unfold SyncOp.Stale ChainOp.Stale; trivial) h
    | _ => rfl
  streamError view range stream e h hf := by
    cases e with
    | Unavailable source => exact absurd ⟨source, hf⟩ h
    | _ => rfl
  otherError _ h := h

section within

variable {B : Bounds syncSig SyncError} (U : Upstream)

section lookups

variable (hB : Lookups B)

include hB

theorem Lookups.db {o : DbOp} (ho : (SyncOp.db o).Reads) : Within B (db o) :=
  within_db (hB.reads _ ho) fun _ => hB.otherError _ rfl

theorem Lookups.chain {o : ChainOp} (ho : (SyncOp.chain o).Reads) : Within B (chain o) :=
  within_chain (hB.reads _ ho) fun e => hB.chainError o e

theorem within_updateSubtreeRoots
    (hroots : ∀ pool startIndex roots, B.ops (.putSubtreeRoots pool startIndex roots)) :
    Within B updateSubtreeRoots := by
  have hput : ∀ pool roots, Within B (putSubtreeRoots pool roots) := by
    intro pool roots
    unfold Within putSubtreeRoots
    rw [wpE_liftE]
    intro _ _
    refine ⟨hroots _ _ _, fun r _ _ e he => ?_⟩
    cases r with
    | ok a => cases he
    | error e' =>
      cases he
      exact hB.otherError _ rfl
  unfold updateSubtreeRoots
  refine (hB.chain (by trivial)).bind fun saplingRoots => (hput _ _).bind fun _ => ?_
  refine (hB.chain (by trivial)).bind fun orchardRoots => (hput _ _).bind fun _ => ?_
  exact (hB.chain (by trivial)).bind fun ironwoodRoots => hput _ _

theorem within_transparentAddressIndex : Within B transparentAddressIndex := by
  have hloop : ∀ accounts index, Within B (indexAccounts accounts index) := by
    intro accounts
    induction accounts with
    | nil => exact fun index => Within.pure index
    | cons account rest ih =>
      intro index
      rw [indexAccounts]
      exact (hB.db (by trivial)).bind fun receivers => ih _
  unfold transparentAddressIndex
  exact (hB.db (by trivial)).bind fun accounts => hloop accounts _

theorem within_queueBlocks (blocks : List Block) : Within B (queueBlocks blocks) := by
  induction blocks with
  | nil => exact Within.pure []
  | cons block rest ih =>
    rw [queueBlocks]
    refine (within_perform (hB.reads _ (by trivial))).bind fun r => ?_
    refine (within_okOr (hB.otherError _ rfl) _).bind fun reply => ?_
    exact ih.bind fun batch => Within.pure _

theorem within_scanReply (height : ℕ) (reply : BlockReply) (nullifiers : Nullifiers)
    (prior : Option BlockMetadata) (addresses : TransparentAddressIndex) :
    Within B (scanReply U height reply nullifiers prior addresses) := by
  unfold scanReply
  refine (within_perform (hB.reads _ (by trivial))).bind fun r => ?_
  refine (within_okOr (hB.otherError _ rfl) _).bind fun result => ?_
  intro e he
  have hs : isRetryable e = false := by
    cases hr : U.scanBlock height result.header result.vtx result.scanningKeys nullifiers prior
        addresses with
    | ok scanned =>
      rw [hr] at he
      cases he
    | error e' =>
      rw [hr] at he
      cases he
      cases e' <;> rfl
  exact hB.otherError e hs

theorem within_scanBatch (addresses : TransparentAddressIndex) (batch : List (ℕ × BlockReply))
    (nullifiers : Nullifiers) (prior : Option BlockMetadata) :
    Within B (scanBatch U addresses batch nullifiers prior) := by
  induction batch generalizing nullifiers prior with
  | nil => exact Within.pure []
  | cons entry rest ih =>
    obtain ⟨height, reply⟩ := entry
    rw [scanBatch]
    refine (within_scanReply U hB _ _ _ _ _).bind fun scanned => ?_
    exact (ih _ _).bind fun more => Within.pure _

end lookups

section scanning

variable (hB : Scanning B)

include hB

theorem within_putBlocks (fromState : ChainState) (scanned : List ScannedBlock) :
    Within B (db (.putBlocks fromState scanned)) :=
  within_db (hB.puts _ _) fun _ => hB.otherError _ rfl

theorem within_scanBlocks (view : ChainView) (scanRange : ScanRange) (shutdownHeight : Option ℕ) :
    Within B (scanBlocks U view scanRange shutdownHeight) := by
  have hfrom : ∀ range fromState, Within B (scanFrom U view range fromState) := by
    intro range fromState
    unfold scanFrom
    refine within_chain_bind (hB.reads _ (by trivial)) (hB.chainError _) fun stream hstream => ?_
    refine (within_queueBlocks hB.toLookups _).bind fun batch => ?_
    refine Within.bind ?_ fun _ => ?_
    · cases hf : stream.failure with
      | none => exact Within.pure ()
      | some e => exact Within.throw (hB.streamError view range stream e hstream hf)
    · refine (hB.db (by trivial)).bind fun nullifiers => ?_
      refine (within_transparentAddressIndex hB.toLookups).bind fun addresses => ?_
      refine (within_scanBatch U hB.toLookups _ _ _ _).bind fun scanned => ?_
      exact within_putBlocks hB _ _
  unfold scanBlocks
  split
  · exact Within.pure _
  · refine (hB.chain (by trivial)).bind fun state => ?_
    cases state with
    | none => exact (hB.chain (by trivial)).bind fun _ => Within.pure _
    | some fromState => exact (hfrom _ _).bind fun _ => Within.pure _

theorem within_scanBlock (view : ChainView) (block : Block) (shutdownHeight : Option ℕ) :
    Within B (scanBlock U view block shutdownHeight) := by
  unfold scanBlock
  simp only
  split
  · exact Within.pure _
  · refine (hB.chain (by trivial)).bind fun state => ?_
    refine (within_okOr (hB.otherError _ rfl) _).bind fun fromState => ?_
    refine (within_perform (hB.reads _ (by trivial))).bind fun r => ?_
    refine (within_okOr (hB.otherError _ rfl) _).bind fun reply => ?_
    refine (hB.db (by trivial)).bind fun nullifiers => ?_
    refine (within_transparentAddressIndex hB.toLookups).bind fun addresses => ?_
    refine (within_scanReply U hB.toLookups _ _ _ _ _).bind fun scanned => ?_
    exact (within_putBlocks hB _ _).bind fun _ => Within.pure _

end scanning

end within

end Zallet.Sync
