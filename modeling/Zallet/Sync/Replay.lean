import Zallet.Sync.Machine

/-!
# A backend and a wallet database that can be run

`Script.replay` is a deterministic implementation of the operations: a chain
backend that serves views of a block tree, a wallet database, and a batch
decryptor that finds nothing. A script fixes what the contract leaves open:
the snapshots the backend serves, which of its reads fail, and what the
database suggests to scan.

`Script.replay_keeps` says that it keeps the contract, so executing a task on
it gives a run of that task.
-/

namespace Zallet.Sync

open Zallet.Effect Zallet.Common Zallet.Chain Zallet.Wallet

/-! ## The script -/

/-- What the contract leaves open. -/
structure Script where
  tree : BlockTree BlockHash
  /-- The reads that fail. -/
  chainFault : ChainOp → Option ChainError
  /-- The database calls that fail. -/
  dbFault : DbOp → Option SqliteClientError
  suggestions : List ScanRange
  requests : List TransactionDataRequest

/-- Nothing fails and there is nothing to scan. -/
def Script.quiet (tree : BlockTree BlockHash) : Script where
  tree := tree
  chainFault _ := none
  dbFault _ := none
  suggestions := []
  requests := []

/-- The world, and the snapshots still to be served. -/
structure Replay where
  world : SyncWorld
  snapshots : List (Except ChainError ChainView)

namespace Script

variable (s : Script)

/-- The block of `view` at `height`. -/
def block (view : ChainView) (height : ℕ) : Block :=
  ⟨height, ⟨view.hashAt s.tree height⟩, []⟩

/-- The blocks of `view` from `start` up to `stop`. -/
def blocks (view : ChainView) (start stop : ℕ) : BlockStream :=
  ⟨(List.range' start (stop - start)).map (s.block view), none⟩

/-- The answer to a read; `snapshot` is served from the list of snapshots. -/
def chainAnswer : (o : ChainOp) → Option o.Out
  | .snapshot => none
  | .getSaplingSubtreeRoots => some []
  | .getOrchardSubtreeRoots => some []
  | .getIronwoodSubtreeRoots => some []
  | .tip view => some view.tip
  | .findForkPoint view locator => some (view.forkPoint s.tree locator)
  | .treeStateAsOf view height => some
    (if height ≤ view.tip.height then
      some ⟨height, view.hashAt s.tree height, ⟨[], 0⟩, ⟨[], 0⟩, ⟨[], 0⟩⟩ else none)
  | .getBlockHeader view height => some
    (if height ≤ view.tip.height then some ⟨view.hashAt s.tree height⟩ else none)
  | .getBlock view height => some
    (if height ≤ view.tip.height then some (s.block view height) else none)
  | .streamBlocksToTip view start => some (s.blocks view start (view.tip.height + 1))
  | .streamBlocks view range => some
    (s.blocks view range.start (min range.stop (view.tip.height + 1)))
  | .getMempoolStream _ => some none
  | .getTransaction _ _ => some none
  | .getTransactionStatus _ _ => some .TxidNotRecognized
  | .outpointSpendStatus _ _ => some .Unspent
  | .getAddressUnspentOutpoints _ _ => some []
  | .getAddressTxIds _ _ _ => some []

/-- The metadata of the block recorded at `height`. -/
def metadata (d : WalletDb) (height : ℕ) : Option BlockMetadata :=
  (d.blocks height).map fun hash => ⟨height, hash, none, none, none⟩

/-- The answer of the database, and the database afterwards. Scanning a block
    adds a checkpoint at its height. -/
def dbAnswer (d : WalletDb) : (o : DbOp) → Except SqliteClientError o.Out × WalletDb
  | .getWalletBirthday => (.ok d.birthday, d)
  | .getBlockHash height => (.ok (d.blocks height), d)
  | .blockMetadata height => (.ok (metadata d height), d)
  | .blockFullyScanned => (.ok (d.checkpoints.max?.bind (metadata d)), d)
  | .suggestScanRanges => (.ok s.suggestions, d)
  | .unspentNullifiers => (.ok ⟨[]⟩, d)
  | .getAccountIds => (.ok [], d)
  | .getTransparentReceivers _ _ _ => (.ok [], d)
  | .getSpendableTransparentOutputs _ _ => (.ok [], d)
  | .transactionDataRequests => (.ok s.requests, d)
  | .updateChainTip _ => (.ok (), d)
  | .truncateToHeight height =>
    match (d.checkpoints.filter (· ≤ height)).max? with
    | some landed => (.ok landed, d.truncate landed)
    | none => (.error (.RequestedRewindInvalid d.checkpoints.min? height), d)
  | .putBlocks _ blocks =>
    match blocks.find? fun b => (d.blocks b.height).any (· ≠ b.hash) with
    | some b => (.error (.BlockConflict b.height), d)
    | none => (.ok (), { d.put blocks with checkpoints := d.checkpoints ++ blocks.map (·.height) })
  | .decryptAndStoreTransaction _ _ => (.ok (), d)
  | .setTransactionStatus _ _ => (.ok (), d)
  | .notifyAddressChecked _ _ => (.ok (), d)
  | .notifyOutputVerifiedUnspent _ _ => (.ok (), d)

/-- The faults that any call may report. -/
def generic : SqliteClientError → Bool
  | .BlockConflict _ => false
  | .RequestedRewindInvalid _ _ => false
  | _ => true

/-- The answer to every operation. An operation without an answer stops the
    execution. -/
def replay : Handler syncSig Replay
  | .chain o, σ =>
    match o with
    | .snapshot =>
      match σ.snapshots with
      | [] => none
      | .error e :: rest => some (.error e, { σ with snapshots := rest })
      | .ok view :: rest =>
        if s.tree.height view.tip.hash = view.tip.height then
          some (.ok view, { σ with snapshots := rest }) else none
    | o =>
      match s.chainFault o with
      | some e => some (.error e, σ)
      | none => (s.chainAnswer o).map fun a => (.ok a, σ)
  | .db o, σ =>
    match s.dbFault o with
    | some e => if generic e then some (.error e, σ) else none
    | none =>
      let answer := s.dbAnswer σ.world.db o
      some (answer.1, { σ with world := { σ.world with db := answer.2 } })
  | .putSubtreeRoots _ _ _, σ => some (.ok (), σ)
  | .queueBlock block, σ => some (some ⟨block⟩, σ)
  | .awaitBlock reply, σ => some (some ⟨⟨[]⟩, reply.block.header, []⟩, σ)
  | .status o, σ =>
    some ((), { σ with world := { σ.world with signals := o.apply σ.world.signals } })
  | .getPrevTip, σ => some (σ.world.prevTip, σ)
  | .setPrevTip block, σ => some ((), { σ with world := { σ.world with prevTip := block } })
  | .loadBoundary, σ => some (σ.world.boundary, σ)
  | .updateBoundary tipHeight, σ =>
    some ((), { σ with world :=
      { σ.world with boundary := updateBoundary σ.world.boundary tipHeight } })
  | .notifyOne, σ => some ((), σ)
  | .notified, σ => some ((), σ)
  | .sleep _, σ => some ((), σ)
  | .tick, σ => some ((), σ)
  | .yieldNow, σ => some ((), σ)
  | .panic _, _ => none

/-! ## The contract is kept -/

theorem streams_blocks (view : ChainView) (start n stop : ℕ)
    (h : start + n = stop ∨ n = 0 ∧ stop ≤ start) :
    Streams s.tree view stop start ((List.range' start n).map (s.block view)) none := by
  induction n generalizing start with
  | zero =>
    show stop ≤ start
    omega
  | succ n ih =>
    have hn : start + (n + 1) = stop := by omega
    refine ⟨by omega, rfl, rfl, ?_⟩
    exact ih (start + 1) (Or.inl (by omega))

theorem chainAnswer_serves {o : ChainOp} {a : o.Out} (h : s.chainAnswer o = some a) :
    o.Serves s.tree a := by
  cases o with
  | snapshot => cases h
  | tip view => exact (Option.some.inj h).symm
  | findForkPoint view locator => exact (Option.some.inj h).symm
  | treeStateAsOf view height =>
    rw [← Option.some.inj h]
    by_cases hh : height ≤ view.tip.height
    · simp [ChainOp.Serves, hh]
    · rw [if_neg hh]
      show view.tip.height < height
      omega
  | getBlockHeader view height =>
    rw [← Option.some.inj h]
    by_cases hh : height ≤ view.tip.height
    · simp [ChainOp.Serves, hh]
    · rw [if_neg hh]
      show view.tip.height < height
      omega
  | getBlock view height =>
    rw [← Option.some.inj h]
    by_cases hh : height ≤ view.tip.height
    · simp [ChainOp.Serves, hh, block]
    · rw [if_neg hh]
      show view.tip.height < height
      omega
  | streamBlocksToTip view start =>
    rw [← Option.some.inj h]
    exact s.streams_blocks view start _ _ (by omega)
  | streamBlocks view range =>
    rw [← Option.some.inj h]
    exact s.streams_blocks view range.start _ _ (by omega)
  | _ => trivial

theorem truncateToHeight_acts (d : WalletDb) (height : ℕ) :
    (DbOp.truncateToHeight height).Acts d (s.dbAnswer d (.truncateToHeight height)).1
      (s.dbAnswer d (.truncateToHeight height)).2 := by
  cases hm : (d.checkpoints.filter (· ≤ height)).max? with
  | some landed =>
    obtain ⟨hmem, hmax⟩ := List.max?_eq_some_iff.mp hm
    rw [List.mem_filter, decide_eq_true_eq] at hmem
    have hr : d.IsRewind height landed := by
      refine ⟨hmem.1, hmem.2, fun c hc hle => ?_⟩
      exact hmax c (List.mem_filter.mpr ⟨hc, by simpa using hle⟩)
    simp only [dbAnswer, hm]
    exact ⟨hr, rfl⟩
  | none =>
    rw [List.max?_eq_none_iff, List.filter_eq_nil_iff] at hm
    have hnone : ∀ c ∈ d.checkpoints, height < c := by
      intro c hc
      have := hm c hc
      rw [decide_eq_true_eq] at this
      omega
    have hf : (d.checkpoints.filter (· ≤ height)).max? = none := by
      rw [List.max?_eq_none_iff, List.filter_eq_nil_iff]
      exact hm
    simp only [dbAnswer, hf]
    exact ⟨⟨rfl, hnone, rfl⟩, rfl⟩

theorem putBlocks_acts (d : WalletDb) (fromState : ChainState) (blocks : List ScannedBlock) :
    (DbOp.putBlocks fromState blocks).Acts d (s.dbAnswer d (.putBlocks fromState blocks)).1
      (s.dbAnswer d (.putBlocks fromState blocks)).2 := by
  cases hf : blocks.find? fun b => (d.blocks b.height).any (· ≠ b.hash) with
  | some b =>
    have hb := List.find?_some hf
    obtain ⟨hash, hhash, hne⟩ := Option.any_eq_true _ _ |>.mp hb
    simp only [dbAnswer, hf]
    refine ⟨⟨fromState, blocks, rfl, b, List.mem_of_find?_eq_some hf, rfl, hash, hhash, ?_⟩, rfl⟩
    simpa using hne
  | none =>
    rw [List.find?_eq_none] at hf
    have hf' := hf
    rw [← List.find?_eq_none] at hf'
    simp only [dbAnswer, hf']
    refine ⟨fun b hb hc => ?_, _, rfl⟩
    obtain ⟨hash, hhash, hne⟩ := hc
    exact hf b hb (by simp [hhash, hne])

theorem dbAnswer_acts (d : WalletDb) (o : DbOp) :
    o.Acts d (s.dbAnswer d o).1 (s.dbAnswer d o).2 := by
  cases o with
  | getWalletBirthday => exact ⟨rfl, rfl⟩
  | getBlockHash height => exact ⟨rfl, rfl⟩
  | blockMetadata height =>
    simp only [dbAnswer, metadata]
    cases hb : d.blocks height with
    | none => exact ⟨hb, rfl⟩
    | some hash => exact ⟨⟨rfl, hb⟩, rfl⟩
  | truncateToHeight height => exact s.truncateToHeight_acts d height
  | putBlocks fromState blocks => exact s.putBlocks_acts d fromState blocks
  | _ => exact rfl

theorem generic_fails {d : WalletDb} {o : DbOp} {e : SqliteClientError} (h : generic e = true) :
    o.Fails d e := by
  cases e with
  | BlockConflict height => cases h
  | RequestedRewindInvalid safe requested => cases h
  | _ => trivial

theorem replay_chain_keeps (o : ChainOp) (σ σ' : Replay) (r : (SyncOp.chain o).Ret)
    (h : s.replay (.chain o) σ = some (r, σ')) :
    o.Answers s.tree r ∧ σ'.world = σ.world := by
  by_cases ho : o = .snapshot
  · subst ho
    simp only [replay] at h
    split at h
    · cases h
    · cases h
      exact ⟨trivial, rfl⟩
    · split at h
      · rename_i hwf
        cases h
        exact ⟨hwf, rfl⟩
      · cases h
  · simp only [replay] at h
    split at h
    · cases h
      exact ⟨trivial, rfl⟩
    · obtain ⟨a, ha, heq⟩ := Option.map_eq_some_iff.mp h
      cases heq
      exact ⟨s.chainAnswer_serves ha, rfl⟩

theorem replay_db_keeps (o : DbOp) (σ σ' : Replay) (r : (SyncOp.db o).Ret)
    (h : s.replay (.db o) σ = some (r, σ')) :
    ∃ db', o.Acts σ.world.db r db' ∧ σ'.world = { σ.world with db := db' } := by
  simp only [replay] at h
  split at h
  · split at h
    · rename_i hg
      cases h
      exact ⟨σ.world.db, ⟨generic_fails hg, rfl⟩, rfl⟩
    · cases h
  · cases h
    exact ⟨_, s.dbAnswer_acts σ.world.db o, rfl⟩

/-- The script keeps the contract. -/
theorem replay_keeps : Handler.Keeps s.replay (contract s.tree) Replay.world := by
  intro o σ r σ' h
  cases o with
  | chain o => exact s.replay_chain_keeps o σ σ' r h
  | db o => exact s.replay_db_keeps o σ σ' r h
  | queueBlock block =>
    cases h
    exact ⟨fun reply hr => by rw [← Option.some.inj hr], rfl⟩
  | awaitBlock reply =>
    cases h
    exact ⟨fun result hr => by rw [← Option.some.inj hr], rfl⟩
  | getPrevTip =>
    cases h
    exact ⟨rfl, rfl⟩
  | loadBoundary =>
    cases h
    exact ⟨rfl, rfl⟩
  | panic message => cases h
  | _ =>
    cases h
    exact rfl

end Script

end Zallet.Sync
