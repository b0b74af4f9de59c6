import Zallet.Wallet.Types
import Zallet.Chain.View

/-!
# The wallet database

What the sync engine relies on of `zcash_client_sqlite`: the block hashes the
wallet records, the heights it can rewind to, its birthday, and the effect of
each database call on them. The calls that touch nothing else of the database
than tables no sync decision reads (notes, transactions, the scan queue) leave
this state as it is, and their answers are unconstrained.

* A call that fails changes nothing: every call is one transaction.
* `truncate_to_height(h)` rewinds to the greatest height at or below `h` that
  is a checkpoint in every active pool's tree (`IsRewind`). If there is none
  it fails with `RequestedRewindInvalid` and the lowest such height.
* `put_blocks` stores the hashes of the blocks and fails with `BlockConflict`
  if another hash is stored at one of their heights. It does not compare a
  block with its parent, and which checkpoints are left afterwards is up to
  the pruning of the trees.
-/

namespace Zallet.Wallet

open Zallet.Chain

/-- The part of the wallet database that the sync engine's decisions depend
    on. -/
structure WalletDb where
  /-- The hash recorded at a height. -/
  blocks : ℕ → Option BlockHash
  /-- The heights that are a checkpoint in every active pool's tree. -/
  checkpoints : List ℕ
  birthday : Option ℕ

/-- The calls of `WalletRead`, `WalletWrite` and `InputSource` made by the
    sync engine. -/
inductive DbOp
  | getWalletBirthday
  | getBlockHash (height : ℕ)
  | blockMetadata (height : ℕ)
  | blockFullyScanned
  | suggestScanRanges
  | unspentNullifiers
  | getAccountIds
  | getTransparentReceivers (account : AccountUuid) (includeChange includeStandalone : Bool)
  | getSpendableTransparentOutputs (address : TransparentAddress) (targetHeight : ℕ)
  | transactionDataRequests
  | updateChainTip (height : ℕ)
  | truncateToHeight (height : ℕ)
  | putBlocks (fromState : ChainState) (blocks : List ScannedBlock)
  | decryptAndStoreTransaction (tx : Transaction) (minedHeight : Option ℕ)
  | setTransactionStatus (txid : TxId) (status : TransactionStatus)
  | notifyAddressChecked (request : TransactionsInvolvingAddress) (asOfHeight : ℕ)
  | notifyOutputVerifiedUnspent (outpoint : OutPoint) (asOfHeight : ℕ)
  deriving DecidableEq

/-- The result type of a call that succeeds. -/
@[reducible] def DbOp.Out : DbOp → Type
  | getWalletBirthday => Option ℕ
  | getBlockHash _ => Option BlockHash
  | blockMetadata _ => Option BlockMetadata
  | blockFullyScanned => Option BlockMetadata
  | suggestScanRanges => List ScanRange
  | unspentNullifiers => Nullifiers
  | getAccountIds => List AccountUuid
  | getTransparentReceivers _ _ _ => List (TransparentAddress × TransparentAddressMetadata)
  | getSpendableTransparentOutputs _ _ => List OutPoint
  | transactionDataRequests => List TransactionDataRequest
  | updateChainTip _ => Unit
  | truncateToHeight _ => ℕ
  | putBlocks _ _ => Unit
  | decryptAndStoreTransaction _ _ => Unit
  | setTransactionStatus _ _ => Unit
  | notifyAddressChecked _ _ => Unit
  | notifyOutputVerifiedUnspent _ _ => Unit

namespace WalletDb

/-- Only the blocks and checkpoints at or below `height` are left. -/
def truncate (db : WalletDb) (height : ℕ) : WalletDb where
  blocks h := if h ≤ height then db.blocks h else none
  checkpoints := db.checkpoints.filter (· ≤ height)
  birthday := db.birthday

/-- The hash of `block` is recorded at its height. -/
def record (db : WalletDb) (block : ScannedBlock) : WalletDb :=
  { db with blocks := Function.update db.blocks block.height (some block.hash) }

/-- The hashes of `blocks` are recorded, in order. -/
def put (db : WalletDb) (blocks : List ScannedBlock) : WalletDb := blocks.foldl record db

/-- `landed` is the greatest shared checkpoint at or below `height`. -/
def IsRewind (db : WalletDb) (height landed : ℕ) : Prop :=
  landed ∈ db.checkpoints ∧ landed ≤ height ∧ ∀ c ∈ db.checkpoints, c ≤ height → c ≤ landed

instance (db : WalletDb) (height landed : ℕ) : Decidable (db.IsRewind height landed) :=
  inferInstanceAs (Decidable (_ ∧ _ ∧ _))

/-- Another hash than that of `block` is recorded at its height. -/
def Conflicts (db : WalletDb) (block : ScannedBlock) : Prop :=
  ∃ hash, db.blocks block.height = some hash ∧ hash ≠ block.hash

end WalletDb

/-- What a call that succeeds answers, and the database it leaves. -/
def DbOp.Done (db : WalletDb) : (o : DbOp) → o.Out → WalletDb → Prop
  | getWalletBirthday, birthday, db' => birthday = db.birthday ∧ db' = db
  | getBlockHash height, hash, db' => hash = db.blocks height ∧ db' = db
  | blockMetadata height, metadata, db' =>
    (match metadata with
      | none => db.blocks height = none
      | some m => m.blockHeight = height ∧ db.blocks height = some m.blockHash) ∧ db' = db
  | truncateToHeight height, landed, db' => db.IsRewind height landed ∧ db' = db.truncate landed
  | putBlocks _ blocks, (), db' =>
    (∀ b ∈ blocks, ¬ db.Conflicts b) ∧
      ∃ checkpoints, db' = { db.put blocks with checkpoints := checkpoints }
  | blockFullyScanned, _, db' => db' = db
  | suggestScanRanges, _, db' => db' = db
  | unspentNullifiers, _, db' => db' = db
  | getAccountIds, _, db' => db' = db
  | getTransparentReceivers _ _ _, _, db' => db' = db
  | getSpendableTransparentOutputs _ _, _, db' => db' = db
  | transactionDataRequests, _, db' => db' = db
  | updateChainTip _, _, db' => db' = db
  | decryptAndStoreTransaction _ _, _, db' => db' = db
  | setTransactionStatus _ _, _, db' => db' = db
  | notifyAddressChecked _ _, _, db' => db' = db
  | notifyOutputVerifiedUnspent _ _, _, db' => db' = db

/-- The errors a call may fail with. Only `put_blocks` reports a block
    conflict and only `truncate_to_height` an invalid rewind. -/
def DbOp.Fails (db : WalletDb) (o : DbOp) : SqliteClientError → Prop
  | .BlockConflict height =>
    ∃ fromState blocks, o = putBlocks fromState blocks ∧
      ∃ b ∈ blocks, b.height = height ∧ db.Conflicts b
  | .RequestedRewindInvalid safe requested =>
    o = truncateToHeight requested ∧ (∀ c ∈ db.checkpoints, requested < c) ∧
      safe = db.checkpoints.min?
  | _ => True

/-- The effect of a call on the database. -/
def DbOp.Acts (o : DbOp) (db : WalletDb) (r : Except SqliteClientError o.Out) (db' : WalletDb) :
    Prop :=
  match r with
  | .ok a => o.Done db a db'
  | .error e => o.Fails db e ∧ db' = db

namespace WalletDb

@[simp] theorem truncate_blocks (db : WalletDb) (height h : ℕ) :
    (db.truncate height).blocks h = if h ≤ height then db.blocks h else none := rfl

@[simp] theorem truncate_birthday (db : WalletDb) (height : ℕ) :
    (db.truncate height).birthday = db.birthday := rfl

@[simp] theorem put_birthday (db : WalletDb) (blocks : List ScannedBlock) :
    (db.put blocks).birthday = db.birthday := by
  induction blocks generalizing db with
  | nil => rfl
  | cons b rest ih =>
    show ((db.record b).put rest).birthday = db.birthday
    rw [ih]
    rfl

/-- A hash recorded after `put` was recorded before, or is that of one of the
    blocks. -/
theorem put_blocks_some {db : WalletDb} {blocks : List ScannedBlock} {h : ℕ}
    {hash : BlockHash} (hr : (db.put blocks).blocks h = some hash) :
    db.blocks h = some hash ∨ ∃ b ∈ blocks, b.height = h ∧ b.hash = hash := by
  induction blocks generalizing db with
  | nil => exact Or.inl hr
  | cons b rest ih =>
    have hr' : ((db.record b).put rest).blocks h = some hash := hr
    rcases ih hr' with h₁ | ⟨b', hb', h₁⟩
    · simp only [record, Function.update_apply] at h₁
      by_cases hb : h = b.height
      · rw [if_pos hb] at h₁
        exact Or.inr ⟨b, List.mem_cons_self, hb.symm, Option.some.inj h₁⟩
      · rw [if_neg hb] at h₁
        exact Or.inl h₁
    · exact Or.inr ⟨b', List.mem_cons_of_mem _ hb', h₁⟩

/-- `put` removes nothing. -/
theorem put_blocks_mono {db : WalletDb} {blocks : List ScannedBlock} {h : ℕ}
    (hr : (db.blocks h).isSome) : ((db.put blocks).blocks h).isSome := by
  induction blocks generalizing db with
  | nil => exact hr
  | cons b rest ih =>
    have hb : ((db.record b).blocks h).isSome := by
      simp only [record, Function.update_apply]
      by_cases hb : h = b.height
      · simp [hb]
      · simpa [hb] using hr
    exact ih hb

/-- Something is recorded at the height of each block that is stored. -/
theorem put_blocks_isSome (db : WalletDb) {blocks : List ScannedBlock} {b : ScannedBlock}
    (hb : b ∈ blocks) : ((db.put blocks).blocks b.height).isSome := by
  induction blocks generalizing db with
  | nil => cases hb
  | cons b' rest ih =>
    rcases List.mem_cons.mp hb with rfl | hb
    · show (((db.record b).put rest).blocks b.height).isSome
      refine put_blocks_mono ?_
      simp [record]
    · exact ih (db.record b') hb

/-- Without a conflict, `put` leaves every recorded hash as it is. -/
theorem put_blocks_keep {db : WalletDb} {blocks : List ScannedBlock} {h : ℕ} {hash : BlockHash}
    (hc : ∀ b ∈ blocks, ¬ db.Conflicts b) (hr : db.blocks h = some hash) :
    (db.put blocks).blocks h = some hash := by
  have hsome : (db.blocks h).isSome := by rw [hr]; rfl
  obtain ⟨hash', hhash'⟩ := Option.isSome_iff_exists.mp (put_blocks_mono hsome)
  rw [hhash']
  rcases put_blocks_some hhash' with h₁ | ⟨b, hb, rfl, rfl⟩
  · rw [← h₁, hr]
  · by_contra hne
    refine hc b hb ⟨hash, hr, fun heq => hne ?_⟩
    rw [heq]

theorem put_singleton_blocks (db : WalletDb) (b : ScannedBlock) (h : ℕ) :
    (db.put [b]).blocks h = if h = b.height then some b.hash else db.blocks h := by
  simp [put, record, Function.update_apply]

/-- All that a call can do to the database: nothing, a rewind, or storing
    blocks. -/
theorem acts_cases {o : DbOp} {db db' : WalletDb} {r : Except SqliteClientError o.Out}
    (h : o.Acts db r db') :
    db' = db ∨
      (∃ height landed, o = .truncateToHeight height ∧ db.IsRewind height landed ∧
        db' = db.truncate landed) ∨
      ∃ fromState blocks checkpoints, o = .putBlocks fromState blocks ∧
        (∀ b ∈ blocks, ¬ db.Conflicts b) ∧
        db' = { db.put blocks with checkpoints := checkpoints } := by
  cases r with
  | error e => exact Or.inl h.2
  | ok a =>
    cases o with
    | getWalletBirthday => exact Or.inl h.2
    | getBlockHash height => exact Or.inl h.2
    | blockMetadata height => exact Or.inl h.2
    | truncateToHeight height => exact Or.inr (Or.inl ⟨height, a, rfl, h.1, h.2⟩)
    | putBlocks fromState blocks =>
      obtain ⟨hconflict, checkpoints, hdb⟩ := h
      exact Or.inr (Or.inr ⟨fromState, blocks, checkpoints, rfl, hconflict, hdb⟩)
    | _ => exact Or.inl h

/-- A rewind never lands above the height it was asked for. -/
theorem IsRewind.le {db : WalletDb} {height landed : ℕ} (h : db.IsRewind height landed) :
    landed ≤ height := h.2.1

/-- There is at most one height to rewind to. -/
theorem IsRewind.unique {db : WalletDb} {height a b : ℕ} (ha : db.IsRewind height a)
    (hb : db.IsRewind height b) : a = b :=
  le_antisymm (hb.2.2 a ha.1 ha.2.1) (ha.2.2 b hb.1 hb.2.1)

/-- The lowest checkpoint can be rewound to, and the rewind stays there. -/
theorem isRewind_min {db : WalletDb} {safe : ℕ} (h : db.checkpoints.min? = some safe) :
    db.IsRewind safe safe := by
  have hmem : safe ∈ db.checkpoints := List.min?_mem h
  exact ⟨hmem, le_rfl, fun c _ hc => hc⟩

end WalletDb

end Zallet.Wallet
