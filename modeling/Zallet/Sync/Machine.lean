import Zallet.Effect.Hoare
import Zallet.Sync.Status
import Zallet.Wallet.Db

/-!
# What the sync tasks act on

The tasks of `zallet-core/src/components/sync.rs` are programs over `SyncOp`:
the chain backend, the wallet database, the batch decryptor, the published
status, and the small cells the tasks share. Everything between two
operations is pure code, so the operations are the points at which tasks
interleave.

`contract T` says what each operation may do, for a chain backend that serves
views of the block tree `T`. The backend may answer any call with any error
and the best chain may move freely between two snapshots.

* `prev_tip`, which `steady_state` passes to its iteration as
  `&mut ChainBlock`, is a cell: what was written to it survives an error.
* A failed assertion performs `panic`, which never answers.
* Log output is left out, and so are the network parameters, which only
  upstream functions read.
-/

namespace Zallet.Sync

open Zallet.Effect Zallet.Common Zallet.Chain Zallet.Wallet

inductive ShieldedPool
  | Sapling
  | Orchard
  | Ironwood
  deriving DecidableEq

/-- The pending result of a block queued for batch decryption. -/
structure BlockReply where
  block : Block
  deriving DecidableEq

/-- The result of batch decryption. -/
structure BatchResult where
  scanningKeys : ScanningKeys
  header : BlockHeader
  vtx : List DecryptedTx
  deriving DecidableEq

/-- The operations of the sync tasks. -/
inductive SyncOp
  | chain (o : ChainOp)
  | db (o : DbOp)
  | putSubtreeRoots (pool : ShieldedPool) (startIndex : ℕ) (roots : List CommitmentTreeRoot)
  | queueBlock (block : Block)
  | awaitBlock (reply : BlockReply)
  | status (o : StatusOp)
  | getPrevTip
  | setPrevTip (block : ChainBlock)
  | loadBoundary
  | updateBoundary (tipHeight : ℕ)
  | notifyOne
  | notified
  | sleep (millis : ℕ)
  | tick
  | yieldNow
  | panic (message : String)
  deriving DecidableEq

/-- The answer type of each operation. -/
@[reducible] def SyncOp.Ret : SyncOp → Type
  | chain o => Except ChainError o.Out
  | db o => Except SqliteClientError o.Out
  | putSubtreeRoots _ _ _ => Except ShardTreeError Unit
  | queueBlock _ => Option BlockReply
  | awaitBlock _ => Option BatchResult
  | status _ => Unit
  | getPrevTip => ChainBlock
  | setPrevTip _ => Unit
  | loadBoundary => ℕ
  | updateBoundary _ => Unit
  | notifyOne => Unit
  | notified => Unit
  | sleep _ => Unit
  | tick => Unit
  | yieldNow => Unit
  | panic _ => Empty

@[reducible] def syncSig : Sig := ⟨SyncOp, SyncOp.Ret⟩

/-- The state the sync tasks share. -/
structure SyncWorld where
  db : WalletDb
  signals : SyncSignals
  /-- `prev_tip` of `steady_state`. -/
  prevTip : ChainBlock
  /-- The boundary between `steady_state` and `recover_history`. -/
  boundary : ℕ

/-- `update_boundary` (sync.rs, lines 252–254). -/
def updateBoundary (currentBoundary tipHeight : ℕ) : ℕ := max currentBoundary (tipHeight - 100)

/-- What each operation may answer and do. -/
def contract (T : BlockTree BlockHash) : Contract syncSig SyncWorld
  | .chain o, w, r, w' => o.Answers T r ∧ w' = w
  | .db o, w, r, w' => ∃ db', o.Acts w.db r db' ∧ w' = { w with db := db' }
  | .putSubtreeRoots _ _ _, w, _, w' => w' = w
  | .queueBlock block, w, r, w' => (∀ reply, r = some reply → reply.block = block) ∧ w' = w
  | .awaitBlock reply, w, r, w' =>
    (∀ result, r = some result → result.header = reply.block.header) ∧ w' = w
  | .status o, w, _, w' => w' = { w with signals := o.apply w.signals }
  | .getPrevTip, w, r, w' => r = w.prevTip ∧ w' = w
  | .setPrevTip block, w, _, w' => w' = { w with prevTip := block }
  | .loadBoundary, w, r, w' => r = w.boundary ∧ w' = w
  | .updateBoundary tipHeight, w, _, w' =>
    w' = { w with boundary := updateBoundary w.boundary tipHeight }
  | .notifyOne, w, _, w' => w' = w
  | .notified, w, _, w' => w' = w
  | .sleep _, w, _, w' => w' = w
  | .tick, w, _, w' => w' = w
  | .yieldNow, w, _, w' => w' = w
  | .panic _, _, _, _ => False

/-- Programs of the sync tasks. -/
abbrev SyncM := ExceptT SyncError (Prog syncSig)

/-- A read of the chain, with `map_err(SyncError::Chain)?`. -/
def chain (o : ChainOp) : SyncM o.Out := liftE .Chain (Prog.call (S := syncSig) (.chain o))

/-- A read of the chain whose failure the caller looks at. -/
def chainTry (o : ChainOp) : SyncM (Except ChainError o.Out) :=
  lift (Prog.call (S := syncSig) (.chain o))

/-- A database call, with `?`. -/
def db (o : DbOp) : SyncM o.Out := liftE .Other (Prog.call (S := syncSig) (.db o))

/-- A database call whose failure the caller looks at. -/
def dbTry (o : DbOp) : SyncM (Except SqliteClientError o.Out) :=
  lift (Prog.call (S := syncSig) (.db o))

/-- Any other operation. -/
def perform (o : SyncOp) : SyncM o.Ret := lift (Prog.call (S := syncSig) o)

/-- `Option::ok_or`. -/
def okOr {α : Type} (e : SyncError) : Option α → SyncM α
  | some a => pure a
  | none => throw e

/-- `assert!`. -/
def assert (c : Prop) [Decidable c] (message : String) : SyncM Unit :=
  if c then pure () else perform (.panic message) >>= Empty.elim

/-! ## Rules -/

section rules

variable {W : Type} {C : Contract syncSig W} {rely : W → W → Prop} {ok : SyncOp → W → Prop} {w : W}

theorem wpE_perform {o : SyncOp} {Q : Except SyncError o.Ret → W → Prop} :
    wpE C rely ok Q (perform o) w ↔
      ∀ w₁, rely w w₁ → ok o w₁ ∧ ∀ r w₂, C o w₁ r w₂ → Q (.ok r) w₂ := by
  unfold perform
  rw [wpE_lift, wp_call]

theorem wpE_chain {o : ChainOp} {Q : Except SyncError o.Out → W → Prop} :
    wpE C rely ok Q (chain o) w ↔
      ∀ w₁, rely w w₁ → ok (.chain o) w₁ ∧
        ∀ r w₂, C (.chain o) w₁ r w₂ → Q (r.mapError .Chain) w₂ := by
  unfold chain
  exact (wpE_liftE _ _ _).trans Iff.rfl

theorem wpE_db {o : DbOp} {Q : Except SyncError o.Out → W → Prop} :
    wpE C rely ok Q (db o) w ↔
      ∀ w₁, rely w w₁ → ok (.db o) w₁ ∧
        ∀ r w₂, C (.db o) w₁ r w₂ → Q (r.mapError .Other) w₂ := by
  unfold db
  exact (wpE_liftE _ _ _).trans Iff.rfl

theorem wpE_chainTry {o : ChainOp}
    {Q : Except SyncError (Except ChainError o.Out) → W → Prop} :
    wpE C rely ok Q (chainTry o) w ↔
      ∀ w₁, rely w w₁ → ok (.chain o) w₁ ∧ ∀ r w₂, C (.chain o) w₁ r w₂ → Q (.ok r) w₂ := by
  unfold chainTry
  exact (wpE_lift _ _).trans Iff.rfl

theorem wpE_dbTry {o : DbOp}
    {Q : Except SyncError (Except SqliteClientError o.Out) → W → Prop} :
    wpE C rely ok Q (dbTry o) w ↔
      ∀ w₁, rely w w₁ → ok (.db o) w₁ ∧ ∀ r w₂, C (.db o) w₁ r w₂ → Q (.ok r) w₂ := by
  unfold dbTry
  exact (wpE_lift _ _).trans Iff.rfl

@[simp] theorem wpE_okOr {α : Type} {e : SyncError} {a : Option α}
    {Q : Except SyncError α → W → Prop} :
    wpE C rely ok Q (okOr e a) w ↔
      (∀ x, a = some x → Q (.ok x) w) ∧ (a = none → Q (.error e) w) := by
  cases a with
  | none => simp [okOr]
  | some x => simp [okOr]

/-- An assertion is safe if its condition holds, or if it may fail. -/
theorem wpE_assert {c : Prop} [Decidable c] {message : String}
    {Q : Except SyncError Unit → W → Prop} (ht : c → Q (.ok ()) w)
    (hf : ¬ c → ∀ w₁, rely w w₁ → ok (.panic message) w₁) :
    wpE C rely ok Q (assert c message) w := by
  unfold assert
  by_cases hc : c
  · rw [if_pos hc]
    exact ht hc
  · rw [if_neg hc, wpE_bind, wpE_perform]
    exact fun w₁ hw => ⟨hf hc w₁ hw, fun r => r.elim⟩

/-- A run of one operation performs it. -/
theorem run_perform_event {o : SyncOp} {w' : W} {τ : List (Event syncSig)}
    {r : Except SyncError o.Ret} (h : Run C (perform o).run w τ r w') :
    ∃ a, r = .ok a ∧ τ = [⟨o, a⟩] := by
  obtain ⟨a, w₁, τ', rfl, -, hrun⟩ := run_op.mp h
  obtain ⟨rfl, rfl, rfl⟩ := run_pure.mp hrun
  exact ⟨a, rfl, rfl⟩

theorem run_chain_event {o : ChainOp} {w' : W} {τ : List (Event syncSig)}
    {r : Except SyncError o.Out} (h : Run C (chain o).run w τ r w') :
    ∃ a, r = a.mapError .Chain ∧ τ = [⟨.chain o, a⟩] := by
  obtain ⟨a, w₁, τ', rfl, -, hrun⟩ := run_op.mp h
  obtain ⟨rfl, rfl, rfl⟩ := run_pure.mp hrun
  exact ⟨a, rfl, rfl⟩

theorem run_db_event {o : DbOp} {w' : W} {τ : List (Event syncSig)}
    {r : Except SyncError o.Out} (h : Run C (db o).run w τ r w') :
    ∃ a, r = a.mapError .Other ∧ τ = [⟨.db o, a⟩] := by
  obtain ⟨a, w₁, τ', rfl, -, hrun⟩ := run_op.mp h
  obtain ⟨rfl, rfl, rfl⟩ := run_pure.mp hrun
  exact ⟨a, rfl, rfl⟩

theorem run_perform {o : SyncOp} {w' : W} {τ : List (Event syncSig)} {r : o.Ret}
    (h : Run C (perform o).run w τ (.ok r) w') : τ = [⟨o, r⟩] ∧ C o w r w' := by
  obtain ⟨r', w₁, τ', rfl, hC, hrun⟩ := run_op.mp h
  obtain ⟨rfl, hr, rfl⟩ := run_pure.mp hrun
  cases hr
  exact ⟨rfl, hC⟩

theorem run_chain {o : ChainOp} {w' : W} {τ : List (Event syncSig)} {a : o.Out}
    (h : Run C (chain o).run w τ (.ok a) w') :
    τ = [⟨.chain o, .ok a⟩] ∧ C (.chain o) w (.ok a) w' := by
  obtain ⟨r, w₁, τ', rfl, hC, hrun⟩ := run_op.mp h
  obtain ⟨rfl, hr, rfl⟩ := run_pure.mp hrun
  cases r with
  | ok a' =>
    cases hr
    exact ⟨rfl, hC⟩
  | error e => cases hr

theorem run_db {o : DbOp} {w' : W} {τ : List (Event syncSig)} {a : o.Out}
    (h : Run C (db o).run w τ (.ok a) w') : τ = [⟨.db o, .ok a⟩] ∧ C (.db o) w (.ok a) w' := by
  obtain ⟨r, w₁, τ', rfl, hC, hrun⟩ := run_op.mp h
  obtain ⟨rfl, hr, rfl⟩ := run_pure.mp hrun
  cases r with
  | ok a' =>
    cases hr
    exact ⟨rfl, hC⟩
  | error e => cases hr

end rules

/-! ## Rules for a task that runs alone -/

section alone

variable {T : BlockTree BlockHash} {ok : SyncOp → SyncWorld → Prop} {w : SyncWorld}

theorem wpE_chain_alone {o : ChainOp} {Q : Except SyncError o.Out → SyncWorld → Prop}
    (hok : ok (.chain o) w) (hQ : ∀ a, o.Serves T a → Q (.ok a) w)
    (hE : ∀ e, Q (.error (.Chain e)) w) : wpE (contract T) Eq ok Q (chain o) w := by
  rw [wpE_chain]
  rintro w₁ rfl
  refine ⟨hok, fun r w₂ hr => ?_⟩
  obtain ⟨ha, rfl⟩ := hr
  cases r with
  | ok a => exact hQ a ha
  | error e => exact hE e

theorem wpE_db_alone {o : DbOp} {Q : Except SyncError o.Out → SyncWorld → Prop}
    (hok : ok (.db o) w) (hQ : ∀ a db', o.Done w.db a db' → Q (.ok a) { w with db := db' })
    (hE : ∀ e, o.Fails w.db e → Q (.error (.Other e)) w) :
    wpE (contract T) Eq ok Q (db o) w := by
  rw [wpE_db]
  rintro w₁ rfl
  refine ⟨hok, fun r w₂ hr => ?_⟩
  obtain ⟨db', ha, rfl⟩ := hr
  cases r with
  | ok a => exact hQ a db' ha
  | error e =>
    obtain ⟨he, rfl⟩ := ha
    exact hE e he

theorem wpE_perform_alone {o : SyncOp} {Q : Except SyncError o.Ret → SyncWorld → Prop}
    (hok : ok o w) (hQ : ∀ r w₂, contract T o w r w₂ → Q (.ok r) w₂) :
    wpE (contract T) Eq ok Q (perform o) w := by
  rw [wpE_perform]
  rintro w₁ rfl
  exact ⟨hok, hQ⟩

end alone

/-! ## Reads among other tasks -/

/-- The operations that read a captured view, read the database, or use the
    batch decryptor. They leave the world alone. -/
def SyncOp.Reads : SyncOp → Prop
  | chain .snapshot => False
  | chain (.getMempoolStream _) => False
  | chain _ => True
  | db (.updateChainTip _) => False
  | db (.truncateToHeight _) => False
  | db (.putBlocks _ _) => False
  | db (.decryptAndStoreTransaction _ _) => False
  | db (.setTransactionStatus _ _) => False
  | db (.notifyAddressChecked _ _) => False
  | db (.notifyOutputVerifiedUnspent _ _) => False
  | db _ => True
  | queueBlock _ => True
  | awaitBlock _ => True
  | _ => False

/-- All that an operation can do to the world. -/
theorem contract_cases {T : BlockTree BlockHash} {o : SyncOp} {w w' : SyncWorld} {r : o.Ret}
    (h : contract T o w r w') :
    w' = w ∨ (∃ s : StatusOp, o = .status s ∧ w' = { w with signals := s.apply w.signals }) ∨
      (∃ block, o = .setPrevTip block ∧ w' = { w with prevTip := block }) ∨
      (∃ tipHeight, o = .updateBoundary tipHeight ∧
        w' = { w with boundary := updateBoundary w.boundary tipHeight }) ∨
      (∃ height landed, o = .db (.truncateToHeight height) ∧ w.db.IsRewind height landed ∧
        w' = { w with db := w.db.truncate landed }) ∨
      ∃ fromState blocks checkpoints, o = .db (.putBlocks fromState blocks) ∧
        (∀ b ∈ blocks, ¬ w.db.Conflicts b) ∧
        w' = { w with db := { w.db.put blocks with checkpoints := checkpoints } } := by
  cases o with
  | chain o => exact Or.inl h.2
  | db o =>
    obtain ⟨d, ha, rfl⟩ := h
    rcases WalletDb.acts_cases ha with rfl | ⟨height, landed, rfl, hr, rfl⟩ |
      ⟨fromState, blocks, checkpoints, rfl, hconflict, rfl⟩
    · exact Or.inl rfl
    · exact Or.inr (Or.inr (Or.inr (Or.inr (Or.inl ⟨height, landed, rfl, hr, rfl⟩))))
    · exact Or.inr (Or.inr (Or.inr (Or.inr (Or.inr
        ⟨fromState, blocks, checkpoints, rfl, hconflict, rfl⟩))))
  | queueBlock block => exact Or.inl h.2
  | awaitBlock reply => exact Or.inl h.2
  | getPrevTip => exact Or.inl h.2
  | loadBoundary => exact Or.inl h.2
  | panic message => exact h.elim
  | status s => exact Or.inr (Or.inl ⟨s, rfl, h⟩)
  | setPrevTip block => exact Or.inr (Or.inr (Or.inl ⟨block, rfl, h⟩))
  | updateBoundary tipHeight => exact Or.inr (Or.inr (Or.inr (Or.inl ⟨tipHeight, rfl, h⟩)))
  | _ => exact Or.inl h

/-- All that an operation can do to the database. -/
theorem contract_db_cases {T : BlockTree BlockHash} {o : SyncOp} {w w' : SyncWorld} {r : o.Ret}
    (h : contract T o w r w') :
    w'.db = w.db ∨
      (∃ height landed, o = .db (.truncateToHeight height) ∧ w.db.IsRewind height landed ∧
        w' = { w with db := w.db.truncate landed }) ∨
      ∃ fromState blocks checkpoints, o = .db (.putBlocks fromState blocks) ∧
        (∀ b ∈ blocks, ¬ w.db.Conflicts b) ∧
        w' = { w with db := { w.db.put blocks with checkpoints := checkpoints } } := by
  rcases contract_cases h with rfl | ⟨s, -, rfl⟩ | ⟨block, -, rfl⟩ | ⟨tipHeight, -, rfl⟩ | ht | hp
  · exact Or.inl rfl
  · exact Or.inl rfl
  · exact Or.inl rfl
  · exact Or.inl rfl
  · exact Or.inr (Or.inl ht)
  · exact Or.inr (Or.inr hp)

theorem contract_reads {T : BlockTree BlockHash} {o : SyncOp} {w w' : SyncWorld} {r : o.Ret}
    (ho : o.Reads) (h : contract T o w r w') : w' = w := by
  rcases contract_cases h with rfl | ⟨s, rfl, -⟩ | ⟨block, rfl, -⟩ | ⟨tipHeight, rfl, -⟩ |
    ⟨height, landed, rfl, -⟩ | ⟨fromState, blocks, checkpoints, rfl, -⟩
  · rfl
  · exact ho.elim
  · exact ho.elim
  · exact ho.elim
  · exact ho.elim
  · exact ho.elim

/-- The reads that answer as `K` allows fail with errors in `failed` only. -/
structure FailsWith (K : (o : SyncOp) → SyncWorld → o.Ret → Prop) (failed : SyncError → Prop) :
    Prop where
  chain : ∀ o w e, K (.chain o) w (.error e) → failed (.Chain e)
  db : ∀ o w e, (SyncOp.db o).Reads → K (.db o) w (.error e) → o.Fails w.db e → failed (.Other e)

section restricted

variable {T : BlockTree BlockHash} {K : (o : SyncOp) → SyncWorld → o.Ret → Prop}
  {failed : SyncError → Prop} {ok : SyncOp → SyncWorld → Prop} {w : SyncWorld}

theorem wpE_chain_restrict (hF : FailsWith K failed) {o : ChainOp}
    {Q : Except SyncError o.Out → SyncWorld → Prop} (hok : ok (.chain o) w)
    (hQ : ∀ a, o.Serves T a → Q (.ok a) w) (hE : ∀ e, failed e → Q (.error e) w) :
    wpE ((contract T).restrict K) Eq ok Q (chain o) w := by
  rw [wpE_chain]
  rintro w₁ rfl
  refine ⟨hok, fun r w₂ hr => ?_⟩
  obtain ⟨⟨ha, rfl⟩, hK⟩ := hr
  cases r with
  | ok a => exact hQ a ha
  | error e => exact hE _ (hF.chain o _ e hK)

theorem wpE_db_restrict (hF : FailsWith K failed) {o : DbOp} (ho : (SyncOp.db o).Reads)
    {Q : Except SyncError o.Out → SyncWorld → Prop} (hok : ok (.db o) w)
    (hQ : ∀ a, o.Done w.db a w.db → Q (.ok a) w) (hE : ∀ e, failed e → Q (.error e) w) :
    wpE ((contract T).restrict K) Eq ok Q (db o) w := by
  rw [wpE_db]
  rintro w₁ rfl
  refine ⟨hok, fun r w₂ hr => ?_⟩
  obtain ⟨hC, hK⟩ := hr
  obtain rfl := contract_reads ho hC
  obtain ⟨db', ha, heq⟩ := hC
  have hdb : w₂.db = db' := congrArg SyncWorld.db heq
  subst hdb
  cases r with
  | ok a => exact hQ a ha
  | error e => exact hE _ (hF.db o _ e ho hK ha.1)

/-- What holds of a program under any restriction holds of it without one. -/
theorem wpE_unrestricted {α : Type} {Q : Except SyncError α → SyncWorld → Prop} {p : SyncM α}
    (h : wpE ((contract T).restrict fun _ _ _ => True) Eq ok Q p w) :
    wpE (contract T) Eq ok Q p w :=
  wp_anti h (fun _ _ _ _ hC => ⟨hC, trivial⟩) fun _ _ hw => hw

end restricted

/-- The environment does not leave `I`, and a task may read there. -/
structure Reading (rely : SyncWorld → SyncWorld → Prop) (ok : SyncOp → SyncWorld → Prop)
    (I : SyncWorld → Prop) : Prop where
  stable : ∀ w w', I w → rely w w' → I w'
  allowed : ∀ o w, o.Reads → I w → ok o w

section reads

variable {T : BlockTree BlockHash} {rely : SyncWorld → SyncWorld → Prop}
  {ok : SyncOp → SyncWorld → Prop} {I : SyncWorld → Prop} {w : SyncWorld}

theorem wpE_chain_read (hR : Reading rely ok I) {o : ChainOp} (ho : (SyncOp.chain o).Reads)
    {Q : Except SyncError o.Out → SyncWorld → Prop} (hI : I w)
    (hQ : ∀ a w', I w' → o.Serves T a → Q (.ok a) w')
    (hE : ∀ e w', I w' → Q (.error (.Chain e)) w') :
    wpE (contract T) rely ok Q (chain o) w := by
  rw [wpE_chain]
  intro w₁ hw
  have hI₁ := hR.stable w w₁ hI hw
  refine ⟨hR.allowed _ _ ho hI₁, fun r w₂ hr => ?_⟩
  obtain ⟨ha, rfl⟩ := hr
  cases r with
  | ok a => exact hQ a w₂ hI₁ ha
  | error e => exact hE e w₂ hI₁

theorem wpE_db_read (hR : Reading rely ok I) {o : DbOp} (ho : (SyncOp.db o).Reads)
    {Q : Except SyncError o.Out → SyncWorld → Prop} (hI : I w)
    (hQ : ∀ a w', I w' → o.Done w'.db a w'.db → Q (.ok a) w')
    (hE : ∀ e w', I w' → o.Fails w'.db e → Q (.error (.Other e)) w') :
    wpE (contract T) rely ok Q (db o) w := by
  rw [wpE_db]
  intro w₁ hw
  have hI₁ := hR.stable w w₁ hI hw
  refine ⟨hR.allowed _ _ ho hI₁, fun r w₂ hr => ?_⟩
  have hw₂ := contract_reads ho hr
  obtain ⟨db', ha, heq⟩ := hr
  have hdb : w₁.db = db' := by
    have := congrArg SyncWorld.db (hw₂.symm.trans heq)
    exact this
  subst hw₂ hdb
  cases r with
  | ok a => exact hQ a w₂ hI₁ ha
  | error e => exact hE e w₂ hI₁ ha.1

theorem wpE_perform_read (hR : Reading rely ok I) {o : SyncOp} (ho : o.Reads)
    {Q : Except SyncError o.Ret → SyncWorld → Prop} (hI : I w)
    (hQ : ∀ r w', I w' → contract T o w' r w' → Q (.ok r) w') :
    wpE (contract T) rely ok Q (perform o) w := by
  rw [wpE_perform]
  intro w₁ hw
  have hI₁ := hR.stable w w₁ hI hw
  refine ⟨hR.allowed _ _ ho hI₁, fun r w₂ hr => ?_⟩
  have hw₂ := contract_reads ho hr
  subst hw₂
  exact hQ r w₂ hI₁ hr

end reads

/-! ## Bounds -/

section within

variable {B : Bounds syncSig SyncError}

theorem within_chain {o : ChainOp} (ho : B.ops (.chain o))
    (he : ∀ e, B.answers (.chain o) (.error e) → B.errors (.Chain e)) : Within B (chain o) := by
  unfold Within
  rw [wpE_chain]
  rintro ⟨⟩ -
  refine ⟨ho, fun r _ hr e h => ?_⟩
  cases r with
  | ok a => cases h
  | error e' =>
    cases h
    exact he e' hr

/-- The rest of the program only has to be within the bounds for the answers
    it can get. -/
theorem within_chain_bind {α : Type} {o : ChainOp} {f : o.Out → SyncM α} (ho : B.ops (.chain o))
    (he : ∀ e, B.answers (.chain o) (.error e) → B.errors (.Chain e))
    (hf : ∀ a, B.answers (.chain o) (.ok a) → Within B (f a)) : Within B (chain o >>= f) := by
  unfold Within
  rw [wpE_bind, wpE_chain]
  rintro ⟨⟩ -
  refine ⟨ho, fun r _ hr => ?_⟩
  cases r with
  | ok a => exact hf a hr
  | error e =>
    intro e' h
    cases h
    exact he e hr

theorem within_db {o : DbOp} (ho : B.ops (.db o)) (he : ∀ e, B.errors (.Other e)) :
    Within B (db o) := by
  unfold Within
  rw [wpE_db]
  rintro ⟨⟩ -
  refine ⟨ho, fun r _ _ e h => ?_⟩
  cases r with
  | ok a => cases h
  | error e' =>
    cases h
    exact he e'

theorem within_perform {o : SyncOp} (ho : B.ops o) : Within B (perform o) := by
  unfold Within
  rw [wpE_perform]
  rintro ⟨⟩ -
  refine ⟨ho, fun r _ _ e h => ?_⟩
  cases h

theorem within_okOr {α : Type} {e : SyncError} (he : B.errors e) (a : Option α) :
    Within B (okOr e a) := by
  cases a with
  | none => exact Within.throw he
  | some a => exact Within.pure a

end within

/-! ## Classes of operations and errors -/

/-- A read of the chain that found its view stale. -/
def SyncOp.Stale : (o : SyncOp) → o.Ret → Prop
  | chain o, r => o.Stale r
  | _, _ => False

/-- Programs that end with a retryable error only if a read found its view
    stale. -/
def staleOnly : Bounds syncSig SyncError where
  ops _ := True
  answers o r := ¬ o.Stale r
  errors e := isRetryable e = false

/-- The operations other than a failed assertion and the announcement that
    the tip has been reached. -/
def SyncOp.Quiet : SyncOp → Prop
  | panic _ => False
  | status .markTipReached => False
  | _ => True

theorem SyncOp.Reads.quiet {o : SyncOp} (h : o.Reads) : o.Quiet := by
  cases o with
  | status o => exact h.elim
  | panic message => exact h.elim
  | _ => trivial

/-- A task that runs alone reads in the one world it is in. -/
theorem Reading.alone {ok : SyncOp → SyncWorld → Prop} (hok : ∀ o w, o.Quiet → ok o w)
    (w : SyncWorld) : Reading Eq ok (· = w) where
  stable _ _ h₁ h₂ := h₂.symm.trans h₁
  allowed o w' ho _ := hok o w' ho.quiet

/-- The operations that signal something to the other tasks or pause. -/
def SyncOp.Signals : SyncOp → Prop
  | status _ => True
  | updateBoundary _ => True
  | notifyOne => True
  | notified => True
  | sleep _ => True
  | tick => True
  | yieldNow => True
  | _ => False

/-- They leave the database and `prev_tip` alone. -/
theorem contract_signals {T : BlockTree BlockHash} {o : SyncOp} {w w' : SyncWorld} {r : o.Ret}
    (ho : o.Signals) (h : contract T o w r w') : w'.db = w.db ∧ w'.prevTip = w.prevTip := by
  rcases contract_cases h with rfl | ⟨s, -, rfl⟩ | ⟨block, rfl, -⟩ | ⟨tipHeight, -, rfl⟩ |
    ⟨height, landed, rfl, -⟩ | ⟨fromState, blocks, checkpoints, rfl, -⟩
  · exact ⟨rfl, rfl⟩
  · exact ⟨rfl, rfl⟩
  · exact ho.elim
  · exact ⟨rfl, rfl⟩
  · exact ho.elim
  · exact ho.elim

theorem wpE_signal {T : BlockTree BlockHash} {ok : SyncOp → SyncWorld → Prop} {w : SyncWorld}
    {o : SyncOp} {Q : Except SyncError o.Ret → SyncWorld → Prop} (ho : o.Signals) (hok : ok o w)
    (hQ : ∀ r w', w'.db = w.db → w'.prevTip = w.prevTip → Q (.ok r) w') :
    wpE (contract T) Eq ok Q (perform o) w := by
  refine wpE_perform_alone hok fun r w₂ hr => ?_
  obtain ⟨hd, hp⟩ := contract_signals ho hr
  exact hQ r w₂ hd hp

/-- An error that does not report a block conflict. -/
def SyncError.NoConflict (e : SyncError) : Prop := ∀ height, e ≠ .Other (.BlockConflict height)

theorem SyncError.noConflict_chain (e : ChainError) : SyncError.NoConflict (.Chain e) := by
  intro height h
  cases h

/-- Only `put_blocks` reports a conflict. -/
theorem noConflict_of_fails {o : DbOp} {d : WalletDb} {e : SqliteClientError}
    (ho : ∀ fromState blocks, o ≠ .putBlocks fromState blocks) (h : o.Fails d e) :
    SyncError.NoConflict (.Other e) := by
  intro height he
  cases he
  obtain ⟨fromState, blocks, hp, -⟩ := h
  exact ho fromState blocks hp

/-- No read reports a conflict. -/
theorem failsWith_noConflict : FailsWith (fun _ _ _ => True) SyncError.NoConflict where
  chain _ _ e _ := SyncError.noConflict_chain e
  db o w e ho _ hfails := by
    refine noConflict_of_fails ?_ hfails
    rintro fromState blocks rfl
    exact ho

end Zallet.Sync
