import Zallet.Effect.Pool

/-!
# Asynchronous operations

The operation queue of the JSON-RPC server
(`zallet-core/src/components/json_rpc/asyncop.rs`): `OperationQueue` and the
task that `AsyncOperation::new` spawns.

A call is a program whose operations are its lock acquisitions and its reads of
an operation's state, so that other calls and the operations' tasks may run
between any two of them. `insert` does not wait while it holds the write lock,
which makes its critical section one operation (`insertWrite`);
`collect_finished` holds the lock while it reads states (`lockWrite` to
`retainUnlock`).

* The world keeps the data of every operation launched so far, as the handles of
  a snapshot do. `launchedBy`, `evictedBy` and `collectedBy` are history that no
  program reads.
* A new operation's ID is one that was not used before (`Uuid::new_v4`).
* Times, the method name and the parameters of an operation are left out.
-/

namespace Zallet.Rpc

open Zallet.Effect

/-- `OperationId` (lines 21–24). -/
structure OperationId where
  uuid : BitVec 128
  deriving DecidableEq

/-- `OperationState` (lines 56–65). -/
inductive OperationState
  | Ready
  | Executing
  | Cancelled
  | Failed
  | Success
  deriving DecidableEq

/-- `OperationState::is_finished` (lines 79–82). -/
def OperationState.isFinished : OperationState → Bool
  | Ready => false
  | Executing => false
  | Cancelled => true
  | Failed => true
  | Success => true

/-- `ErrorObjectOwned`, without its data. -/
structure RpcError where
  code : ℤ
  message : String
  deriving DecidableEq

/-- `OperationData` (lines 97–103). A JSON value is its text. -/
structure OperationData where
  state : OperationState
  result : Option (Except RpcError String)
  deriving DecidableEq

/-- The data `AsyncOperation::new` starts with (lines 121–126). -/
def OperationData.new : OperationData := ⟨.Ready, none⟩

/-- `OperationStatus` (lines 404–429). -/
structure OperationStatus where
  id : OperationId
  status : OperationState
  error : Option RpcError
  result : Option String
  deriving DecidableEq

/-- `AsyncOperation::to_status` (lines 200–249). -/
def toStatus (id : OperationId) (data : OperationData) : OperationStatus :=
  match data.result with
  | none => ⟨id, data.state, none, none⟩
  | some (.error e) => ⟨id, data.state, some e, none⟩
  | some (.ok value) => ⟨id, data.state, none, some value⟩

/-- `OperationQueue::full_error` (lines 396–401). -/
def fullError : RpcError :=
  ⟨-7, "Too many pending asynchronous operations; " ++
    "collect finished operations with z_getoperationresult"⟩

/-- The operations of the calls and of the spawned tasks. -/
inductive QueueOp
  | readOps
  | state (id : OperationId)
  | toStatus (id : OperationId)
  | insertWrite (finished : List OperationId)
  | lockWrite
  | retainUnlock (remove : List OperationId)
  | start (id : OperationId)
  | runFuture (id : OperationId)
  | record (id : OperationId) (res : Except RpcError String)
  deriving DecidableEq

@[reducible] def QueueOp.Ret : QueueOp → Type
  | readOps => List OperationId
  | state _ => OperationState
  | toStatus _ => OperationStatus
  | insertWrite _ => Except RpcError OperationId
  | lockWrite => List OperationId
  | retainUnlock _ => Unit
  | start _ => Bool
  | runFuture _ => Except RpcError String
  | record _ _ => Unit

@[reducible] def queueSig : Sig := ⟨QueueOp, QueueOp.Ret⟩

/-! ## Calls -/

/-- The loop of `finished_ids` (lines 387–392). -/
def finishedAmong : List OperationId → Prog queueSig (List OperationId)
  | [] => pure []
  | id :: rest => do
    let state ← Prog.call (S := queueSig) (.state id)
    let finished ← finishedAmong rest
    pure (if state.isFinished then id :: finished else finished)

/-- `finished_ids` (lines 375–394). -/
def finishedIds : Prog queueSig (List OperationId) := do
  let snapshot ← Prog.call (S := queueSig) .readOps
  finishedAmong snapshot

/-- The loop of `any_finished` (lines 367–371). -/
def anyFinishedAmong : List OperationId → Prog queueSig Bool
  | [] => pure false
  | id :: rest => do
    let state ← Prog.call (S := queueSig) (.state id)
    if state.isFinished then pure true else anyFinishedAmong rest

/-- `any_finished` (lines 355–373). -/
def anyFinished : Prog queueSig Bool := do
  let snapshot ← Prog.call (S := queueSig) .readOps
  anyFinishedAmong snapshot

/-- `insert` (lines 272–309). -/
def insert : Prog queueSig (Except RpcError OperationId) := do
  let finished ← finishedIds
  Prog.call (S := queueSig) (.insertWrite finished)

/-- `check_capacity` (lines 311–323). -/
def checkCapacity (limit : ℕ) : Prog queueSig (Except RpcError Unit) := do
  let ops ← Prog.call (S := queueSig) .readOps
  if ops.length < limit then pure (.ok ())
  else do
    let any ← anyFinished
    pure (if any then .ok () else .error fullError)

/-- The loop of `collect_finished` (lines 344–349): the statuses and the IDs to
    remove. -/
def collectAmong : List OperationId → Prog queueSig (List OperationStatus × List OperationId)
  | [] => pure ([], [])
  | id :: rest => do
    let state ← Prog.call (S := queueSig) (.state id)
    if state.isFinished then do
      let status ← Prog.call (S := queueSig) (.toStatus id)
      let found ← collectAmong rest
      pure (status :: found.1, id :: found.2)
    else collectAmong rest

/-- `collect_finished` (lines 330–353). -/
def collectFinished (filter : OperationId → Bool) : Prog queueSig (List OperationStatus) := do
  let ops ← Prog.call (S := queueSig) .lockWrite
  let found ← collectAmong (ops.filter filter)
  Prog.call (S := queueSig) (.retainUnlock found.2)
  pure found.1

/-- The task of an operation (lines 130–180). `runFuture` stands for the future
    itself; a panic of it is caught and returned as an error. -/
def operationTask (id : OperationId) : Prog queueSig Unit := do
  if ← Prog.call (S := queueSig) (.start id) then do
    let res ← Prog.call (S := queueSig) (.runFuture id)
    Prog.call (S := queueSig) (.record id res)
  else pure ()

/-! ## The queue -/

/-- The queue, the data of every operation launched so far, and what each program
    has launched, evicted and collected. -/
structure QueueWorld (ι : Type) where
  ops : List OperationId
  writer : Option ι
  data : OperationId → Option OperationData
  launchedBy : ι → Option OperationId
  evictedBy : ι → List OperationId
  collectedBy : ι → List OperationId

/-- `OperationQueue::new` (lines 265–270). -/
def QueueWorld.new (ι : Type) : QueueWorld ι where
  ops := []
  writer := none
  data _ := none
  launchedBy _ := none
  evictedBy _ := []
  collectedBy _ := []

/-- The closure of `retain` in `insert` (lines 290–297): what it removes and what
    it keeps. -/
def evict (finished : List OperationId) :
    ℕ → List OperationId → List OperationId × List OperationId
  | _, [] => ([], [])
  | excess, id :: rest =>
    if 0 < excess ∧ id ∈ finished then
      let r := evict finished (excess - 1) rest
      (id :: r.1, r.2)
    else
      let r := evict finished excess rest
      (r.1, id :: r.2)

/-- What `insert` removes from and keeps of the queue before it adds to it (lines
    286–297). -/
def makeRoom (limit : ℕ) (finished ops : List OperationId) :
    List OperationId × List OperationId :=
  if limit ≤ ops.length then evict finished (ops.length + 1 - limit) ops else ([], ops)

variable {ι : Type} [DecidableEq ι]

/-- The world after `insert` was rejected. -/
def QueueWorld.reject (w : QueueWorld ι) (who : ι) (room : List OperationId × List OperationId) :
    QueueWorld ι :=
  { w with ops := room.2, evictedBy := Function.update w.evictedBy who room.1 }

/-- The world after `insert` launched the operation `id`. -/
def QueueWorld.launch (w : QueueWorld ι) (who : ι) (room : List OperationId × List OperationId)
    (id : OperationId) : QueueWorld ι :=
  { w with
    ops := room.2 ++ [id]
    data := Function.update w.data id (some .new)
    launchedBy := Function.update w.launchedBy who (some id)
    evictedBy := Function.update w.evictedBy who room.1 }

/-- The world after `collect_finished` removed what it collected. -/
def QueueWorld.retain (w : QueueWorld ι) (who : ι) (remove : List OperationId) : QueueWorld ι :=
  { w with
    ops := w.ops.filter fun id => decide (id ∉ remove)
    writer := none
    collectedBy := Function.update w.collectedBy who remove }

/-- The world after the data of an operation was written. -/
def QueueWorld.write (w : QueueWorld ι) (id : OperationId) (data : OperationData) : QueueWorld ι :=
  { w with data := Function.update w.data id (some data) }

/-- The state of an operation when its future has returned (lines 172–176). -/
def outcomeState : Except RpcError String → OperationState
  | .ok _ => .Success
  | .error _ => .Failed

/-- What each operation does, performed by `who`. A lock of the queue is taken
    only while no call holds the write lock. -/
def queueContract (limit : ℕ) (who : ι) : Contract queueSig (QueueWorld ι)
  | .readOps, w, r, w' => w.writer = none ∧ r = w.ops ∧ w' = w
  | .state id, w, r, w' => (∃ data, w.data id = some data ∧ r = data.state) ∧ w' = w
  | .toStatus id, w, r, w' => (∃ data, w.data id = some data ∧ r = toStatus id data) ∧ w' = w
  | .insertWrite finished, w, r, w' => w.writer = none ∧
    if limit ≤ (makeRoom limit finished w.ops).2.length then
      r = .error fullError ∧ w' = w.reject who (makeRoom limit finished w.ops)
    else ∃ id, w.data id = none ∧ r = .ok id ∧ w' = w.launch who (makeRoom limit finished w.ops) id
  | .lockWrite, w, r, w' => w.writer = none ∧ r = w.ops ∧ w' = { w with writer := some who }
  | .retainUnlock remove, w, _, w' => w' = w.retain who remove
  | .start id, w, r, w' => ∃ data, w.data id = some data ∧
    if data.state = .Cancelled then r = false ∧ w' = w
    else r = true ∧ w' = w.write id { data with state := .Executing }
  | .runFuture _, w, _, w' => w' = w
  | .record id res, w, _, w' =>
    (w.data id).isSome ∧ w' = w.write id ⟨outcomeState res, some res⟩

end Zallet.Rpc
