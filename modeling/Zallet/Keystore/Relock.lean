import Zallet.Effect.Pool

/-!
# Unlocking and re-locking the keystore

`KeyStore::unlock`, `KeyStore::lock` and the re-lock task that `unlock` spawns
(`zallet-core/src/components/keystore.rs`, lines 353–465), for a keystore whose
identities are encrypted.

A call is a program whose operations are its await points and what it does
between them. At an await point its future may be dropped: the operation then
answers `false`, and the guard of `relock_task`, if the call holds it, is
released. A task that was aborted may still finish the poll it is in.

`Idle` configurations are those in which no call is in progress. A call dropped
after it took the handle of the re-lock task leaves the keystore unlocked with no
task to re-lock it (`relock_lost`); `relock_pending` is the guarantee for every
run in which that does not happen.

* `taken` and `latest` are history that no program reads.
* `decrypt` stands for `age`: it decrypts the identity file, or fails.
-/

namespace Zallet.Keystore

open Zallet.Effect

/-- An age identity. -/
structure Identity where
  secret : String
  deriving DecidableEq

/-- The `JoinHandle` of a re-lock task. -/
structure TaskId where
  id : ℕ
  deriving DecidableEq

/-- The two errors of `unlock` (`keystore/error.rs`, lines 36–40). -/
inductive KeystoreError
  | IncorrectPassphrase
  | TimeoutTooLarge
  deriving DecidableEq

/-- `SystemTime::checked_add`, in seconds. -/
def checkedAdd (now timeout : ℕ) : Option ℕ :=
  if now + timeout < 2 ^ 63 then some (now + timeout) else none

inductive KeyOp
  | now
  | lockRelockTask
  | takeRelockTask
  | join (task : TaskId)
  | writeIdentities (identities : List Identity) (relockAt : ℕ)
  | clearIdentities
  | sleep (task : TaskId)
  | expire (task : TaskId)
  deriving DecidableEq

@[reducible] def KeyOp.Ret : KeyOp → Type
  | now => ℕ
  | lockRelockTask => Bool
  | takeRelockTask => Option TaskId
  | join _ => Bool
  | writeIdentities _ _ => Bool
  | clearIdentities => Bool
  | sleep _ => Bool
  | expire _ => Unit

@[reducible] def keySig : Sig := ⟨KeyOp, KeyOp.Ret⟩

/-- Take the existing re-lock task, abort it and wait for it (lines 399–404 and
    457–462). -/
def stopExisting : Prog keySig Bool := do
  match ← Prog.call (S := keySig) .takeRelockTask with
  | none => pure true
  | some task => Prog.call (S := keySig) (.join task)

/-- `KeyStore::unlock` once the identities are decrypted (lines 396–420). -/
def storeIdentities (identities : List Identity) (relockAt : ℕ) :
    Prog keySig (Option (Except KeystoreError Unit)) := do
  if ← Prog.call (S := keySig) .lockRelockTask then do
    if ← stopExisting then do
      let written ← Prog.call (S := keySig) (.writeIdentities identities relockAt)
      pure (if written then some (.ok ()) else none)
    else pure none
  else pure none

/-- `KeyStore::unlock` (lines 353–421); `none` if the call was dropped. -/
def unlock (decrypt : String → Option (List Identity)) (passphrase : String) (timeout : ℕ) :
    Prog keySig (Option (Except KeystoreError Unit)) := do
  let now ← Prog.call (S := keySig) .now
  match checkedAdd now timeout with
  | none => pure (some (.error .TimeoutTooLarge))
  | some relockAt =>
    match decrypt passphrase with
    | none => pure (some (.error .IncorrectPassphrase))
    | some identities => storeIdentities identities relockAt

/-- `KeyStore::lock` (lines 448–465); `none` if the call was dropped. -/
def lock : Prog keySig (Option (Except KeystoreError Unit)) := do
  if ← Prog.call (S := keySig) .lockRelockTask then do
    if ← stopExisting then do
      let cleared ← Prog.call (S := keySig) .clearIdentities
      pure (if cleared then some (.ok ()) else none)
    else pure none
  else pure none

/-- The re-lock task (lines 414–417). -/
def relockTask (task : TaskId) : Prog keySig (Option (Except KeystoreError Unit)) := do
  if ← Prog.call (S := keySig) (.sleep task) then do
    Prog.call (S := keySig) (.expire task)
    pure (some (.ok ()))
  else pure none

/-! ## The keystore -/

/-- The state of a spawned task. -/
structure TaskState where
  aborted : Bool
  finished : Bool
  deriving DecidableEq

/-- The keystore and its tasks. `taken` is the handle that the holder of
    `relock_task` took, `latest` the deadline and the task of the latest successful
    `unlock`. -/
structure KeyWorld (ι : Type) where
  identities : List Identity
  relockTask : Option (ℕ × TaskId)
  holder : Option ι
  tasks : TaskId → Option TaskState
  taken : Option TaskId
  latest : Option (ℕ × TaskId)

/-- A keystore with encrypted identities when it is loaded (lines 287–293). -/
def KeyWorld.new (ι : Type) : KeyWorld ι where
  identities := []
  relockTask := none
  holder := none
  tasks _ := none
  taken := none
  latest := none

variable {ι : Type}

/-- The guard of `relock_task` is released. -/
def KeyWorld.release (w : KeyWorld ι) : KeyWorld ι := { w with holder := none, taken := none }

/-- The handle is taken out of `relock_task` and its task aborted. -/
def KeyWorld.take (w : KeyWorld ι) (task : TaskId) : KeyWorld ι :=
  { w with
    relockTask := none
    tasks := Function.update w.tasks task
      ((w.tasks task).map fun state => { state with aborted := true })
    taken := some task }

/-- The identities are written, the new re-lock task is spawned and stored, and the
    guard released. -/
def KeyWorld.store (w : KeyWorld ι) (identities : List Identity) (relockAt : ℕ) (task : TaskId) :
    KeyWorld ι :=
  { w.release with
    identities := identities
    relockTask := some (relockAt, task)
    tasks := Function.update w.tasks task (some ⟨false, false⟩)
    latest := some (relockAt, task) }

/-- The task ends. -/
def KeyWorld.finish (w : KeyWorld ι) (task : TaskId) : KeyWorld ι :=
  { w with
    tasks := Function.update w.tasks task
      ((w.tasks task).map fun state => { state with finished := true }) }

/-- What each operation does, performed by `who`. -/
def keyContract (who : ι) : Contract keySig (KeyWorld ι)
  | .now, w, _, w' => w' = w
  | .lockRelockTask, w, r, w' =>
    (r = true ∧ w.holder = none ∧ w' = { w with holder := some who }) ∨ (r = false ∧ w' = w)
  | .takeRelockTask, w, r, w' =>
    match w.relockTask with
    | none => r = none ∧ w' = w
    | some (_, task) => r = some task ∧ w' = w.take task
  | .join task, w, r, w' =>
    (r = true ∧ (∃ state, w.tasks task = some state ∧ state.finished = true) ∧ w' = w) ∨
      (r = false ∧ w' = w.release)
  | .writeIdentities identities relockAt, w, r, w' =>
    (r = true ∧ ∃ task, w.tasks task = none ∧ w' = w.store identities relockAt task) ∨
      (r = false ∧ w' = w.release)
  | .clearIdentities, w, r, w' =>
    (r = true ∧ w' = { w.release with identities := [] }) ∨ (r = false ∧ w' = w.release)
  | .sleep task, w, r, w' => ∃ state, w.tasks task = some state ∧ state.finished = false ∧
    ((r = true ∧ state.aborted = false ∧ w' = w) ∨
      (r = false ∧ state.aborted = true ∧ w' = w.finish task))
  | .expire task, w, _, w' => ∃ state, w.tasks task = some state ∧ state.finished = false ∧
    (w' = { w.finish task with identities := [] } ∨ (state.aborted = true ∧ w' = w.finish task))

/-- No call is dropped after it took a handle. -/
def KeepsHandle : (o : KeyOp) → KeyWorld ι → o.Ret → Prop
  | .join _, w, r => r = false → w.taken = none
  | .writeIdentities _ _, w, r => r = false → w.taken = none
  | .clearIdentities, w, r => r = false → w.taken = none
  | _, _, _ => True

/-! ## Calls and tasks -/

/-- A call to the keystore. -/
inductive Call
  | unlock (passphrase : String) (timeout : ℕ)
  | lock
  deriving DecidableEq

/-- The programs of the pool: the calls, and the re-lock tasks. -/
abbrev Actor (K : Type) : Type := K ⊕ TaskId

variable {K : Type} [DecidableEq K]

def Call.prog (decrypt : String → Option (List Identity)) :
    Call → Prog keySig (Option (Except KeystoreError Unit))
  | .unlock passphrase timeout => Keystore.unlock decrypt passphrase timeout
  | .lock => Keystore.lock

def keyProgs (decrypt : String → Option (List Identity)) (calls : K → Call) :
    Actor K → Prog keySig (Option (Except KeystoreError Unit))
  | .inl k => (calls k).prog decrypt
  | .inr task => relockTask task

/-- What any interleaving of the calls and the tasks, run under the contract `C`,
    can lead to. -/
def KeyReach (C : Actor K → Contract keySig (KeyWorld (Actor K)))
    (decrypt : String → Option (List Identity)) (calls : K → Call)
    (c : Pool keySig (KeyWorld (Actor K)) (Actor K) (Option (Except KeystoreError Unit))) : Prop :=
  Pool.Reach C (fun _ _ => False) ⟨keyProgs decrypt calls, .new _⟩ c

/-- No call is in progress: each has not begun, has returned or was dropped. -/
def Idle (decrypt : String → Option (List Identity)) (calls : K → Call)
    (c : Pool keySig (KeyWorld (Actor K)) (Actor K) (Option (Except KeystoreError Unit))) : Prop :=
  ∀ k, c.progs (.inl k) = (calls k).prog decrypt ∨ ∃ r, c.progs (.inl k) = .pure r

/-- The keystore will re-lock at the deadline of the latest successful `unlock`. -/
def RelockPending (w : KeyWorld (Actor K)) : Prop :=
  ∃ deadline task, w.relockTask = some (deadline, task) ∧ w.latest = some (deadline, task) ∧
    w.tasks task = some ⟨false, false⟩

/-! ## What a step does -/

/-- The task has ended. -/
def Ended (w : KeyWorld (Actor K)) (task : TaskId) : Prop :=
  ∃ state, w.tasks task = some state ∧ state.finished = true

/-- What a step of program `i` does to the keystore, as long as calls keep their
    handles. -/
inductive Moves (i : Actor K) (w : KeyWorld (Actor K)) : KeyWorld (Actor K) → Prop
  | same : Moves i w w
  | lock (k : K) : i = .inl k → w.holder = none → Moves i w { w with holder := some i }
  | take (deadline : ℕ) (task : TaskId) : w.holder = some i →
      w.relockTask = some (deadline, task) → w.taken = none → Moves i w (w.take task)
  | release : w.holder = some i → w.taken = none →
      (w.identities ≠ [] → w.relockTask ≠ none) → Moves i w w.release
  | store (identities : List Identity) (relockAt : ℕ) (task : TaskId) : w.holder = some i →
      w.relockTask = none → (∀ t, w.taken = some t → Ended w t) → w.tasks task = none →
      Moves i w (w.store identities relockAt task)
  | clear : w.holder = some i → w.relockTask = none → (∀ t, w.taken = some t → Ended w t) →
      Moves i w { w.release with identities := [] }
  | expire (task : TaskId) (state : TaskState) : i = .inr task → w.tasks task = some state →
      state.finished = false → Moves i w { w.finish task with identities := [] }
  | cancel (task : TaskId) (state : TaskState) : i = .inr task → w.tasks task = some state →
      state.aborted = true → Moves i w (w.finish task)

/-- The invariant of the keystore. -/
structure KeyInv (w : KeyWorld (Actor K)) : Prop where
  running : ∀ task state, w.tasks task = some state → state.finished = false →
    (∃ deadline, w.relockTask = some (deadline, task)) ∨ w.taken = some task
  stored : ∀ deadline task, w.relockTask = some (deadline, task) →
    w.latest = some (deadline, task) ∧ ∃ state, w.tasks task = some state ∧
      state.aborted = false ∧ (state.finished = true → w.identities = [])
  taken : ∀ task, w.taken = some task → w.relockTask = none ∧
    ∃ deadline, w.latest = some (deadline, task)
  free : w.holder = none → w.taken = none ∧ (w.identities ≠ [] → w.relockTask ≠ none)
  holder : ∀ task, w.holder ≠ some (.inr task)

omit [DecidableEq K] in
theorem keyInv_new : KeyInv (KeyWorld.new (Actor K)) where
  running _ _ h := by cases h
  stored _ _ h := by cases h
  taken _ h := by cases h
  free _ := ⟨rfl, fun h => absurd rfl h⟩
  holder _ h := by cases h

variable {i j : Actor K} {w w' : KeyWorld (Actor K)}

omit [DecidableEq K] in
/-- Ending a task changes only that task. -/
theorem finish_tasks {task t : TaskId} {state : TaskState}
    (h : (w.finish task).tasks t = some state) :
    (t = task ∧ state.finished = true) ∨ (t ≠ task ∧ w.tasks t = some state) := by
  by_cases heq : t = task
  · subst heq
    simp only [KeyWorld.finish, Function.update_self, Option.map_eq_some_iff] at h
    obtain ⟨old, -, rfl⟩ := h
    exact Or.inl ⟨rfl, rfl⟩
  · exact Or.inr ⟨heq, by simpa [KeyWorld.finish, Function.update_of_ne heq] using h⟩

omit [DecidableEq K] in
theorem Moves.ended (h : Moves i w w') {t : TaskId} (ht : Ended w t) : Ended w' t := by
  obtain ⟨state, hstate, hfin⟩ := ht
  have hfinish : ∀ task, Ended (w.finish task) t := by
    intro task
    by_cases heq : t = task
    · subst heq
      exact ⟨⟨state.aborted, true⟩, by simp [KeyWorld.finish, hstate], rfl⟩
    · exact ⟨state, by simpa [KeyWorld.finish, Function.update_of_ne heq] using hstate, hfin⟩
  cases h with
  | same => exact ⟨state, hstate, hfin⟩
  | lock => exact ⟨state, hstate, hfin⟩
  | release => exact ⟨state, hstate, hfin⟩
  | clear => exact ⟨state, hstate, hfin⟩
  | expire task => exact hfinish task
  | cancel task => exact hfinish task
  | take deadline task =>
    by_cases heq : t = task
    · subst heq
      exact ⟨⟨true, state.finished⟩, by simp [KeyWorld.take, hstate], hfin⟩
    · exact ⟨state, by simpa [KeyWorld.take, Function.update_of_ne heq] using hstate, hfin⟩
  | store identities relockAt task _ _ _ hnew =>
    have hne : t ≠ task := by
      rintro rfl
      rw [hnew] at hstate
      cases hstate
    exact ⟨state, by simpa [KeyWorld.store, Function.update_of_ne hne] using hstate, hfin⟩

omit [DecidableEq K] in
/-- Without a stored or taken handle that still runs, no task runs. -/
theorem KeyInv.idle (hw : KeyInv w) (hrelock : w.relockTask = none)
    (htaken : ∀ t, w.taken = some t → Ended w t) {task : TaskId} {state : TaskState}
    (hstate : w.tasks task = some state) (hrun : state.finished = false) : False := by
  rcases hw.running task state hstate hrun with ⟨d, hd⟩ | ht
  · rw [hrelock] at hd
    cases hd
  · obtain ⟨state', hstate', hfin⟩ := htaken task ht
    obtain rfl := Option.some.inj (hstate.symm.trans hstate')
    rw [hrun] at hfin
    cases hfin

omit [DecidableEq K] in
/-- A task that runs after another one ended ran before. -/
theorem KeyInv.running_finish (hw : KeyInv w) {task t : TaskId} {state : TaskState}
    (hstate : (w.finish task).tasks t = some state) (hrun : state.finished = false) :
    (∃ deadline, w.relockTask = some (deadline, t)) ∨ w.taken = some t := by
  rcases finish_tasks hstate with ⟨-, hfin⟩ | ⟨-, ht⟩
  · rw [hrun] at hfin
    cases hfin
  · exact hw.running t state ht hrun

omit [DecidableEq K] in
/-- The invariant is kept by every step. -/
theorem Moves.inv (h : Moves i w w') (hw : KeyInv w) : KeyInv w' := by
  cases h with
  | same => exact hw
  | lock k hk hfree =>
    refine { hw with free := ?_, holder := ?_ }
    · intro h
      cases h
    · rintro task h
      rw [hk] at h
      cases h
  | release hheld htaken hids =>
    refine { hw with running := ?_, taken := ?_, free := ?_, holder := ?_ }
    · intro task state hstate hrun
      rcases hw.running task state hstate hrun with hd | ht
      · exact Or.inl hd
      · rw [htaken] at ht
        cases ht
    · intro task h
      cases h
    · exact fun _ => ⟨rfl, hids⟩
    · intro task h
      cases h
  | take deadline task hheld hrelock htaken =>
    obtain ⟨hlatest, state, hstate, -, -⟩ := hw.stored deadline task hrelock
    refine { hw with running := ?_, stored := ?_, taken := ?_, free := ?_ }
    · intro t state' hstate' hrun
      by_cases heq : t = task
      · exact Or.inr (by rw [heq]; rfl)
      · have ht : w.tasks t = some state' := by
          simpa [KeyWorld.take, Function.update_of_ne heq] using hstate'
        rcases hw.running t state' ht hrun with ⟨d, hd⟩ | hd
        · rw [hrelock] at hd
          exact absurd (Prod.mk.inj (Option.some.inj hd)).2.symm heq
        · rw [htaken] at hd
          cases hd
    · intro d t h
      cases h
    · intro t h
      obtain rfl : task = t := Option.some.inj h
      exact ⟨rfl, deadline, hlatest⟩
    · intro h
      rw [show (w.take task).holder = w.holder from rfl, hheld] at h
      cases h
  | store identities relockAt task hheld hrelock htaken hnew =>
    refine {
      running := ?_
      stored := ?_
      taken := fun t h => by cases h
      free := fun _ => ⟨rfl, fun _ h => by cases h⟩
      holder := fun t h => by cases h }
    · intro t state hstate hrun
      by_cases heq : t = task
      · exact Or.inl ⟨relockAt, by rw [heq]; rfl⟩
      · have ht : w.tasks t = some state := by
          simpa [KeyWorld.store, Function.update_of_ne heq] using hstate
        exact (hw.idle hrelock htaken ht hrun).elim
    · intro d t h
      obtain ⟨rfl, rfl⟩ := Prod.mk.inj (Option.some.inj h)
      exact ⟨rfl, ⟨false, false⟩, Function.update_self .., rfl, fun h => by cases h⟩
  | clear hheld hrelock htaken =>
    refine {
      running := fun t state hstate hrun => (hw.idle hrelock htaken hstate hrun).elim
      stored := ?_
      taken := fun t h => by cases h
      free := fun _ => ⟨rfl, fun h => absurd rfl h⟩
      holder := fun t h => by cases h }
    intro d t h
    rw [show ({ w.release with identities := [] } : KeyWorld (Actor K)).relockTask = w.relockTask
      from rfl, hrelock] at h
    cases h
  | expire task state hi hstate hrun =>
    refine { hw with running := ?_, stored := ?_, free := ?_ }
    · exact fun t state' hstate' hrun' => hw.running_finish hstate' hrun'
    · intro d t h
      obtain ⟨hlatest, state', hstate', habort, -⟩ := hw.stored d t h
      refine ⟨hlatest, ?_⟩
      by_cases heq : t = task
      · subst heq
        exact ⟨⟨state'.aborted, true⟩, by simp [KeyWorld.finish, hstate'], habort, fun _ => rfl⟩
      · exact ⟨state', by simpa [KeyWorld.finish, Function.update_of_ne heq] using hstate', habort,
          fun _ => rfl⟩
    · intro h
      exact ⟨(hw.free h).1, fun h => absurd rfl h⟩
  | cancel task state hi hstate habort =>
    refine { hw with running := ?_, stored := ?_ }
    · exact fun t state' hstate' hrun' => hw.running_finish hstate' hrun'
    · intro d t h
      obtain ⟨hlatest, state', hstate', habort', hids⟩ := hw.stored d t h
      have hne : t ≠ task := by
        rintro rfl
        obtain rfl := Option.some.inj (hstate.symm.trans hstate')
        rw [habort] at habort'
        cases habort'
      exact ⟨hlatest, state', by simpa [KeyWorld.finish, Function.update_of_ne hne] using hstate',
        habort', hids⟩

/-- What program `i` may rely on while the others run. -/
structure Rely (i : Actor K) (w w' : KeyWorld (Actor K)) : Prop where
  inv : KeyInv w → KeyInv w'
  ended : ∀ task, Ended w task → Ended w' task
  holder : w'.holder = some i ↔ w.holder = some i
  still : w.holder = some i → w'.relockTask = w.relockTask ∧ w'.taken = w.taken ∧
    (w.identities = [] → w'.identities = [])

omit [DecidableEq K] in
theorem Rely.refl (i : Actor K) (w : KeyWorld (Actor K)) : Rely i w w where
  inv h := h
  ended _ h := h
  holder := Iff.rfl
  still _ := ⟨rfl, rfl, fun h => h⟩

omit [DecidableEq K] in
theorem Rely.trans {w₁ w₂ w₃ : KeyWorld (Actor K)} (h₁ : Rely i w₁ w₂) (h₂ : Rely i w₂ w₃) :
    Rely i w₁ w₃ where
  inv h := h₂.inv (h₁.inv h)
  ended t h := h₂.ended t (h₁.ended t h)
  holder := h₂.holder.trans h₁.holder
  still h := by
    obtain ⟨hr₁, ht₁, hi₁⟩ := h₁.still h
    obtain ⟨hr₂, ht₂, hi₂⟩ := h₂.still (h₁.holder.mpr h)
    exact ⟨hr₂.trans hr₁, ht₂.trans ht₁, fun h => hi₂ (hi₁ h)⟩

omit [DecidableEq K] in
/-- A step of one program is what the others rely on. -/
theorem Moves.rely (h : Moves j w w') (hij : i ≠ j) : Rely i w w' := by
  have hinv : KeyInv w → KeyInv w' := h.inv
  have hended : ∀ task, Ended w task → Ended w' task := fun _ => h.ended
  have hne : w.holder = some j → w.holder ≠ some i := by
    intro hj hi
    exact hij (Option.some.inj (hi.symm.trans hj))
  cases h with
  | same => exact Rely.refl i w
  | lock k hk hfree =>
    refine ⟨hinv, hended, ?_, fun _ => ⟨rfl, rfl, fun h => h⟩⟩
    rw [hfree]
    exact ⟨fun h => absurd (Option.some.inj h).symm hij, (by cases ·)⟩
  | take deadline task hheld =>
    exact ⟨hinv, hended, Iff.rfl, fun h => absurd h (hne hheld)⟩
  | release hheld =>
    exact ⟨hinv, hended, ⟨(by cases ·), fun h => absurd h (hne hheld)⟩,
      fun h => absurd h (hne hheld)⟩
  | store identities relockAt task hheld =>
    exact ⟨hinv, hended, ⟨(by cases ·), fun h => absurd h (hne hheld)⟩,
      fun h => absurd h (hne hheld)⟩
  | clear hheld =>
    exact ⟨hinv, hended, ⟨(by cases ·), fun h => absurd h (hne hheld)⟩,
      fun h => absurd h (hne hheld)⟩
  | expire task => exact ⟨hinv, hended, Iff.rfl, fun _ => ⟨rfl, rfl, fun _ => rfl⟩⟩
  | cancel task => exact ⟨hinv, hended, Iff.rfl, fun _ => ⟨rfl, rfl, fun h => h⟩⟩

/-! ## What each program guarantees -/

/-- The contract of program `i` in a run in which calls keep their handles. -/
def keepingContract (i : Actor K) : Contract keySig (KeyWorld (Actor K)) :=
  (keyContract i).restrict KeepsHandle

/-- What must hold when program `i` performs an operation: the operation makes one
    of the moves, and a call that starts does not hold the guard. -/
def Allowed (i : Actor K) (o : KeyOp) (w : KeyWorld (Actor K)) : Prop :=
  (o = .now ∨ o = .lockRelockTask → w.holder ≠ some i) ∧
    ∀ r w', keepingContract i o w r w' → Moves i w w'

/-- The call does not hold the guard. -/
structure Outside (i : Actor K) (w : KeyWorld (Actor K)) : Prop where
  inv : KeyInv w
  holder : w.holder ≠ some i

omit [DecidableEq K] in
theorem Outside.rely (h : Outside i w) (hr : Rely i w w') : Outside i w' :=
  ⟨hr.inv h.inv, fun hw => h.holder (hr.holder.mp hw)⟩

/-- The call holds the guard and has not looked at the handle. -/
structure Held (i : Actor K) (w : KeyWorld (Actor K)) : Prop where
  inv : KeyInv w
  holder : w.holder = some i
  taken : w.taken = none
  pending : w.identities ≠ [] → w.relockTask ≠ none

omit [DecidableEq K] in
theorem Held.rely (h : Held i w) (hr : Rely i w w') : Held i w' := by
  obtain ⟨hrelock, htaken, hids⟩ := hr.still h.holder
  refine ⟨hr.inv h.inv, hr.holder.mpr h.holder, htaken.trans h.taken, fun hne => ?_⟩
  rw [hrelock]
  exact h.pending fun hnil => hne (hids hnil)

/-- The call holds the guard and has stopped the existing task, if there was one. -/
structure Stopped (i : Actor K) (w : KeyWorld (Actor K)) : Prop where
  inv : KeyInv w
  holder : w.holder = some i
  relockTask : w.relockTask = none
  locked : w.taken = none → w.identities = []
  ended : ∀ task, w.taken = some task → Ended w task

omit [DecidableEq K] in
theorem Stopped.rely (h : Stopped i w) (hr : Rely i w w') : Stopped i w' := by
  obtain ⟨hrelock, htaken, hids⟩ := hr.still h.holder
  refine ⟨hr.inv h.inv, hr.holder.mpr h.holder, hrelock.trans h.relockTask, fun ht => ?_,
    fun t ht => hr.ended t (h.ended t (htaken ▸ ht))⟩
  exact hids (h.locked (htaken ▸ ht))

omit [DecidableEq K] in
/-- A call dropped while it waits to write had taken no handle. -/
theorem Stopped.release (h : Stopped i w) (htaken : w.taken = none) : Moves i w w.release :=
  .release h.holder htaken fun hne => absurd (h.locked htaken) hne

omit [DecidableEq K] in
theorem wp_lockRelockTask {k : K} {Q : Bool → KeyWorld (Actor K) → Prop}
    (h : Outside (.inl k) w) (hheld : ∀ w', Held (.inl k) w' → Q true w')
    (hdropped : ∀ w', Outside (.inl k) w' → Q false w') :
    wp (keepingContract (.inl k)) (Rely (.inl k)) (Allowed (.inl k)) Q
      (Prog.call (S := keySig) .lockRelockTask) w := by
  intro w₁ hw₁
  have h₁ := h.rely hw₁
  refine ⟨⟨fun _ => h₁.holder, ?_⟩, ?_⟩
  · rintro r w' ⟨⟨-, hfree, rfl⟩ | ⟨-, rfl⟩, -⟩
    · exact .lock k rfl hfree
    · exact .same
  · rintro r w' ⟨⟨rfl, hfree, rfl⟩ | ⟨rfl, rfl⟩, -⟩
    · obtain ⟨htaken, hpending⟩ := h₁.inv.free hfree
      exact hheld _ ⟨(Moves.lock k rfl hfree).inv h₁.inv, rfl, htaken, hpending⟩
    · exact hdropped _ h₁

omit [DecidableEq K] in
/-- Stopping the existing task is not cut short. -/
theorem wp_stopExisting {k : K} (h : Held (.inl k) w) :
    wp (keepingContract (.inl k)) (Rely (.inl k)) (Allowed (.inl k))
      (fun r w' => r = true ∧ Stopped (.inl k) w') stopExisting w := by
  rw [stopExisting, wp_bind]
  intro w₁ hw₁
  have h₁ := h.rely hw₁
  refine ⟨⟨by simp, ?_⟩, ?_⟩
  · rintro r w' ⟨hC, -⟩
    simp only [keyContract] at hC
    split at hC
    · obtain ⟨-, rfl⟩ := hC
      exact .same
    · rename_i deadline task hrelock
      obtain ⟨-, rfl⟩ := hC
      exact .take deadline task h₁.holder hrelock h₁.taken
  · rintro r w₂ ⟨hC, -⟩
    simp only [keyContract] at hC
    split at hC
    · rename_i hrelock
      obtain ⟨rfl, rfl⟩ := hC
      refine ⟨rfl, h₁.inv, h₁.holder, hrelock, fun _ => ?_, fun t ht => ?_⟩
      · by_contra hne
        exact h₁.pending hne hrelock
      · rw [h₁.taken] at ht
        cases ht
    · rename_i deadline task hrelock
      obtain ⟨rfl, rfl⟩ := hC
      have hmove : Moves (.inl k) w₁ (w₁.take task) :=
        .take deadline task h₁.holder hrelock h₁.taken
      have hinv₂ := hmove.inv h₁.inv
      intro w₃ hw₃
      obtain ⟨hrelock₃, htaken₃, -⟩ := hw₃.still (h₁.holder : (w₁.take task).holder = _)
      have htaken : w₃.taken = some task := htaken₃
      refine ⟨⟨by simp, ?_⟩, ?_⟩
      · rintro r w' ⟨⟨-, -, rfl⟩ | ⟨hr, -⟩, hkeep⟩
        · exact .same
        · have hnone := hkeep hr
          rw [htaken] at hnone
          cases hnone
      · rintro r w' ⟨⟨hr, hend, rfl⟩ | ⟨hr, -⟩, hkeep⟩
        · refine ⟨hr, hw₃.inv hinv₂, hw₃.holder.mpr h₁.holder, hrelock₃, fun ht => ?_, ?_⟩
          · rw [htaken] at ht
            cases ht
          · intro t ht
            obtain rfl : task = t := Option.some.inj (htaken.symm.trans ht)
            exact hend
        · have hnone := hkeep hr
          rw [htaken] at hnone
          cases hnone

/-- The guard is given back, whatever becomes of the call. -/
def GivesBack (i : Actor K) (_ : Option (Except KeystoreError Unit)) (w : KeyWorld (Actor K)) :
    Prop :=
  ∀ k, i = .inl k → w.holder ≠ some i

omit [DecidableEq K] in
theorem GivesBack.rely {r : Option (Except KeystoreError Unit)} (h : GivesBack i r w)
    (hr : Rely i w w') : GivesBack i r w' :=
  fun k hk hw => h k hk (hr.holder.mp hw)

omit [DecidableEq K] in
theorem wp_storeIdentities {k : K} (identities : List Identity) (relockAt : ℕ)
    (h : Outside (.inl k) w) :
    wp (keepingContract (.inl k)) (Rely (.inl k)) (Allowed (.inl k)) (GivesBack (.inl k))
      (storeIdentities identities relockAt) w := by
  rw [storeIdentities, wp_bind]
  refine wp_lockRelockTask h (fun w₁ h₁ => ?_) fun w₁ h₁ => fun _ _ => h₁.holder
  rw [if_pos rfl, wp_bind]
  refine wp_post (wp_stopExisting h₁) ?_
  rintro r w₂ ⟨rfl, h₂⟩
  rw [if_pos rfl, wp_bind]
  intro w₃ hw₃
  have h₃ := h₂.rely hw₃
  refine ⟨⟨by simp, ?_⟩, ?_⟩
  · rintro r w' ⟨⟨-, task, hnew, rfl⟩ | ⟨hr, rfl⟩, hkeep⟩
    · exact .store identities relockAt task h₃.holder h₃.relockTask h₃.ended hnew
    · exact h₃.release (hkeep hr)
  · rintro r w' ⟨⟨-, task, -, rfl⟩ | ⟨-, rfl⟩, -⟩
    · exact fun _ _ hw => by cases hw
    · exact fun _ _ hw => by cases hw

omit [DecidableEq K] in
theorem wp_unlock {k : K} (decrypt : String → Option (List Identity)) (passphrase : String)
    (timeout : ℕ) (h : Outside (.inl k) w) :
    wp (keepingContract (.inl k)) (Rely (.inl k)) (Allowed (.inl k)) (GivesBack (.inl k))
      (unlock decrypt passphrase timeout) w := by
  rw [unlock, wp_bind, wp_call]
  intro w₁ hw₁
  have h₁ := h.rely hw₁
  refine ⟨⟨fun _ => h₁.holder, ?_⟩, ?_⟩
  · rintro r w' ⟨rfl, -⟩
    exact .same
  rintro now w' ⟨rfl, -⟩
  cases checkedAdd now timeout with
  | none => exact fun _ _ => h₁.holder
  | some relockAt =>
    cases decrypt passphrase with
    | none => exact fun _ _ => h₁.holder
    | some identities => exact wp_storeIdentities identities relockAt h₁

omit [DecidableEq K] in
theorem wp_lock {k : K} (h : Outside (.inl k) w) :
    wp (keepingContract (.inl k)) (Rely (.inl k)) (Allowed (.inl k)) (GivesBack (.inl k))
      lock w := by
  rw [lock, wp_bind]
  refine wp_lockRelockTask h (fun w₁ h₁ => ?_) fun w₁ h₁ => fun _ _ => h₁.holder
  rw [if_pos rfl, wp_bind]
  refine wp_post (wp_stopExisting h₁) ?_
  rintro r w₂ ⟨rfl, h₂⟩
  rw [if_pos rfl, wp_bind]
  intro w₃ hw₃
  have h₃ := h₂.rely hw₃
  refine ⟨⟨by simp, ?_⟩, ?_⟩
  · rintro r w' ⟨⟨-, rfl⟩ | ⟨hr, rfl⟩, hkeep⟩
    · exact .clear h₃.holder h₃.relockTask h₃.ended
    · exact h₃.release (hkeep hr)
  · rintro r w' ⟨⟨-, rfl⟩ | ⟨-, rfl⟩, -⟩
    · exact fun _ _ hw => by cases hw
    · exact fun _ _ hw => by cases hw

omit [DecidableEq K] in
theorem wp_relockTask (task : TaskId) (w : KeyWorld (Actor K)) :
    wp (keepingContract (.inr task)) (Rely (.inr task)) (Allowed (.inr task))
      (GivesBack (.inr task)) (relockTask task) w := by
  rw [relockTask, wp_bind, wp_call]
  intro w₁ _
  refine ⟨⟨by simp, ?_⟩, ?_⟩
  · rintro r w' ⟨⟨state, hstate, -, ⟨-, -, rfl⟩ | ⟨-, habort, rfl⟩⟩, -⟩
    · exact .same
    · exact .cancel task state rfl hstate habort
  rintro r w₂ -
  split
  · rw [wp_bind]
    intro w₃ _
    refine ⟨⟨by simp, ?_⟩, fun _ _ _ k hk => by cases hk⟩
    rintro r w' ⟨⟨state, hstate, hrun, rfl | ⟨habort, rfl⟩⟩, -⟩
    · exact .expire task state rfl hstate hrun
    · exact .cancel task state rfl hstate habort
  · intro k hk
    cases hk

omit [DecidableEq K] in
theorem wp_keyProgs (decrypt : String → Option (List Identity)) (calls : K → Call) (i : Actor K) :
    wp (keepingContract i) (Rely i) (Allowed i) (GivesBack i) (keyProgs decrypt calls i)
      (.new _) := by
  cases i with
  | inl k =>
    have hout : Outside (.inl k) (.new (Actor K)) := ⟨keyInv_new, fun h => by cases h⟩
    show wp _ _ _ _ ((calls k).prog decrypt) _
    cases calls k with
    | unlock passphrase timeout => exact wp_unlock decrypt passphrase timeout hout
    | lock => exact wp_lock hout
  | inr task => exact wp_relockTask task _

/-! ## Every run -/

variable {decrypt : String → Option (List Identity)} {calls : K → Call}
  {c : Pool keySig (KeyWorld (Actor K)) (Actor K) (Option (Except KeystoreError Unit))}

theorem KeyReach.wp (h : KeyReach keepingContract decrypt calls c) (i : Actor K) :
    ∃ w, Rely i w c.world ∧
      Effect.wp (keepingContract i) (Rely i) (Allowed i) (GivesBack i) (c.progs i) w :=
  Pool.inv (fun _ _ _ _ => Rely.trans) Rely.refl
    (fun _ _ hij _ _ _ _ hok hC => (hok.2 _ _ hC).rely hij) (fun _ _ _ h => h.elim)
    (wp_keyProgs decrypt calls) h i

theorem KeyReach.inv (h : KeyReach keepingContract decrypt calls c) : KeyInv c.world :=
  Pool.world_inv (fun _ _ _ _ => Rely.trans) Rely.refl
    (fun _ _ hij _ _ _ _ hok hC => (hok.2 _ _ hC).rely hij) (fun _ _ _ h => h.elim)
    (fun _ _ _ _ _ hok hC hI => (hok.2 _ _ hC).inv hI) (fun _ _ h => h.elim)
    (wp_keyProgs decrypt calls) keyInv_new h

omit [DecidableEq K] in
theorem Call.prog_eq (call : Call) (decrypt : String → Option (List Identity)) :
    ∃ o k, (o = .now ∨ o = .lockRelockTask) ∧ call.prog decrypt = .op o k := by
  cases call with
  | unlock passphrase timeout => exact ⟨.now, _, Or.inl rfl, rfl⟩
  | lock => exact ⟨.lockRelockTask, _, Or.inr rfl, rfl⟩

/-- Between calls nobody holds the guard. -/
theorem KeyReach.unheld (h : KeyReach keepingContract decrypt calls c)
    (hidle : Idle decrypt calls c) : c.world.holder = none := by
  cases hholder : c.world.holder with
  | none => rfl
  | some i =>
    exfalso
    cases i with
    | inr task => exact h.inv.holder task hholder
    | inl k =>
      rcases hidle k with hstart | ⟨r, hr⟩
      · obtain ⟨o, cont, ho, hprog⟩ := (calls k).prog_eq decrypt
        exact (Pool.performs (h.wp (.inl k)) (hstart.trans hprog)).1 ho hholder
      · obtain ⟨w, hw, hback⟩ := Pool.returned (h.wp (.inl k)) hr
        exact hback.rely hw k rfl hholder

/-- In every run in which no call is dropped after it took the handle of a re-lock
    task: while no call is in progress, an unlocked keystore has a live re-lock task
    with the deadline of the latest successful `unlock`; and a re-lock task only
    clears the identities of its own `unlock`. -/
theorem relock_pending {K : Type} [DecidableEq K] {decrypt : String → Option (List Identity)}
    {calls : K → Call}
    {c : Pool keySig (KeyWorld (Actor K)) (Actor K) (Option (Except KeystoreError Unit))}
    (h : KeyReach keepingContract decrypt calls c) :
    (Idle decrypt calls c → c.world.identities ≠ [] → RelockPending c.world) ∧
      ∀ task o cont r w', c.progs (.inr task) = .op o cont →
        keepingContract (.inr task) o c.world r w' → w'.identities ≠ c.world.identities →
        ∃ deadline, c.world.latest = some (deadline, task) := by
  have hinv := h.inv
  constructor
  · intro hidle hne
    obtain ⟨-, hpending⟩ := hinv.free (h.unheld hidle)
    obtain ⟨⟨deadline, task⟩, hrelock⟩ := Option.ne_none_iff_exists'.mp (hpending hne)
    obtain ⟨hlatest, state, hstate, habort, hfin⟩ := hinv.stored deadline task hrelock
    refine ⟨deadline, task, hrelock, hlatest, ?_⟩
    have hrun : state.finished = false := by
      cases hf : state.finished with
      | false => rfl
      | true => exact absurd (hfin hf) hne
    obtain ⟨aborted, finished⟩ := state
    obtain rfl : aborted = false := habort
    obtain rfl : finished = false := hrun
    exact hstate
  · intro task o cont r w' ho hC hne
    have hmove : Moves (.inr task) c.world w' := (Pool.performs (h.wp _) ho).2 r w' hC
    cases hmove with
    | same => exact absurd rfl hne
    | lock k hk => cases hk
    | take => exact absurd rfl hne
    | release => exact absurd rfl hne
    | cancel => exact absurd rfl hne
    | store _ _ _ hheld => exact absurd hheld (hinv.holder task)
    | clear hheld => exact absurd hheld (hinv.holder task)
    | expire t state hi hstate hrun =>
      obtain rfl : task = t := Sum.inr.inj hi
      rcases hinv.running task state hstate hrun with ⟨deadline, hd⟩ | ht
      · exact ⟨deadline, (hinv.stored deadline task hd).1⟩
      · exact (hinv.taken task ht).2

/-! ## A dropped call -/

/-- The identity file of the example decrypts with the passphrase "correct". -/
def decryptCorrect (passphrase : String) : Option (List Identity) :=
  if passphrase = "correct" then some [⟨"AGE-SECRET-KEY"⟩] else none

/-- The call `true` unlocks for a minute, the call `false` locks. -/
def minuteThenLock : Bool → Call
  | true => .unlock "correct" 60
  | false => .lock

/-- The keystore while the call `k` holds the guard, from the world `w`. -/
def KeyWorld.heldBy (w : KeyWorld (Actor Bool)) (k : Bool) : KeyWorld (Actor Bool) :=
  { w with holder := some (.inl k) }

/-- The keystore after the `unlock`. -/
def unlockedWorld : KeyWorld (Actor Bool) :=
  ((KeyWorld.new (Actor Bool)).heldBy true).store [⟨"AGE-SECRET-KEY"⟩] 60 ⟨0⟩

theorem run_unlock_minute :
    ∃ τ, Run (keepingContract (.inl true)) ((minuteThenLock true).prog decryptCorrect)
      (KeyWorld.new (Actor Bool)) τ (some (.ok ())) unlockedWorld := by
  have hnow : keepingContract (.inl true) .now (KeyWorld.new (Actor Bool)) 0 (.new _) :=
    ⟨rfl, trivial⟩
  have hlock : keepingContract (.inl true) .lockRelockTask (KeyWorld.new (Actor Bool)) true
      ((KeyWorld.new (Actor Bool)).heldBy true) := ⟨Or.inl ⟨rfl, rfl, rfl⟩, trivial⟩
  have htake : keepingContract (.inl true) .takeRelockTask ((KeyWorld.new (Actor Bool)).heldBy true)
      none ((KeyWorld.new (Actor Bool)).heldBy true) := ⟨⟨rfl, rfl⟩, trivial⟩
  have hwrite : keepingContract (.inl true) (.writeIdentities [⟨"AGE-SECRET-KEY"⟩] 60)
      ((KeyWorld.new (Actor Bool)).heldBy true) true unlockedWorld :=
    ⟨Or.inl ⟨rfl, ⟨0⟩, rfl, rfl⟩, fun _ => rfl⟩
  obtain ⟨τ, hstore⟩ : ∃ τ, Run (keepingContract (.inl true))
      (storeIdentities [⟨"AGE-SECRET-KEY"⟩] 60) (KeyWorld.new (Actor Bool)) τ (some (.ok ()))
      unlockedWorld := ⟨_, .step hlock (.step htake (.step hwrite (.refl _ _)))⟩
  refine ⟨⟨.now, (0 : ℕ)⟩ :: τ, run_call_bind hnow ?_⟩
  rw [show checkedAdd 0 60 = some 60 from rfl,
    show decryptCorrect "correct" = some [⟨"AGE-SECRET-KEY"⟩] from if_pos rfl]
  exact hstore

/-- A `lock` that is dropped while it waits for the task it has aborted. -/
theorem reaches_lock_dropped :
    ∃ τ, Run (keyContract (.inl false)) ((minuteThenLock false).prog decryptCorrect)
      unlockedWorld τ none ((unlockedWorld.heldBy false).take ⟨0⟩).release := by
  have hlock : keyContract (.inl false) .lockRelockTask unlockedWorld true
      (unlockedWorld.heldBy false) := Or.inl ⟨rfl, rfl, rfl⟩
  have htake : keyContract (.inl false) .takeRelockTask (unlockedWorld.heldBy false) (some ⟨0⟩)
      ((unlockedWorld.heldBy false).take ⟨0⟩) := ⟨rfl, rfl⟩
  have hjoin : keyContract (.inl false) (.join ⟨0⟩) ((unlockedWorld.heldBy false).take ⟨0⟩) false
      ((unlockedWorld.heldBy false).take ⟨0⟩).release := Or.inr ⟨rfl, rfl⟩
  exact ⟨_, .step hlock (.step htake (.step hjoin (.refl _ _)))⟩

/-- After the `unlock`, a `lock` is dropped while it waits for the re-lock task it
    has aborted: no call is in progress, the keystore is unlocked and there is no
    re-lock task. -/
theorem relock_lost :
    ∃ c, KeyReach keyContract decryptCorrect minuteThenLock c ∧
      Idle decryptCorrect minuteThenLock c ∧ c.world.identities ≠ [] ∧
      ¬ RelockPending c.world := by
  obtain ⟨τ₁, hunlock⟩ := run_unlock_minute
  obtain ⟨τ₂, hlock⟩ := reaches_lock_dropped
  have hunlock' := Reaches.mono (fun _ _ _ _ hC => hC.1) hunlock
  have hfirst : KeyReach keyContract decryptCorrect minuteThenLock _ :=
    Pool.reach_of_reaches hunlock' (keyProgs decryptCorrect minuteThenLock) rfl
  have hsecond : Pool.Reach keyContract (fun _ _ => False) _ _ := Pool.reach_of_reaches hlock
    (Function.update (keyProgs decryptCorrect minuteThenLock) (.inl true) (.pure (some (.ok ()))))
    (Function.update_of_ne (by simp) ..)
  refine ⟨_, Relation.ReflTransGen.trans hfirst hsecond, ?_, ?_, ?_⟩
  · intro k
    cases k with
    | true => exact Or.inr ⟨some (.ok ()), by simp⟩
    | false => exact Or.inr ⟨none, by simp⟩
  · exact List.cons_ne_nil _ _
  · rintro ⟨deadline, task, hrelock, -⟩
    cases hrelock

/-- A minute's `unlock` leaves its re-lock task pending. -/
theorem relock_pending_minute :
    ∃ c, KeyReach keepingContract decryptCorrect minuteThenLock c ∧
      c.world.identities = [⟨"AGE-SECRET-KEY"⟩] ∧ RelockPending c.world := by
  obtain ⟨τ, hunlock⟩ := run_unlock_minute
  have hreach : KeyReach keepingContract decryptCorrect minuteThenLock _ :=
    Pool.reach_of_reaches hunlock (keyProgs decryptCorrect minuteThenLock) rfl
  refine ⟨_, hreach, rfl, (relock_pending hreach).1 ?_ (List.cons_ne_nil _ _)⟩
  intro k
  cases k with
  | true => exact Or.inr ⟨some (.ok ()), by simp⟩
  | false =>
    left
    simp [keyProgs]

end Zallet.Keystore
