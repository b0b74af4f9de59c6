import Zallet.Rpc.AsyncOp

/-!
# The operation queue under any interleaving

Any number of calls to `insert`, `collect_finished` and `check_capacity`, and
the tasks of the operations they launch, run over one queue.

`Moves` says once what a step can do to the queue: nothing, take the lock,
launch an operation, remove what was collected, or move an operation's state
forward. `QueueInv` is the invariant of the queue, and `Rely` what a call may
assume of the others: a finished operation stays finished, and the queue stands
still while the call holds the write lock. `operationQueue_safe` collects what
follows for every reachable configuration.
-/

namespace Zallet.Rpc

open Zallet.Effect

/-- The programs of the pool: the calls, and the task of each operation. -/
abbrev Actor (K : Type) : Type := K ⊕ OperationId

variable {K : Type} [DecidableEq K] {limit : ℕ}

/-- The operation has finished. -/
def Finished (w : QueueWorld (Actor K)) (id : OperationId) : Prop :=
  ∃ data, w.data id = some data ∧ data.state.isFinished = true

/-! ## Making room -/

theorem evict_spec (finished : List OperationId) (excess : ℕ) (ops : List OperationId) :
    List.Sublist (evict finished excess ops).2 ops ∧
      (∀ id ∈ (evict finished excess ops).1, id ∈ ops ∧ id ∈ finished) ∧
      (∀ id ∈ ops, id ∈ (evict finished excess ops).1 ∨ id ∈ (evict finished excess ops).2) ∧
      (evict finished excess ops).1.length + (evict finished excess ops).2.length = ops.length ∧
      (evict finished excess ops).1.length ≤ excess := by
  induction ops generalizing excess with
  | nil => simp [evict]
  | cons id rest ih =>
    rw [evict]
    split
    · rename_i h
      obtain ⟨hsub, hev, hmem, hlen, hle⟩ := ih (excess - 1)
      refine ⟨hsub.trans (List.sublist_cons_self _ _), ?_, ?_, ?_, ?_⟩
      · intro x hx
        rcases List.mem_cons.mp hx with rfl | hx
        · exact ⟨List.mem_cons_self, h.2⟩
        · exact ⟨List.mem_cons_of_mem _ (hev x hx).1, (hev x hx).2⟩
      · intro x hx
        rcases List.mem_cons.mp hx with rfl | hx
        · exact Or.inl List.mem_cons_self
        · exact (hmem x hx).imp (List.mem_cons_of_mem _) fun h => h
      · simp only [List.length_cons]
        omega
      · simp only [List.length_cons]
        omega
    · obtain ⟨hsub, hev, hmem, hlen, hle⟩ := ih excess
      refine ⟨hsub.cons_cons _, ?_, ?_, ?_, hle⟩
      · intro x hx
        exact ⟨List.mem_cons_of_mem _ (hev x hx).1, (hev x hx).2⟩
      · intro x hx
        rcases List.mem_cons.mp hx with rfl | hx
        · exact Or.inr List.mem_cons_self
        · exact (hmem x hx).imp_right (List.mem_cons_of_mem _)
      · simp only [List.length_cons]
        omega

/-- Something is evicted if there is something to evict. -/
theorem evict_nonempty {finished : List OperationId} {excess : ℕ} {ops : List OperationId}
    (hexcess : 0 < excess) (h : ∃ id ∈ ops, id ∈ finished) :
    (evict finished excess ops).1 ≠ [] := by
  induction ops with
  | nil =>
    obtain ⟨id, hid, -⟩ := h
    exact absurd hid List.not_mem_nil
  | cons id rest ih =>
    rw [evict]
    by_cases hid : id ∈ finished
    · rw [if_pos ⟨hexcess, hid⟩]
      simp
    · rw [if_neg (fun h => hid h.2)]
      obtain ⟨x, hx, hfin⟩ := h
      rcases List.mem_cons.mp hx with rfl | hx
      · exact absurd hfin hid
      · exact ih ⟨x, hx, hfin⟩

theorem makeRoom_spec (finished ops : List OperationId) (hbound : ops.length ≤ limit) :
    List.Sublist (makeRoom limit finished ops).2 ops ∧
      (∀ id ∈ (makeRoom limit finished ops).1, id ∈ ops ∧ id ∈ finished) ∧
      (∀ id ∈ ops, id ∈ (makeRoom limit finished ops).1 ∨ id ∈ (makeRoom limit finished ops).2) ∧
      (makeRoom limit finished ops).1.length + (makeRoom limit finished ops).2.length = ops.length ∧
      (makeRoom limit finished ops).1.length ≤ 1 := by
  unfold makeRoom
  split
  · obtain ⟨hsub, hev, hmem, hlen, hle⟩ := evict_spec finished (ops.length + 1 - limit) ops
    exact ⟨hsub, hev, hmem, hlen, by omega⟩
  · simp

/-- A queue that is still full has kept everything. -/
theorem makeRoom_full {finished ops : List OperationId} (hbound : ops.length ≤ limit)
    (hfull : limit ≤ (makeRoom limit finished ops).2.length) :
    makeRoom limit finished ops = ([], ops) := by
  obtain ⟨hsub, -, -, hlen, -⟩ := makeRoom_spec finished ops hbound
  have hnil : (makeRoom limit finished ops).1 = [] := by
    rw [← List.length_eq_zero_iff]
    omega
  have hall : (makeRoom limit finished ops).2 = ops := hsub.eq_of_length (by omega)
  exact Prod.ext hnil hall

/-- The queue stays full exactly if it was full and nothing in it could be
    evicted. -/
theorem makeRoom_full_iff {finished ops : List OperationId} (hbound : ops.length ≤ limit) :
    limit ≤ (makeRoom limit finished ops).2.length ↔
      limit ≤ ops.length ∧ ∀ id ∈ ops, id ∉ finished := by
  obtain ⟨-, hev, -, hlen, -⟩ := makeRoom_spec finished ops hbound
  constructor
  · intro hfull
    have hops : limit ≤ ops.length := by omega
    refine ⟨hops, fun id hid hfin => ?_⟩
    have hne := evict_nonempty (show 0 < ops.length + 1 - limit by omega) ⟨id, hid, hfin⟩
    have hroom := makeRoom_full hbound hfull
    rw [makeRoom, if_pos hops] at hroom
    exact hne (by rw [hroom])
  · rintro ⟨hops, hnone⟩
    have hnil : (makeRoom limit finished ops).1 = [] :=
      List.eq_nil_iff_forall_not_mem.mpr fun id hid => hnone id (hev id hid).1 (hev id hid).2
    rw [hnil, List.length_nil] at hlen
    omega

/-! ## What a step does -/

/-- The states an operation goes through. -/
inductive Forward : OperationState → OperationState → Prop
  | start : Forward .Ready .Executing
  | succeed : Forward .Executing .Success
  | fail : Forward .Executing .Failed

theorem Forward.not_finished {s s' : OperationState} (h : Forward s s') :
    s.isFinished = false := by
  cases h <;> rfl

/-- What a step of program `i` does to the queue. -/
inductive Moves (limit : ℕ) (i : Actor K) (w : QueueWorld (Actor K)) :
    QueueWorld (Actor K) → Prop
  | same : Moves limit i w w
  | lock (k : K) : i = .inl k → w.writer = none → Moves limit i w { w with writer := some i }
  | launch (id : OperationId) (room : List OperationId × List OperationId) :
      w.writer = none → w.data id = none → w.launchedBy i = none → List.Sublist room.2 w.ops →
      (∀ x ∈ w.ops, x ∈ room.1 ∨ x ∈ room.2) → (∀ x ∈ room.1, Finished w x) →
      room.1.length ≤ 1 → room.2.length < limit → Moves limit i w (w.launch i room id)
  | retain (remove : List OperationId) :
      w.writer = some i → w.collectedBy i = [] → remove.Nodup →
      (∀ x ∈ remove, x ∈ w.ops ∧ Finished w x) → Moves limit i w (w.retain i remove)
  | write (id : OperationId) (data data' : OperationData) :
      i = .inr id → w.data id = some data → Forward data.state data'.state →
      Moves limit i w (w.write id data')

/-- The invariant of the queue. -/
structure QueueInv (limit : ℕ) (w : QueueWorld (Actor K)) : Prop where
  bound : w.ops.length ≤ limit
  nodup : w.ops.Nodup
  launched : ∀ id ∈ w.ops, ∃ data, w.data id = some data
  owner : ∀ id data, w.data id = some data → ∃ i, w.launchedBy i = some id
  writer : ∀ id, w.writer ≠ some (.inr id)
  collected_nodup : ∀ i, (w.collectedBy i).Nodup
  collected_launched : ∀ i, ∀ id ∈ w.collectedBy i, ∃ data, w.data id = some data
  collected_gone : ∀ i, ∀ id ∈ w.collectedBy i, id ∉ w.ops
  collected_once : ∀ i j, i ≠ j → List.Disjoint (w.collectedBy i) (w.collectedBy j)
  evicted_le : ∀ i, (w.evictedBy i).length ≤ 1

omit [DecidableEq K] in
theorem queueInv_new : QueueInv limit (QueueWorld.new (Actor K)) where
  bound := Nat.zero_le _
  nodup := List.nodup_nil
  launched _ h := absurd h List.not_mem_nil
  owner _ _ h := by cases h
  writer _ h := by cases h
  collected_nodup _ := List.nodup_nil
  collected_launched _ _ h := absurd h List.not_mem_nil
  collected_gone _ _ h := absurd h List.not_mem_nil
  collected_once _ _ _ := List.disjoint_nil_left _
  evicted_le _ := Nat.zero_le _

variable {i j : Actor K} {w w' : QueueWorld (Actor K)}

theorem Moves.data_isSome (h : Moves limit i w w') {id : OperationId}
    (hdata : ∃ data, w.data id = some data) : ∃ data, w'.data id = some data := by
  cases h with
  | same => exact hdata
  | lock => exact hdata
  | retain => exact hdata
  | launch new room _ _ _ _ _ _ _ _ =>
    by_cases heq : id = new
    · subst heq
      exact ⟨_, Function.update_self ..⟩
    · simpa [QueueWorld.launch, Function.update_of_ne heq] using hdata
  | write x data data' _ _ _ =>
    by_cases heq : id = x
    · subst heq
      exact ⟨_, Function.update_self ..⟩
    · simpa [QueueWorld.write, Function.update_of_ne heq] using hdata

/-- A finished operation stays finished. -/
theorem Moves.finished (h : Moves limit i w w') {id : OperationId} (hfin : Finished w id) :
    Finished w' id := by
  obtain ⟨d, hd, hstate⟩ := hfin
  cases h with
  | same => exact ⟨d, hd, hstate⟩
  | lock => exact ⟨d, hd, hstate⟩
  | retain => exact ⟨d, hd, hstate⟩
  | launch new room _ hnew _ _ _ _ _ _ =>
    have hne : id ≠ new := by
      rintro rfl
      rw [hnew] at hd
      cases hd
    exact ⟨d, by simpa [QueueWorld.launch, Function.update_of_ne hne] using hd, hstate⟩
  | write x data data' _ hx hforward =>
    have hne : id ≠ x := by
      rintro rfl
      obtain rfl : data = d := Option.some.inj (hx.symm.trans hd)
      rw [hforward.not_finished] at hstate
      cases hstate
    exact ⟨d, by simpa [QueueWorld.write, Function.update_of_ne hne] using hd, hstate⟩

/-- Collecting results keeps the invariant. -/
theorem QueueInv.retain (hw : QueueInv limit w) {remove : List OperationId} (hnodup : remove.Nodup)
    (hremove : ∀ x ∈ remove, x ∈ w.ops ∧ Finished w x) : QueueInv limit (w.retain i remove) := by
  have hops : ∀ x ∈ (w.retain i remove).ops, x ∈ w.ops ∧ x ∉ remove := by
    intro x hx
    simpa [QueueWorld.retain] using hx
  have hcollected : ∀ j, ∀ x ∈ (w.retain i remove).collectedBy j,
      (j = i ∧ x ∈ remove) ∨ (j ≠ i ∧ x ∈ w.collectedBy j) := by
    intro j x hx
    by_cases hj : j = i
    · subst hj
      exact Or.inl ⟨rfl, by simpa [QueueWorld.retain] using hx⟩
    · exact Or.inr ⟨hj, by simpa [QueueWorld.retain, Function.update_of_ne hj] using hx⟩
  refine {
    bound := (List.length_filter_le _ _).trans hw.bound
    nodup := hw.nodup.filter _
    launched := fun x hx => hw.launched x (hops x hx).1
    owner := hw.owner
    writer := fun id hid => by cases hid
    collected_nodup := fun j => ?_
    collected_launched := fun j x hx => ?_
    collected_gone := fun j x hx hmem => ?_
    collected_once := fun j₁ j₂ hne x hx₁ hx₂ => ?_
    evicted_le := hw.evicted_le }
  · by_cases hj : j = i
    · subst hj
      simpa [QueueWorld.retain] using hnodup
    · simpa [QueueWorld.retain, Function.update_of_ne hj] using hw.collected_nodup j
  · rcases hcollected j x hx with ⟨-, hx⟩ | ⟨-, hx⟩
    · exact hw.launched x (hremove x hx).1
    · exact hw.collected_launched j x hx
  · rcases hcollected j x hx with ⟨-, hx⟩ | ⟨-, hx⟩
    · exact (hops x hmem).2 hx
    · exact hw.collected_gone j x hx (hops x hmem).1
  · rcases hcollected j₁ x hx₁ with ⟨h₁, hx₁⟩ | ⟨h₁, hx₁⟩
    · rcases hcollected j₂ x hx₂ with ⟨h₂, -⟩ | ⟨-, hx₂⟩
      · exact hne (h₁.trans h₂.symm)
      · exact hw.collected_gone j₂ x hx₂ (hremove x hx₁).1
    · rcases hcollected j₂ x hx₂ with ⟨-, hx₂⟩ | ⟨-, hx₂⟩
      · exact hw.collected_gone j₁ x hx₁ (hremove x hx₂).1
      · exact hw.collected_once j₁ j₂ hne hx₁ hx₂

/-- Launching an operation keeps the invariant. -/
theorem QueueInv.launch (hw : QueueInv limit w) {id : OperationId}
    {room : List OperationId × List OperationId} (hid : w.data id = none)
    (hnone : w.launchedBy i = none) (hsub : List.Sublist room.2 w.ops) (hle : room.1.length ≤ 1)
    (hlt : room.2.length < limit)
    (hdata : ∀ x, (∃ data, w.data x = some data) →
      ∃ data, (w.launch i room id).data x = some data) :
    QueueInv limit (w.launch i room id) := by
  have hfresh : ∀ x, (∃ data, w.data x = some data) → x ≠ id := by
    rintro x ⟨data, hx⟩ rfl
    rw [hid] at hx
    cases hx
  refine {
    bound := ?_
    nodup := ?_
    launched := fun x hx => ?_
    owner := fun x d hd => ?_
    writer := hw.writer
    collected_nodup := hw.collected_nodup
    collected_launched := fun j x hx => hdata x (hw.collected_launched j x hx)
    collected_gone := fun j x hx hmem => ?_
    collected_once := hw.collected_once
    evicted_le := fun j => ?_ }
  · simp only [QueueWorld.launch, List.length_append, List.length_singleton]
    omega
  · have hnot : id ∉ room.2 := fun hmem => hfresh id (hw.launched id (hsub.subset hmem)) rfl
    simpa [QueueWorld.launch, List.nodup_append] using
      ⟨hsub.nodup hw.nodup, fun x hx heq => hnot (heq ▸ hx)⟩
  · rcases List.mem_append.mp hx with hx | hx
    · exact hdata x (hw.launched x (hsub.subset hx))
    · rw [List.mem_singleton.mp hx]
      exact ⟨_, Function.update_self ..⟩
  · by_cases heq : x = id
    · subst heq
      exact ⟨i, Function.update_self ..⟩
    · obtain ⟨j, hj⟩ := hw.owner x d (by
        simpa [QueueWorld.launch, Function.update_of_ne heq] using hd)
      have hne : j ≠ i := by
        rintro rfl
        rw [hnone] at hj
        cases hj
      exact ⟨j, by simpa [QueueWorld.launch, Function.update_of_ne hne] using hj⟩
  · rcases List.mem_append.mp hmem with hmem | hmem
    · exact hw.collected_gone j x hx (hsub.subset hmem)
    · exact hfresh x (hw.collected_launched j x hx) (List.mem_singleton.mp hmem)
  · by_cases hj : j = i
    · subst hj
      simpa [QueueWorld.launch] using hle
    · simpa [QueueWorld.launch, Function.update_of_ne hj] using hw.evicted_le j

/-- The invariant is kept by every step. -/
theorem Moves.inv (h : Moves limit i w w') (hw : QueueInv limit w) : QueueInv limit w' := by
  have hdata : ∀ id, (∃ data, w.data id = some data) → ∃ data, w'.data id = some data :=
    fun _ => h.data_isSome
  cases h with
  | same => exact hw
  | lock k hk hfree =>
    refine { hw with writer := ?_ }
    intro id hid
    rw [hk] at hid
    cases hid
  | write id data data' hi hid hforward =>
    refine { hw with
      launched := fun x hx => hdata x (hw.launched x hx)
      owner := fun x d hd => ?_
      collected_launched := fun j x hx => hdata x (hw.collected_launched j x hx) }
    by_cases heq : x = id
    · subst heq
      exact hw.owner x data hid
    · exact hw.owner x d (by simpa [QueueWorld.write, Function.update_of_ne heq] using hd)
  | retain remove hlocked hempty hnodup hremove => exact hw.retain hnodup hremove
  | launch id room hfree hid hnone hsub hcover hfin hle hlt =>
    exact hw.launch hid hnone hsub hle hlt hdata

/-- What program `i` may rely on while the others run. -/
structure Rely (limit : ℕ) (i : Actor K) (w w' : QueueWorld (Actor K)) : Prop where
  inv : QueueInv limit w → QueueInv limit w'
  finished : ∀ id, Finished w id → Finished w' id
  data : ∀ id, (∃ data, w.data id = some data) → ∃ data, w'.data id = some data
  writer : w'.writer = some i ↔ w.writer = some i
  still : w.writer = some i → w'.ops = w.ops
  launchedBy : w'.launchedBy i = w.launchedBy i
  evictedBy : w'.evictedBy i = w.evictedBy i
  collectedBy : w'.collectedBy i = w.collectedBy i
  owned : ∀ id, i = .inr id →
    w'.data id = w.data id ∨ (w.data id = none ∧ w'.data id = some .new)

omit [DecidableEq K] in
theorem Rely.refl (i : Actor K) (w : QueueWorld (Actor K)) : Rely limit i w w where
  inv h := h
  finished _ h := h
  data _ h := h
  writer := Iff.rfl
  still _ := rfl
  launchedBy := rfl
  evictedBy := rfl
  collectedBy := rfl
  owned _ _ := Or.inl rfl

omit [DecidableEq K] in
theorem Rely.trans {w₁ w₂ w₃ : QueueWorld (Actor K)} (h₁ : Rely limit i w₁ w₂)
    (h₂ : Rely limit i w₂ w₃) : Rely limit i w₁ w₃ where
  inv h := h₂.inv (h₁.inv h)
  finished id h := h₂.finished id (h₁.finished id h)
  data id h := h₂.data id (h₁.data id h)
  writer := h₂.writer.trans h₁.writer
  still h := (h₂.still (h₁.writer.mpr h)).trans (h₁.still h)
  launchedBy := h₂.launchedBy.trans h₁.launchedBy
  evictedBy := h₂.evictedBy.trans h₁.evictedBy
  collectedBy := h₂.collectedBy.trans h₁.collectedBy
  owned id hi := by
    rcases h₁.owned id hi with e₁ | ⟨e₁, e₁'⟩ <;> rcases h₂.owned id hi with e₂ | ⟨e₂, e₂'⟩
    · exact Or.inl (e₂.trans e₁)
    · exact Or.inr ⟨e₁ ▸ e₂, e₂'⟩
    · exact Or.inr ⟨e₁, e₂.trans e₁'⟩
    · rw [e₁'] at e₂
      cases e₂

/-- A step of one program is what the others rely on. -/
theorem Moves.rely (h : Moves limit j w w') (hij : i ≠ j) : Rely limit i w w' := by
  have hinv : QueueInv limit w → QueueInv limit w' := h.inv
  have hfin : ∀ id, Finished w id → Finished w' id := fun _ => h.finished
  have hdata : ∀ id, (∃ data, w.data id = some data) → ∃ data, w'.data id = some data :=
    fun _ => h.data_isSome
  cases h with
  | same => exact Rely.refl i w
  | lock k hk hfree =>
    refine { (Rely.refl i w : Rely limit i w w) with inv := hinv, writer := ?_ }
    rw [hfree]
    exact ⟨fun hji => absurd (Option.some.inj hji).symm hij, (by cases ·)⟩
  | launch id room hfree hid hnone hsub hcover hev hle hlt =>
    refine { (Rely.refl i w : Rely limit i w w) with
      inv := hinv
      finished := hfin
      data := hdata
      still := fun hlocked => by rw [hfree] at hlocked; cases hlocked
      launchedBy := Function.update_of_ne hij ..
      evictedBy := Function.update_of_ne hij ..
      owned := fun x _ => ?_ }
    by_cases heq : x = id
    · subst heq
      exact Or.inr ⟨hid, Function.update_self ..⟩
    · exact Or.inl (Function.update_of_ne heq ..)
  | retain remove hlocked hempty hnodup hremove =>
    have hne : w.writer ≠ some i := by
      rw [hlocked]
      exact fun hji => hij (Option.some.inj hji).symm
    refine { (Rely.refl i w : Rely limit i w w) with
      inv := hinv
      writer := ⟨(by cases ·), fun h => absurd h hne⟩
      still := fun h => absurd h hne
      collectedBy := Function.update_of_ne hij .. }
  | write id data data' hi hid hforward =>
    refine { (Rely.refl i w : Rely limit i w w) with
      inv := hinv
      finished := hfin
      data := hdata
      owned := fun x hx => ?_ }
    have hne : x ≠ id := by
      rintro rfl
      exact hij (hx.trans hi.symm)
    exact Or.inl (Function.update_of_ne hne ..)

/-! ## What each program guarantees -/

/-- What must hold when program `i` performs an operation: the operation makes one
    of the moves, and takes no lock the program already holds. -/
def Allowed (limit : ℕ) (i : Actor K) (o : QueueOp) (w : QueueWorld (Actor K)) : Prop :=
  (o = .readOps ∨ o = .lockWrite → w.writer ≠ some i) ∧
    ∀ r w', queueContract limit i o w r w' → Moves limit i w w'

/-- The state of a call that has not touched the queue. -/
structure Fresh (limit : ℕ) (i : Actor K) (w : QueueWorld (Actor K)) : Prop where
  inv : QueueInv limit w
  writer : w.writer ≠ some i
  launchedBy : w.launchedBy i = none
  evictedBy : w.evictedBy i = []
  collectedBy : w.collectedBy i = []

omit [DecidableEq K] in
theorem Fresh.rely (h : Fresh limit i w) (hr : Rely limit i w w') : Fresh limit i w' where
  inv := hr.inv h.inv
  writer hw := h.writer (hr.writer.mp hw)
  launchedBy := hr.launchedBy.trans h.launchedBy
  evictedBy := hr.evictedBy.trans h.evictedBy
  collectedBy := hr.collectedBy.trans h.collectedBy

omit [DecidableEq K] in
theorem fresh_new (i : Actor K) : Fresh limit i (QueueWorld.new (Actor K)) where
  inv := queueInv_new
  writer h := by cases h
  launchedBy := rfl
  evictedBy := rfl
  collectedBy := rfl

/-- A read leaves the world as it is. -/
theorem allowed_state (id : OperationId) : Allowed limit i (.state id) w := by
  refine ⟨by simp, ?_⟩
  rintro r w' ⟨-, rfl⟩
  exact .same

theorem allowed_readOps (h : w.writer ≠ some i) : Allowed limit i .readOps w := by
  refine ⟨fun _ => h, ?_⟩
  rintro r w' ⟨-, -, rfl⟩
  exact .same

theorem wp_finishedAmong (l : List OperationId) (h : Fresh limit i w) :
    wp (queueContract limit i) (Rely limit i) (Allowed limit i)
      (fun l' w' => Fresh limit i w' ∧ (∀ id ∈ l', Finished w' id) ∧
        ∀ id, Finished w id → Finished w' id) (finishedAmong l) w := by
  induction l generalizing w with
  | nil => exact ⟨h, fun _ hid => absurd hid List.not_mem_nil, fun _ hid => hid⟩
  | cons id rest ih =>
    rw [finishedAmong, wp_bind, wp_call]
    intro w₁ hw₁
    refine ⟨allowed_state id, ?_⟩
    rintro r w₂ ⟨⟨data, hdata, rfl⟩, rfl⟩
    rw [wp_bind]
    -- the state read here is still finished when the rest has been read
    refine wp_post (ih (h.rely hw₁)) ?_
    rintro l' w' ⟨hfresh, hfin, hkeep⟩
    refine ⟨hfresh, ?_, fun x hx => hkeep x (hw₁.finished x hx)⟩
    intro x hx
    split at hx
    · rename_i hstate
      rcases List.mem_cons.mp hx with rfl | hx
      · exact hkeep x ⟨data, hdata, hstate⟩
      · exact hfin x hx
    · exact hfin x hx

/-- What the result of a call says about what it did. -/
def inserted (i : Actor K) (r : Except RpcError OperationId) (w : QueueWorld (Actor K)) : Prop :=
  w.writer ≠ some i ∧ w.collectedBy i = [] ∧
    ∀ e, r = .error e → w.launchedBy i = none ∧ w.evictedBy i = []

theorem wp_insert (h : Fresh limit i w) :
    wp (queueContract limit i) (Rely limit i) (Allowed limit i) (inserted i) insert w := by
  rw [insert, finishedIds, wp_bind, wp_bind, wp_call]
  intro w₁ hw₁
  refine ⟨allowed_readOps (h.rely hw₁).writer, ?_⟩
  rintro r w₂ ⟨-, -, rfl⟩
  refine wp_post (wp_finishedAmong r (h.rely hw₁)) ?_
  rintro finished w₃ ⟨hfresh₃, hfin₃, -⟩
  intro w₄ hw₄
  have hfresh := hfresh₃.rely hw₄
  have hbound := hfresh.inv.bound
  obtain ⟨hsub, hev, hcover, hlen, hle⟩ := makeRoom_spec finished w₄.ops hbound
  have hreject : limit ≤ (makeRoom limit finished w₄.ops).2.length →
      w₄.reject i (makeRoom limit finished w₄.ops) = w₄ := by
    intro hfull
    rw [makeRoom_full hbound hfull, QueueWorld.reject, ← hfresh.evictedBy, Function.update_eq_self]
  refine ⟨⟨by simp, ?_⟩, ?_⟩
  · rintro r w' ⟨hfree, hC⟩
    split at hC
    · rename_i hfull
      obtain ⟨-, rfl⟩ := hC
      rw [hreject hfull]
      exact .same
    · rename_i hroom
      obtain ⟨id, hid, -, rfl⟩ := hC
      refine .launch id _ hfree hid hfresh.launchedBy hsub hcover ?_ hle (by omega)
      exact fun x hx => hw₄.finished x (hfin₃ x (hev x hx).2)
  · rintro r w' ⟨hfree, hC⟩
    split at hC
    · rename_i hfull
      obtain ⟨-, rfl⟩ := hC
      rw [hreject hfull]
      exact ⟨hfresh.writer, hfresh.collectedBy, fun _ _ => ⟨hfresh.launchedBy, hfresh.evictedBy⟩⟩
    · obtain ⟨id, -, rfl, rfl⟩ := hC
      exact ⟨hfresh.writer, hfresh.collectedBy, fun e he => by cases he⟩

theorem wp_anyFinishedAmong (l : List OperationId) (h : Fresh limit i w) :
    wp (queueContract limit i) (Rely limit i) (Allowed limit i)
      (fun _ w' => Fresh limit i w') (anyFinishedAmong l) w := by
  induction l generalizing w with
  | nil => exact h
  | cons id rest ih =>
    rw [anyFinishedAmong, wp_bind, wp_call]
    intro w₁ hw₁
    refine ⟨allowed_state id, ?_⟩
    rintro r w₂ ⟨-, rfl⟩
    split
    · exact h.rely hw₁
    · exact ih (h.rely hw₁)

theorem wp_checkCapacity (h : Fresh limit i w) :
    wp (queueContract limit i) (Rely limit i) (Allowed limit i) (fun _ w' => Fresh limit i w')
      (checkCapacity limit) w := by
  rw [checkCapacity, wp_bind, wp_call]
  intro w₁ hw₁
  have h₁ := h.rely hw₁
  refine ⟨allowed_readOps h₁.writer, ?_⟩
  rintro r w₂ ⟨-, -, rfl⟩
  split
  · exact h₁
  · rw [wp_bind, anyFinished, wp_bind, wp_call]
    intro w₃ hw₃
    have h₃ := h₁.rely hw₃
    refine ⟨allowed_readOps h₃.writer, ?_⟩
    rintro r' w₄ ⟨-, -, rfl⟩
    exact wp_anyFinishedAmong r' h₃

/-- The state of a collection that holds the lock over the queue `ops`. -/
structure Locked (limit : ℕ) (i : Actor K) (ops : List OperationId) (w : QueueWorld (Actor K)) :
    Prop where
  inv : QueueInv limit w
  writer : w.writer = some i
  ops_eq : w.ops = ops
  launchedBy : w.launchedBy i = none
  collectedBy : w.collectedBy i = []

omit [DecidableEq K] in
theorem Locked.rely {ops : List OperationId} (h : Locked limit i ops w) (hr : Rely limit i w w') :
    Locked limit i ops w' where
  inv := hr.inv h.inv
  writer := hr.writer.mpr h.writer
  ops_eq := (hr.still h.writer).trans h.ops_eq
  launchedBy := hr.launchedBy.trans h.launchedBy
  collectedBy := hr.collectedBy.trans h.collectedBy

/-- The statuses are those of the operations to remove, which have finished. -/
theorem wp_collectAmong {ops : List OperationId} (l : List OperationId)
    (h : Locked limit i ops w) :
    wp (queueContract limit i) (Rely limit i) (Allowed limit i)
      (fun found w' => Locked limit i ops w' ∧ List.Sublist found.2 l ∧
        found.1.map (·.id) = found.2 ∧ (∀ id ∈ found.2, Finished w' id) ∧
        ∀ id, Finished w id → Finished w' id) (collectAmong l) w := by
  induction l generalizing w with
  | nil =>
    exact ⟨h, List.Sublist.refl _, rfl, fun _ hid => absurd hid List.not_mem_nil, fun _ hid => hid⟩
  | cons id rest ih =>
    rw [collectAmong, wp_bind, wp_call]
    intro w₁ hw₁
    refine ⟨allowed_state id, ?_⟩
    rintro r w₂ ⟨⟨data, hdata, rfl⟩, rfl⟩
    have h₁ := h.rely hw₁
    split
    · rename_i hstate
      rw [wp_bind, wp_call]
      intro w₃ hw₃
      refine ⟨⟨by simp, ?_⟩, ?_⟩
      · rintro r w' ⟨-, rfl⟩
        exact .same
      rintro r w₄ ⟨⟨data', -, rfl⟩, rfl⟩
      rw [wp_bind]
      refine wp_post (ih (h₁.rely hw₃)) ?_
      rintro found w' ⟨hlocked, hsub, hids, hfin, hkeep⟩
      refine ⟨hlocked, hsub.cons_cons _, ?_, ?_, ?_⟩
      · simp only [List.map_cons, hids, toStatus]
        cases data'.result with
        | none => rfl
        | some res => cases res <;> rfl
      · intro x hx
        rcases List.mem_cons.mp hx with rfl | hx
        · exact hkeep x (hw₃.finished x ⟨data, hdata, hstate⟩)
        · exact hfin x hx
      · exact fun x hx => hkeep x (hw₃.finished x (hw₁.finished x hx))
    · refine wp_post (ih h₁) ?_
      rintro found w' ⟨hlocked, hsub, hids, hfin, hkeep⟩
      exact ⟨hlocked, hsub.trans (List.sublist_cons_self _ _), hids, hfin,
        fun x hx => hkeep x (hw₁.finished x hx)⟩

/-- A collection returns the statuses of what it removed. -/
def collected (i : Actor K) (statuses : List OperationStatus) (w : QueueWorld (Actor K)) : Prop :=
  w.writer ≠ some i ∧ w.collectedBy i = statuses.map (·.id)

theorem wp_collectFinished {k : K} (filter : OperationId → Bool)
    (h : Fresh limit (.inl k) w) :
    wp (queueContract limit (.inl k)) (Rely limit (.inl k)) (Allowed limit (.inl k))
      (collected (.inl k)) (collectFinished filter) w := by
  rw [collectFinished, wp_bind, wp_call]
  intro w₁ hw₁
  have h₁ := h.rely hw₁
  refine ⟨⟨fun _ => h₁.writer, ?_⟩, ?_⟩
  · rintro r w' ⟨hfree, -, rfl⟩
    exact .lock k rfl hfree
  rintro r w₂ ⟨hfree, rfl, rfl⟩
  have hlocked : Locked limit (.inl k) w₁.ops { w₁ with writer := some (.inl k) } :=
    ⟨(Moves.lock k rfl hfree : Moves limit (.inl k) w₁ _).inv h₁.inv, rfl, rfl, h₁.launchedBy,
      h₁.collectedBy⟩
  rw [wp_bind]
  refine wp_post (wp_collectAmong (w₁.ops.filter filter) hlocked) ?_
  rintro found w₃ ⟨h₃, hsub, hids, hfin, -⟩
  rw [wp_bind]
  intro w₄ hw₄
  have h₄ := h₃.rely hw₄
  have hsub' : List.Sublist found.2 w₁.ops := hsub.trans List.filter_sublist
  refine ⟨⟨by simp, ?_⟩, ?_⟩
  · rintro r w' rfl
    refine .retain found.2 h₄.writer h₄.collectedBy ?_ fun x hx => ⟨?_, hw₄.finished x (hfin x hx)⟩
    · exact hsub'.nodup (h₄.ops_eq ▸ h₄.inv.nodup)
    · rw [h₄.ops_eq]
      exact hsub'.subset hx
  · rintro r w' rfl
    refine ⟨by simp [QueueWorld.retain], ?_⟩
    rw [hids]
    exact Function.update_self ..

/-- The task of an operation moves its state forward. -/
theorem wp_operationTask {id : OperationId} (hnew : w.data id = none) :
    wp (queueContract limit (.inr id)) (Rely limit (.inr id)) (Allowed limit (.inr id))
      (fun _ _ => True) (operationTask id) w := by
  rw [operationTask, wp_bind, wp_call]
  intro w₁ hw₁
  have hready : ∀ data, w₁.data id = some data → data = .new := by
    intro data hdata
    rcases hw₁.owned id rfl with heq | ⟨-, heq⟩
    · rw [heq, hnew] at hdata
      cases hdata
    · exact Option.some.inj (hdata.symm.trans heq)
  refine ⟨⟨by simp, ?_⟩, ?_⟩
  · rintro r w' ⟨data, hdata, hC⟩
    obtain rfl := hready data hdata
    obtain ⟨-, rfl⟩ := hC
    exact .write id _ _ rfl hdata .start
  rintro r w₂ ⟨data, hdata, hC⟩
  obtain rfl := hready data hdata
  obtain ⟨rfl, rfl⟩ := hC
  rw [if_pos rfl, wp_bind, wp_call]
  intro w₃ hw₃
  have hexecuting : w₃.data id = some ⟨.Executing, none⟩ := by
    rcases hw₃.owned id rfl with heq | ⟨heq, -⟩
    · rw [heq]
      exact Function.update_self ..
    · simp [QueueWorld.write] at heq
  refine ⟨⟨by simp, ?_⟩, ?_⟩
  · rintro r w' rfl
    exact .same
  rintro res w₄ rfl
  intro w₅ hw₅
  have hstill : w₅.data id = some ⟨.Executing, none⟩ := by
    rcases hw₅.owned id rfl with heq | ⟨heq, -⟩
    · exact heq.trans hexecuting
    · rw [hexecuting] at heq
      cases heq
  refine ⟨⟨by simp, ?_⟩, fun _ _ _ => trivial⟩
  rintro r w' ⟨-, rfl⟩
  refine .write id _ _ rfl hstill ?_
  cases res with
  | ok value => exact .succeed
  | error e => exact .fail

/-! ## A call that runs alone -/

/-- The queue is full and nothing in it has finished. -/
def Full (limit : ℕ) (w : QueueWorld (Actor K)) : Prop :=
  limit ≤ w.ops.length ∧ ∀ id ∈ w.ops, ¬ Finished w id

theorem wp_finishedAmong_alone (l : List OperationId) :
    wp (queueContract limit i) Eq (fun _ _ => True)
      (fun l' w' => w' = w ∧ ∀ id, id ∈ l' ↔ id ∈ l ∧ Finished w id) (finishedAmong l) w := by
  induction l with
  | nil => exact ⟨rfl, fun id => by simp⟩
  | cons x rest ih =>
    rw [finishedAmong, wp_bind, wp_call_alone]
    refine ⟨trivial, ?_⟩
    rintro r w₂ ⟨⟨data, hdata, rfl⟩, rfl⟩
    rw [wp_bind]
    refine wp_post ih ?_
    rintro l' w' ⟨rfl, hmem⟩
    have hx : Finished w' x ↔ data.state.isFinished = true :=
      ⟨fun ⟨_, hd, h⟩ => Option.some.inj (hd.symm.trans hdata) ▸ h, fun h => ⟨data, hdata, h⟩⟩
    refine ⟨rfl, fun id => ?_⟩
    split
    · rename_i hstate
      rw [List.mem_cons, hmem, List.mem_cons]
      constructor
      · rintro (rfl | h)
        · exact ⟨Or.inl rfl, hx.mpr hstate⟩
        · exact ⟨Or.inr h.1, h.2⟩
      · rintro ⟨rfl | h, hfin⟩
        · exact Or.inl rfl
        · exact Or.inr ⟨h, hfin⟩
    · rename_i hstate
      rw [hmem, List.mem_cons]
      constructor
      · rintro h
        exact ⟨Or.inr h.1, h.2⟩
      · rintro ⟨rfl | h, hfin⟩
        · exact absurd (hx.mp hfin) hstate
        · exact ⟨h, hfin⟩

theorem wp_insert_alone (hbound : w.ops.length ≤ limit) :
    wp (queueContract limit i) Eq (fun _ _ => True)
      (fun r _ => (∃ e, r = .error e) ↔ Full limit w) insert w := by
  rw [insert, finishedIds, wp_bind, wp_bind, wp_call_alone]
  refine ⟨trivial, ?_⟩
  rintro r w₂ ⟨-, rfl, rfl⟩
  refine wp_post (wp_finishedAmong_alone _) ?_
  rintro finished w₃ ⟨rfl, hmem⟩
  rintro w₄ rfl
  refine ⟨trivial, ?_⟩
  have hfull : limit ≤ (makeRoom limit finished w₃.ops).2.length ↔ Full limit w₃ := by
    rw [makeRoom_full_iff hbound]
    exact and_congr_right fun _ => forall₂_congr fun id hid => by rw [hmem]; tauto
  rintro r w' ⟨-, hC⟩
  split at hC
  · rename_i hroom
    exact ⟨fun _ => hfull.mp hroom, fun _ => ⟨_, hC.1⟩⟩
  · rename_i hroom
    obtain ⟨id, -, rfl, -⟩ := hC
    exact ⟨fun ⟨e, he⟩ => (by cases he), fun h => absurd (hfull.mpr h) hroom⟩

theorem wp_anyFinishedAmong_alone (l : List OperationId) :
    wp (queueContract limit i) Eq (fun _ _ => True)
      (fun any w' => w' = w ∧ (any = true ↔ ∃ id ∈ l, Finished w id)) (anyFinishedAmong l) w := by
  induction l with
  | nil => exact ⟨rfl, by simp⟩
  | cons x rest ih =>
    rw [anyFinishedAmong, wp_bind, wp_call_alone]
    refine ⟨trivial, ?_⟩
    rintro r w₂ ⟨⟨data, hdata, rfl⟩, rfl⟩
    split
    · rename_i hstate
      exact ⟨rfl, fun _ => ⟨x, List.mem_cons_self, data, hdata, hstate⟩, fun _ => rfl⟩
    · rename_i hstate
      refine wp_post ih ?_
      rintro any w' ⟨rfl, hany⟩
      have hx : ¬ Finished w' x := by
        rintro ⟨d, hd, h⟩
        exact hstate (Option.some.inj (hd.symm.trans hdata) ▸ h)
      refine ⟨rfl, hany.trans ?_⟩
      simp [hx]

theorem wp_checkCapacity_alone :
    wp (queueContract limit i) Eq (fun _ _ => True)
      (fun r _ => (∃ e, r = .error e) ↔ Full limit w) (checkCapacity limit) w := by
  rw [checkCapacity, wp_bind, wp_call_alone]
  refine ⟨trivial, ?_⟩
  rintro r w₂ ⟨-, rfl, rfl⟩
  split
  · rename_i hlt
    exact ⟨fun ⟨e, he⟩ => (by cases he), fun h => absurd h.1 (by omega)⟩
  · rename_i hge
    rw [wp_bind, anyFinished, wp_bind, wp_call_alone]
    refine ⟨trivial, ?_⟩
    rintro r' w₄ ⟨-, rfl, rfl⟩
    refine wp_post (wp_anyFinishedAmong_alone _) ?_
    rintro any w' ⟨rfl, hany⟩
    show (∃ e, (if any = true then Except.ok () else Except.error fullError) = Except.error e) ↔ _
    split
    · rename_i htrue
      obtain ⟨id, hid, hfin⟩ := hany.mp htrue
      exact ⟨fun ⟨e, he⟩ => (by cases he), fun h => absurd hfin (h.2 id hid)⟩
    · rename_i hfalse
      refine ⟨fun _ => ⟨by omega, fun id hid hfin => hfalse (hany.mpr ⟨id, hid, hfin⟩)⟩, ?_⟩
      exact fun _ => ⟨_, rfl⟩

theorem exists_run_finishedAmong {l : List OperationId}
    (hl : ∀ id ∈ l, ∃ data, w.data id = some data) :
    ∃ τ l', Run (queueContract limit i) (finishedAmong l) w τ l' w := by
  induction l with
  | nil => exact ⟨[], [], run_pure.mpr ⟨rfl, rfl, rfl⟩⟩
  | cons x rest ih =>
    rw [List.forall_mem_cons] at hl
    obtain ⟨⟨data, hdata⟩, hrest⟩ := hl
    obtain ⟨τ, l', hrun⟩ := ih hrest
    have hread : queueContract limit i (.state x) w data.state w := ⟨⟨data, hdata, rfl⟩, rfl⟩
    exact ⟨_, _, run_call_bind hread ((run_bind _ _).mpr
      ⟨τ, l', w, [], hrun, run_pure.mpr ⟨rfl, rfl, rfl⟩, rfl⟩)⟩

theorem exists_run_anyFinishedAmong {l : List OperationId}
    (hl : ∀ id ∈ l, ∃ data, w.data id = some data) :
    ∃ τ any, Run (queueContract limit i) (anyFinishedAmong l) w τ any w := by
  induction l with
  | nil => exact ⟨[], false, run_pure.mpr ⟨rfl, rfl, rfl⟩⟩
  | cons x rest ih =>
    rw [List.forall_mem_cons] at hl
    obtain ⟨⟨data, hdata⟩, hrest⟩ := hl
    obtain ⟨τ, any, hrun⟩ := ih hrest
    have hread : queueContract limit i (.state x) w data.state w := ⟨⟨data, hdata, rfl⟩, rfl⟩
    by_cases hstate : data.state.isFinished = true
    · refine ⟨_, true, run_call_bind (τ := []) hread ?_⟩
      rw [if_pos hstate]
      exact run_pure.mpr ⟨rfl, rfl, rfl⟩
    · refine ⟨_, any, run_call_bind (τ := τ) hread ?_⟩
      rw [if_neg hstate]
      exact hrun

/-- A queue that is not locked can be asked for its capacity. -/
theorem exists_run_checkCapacity (hw : QueueInv limit w) (hfree : w.writer = none) :
    ∃ τ r w', Run (queueContract limit i) (checkCapacity limit) w τ r w' := by
  obtain ⟨τ, any, hrun⟩ : ∃ τ any, Run (queueContract limit i) (anyFinishedAmong w.ops) w τ any w :=
    exists_run_anyFinishedAmong hw.launched
  have hread : queueContract limit i .readOps w w.ops w := ⟨hfree, rfl, rfl⟩
  by_cases hlt : w.ops.length < limit
  · refine ⟨_, .ok (), w, run_call_bind (τ := []) hread ?_⟩
    rw [if_pos hlt]
    exact run_pure.mpr ⟨rfl, rfl, rfl⟩
  · refine ⟨_, if any then .ok () else .error fullError, w,
      run_call_bind (τ := ⟨QueueOp.readOps, w.ops⟩ :: τ ++ []) hread ?_⟩
    rw [if_neg hlt]
    exact (run_bind _ _).mpr
      ⟨_, any, w, [], run_call_bind hread hrun, run_pure.mpr ⟨rfl, rfl, rfl⟩, rfl⟩

/-- An operation can be inserted into a queue that is not locked, or is rejected. -/
theorem exists_run_insert (hw : QueueInv limit w) (hfree : w.writer = none)
    (hid : ∃ id, w.data id = none) :
    ∃ τ r w', Run (queueContract limit i) insert w τ r w' := by
  obtain ⟨τ, finished, hrun⟩ : ∃ τ l', Run (queueContract limit i) (finishedAmong w.ops) w τ l' w :=
    exists_run_finishedAmong hw.launched
  have hread : queueContract limit i .readOps w w.ops w := ⟨hfree, rfl, rfl⟩
  obtain ⟨id, hid⟩ := hid
  obtain ⟨r, w', hwrite⟩ : ∃ r w', queueContract limit i (.insertWrite finished) w r w' := by
    by_cases hroom : limit ≤ (makeRoom limit finished w.ops).2.length
    · refine ⟨.error fullError, w.reject i (makeRoom limit finished w.ops), hfree, ?_⟩
      rw [if_pos hroom]
      exact ⟨rfl, rfl⟩
    · refine ⟨.ok id, w.launch i (makeRoom limit finished w.ops) id, hfree, ?_⟩
      rw [if_neg hroom]
      exact ⟨id, hid, rfl, rfl⟩
  exact ⟨_, r, w', (run_bind _ _).mpr
    ⟨_, finished, w, _, run_call_bind hread hrun, .step hwrite (.refl _ _), rfl⟩⟩

/-! ## Any interleaving -/

/-- A call to the queue. -/
inductive Call
  | insert
  | collectFinished (filter : OperationId → Bool)
  | checkCapacity

/-- What a program of the pool returns. -/
inductive CallResult
  | inserted (res : Except RpcError OperationId)
  | collected (statuses : List OperationStatus)
  | capacity (res : Except RpcError Unit)
  | task

def Call.prog (limit : ℕ) : Call → Prog queueSig CallResult
  | .insert => CallResult.inserted <$> Rpc.insert
  | .collectFinished filter => CallResult.collected <$> Rpc.collectFinished filter
  | .checkCapacity => CallResult.capacity <$> Rpc.checkCapacity limit

/-- The programs of the calls and of the operations' tasks. -/
def queueProgs (limit : ℕ) (calls : K → Call) : Actor K → Prog queueSig CallResult
  | .inl k => (calls k).prog limit
  | .inr id => (fun _ => CallResult.task) <$> operationTask id

/-- A configuration that any interleaving of the calls and the tasks can lead to,
    from an empty queue. -/
def QueueReach (limit : ℕ) (calls : K → Call)
    (c : Pool queueSig (QueueWorld (Actor K)) (Actor K) CallResult) : Prop :=
  Pool.Reach (queueContract limit) (fun _ _ => False) ⟨queueProgs limit calls, .new _⟩ c

/-- What a program that has returned has done. -/
def Returned : Actor K → CallResult → QueueWorld (Actor K) → Prop
  | i, .inserted res, w => inserted i res w
  | i, .collected statuses, w => collected i statuses w
  | i, .capacity _, w => w.writer ≠ some i
  | i, .task, _ => ∃ id, i = .inr id

omit [DecidableEq K] in
theorem Returned.rely {r : CallResult} (h : Returned i r w) (hr : Rely limit i w w') :
    Returned i r w' := by
  cases r with
  | inserted res =>
    obtain ⟨hwriter, hcollected, herr⟩ := h
    refine ⟨fun hw => hwriter (hr.writer.mp hw), hr.collectedBy.trans hcollected, fun e he => ?_⟩
    exact ⟨hr.launchedBy.trans (herr e he).1, hr.evictedBy.trans (herr e he).2⟩
  | collected statuses =>
    exact ⟨fun hw => h.1 (hr.writer.mp hw), hr.collectedBy.trans h.2⟩
  | capacity res => exact fun hw => h (hr.writer.mp hw)
  | task => exact h

/-- Every program keeps to its moves, and has done what it returned. -/
theorem wp_queueProgs (limit : ℕ) (calls : K → Call) (i : Actor K) :
    wp (queueContract limit i) (Rely limit i) (Allowed limit i) (Returned i)
      (queueProgs limit calls i) (.new _) := by
  cases i with
  | inl k =>
    show wp _ _ _ _ ((calls k).prog limit) _
    have hfresh : Fresh limit (.inl k) (.new (Actor K)) := fresh_new _
    cases calls k with
    | insert => exact (wp_map _ _ _).mpr (wp_insert hfresh)
    | collectFinished filter => exact (wp_map _ _ _).mpr (wp_collectFinished filter hfresh)
    | checkCapacity =>
      refine (wp_map _ _ _).mpr (wp_post (wp_checkCapacity hfresh) ?_)
      exact fun _ _ h => h.writer
  | inr id =>
    refine (wp_map _ _ _).mpr (wp_post (wp_operationTask rfl) ?_)
    exact fun _ _ _ => ⟨id, rfl⟩

variable {calls : K → Call} {c c' : Pool queueSig (QueueWorld (Actor K)) (Actor K) CallResult}

theorem QueueReach.wp (h : QueueReach limit calls c) (i : Actor K) :
    ∃ w, Rely limit i w c.world ∧
      Effect.wp (queueContract limit i) (Rely limit i) (Allowed limit i) (Returned i)
        (c.progs i) w :=
  Pool.inv (fun _ _ _ _ => Rely.trans) Rely.refl
    (fun _ _ hij _ _ _ _ hok hC => (hok.2 _ _ hC).rely hij) (fun _ _ _ h => h.elim)
    (wp_queueProgs limit calls) h i

theorem QueueReach.thread (h : QueueReach limit calls c) {o : QueueOp}
    {k : o.Ret → Prog queueSig CallResult} {r : o.Ret} (hi : c.progs i = .op o k)
    (hC : queueContract limit i o c.world r w') : Moves limit i c.world w' :=
  (Pool.performs (h.wp i) hi).2 r w' hC

/-- A step of the pool is a move of one program. -/
theorem QueueReach.moves (h : QueueReach limit calls c)
    (hstep : Pool.Step (queueContract limit) (fun _ _ => False) c c') :
    ∃ i, Moves limit i c.world c'.world := by
  cases hstep with
  | env he => exact he.elim
  | thread i hi hC => exact ⟨i, h.thread hi hC⟩

theorem QueueReach.inv (h : QueueReach limit calls c) : QueueInv limit c.world := by
  unfold QueueReach at h
  induction h with
  | refl => exact queueInv_new
  | tail hreach hstep ih =>
    obtain ⟨i, hmove⟩ := QueueReach.moves hreach hstep
    exact hmove.inv ih

/-- What a program has launched or collected stays so. -/
theorem Moves.history (h : Moves limit j w w') :
    (∀ id, w.launchedBy i = some id → w'.launchedBy i = some id) ∧
      (w.collectedBy i ≠ [] → w'.collectedBy i ≠ []) := by
  cases h with
  | same => exact ⟨fun _ h => h, fun h => h⟩
  | lock => exact ⟨fun _ h => h, fun h => h⟩
  | write => exact ⟨fun _ h => h, fun h => h⟩
  | launch new room _ _ hnone =>
    refine ⟨fun id hid => ?_, fun h => h⟩
    have hne : i ≠ j := by
      rintro rfl
      rw [hnone] at hid
      cases hid
    simpa [QueueWorld.launch, Function.update_of_ne hne] using hid
  | retain remove _ hempty =>
    refine ⟨fun _ h => h, fun hc => ?_⟩
    have hne : i ≠ j := by
      rintro rfl
      exact hc hempty
    simpa [QueueWorld.retain, Function.update_of_ne hne] using hc

theorem QueueReach.history (h : QueueReach limit calls c)
    (hreach : Pool.Reach (queueContract limit) (fun _ _ => False) c c') (i : Actor K) :
    (∀ id, c.world.launchedBy i = some id → c'.world.launchedBy i = some id) ∧
      (c.world.collectedBy i ≠ [] → c'.world.collectedBy i ≠ []) := by
  induction hreach with
  | refl => exact ⟨fun _ h => h, fun h => h⟩
  | tail hr hstep ih =>
    obtain ⟨j, hmove⟩ := QueueReach.moves (Relation.ReflTransGen.trans h hr) hstep
    obtain ⟨hlaunched, hcollected⟩ := hmove.history (i := i)
    exact ⟨fun id hid => hlaunched id (ih.1 id hid), fun hne => hcollected (ih.2 hne)⟩

theorem QueueReach.returned (h : QueueReach limit calls c) {r : CallResult}
    (hr : c.progs i = .pure r) : Returned i r c.world := by
  obtain ⟨w, hw, hQ⟩ := Pool.returned (h.wp i) hr
  exact hQ.rely hw

/-- What leaves the queue had finished, and was evicted or collected. -/
theorem Moves.leaves (h : Moves limit i w w') {id : OperationId} (hid : id ∈ w.ops)
    (hgone : id ∉ w'.ops) :
    Finished w id ∧ (id ∈ w'.evictedBy i ∨ id ∈ w'.collectedBy i) := by
  cases h with
  | same => exact absurd hid hgone
  | lock => exact absurd hid hgone
  | write => exact absurd hid hgone
  | launch new room _ _ _ _ hcover hfin _ _ =>
    rcases hcover id hid with hev | hkept
    · exact ⟨hfin id hev, Or.inl (by simpa [QueueWorld.launch] using hev)⟩
    · exact absurd (List.mem_append_left _ hkept) hgone
  | retain remove _ _ _ hremove =>
    have hmem : id ∈ remove := by
      by_contra hnot
      exact hgone (by simp [QueueWorld.retain, hid, hnot])
    exact ⟨(hremove id hmem).2, Or.inr (by simpa [QueueWorld.retain] using hmem)⟩

/-- How a step changes the data of an operation. -/
theorem Moves.data (h : Moves limit i w w') (id : OperationId) :
    w'.data id = w.data id ∨ (w.data id = none ∧ w'.data id = some .new) ∨
      ∃ d d', w.data id = some d ∧ w'.data id = some d' ∧ Forward d.state d'.state := by
  cases h with
  | same => exact Or.inl rfl
  | lock => exact Or.inl rfl
  | retain => exact Or.inl rfl
  | launch new room _ hnew _ _ _ _ _ _ =>
    by_cases heq : id = new
    · subst heq
      exact Or.inr (Or.inl ⟨hnew, Function.update_self ..⟩)
    · exact Or.inl (Function.update_of_ne heq ..)
  | write x d d' _ hx hforward =>
    by_cases heq : id = x
    · subst heq
      exact Or.inr (Or.inr ⟨d, d', hx, Function.update_self .., hforward⟩)
    · exact Or.inl (Function.update_of_ne heq ..)

/-- An `insert` that returns an error has left the queue alone in each of its
    steps. -/
theorem QueueReach.insert_error (h : QueueReach limit calls c) {k : K} {o : QueueOp}
    {cont : o.Ret → Prog queueSig CallResult} {r : o.Ret} (hk : c.progs (.inl k) = .op o cont)
    (hC : queueContract limit (.inl k) o c.world r w')
    (hreach : Pool.Reach (queueContract limit) (fun _ _ => False)
      ⟨Function.update c.progs (.inl k) (cont r), w'⟩ c') {e : RpcError}
    (herr : c'.progs (.inl k) = .pure (.inserted (.error e))) :
    w'.ops = c.world.ops ∧ w'.data = c.world.data := by
  have hstep : Pool.Step (queueContract limit) (fun _ _ => False) c
      ⟨Function.update c.progs (.inl k) (cont r), w'⟩ := .thread _ hk hC
  have hnext : QueueReach limit calls ⟨Function.update c.progs (.inl k) (cont r), w'⟩ :=
    Relation.ReflTransGen.tail h hstep
  obtain ⟨hlaunched, hcollected⟩ := hnext.history hreach (.inl k)
  have hlast : QueueReach limit calls c' := Relation.ReflTransGen.trans hnext hreach
  obtain ⟨-, hempty, hnone⟩ := hlast.returned herr
  have hmove : Moves limit (.inl k) c.world w' := h.thread hk hC
  cases hmove with
  | same => exact ⟨rfl, rfl⟩
  | lock => exact ⟨rfl, rfl⟩
  | write id _ _ hi => cases hi
  | launch id room =>
    have hsome := hlaunched id (Function.update_self ..)
    rw [(hnone e rfl).1] at hsome
    cases hsome
  | retain remove =>
    have hnil : remove = [] := by
      by_contra hne
      exact hcollected (by simpa [QueueWorld.retain] using hne) hempty
    subst hnil
    exact ⟨by simp [QueueWorld.retain], rfl⟩

/-- The first operation of a call takes the lock. -/
theorem Call.prog_eq (call : Call) (limit : ℕ) :
    ∃ o k, (o = .readOps ∨ o = .lockWrite) ∧ call.prog limit = .op o k := by
  cases call with
  | insert => exact ⟨.readOps, _, Or.inl rfl, rfl⟩
  | collectFinished filter => exact ⟨.lockWrite, _, Or.inr rfl, rfl⟩
  | checkCapacity => exact ⟨.readOps, _, Or.inl rfl, rfl⟩

/-- No call is in progress: each has not begun or has returned. -/
def Idle (limit : ℕ) (calls : K → Call)
    (c : Pool queueSig (QueueWorld (Actor K)) (Actor K) CallResult) : Prop :=
  ∀ k, c.progs (.inl k) = (calls k).prog limit ∨ ∃ r, c.progs (.inl k) = .pure r

theorem QueueReach.unlocked (h : QueueReach limit calls c) (hidle : Idle limit calls c) :
    c.world.writer = none := by
  cases hwriter : c.world.writer with
  | none => rfl
  | some i =>
    exfalso
    cases i with
    | inr id => exact h.inv.writer id hwriter
    | inl k =>
      rcases hidle k with hstart | ⟨r, hr⟩
      · obtain ⟨o, cont, ho, hprog⟩ := (calls k).prog_eq limit
        exact (Pool.performs (h.wp (.inl k)) (hstart.trans hprog)).1 ho hwriter
      · have hret := h.returned hr
        cases r with
        | inserted res => exact hret.1 hwriter
        | collected statuses => exact hret.1 hwriter
        | capacity res => exact hret hwriter
        | task =>
          obtain ⟨id, hid⟩ := hret
          cases hid

namespace FourCalls

/-- Three clients that insert, and one that collects. -/
inductive Caller
  | first | second | third | collector
deriving DecidableEq

/-- A queue whose operations get the IDs 0, 1 and 2, of which the first succeeds and the
    others fail. -/
def handler (limit : ℕ) (who : Actor Caller) : Handler queueSig (QueueWorld (Actor Caller))
  | .readOps, w => if w.writer = none then some (w.ops, w) else none
  | .state id, w => (w.data id).map fun data => (data.state, w)
  | .toStatus id, w => (w.data id).map fun data => (toStatus id data, w)
  | .insertWrite finished, w =>
    if w.writer = none then
      if limit ≤ (makeRoom limit finished w.ops).2.length then
        some (.error fullError, w.reject who (makeRoom limit finished w.ops))
      else
        ([⟨0⟩, ⟨1⟩, ⟨2⟩].find? fun id => (w.data id).isNone).map fun id =>
          (.ok id, w.launch who (makeRoom limit finished w.ops) id)
    else none
  | .lockWrite, w => if w.writer = none then some (w.ops, { w with writer := some who }) else none
  | .retainUnlock remove, w => some ((), w.retain who remove)
  | .start id, w => (w.data id).map fun data =>
    if data.state = .Cancelled then (false, w) else (true, w.write id { data with state := .Executing })
  | .runFuture id, w => some (if id = ⟨0⟩ then .ok "txid" else .error ⟨-6, "failed"⟩, w)
  | .record id res, w =>
    if (w.data id).isSome then some ((), w.write id ⟨outcomeState res, some res⟩) else none

theorem handler_keeps (limit : ℕ) (who : Actor Caller) :
    (handler limit who).Keeps (queueContract limit who) id := by
  intro o w r w' h
  cases o with
  | readOps =>
    obtain ⟨hfree, heq⟩ := Option.ite_none_right_eq_some.mp h
    cases heq
    exact ⟨hfree, rfl, rfl⟩
  | state id =>
    obtain ⟨data, hdata, heq⟩ := Option.map_eq_some_iff.mp h
    cases heq
    exact ⟨⟨data, hdata, rfl⟩, rfl⟩
  | toStatus id =>
    obtain ⟨data, hdata, heq⟩ := Option.map_eq_some_iff.mp h
    cases heq
    exact ⟨⟨data, hdata, rfl⟩, rfl⟩
  | insertWrite finished =>
    obtain ⟨hfree, h⟩ := Option.ite_none_right_eq_some.mp h
    refine ⟨hfree, ?_⟩
    split at h
    · rename_i hfull
      cases h
      dsimp only [id]
      rw [if_pos hfull]
      exact ⟨rfl, rfl⟩
    · rename_i hroom
      obtain ⟨fresh, hfresh, heq⟩ := Option.map_eq_some_iff.mp h
      cases heq
      have hnone := List.find?_some hfresh
      dsimp only [id]
      rw [if_neg hroom]
      exact ⟨_, Option.isNone_iff_eq_none.mp hnone, rfl, rfl⟩
  | lockWrite =>
    obtain ⟨hfree, heq⟩ := Option.ite_none_right_eq_some.mp h
    cases heq
    exact ⟨hfree, rfl, rfl⟩
  | retainUnlock remove =>
    cases h
    rfl
  | start id =>
    obtain ⟨data, hdata, heq⟩ := Option.map_eq_some_iff.mp h
    refine ⟨data, hdata, ?_⟩
    split at heq
    · rename_i hcancelled
      cases heq
      rw [if_pos hcancelled]
      exact ⟨rfl, rfl⟩
    · rename_i hlive
      cases heq
      rw [if_neg hlive]
      exact ⟨rfl, rfl⟩
  | runFuture id =>
    cases h
    rfl
  | record id res =>
    obtain ⟨hsome, heq⟩ := Option.ite_none_right_eq_some.mp h
    cases heq
    exact ⟨hsome, rfl⟩

/-- Three insertions and a collection of all that has finished. -/
def fourCalls : Caller → Call
  | .first | .second | .third => .insert
  | .collector => .collectFinished fun _ => true

/-- The first operation finishes; two insertions read that before either of them writes; the
    operation of the one that came first finishes, and is collected. -/
def schedule : List (Actor Caller) :=
  [.inl .first, .inl .first, .inr ⟨0⟩, .inr ⟨0⟩, .inr ⟨0⟩, .inl .second, .inl .third,
    .inl .second, .inl .third, .inl .second, .inl .third, .inr ⟨1⟩, .inl .collector, .inr ⟨1⟩,
    .inr ⟨1⟩, .inl .collector, .inl .collector, .inl .collector, .inl .collector]

def reached : Pool queueSig (QueueWorld (Actor Caller)) (Actor Caller) CallResult :=
  Pool.execSchedule (handler 1) schedule ⟨queueProgs 1 fourCalls, .new _⟩

theorem reach : QueueReach 1 fourCalls reached :=
  Pool.execSchedule_reach (handler_keeps 1) schedule _

theorem idle : Idle 1 fourCalls reached := by
  intro k
  apply Or.inr
  cases k with
  | first => exact ⟨.inserted (.ok ⟨0⟩), rfl⟩
  | second => exact ⟨.inserted (.ok ⟨1⟩), rfl⟩
  | third => exact ⟨.inserted (.error fullError), rfl⟩
  | collector => exact ⟨.collected [⟨⟨1⟩, .Failed, some ⟨-6, "failed"⟩, none⟩], rfl⟩

end FourCalls

end Zallet.Rpc
