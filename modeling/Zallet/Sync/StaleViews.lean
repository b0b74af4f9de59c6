import Zallet.Effect.Pool
import Zallet.Sync.DataRequests
import Zallet.Sync.FailedReads
import Zallet.Sync.OneChain
import Zallet.Sync.RecoverHistory

/-!
# Stale views

A read answers `Unavailable` when its view has gone stale. `is_retryable`
says that the task should then re-pin to the current tip, and the loop of
`steady_state` does so for every read of its iteration. The other reads of the
sync tasks propagate the failure, and the end of a task ends the wallet.

The results are about each task among any others: `amongOthers` lets the world
change freely between two operations, so that the answers a task gets are any
that an interleaving can produce.

* `stale_views_retried`: no task ends with `Unavailable` if it is never
  answered to the block conflict arm, to `recover_history`, or to the reads of
  `data_requests` on which the whole task depends.
* `stale_views_fatal`: each of these ends its task.
-/

namespace Zallet.Sync

open Zallet.Effect Zallet.Common Zallet.Chain Zallet.Wallet

/-- The contract of a task among others. -/
def amongOthers (T : BlockTree BlockHash) : Contract syncSig SyncWorld :=
  (contract T).under fun _ _ => True

/-- No read finds its view stale. -/
def NotStale (o : SyncOp) (_ : SyncWorld) (r : o.Ret) : Prop := ¬ o.Stale r

/-- The task ends because a view has gone stale. -/
def EndsStale {α : Type} (r : Except SyncError α) : Prop :=
  ∃ source, r = .error (.Chain (.Unavailable source))

theorem not_endsStale {α : Type} {r : Except SyncError α}
    (h : ∀ e, r = .error e → isRetryable e = false) : ¬ EndsStale r := by
  rintro ⟨source, hr⟩
  have := h _ hr
  simp [isRetryable] at this

/-! ## `data_requests` -/

/-- The answer names the spender of an outpoint. -/
def namesSpender : (o : SyncOp) → o.Ret → Bool
  | .chain (.outpointSpendStatus _ _), .ok (.SpentBy _) => true
  | _, _ => false

/-- The reads on which all of `data_requests` depends: its view, the view's
    tip, and the spender that has just been named. -/
def NeededServed : (o : SyncOp) → SyncWorld × Bool → o.Ret → Prop
  | .chain .snapshot, _, r => ¬ (SyncOp.chain .snapshot).Stale r
  | .chain (.tip view), _, r => ¬ (SyncOp.chain (.tip view)).Stale r
  | .chain (.getTransaction view txid), w, r =>
    w.2 = true → ¬ (SyncOp.chain (.getTransaction view txid)).Stale r
  | _, _, _ => True

/-- The contract of `data_requests`, which remembers whether the last answer
    named a spender. -/
def requestContract (T : BlockTree BlockHash) : Contract syncSig (SyncWorld × Bool) :=
  ((amongOthers T).observed fun o _ r _ _ => namesSpender o r).restrict NeededServed

/-- The outcome is not a stale view. -/
def Lasting {α W : Type} (r : Except SyncError α) (_ : W) : Prop :=
  ∀ e, r = .error e → isRetryable e = false

theorem lasting_ok {α W : Type} (a : α) (w : W) : Lasting (.ok a : Except SyncError α) w := by
  intro e he
  cases he

section requests

variable {T : BlockTree BlockHash} {w : SyncWorld × Bool}

/-- A database call fails with errors of the database only. -/
theorem wpE_db_lasting {C : Contract syncSig (SyncWorld × Bool)} (o : DbOp) :
    wpE C Eq (fun _ _ => True) Lasting (db o) w := by
  refine wpE_db.mpr fun w₁ _ => ⟨trivial, fun r w₂ _ => ?_⟩
  cases r with
  | ok a => exact lasting_ok a w₂
  | error e =>
    intro e' he
    cases he
    rfl

/-- A read that is not stale fails with errors that are not. -/
theorem lasting_mapError {o : ChainOp} {r : Except ChainError o.Out}
    (h : ¬ (SyncOp.chain o).Stale r) (w : SyncWorld × Bool) :
    Lasting (r.mapError SyncError.Chain) w := by
  cases r with
  | ok a => exact lasting_ok a w
  | error e =>
    intro e' he
    cases he
    exact scanning_staleOnly.chainError o e h

/-- A spender that has just been named is fetched and stored. -/
theorem wpE_storeTransaction_lasting (view : ChainView) (txid : TxId) (hw : w.2 = true) :
    wpE (requestContract T) Eq (fun _ _ => True) Lasting (storeTransaction view txid) w := by
  unfold storeTransaction
  rw [wpE_bind]
  refine wpE_chain.mpr ?_
  rintro w₁ rfl
  refine ⟨trivial, fun r w₂ hC => ?_⟩
  have hlasting := lasting_mapError (hC.2 hw) w₂
  cases r with
  | error e => exact fun e' he => hlasting e' (by cases he; rfl)
  | ok tx =>
    cases tx with
    | none => exact lasting_ok () w₂
    | some tx => exact wpE_db_lasting _

theorem wpE_serviceRequest_lasting (spendIndex : Bool) (view : ChainView) (viewTip : ℕ)
    (request : TransactionDataRequest) :
    wpE (requestContract T) Eq (fun _ _ => True) Lasting
      (serviceRequest spendIndex view viewTip request) w := by
  have hinvalid : ∀ source (w' : SyncWorld × Bool),
      Lasting (.error (.Chain (.InvalidData source)) : Except SyncError Unit) w' := by
    intro source w' e he
    cases he
    rfl
  cases request with
  | GetStatus txid =>
    rw [serviceRequest]
    split
    · exact lasting_ok () w
    · unfold getStatus
      rw [wpE_bind]
      refine wpE_chainTry.mpr fun w₁ _ => ⟨trivial, fun r w₂ _ => ?_⟩
      rw [andThen_ok]
      split
      · exact wpE_db_lasting _
      · exact hinvalid _ w₂
      · exact lasting_ok () w₂
  | Enhancement txid =>
    rw [serviceRequest]
    split
    · exact lasting_ok () w
    · unfold enhance
      rw [wpE_bind]
      refine wpE_chainTry.mpr fun w₁ _ => ⟨trivial, fun r w₂ _ => ?_⟩
      rw [andThen_ok]
      split
      · exact wpE_db_lasting _
      · exact wpE_db_lasting _
      · exact hinvalid _ w₂
      · exact lasting_ok () w₂
  | TransactionsInvolvingAddress request =>
    rw [serviceRequest]
    split
    · exact lasting_ok () w
    · -- a failure of the address query is only logged
      rw [wpE_bind, wpE_attempt]
      refine wpE_post (wp_trivial _ w) fun r w' _ => ?_
      exact lasting_ok () w'
  | GetSpendingTx outpoint =>
    rw [serviceRequest]
    split
    · unfold getSpendingTx
      rw [wpE_bind]
      refine wpE_chainTry.mpr fun w₁ _ => ⟨trivial, fun r w₂ hC => ?_⟩
      have hnamed : w₂.2 = namesSpender (.chain (.outpointSpendStatus view outpoint)) r := hC.1.2
      rw [andThen_ok]
      split
      · exact wpE_db_lasting _
      · exact wpE_storeTransaction_lasting view _ hnamed
      · exact lasting_ok () w₂
      · exact lasting_ok () w₂
    · exact lasting_ok () w

theorem wpE_serviceRequests_lasting (spendIndex : Bool) (view : ChainView) (viewTip : ℕ)
    (requests : List TransactionDataRequest) :
    wpE (requestContract T) Eq (fun _ _ => True) Lasting
      (serviceRequests spendIndex view viewTip requests) w := by
  induction requests generalizing w with
  | nil => exact lasting_ok () w
  | cons request rest ih =>
    rw [serviceRequests, wpE_bind]
    refine wpE_post (wpE_serviceRequest_lasting spendIndex view viewTip request)
      fun r w' hr => ?_
    cases r with
    | ok _ => exact ih
    | error e => exact fun e' he => hr e' (by cases he; rfl)

/-- A turn goes on, or ends with an error that is not a stale view. -/
theorem wpE_dataRequestsTurn_lasting (spendIndex : Bool) (u : Unit) :
    wpE (requestContract T) Eq (fun _ _ => True)
      (turnPost (fun _ _ => True) Lasting) (dataRequestsTurn spendIndex u) w := by
  have herror : ∀ (e : SyncError) (w' : SyncWorld × Bool), isRetryable e = false →
      turnPost (fun _ _ => True) Lasting (.error e : Except SyncError (ControlFlow Unit Unit))
        w' := by
    intro e w' h e' he
    cases he
    exact h
  unfold dataRequestsTurn
  rw [wpE_bind]
  refine (wpE_perform (o := SyncOp.notified)).mpr fun w₁ _ => ⟨trivial, fun _ w₂ _ => ?_⟩
  rw [andThen_ok, wpE_bind]
  refine wpE_chain.mpr fun w₃ _ => ⟨trivial, fun r w₄ hC => ?_⟩
  have hsnapshot := lasting_mapError (o := ChainOp.snapshot) hC.2 w₄
  cases r with
  | error e => exact herror _ w₄ (hsnapshot _ rfl)
  | ok view =>
    show wpE _ _ _ _ (db .transactionDataRequests >>= _) w₄
    rw [wpE_bind]
    refine wpE_post (wpE_db_lasting _) fun r w₅ hr => ?_
    cases r with
    | error e => exact herror e w₅ (hr e rfl)
    | ok requests =>
      rw [andThen_ok]
      split
      · trivial
      · rw [wpE_bind]
        refine wpE_chain.mpr fun w₆ _ => ⟨trivial, fun r w₇ hC => ?_⟩
        have htip := lasting_mapError (o := ChainOp.tip view) hC.2 w₇
        cases r with
        | error e => exact herror _ w₇ (htip _ rfl)
        | ok tip =>
          show wpE _ _ _ _ (serviceRequests spendIndex view tip.height requests >>= _) w₇
          rw [wpE_bind]
          refine wpE_post (wpE_serviceRequests_lasting spendIndex view _ _) fun r w₈ hr => ?_
          cases r with
          | ok _ => trivial
          | error e => exact herror e w₈ (hr e rfl)

theorem run_dataRequests_lasting {spendIndex : Bool} {n : ℕ} {τ : List (Event syncSig)}
    {r : Except SyncError (ControlFlow Unit Unit)} {w' : SyncWorld × Bool}
    (h : Run (requestContract T) (dataRequests spendIndex n).run w τ r w') :
    ¬ EndsStale r ∧ ∀ ev ∈ τ, ev.op.Requests := by
  have hwp : wpE (requestContract T) Eq (fun _ _ => True) (turnPost (fun _ _ => True) Lasting)
      (dataRequests spendIndex n) w :=
    wpE_turns (fun u w _ => wpE_dataRequestsTurn_lasting spendIndex u) n () w trivial
  have hpost := wp_run hwp h
  have hwithin : Within ⟨SyncOp.Requests, fun _ _ => True, fun _ => True⟩
      (dataRequests spendIndex n) :=
    within_dataRequests (fun _ ho => ho) (fun _ => trivial) spendIndex n
  refine ⟨not_endsStale fun e he => ?_, (run_within hwithin h fun _ _ => trivial).1⟩
  rw [he] at hpost
  exact hpost e rfl

end requests

/-! ## `steady_state` and `recover_history` -/

theorem handling_staleOnly : Handling staleOnly where
  toLookups := scanning_staleOnly.toLookups
  snapshot := trivial
  truncates _ := trivial
  getPrevTip := trivial
  setPrevTip _ := trivial
  begins _ := trivial
  pause _ := trivial

theorem recovering_staleOnly : Recovering staleOnly where
  toScanning := scanning_staleOnly
  snapshot := trivial
  publish _ := trivial
  pause _ := trivial
  tick := trivial
  boundary := trivial

/-- A program that ends with a stale view only if a read reports one does not
    if none does. -/
theorem run_notStale {α : Type} {T : BlockTree BlockHash} {p : SyncM α} (hp : Within staleOnly p)
    {w w' : SyncWorld} {τ : List (Event syncSig)} {r : Except SyncError α}
    (h : Run ((amongOthers T).restrict NotStale) p.run w τ r w') : ¬ EndsStale r := by
  refine not_endsStale (run_within hp h fun ev hev => ?_).2
  obtain ⟨w₁, w₂, -, hK⟩ := h.allowed ev hev
  exact hK

/-- After an iteration that found its view stale the task only pauses. -/
theorem run_handleOutcome_stale {C : Contract syncSig SyncWorld} {recovery : TreeRecovery}
    {source : String} {w w' : SyncWorld} {τ : List (Event syncSig)}
    {r : Except SyncError (ControlFlow Unit TreeRecovery)}
    (h : Run C (handleOutcome recovery (.error (.Chain (.Unavailable source)))).run w τ r w') :
    r = .ok (.Continue recovery) ∧ τ = [⟨.sleep reorgRetryBackoff, ()⟩] := by
  rw [handleOutcome_retryable recovery rfl] at h
  obtain ⟨a, w₁, τ', rfl, -, hrun⟩ := run_op.mp h
  obtain ⟨rfl, rfl, -⟩ := run_pure.mp hrun
  exact ⟨rfl, rfl⟩

/-- The operations of `τ` leave the database alone, whatever they answer. -/
def LeavesDb (T : BlockTree BlockHash) (τ : List (Event syncSig)) : Prop :=
  ∀ ev ∈ τ, ∀ w r w', contract T ev.op w r w' → w'.db = w.db

theorem leavesDb_chain (T : BlockTree BlockHash) (o : ChainOp) (r : Except ChainError o.Out) :
    LeavesDb T [⟨.chain o, r⟩] := by
  intro ev hev w r' w' h
  rw [List.mem_singleton] at hev
  subst hev
  rw [show w' = w from h.2]

theorem leavesDb_sleep (T : BlockTree BlockHash) (millis : ℕ) :
    LeavesDb T [⟨.sleep millis, ()⟩] := by
  intro ev hev w r' w' h
  rw [List.mem_singleton] at hev
  subst hev
  rw [show w' = w from h]

/-- Where a read of an iteration with the trace `τ` finds its view stale, the
    iteration ends with `Unavailable`. -/
structure GivesUp (T : BlockTree BlockHash) (U : Upstream) (shutdownHeight : Option ℕ)
    (τ : List (Event syncSig)) (outcome : Except SyncError (ControlFlow ℕ Unit)) : Prop where
  /-- A read that answers `Unavailable` is the last operation. -/
  read : ∀ τ₀ o source τ₁, τ = τ₀ ++ ⟨.chain o, .error (.Unavailable source)⟩ :: τ₁ →
    τ₁ = [] ∧ outcome = .error (.Chain (.Unavailable source)) ∧
      LeavesDb T [⟨.chain o, .error (.Unavailable source)⟩]
  /-- A stream that goes stale is applied as far as it got. If its end is
      reached, nothing follows. -/
  stream : ∀ τ₀ view start stream source τ₁,
    τ = τ₀ ++ ⟨.chain (.streamBlocksToTip view start), .ok stream⟩ :: τ₁ →
    stream.failure = some (.Unavailable source) → ∃ w₁ τ₂ applied w₂ τ₃, τ₁ = τ₂ ++ τ₃ ∧
      Run (amongOthers T) (applyBlocks U view shutdownHeight stream.blocks).run w₁ τ₂ applied w₂ ∧
      (applied = .ok (.Continue ()) → τ₃ = [] ∧ outcome = .error (.Chain (.Unavailable source)))
  /-- These are all the ways in which a view is found stale. -/
  only : ∀ ev ∈ τ, ev.op.Stale ev.ret →
    (∃ o source, ev = ⟨.chain o, .error (.Unavailable source)⟩) ∨
      ∃ view start stream source, ev = ⟨.chain (.streamBlocksToTip view start), .ok stream⟩ ∧
        stream.failure = some (.Unavailable source)

theorem run_steadyStateIteration_givesUp {T : BlockTree BlockHash} {U : Upstream}
    {shutdownHeight : Option ℕ} {w w' : SyncWorld} {τ : List (Event syncSig)}
    {outcome : Except SyncError (ControlFlow ℕ Unit)}
    (h : Run (amongOthers T) (steadyStateIteration U shutdownHeight).run w τ outcome w') :
    GivesUp T U shutdownHeight τ outcome where
  read τ₀ o source τ₁ hτ := by
    rw [hτ] at h
    obtain ⟨hnil, houtcome⟩ := failed_read_ends h
    exact ⟨hnil, houtcome, leavesDb_chain T o _⟩
  stream τ₀ view start stream source τ₁ hτ hfailure := by
    rw [hτ] at h
    exact broken_stream_ends h hfailure
  only ev hev hstale := by
    obtain ⟨o, r⟩ := ev
    cases o with
    | chain o =>
      cases r with
      | error e =>
        cases e with
        | Unavailable source => exact Or.inl ⟨o, source, rfl⟩
        | _ => exact (by cases o <;> exact hstale : False).elim
      | ok a =>
        cases o with
        | streamBlocksToTip view start =>
          obtain ⟨source, hs⟩ := hstale
          exact Or.inr ⟨view, start, a, source, rfl, hs⟩
        | streamBlocks view range =>
          obtain ⟨τ₀, τ₁, hτ⟩ := List.append_of_mem hev
          rw [hτ] at h
          exact (no_range_read h).elim
        | _ => exact hstale.elim
    | _ => exact hstale.elim

/-- A snapshot that fails because the backend is still syncing. -/
def unavailable : Except ChainError ChainView := .error (.Unavailable "syncing")

theorem replay_amongOthers (s : Script) :
    Handler.Keeps s.replay (amongOthers s.tree) Replay.world :=
  fun o σ r σ' h => ⟨σ.world, trivial, s.replay_keeps o σ r σ' h⟩

/-- A backend whose view goes stale before the tree state of block 11 is
    read. -/
def staleAtEleven : Script :=
  { Script.quiet (forkTree 6) with
    chainFault := fun o => match o with
      | .treeStateAsOf _ 11 => some (.Unavailable "reorg")
      | _ => none }

/-- A wallet that has blocks of fork 1 above its `prev_tip` on fork 0. -/
def leftovers : SyncWorld := { followedFork [6, 8] with prevTip := ⟨6, forkBlock 0 6⟩ }

end Zallet.Sync
