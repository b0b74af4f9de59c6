import Zallet.Effect.Sequel
import Zallet.Sync.SteadyState

/-!
# Reads of an iteration that fail

Every read of `steady_state_iteration` is followed by `?`, and so is every item
of the block stream (`sync.rs`, lines 919–1078). `PassesOn` is this rule as a
requirement on programs and `obeys_steadyStateIteration` says that the iteration
obeys it: nothing in it catches a failure of the chain backend.

`failed_read_ends` and `broken_stream_ends` say what this means for a run of an
iteration: a failed read is the last thing it does, and once the blocks of a
stream that breaks off are applied it does nothing more.
-/

namespace Zallet.Sync

open Zallet.Effect Zallet.Common Zallet.Chain Zallet.Wallet

variable {U : Upstream} {shutdownHeight : Option ℕ} {α : Type}

/-- What follows an answer of the chain backend: nothing but the error, if it
    is one; the blocks of a stream, and then its error, if the stream breaks
    off. Blocks are streamed in no other way. -/
structure PassesOn (U : Upstream) (shutdownHeight : Option ℕ) {α : Type} (ev : Event syncSig)
    (p : SyncM α) : Prop where
  failed : ∀ o e, ev = ⟨.chain o, .error e⟩ → p = throw (.Chain e)
  brokenOff : ∀ view start stream e, ev = ⟨.chain (.streamBlocksToTip view start), .ok stream⟩ →
    stream.failure = some e → ∃ f : ControlFlow ℕ Unit → SyncM α,
      p = applyBlocks U view shutdownHeight stream.blocks >>= f ∧
        f (.Continue ()) = throw (.Chain e)
  noRange : ∀ view range r, ev ≠ ⟨.chain (.streamBlocks view range), r⟩

/-- `PassesOn` as a requirement on the rest of a program. -/
def iterationReads (U : Upstream) (shutdownHeight : Option ℕ) : Sequel syncSig SyncError where
  rest ev p := PassesOn U shutdownHeight ev p
  bind := by
    intro α β ev p f h
    constructor
    · intro o e hev
      rw [h.failed o e hev]
      rfl
    · intro view start stream e hev hfailure
      obtain ⟨g, hp, hg⟩ := h.brokenOff view start stream e hev hfailure
      refine ⟨fun flow => g flow >>= f, ?_, ?_⟩
      · rw [hp, bindE_assoc]
      · show g (.Continue ()) >>= f = throw (.Chain e)
        rw [hg]
        rfl
    · exact h.noRange

/-! ## The parts of an iteration -/

/-- An operation that does not read the chain asks for nothing. -/
theorem passesOn_other {ev : Event syncSig} (h : ∀ o, ev.op ≠ .chain o) (p : SyncM α) :
    PassesOn U shutdownHeight ev p := by
  constructor
  · rintro o e rfl
    exact absurd rfl (h o)
  · rintro view start stream e rfl
    exact absurd rfl (h _)
  · rintro view range r rfl
    exact absurd rfl (h _)

theorem obeys_perform {o : SyncOp} (ho : ∀ c, o ≠ .chain c) :
    Obeys (iterationReads U shutdownHeight) (perform o) :=
  Obeys.call fun _ => passesOn_other ho _

theorem obeys_db (o : DbOp) : Obeys (iterationReads U shutdownHeight) (db o) :=
  Obeys.call fun _ => passesOn_other (by simp) _

theorem obeys_dbTry (o : DbOp) : Obeys (iterationReads U shutdownHeight) (dbTry o) :=
  Obeys.call fun _ => passesOn_other (by simp) _

/-- A read of the chain other than a stream of blocks. -/
theorem obeys_chain {o : ChainOp} (htip : ∀ view start, o ≠ .streamBlocksToTip view start)
    (hrange : ∀ view range, o ≠ .streamBlocks view range) :
    Obeys (iterationReads U shutdownHeight) (chain o) := by
  refine Obeys.call fun r => ?_
  constructor
  · intro o' e hev
    cases hev
    rfl
  · intro view start stream e hev
    cases hev
    exact absurd rfl (htip view start)
  · intro view range r' hev
    cases hev
    exact absurd rfl (hrange view range)

theorem obeys_okOr (e : SyncError) (a : Option α) :
    Obeys (iterationReads U shutdownHeight) (okOr e a) := by
  cases a with
  | some a => exact Obeys.pure a
  | none => exact Obeys.throw e

theorem obeys_panic (message : String) :
    Obeys (iterationReads U shutdownHeight)
      (perform (.panic message) >>= (Empty.elim : Empty → SyncM α)) :=
  (obeys_perform (by simp)).bind fun r => r.elim

theorem obeys_assert (c : Prop) [Decidable c] (message : String) :
    Obeys (iterationReads U shutdownHeight) (assert c message) := by
  unfold assert
  split
  · exact Obeys.pure ()
  · exact obeys_panic message

theorem obeys_buildBlockLocator (tip : ℕ) :
    Obeys (iterationReads U shutdownHeight) (buildBlockLocator tip) := by
  have hcollect : ∀ heights, Obeys (iterationReads U shutdownHeight) (collectBlocks heights) := by
    intro heights
    induction heights with
    | nil => exact Obeys.pure _
    | cons height rest ih =>
      rw [collectBlocks]
      refine (obeys_db _).bind fun hash => ih.bind fun blocks => ?_
      cases hash with
      | some hash => exact Obeys.pure _
      | none => exact Obeys.pure _
  unfold buildBlockLocator
  refine (hcollect _).bind fun blocks => ?_
  split
  · exact Obeys.pure _
  · exact obeys_panic _

theorem obeys_stepBackToBestChain (view : ChainView) (height birthday : ℕ) :
    Obeys (iterationReads U shutdownHeight)
      (stepBackToBestChain view height birthday walletHash) := by
  -- by induction on the height, which falls with every step that is not the last
  induction height using Nat.strong_induction_on with
  | _ height ih =>
    rw [stepBackToBestChain]
    refine Obeys.bind ?_ fun found => ?_
    · unfold probe walletHash
      refine (obeys_db _).bind fun hash => ?_
      cases hash with
      | none => exact Obeys.pure _
      | some wh =>
        refine (obeys_chain (by simp) (by simp)).bind fun header => ?_
        split
        · exact Obeys.pure _
        · exact Obeys.pure _
    · cases found with
      | some wh => exact Obeys.pure _
      | none =>
        simp only
        split
        · exact Obeys.throw _
        · rename_i h
          exact ih _ (rewindStep_lt h)

theorem obeys_locateForkPoint (view : ChainView) (prevTip : ChainBlock) :
    Obeys (iterationReads U shutdownHeight) (locateForkPoint view prevTip) := by
  unfold locateForkPoint
  refine (obeys_db _).bind fun birthday => (obeys_buildBlockLocator _).bind fun locator => ?_
  refine (obeys_chain (by simp) (by simp)).bind fun found => ?_
  cases found with
  | some forkPoint => exact Obeys.pure _
  | none =>
    simp only
    split
    · exact Obeys.pure _
    · exact obeys_stepBackToBestChain view _ _

theorem obeys_truncateToWalletCheckpoint (target : ℕ) :
    Obeys (iterationReads U shutdownHeight) (truncateToWalletCheckpoint target) := by
  unfold truncateToWalletCheckpoint truncateOrLowest
  refine Obeys.bind ?_ fun actual => ?_
  · refine (obeys_dbTry _).bind fun r => ?_
    split
    · exact Obeys.pure _
    · exact obeys_db _
    · exact Obeys.throw _
  · exact (obeys_db _).bind fun hash => Obeys.ofOutcome _

theorem obeys_rewindToForkPoint (forkPoint prevTip : ChainBlock) :
    Obeys (iterationReads U shutdownHeight) (rewindToForkPoint forkPoint prevTip) := by
  unfold rewindToForkPoint
  split
  · refine (obeys_assert _ _).bind fun _ => ?_
    refine (obeys_truncateToWalletCheckpoint _).bind fun resumeFrom => ?_
    exact (obeys_perform (by simp)).bind fun _ => obeys_perform (by simp)
  · exact Obeys.pure ()

theorem obeys_announceTip (currentTip : ChainBlock) :
    Obeys (iterationReads U shutdownHeight) (announceTip currentTip) := by
  unfold announceTip
  refine (obeys_perform (by simp)).bind fun _ => (obeys_perform (by simp)).bind fun _ => ?_
  exact obeys_perform (by simp)

theorem obeys_scanBlock (view : ChainView) (block : Block) :
    Obeys (iterationReads U shutdownHeight) (scanBlock U view block shutdownHeight) := by
  have hindex : ∀ accounts index,
      Obeys (iterationReads U shutdownHeight) (indexAccounts accounts index) := by
    intro accounts
    induction accounts with
    | nil => exact fun index => Obeys.pure index
    | cons account rest ih =>
      intro index
      rw [indexAccounts]
      exact (obeys_db _).bind fun receivers => ih _
  unfold scanBlock
  simp only
  split
  · exact Obeys.pure _
  · refine (obeys_chain (by simp) (by simp)).bind fun state => ?_
    refine (obeys_okOr _ _).bind fun fromState => ?_
    refine (obeys_perform (by simp)).bind fun result => (obeys_okOr _ _).bind fun reply => ?_
    refine (obeys_db _).bind fun nullifiers => Obeys.bind ?_ fun addresses => ?_
    · unfold transparentAddressIndex
      exact (obeys_db _).bind fun accounts => hindex accounts _
    · refine Obeys.bind ?_ fun scanned => (obeys_db _).bind fun _ => Obeys.pure _
      unfold scanReply
      refine (obeys_perform (by simp)).bind fun result => ?_
      exact (obeys_okOr _ _).bind fun result => Obeys.ofOutcome _

theorem obeys_applyBlocks (view : ChainView) (blocks : List Block) :
    Obeys (iterationReads U shutdownHeight) (applyBlocks U view shutdownHeight blocks) := by
  induction blocks with
  | nil => exact Obeys.pure _
  | cons block rest ih =>
    rw [applyBlocks]
    refine (obeys_perform (by simp)).bind fun prevTip => (obeys_assert _ _).bind fun _ => ?_
    refine (obeys_scanBlock view block).bind fun flow => ?_
    cases flow with
    | Break boundary => exact Obeys.pure _
    | Continue u =>
      exact (obeys_db _).bind fun _ => (obeys_perform (by simp)).bind fun _ => ih

/-- The one stream of an iteration is applied and its end looked at. -/
theorem obeys_applyToTip (view : ChainView) :
    Obeys (iterationReads U shutdownHeight) (applyToTip U view shutdownHeight) := by
  unfold applyToTip
  refine (obeys_perform (by simp)).bind fun prevTip => Obeys.call_bind ?_ fun stream => ?_
  · intro r
    constructor
    · intro o e hev
      cases hev
      rfl
    · intro view' start stream e hev hfailure
      cases hev
      refine ⟨_, rfl, ?_⟩
      show endOfStream stream.failure >>= _ = _
      rw [hfailure]
      rfl
    · intro view' range r' hev
      cases hev
  · refine (obeys_applyBlocks view _).bind fun flow => ?_
    cases flow with
    | Break boundary => exact Obeys.pure _
    | Continue u =>
      refine Obeys.bind ?_ fun _ => Obeys.pure _
      unfold endOfStream
      split
      · exact Obeys.throw _
      · exact Obeys.pure ()

theorem obeys_finishIteration (view : ChainView) (currentTip : ChainBlock) (tipChanged : Bool) :
    Obeys (iterationReads U shutdownHeight)
      (finishIteration view currentTip tipChanged shutdownHeight) := by
  have hstore : ∀ txs, Obeys (iterationReads U shutdownHeight) (storeMempool txs) := by
    intro txs
    induction txs with
    | nil => exact Obeys.pure ()
    | cons tx rest ih =>
      rw [storeMempool]
      exact (obeys_db _).bind fun _ => ih
  unfold finishIteration
  split
  · exact Obeys.pure _
  · refine Obeys.bind ?_ fun _ => Obeys.pure _
    unfold reachTip
    refine (obeys_db _).bind fun fullyScanned => (obeys_perform (by simp)).bind fun _ => ?_
    refine (obeys_perform (by simp)).bind fun _ => (obeys_perform (by simp)).bind fun _ => ?_
    refine (obeys_chain (by simp) (by simp)).bind fun stream => ?_
    split
    · exact hstore _
    · split
      · exact (obeys_perform (by simp)).bind fun _ => obeys_perform (by simp)
      · exact obeys_perform (by simp)

/-- Nothing in an iteration catches a failure of the chain backend. -/
theorem obeys_steadyStateIteration :
    Obeys (iterationReads U shutdownHeight) (steadyStateIteration U shutdownHeight) := by
  unfold steadyStateIteration iterationOn
  refine (obeys_chain (by simp) (by simp)).bind fun view => ?_
  refine (obeys_chain (by simp) (by simp)).bind fun currentTip => ?_
  refine (obeys_perform (by simp)).bind fun prevTip => ?_
  split
  · refine Obeys.bind ?_ fun flow => ?_
    · unfold followTip
      refine (obeys_announceTip currentTip).bind fun _ => ?_
      refine (obeys_perform (by simp)).bind fun prevTip => ?_
      refine (obeys_locateForkPoint view prevTip).bind fun forkPoint => ?_
      refine (obeys_assert _ _).bind fun _ => ?_
      exact (obeys_rewindToForkPoint forkPoint prevTip).bind fun _ => obeys_applyToTip view
    · cases flow with
      | Break boundary => exact Obeys.pure _
      | Continue u => exact obeys_finishIteration view currentTip true
  · exact obeys_finishIteration view currentTip false

/-! ## Runs of an iteration -/

section runs

variable {C : Contract syncSig SyncWorld} {w w' : SyncWorld} {τ₀ τ₁ : List (Event syncSig)}
  {outcome : Except SyncError (ControlFlow ℕ Unit)}

/-- A failed read is the last operation of an iteration, and its error is the
    outcome. -/
theorem failed_read_ends {o : ChainOp} {e : ChainError}
    (h : Run C (steadyStateIteration U shutdownHeight).run w (τ₀ ++ ⟨.chain o, .error e⟩ :: τ₁)
      outcome w') : τ₁ = [] ∧ outcome = .error (.Chain e) := by
  obtain ⟨q, w₁, hrest, hrun⟩ := obeys_steadyStateIteration.rest_of_run h
  rw [hrest.failed o e rfl] at hrun
  obtain ⟨hτ, hr, -⟩ := run_pure.mp hrun
  exact ⟨hτ, hr⟩

/-- After a stream that breaks off, an iteration applies its blocks. If it
    comes to the end of them, the error of the stream is the outcome. -/
theorem broken_stream_ends {view : ChainView} {start : ℕ} {stream : BlockStream} {e : ChainError}
    (h : Run C (steadyStateIteration U shutdownHeight).run w
      (τ₀ ++ ⟨.chain (.streamBlocksToTip view start), .ok stream⟩ :: τ₁) outcome w')
    (hfailure : stream.failure = some e) :
    ∃ w₁ τ₂ applied w₂ τ₃, τ₁ = τ₂ ++ τ₃ ∧
      Run C (applyBlocks U view shutdownHeight stream.blocks).run w₁ τ₂ applied w₂ ∧
      (applied = .ok (.Continue ()) → τ₃ = [] ∧ outcome = .error (.Chain e)) := by
  obtain ⟨q, w₁, hrest, hrun⟩ := obeys_steadyStateIteration.rest_of_run h
  obtain ⟨f, hq, hf⟩ := hrest.brokenOff view start stream e rfl hfailure
  rw [hq] at hrun
  rcases run_bind_cases hrun with ⟨e', -, happly⟩ | ⟨τ₂, flow, w₂, τ₃, happly, hrun, hτ⟩
  · refine ⟨w₁, τ₁, _, w', [], (List.append_nil _).symm, happly, ?_⟩
    intro hok
    cases hok
  · refine ⟨w₁, τ₂, _, w₂, τ₃, hτ, happly, ?_⟩
    intro hok
    cases hok
    rw [hf] at hrun
    obtain ⟨hnil, hr, -⟩ := run_pure.mp hrun
    exact ⟨hnil, hr⟩

/-- An iteration does not read a range of blocks. -/
theorem no_range_read {view : ChainView} {range : HeightRange}
    {r : Except ChainError BlockStream}
    (h : Run C (steadyStateIteration U shutdownHeight).run w
      (τ₀ ++ ⟨.chain (.streamBlocks view range), r⟩ :: τ₁) outcome w') : False := by
  obtain ⟨q, w₁, hrest, -⟩ := obeys_steadyStateIteration.rest_of_run h
  exact hrest.noRange view range r rfl

end runs

end Zallet.Sync
