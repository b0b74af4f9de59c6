import Mathlib.Data.Finset.Insert
import Zallet.Chain.Compatibility
import Zallet.Zebra.Reads

/-!
# The mempool stream of the `zebra` view

`get_mempool_stream` (`backends/zebra/src/chain.rs`, lines 439–520) polls the
validator once a second. A poll reads the tip, the list of txids, and a raw
transaction for each txid that no earlier poll has listed; what it reads waits
in `pending` for the consumer.

A txid is marked as seen before its transaction is fetched, so a fetch that
fails is never repeated.

* `mem_streamed`: which transactions are yielded.
* `mempoolStream_iff`: nothing is repeated, and nothing is lost exactly when
  the first fetch of each transaction succeeds that any fetch could.
-/

namespace Zallet.Zebra

open Zallet.Chain

/-- `State` without its handles and its interval (lines 449–457). -/
structure MempoolState where
  tipHash : BlockHash
  branchId : BranchId
  seen : Finset TxId
  pending : List Transaction

/-- `get_mempool_stream` up to the stream (lines 440–467). -/
def ZebraChainView.getMempoolStream (self : ZebraChainView) (params : Parameters) (R : Reader) :
    Except ChainError (Option MempoolState) := do
  let currentTip ← R .tip
  if currentTip.map (·.hash) ≠ some self.tip.hash then pure none
  else pure (some ⟨self.tip.hash, BranchId.forHeight params (self.tip.height + 1), ∅, []⟩)

/-- The chain tip is still the captured one (lines 479–482). -/
def MempoolState.tipUnchanged (s : MempoolState) (R : Reader) : Bool :=
  match R .tip with
  | .ok (some tip) => decide (tip.hash = s.tipHash)
  | _ => false

section

variable (codec : TxCodec)

/-- The transaction that the backend serves for `txid` (lines 496–515), if it can
    be fetched, decoded and parsed. -/
def fetchMempoolTransaction (branchId : BranchId) (R : Reader) (txid : TxId) :
    Option Transaction :=
  match R (.getRawTransaction txid) with
  | .error _ => none
  | .ok rawHex =>
    match codec.hexDecode rawHex with
    | .error _ => none
    | .ok bytes => (codec.readTransaction bytes branchId).toOption

namespace MempoolState

/-- The body of the loop over the txids of a poll (lines 492–516). -/
def pollTxid (R : Reader) (s : MempoolState) (txid : TxId) : MempoolState :=
  if txid ∈ s.seen then s
  else
    -- marked as seen whether or not the transaction can be fetched
    let s := { s with seen := insert txid s.seen }
    match fetchMempoolTransaction codec s.branchId R txid with
    | some tx => { s with pending := s.pending ++ [tx] }
    | none => s

/-- One poll (lines 484–517). -/
def poll (R : Reader) (s : MempoolState) : MempoolState :=
  match R .getRawMempool with
  | .error _ => s
  | .ok txids => txids.foldl (pollTxid codec R) s

/-- The next item of the stream (lines 470–519), with the polls that are left: a
    poll is the backend at one tick of the interval. -/
def next : List Reader → MempoolState → Option (Transaction × MempoolState × List Reader)
  | [], s =>
    match s.pending with
    | tx :: rest => some (tx, { s with pending := rest }, [])
    | [] => none
  | R :: polls, s =>
    match s.pending with
    | tx :: rest => some (tx, { s with pending := rest }, R :: polls)
    | [] => if s.tipUnchanged R then next polls (s.poll codec R) else none

/-- The first `n` items, as `steady_state_iteration` takes them (sync.rs,
    lines 1045–1051). -/
def take : ℕ → List Reader → MempoolState → List Transaction
  | 0, _, _ => []
  | n + 1, polls, s =>
    match s.next codec polls with
    | none => []
    | some (tx, s', polls') => tx :: take n polls' s'

/-- The state once everything that waited has been taken. -/
def drained (s : MempoolState) : MempoolState := { s with pending := [] }

/-- All items of the stream, poll by poll. -/
def streamed : List Reader → MempoolState → List Transaction
  | [], s => s.pending
  | R :: polls, s =>
    s.pending ++ if s.tipUnchanged R then streamed polls (s.drained.poll codec R) else []

end MempoolState

end

/-- The poll lists `txid`. -/
def Reader.lists (R : Reader) (txid : TxId) : Bool :=
  match R .getRawMempool with
  | .ok txids => decide (txid ∈ txids)
  | .error _ => false

/-- The first poll that lists `txid`. -/
def firstListing (polls : List Reader) (txid : TxId) : Option Reader :=
  polls.find? fun R => R.lists txid

section stream

variable {codec : TxCodec} {R : Reader} {polls : List Reader} {s : MempoolState} {txid : TxId}
  {tx : Transaction}

/-! ## The items of the stream -/

theorem next_streamed : s.next codec polls = none ∧ s.streamed codec polls = [] ∨
    ∃ tx s' polls', s.next codec polls = some (tx, s', polls') ∧
      s.streamed codec polls = tx :: s'.streamed codec polls' := by
  induction polls generalizing s with
  | nil =>
    cases hp : s.pending with
    | nil => simp [MempoolState.next, MempoolState.streamed, hp]
    | cons tx rest => simp [MempoolState.next, MempoolState.streamed, hp]
  | cons R polls ih =>
    cases hp : s.pending with
    | cons tx rest =>
      refine Or.inr ⟨tx, { s with pending := rest }, R :: polls, ?_, ?_⟩
      · simp [MempoolState.next, hp]
      · simp only [MempoolState.streamed, hp, List.cons_append]
        rfl
    | nil =>
      have hs : s.drained = s := by rw [MempoolState.drained, ← hp]
      by_cases ht : s.tipUnchanged R = true
      · simp only [MempoolState.next, MempoolState.streamed, hp, ht, if_true, List.nil_append, hs]
        exact ih
      · simp [MempoolState.next, MempoolState.streamed, hp, ht]

/-- The items that are taken are those of the stream, in order. -/
theorem take_eq_take (n : ℕ) : s.take codec n polls = (s.streamed codec polls).take n := by
  induction n generalizing s polls with
  | zero => rfl
  | succ n ih =>
    have hnext : s.next codec polls = none ∧ s.streamed codec polls = [] ∨
        ∃ tx s' polls', s.next codec polls = some (tx, s', polls') ∧
          s.streamed codec polls = tx :: s'.streamed codec polls' := next_streamed
    rcases hnext with ⟨hn, hs⟩ | ⟨tx, s', polls', hn, hs⟩
    · simp [MempoolState.take, hn, hs]
    · simp [MempoolState.take, hn, hs, ih]

/-! ## One poll -/

@[simp] theorem pollTxid_tipHash (t : TxId) : (s.pollTxid codec R t).tipHash = s.tipHash := by
  unfold MempoolState.pollTxid
  split
  · rfl
  · dsimp only
    split <;> rfl

@[simp] theorem pollTxid_branchId (t : TxId) : (s.pollTxid codec R t).branchId = s.branchId := by
  unfold MempoolState.pollTxid
  split
  · rfl
  · dsimp only
    split <;> rfl

@[simp] theorem pollTxid_seen (t : TxId) : (s.pollTxid codec R t).seen = insert t s.seen := by
  unfold MempoolState.pollTxid
  split
  · rename_i ht
    exact (Finset.insert_eq_of_mem ht).symm
  · dsimp only
    split <;> rfl

theorem pollTxid_pending (t : TxId) : (s.pollTxid codec R t).pending = s.pending ++
    if t ∈ s.seen then [] else (fetchMempoolTransaction codec s.branchId R t).toList := by
  unfold MempoolState.pollTxid
  by_cases ht : t ∈ s.seen
  · simp [ht]
  · cases hf : fetchMempoolTransaction codec s.branchId R t with
    | none => simp [ht, hf]
    | some tx => simp [ht, hf]

section txids

variable {txids : List TxId}

theorem foldl_pollTxid_tipHash : (txids.foldl (MempoolState.pollTxid codec R) s).tipHash =
    s.tipHash := by
  induction txids generalizing s with
  | nil => rfl
  | cons t rest ih => rw [List.foldl_cons, ih, pollTxid_tipHash]

theorem foldl_pollTxid_branchId : (txids.foldl (MempoolState.pollTxid codec R) s).branchId =
    s.branchId := by
  induction txids generalizing s with
  | nil => rfl
  | cons t rest ih => rw [List.foldl_cons, ih, pollTxid_branchId]

theorem mem_foldl_pollTxid_seen : txid ∈ (txids.foldl (MempoolState.pollTxid codec R) s).seen ↔
    txid ∈ s.seen ∨ txid ∈ txids := by
  induction txids generalizing s with
  | nil => simp
  | cons t rest ih =>
    rw [List.foldl_cons, ih, pollTxid_seen, Finset.mem_insert, List.mem_cons]
    tauto

/-- A poll reads the transactions of the txids that it lists first. -/
theorem mem_foldl_pollTxid : tx ∈ (txids.foldl (MempoolState.pollTxid codec R) s).pending ↔
    tx ∈ s.pending ∨ ∃ txid ∈ txids, txid ∉ s.seen ∧
      fetchMempoolTransaction codec s.branchId R txid = some tx := by
  induction txids generalizing s with
  | nil => simp
  | cons t rest ih =>
    rw [List.foldl_cons, ih, pollTxid_branchId, pollTxid_seen, pollTxid_pending, List.mem_append]
    simp only [List.exists_mem_cons_iff, Finset.mem_insert, not_or]
    by_cases ht : t ∈ s.seen
    · -- `t` is skipped, also where `rest` lists it again
      have hne : ∀ t', t' ∉ s.seen → t' ≠ t := fun t' hns htt => hns (htt ▸ ht)
      simp only [ht, if_true, List.not_mem_nil, or_false, not_true, false_and, false_or]
      exact or_congr_right (exists_congr fun t' => and_congr_right fun _ =>
        ⟨fun h => ⟨h.1.2, h.2⟩, fun h => ⟨⟨hne t' h.1, h.1⟩, h.2⟩⟩)
    · simp only [ht, if_false, Option.mem_toList, not_false_iff, true_and]
      constructor
      · rintro ((h | h) | ⟨t', ht', ⟨-, hns⟩, hf⟩)
        · exact Or.inl h
        · exact Or.inr (Or.inl h)
        · exact Or.inr (Or.inr ⟨t', ht', hns, hf⟩)
      · rintro (h | h | ⟨t', ht', hns, hf⟩)
        · exact Or.inl (Or.inl h)
        · exact Or.inl (Or.inr h)
        · by_cases htt : t' = t
          · subst htt
            exact Or.inl (Or.inr hf)
          · exact Or.inr ⟨t', ht', ⟨htt, hns⟩, hf⟩

end txids

@[simp] theorem poll_tipHash : (s.poll codec R).tipHash = s.tipHash := by
  unfold MempoolState.poll
  split
  · rfl
  · exact foldl_pollTxid_tipHash

@[simp] theorem poll_branchId : (s.poll codec R).branchId = s.branchId := by
  unfold MempoolState.poll
  split
  · rfl
  · exact foldl_pollTxid_branchId

theorem mem_poll_seen :
    txid ∈ (s.poll codec R).seen ↔ txid ∈ s.seen ∨ R.lists txid = true := by
  unfold MempoolState.poll Reader.lists
  cases R .getRawMempool with
  | error e => simp
  | ok txids => simpa using mem_foldl_pollTxid_seen

theorem mem_poll_pending : tx ∈ (s.poll codec R).pending ↔
    tx ∈ s.pending ∨ ∃ txid, R.lists txid = true ∧ txid ∉ s.seen ∧
      fetchMempoolTransaction codec s.branchId R txid = some tx := by
  unfold MempoolState.poll Reader.lists
  cases R .getRawMempool with
  | error e => simp
  | ok txids => simpa using mem_foldl_pollTxid

/-! ## All polls -/

theorem firstListing_cons : firstListing (R :: polls) txid =
    if R.lists txid = true then some R else firstListing polls txid := by
  unfold firstListing
  rw [List.find?_cons]
  split <;> simp [*]

theorem tipUnchanged_poll {R' : Reader} :
    (s.drained.poll codec R).tipUnchanged R' = s.tipUnchanged R' := by
  unfold MempoolState.tipUnchanged
  rw [poll_tipHash]
  rfl

theorem mem_drained_poll_pending : tx ∈ (s.drained.poll codec R).pending ↔
    ∃ txid, R.lists txid = true ∧ txid ∉ s.seen ∧
      fetchMempoolTransaction codec s.branchId R txid = some tx := by
  rw [mem_poll_pending]
  exact or_iff_right List.not_mem_nil

/-- The transactions that are yielded while the tip does not change: those that
    wait, and the answer to each txid by the first poll that lists it. -/
theorem mem_streamed (htip : ∀ R ∈ polls, s.tipUnchanged R = true) :
    tx ∈ s.streamed codec polls ↔ tx ∈ s.pending ∨
      ∃ txid R, txid ∉ s.seen ∧ firstListing polls txid = some R ∧
        fetchMempoolTransaction codec s.branchId R txid = some tx := by
  induction polls generalizing s with
  | nil => simp [MempoolState.streamed, firstListing]
  | cons R polls ih =>
    obtain ⟨hR, hpolls⟩ := List.forall_mem_cons.mp htip
    have hpolls' : ∀ R' ∈ polls, (s.drained.poll codec R).tipUnchanged R' = true :=
      fun R' hR' => tipUnchanged_poll.trans (hpolls R' hR')
    have hseen : ∀ t, t ∉ (s.drained.poll codec R).seen ↔ t ∉ s.seen ∧ R.lists t = false := by
      intro t
      rw [mem_poll_seen, not_or, Bool.not_eq_true]
      exact Iff.rfl
    have hbranch : (s.drained.poll codec R).branchId = s.branchId := poll_branchId
    rw [MempoolState.streamed, if_pos hR, List.mem_append, ih hpolls', mem_drained_poll_pending,
      hbranch]
    simp only [hseen]
    refine or_congr_right ?_
    constructor
    · rintro (⟨t, hl, hs, hf⟩ | ⟨t, R', ⟨hs, hl⟩, hfirst, hf⟩)
      · exact ⟨t, R, hs, by rw [firstListing_cons, if_pos hl], hf⟩
      · exact ⟨t, R', hs, by rw [firstListing_cons, hl]; exact hfirst, hf⟩
    · rintro ⟨t, R', hs, hfirst, hf⟩
      rw [firstListing_cons] at hfirst
      by_cases hl : R.lists t = true
      · rw [if_pos hl] at hfirst
        cases hfirst
        exact Or.inl ⟨t, hl, hs, hf⟩
      · rw [if_neg hl] at hfirst
        exact Or.inr ⟨t, R', ⟨hs, by simpa using hl⟩, hfirst, hf⟩

/-! ## Nothing is repeated -/

/-- What the backend serves for a txid is the transaction with that txid. -/
def Honest (codec : TxCodec) (branchId : BranchId) (txidOf : Transaction → TxId) (R : Reader) :
    Prop :=
  ∀ txid tx, fetchMempoolTransaction codec branchId R txid = some tx → txidOf tx = txid

/-- What waits is distinct and has been seen. -/
structure Fresh (txidOf : Transaction → TxId) (s : MempoolState) : Prop where
  nodup : s.pending.Nodup
  seen : ∀ tx ∈ s.pending, txidOf tx ∈ s.seen

section honest

variable {txidOf : Transaction → TxId}

theorem Fresh.pollTxid (hR : Honest codec s.branchId txidOf R) (hs : Fresh txidOf s) (t : TxId) :
    Fresh txidOf (s.pollTxid codec R t) := by
  by_cases ht : t ∈ s.seen
  · have hskip : s.pollTxid codec R t = s := if_pos ht
    rwa [hskip]
  · have hpending : (s.pollTxid codec R t).pending = s.pending ++
        if t ∈ s.seen then [] else (fetchMempoolTransaction codec s.branchId R t).toList :=
      pollTxid_pending t
    rw [if_neg ht] at hpending
    cases hf : fetchMempoolTransaction codec s.branchId R t with
    | none =>
      rw [hf, Option.toList_none, List.append_nil] at hpending
      refine ⟨by rw [hpending]; exact hs.nodup, fun tx htx => ?_⟩
      rw [hpending] at htx
      rw [pollTxid_seen]
      exact Finset.mem_insert_of_mem (hs.seen tx htx)
    | some tx =>
      have htxid : txidOf tx = t := hR t tx hf
      have hnew : tx ∉ s.pending := fun htx => ht (htxid ▸ hs.seen tx htx)
      rw [hf, Option.toList_some] at hpending
      constructor
      · rw [hpending, List.nodup_append']
        exact ⟨hs.nodup, List.nodup_singleton tx, by simpa using hnew⟩
      · intro tx' htx'
        rw [hpending, List.mem_append, List.mem_singleton] at htx'
        rw [pollTxid_seen, Finset.mem_insert]
        rcases htx' with htx' | rfl
        · exact Or.inr (hs.seen tx' htx')
        · exact Or.inl htxid

theorem Fresh.poll (hR : Honest codec s.branchId txidOf R) (hs : Fresh txidOf s) :
    Fresh txidOf (s.poll codec R) := by
  unfold MempoolState.poll
  cases R .getRawMempool with
  | error e => exact hs
  | ok txids =>
    simp only
    induction txids generalizing s with
    | nil => exact hs
    | cons t rest ih =>
      rw [List.foldl_cons]
      exact ih (by rw [pollTxid_branchId]; exact hR) (hs.pollTxid hR t)

/-- The items of the stream are distinct, and new ones have not been seen. -/
theorem nodup_streamed (htip : ∀ R ∈ polls, s.tipUnchanged R = true)
    (hpolls : ∀ R ∈ polls, Honest codec s.branchId txidOf R) (hs : Fresh txidOf s) :
    (s.streamed codec polls).Nodup := by
  induction polls generalizing s with
  | nil => exact hs.nodup
  | cons R polls ih =>
    obtain ⟨hR, htip⟩ := List.forall_mem_cons.mp htip
    obtain ⟨hhonest, hpolls⟩ := List.forall_mem_cons.mp hpolls
    have hbranch : (s.drained.poll codec R).branchId = s.branchId := poll_branchId
    have htip' : ∀ R' ∈ polls, (s.drained.poll codec R).tipUnchanged R' = true :=
      fun R' hR' => tipUnchanged_poll.trans (htip R' hR')
    have hdrained : Fresh txidOf s.drained := ⟨List.nodup_nil, fun tx htx => by cases htx⟩
    have htail := ih htip' (by rw [hbranch]; exact hpolls) (hdrained.poll hhonest)
    rw [MempoolState.streamed, if_pos hR, List.nodup_append']
    refine ⟨hs.nodup, htail, fun tx htx htx' => ?_⟩
    -- what is yielded later was read for a txid that had not been seen
    have hseen := hs.seen tx htx
    rw [mem_streamed htip', mem_drained_poll_pending, hbranch] at htx'
    rcases htx' with ⟨t, -, hns, hf⟩ | ⟨t, R', hns, hfirst, hf⟩
    · rw [hhonest t tx hf] at hseen
      exact hns hseen
    · have hR' : R' ∈ polls := List.mem_of_find?_eq_some hfirst
      rw [hpolls R' hR' t tx hf] at hseen
      exact hns (mem_poll_seen.mpr (Or.inl hseen))

end honest

end stream

/-! ## What the stream promises -/

section promises

variable (codec : TxCodec) (txidOf : Transaction → TxId)

/-- The transaction is yielded before anything after the given polls is read. -/
def Yielded (s : MempoolState) (polls : List Reader) (tx : Transaction) : Prop :=
  ∃ n, tx ∈ s.take codec n polls

/-- Every transaction is yielded at most once. -/
def RepeatsNothing (s : MempoolState) (polls : List Reader) : Prop :=
  ∀ n, (s.take codec n polls).Nodup

/-- A txid that is listed by a poll at which it can be read is yielded at or before
    that poll. -/
def LosesNothing (s : MempoolState) (polls : List Reader) : Prop :=
  ∀ before R after, polls = before ++ R :: after → ∀ txid, R.lists txid = true →
    (fetchMempoolTransaction codec s.branchId R txid).isSome →
    ∃ tx, txidOf tx = txid ∧ Yielded codec s (before ++ [R]) tx

/-- A txid that can be read by some poll that lists it can be read by the first
    poll that lists it. -/
def ReadAtFirst (branchId : BranchId) (polls : List Reader) : Prop :=
  ∀ txid first, firstListing polls txid = some first →
    (∃ R ∈ polls, R.lists txid = true ∧ (fetchMempoolTransaction codec branchId R txid).isSome) →
    (fetchMempoolTransaction codec branchId first txid).isSome

end promises

section main

variable {codec : TxCodec} {params : Parameters} {view : ZebraChainView} {R₀ R : Reader}
  {polls before after : List Reader} {s : MempoolState} {txid : TxId} {tx : Transaction}

theorem getMempoolStream_eq (h : view.getMempoolStream params R₀ = .ok (some s)) :
    s.seen = ∅ ∧ s.pending = [] := by
  unfold ZebraChainView.getMempoolStream at h
  cases htip : R₀ .tip with
  | error e =>
    rw [htip] at h
    cases h
  | ok currentTip =>
    simp only [htip, bind, Except.bind] at h
    split at h
    · cases h
    · cases h
      exact ⟨rfl, rfl⟩

theorem yielded_iff : Yielded codec s polls tx ↔ tx ∈ s.streamed codec polls := by
  constructor
  · rintro ⟨n, hn⟩
    rw [take_eq_take] at hn
    exact List.mem_of_mem_take hn
  · intro h
    refine ⟨(s.streamed codec polls).length, ?_⟩
    rw [take_eq_take, List.take_length]
    exact h

/-- The first listing by the polls so far is the first listing of all. -/
theorem firstListing_of_mem (h : R.lists txid = true) :
    ∃ first, firstListing (before ++ [R]) txid = some first ∧
      firstListing (before ++ R :: after) txid = some first := by
  have hsome : (firstListing (before ++ [R]) txid).isSome := by
    unfold firstListing
    rw [List.find?_isSome]
    exact ⟨R, List.mem_append_right _ (List.mem_singleton_self R), h⟩
  obtain ⟨first, hfirst⟩ := Option.isSome_iff_exists.mp hsome
  refine ⟨first, hfirst, ?_⟩
  have hsplit : before ++ R :: after = (before ++ [R]) ++ after := by simp
  rw [hsplit]
  unfold firstListing at hfirst ⊢
  rw [List.find?_append, hfirst]
  rfl

/-- The stream of a view whose tip does not change. Nothing is repeated, and
    nothing is lost exactly when each txid is read at its first listing if it can
    be read at any. -/
theorem mempoolStream_iff (codec : TxCodec) (params : Parameters) (view : ZebraChainView)
    (R₀ : Reader) (s : MempoolState) (hs : view.getMempoolStream params R₀ = .ok (some s))
    (polls : List Reader) (htip : ∀ R ∈ polls, s.tipUnchanged R = true)
    (txidOf : Transaction → TxId) (hhonest : ∀ R ∈ polls, Honest codec s.branchId txidOf R) :
    RepeatsNothing codec s polls ∧ LosesNothing codec txidOf s polls ↔
      ReadAtFirst codec s.branchId polls := by
  obtain ⟨hseen, hpending⟩ := getMempoolStream_eq hs
  have hmem : ∀ before R after, polls = before ++ R :: after → ∀ tx,
      Yielded codec s (before ++ [R]) tx ↔
        ∃ txid R', firstListing (before ++ [R]) txid = some R' ∧
          fetchMempoolTransaction codec s.branchId R' txid = some tx := by
    rintro before R after rfl tx
    have htip' : ∀ R' ∈ before ++ [R], s.tipUnchanged R' = true := by
      intro R' hR'
      refine htip R' ?_
      rw [List.mem_append, List.mem_singleton] at hR'
      rw [List.mem_append, List.mem_cons]
      exact hR'.imp_right Or.inl
    rw [yielded_iff, mem_streamed htip', hpending, hseen]
    simp
  constructor
  · rintro ⟨-, hloses⟩ txid first hfirst ⟨R, hR, hlists, hsome⟩
    obtain ⟨before, after, rfl⟩ := List.append_of_mem hR
    obtain ⟨tx, htxid, hyielded⟩ := hloses before R after rfl txid hlists hsome
    obtain ⟨txid', R', hfirst', hf⟩ := (hmem before R after rfl tx).mp hyielded
    obtain ⟨R'', hfront, hall⟩ : ∃ first, firstListing (before ++ [R]) txid = some first ∧
        firstListing (before ++ R :: after) txid = some first := firstListing_of_mem hlists
    have hR' : R' ∈ before ++ R :: after := by
      have h := List.mem_of_find?_eq_some hfirst'
      rw [List.mem_append, List.mem_singleton] at h
      rw [List.mem_append, List.mem_cons]
      exact h.imp_right Or.inl
    obtain rfl : txid' = txid := (hhonest R' hR' txid' tx hf).symm.trans htxid
    obtain rfl : R'' = R' := Option.some.inj (hfront.symm.trans hfirst')
    obtain rfl : R'' = first := Option.some.inj (hall.symm.trans hfirst)
    rw [hf]
    rfl
  · intro hread
    constructor
    · intro n
      rw [take_eq_take]
      have hfresh : Fresh txidOf s :=
        ⟨by rw [hpending]; exact List.nodup_nil, fun tx htx => by rw [hpending] at htx; cases htx⟩
      exact (nodup_streamed htip hhonest hfresh).sublist (List.take_sublist ..)
    · rintro before R after rfl txid hlists hsome
      obtain ⟨first, hfront, hall⟩ : ∃ first, firstListing (before ++ [R]) txid = some first ∧
          firstListing (before ++ R :: after) txid = some first := firstListing_of_mem hlists
      have hR : R ∈ before ++ R :: after := List.mem_append_right _ List.mem_cons_self
      have hfirst := hread txid first hall ⟨R, hR, hlists, hsome⟩
      obtain ⟨tx, hf⟩ := Option.isSome_iff_exists.mp hfirst
      have hmemFirst : first ∈ before ++ R :: after := List.mem_of_find?_eq_some hall
      exact ⟨tx, hhonest first hmemFirst txid tx hf,
        (hmem before R after rfl tx).mpr ⟨txid, first, hfront, hf⟩⟩

end main

/-! ## A transaction that cannot be fetched at once -/

/-- A codec for transactions of one byte. -/
def oneByte : TxCodec where
  readTransaction bytes _ := .ok ⟨bytes⟩
  hexDecode text := if text = "07" then .ok [7] else .error "invalid hex"

/-- The txid of such a transaction. -/
def firstByte (tx : Transaction) : TxId := BitVec.ofNat 256 ((tx.raw.headD 0).toNat)

/-- The tip is at height 5 and the mempool lists txid 7, whose transaction is
    served if `served` holds. -/
def listsSeven (served : Bool) : Reader
  | .tip => .ok (some tipFive)
  | .getRawMempool => .ok [7]
  | .getRawTransaction txid => if served && txid == 7 then .ok "07" else .error (.Backend "timeout")
  | q => headersOf (forkTree 2) tipFive q

theorem listsSeven_honest (served : Bool) (branchId : BranchId) :
    Honest oneByte branchId firstByte (listsSeven served) := by
  intro txid tx h
  cases served with
  | false =>
    simp [fetchMempoolTransaction, listsSeven] at h
  | true =>
    by_cases htxid : txid = 7
    · subst htxid
      cases h
      rfl
    · have hne : (txid == 7) = false := beq_eq_false_iff_ne.mpr htxid
      simp only [fetchMempoolTransaction, listsSeven, hne, Bool.and_false, Bool.false_eq_true,
        if_false] at h
      cases h

/-- The stream that a view of that tip opens. -/
def streamAtFive : MempoolState := ⟨tipFive.hash, BranchId.forHeight upToCanopy 6, ∅, []⟩

theorem getMempoolStream_five (served : Bool) :
    (ZebraChainView.ofTip tipFive).1.getMempoolStream upToCanopy (listsSeven served) =
      .ok (some streamAtFive) := rfl

/-- A transaction that is served at once is yielded, and once. -/
theorem mempoolStream_served :
    RepeatsNothing oneByte streamAtFive [listsSeven true, listsSeven true] ∧
      LosesNothing oneByte firstByte streamAtFive [listsSeven true, listsSeven true] := by
  have hpolls : ∀ R ∈ [listsSeven true, listsSeven true], R = listsSeven true := by simp
  refine (mempoolStream_iff oneByte upToCanopy _ _ _ (getMempoolStream_five true) _ ?_ firstByte
    ?_).mpr ?_
  · intro R hR
    rw [hpolls R hR]
    rfl
  · intro R hR
    rw [hpolls R hR]
    exact listsSeven_honest true _
  · rintro txid first hfirst ⟨R, hR, -, hsome⟩
    rw [hpolls first (List.mem_of_find?_eq_some hfirst)]
    rwa [hpolls R hR] at hsome

/-- The first request for the transaction times out and the second would succeed:
    the transaction is listed by both polls and never yielded. -/
theorem mempoolStream_loses :
    (ZebraChainView.ofTip tipFive).1.getMempoolStream upToCanopy (listsSeven false) =
        .ok (some streamAtFive) ∧
      (∀ R ∈ [listsSeven false, listsSeven true], streamAtFive.tipUnchanged R = true ∧
        Honest oneByte streamAtFive.branchId firstByte R) ∧
      ¬ LosesNothing oneByte firstByte streamAtFive [listsSeven false, listsSeven true] := by
  refine ⟨rfl, ?_, fun hloses => ?_⟩
  · simp only [List.forall_mem_cons]
    exact ⟨⟨rfl, listsSeven_honest false _⟩, ⟨rfl, listsSeven_honest true _⟩, by simp⟩
  · obtain ⟨tx, -, hyielded⟩ := hloses [listsSeven false] (listsSeven true) [] rfl 7 rfl rfl
    rw [yielded_iff] at hyielded
    have hempty : streamAtFive.streamed oneByte ([listsSeven false] ++ [listsSeven true]) = [] := rfl
    rw [hempty] at hyielded
    cases hyielded

end Zallet.Zebra
