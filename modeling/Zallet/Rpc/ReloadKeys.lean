import Zallet.Rpc.PartialImports

/-!
# Viewing keys of new accounts

The batch decryptor scans blocks with the viewing keys it loaded when it started
or when it last processed a reload request (`batch_decryptor`, sync.rs, lines
1405–1421). `z_getnewaccount`, `z_recoveraccounts` and `z_importkey` ask for a
reload after they have added accounts; `z_importviewingkey` has no decryptor to
ask, and a failed `z_recoveraccounts` returns before it asks.

The calls run one after the other, and the engine takes steps before each of
their operations and between them: it queues blocks and processes its queue in
order. `Unreloaded` are the calls that return without a request for an account
they added. `accounts_reloaded` is the guarantee for every run without one.

* `settled`, `requests` and `scanned` are history that no step reads:
  the accounts when the last call returned, the accounts when each reload was
  requested, and what each block was scanned with.
* A queued block carries the accounts that were settled when it was queued.
-/

namespace Zallet.Rpc

open Zallet.Effect Zallet.Chain Zallet.Wallet Relation

/-! ## The decryptor -/

inductive QueueItem
  | block (height : ℕ) (expected : List Account)
  | reload
  deriving DecidableEq

structure Scan where
  height : ℕ
  expected : List Account
  keys : List Ufvk
  deriving DecidableEq

structure DecryptWorld where
  tables : Tables
  queue : List QueueItem
  keys : List Ufvk
  scanned : List Scan
  settled : List Account
  requests : List (List Account)
  deriving DecidableEq

namespace DecryptWorld

/-- The viewing keys of the wallet's accounts
    (`get_unified_full_viewing_keys`). -/
def viewingKeys (w : DecryptWorld) : List Ufvk := w.tables.accounts.map (·.ufvk)

/-- The engine has just started. -/
def started (t : Tables) : DecryptWorld where
  tables := t
  queue := []
  keys := t.accounts.map (·.ufvk)
  scanned := []
  settled := t.accounts
  requests := []

/-- A call has returned. -/
def settle (w : DecryptWorld) : DecryptWorld := { w with settled := w.tables.accounts }

end DecryptWorld

/-- A step of the engine and of the tasks that queue blocks. -/
inductive EngineStep : DecryptWorld → DecryptWorld → Prop
  | queueBlock (w : DecryptWorld) (height : ℕ) :
    EngineStep w { w with queue := w.queue ++ [.block height w.settled] }
  | scanBlock (w : DecryptWorld) (height : ℕ) (expected : List Account) (rest : List QueueItem)
      (h : w.queue = .block height expected :: rest) :
    EngineStep w { w with
      queue := rest
      scanned := w.scanned ++ [⟨height, expected, w.keys⟩] }
  | reload (w : DecryptWorld) (rest : List QueueItem) (h : w.queue = .reload :: rest) :
    EngineStep w { w with queue := rest, keys := w.viewingKeys }

/-- The calls of other components while the engine runs. -/
def reloadContract (K : Codecs) : Contract importSig DecryptWorld
  | .reloadKeys, w, r, w' => r = some () ∧ w' = { w with
      queue := w.queue ++ [.reload]
      requests := w.requests ++ [w.tables.accounts] }
  | o, w, r, w' => ∃ t', importContract K o w.tables r t' ∧ w' = { w with tables := t' }

/-- The calls that add accounts. -/
inductive AccountCall
  | getNewAccount (accountName : String) (seedfp : Option String)
  | recoverAccounts (accounts : List AccountParameter)
  | importKey (key : String) (rescan : Option String) (startHeight : Option ℕ)
  | importViewingKey (vkey : String) (rescan : Option String) (startHeight : Option ℕ)
  deriving DecidableEq

/-- Run the call; `false` if it returns an error. -/
def AccountCall.prog (K : Codecs) : AccountCall → Prog importSig Bool
  | getNewAccount accountName seedfp => Except.isOk <$> (Rpc.getNewAccount K accountName seedfp).run
  | recoverAccounts accounts => Except.isOk <$> (Rpc.recoverAccounts K accounts).run
  | importKey key rescan startHeight => Except.isOk <$> (Rpc.importKey K key rescan startHeight).run
  | importViewingKey vkey rescan startHeight =>
    Except.isOk <$> (Rpc.importViewingKey K vkey rescan startHeight).run

/-- A run of a call while the engine takes steps. -/
def Calls (K : Codecs) (c : AccountCall) (w : DecryptWorld) (τ : List (Event importSig))
    (w' : DecryptWorld) : Prop :=
  ∃ ok, Run ((reloadContract K).under (ReflTransGen EngineStep)) (c.prog K) w τ ok w'

/-- A step of the engine, or a call that satisfies `allowed`. -/
inductive DecryptStep (K : Codecs) (allowed : AccountCall → List (Event importSig) → Prop) :
    DecryptWorld → DecryptWorld → Prop
  | engine {w w' : DecryptWorld} (h : EngineStep w w') : DecryptStep K allowed w w'
  | call {w w' : DecryptWorld} (c : AccountCall) (τ : List (Event importSig))
      (h : Calls K c w τ w') (hc : allowed c τ) : DecryptStep K allowed w w'.settle

/-- The import of an account from a viewing key. -/
def ufvkImported : Event importSig → Bool
  | ⟨.importAccountUfvk _ _ _ _, .ok _⟩ => true
  | _ => false

/-- A call that returns without a reload request for an account it added. -/
def AccountCall.Unreloaded (τ : List (Event importSig)) : AccountCall → Prop
  | getNewAccount _ _ => False
  | recoverAccounts _ => LateAccount τ
  | importKey _ _ _ => False
  | importViewingKey _ _ _ => ∃ ev ∈ τ, ufvkImported ev = true

/-- Every block was scanned with the keys of the accounts that were there when
    it was queued. -/
def ScannedWithKeys (w : DecryptWorld) : Prop :=
  ∀ s ∈ w.scanned, ∀ a ∈ s.expected, a.ufvk ∈ s.keys

/-- Every account that a call added was there when the call requested a
    reload. -/
def RequestedFor (w w' : DecryptWorld) : Prop :=
  ∀ a ∈ w'.tables.accounts, a ∉ w.tables.accounts →
    ∃ request ∈ w'.requests.drop w.requests.length, a ∈ request

/-! ## The queue -/

/-- Each block of the queue will be scanned with the keys of its accounts:
    `keys` are those loaded when the queue is reached. -/
def QueueOk (accounts : List Account) : List Ufvk → List QueueItem → Prop
  | _, [] => True
  | keys, .block _ expected :: rest =>
    (∀ a ∈ expected, a ∈ accounts ∧ a.ufvk ∈ keys) ∧ QueueOk accounts keys rest
  | _, .reload :: rest => QueueOk accounts (accounts.map (·.ufvk)) rest

theorem QueueOk.mono {accounts accounts' : List Account} {keys keys' : List Ufvk}
    {queue : List QueueItem} (h : QueueOk accounts keys queue) (ha : accounts ⊆ accounts')
    (hk : keys ⊆ keys') : QueueOk accounts' keys' queue := by
  induction queue generalizing keys keys' with
  | nil => trivial
  | cons item rest ih =>
    cases item with
    | block height expected =>
      exact ⟨fun a hx => ⟨ha (h.1 a hx).1, hk (h.1 a hx).2⟩, ih h.2 hk⟩
    | reload =>
      have hrest : QueueOk accounts (accounts.map (·.ufvk)) rest := h
      exact ih hrest (List.map_subset _ ha)

theorem QueueOk.snoc_reload {accounts : List Account} {keys : List Ufvk} {queue : List QueueItem}
    (h : QueueOk accounts keys queue) : QueueOk accounts keys (queue ++ [.reload]) := by
  induction queue generalizing keys with
  | nil => trivial
  | cons item rest ih =>
    cases item with
    | block height expected => exact ⟨h.1, ih h.2⟩
    | reload =>
      have hrest : QueueOk accounts (accounts.map (·.ufvk)) rest := h
      exact ih hrest

/-- A block may be queued if its accounts' keys are loaded or will be. -/
theorem QueueOk.snoc_block {accounts expected : List Account} {keys : List Ufvk}
    {queue : List QueueItem} {height : ℕ} (h : QueueOk accounts keys queue)
    (he : ∀ a ∈ expected, a ∈ accounts ∧ (a.ufvk ∈ keys ∨ .reload ∈ queue)) :
    QueueOk accounts keys (queue ++ [.block height expected]) := by
  induction queue generalizing keys with
  | nil =>
    refine ⟨fun a ha => ⟨(he a ha).1, ?_⟩, trivial⟩
    rcases (he a ha).2 with hk | hr
    · exact hk
    · cases hr
  | cons item rest ih =>
    cases item with
    | block height' expected' =>
      refine ⟨h.1, ih h.2 fun a ha => ⟨(he a ha).1, ?_⟩⟩
      rcases (he a ha).2 with hk | hr
      · exact Or.inl hk
      · rcases List.mem_cons.mp hr with h' | h'
        · cases h'
        · exact Or.inr h'
    | reload =>
      have hrest : QueueOk accounts (accounts.map (·.ufvk)) rest := h
      exact ih hrest fun a ha => ⟨(he a ha).1, Or.inl (List.mem_map_of_mem (he a ha).1)⟩

/-! ## The invariant -/

/-- The key of an account is loaded or a reload is queued. -/
def Covered (w : DecryptWorld) (a : Account) : Prop := a.ufvk ∈ w.keys ∨ .reload ∈ w.queue

structure DecryptInv (w : DecryptWorld) : Prop where
  settled : ∀ a ∈ w.settled, a ∈ w.tables.accounts ∧ Covered w a
  queue : QueueOk w.tables.accounts w.keys w.queue
  scanned : ScannedWithKeys w

theorem decryptInv_started (t : Tables) : DecryptInv (DecryptWorld.started t) where
  settled _ ha := ⟨ha, Or.inl (List.mem_map_of_mem ha)⟩
  queue := trivial
  scanned _ hs := absurd hs List.not_mem_nil

/-- A step of the engine keeps an account of the wallet covered. -/
theorem covered_engine {w w' : DecryptWorld} (h : EngineStep w w') {a : Account}
    (ha : a ∈ w.tables.accounts) (hc : Covered w a) : Covered w' a := by
  cases h with
  | queueBlock height => exact hc.imp_right (List.mem_append_left _)
  | scanBlock height expected rest hq =>
    refine hc.imp_right fun hr => ?_
    rw [hq] at hr
    rcases List.mem_cons.mp hr with h | h
    · cases h
    · exact h
  | reload rest hq => exact Or.inl (List.mem_map_of_mem ha)

theorem decryptInv_engine {w w' : DecryptWorld} (h : EngineStep w w') (hI : DecryptInv w) :
    DecryptInv w' := by
  have hsettled : ∀ a ∈ w.settled, a ∈ w.tables.accounts ∧ Covered w' a := fun a ha =>
    ⟨(hI.settled a ha).1, covered_engine h (hI.settled a ha).1 (hI.settled a ha).2⟩
  have hqueue := hI.queue
  cases h with
  | queueBlock height => exact ⟨hsettled, hqueue.snoc_block hI.settled, hI.scanned⟩
  | scanBlock height expected rest hq =>
    rw [hq] at hqueue
    refine ⟨hsettled, hqueue.2, fun s hs => ?_⟩
    rcases List.mem_append.mp hs with hs | hs
    · exact hI.scanned s hs
    · rw [List.mem_singleton.mp hs]
      exact fun a ha => (hqueue.1 a ha).2
  | reload rest hq =>
    rw [hq] at hqueue
    exact ⟨hsettled, hqueue, hI.scanned⟩

theorem Tables.Adds.subset {t t' : Tables} {a : Account} (h : t.Adds a t') :
    t.accounts ⊆ t'.accounts := by
  obtain ⟨-, derived, rfl⟩ := h
  exact List.subset_append_left _ _

theorem Tables.ImportsKey.subset {t t' : Tables} {name : String} {ufvk : Ufvk}
    {birthday : Option AccountBirthday} {key : EncryptedStandaloneSaplingKey}
    (h : t.ImportsKey name ufvk birthday key t') : t.accounts ⊆ t'.accounts := by
  obtain ⟨t₁, rfl, h⟩ := h
  show t.accounts ⊆ t₁.accounts
  cases birthday with
  | none =>
    obtain rfl : t₁ = t := h
    exact List.Subset.refl _
  | some birthday =>
    dsimp only at h
    split at h
    · rw [h]
      exact List.Subset.refl _
    · obtain ⟨a, ha⟩ := h
      exact ha.1.subset

theorem Tables.Writes.subset {δ α : Type} {t t' : Tables} {done : α → Tables → Prop}
    {r : Except δ α} (h : t.Writes done r t')
    (hdone : ∀ a, done a t' → t.accounts ⊆ t'.accounts) : t.accounts ⊆ t'.accounts := by
  cases r with
  | error e =>
    obtain rfl : t' = t := h
    exact List.Subset.refl _
  | ok a => exact hdone a h

theorem Tables.track_accounts (t : Tables) (account : AccountUuid) (address : TransparentAddress) :
    (t.track account address).accounts = t.accounts := by
  unfold Tables.track
  split <;> rfl

/-- No call removes an account. -/
theorem accounts_subset {K : Codecs} {o : ImportOp} {t t' : Tables} {r : o.Ret}
    (h : importContract K o t r t') : t.accounts ⊆ t'.accounts := by
  have hrefl : t' = t → t.accounts ⊆ t'.accounts := fun h => h ▸ List.Subset.refl _
  have htrack : ∀ {account address}, t' = t.track account address → t.accounts ⊆ t'.accounts := by
    intro account address h
    rw [h, Tables.track_accounts]
    exact List.Subset.refl _
  cases o with
  | getAccount id => exact hrefl h.2
  | getAccountIds => exact hrefl h.2
  | getAccountForUfvk ufvk => exact hrefl h.2
  | createAccount name seed birthday => exact Tables.Writes.subset h fun _ h => h.1.subset
  | importAccountHd name seed index birthday => exact Tables.Writes.subset h fun _ h => h.1.subset
  | importAccountUfvk name ufvk birthday purpose =>
    exact Tables.Writes.subset h fun _ h => h.1.subset
  | importSaplingKey name ufvk birthday key => exact Tables.Writes.subset h fun _ h => h.subset
  | importStandaloneTransparentPubkey account pubkey =>
    exact Tables.Writes.subset h fun _ h => htrack h.2
  | importStandaloneTransparentScript account script =>
    exact Tables.Writes.subset h fun _ h => htrack h.2
  | importStandaloneTransparentAddress account address =>
    exact Tables.Writes.subset h fun _ h => htrack h.2
  | _ => exact hrefl h

/-- A reload was requested. -/
def DecryptWorld.request (w : DecryptWorld) : DecryptWorld :=
  { w with queue := w.queue ++ [.reload], requests := w.requests ++ [w.tables.accounts] }

/-- All that a call of another component can do. -/
theorem reloadContract_cases {K : Codecs} {o : ImportOp} {w w' : DecryptWorld} {r : o.Ret}
    (h : reloadContract K o w r w') :
    (o = .reloadKeys ∧ w' = w.request) ∨
      ∃ t', importContract K o w.tables r t' ∧ w' = { w with tables := t' } := by
  cases o with
  | reloadKeys => exact Or.inl ⟨rfl, h.2⟩
  | _ => exact Or.inr h

theorem decryptInv_op {K : Codecs} {o : ImportOp} {w w' : DecryptWorld} {r : o.Ret}
    (h : reloadContract K o w r w') (hI : DecryptInv w) : DecryptInv w' := by
  rcases reloadContract_cases h with ⟨-, rfl⟩ | ⟨t', ht, rfl⟩
  · refine ⟨fun a ha => ⟨(hI.settled a ha).1, Or.inr ?_⟩, hI.queue.snoc_reload, hI.scanned⟩
    exact List.mem_append_right _ List.mem_cons_self
  · have hsub := accounts_subset ht
    exact ⟨fun a ha => ⟨hsub (hI.settled a ha).1, (hI.settled a ha).2⟩,
      hI.queue.mono hsub (List.Subset.refl _), hI.scanned⟩

/-! ## A call -/

/-- What holds in a call that has written nothing yet. -/
structure NothingWritten (w₀ w : DecryptWorld) : Prop where
  inv : DecryptInv w
  covered : ∀ a ∈ w.tables.accounts, Covered w a
  accounts : w.tables.accounts = w₀.tables.accounts
  requests : w.requests = w₀.requests

/-- What holds in a call that may have added accounts. -/
structure Open (w₀ w : DecryptWorld) : Prop where
  inv : DecryptInv w
  requests : w.requests = w₀.requests

/-- What a call may return with. -/
structure Reloaded (w₀ w : DecryptWorld) : Prop where
  inv : DecryptInv w
  covered : ∀ a ∈ w.tables.accounts, Covered w a
  requested : RequestedFor w₀ w

variable {w₀ w w' : DecryptWorld}

theorem NothingWritten.open (h : NothingWritten w₀ w) : Open w₀ w := ⟨h.inv, h.requests⟩

theorem NothingWritten.reloaded (h : NothingWritten w₀ w) : Reloaded w₀ w := by
  refine ⟨h.inv, h.covered, fun a ha hnot => ?_⟩
  rw [h.accounts] at ha
  exact absurd ha hnot

theorem engine_frame (h : EngineStep w w') :
    w'.tables = w.tables ∧ w'.requests = w.requests := by
  cases h with
  | queueBlock height => exact ⟨rfl, rfl⟩
  | scanBlock height expected rest hq => exact ⟨rfl, rfl⟩
  | reload rest hq => exact ⟨rfl, rfl⟩

theorem covered_all_engine (h : EngineStep w w') (hc : ∀ a ∈ w.tables.accounts, Covered w a) :
    ∀ a ∈ w'.tables.accounts, Covered w' a := by
  intro a ha
  rw [(engine_frame h).1] at ha
  exact covered_engine h ha (hc a ha)

theorem NothingWritten.engine (hf : NothingWritten w₀ w) (h : ReflTransGen EngineStep w w') : NothingWritten w₀ w' := by
  induction h with
  | refl => exact hf
  | tail _ hstep ih =>
    obtain ⟨ht, hr⟩ := engine_frame hstep
    refine ⟨decryptInv_engine hstep ih.inv, covered_all_engine hstep ih.covered, ?_, ?_⟩
    · rw [ht, ih.accounts]
    · rw [hr, ih.requests]

theorem Open.engine (hf : Open w₀ w) (h : ReflTransGen EngineStep w w') : Open w₀ w' := by
  induction h with
  | refl => exact hf
  | tail _ hstep ih =>
    exact ⟨decryptInv_engine hstep ih.inv, (engine_frame hstep).2.trans ih.requests⟩

/-- A call that only reads keeps a call fresh, as does one that fails. -/
theorem NothingWritten.unchanged {t' : Tables} (hf : NothingWritten w₀ w) (ht : t' = w.tables) :
    NothingWritten w₀ { w with tables := t' } := by
  rw [ht]
  exact hf

/-- A reload request covers all accounts. -/
theorem Open.request (ho : Open w₀ w) (hI : DecryptInv w.request) : Reloaded w₀ w.request := by
  refine ⟨hI, fun a _ => Or.inr (List.mem_append_right _ List.mem_cons_self), fun a ha _ => ?_⟩
  refine ⟨w.tables.accounts, ?_, ha⟩
  show w.tables.accounts ∈ (w.requests ++ [w.tables.accounts]).drop w₀.requests.length
  rw [ho.requests, List.drop_left]
  exact List.mem_cons_self

/-- `wpE` over histories of a call beside the engine. -/
abbrev HoldsBeside {ε α : Type} (K : Codecs)
    (Q : Except ε α → DecryptWorld × List (Event importSig) → Prop)
    (p : ExceptT ε (Prog importSig) α) (w : DecryptWorld × List (Event importSig)) : Prop :=
  wpE (reloadContract K).logged (relyLogged (ReflTransGen EngineStep)) (fun _ _ => True) Q p w

section Rules

variable {K : Codecs} {ε δ α β : Type} {l : List (Event importSig)}

theorem NothingWritten.read {o : ImportOp} {r : o.Ret} (hf : NothingWritten w₀ w) (ho : o.isRead = true)
    (h : reloadContract K o w r w') : NothingWritten w₀ w' := by
  rcases reloadContract_cases h with ⟨rfl, -⟩ | ⟨t', ht, rfl⟩
  · cases ho
  · exact hf.unchanged (importContract_read ho ht)

/-- The rule of a program that only reads. -/
theorem beside_only {p : ExceptT ε (Prog importSig) α} (hp : Within (only ImportOp.isRead ε) p)
    (hf : NothingWritten w₀ w) : HoldsBeside K (fun _ w' => NothingWritten w₀ w'.1 ∧ ∃ τ, w'.2 = l ++ τ ∧
      ∀ ev ∈ τ, ev.op.isRead = true) p (w, l) :=
  wpE_logged_of_within (I := NothingWritten w₀) hp hf (fun _ _ hf h => hf.engine h)
    fun _ _ ho hf _ _ hC => ⟨trivial, hf.read ho hC⟩

/-- The rule of a first part that only reads. -/
theorem beside_bind_only {p : ExceptT ε (Prog importSig) α} (hp : Within (only ImportOp.isRead ε) p)
    {f : α → ExceptT ε (Prog importSig) β}
    {Q : Except ε β → DecryptWorld × List (Event importSig) → Prop} (hf : NothingWritten w₀ w)
    (herr : ∀ e w' l', NothingWritten w₀ w' → Q (.error e) (w', l'))
    (hk : ∀ a w' l', NothingWritten w₀ w' → HoldsBeside K Q (f a) (w', l')) :
    HoldsBeside K Q (p >>= f) (w, l) := by
  rw [HoldsBeside, wpE_bind]
  refine wpE_post (beside_only hp hf) fun r w' hr => ?_
  cases r with
  | error e => exact herr e w'.1 w'.2 hr.1
  | ok a => exact hk a w'.1 w'.2 hr.1

/-- The rule of one call, started where the invariant `I` of the engine's
    steps holds. -/
theorem beside_call_bind {I : DecryptWorld → Prop}
    (hstable : ∀ w w', I w → ReflTransGen EngineStep w w' → I w') (hI : I w)
    {p : Prog importSig (Except δ α)} {o : ImportOp} {g : o.Ret → Except δ α}
    (hp : p = .op o fun r => .pure (g r)) {f : δ → ε} {k : α → ExceptT ε (Prog importSig) β}
    {Q : Except ε β → DecryptWorld × List (Event importSig) → Prop}
    (h : ∀ w₁ r w₂, I w₁ → reloadContract K o w₁ r w₂ →
      andThen Q (fun a w => HoldsBeside K Q (k a) w) ((g r).mapError f) (w₂, l ++ [⟨o, r⟩])) :
    HoldsBeside K Q (liftE f p >>= k) (w, l) := by
  subst hp
  rw [HoldsBeside, wpE_bind, wpE_liftE]
  rintro ⟨w₁, l₁⟩ ⟨hw, hl⟩
  obtain rfl : l₁ = l := hl
  refine ⟨trivial, fun r w₂ hC => ?_⟩
  obtain ⟨w₂, l₂⟩ := w₂
  obtain ⟨hC, hl₂⟩ := hC
  obtain rfl : l₂ = l₁ ++ [⟨o, r⟩] := hl₂
  exact h w₁ r w₂ (hstable w w₁ hI hw) hC

/-- The rule of a write: a failed one changes nothing. -/
theorem beside_write_bind (hf : NothingWritten w₀ w) {p : Prog importSig (Except δ α)} {o : ImportOp}
    {g : o.Ret → Except δ α} (hp : p = .op o fun r => .pure (g r)) (ho : o ≠ .reloadKeys)
    (hfail : ∀ t r t' e, g r = .error e → importContract K o t r t' → t' = t) {f : δ → ε}
    {k : α → ExceptT ε (Prog importSig) β}
    {Q : Except ε β → DecryptWorld × List (Event importSig) → Prop}
    (herr : ∀ e w' l', NothingWritten w₀ w' → Q (.error e) (w', l'))
    (hk : ∀ a r w', g r = .ok a → Open w₀ w' → HoldsBeside K Q (k a) (w', l ++ [⟨o, r⟩])) :
    HoldsBeside K Q (liftE f p >>= k) (w, l) := by
  refine beside_call_bind (fun _ _ hf h => NothingWritten.engine hf h) hf hp fun w₁ r w₂ hf₁ hC => ?_
  have hinv := decryptInv_op hC hf₁.inv
  rcases reloadContract_cases hC with ⟨h, -⟩ | ⟨t', ht, rfl⟩
  · exact absurd h ho
  · cases hr : g r with
    | error e => exact herr _ _ _ (hf₁.unchanged (hfail _ _ _ _ hr ht))
    | ok a => exact hk a r _ hr ⟨hinv, hf₁.requests⟩

theorem beside_reloadKeys (ho : Open w₀ w) :
    HoldsBeside K (fun r w' => r = .ok () ∧ Reloaded w₀ w'.1) reloadKeys (w, l) := by
  rintro ⟨w₁, l₁⟩ ⟨hw, -⟩
  refine ⟨trivial, fun r w₂ hC => ⟨rfl, ?_⟩⟩
  have ho₁ : Open w₀ w₁ := ho.engine hw
  have hinv := decryptInv_op hC.1 ho₁.inv
  obtain ⟨-, hw₂⟩ := hC.1
  rw [hw₂] at hinv ⊢
  exact ho₁.request hinv

/-- What ends with a reload request, which cannot fail. -/
theorem beside_reloadKeys_bind (ho : Open w₀ w) (a : α) :
    HoldsBeside K (fun _ w' => Reloaded w₀ w'.1) (reloadKeys >>= fun _ => pure a) (w, l) := by
  rw [HoldsBeside, wpE_bind]
  refine wpE_post (beside_reloadKeys ho) fun r w' hr => ?_
  obtain ⟨rfl, hr⟩ := hr
  exact hr

end Rules

theorem reads_selectSeed (seedfp : Option SeedFingerprint) :
    Within (only ImportOp.isRead RpcError) (selectSeed seedfp) := by
  refine (only_askRpc (oneOf rfl)).bind fun seedFps => ?_
  split
  · exact Within.throw trivial
  · split
    · exact Within.pure _
    · exact Within.throw trivial
  · exact Within.pure _
  · exact Within.throw trivial

theorem reads_parseSeedfpOption (K : Codecs) (seedfp : Option String) :
    Within (only ImportOp.isRead RpcError) (parseSeedfpOption K seedfp) := by
  cases seedfp with
  | none => exact Within.pure _
  | some seedfp => exact (only_mapErr _ _).bind fun _ => Within.pure _

section Calls

variable {K : Codecs}

theorem beside_getNewAccount (accountName : String) (seedfp : Option String) (hf : NothingWritten w₀ w) :
    HoldsBeside K (fun _ w' => Reloaded w₀ w'.1) (getNewAccount K accountName seedfp) (w, []) := by
  have herr : ∀ (e : RpcError) (w' : DecryptWorld) (l : List (Event importSig)), NothingWritten w₀ w' →
      Reloaded w₀ w' := fun _ _ _ hf => hf.reloaded
  refine beside_bind_only reads_ensureWalletIsUnlocked hf herr fun _ w₁ l₁ hf₁ => ?_
  refine beside_bind_only (reads_parseSeedfpOption K _) hf₁ herr fun seedfp w₂ l₂ hf₂ => ?_
  refine beside_bind_only (only_askRpc (oneOf rfl)) hf₂ herr fun view w₃ l₃ hf₃ => ?_
  refine beside_bind_only (only_askRpc (oneOf rfl)) hf₃ herr fun height w₄ l₄ hf₄ => ?_
  refine beside_bind_only (only_okOr _ _) hf₄ herr fun height w₅ l₅ hf₅ => ?_
  refine beside_bind_only (only_askRpc (oneOf rfl)) hf₅ herr fun tip w₆ l₆ hf₆ => ?_
  refine beside_bind_only (only_liftE (oneOf rfl)) hf₆ herr fun state w₇ l₇ hf₇ => ?_
  refine beside_bind_only (only_okOr _ _) hf₇ herr fun state w₈ l₈ hf₈ => ?_
  refine beside_bind_only (reads_selectSeed _) hf₈ herr fun seedFp w₉ l₉ hf₉ => ?_
  refine beside_bind_only (reads_ensureSeedIsBackedUp _) hf₉ herr fun _ w₁₀ l₁₀ hf₁₀ => ?_
  refine beside_bind_only (only_askRpc (oneOf rfl)) hf₁₀ herr fun seed w₁₁ l₁₁ hf₁₁ => ?_
  refine beside_write_bind hf₁₁ rfl (by simp) ?_ herr fun account r w' _ ho =>
    beside_reloadKeys_bind ho account.id
  rintro t r t' e rfl ht
  exact ht

theorem beside_importKey (key : String) (rescan : Option String) (startHeight : Option ℕ)
    (hf : NothingWritten w₀ w) :
    HoldsBeside K (fun _ w' => Reloaded w₀ w'.1) (importKey K key rescan startHeight) (w, []) := by
  have herr : ∀ (e : RpcError) (w' : DecryptWorld) (l : List (Event importSig)), NothingWritten w₀ w' →
      Reloaded w₀ w' := fun _ _ _ hf => hf.reloaded
  refine beside_bind_only (only_mapErr _ _) hf herr fun rescan w₁ l₁ hf₁ => ?_
  refine beside_bind_only (only_mapErr _ _) hf₁ herr fun startHeight w₂ l₂ hf₂ => ?_
  refine beside_bind_only (only_askRpc (oneOf rfl)) hf₂ herr fun chainTip w₃ l₃ hf₃ => ?_
  split
  · exact hf₃.reloaded
  · refine beside_bind_only (only_mapErr _ _) hf₃ herr fun decoded w₄ l₄ hf₄ => ?_
    refine beside_bind_only (only_askRpc (oneOf rfl)) hf₄ herr fun encrypted w₅ l₅ hf₅ => ?_
    refine beside_bind_only (only_mapErr _ _) hf₅ herr fun ufvk w₆ l₆ hf₆ => ?_
    refine beside_bind_only (only_askRpc (oneOf rfl)) hf₆ herr fun existing w₇ l₇ hf₇ => ?_
    refine beside_bind_only (reads_importKeyBirthday _ _ _ _) hf₇ herr fun birthday w₈ l₈ hf₈ => ?_
    refine beside_write_bind hf₈ rfl (by simp) ?_ herr fun _ r w' _ ho =>
      beside_reloadKeys_bind ho _
    rintro t r t' e rfl ht
    exact ht

theorem beside_importViewingKey (vkey : String) (rescan : Option String) (startHeight : Option ℕ)
    (hf : NothingWritten w₀ w) :
    HoldsBeside K (fun _ w' => Reloaded w₀ w'.1 ∨ ∃ ev ∈ w'.2, ufvkImported ev = true)
      (importViewingKey K vkey rescan startHeight) (w, []) := by
  have herr : ∀ (e : RpcError) (w' : DecryptWorld) (l : List (Event importSig)), NothingWritten w₀ w' →
      (Reloaded w₀ w' ∨ ∃ ev ∈ l, ufvkImported ev = true) := fun _ _ _ hf => Or.inl hf.reloaded
  refine beside_bind_only (only_mapErr _ _) hf herr fun rescan w₁ l₁ hf₁ => ?_
  refine beside_bind_only (only_mapErr _ _) hf₁ herr fun startHeight w₂ l₂ hf₂ => ?_
  refine beside_bind_only (only_askRpc (oneOf rfl)) hf₂ herr fun chainTip w₃ l₃ hf₃ => ?_
  split
  · exact Or.inl hf₃.reloaded
  · refine beside_bind_only (only_mapErr _ _) hf₃ herr fun decoded w₄ l₄ hf₄ => ?_
    refine beside_bind_only (only_mapErr _ _) hf₄ herr fun ufvk w₅ l₅ hf₅ => ?_
    refine beside_bind_only (only_askRpc (oneOf rfl)) hf₅ herr fun existing w₆ l₆ hf₆ => ?_
    have himport : HoldsBeside K
        (fun _ w' => Reloaded w₀ w'.1 ∨ ∃ ev ∈ w'.2, ufvkImported ev = true)
        (importUfvk decoded.2 ufvk rescan startHeight chainTip existing) (w₆, l₆) := by
      cases existing with
      | some account =>
        rw [importUfvk]
        cases account.source.purpose with
        | Spending derivation => exact Or.inl hf₆.reloaded
        | ViewOnly => exact Or.inl hf₆.reloaded
      | none =>
        refine beside_bind_only (reads_fetchAccountBirthday _) hf₆ herr fun birthday w₇ l₇ hf₇ => ?_
        refine beside_write_bind hf₇ rfl (by simp) ?_ herr fun account r w' hr _ => ?_
        · rintro t r t' e rfl ht
          exact ht
        · obtain rfl : r = .ok account := hr
          exact Or.inr ⟨_, List.mem_append_right _ List.mem_cons_self, rfl⟩
    rw [HoldsBeside, wpE_bind]
    refine wpE_post himport fun r w' hr => ?_
    cases r with
    | error e => exact hr
    | ok _ => exact hr

/-- The imports of a list: all of them done, nothing written, or a failure
    after an import. -/
theorem beside_importAccounts {seeds : List (SeedFingerprint × Seed)} (args : List AccountArgs)
    (hs : HaveSeeds args seeds) {w : DecryptWorld} {l : List (Event importSig)}
    (ho : Open w₀ w) (hf : NothingWritten w₀ w ∨ ∃ ev ∈ l, hdImported ev = true) :
    HoldsBeside K (fun r w' => Open w₀ w'.1 ∧
      (r.isOk = false → NothingWritten w₀ w'.1 ∨ LateAccount w'.2)) (importAccounts seeds args) (w, l) := by
  induction args generalizing w l with
  | nil => exact ⟨ho, fun h => by cases h⟩
  | cons a rest ih =>
    obtain ⟨ha, hrest⟩ := List.forall_mem_cons.mp hs
    obtain ⟨seed, hseed⟩ := Option.isSome_iff_exists.mp ha
    rw [importAccounts, hseed]
    refine beside_call_bind
      (I := fun w => Open w₀ w ∧ (NothingWritten w₀ w ∨ ∃ ev ∈ l, hdImported ev = true))
      (fun _ _ hI h => ⟨hI.1.engine h, hI.2.imp_left fun hf => hf.engine h⟩) ⟨ho, hf⟩ rfl
      fun w₁ r w₂ hI hC => ?_
    obtain ⟨ho₁, hf₁⟩ := hI
    have hinv := decryptInv_op hC ho₁.inv
    rcases reloadContract_cases hC with ⟨h, -⟩ | ⟨t', ht, rfl⟩
    · cases h
    · cases r with
      | error e =>
        obtain rfl : t' = w₁.tables := ht
        refine ⟨ho₁, fun _ => hf₁.imp_right fun h => ?_⟩
        obtain ⟨ev, hev, himp⟩ := h
        exact ⟨⟨ev, List.mem_append_left _ hev, himp⟩,
          ⟨_, List.mem_append_right _ List.mem_cons_self, rfl⟩⟩
      | ok account =>
        show HoldsBeside K _ (importAccounts seeds rest >>= _) _
        rw [HoldsBeside, wpE_bind]
        have himp : ∃ ev ∈
            l ++ [⟨.importAccountHd a.name seed a.accountIndex a.birthday, .ok account⟩],
            hdImported ev = true := ⟨_, List.mem_append_right _ List.mem_cons_self, rfl⟩
        refine wpE_post (ih hrest ⟨hinv, ho₁.requests⟩ (Or.inr himp)) fun r w' hr => ?_
        cases r with
        | error e => exact hr
        | ok ids => exact ⟨hr.1, fun h => by cases h⟩

theorem beside_recoverAccounts (accounts : List AccountParameter) (hf : NothingWritten w₀ w) :
    HoldsBeside K (fun _ w' => Reloaded w₀ w'.1 ∨ LateAccount w'.2) (recoverAccounts K accounts)
      (w, []) := by
  rw [HoldsBeside, recoverAccounts, wpE_bind]
  refine wpE_post (wp_and (beside_only (reads_recoverPrepare K accounts) hf)
    (recoverPrepare_haveSeeds K accounts _)) fun r w' hr => ?_
  obtain ⟨⟨hf', -⟩, hseeds⟩ := hr
  cases r with
  | error e => exact Or.inl hf'.reloaded
  | ok prepared =>
    obtain ⟨args, seeds⟩ := prepared
    show wpE _ _ _ _ (importAccounts seeds args >>= _) _
    rw [wpE_bind]
    refine wpE_post (beside_importAccounts args (hseeds _ rfl) hf'.open (Or.inl hf'))
      fun r w₂ hr => ?_
    cases r with
    | error e => exact (hr.2 rfl).imp_left NothingWritten.reloaded
    | ok ids => exact wpE_post (beside_reloadKeys_bind hr.1 ids) fun r w₃ hr => Or.inl hr

end Calls

/-! ## Whole runs -/

/-- What `HoldsBeside` says about the runs of a call. -/
theorem beside_run {K : Codecs} {ε α : Type} {p : ExceptT ε (Prog importSig) α}
    {τ : List (Event importSig)} {ok : Bool} {V : DecryptWorld × List (Event importSig) → Prop}
    (h : HoldsBeside K (fun _ w => V w) p (w, []))
    (hrun : Run ((reloadContract K).under (ReflTransGen EngineStep)) (Except.isOk <$> p.run) w τ ok
      w') :
    V (w', τ) :=
  wp_run_logged (l := []) (Q := fun _ w => V w) ((wp_map _ _ _).mpr h) hrun

/-- A call that starts when all accounts are covered, and is not one of
    `Unreloaded`, returns with its accounts covered. -/
theorem calls_reloaded {K : Codecs} {c : AccountCall} {τ : List (Event importSig)}
    (hI : DecryptInv w) (hs : w.settled = w.tables.accounts) (h : Calls K c w τ w')
    (hc : ¬ c.Unreloaded τ) : Reloaded w w' := by
  have hf : NothingWritten w w := ⟨hI, fun a ha => (hI.settled a (hs ▸ ha)).2, rfl, rfl⟩
  obtain ⟨ok, hrun⟩ := h
  cases c with
  | getNewAccount accountName seedfp =>
    exact beside_run (beside_getNewAccount accountName seedfp hf) hrun
  | importKey key rescan startHeight =>
    exact beside_run (beside_importKey key rescan startHeight hf) hrun
  | recoverAccounts accounts =>
    exact (beside_run (V := fun w' => Reloaded w w'.1 ∨ LateAccount w'.2)
      (beside_recoverAccounts accounts hf) hrun).resolve_right hc
  | importViewingKey vkey rescan startHeight =>
    exact (beside_run (V := fun w' => Reloaded w w'.1 ∨ ∃ ev ∈ w'.2, ufvkImported ev = true)
      (beside_importViewingKey vkey rescan startHeight hf) hrun).resolve_right hc

theorem engine_settled (h : EngineStep w w') : w'.settled = w.settled := by
  cases h with
  | queueBlock height => rfl
  | scanBlock height expected rest hq => rfl
  | reload rest hq => rfl

/-- In every run in which no call is one of `Unreloaded`: each block was
    scanned with the viewing keys of all accounts that were in the wallet when
    the last call before it was queued returned, and each account that a call
    adds is in the wallet when the call requests a reload. -/
theorem accounts_reloaded (K : Codecs) (t : Tables) {w : DecryptWorld}
    (hrun : ReflTransGen (DecryptStep K fun c τ => ¬ c.Unreloaded τ) (DecryptWorld.started t) w) :
    ScannedWithKeys w ∧
      ∀ c τ w', Calls K c w τ w' → ¬ c.Unreloaded τ → RequestedFor w w' := by
  have hinv : DecryptInv w ∧ w.settled = w.tables.accounts := by
    induction hrun with
    | refl => exact ⟨decryptInv_started t, rfl⟩
    | tail _ hstep ih =>
      obtain ⟨hI, hs⟩ := ih
      cases hstep with
      | engine h =>
        refine ⟨decryptInv_engine h hI, ?_⟩
        rw [engine_settled h, (engine_frame h).1, hs]
      | call c τ h hc =>
        have hr := calls_reloaded hI hs h hc
        exact ⟨⟨fun a ha => ⟨ha, hr.covered a ha⟩, hr.inv.queue, hr.inv.scanned⟩, rfl⟩
  exact ⟨hinv.1.scanned, fun c τ w' h hc => (calls_reloaded hinv.1 hinv.2 h hc).requested⟩

/-! ## A viewing key that is never loaded -/

/-- A viewing key of mainnet. -/
def vkeyText : String :=
  "zxviews1qqqqqqqqqqqqqq8n3zjjmvhhr854uy3qhpda3ml34haf0x388z5r7h4st4kpsf6qy3zw4wc246aw9rlfyg5ndlwv" ++
  "ne7mwdq0qe6vxl42pqmcf8pvmmd5slmjxduqa9evgej6wa3th2505xq4nggrxdm93rxk4rpdjt5nmq2vn44e2uhm7h0hsagf" ++
  "vkk4n7n6nfer6u57v9cac84t7nl2zth0xpyfeg0w2p2wv2yn6jn923aaz0vdaml07l60ahapk6efchyxwysrvjsxmansf"

/-- The codecs on `vkeyText`. -/
def vkeyCodecs : Codecs :=
  { pubkeyCodecs with
    decodeExtendedFullViewingKey := fun text =>
      (if text = vkeyText then .ok ⟨[1]⟩ else .error "Invalid"),
    fromSaplingExtendedFullViewingKey := fun extfvk => (.ok ⟨toString extfvk.bytes⟩) }

/-- An account with id `7`. -/
def accountSeven (name : String) (source : AccountSource) (ufvk : Ufvk) (birthday : AccountBirthday) :
    Account :=
  ⟨7, name, source, ufvk, birthday.height⟩

/-- `a` is added, if its id and its key are new. -/
def addAccount (w : DecryptWorld) (a : Account) : Option (Except String Account × DecryptWorld) :=
  if ∀ b ∈ w.tables.accounts, b.id ≠ a.id ∧ b.ufvk ≠ a.ufvk then
    some (.ok a, { w with tables := { w.tables with accounts := w.tables.accounts ++ [a] } })
  else none

/-- An unlocked wallet with one seed, whose calls all succeed, while the
    engine rests. -/
def unlocked (K : Codecs) : Handler importSig DecryptWorld
  | .isLocked, w => some (false, w)
  | .listSeedFingerprints, w => some (.ok [⟨[1]⟩], w)
  | .backupRequired _, w => some (.ok false, w)
  | .decryptSeed _, w => some (.ok ⟨[1]⟩, w)
  | .snapshot, w => some (.ok 0, w)
  | .tip _, w => some (.ok ⟨9, 9⟩, w)
  | .treeStateAsOf _ height, w => some (.ok (some (ChainState.empty height 8)), w)
  | .chainHeight, w => some (.ok (some 9), w)
  | .getAccountForUfvk ufvk, w => some (.ok (w.tables.accounts.find? (·.ufvk == ufvk)), w)
  | .createAccount name seed birthday, w =>
    addAccount w
      (accountSeven name (.Derived ⟨K.seedFingerprint seed, 0⟩) ⟨"uview1"⟩ birthday)
  | .importAccountUfvk name ufvk birthday purpose, w =>
    addAccount w (accountSeven name (.Imported purpose) ufvk birthday)
  | .reloadKeys, w => some (some (), w.request)
  | _, _ => none

theorem addAccount_adds {w w' : DecryptWorld} {a : Account} {r : Except String Account}
    (h : addAccount w a = some (r, w')) :
    ∃ t', w.tables.Adds a t' ∧ r = .ok a ∧ w' = { w with tables := t' } := by
  unfold addAccount at h
  split at h
  · rename_i hfresh
    cases h
    exact ⟨_, ⟨hfresh, [], by simp⟩, rfl, rfl⟩
  · cases h

theorem unlocked_keeps (K : Codecs) :
    (unlocked K).Keeps ((reloadContract K).under (ReflTransGen EngineStep)) id := by
  intro o w r w' h
  refine ⟨w, .refl, ?_⟩
  cases o with
  | getAccountForUfvk ufvk =>
    cases h
    exact ⟨_, ⟨fun a ha => (Except.ok.inj ha).symm, rfl⟩, rfl⟩
  | createAccount name seed birthday =>
    obtain ⟨t', hadds, rfl, rfl⟩ := addAccount_adds h
    exact ⟨t', ⟨hadds, rfl, rfl, 0, rfl⟩, rfl⟩
  | importAccountUfvk name ufvk birthday purpose =>
    obtain ⟨t', hadds, rfl, rfl⟩ := addAccount_adds h
    exact ⟨t', ⟨hadds, rfl, rfl, rfl, rfl⟩, rfl⟩
  | reloadKeys =>
    cases h
    exact ⟨rfl, rfl⟩
  | isLocked | listSeedFingerprints | backupRequired | decryptSeed | snapshot | tip
  | treeStateAsOf | chainHeight =>
    cases h
    exact ⟨_, rfl, rfl⟩
  | _ => cases h

/-- A wallet without accounts. -/
def noAccounts : DecryptWorld := DecryptWorld.started ⟨[], [], []⟩

/-- The world after a call of `unlocked`. -/
def afterCall (c : AccountCall) : DecryptWorld :=
  (exec (unlocked vkeyCodecs) 20 (c.prog vkeyCodecs) noAccounts).2.2

theorem afterCall_calls (c : AccountCall) {ok : Bool}
    (h : (exec (unlocked vkeyCodecs) 20 (c.prog vkeyCodecs) noAccounts).2.1.result = some ok) :
    Calls vkeyCodecs c noAccounts (exec (unlocked vkeyCodecs) 20 (c.prog vkeyCodecs) noAccounts).1
      (afterCall c) :=
  ⟨ok, exec_run (unlocked_keeps vkeyCodecs) h⟩

/-- The engine queues a block on an empty queue and scans it. -/
theorem engine_block (w : DecryptWorld) (height : ℕ) (hq : w.queue = []) :
    ReflTransGen EngineStep w { w with
      scanned := w.scanned ++ [⟨height, w.settled, w.keys⟩] } := by
  obtain ⟨tables, queue, keys, scanned, settled, requests⟩ := w
  obtain rfl : queue = [] := hq
  have h₁ := EngineStep.queueBlock ⟨tables, [], keys, scanned, settled, requests⟩ height
  exact (ReflTransGen.single h₁).tail (.scanBlock _ height settled [] rfl)

/-- The steps of the engine are steps of a run. -/
theorem decryptRun_engine {K : Codecs} {allowed : AccountCall → List (Event importSig) → Prop}
    (h : ReflTransGen EngineStep w w') : ReflTransGen (DecryptStep K allowed) w w' :=
  h.lift id fun _ _ => DecryptStep.engine

/-- A new account, then a block: the block is scanned with the account's key. -/
theorem accounts_reloaded_new :
    ∃ w, ReflTransGen (DecryptStep vkeyCodecs fun c τ => ¬ c.Unreloaded τ) noAccounts w ∧
      w.scanned.map (·.expected.length) = [1] ∧ ScannedWithKeys w := by
  let c : AccountCall := .getNewAccount "main" none
  let w₁ := (afterCall c).settle
  have hcall := @afterCall_calls c true (by decide +kernel)
  have hqueue : w₁.queue = [.reload] := by decide +kernel
  let w₂ := { w₁ with queue := [], keys := w₁.viewingKeys }
  have h₁ : ReflTransGen (DecryptStep vkeyCodecs fun c τ => ¬ c.Unreloaded τ) noAccounts w₁ :=
    .single (.call c _ hcall id)
  have h₂ := h₁.tail (.engine (.reload w₁ [] hqueue))
  have hrun := h₂.trans (decryptRun_engine (engine_block w₂ 10 rfl))
  exact ⟨_, hrun, by decide +kernel, (accounts_reloaded _ _ hrun).1⟩

/-- A viewing key, then a block: the block is scanned without the key. -/
theorem viewing_key_not_loaded :
    ∃ w, ReflTransGen (DecryptStep vkeyCodecs fun _ _ => True) noAccounts w ∧
      ¬ ScannedWithKeys w := by
  let c : AccountCall := .importViewingKey vkeyText none none
  let w₁ := (afterCall c).settle
  have hcall := @afterCall_calls c true (by decide +kernel)
  have hqueue : w₁.queue = [] := by decide +kernel
  have h₁ : ReflTransGen (DecryptStep vkeyCodecs fun _ _ => True) noAccounts w₁ :=
    .single (.call c _ hcall trivial)
  refine ⟨_, h₁.trans (decryptRun_engine (engine_block w₁ 10 hqueue)), ?_⟩
  unfold ScannedWithKeys
  decide +kernel

end Zallet.Rpc
