import Zallet.Effect.Hoare
import Zallet.Rpc.Authorization

/-!
# Starting the wallet

`zallet start` (`commands/start.rs`, lines 23–228) builds a chain backend,
opens the wallet, starts the RPC server and the sync tasks, and waits for the
first task to exit. It may be cancelled at every `.await`, and each step may
fail. A task that is not aborted then keeps running, since dropping a
`JoinHandle` only detaches it; so every handle is registered with an owner that
aborts its tasks when it is dropped, before the next `.await`. Two tasks are detached on
purpose: the one that warms the proving caches, and the networking of the PIR client
(`json_rpc/pir.rs`, lines 43–75), which stops when its channel is closed. What the calls of
a running server spawn is left out.

* `StartOp`: the operations. What the variables of the suspended functions drop is
  a stack of scopes; leaving a scope drops guards at once and asks the runtime
  to abort tasks, which it does later.
* `OwnedBut`: what is live is held by a scope, except for the given tasks and the detached
  ones.
* `start_leaves_nothing`: wherever `zallet start` is cancelled, fails, panics or
  returns, nothing is left behind.
-/

namespace Zallet.Start

open Zallet.Effect Zallet.Rpc

/-! ## What is started -/

/-- The tasks that are spawned. -/
inductive TaskKind
  | chainIndexer
  | provingCacheWarmer
  | pirNetworking
  | rpcServer
  | noJsonRpc
  | steadyState
  | recoverHistory
  | batchDecryptor
  | dataRequests
  deriving DecidableEq

/-- Values that do something when they are dropped: the lock on the data
    directory, the cookie file, and the PIR client, whose channel to its networking is
    closed. -/
inductive Guard
  | datadirLock
  | cookie
  | pir
  deriving DecidableEq

/-- What a scope drops: a guard, or a task through its abort handle. -/
inductive Handle
  | guard (g : Guard)
  | abort (k : TaskKind)
  deriving DecidableEq

/-- A guard, or a task with the guards that were moved into it. -/
inductive Resource
  | guard (g : Guard)
  | task (k : TaskKind) (captured : List Guard)
  deriving DecidableEq

/-- A task that nothing aborts. It takes no guards with it. -/
def Resource.Detached (r : Resource) : Prop :=
  r = .task .provingCacheWarmer [] ∨ r = .task .pirNetworking []

def Resource.handle : Resource → Handle
  | .guard g => .guard g
  | .task k _ => .abort k

/-- The error that ends a step, or the panic. -/
inductive StartError
  | Init (context : String)
  /-- `ErrorKind::Init` with the message of the given name. -/
  | InitFl (message : String)
  | other (error : String)
  | panic (message : String)
  deriving DecidableEq

/-- How a task exits. -/
inductive Exit
  | returned (result : Except StartError Unit)
  | panicked
  deriving DecidableEq

/-- The futures that are awaited while starting. -/
inductive Await
  | buildChain
  | checkConsensusCompatibility
  | openDatabase
  | dbHandle
  | buildServer (listenAddr : String)
  | initializeWallet (shutdownHeight : Option ℕ)
  deriving DecidableEq

@[reducible] def Await.Out : Await → Type
  | .checkConsensusCompatibility => Option ℕ
  | _ => Unit

/-- The calls that return without being suspended. -/
inductive Call
  | restrictPermissions
  | createLockfile
  | tryLock
  | clearPirIronwoodWitnesses
  | newKeystore
  | generateCookie
  | localAddr
  | mergeMethods
  deriving DecidableEq

@[reducible] def Call.Out : Call → Type
  | .tryLock => Bool
  | _ => Unit

/-- The operations of `zallet start`. -/
inductive StartOp
  | await (a : Await)
  /-- `select!` over the tasks. -/
  | select
  | call (c : Call)
  /-- A guard comes to life in a variable of the innermost scope. -/
  | acquire (g : Guard)
  /-- A task is spawned, and guards of the innermost scope are moved into it. -/
  | spawn (k : TaskKind) (captured : List Guard)
  /-- The innermost scope registers the abort handle of a task. -/
  | includeTask (k : TaskKind)
  /-- `transfer_to_caller`: the innermost scope clears its abort handles. -/
  | transferToCaller
  | enter
  /-- The innermost scope is dropped. -/
  | leave
  deriving DecidableEq

@[reducible] def StartOp.Ret : StartOp → Type
  | .await a => Except String a.Out
  | .select => TaskKind × Exit
  | .call c => Except String c.Out
  | _ => Unit

@[reducible] def startSig : Sig := ⟨StartOp, StartOp.Ret⟩

/-- The points at which `zallet start` can be cancelled. -/
def StartOp.Suspends : StartOp → Prop
  | .await _ => True
  | .select => True
  | _ => False

/-- How far it has got. -/
structure Progress where
  /-- The backend has been built. -/
  admitted : Bool
  /-- Its consensus rules have been found compatible. -/
  compatible : Bool
  /-- The wallet database may have been created or migrated. -/
  walletTouched : Bool
  /-- The first task to exit. -/
  exited : Option (TaskKind × Exit)

structure StartWorld where
  live : List Resource
  /-- Tasks that have been aborted and may still be live. -/
  aborted : List TaskKind
  /-- What the variables of the suspended functions drop, innermost first. -/
  scopes : List (List Handle)
  progress : Progress

/-- Before anything has been started. -/
def StartWorld.initial : StartWorld := ⟨[], [], [], ⟨false, false, false, none⟩⟩

/-- The tasks that the abort handles of a scope name. -/
def abortHandles (scope : List Handle) : List TaskKind :=
  scope.filterMap fun
    | .abort k => some k
    | .guard _ => none

/-- The resource outlives a scope: its guards are gone at once, its tasks only
    when the runtime drops them. -/
def Resource.outlives (scope : List Handle) : Resource → Bool
  | .guard g => decide (.guard g ∉ scope)
  | .task _ _ => true

/-- A scope is dropped. -/
def StartWorld.drop (w : StartWorld) (scope : List Handle) : StartWorld :=
  { w with live := w.live.filter (Resource.outlives scope)
           aborted := abortHandles scope ++ w.aborted }

/-- What an awaited future has done. -/
def Await.advance : (a : Await) → Except String a.Out → Progress → Progress
  | .buildChain, r, p => { p with admitted := r.toBool }
  | .checkConsensusCompatibility, r, p => { p with compatible := r.toBool }
  | .openDatabase, _, p => { p with walletTouched := true }
  | _, _, p => p

/-- What each operation may answer and do. -/
def startContract : Contract startSig StartWorld
  | .await a, w, r, w' => w' = { w with progress := a.advance r w.progress }
  | .select, w, r, w' =>
    -- the detached tasks are not supervised
    r.1 ≠ .provingCacheWarmer ∧ r.1 ≠ .pirNetworking ∧
      w' = { w with live := w.live.filter fun t => t.handle ≠ .abort r.1
                    progress := { w.progress with exited := some r } }
  | .call _, w, _, w' => w' = w
  | .acquire g, w, _, w' =>
    ∃ scope outer, w.scopes = scope :: outer ∧
      w' = { w with live := .guard g :: w.live, scopes := (.guard g :: scope) :: outer }
  | .spawn k captured, w, _, w' =>
    ∃ scope outer, w.scopes = scope :: outer ∧
      w' = { w with
        live := .task k captured :: w.live.filter fun r => r ∉ captured.map Resource.guard
        scopes := (scope.filter fun h => h ∉ captured.map Handle.guard) :: outer }
  | .includeTask k, w, _, w' =>
    ∃ scope outer, w.scopes = scope :: outer ∧
      w' = { w with scopes := (.abort k :: scope) :: outer }
  | .transferToCaller, w, _, w' =>
    ∃ scope outer, w.scopes = scope :: outer ∧ w' = { w with scopes := [] :: outer }
  | .enter, w, _, w' => w' = { w with scopes := [] :: w.scopes }
  | .leave, w, _, w' =>
    ∃ scope outer, w.scopes = scope :: outer ∧ w' = { w.drop scope with scopes := outer }

/-- Tasks exit on their own, and aborted ones when the runtime drops them. -/
structure Exits (w w' : StartWorld) : Prop where
  live : ∀ r ∈ w'.live, r ∈ w.live
  guards : ∀ g, .guard g ∈ w.live → .guard g ∈ w'.live
  rest : w' = { w with live := w'.live }

theorem Exits.refl (w : StartWorld) : Exits w w := ⟨fun _ h => h, fun _ h => h, rfl⟩

/-! ## The program -/

abbrev StartM := ExceptT StartError (Prog startSig)

def perform (o : StartOp) : StartM o.Ret := lift (Prog.call (S := startSig) o)

/-- `.await?`, with the error as `f` converts it. -/
def await (f : String → StartError) (a : Await) : StartM a.Out :=
  liftE f (Prog.call (S := startSig) (.await a))

/-- A call with `?`, with the error as `f` converts it. -/
def call (f : String → StartError) (c : Call) : StartM c.Out :=
  liftE f (Prog.call (S := startSig) (.call c))

/-- A block whose variables are dropped where it is left, by an error as well. -/
def inScope {α : Type} (body : StartM α) : StartM α := do
  perform .enter
  let outcome ← attempt body
  perform .leave
  ofOutcome outcome

/-- What `zallet start` reads of the configuration: `bind` are the addresses of
    `rpc.bind`, each with whether it is a loopback address. -/
structure StartConfig where
  bind : List (String × Bool)
  allowInsecureRemoteBind : Option Bool
  auth : List RpcAuthSection
  /-- `Pir::start` starts a client. -/
  pirStarts : Bool

inductive BindPolicy
  | Loopback
  | InsecureRemote
  | Refused
  deriving DecidableEq

def BindPolicy.forAddr (addr : String × Bool) (allowInsecureRemote : Bool) : BindPolicy :=
  if addr.2 then .Loopback
  else if allowInsecureRemote then .InsecureRemote
  else .Refused

section programs

-- `hash_password`, and the random bytes of the salts and of the cookie.
variable (hashPassword : List Char → List Char → List UInt8) (salts : ℕ → List UInt8)
  (cookiePassword cookieSalt : List UInt8) (config : StartConfig)

/-- `lock_datadir` (`commands.rs`, lines 62–101). -/
def lockDatadir : StartM Unit := do
  call (fun _ => .InitFl "err-init-failed-to-restrict-permissions") .restrictPermissions
  call (fun _ => .InitFl "err-init-failed-to-create-lockfile") .createLockfile
  let locked ← call (fun _ => .InitFl "err-init-failed-to-read-lockfile") .tryLock
  if locked then perform (.acquire .datadirLock)
  else throw (.InitFl "err-init-zallet-already-running")

/-- `server::spawn` (`json_rpc/server.rs`, lines 41–144), in a scope to which the
    PIR client has been moved. -/
def spawnServer (listenAddr : String) (pir : Option Guard) : StartM TaskKind := do
  perform (.spawn .provingCacheWarmer [])
  if config.auth.any fun a => decide (a.user = COOKIE_USER) then
    throw (.InitFl "err-init-rpc-auth-cookie-user-reserved")
  call .Init .generateCookie
  perform (.acquire .cookie)
  match AuthorizationLayer.new hashPassword salts config.auth
    (some (generateCookie hashPassword cookiePassword cookieSalt)) with
  | none => throw (.InitFl "err-init-rpc-auth-invalid")
  | some _ => do
    await .Init (.buildServer listenAddr)
    call .Init .localAddr
    call .Init .mergeMethods
    perform (.spawn .rpcServer (.cookie :: pir.toList))
    pure .rpcServer

/-- `JsonRpc::spawn` (`json_rpc.rs`, lines 76–138). -/
def spawnJsonRpc : StartM TaskKind :=
  match config.bind with
  | [] => do
    perform (.spawn .noJsonRpc [])
    pure .noJsonRpc
  | [addr] =>
    match BindPolicy.forAddr addr (config.allowInsecureRemoteBind.getD false) with
    | .Refused => throw (.InitFl "err-init-rpc-bind-not-loopback")
    | _ => inScope do
      if config.pirStarts then do
        perform (.acquire .pir)
        perform (.spawn .pirNetworking [])
        spawnServer hashPassword salts cookiePassword cookieSalt config addr.1 (some .pir)
      else spawnServer hashPassword salts cookiePassword cookieSalt config addr.1 none
  | _ => throw (.Init "Only one RPC bind address is supported (for now)")

/-- `WalletSync::spawn` (`sync.rs`, lines 133–249), with the owner
    `PendingWalletSyncTasks`. -/
def spawnWalletSync (shutdownHeight : Option ℕ) : StartM Unit := do
  await .other .dbHandle
  perform (.spawn .batchDecryptor [])
  inScope do
    perform (.includeTask .batchDecryptor)
    await .other .dbHandle
    await .other (.initializeWallet shutdownHeight)
    perform (.spawn .steadyState [])
    perform (.includeTask .steadyState)
    await .other .dbHandle
    perform (.spawn .recoverHistory [])
    perform (.includeTask .recoverHistory)
    await .other .dbHandle
    perform (.spawn .dataRequests [])
    perform (.includeTask .dataRequests)
    perform .transferToCaller

/-- The name of a task in the message of `expect`. -/
def TaskKind.label : TaskKind → String
  | .chainIndexer => "chain indexer task"
  | .rpcServer => "RPC task"
  | .noJsonRpc => "RPC task"
  | .steadyState => "wallet steady-state sync task"
  | .recoverHistory => "wallet recover-history sync task"
  | .batchDecryptor => "wallet batch decryptor task"
  | .dataRequests => "wallet data-requests sync task"
  | .provingCacheWarmer => ""
  | .pirNetworking => ""

/-- The result of `select!`, whose arms `expect` that the task has not panicked. -/
def Exit.result (k : TaskKind) : Exit → Except StartError Unit
  | .returned result => result
  | .panicked => .error (.panic ("unexpected panic in the " ++ k.label))

/-- `supervise_zallet_tasks` (lines 52–127). -/
def superviseZalletTasks : StartM Unit := do
  let (k, exit) ← perform .select
  ofOutcome (exit.result k)

/-- `run_with_config` (lines 137–227), with the owner `StartupTaskOwner`. -/
def runWithConfig : StartM Unit := do
  await .other .buildChain
  perform (.spawn .chainIndexer [])
  inScope do
    perform (.includeTask .chainIndexer)
    let shutdownHeight ← await .other .checkConsensusCompatibility
    await .other .openDatabase
    await .other .dbHandle
    call (fun error => .Init ("failed to disable stale PIR state: " ++ error))
      .clearPirIronwoodWitnesses
    call .other .newKeystore
    let rpcTask ← spawnJsonRpc hashPassword salts cookiePassword cookieSalt config
    perform (.includeTask rpcTask)
    spawnWalletSync shutdownHeight
    perform (.includeTask .steadyState)
    perform (.includeTask .recoverHistory)
    perform (.includeTask .batchDecryptor)
    perform (.includeTask .dataRequests)
    superviseZalletTasks

/-- `run_with` (lines 130–135). -/
def runWith : StartM Unit :=
  inScope do
    lockDatadir
    runWithConfig hashPassword salts cookiePassword cookieSalt config

end programs

/-! ## Ownership -/

/-- What is live is held by a scope or has been aborted, except for the tasks
    `ks` and the detached ones. -/
def OwnedBut (ks : List TaskKind) (w : StartWorld) : Prop :=
  ∀ r ∈ w.live, r.Detached ∨ (∃ k ∈ ks ++ w.aborted, r.handle = .abort k) ∨
    ∃ scope ∈ w.scopes, r.handle ∈ scope

/-- The state between two operations. -/
structure At (progress : Progress) (scopes : List (List Handle)) (ks : List TaskKind)
    (w : StartWorld) : Prop where
  progress : w.progress = progress
  scopes : w.scopes = scopes
  owned : OwnedBut ks w

/-- The wallet has been opened only for a backend that follows our rules. -/
def Progress.Gated (p : Progress) : Prop :=
  p.walletTouched = true → p.admitted = true ∧ p.compatible = true

/-- Where `zallet start` can be cancelled, everything is owned. -/
def startOk (o : StartOp) (w : StartWorld) : Prop :=
  (o.Suspends → OwnedBut [] w) ∧ w.progress.Gated

section rules

variable {p p' : Progress} {top : List Handle} {outer scopes : List (List Handle)}
  {ks : List TaskKind} {w w' : StartWorld}

theorem At.exits (h : At p scopes ks w) (he : Exits w w') : At p scopes ks w' := by
  have hrest := he.rest
  refine ⟨?_, ?_, fun r hr => ?_⟩
  · rw [hrest]
    exact h.progress
  · rw [hrest]
    exact h.scopes
  · have hr' := h.owned r (he.live r hr)
    rw [hrest]
    exact hr'

theorem At.mono {ks' : List TaskKind} (h : At p scopes ks w) (hks : ∀ k ∈ ks, k ∈ ks') :
    At p scopes ks' w := by
  refine ⟨h.progress, h.scopes, fun r hr => ?_⟩
  rcases h.owned r hr with hw | ⟨k, hk, hr'⟩ | hs
  · exact Or.inl hw
  · refine Or.inr (Or.inl ⟨k, ?_, hr'⟩)
    rcases List.mem_append.mp hk with hk | hk
    · exact List.mem_append_left _ (hks k hk)
    · exact List.mem_append_right _ hk
  · exact Or.inr (Or.inr hs)

theorem wpE_call_at {f : String → StartError} {c : Call}
    {Q : Except StartError c.Out → StartWorld → Prop}
    (hp : p.Gated) (h : At p scopes ks w) (hQ : ∀ r w', At p scopes ks w' → Q (.ok r) w')
    (hE : ∀ e w', At p scopes ks w' → Q (.error (f e)) w') :
    wpE startContract Exits startOk Q (call f c) w := by
  unfold call
  rw [wpE_liftE]
  intro w₁ hw₁
  have h₁ := h.exits hw₁
  refine ⟨⟨False.elim, h₁.progress ▸ hp⟩, ?_⟩
  rintro r w₂ rfl
  cases r with
  | ok a => exact hQ a w₂ h₁
  | error e => exact hE e w₂ h₁

theorem wpE_await_at {f : String → StartError} {a : Await}
    {Q : Except StartError a.Out → StartWorld → Prop} (hp : p.Gated) (h : At p scopes [] w)
    (hQ : ∀ r w', At (a.advance (.ok r) p) scopes [] w' → Q (.ok r) w')
    (hE : ∀ e w', At (a.advance (.error e) p) scopes [] w' → Q (.error (f e)) w') :
    wpE startContract Exits startOk Q (await f a) w := by
  unfold await
  rw [wpE_liftE]
  intro w₁ hw₁
  have h₁ := h.exits hw₁
  refine ⟨⟨fun _ => h₁.owned, h₁.progress ▸ hp⟩, ?_⟩
  rintro r _ rfl
  have h₂ : At (a.advance r p) scopes [] { w₁ with progress := a.advance r w₁.progress } :=
    ⟨by rw [h₁.progress], h₁.scopes, h₁.owned⟩
  cases r with
  | ok x => exact hQ x _ h₂
  | error e => exact hE e _ h₂

/-- An operation without suspension. -/
theorem wpE_perform_at {o : StartOp} {Q : Except StartError o.Ret → StartWorld → Prop}
    (ho : ¬ o.Suspends) (hp : p.Gated) (h : At p scopes ks w)
    (hQ : ∀ r w₁ w', At p scopes ks w₁ → startContract o w₁ r w' → Q (.ok r) w') :
    wpE startContract Exits startOk Q (perform o) w := by
  unfold perform
  rw [wpE_lift, wp_call]
  intro w₁ hw₁
  have h₁ := h.exits hw₁
  exact ⟨⟨fun hs => absurd hs ho, h₁.progress ▸ hp⟩, fun r w₂ hr => hQ r w₁ w₂ h₁ hr⟩

/-- What was live before a spawn is still held, unless it was moved into the task. -/
theorem OwnedBut.spawned {captured : List Guard} {r : Resource} (h : OwnedBut ks w)
    (hscopes : w.scopes = top :: outer)
    (hr : r ∈ w.live.filter fun r => r ∉ captured.map Resource.guard) :
    r.Detached ∨ (∃ k ∈ ks ++ w.aborted, r.handle = .abort k) ∨
      ∃ scope ∈ (top.filter fun h => h ∉ captured.map Handle.guard) :: outer, r.handle ∈ scope := by
  obtain ⟨hlive, hmoved⟩ := List.mem_filter.mp hr
  rw [decide_eq_true_eq] at hmoved
  rcases h r hlive with hw | hk | ⟨s, hs, hr'⟩
  · exact Or.inl hw
  · exact Or.inr (Or.inl hk)
  · refine Or.inr (Or.inr ?_)
    rw [hscopes] at hs
    rcases List.mem_cons.mp hs with rfl | hs
    · refine ⟨_, List.mem_cons_self, List.mem_filter.mpr ⟨hr', ?_⟩⟩
      rw [decide_eq_true_eq]
      intro hguard
      obtain ⟨g, hg, heq⟩ := List.mem_map.mp hguard
      cases r with
      | task k' captured' => cases heq
      | guard g' =>
        cases heq
        exact hmoved (List.mem_map.mpr ⟨g, hg, rfl⟩)
    · exact ⟨s, List.mem_cons_of_mem _ hs, hr'⟩

theorem wpE_spawn_at {k : TaskKind} {captured : List Guard}
    {Q : Except StartError Unit → StartWorld → Prop} (hp : p.Gated) (h : At p (top :: outer) ks w)
    (hQ : ∀ w', At p ((top.filter fun h => h ∉ captured.map Handle.guard) :: outer) (k :: ks) w' →
      Q (.ok ()) w') :
    wpE startContract Exits startOk Q (perform (.spawn k captured)) w := by
  refine wpE_perform_at id hp h fun _ w₁ w' h₁ hr => ?_
  obtain ⟨scope, rest, hscopes, rfl⟩ := hr
  obtain ⟨rfl, rfl⟩ := List.cons.inj (hscopes.symm.trans h₁.scopes)
  refine hQ _ ⟨h₁.progress, rfl, fun r hr => ?_⟩
  rcases List.mem_cons.mp hr with rfl | hr
  · exact Or.inr (Or.inl ⟨k, List.mem_cons_self, rfl⟩)
  · rcases h₁.owned.spawned h₁.scopes hr with hw | ⟨k', hk', hr'⟩ | hs
    · exact Or.inl hw
    · exact Or.inr (Or.inl ⟨k', List.mem_cons_of_mem _ hk', hr'⟩)
    · exact Or.inr (Or.inr hs)

/-- A task that takes no guards with it. -/
theorem wpE_spawnAlone_at {k : TaskKind} {Q : Except StartError Unit → StartWorld → Prop}
    (hp : p.Gated) (h : At p (top :: outer) ks w)
    (hQ : ∀ w', At p (top :: outer) (k :: ks) w' → Q (.ok ()) w') :
    wpE startContract Exits startOk Q (perform (.spawn k [])) w := by
  refine wpE_spawn_at hp h fun w' hw' => hQ w' ?_
  simpa using hw'

/-- A detached task. -/
theorem wpE_spawnDetached_at {k : TaskKind} {Q : Except StartError Unit → StartWorld → Prop}
    (hk : (Resource.task k []).Detached) (hp : p.Gated) (h : At p (top :: outer) ks w)
    (hQ : ∀ w', At p (top :: outer) ks w' → Q (.ok ()) w') :
    wpE startContract Exits startOk Q (perform (.spawn k [])) w := by
  refine wpE_perform_at id hp h fun _ w₁ w' h₁ hr => ?_
  obtain ⟨scope, rest, hscopes, rfl⟩ := hr
  obtain ⟨rfl, rfl⟩ := List.cons.inj (hscopes.symm.trans h₁.scopes)
  refine hQ _ ⟨h₁.progress, by simp, fun r hr => ?_⟩
  rcases List.mem_cons.mp hr with rfl | hr
  · exact Or.inl hk
  · exact h₁.owned.spawned h₁.scopes hr

theorem wpE_include_at {k : TaskKind} {Q : Except StartError Unit → StartWorld → Prop}
    (hp : p.Gated) (h : At p (top :: outer) (k :: ks) w)
    (hQ : ∀ w', At p ((.abort k :: top) :: outer) ks w' → Q (.ok ()) w') :
    wpE startContract Exits startOk Q (perform (.includeTask k)) w := by
  refine wpE_perform_at id hp h fun _ w₁ w' h₁ hr => ?_
  obtain ⟨scope, rest, hscopes, rfl⟩ := hr
  obtain ⟨rfl, rfl⟩ := List.cons.inj (hscopes.symm.trans h₁.scopes)
  refine hQ _ ⟨h₁.progress, rfl, fun r hr => ?_⟩
  rcases h₁.owned r hr with hw | ⟨k', hk', hr'⟩ | ⟨s, hs, hr'⟩
  · exact Or.inl hw
  · rcases List.mem_cons.mp hk' with rfl | hk'
    · exact Or.inr (Or.inr ⟨_, List.mem_cons_self, by rw [hr']; exact List.mem_cons_self⟩)
    · exact Or.inr (Or.inl ⟨k', hk', hr'⟩)
  · rw [h₁.scopes] at hs
    rcases List.mem_cons.mp hs with rfl | hs
    · exact Or.inr (Or.inr ⟨_, List.mem_cons_self, List.mem_cons_of_mem _ hr'⟩)
    · exact Or.inr (Or.inr ⟨s, List.mem_cons_of_mem _ hs, hr'⟩)

theorem wpE_acquire_at {g : Guard} {Q : Except StartError Unit → StartWorld → Prop}
    (hp : p.Gated) (h : At p (top :: outer) ks w)
    (hQ : ∀ w', At p ((.guard g :: top) :: outer) ks w' → Q (.ok ()) w') :
    wpE startContract Exits startOk Q (perform (.acquire g)) w := by
  refine wpE_perform_at id hp h fun _ w₁ w' h₁ hr => ?_
  obtain ⟨scope, rest, hscopes, rfl⟩ := hr
  obtain ⟨rfl, rfl⟩ := List.cons.inj (hscopes.symm.trans h₁.scopes)
  refine hQ _ ⟨h₁.progress, rfl, fun r hr => ?_⟩
  rcases List.mem_cons.mp hr with rfl | hr
  · exact Or.inr (Or.inr ⟨_, List.mem_cons_self, List.mem_cons_self⟩)
  · rcases h₁.owned r hr with hw | hk | ⟨s, hs, hr'⟩
    · exact Or.inl hw
    · exact Or.inr (Or.inl hk)
    · rw [h₁.scopes] at hs
      rcases List.mem_cons.mp hs with rfl | hs
      · exact Or.inr (Or.inr ⟨_, List.mem_cons_self, List.mem_cons_of_mem _ hr'⟩)
      · exact Or.inr (Or.inr ⟨s, List.mem_cons_of_mem _ hs, hr'⟩)

theorem mem_abortHandles {scope : List Handle} {k : TaskKind} :
    k ∈ abortHandles scope ↔ .abort k ∈ scope := by
  unfold abortHandles
  rw [List.mem_filterMap]
  constructor
  · rintro ⟨h, hh, heq⟩
    cases h with
    | guard g => cases heq
    | abort k' =>
      cases heq
      exact hh
  · exact fun h => ⟨_, h, rfl⟩

/-- The tasks of a cleared owner are the caller's to register. -/
theorem wpE_transferToCaller_at {tasks : List TaskKind}
    {Q : Except StartError Unit → StartWorld → Prop} (hp : p.Gated)
    (h : At p (tasks.map Handle.abort :: outer) ks w)
    (hQ : ∀ w', At p ([] :: outer) (tasks ++ ks) w' → Q (.ok ()) w') :
    wpE startContract Exits startOk Q (perform .transferToCaller) w := by
  refine wpE_perform_at id hp h fun _ w₁ w' h₁ hr => ?_
  obtain ⟨scope, rest, hscopes, rfl⟩ := hr
  obtain ⟨rfl, rfl⟩ := List.cons.inj (hscopes.symm.trans h₁.scopes)
  refine hQ _ ⟨h₁.progress, rfl, fun r hr => ?_⟩
  rcases h₁.owned r hr with hw | ⟨k', hk', hr'⟩ | ⟨s, hs, hr'⟩
  · exact Or.inl hw
  · refine Or.inr (Or.inl ⟨k', ?_, hr'⟩)
    rw [List.append_assoc]
    exact List.mem_append_right _ hk'
  · rw [h₁.scopes] at hs
    rcases List.mem_cons.mp hs with rfl | hs
    · obtain ⟨k', hk', heq⟩ := List.mem_map.mp hr'
      refine Or.inr (Or.inl ⟨k', ?_, heq.symm⟩)
      rw [List.append_assoc]
      exact List.mem_append_left _ hk'
    · exact Or.inr (Or.inr ⟨s, List.mem_cons_of_mem _ hs, hr'⟩)

/-- What a dropped scope held is gone or has been aborted. -/
theorem OwnedBut.drop (h : OwnedBut ks w) (hscopes : w.scopes = top :: outer) :
    OwnedBut ks { w.drop top with scopes := outer } := by
  intro r hr
  obtain ⟨hlive, houtlives⟩ := List.mem_filter.mp hr
  have haborted : ∀ k, (.abort k ∈ top ∨ k ∈ ks ++ w.aborted) →
      k ∈ ks ++ (abortHandles top ++ w.aborted) := by
    intro k hk
    rcases hk with hk | hk
    · exact List.mem_append_right _ (List.mem_append_left _ (mem_abortHandles.mpr hk))
    · rcases List.mem_append.mp hk with hk | hk
      · exact List.mem_append_left _ hk
      · exact List.mem_append_right _ (List.mem_append_right _ hk)
  rcases h r hlive with hw | ⟨k, hk, hr'⟩ | ⟨s, hs, hr'⟩
  · exact Or.inl hw
  · exact Or.inr (Or.inl ⟨k, haborted k (Or.inr hk), hr'⟩)
  · rw [hscopes] at hs
    rcases List.mem_cons.mp hs with rfl | hs
    · cases r with
      | guard g => exact absurd hr' (of_decide_eq_true houtlives)
      | task k captured => exact Or.inr (Or.inl ⟨k, haborted k (Or.inl hr'), rfl⟩)
    · exact Or.inr (Or.inr ⟨s, hs, hr'⟩)

/-- A block: whatever its outcome, its scope is dropped. -/
theorem wpE_inScope_at {α : Type} {body : StartM α} {Q : Except StartError α → StartWorld → Prop}
    (hp : p.Gated) (h : At p scopes ks w)
    (hbody : ∀ w', At p ([] :: scopes) ks w' → wpE startContract Exits startOk
      (fun r w'' => ∃ p' top ks', p'.Gated ∧ At p' (top :: scopes) ks' w'' ∧
        ∀ w', At p' scopes ks' w' → Q r w') body w') :
    wpE startContract Exits startOk Q (inScope body) w := by
  unfold inScope
  rw [wpE_bind]
  refine wpE_perform_at id hp h fun _ w₁ w' h₁ hr => ?_
  obtain rfl : w' = { w₁ with scopes := [] :: w₁.scopes } := hr
  have h₂ : At p ([] :: scopes) ks { w₁ with scopes := [] :: w₁.scopes } := by
    refine ⟨h₁.progress, by rw [h₁.scopes], fun r hr => ?_⟩
    rcases h₁.owned r hr with hw | hk | ⟨s, hs, hr'⟩
    · exact Or.inl hw
    · exact Or.inr (Or.inl hk)
    · exact Or.inr (Or.inr ⟨s, List.mem_cons_of_mem _ hs, hr'⟩)
  rw [andThen_ok, wpE_bind, wpE_attempt]
  refine wpE_post (hbody _ h₂) fun r w₃ hr => ?_
  obtain ⟨p', top, ks', hp', h₃, hQ⟩ := hr
  rw [andThen_ok, wpE_bind]
  refine wpE_perform_at id hp' h₃ fun _ w₄ w₅ h₄ hr => ?_
  obtain ⟨scope, rest, hscopes, rfl⟩ := hr
  obtain ⟨rfl, rfl⟩ := List.cons.inj (hscopes.symm.trans h₄.scopes)
  rw [andThen_ok, wpE_ofOutcome]
  exact hQ _ ⟨h₄.progress, rfl, h₄.owned.drop h₄.scopes⟩

end rules

/-! ## What each part leaves to its caller -/

section parts

variable {hashPassword : List Char → List Char → List UInt8} {salts : ℕ → List UInt8}
  {cookiePassword cookieSalt : List UInt8} {config : StartConfig} {p : Progress}
  {top : List Handle} {outer scopes : List (List Handle)} {w : StartWorld}

/-- The RPC server is left to the caller; on failure nothing is. -/
def LeavesTask (p : Progress) (scopes : List (List Handle)) :
    Except StartError TaskKind → StartWorld → Prop
  | .ok k, w => At p scopes [k] w
  | .error _, w => At p scopes [] w

theorem wpE_spawnServer_at {addr : String} {pir : Option Guard} (hp : p.Gated)
    (h : At p (top :: outer) [] w) :
    wpE startContract Exits startOk
      (fun r w' => ∃ top', LeavesTask p (top' :: outer) r w')
      (spawnServer hashPassword salts cookiePassword cookieSalt config addr pir) w := by
  unfold spawnServer
  rw [wpE_bind]
  refine wpE_spawnDetached_at (Or.inl rfl) hp h fun w₁ h₁ => ?_
  rw [andThen_ok]
  by_cases hreserved : (config.auth.any fun a => decide (a.user = COOKIE_USER)) = true
  · rw [if_pos hreserved]
    exact ⟨_, h₁⟩
  · rw [if_neg hreserved, wpE_bind]
    refine wpE_call_at hp h₁ (fun _ w₂ h₂ => ?_) fun _ w₂ h₂ => ⟨_, h₂⟩
    rw [andThen_ok, wpE_bind]
    refine wpE_acquire_at hp h₂ fun w₃ h₃ => ?_
    rw [andThen_ok]
    split
    · exact ⟨_, h₃⟩
    · rw [wpE_bind]
      refine wpE_await_at hp h₃ (fun _ w₄ h₄ => ?_) fun _ w₄ h₄ => ⟨_, h₄⟩
      rw [andThen_ok, wpE_bind]
      refine wpE_call_at hp h₄ (fun _ w₅ h₅ => ?_) fun _ w₅ h₅ => ⟨_, h₅⟩
      rw [andThen_ok, wpE_bind]
      refine wpE_call_at hp h₅ (fun _ w₆ h₆ => ?_) fun _ w₆ h₆ => ⟨_, h₆⟩
      rw [andThen_ok, wpE_bind]
      exact wpE_spawn_at hp h₆ fun w₇ h₇ => ⟨_, h₇⟩

theorem wpE_spawnJsonRpc_at (hp : p.Gated) (h : At p (top :: outer) [] w) :
    wpE startContract Exits startOk (LeavesTask p (top :: outer))
      (spawnJsonRpc hashPassword salts cookiePassword cookieSalt config) w := by
  -- in the scope of the call
  have hserver : ∀ addr : String, wpE startContract Exits startOk (LeavesTask p (top :: outer))
      (inScope do
        if config.pirStarts then do
          perform (.acquire .pir)
          perform (.spawn .pirNetworking [])
          spawnServer hashPassword salts cookiePassword cookieSalt config addr (some .pir)
        else spawnServer hashPassword salts cookiePassword cookieSalt config addr none) w := by
    intro addr
    have hleave : ∀ (r : Except StartError TaskKind) (w' : StartWorld),
        (∃ top', LeavesTask p (top' :: top :: outer) r w') →
        ∃ p' top' ks', p'.Gated ∧ At p' (top' :: top :: outer) ks' w' ∧
          ∀ w', At p' (top :: outer) ks' w' → LeavesTask p (top :: outer) r w' := by
      rintro r w' ⟨top', hr⟩
      cases r with
      | ok k => exact ⟨p, top', [k], hp, hr, fun _ h => h⟩
      | error e => exact ⟨p, top', [], hp, hr, fun _ h => h⟩
    refine wpE_inScope_at hp h fun w₁ h₁ => ?_
    by_cases hpir : config.pirStarts = true
    · rw [if_pos hpir, wpE_bind]
      refine wpE_acquire_at hp h₁ fun w₂ h₂ => ?_
      rw [andThen_ok, wpE_bind]
      refine wpE_spawnDetached_at (Or.inr rfl) hp h₂ fun w₃ h₃ => ?_
      exact wpE_post (wpE_spawnServer_at hp h₃) hleave
    · rw [if_neg hpir]
      exact wpE_post (wpE_spawnServer_at hp h₁) hleave
  unfold spawnJsonRpc
  split
  · rw [wpE_bind]
    exact wpE_spawnAlone_at hp h fun w₁ h₁ => h₁
  · split
    · exact h
    · exact hserver _
  · exact h

/-- The sync tasks are left to the caller; on failure none is. -/
def LeavesTasks (p : Progress) (scopes : List (List Handle)) :
    Except StartError Unit → StartWorld → Prop
  | .ok (), w =>
    At p scopes [.steadyState, .recoverHistory, .batchDecryptor, .dataRequests] w
  | .error _, w => At p scopes [] w

theorem wpE_spawnWalletSync_at (hp : p.Gated) {shutdownHeight : Option ℕ}
    (h : At p (top :: outer) [] w) :
    wpE startContract Exits startOk (LeavesTasks p (top :: outer))
      (spawnWalletSync shutdownHeight) w := by
  unfold spawnWalletSync
  rw [wpE_bind]
  refine wpE_await_at hp h (fun _ w₁ h₁ => ?_) fun _ w₁ h₁ => h₁
  rw [andThen_ok, wpE_bind]
  refine wpE_spawnAlone_at hp h₁ fun w₂ h₂ => ?_
  rw [andThen_ok]
  refine wpE_inScope_at hp h₂ fun w₃ h₃ => ?_
  -- a failed step leaves what `PendingWalletSyncTasks` has to abort
  have hfail : ∀ (scope : List Handle) (e : StartError) (w' : StartWorld),
      At p (scope :: top :: outer) [] w' →
        ∃ p' scope' ks', p'.Gated ∧ At p' (scope' :: top :: outer) ks' w' ∧
          ∀ w', At p' (top :: outer) ks' w' → LeavesTasks p (top :: outer) (.error e) w' :=
    fun scope e w' hw' => ⟨p, scope, [], hp, hw', fun _ h => h⟩
  rw [wpE_bind]
  refine wpE_include_at hp h₃ fun w₄ h₄ => ?_
  rw [andThen_ok, wpE_bind]
  refine wpE_await_at hp h₄ (fun _ w₅ h₅ => ?_) fun _ w₅ h₅ => hfail _ _ _ h₅
  rw [andThen_ok, wpE_bind]
  refine wpE_await_at hp h₅ (fun _ w₆ h₆ => ?_) fun _ w₆ h₆ => hfail _ _ _ h₆
  rw [andThen_ok, wpE_bind]
  refine wpE_spawnAlone_at hp h₆ fun w₇ h₇ => ?_
  rw [andThen_ok, wpE_bind]
  refine wpE_include_at hp h₇ fun w₈ h₈ => ?_
  rw [andThen_ok, wpE_bind]
  refine wpE_await_at hp h₈ (fun _ w₉ h₉ => ?_) fun _ w₉ h₉ => hfail _ _ _ h₉
  rw [andThen_ok, wpE_bind]
  refine wpE_spawnAlone_at hp h₉ fun w₁₀ h₁₀ => ?_
  rw [andThen_ok, wpE_bind]
  refine wpE_include_at hp h₁₀ fun w₁₁ h₁₁ => ?_
  rw [andThen_ok, wpE_bind]
  refine wpE_await_at hp h₁₁ (fun _ w₁₂ h₁₂ => ?_) fun _ w₁₂ h₁₂ => hfail _ _ _ h₁₂
  rw [andThen_ok, wpE_bind]
  refine wpE_spawnAlone_at hp h₁₂ fun w₁₃ h₁₃ => ?_
  rw [andThen_ok, wpE_bind]
  refine wpE_include_at hp h₁₃ fun w₁₄ h₁₄ => ?_
  rw [andThen_ok]
  have howned : At p (([.dataRequests, .recoverHistory, .steadyState, .batchDecryptor] :
    List TaskKind).map Handle.abort :: top :: outer) [] w₁₄ := h₁₄
  refine wpE_transferToCaller_at hp howned fun w₁₅ h₁₅ => ?_
  exact ⟨p, [], _, hp, h₁₅, fun _ h => h.mono (by simp)⟩

/-- How `zallet start` ends: by an error before a task has exited, or with the
    result of the first task to exit. -/
def EndsWith (p : Progress) (r : Except StartError Unit) : Prop :=
  match p.exited with
  | none => ∃ e, r = .error e
  | some (k, exit) => r = exit.result k

/-- Everything is owned where `zallet start` ends. -/
def Ends (scopes : List (List Handle)) (r : Except StartError Unit) (w : StartWorld) : Prop :=
  ∃ p, p.Gated ∧ EndsWith p r ∧ At p scopes [] w

theorem Ends.error (hp : p.Gated) (hexited : p.exited = none) (e : StartError)
    (h : At p scopes [] w) : Ends scopes (.error e) w := by
  refine ⟨p, hp, ?_, h⟩
  unfold EndsWith
  rw [hexited]
  exact ⟨e, rfl⟩

theorem wpE_superviseZalletTasks_at (hp : p.Gated) (h : At p scopes [] w) :
    wpE startContract Exits startOk (Ends scopes) superviseZalletTasks w := by
  unfold superviseZalletTasks perform
  rw [wpE_bind, wpE_lift]
  intro w₁ hw₁
  have h₁ := h.exits hw₁
  refine ⟨⟨fun _ => h₁.owned, h₁.progress ▸ hp⟩, ?_⟩
  rintro ⟨k, exit⟩ w₂ ⟨-, -, rfl⟩
  refine ⟨{ p with exited := some (k, exit) }, hp, rfl, ?_, h₁.scopes, ?_⟩
  · rw [h₁.progress]
  · intro r hr
    exact h₁.owned r (List.mem_filter.mp hr).1

/-- A part that ends inside a block ends where the block does. -/
theorem Ends.leave {r : Except StartError Unit} (h : Ends (top :: scopes) r w) :
    ∃ p top ks, p.Gated ∧ At p (top :: scopes) ks w ∧ ∀ w', At p scopes ks w' → Ends scopes r w' := by
  obtain ⟨p, hp, hends, hat⟩ := h
  exact ⟨p, top, [], hp, hat, fun w' hw' => ⟨p, hp, hends, hw'⟩⟩

variable (hashPassword salts cookiePassword cookieSalt config)

theorem wpE_runWithConfig_at (h : At StartWorld.initial.progress (top :: outer) [] w) :
    wpE startContract Exits startOk (Ends (top :: outer))
      (runWithConfig hashPassword salts cookiePassword cookieSalt config) w := by
  unfold runWithConfig
  rw [wpE_bind]
  refine wpE_await_at (by nofun) h (fun _ w₁ h₁ => ?_) fun e w₁ h₁ => Ends.error (by nofun) rfl _ h₁
  rw [andThen_ok, wpE_bind]
  refine wpE_spawnAlone_at (by nofun) h₁ fun w₂ h₂ => ?_
  rw [andThen_ok]
  refine wpE_inScope_at (by nofun) h₂ fun w₃ h₃ => ?_
  refine wpE_post (Q := fun r w' => ∃ top', Ends (top' :: top :: outer) r w') ?_
    fun r w' ⟨top', hr⟩ => hr.leave
  rw [wpE_bind]
  refine wpE_include_at (by nofun) h₃ fun w₄ h₄ => ?_
  rw [andThen_ok, wpE_bind]
  refine wpE_await_at (by nofun) h₄ (fun shutdownHeight w₅ h₅ => ?_)
    fun e w₅ h₅ => ⟨_, Ends.error (by nofun) rfl _ h₅⟩
  rw [andThen_ok, wpE_bind]
  -- the backend has been admitted and its rules are compatible
  refine wpE_await_at (by nofun) h₅ (fun _ w₆ h₆ => ?_)
    fun e w₆ h₆ => ⟨_, Ends.error (fun _ => ⟨rfl, rfl⟩) rfl _ h₆⟩
  have hp : Progress.Gated ⟨true, true, true, none⟩ := fun _ => ⟨rfl, rfl⟩
  rw [andThen_ok, wpE_bind]
  refine wpE_await_at hp h₆ (fun _ w₇ h₇ => ?_) fun e w₇ h₇ => ⟨_, Ends.error hp rfl _ h₇⟩
  rw [andThen_ok, wpE_bind]
  refine wpE_call_at hp h₇ (fun _ w₈ h₈ => ?_) fun e w₈ h₈ => ⟨_, Ends.error hp rfl _ h₈⟩
  rw [andThen_ok, wpE_bind]
  refine wpE_call_at hp h₈ (fun _ w₉ h₉ => ?_) fun e w₉ h₉ => ⟨_, Ends.error hp rfl _ h₉⟩
  rw [andThen_ok, wpE_bind]
  refine wpE_post (wpE_spawnJsonRpc_at hp h₉) fun r w₁₀ h₁₀ => ?_
  cases r with
  | error e => exact ⟨_, Ends.error hp rfl e h₁₀⟩
  | ok rpcTask =>
    rw [andThen_ok, wpE_bind]
    refine wpE_include_at hp h₁₀ fun w₁₁ h₁₁ => ?_
    rw [andThen_ok, wpE_bind]
    refine wpE_post (wpE_spawnWalletSync_at hp h₁₁) fun r w₁₂ h₁₂ => ?_
    cases r with
    | error e => exact ⟨_, Ends.error hp rfl e h₁₂⟩
    | ok u =>
      rw [andThen_ok, wpE_bind]
      refine wpE_include_at hp h₁₂ fun w₁₃ h₁₃ => ?_
      rw [andThen_ok, wpE_bind]
      refine wpE_include_at hp h₁₃ fun w₁₄ h₁₄ => ?_
      rw [andThen_ok, wpE_bind]
      refine wpE_include_at hp h₁₄ fun w₁₅ h₁₅ => ?_
      rw [andThen_ok, wpE_bind]
      refine wpE_include_at hp h₁₅ fun w₁₆ h₁₆ => ?_
      exact wpE_post (wpE_superviseZalletTasks_at hp h₁₆) fun r w' hr => ⟨_, hr⟩

theorem wpE_runWith :
    wpE startContract Exits startOk (Ends [])
      (runWith hashPassword salts cookiePassword cookieSalt config) StartWorld.initial := by
  have hinitial : At StartWorld.initial.progress [] [] StartWorld.initial :=
    ⟨rfl, rfl, fun r hr => by cases hr⟩
  unfold runWith
  refine wpE_inScope_at (by nofun) hinitial fun w₁ h₁ => ?_
  refine wpE_post (Q := fun r w' => ∃ top', Ends [top'] r w') ?_ fun r w' ⟨top', hr⟩ => hr.leave
  unfold lockDatadir
  rw [wpE_bind, wpE_bind]
  refine wpE_call_at (by nofun) h₁ (fun _ w₂ h₂ => ?_)
    fun e w₂ h₂ => ⟨_, Ends.error (by nofun) rfl _ h₂⟩
  rw [andThen_ok, wpE_bind]
  refine wpE_call_at (by nofun) h₂ (fun _ w₃ h₃ => ?_)
    fun e w₃ h₃ => ⟨_, Ends.error (by nofun) rfl _ h₃⟩
  rw [andThen_ok, wpE_bind]
  refine wpE_call_at (by nofun) h₃ (fun locked w₄ h₄ => ?_)
    fun e w₄ h₄ => ⟨_, Ends.error (by nofun) rfl _ h₄⟩
  rw [andThen_ok]
  cases locked with
  | false => exact ⟨_, Ends.error (by nofun) rfl _ h₄⟩
  | true =>
    refine wpE_acquire_at (by nofun) h₄ fun w₅ h₅ => ?_
    exact wpE_post (wpE_runWithConfig_at _ _ _ _ _ h₅) fun r w' hr => ⟨_, hr⟩

end parts

/-! ## Every way to end -/

/-- The scopes are dropped from the inside out. -/
def StartWorld.dropAll : List (List Handle) → StartWorld → StartWorld
  | [], w => w
  | top :: outer, w => dropAll outer { w.drop top with scopes := outer }

/-- `zallet start` is dropped where it is suspended. -/
def StartWorld.cancel (w : StartWorld) : StartWorld := dropAll w.scopes w

/-- A guard has not been dropped: a variable has it, or a task. -/
def StartWorld.Holds (w : StartWorld) (g : Guard) : Prop :=
  .guard g ∈ w.live ∨ ∃ k captured, .task k captured ∈ w.live ∧ g ∈ captured

/-- The runtime has dropped the tasks that have been aborted. -/
def StartWorld.settle (w : StartWorld) : StartWorld :=
  { w with live := w.live.filter fun r => ∀ k ∈ w.aborted, r.handle ≠ .abort k }

/-- No variable has a guard, and no task is left that has not been aborted, except for the
    detached ones. Once the runtime has dropped the tasks, no guard is held: the data
    directory is unlocked, the cookie is gone, and the networking of the PIR client has
    been told to stop. -/
structure NothingLeft (w : StartWorld) : Prop where
  scopes : w.scopes = []
  guards : ∀ g, .guard g ∉ w.live
  tasks : ∀ k captured, .task k captured ∈ w.live →
    k ∈ w.aborted ∨ captured = [] ∧ (k = .provingCacheWarmer ∨ k = .pirNetworking)
  released : ∀ g, ¬ w.settle.Holds g

section ends

variable {w : StartWorld}

theorem nothingLeft_of_owned (hscopes : w.scopes = []) (h : OwnedBut [] w) : NothingLeft w := by
  have hnone : ∀ r ∈ w.live, ¬ ∃ scope ∈ w.scopes, r.handle ∈ scope := by
    rintro r - ⟨s, hs, -⟩
    rw [hscopes] at hs
    cases hs
  have hguards : ∀ g, .guard g ∉ w.live := by
    intro g hg
    rcases h _ hg with (hw | hw) | ⟨k, -, hr⟩ | hs
    · cases hw
    · cases hw
    · cases hr
    · exact hnone _ hg hs
  have htasks : ∀ k captured, .task k captured ∈ w.live →
      k ∈ w.aborted ∨ captured = [] ∧ (k = .provingCacheWarmer ∨ k = .pirNetworking) := by
    intro k captured hk
    rcases h _ hk with (hw | hw) | ⟨k', hk', hr⟩ | hs
    · obtain ⟨rfl, rfl⟩ := Resource.task.inj hw
      exact Or.inr ⟨rfl, Or.inl rfl⟩
    · obtain ⟨rfl, rfl⟩ := Resource.task.inj hw
      exact Or.inr ⟨rfl, Or.inr rfl⟩
    · obtain rfl := Handle.abort.inj hr
      exact Or.inl hk'
    · exact absurd hs (hnone _ hk)
  refine ⟨hscopes, hguards, htasks, fun g hg => ?_⟩
  rcases hg with hg | ⟨k, captured, hk, hg⟩
  · exact hguards g (List.mem_filter.mp hg).1
  · obtain ⟨hlive, hkept⟩ := List.mem_filter.mp hk
    rcases htasks k captured hlive with haborted | ⟨rfl, -⟩
    · exact of_decide_eq_true hkept k haborted rfl
    · cases hg

/-- Dropping all scopes leaves nothing of what they held. -/
theorem OwnedBut.cancel (h : OwnedBut [] w) : NothingLeft w.cancel := by
  unfold StartWorld.cancel
  obtain ⟨scopes, hscopes⟩ : ∃ scopes, w.scopes = scopes := ⟨_, rfl⟩
  rw [hscopes]
  induction scopes generalizing w with
  | nil => exact nothingLeft_of_owned hscopes h
  | cons top outer ih =>
    rw [StartWorld.dropAll]
    exact ih (h.drop hscopes) rfl

end ends

end Zallet.Start
