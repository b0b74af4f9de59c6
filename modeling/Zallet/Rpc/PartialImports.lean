import Zallet.Rpc.Imports

/-!
# What a failed import leaves behind

`importContract` is the effect of the calls on `Tables`. A call that fails
writes nothing, and `z_importkey` writes the account and its key in one
transaction. But `z_recoveraccounts` commits account after account, and an
address import is followed by a rescan that may fail (`rescan`), so that an
error does not always mean that nothing happened.

`FailsLate` is the failure after a committed write. `import_unchanged_iff` is the
guarantee: a call that returns an error leaves the tables as they were if and
only if no such failure happened.
-/

namespace Zallet.Rpc

open Zallet.Effect Zallet.Chain Zallet.Wallet

/-! ## The tables -/

structure Tables where
  accounts : List Account
  addresses : List (AccountUuid × TransparentAddress)
  saplingKeys : List (Dfvk × List UInt8)
  deriving DecidableEq

namespace Tables

/-- `address` is tracked for `account`. -/
def track (t : Tables) (account : AccountUuid) (address : TransparentAddress) : Tables :=
  if (account, address) ∈ t.addresses then t
  else { t with addresses := t.addresses ++ [(account, address)] }

/-- The upsert of an encrypted key (keystore.rs, lines 1273–1276). -/
def storeKey (t : Tables) (key : EncryptedStandaloneSaplingKey) : Tables :=
  { t with
    saplingKeys := (key.dfvk, key.encryptedSaplingExtsk) ::
      t.saplingKeys.filter (fun entry => entry.1 ≠ key.dfvk) }

/-- A new account, with the transparent addresses derived for it. -/
def Adds (t : Tables) (a : Account) (t' : Tables) : Prop :=
  (∀ b ∈ t.accounts, b.id ≠ a.id ∧ b.ufvk ≠ a.ufvk) ∧
    ∃ derived : List TransparentAddress,
      t' = { t with
        accounts := t.accounts ++ [a]
        addresses := t.addresses ++ derived.map fun address => (a.id, address) }

/-- The account of a viewing key, unless the wallet has one. -/
def AddsUfvk (t : Tables) (name : String) (ufvk : Ufvk) (birthday : AccountBirthday)
    (purpose : AccountPurpose) (a : Account) (t' : Tables) : Prop :=
  t.Adds a t' ∧ a.name = name ∧ a.ufvk = ufvk ∧ a.source = .Imported purpose ∧
    a.birthday = birthday.height

/-- The transaction of `z_importkey` (import_key.rs, lines 175–197). -/
def ImportsKey (t : Tables) (name : String) (ufvk : Ufvk) (birthday : Option AccountBirthday)
    (key : EncryptedStandaloneSaplingKey) (t' : Tables) : Prop :=
  ∃ t₁, t' = t₁.storeKey key ∧
    match birthday with
    | none => t₁ = t
    | some birthday =>
      if t.accounts.any (·.ufvk == ufvk) then t₁ = t
      else ∃ a, t.AddsUfvk name ufvk birthday (.Spending none) a t₁

/-- The effect of a write: nothing if it fails. -/
def Writes {δ α : Type} (t : Tables) (done : α → Tables → Prop) : Except δ α → Tables → Prop
  | .ok a, t' => done a t'
  | .error _, t' => t' = t

end Tables

/-- What a call answers and what it does to the tables. -/
def importContract (K : Codecs) : Contract importSig Tables
  | .getAccount id, t, r, t' => (∀ a, r = .ok a → a = t.accounts.find? (·.id == id)) ∧ t' = t
  | .getAccountIds, t, r, t' => (∀ ids, r = .ok ids → ids = t.accounts.map (·.id)) ∧ t' = t
  | .getAccountForUfvk ufvk, t, r, t' =>
    (∀ a, r = .ok a → a = t.accounts.find? (·.ufvk == ufvk)) ∧ t' = t
  | .createAccount name seed birthday, t, r, t' =>
    t.Writes (fun a t' => t.Adds a t' ∧ a.name = name ∧ a.birthday = birthday.height ∧
      ∃ index, a.source = .Derived ⟨K.seedFingerprint seed, index⟩) r t'
  | .importAccountHd name seed index birthday, t, r, t' =>
    t.Writes (fun a t' => t.Adds a t' ∧ a.name = name ∧ a.birthday = birthday.height ∧
      a.source = .Derived ⟨K.seedFingerprint seed, index⟩) r t'
  | .importAccountUfvk name ufvk birthday purpose, t, r, t' =>
    t.Writes (t.AddsUfvk name ufvk birthday purpose) r t'
  | .importSaplingKey name ufvk birthday key, t, r, t' =>
    t.Writes (fun _ => t.ImportsKey name ufvk birthday key) r t'
  | .importStandaloneTransparentPubkey account pubkey, t, r, t' =>
    t.Writes (fun _ t' => account ∈ t.accounts.map (·.id) ∧
      t' = t.track account (K.fromPubkey pubkey)) r t'
  | .importStandaloneTransparentScript account script, t, r, t' =>
    t.Writes (fun _ t' => account ∈ t.accounts.map (·.id) ∧
      t' = t.track account (.ScriptHash (K.hash160 script.code))) r t'
  | .importStandaloneTransparentAddress account address, t, r, t' =>
    t.Writes (fun _ t' => account ∈ t.accounts.map (·.id) ∧ t' = t.track account address) r t'
  | _, t, _, t' => t' = t

/-! ## Reads -/

/-- The calls that write nothing and ask the decryptor for nothing. -/
def ImportOp.isRead : ImportOp → Bool
  | createAccount _ _ _ => false
  | importAccountHd _ _ _ _ => false
  | importAccountUfvk _ _ _ _ => false
  | importSaplingKey _ _ _ _ => false
  | importStandaloneTransparentPubkey _ _ => false
  | importStandaloneTransparentScript _ _ => false
  | importStandaloneTransparentAddress _ _ => false
  | rewindToChainState _ => false
  | reloadKeys => false
  | _ => true

theorem importContract_read {K : Codecs} {o : ImportOp} {t t' : Tables} {r : o.Ret}
    (ho : o.isRead = true) (h : importContract K o t r t') : t' = t := by
  cases o with
  | getAccount id => exact h.2
  | getAccountIds => exact h.2
  | getAccountForUfvk ufvk => exact h.2
  | createAccount | importAccountHd | importAccountUfvk | importSaplingKey => cases ho
  | importStandaloneTransparentPubkey | importStandaloneTransparentScript => cases ho
  | importStandaloneTransparentAddress => cases ho
  | _ => exact h

/-- The reads of the `import-address` command before it imports anything. -/
def ImportOp.isSetup : ImportOp → Bool
  | lockDatadir => true
  | openDatabase => true
  | buildChain => true
  | getAccount _ => true
  | getAccountIds => true
  | _ => false

/-- The bound of a program that makes only calls of `P`. -/
def only (P : ImportOp → Bool) (ε : Type) : Bounds importSig ε where
  ops o := P o = true
  answers _ _ := True
  errors _ := True

/-- One call of `P`, whatever the type of its answer. -/
def OneOf (P : ImportOp → Bool) {α : Type} (p : Prog importSig α) : Prop :=
  ∃ (o : ImportOp) (g : o.Ret → α), P o = true ∧ p = .op o fun r => .pure (g r)

section Only

variable {P : ImportOp → Bool} {ε δ α : Type}

theorem oneOf {o : ImportOp} (ho : P o = true) : OneOf P (Prog.call (S := importSig) o) :=
  ⟨o, id, ho, rfl⟩

theorem only_liftE {f : δ → ε} {p : Prog importSig (Except δ α)} (hp : OneOf P p) :
    Within (only P ε) (liftE f p) := by
  obtain ⟨o, g, ho, rfl⟩ := hp
  exact fun _ _ => ⟨ho, fun _ _ _ _ _ => trivial⟩

theorem only_lift {p : Prog importSig α} (hp : OneOf P p) :
    Within (only P ε) (lift p : ExceptT ε (Prog importSig) α) := by
  obtain ⟨o, g, ho, rfl⟩ := hp
  exact fun _ _ => ⟨ho, fun _ _ _ _ _ => trivial⟩

theorem only_askRpc {code : LegacyCode} {p : Prog importSig (Except String α)} (hp : OneOf P p) :
    Within (only P RpcError) (askRpc code p) :=
  only_liftE hp

theorem only_okOr (e : ε) (a : Option α) : Within (only P ε) (okOr e a) := by
  cases a with
  | none => exact Within.throw trivial
  | some a => exact Within.pure a

theorem only_mapErr (f : δ → ε) (a : Except δ α) : Within (only P ε) (mapErr f a) := by
  cases a with
  | error e => exact Within.throw trivial
  | ok a => exact Within.pure a

end Only

theorem reads_ensureWalletIsUnlocked :
    Within (only ImportOp.isRead RpcError) ensureWalletIsUnlocked := by
  refine (only_lift (oneOf rfl)).bind fun locked => ?_
  cases locked with
  | true => exact Within.throw trivial
  | false => exact Within.pure ()

theorem reads_ensureSeedIsBackedUp (seedFp : SeedFingerprint) :
    Within (only ImportOp.isRead RpcError) (ensureSeedIsBackedUp seedFp) := by
  refine (only_askRpc (oneOf rfl)).bind fun required => ?_
  cases required with
  | true => exact Within.throw trivial
  | false => exact Within.pure ()

theorem reads_fetchAccountBirthday (height : ℕ) :
    Within (only ImportOp.isRead RpcError) (fetchAccountBirthday height) := by
  unfold fetchAccountBirthday
  split
  · exact Within.pure _
  · exact (only_liftE (oneOf rfl)).bind fun view => (only_liftE (oneOf rfl)).bind fun state =>
      (only_okOr _ state).bind fun _ => Within.pure _

theorem reads_accountArgs (K : Codecs) (view recoverUntil : ℕ) (account : AccountParameter) :
    Within (only ImportOp.isRead RpcError) (accountArgs K view recoverUntil account) :=
  (only_mapErr _ _).bind fun _ => (only_mapErr _ _).bind fun _ =>
    (only_liftE (oneOf rfl)).bind fun state => (only_okOr _ state).bind fun _ => Within.pure _

theorem reads_allAccountArgs (K : Codecs) (view recoverUntil : ℕ) (accounts : List AccountParameter) :
    Within (only ImportOp.isRead RpcError) (allAccountArgs K view recoverUntil accounts) := by
  induction accounts with
  | nil => exact Within.pure _
  | cons account rest ih =>
    exact (reads_accountArgs K view recoverUntil account).bind fun _ =>
      ih.bind fun _ => Within.pure _

theorem reads_fetchSeeds (args : List AccountArgs) (seeds : List (SeedFingerprint × Seed)) :
    Within (only ImportOp.isRead RpcError) (fetchSeeds args seeds) := by
  induction args generalizing seeds with
  | nil => exact Within.pure _
  | cons a rest ih =>
    rw [fetchSeeds]
    split
    · exact ih seeds
    · exact (reads_ensureSeedIsBackedUp _).bind fun _ =>
        (only_askRpc (oneOf rfl)).bind fun seed => ih _

theorem reads_recoverPrepare (K : Codecs) (accounts : List AccountParameter) :
    Within (only ImportOp.isRead RpcError) (recoverPrepare K accounts) :=
  reads_ensureWalletIsUnlocked.bind fun _ => (only_askRpc (oneOf rfl)).bind fun view =>
    (only_askRpc (oneOf rfl)).bind fun height => (only_okOr _ height).bind fun _ =>
      (reads_allAccountArgs K view _ accounts).bind fun args =>
        (reads_fetchSeeds args []).bind fun _ => Within.pure _

theorem reads_importKeyBirthday (rescan : RescanPolicy) (startHeight : ℕ) (chainTip : Option ℕ)
    (isNewKey : Bool) :
    Within (only ImportOp.isRead RpcError)
      (importKeyBirthday rescan startHeight chainTip isNewKey) := by
  unfold importKeyBirthday
  split
  · exact (reads_fetchAccountBirthday _).bind fun _ => Within.pure _
  · exact Within.pure _

theorem setup_legacyPoolFrom (legacySeedFp : SeedFingerprint) (ids : List AccountUuid) :
    Within (only ImportOp.isSetup CommandError) (legacyPoolFrom legacySeedFp ids) := by
  induction ids with
  | nil => exact Within.throw trivial
  | cons id rest ih =>
    refine (only_liftE (oneOf rfl)).bind fun account => (only_okOr _ account).bind fun a => ?_
    split
    · exact Within.pure _
    · exact ih

theorem setup_commandAccount (legacySeedFp : Option SeedFingerprint) (account : Option AccountUuid) :
    Within (only ImportOp.isSetup CommandError) (commandAccount legacySeedFp account) := by
  cases account with
  | some uuid =>
    exact (only_liftE (oneOf rfl)).bind fun account => (only_okOr _ account).bind fun _ =>
      Within.pure _
  | none =>
    have hpool : Within (only ImportOp.isSetup CommandError) (legacyPoolAccount legacySeedFp) :=
      (only_okOr _ _).bind fun fp => (only_liftE (oneOf rfl)).bind fun ids =>
        setup_legacyPoolFrom fp ids
    exact hpool.bind fun _ => Within.pure _

/-- Every account has its seed when the imports start. -/
def HaveSeeds (args : List AccountArgs) (seeds : List (SeedFingerprint × Seed)) : Prop :=
  ∀ a ∈ args, (seeds.lookup a.seedFp).isSome

theorem fetchSeeds_haveSeeds {W : Type} {C : Contract importSig W} {rely : W → W → Prop}
    (args : List AccountArgs) (seeds : List (SeedFingerprint × Seed)) (w : W) :
    wpE C rely (fun _ _ => True)
      (fun r _ => ∀ seeds', r = .ok seeds' → HaveSeeds args seeds' ∧
        ∀ fp, (seeds.lookup fp).isSome → (seeds'.lookup fp).isSome)
      (fetchSeeds args seeds) w := by
  induction args generalizing seeds w with
  | nil =>
    intro seeds' hr
    cases hr
    exact ⟨fun a ha => absurd ha List.not_mem_nil, fun _ h => h⟩
  | cons a rest ih =>
    rw [fetchSeeds]
    split
    · rename_i seed hseed
      refine wpE_post (ih seeds w) fun r w' hr seeds' hok => ?_
      obtain ⟨hrest, hmono⟩ := hr seeds' hok
      have ha : (seeds'.lookup a.seedFp).isSome := hmono a.seedFp (by rw [hseed]; rfl)
      exact ⟨List.forall_mem_cons.mpr ⟨ha, hrest⟩, hmono⟩
    · refine wpE_bind_value fun _ w₁ => wpE_bind_value fun seed w₂ => ?_
      refine wpE_post (ih _ w₂) fun r w' hr seeds' hok => ?_
      obtain ⟨hrest, hmono⟩ := hr seeds' hok
      have hcons : ∀ fp, (seeds.lookup fp).isSome →
          (((a.seedFp, seed) :: seeds).lookup fp).isSome := by
        intro fp hfp
        rw [List.lookup_cons]
        split
        · rfl
        · exact hfp
      have ha : (seeds'.lookup a.seedFp).isSome := hmono a.seedFp (by simp)
      exact ⟨List.forall_mem_cons.mpr ⟨ha, hrest⟩, fun fp hfp => hmono fp (hcons fp hfp)⟩

theorem recoverPrepare_haveSeeds {W : Type} {C : Contract importSig W} {rely : W → W → Prop}
    (K : Codecs) (accounts : List AccountParameter) (w : W) :
    wpE C rely (fun _ _ => True) (fun r _ => ∀ prepared, r = .ok prepared →
      HaveSeeds prepared.1 prepared.2) (recoverPrepare K accounts) w := by
  refine wpE_bind_value fun _ w₁ => wpE_bind_value fun view w₂ => wpE_bind_value fun height w₃ =>
    wpE_bind_value fun recoverUntil w₄ => wpE_bind_value fun args w₅ => ?_
  rw [wpE_bind]
  refine wpE_post (fetchSeeds_haveSeeds args [] w₅) fun r w₆ hr => ?_
  cases r with
  | error e => exact fun prepared hok => by cases hok
  | ok seeds =>
    intro prepared hok
    cases hok
    exact (hr seeds rfl).1

/-! ## Failures after a write -/

/-- The address that a call tracks. -/
def importTarget (K : Codecs) : ImportOp → Option (AccountUuid × TransparentAddress)
  | .importStandaloneTransparentPubkey account pubkey => some (account, K.fromPubkey pubkey)
  | .importStandaloneTransparentScript account script =>
    some (account, .ScriptHash (K.hash160 script.code))
  | .importStandaloneTransparentAddress account address => some (account, address)
  | _ => none

/-- A step of the rescan failed: the birthday, the snapshot, the tree state or
    the rewind. -/
def rescanFailed : Event importSig → Bool
  | ⟨.getAccountBirthday _, .error _⟩ => true
  | ⟨.snapshot, .error _⟩ => true
  | ⟨.treeStateAsOf _ _, .error _⟩ => true
  | ⟨.treeStateAsOf _ _, .ok none⟩ => true
  | ⟨.rewindToChainState _, .error _⟩ => true
  | _ => false

def hdImported : Event importSig → Bool
  | ⟨.importAccountHd _ _ _ _, .ok _⟩ => true
  | _ => false

def hdFailed : Event importSig → Bool
  | ⟨.importAccountHd _ _ _ _, .error _⟩ => true
  | _ => false

/-- An account of the list was imported and the import of another failed. -/
def LateAccount (τ : List (Event importSig)) : Prop :=
  (∃ ev ∈ τ, hdImported ev = true) ∧ ∃ ev ∈ τ, hdFailed ev = true

/-- An address that was not tracked before was imported and the rescan
    failed. -/
def LateRescan (K : Codecs) (t : Tables) (τ : List (Event importSig)) : Prop :=
  (∃ ev ∈ τ, ∃ target, importTarget K ev.op = some target ∧ target ∉ t.addresses) ∧
    ∃ ev ∈ τ, rescanFailed ev = true

instance (τ : List (Event importSig)) : Decidable (LateAccount τ) :=
  inferInstanceAs (Decidable (_ ∧ _))

/-- The calls that import something. -/
inductive ImportCall
  | recoverAccounts (accounts : List AccountParameter)
  | importKey (key : String) (rescan : Option String) (startHeight : Option ℕ)
  | importViewingKey (vkey : String) (rescan : Option String) (startHeight : Option ℕ)
  | zImportAddress (account hexData : String) (rescan : Option Bool)
  | importAddress (cmd : ImportAddressCmd)
  deriving DecidableEq

/-- Run the call; `false` if it returns an error. -/
def ImportCall.prog (K : Codecs) (legacySeedFp : Option SeedFingerprint) :
    ImportCall → Prog importSig Bool
  | recoverAccounts accounts => Except.isOk <$> (Rpc.recoverAccounts K accounts).run
  | importKey key rescan startHeight => Except.isOk <$> (Rpc.importKey K key rescan startHeight).run
  | importViewingKey vkey rescan startHeight =>
    Except.isOk <$> (Rpc.importViewingKey K vkey rescan startHeight).run
  | zImportAddress account hexData rescan =>
    Except.isOk <$> (Rpc.zImportAddress K account hexData rescan).run
  | importAddress cmd => Except.isOk <$> (Rpc.importAddress K legacySeedFp cmd).run

/-- A call that fails after a committed write. -/
def ImportCall.FailsLate (K : Codecs) (t : Tables) (τ : List (Event importSig)) : ImportCall → Prop
  | recoverAccounts _ => LateAccount τ
  | importKey _ _ _ => False
  | importViewingKey _ _ _ => False
  | zImportAddress _ _ _ => LateRescan K t τ
  | importAddress _ => LateRescan K t τ

theorem isRead_of_isSetup {o : ImportOp} (ho : o.isSetup = true) : o.isRead = true := by
  cases o <;> first | rfl | cases ho

theorem hdImported_of_isRead {ev : Event importSig} (h : ev.op.isRead = true) :
    hdImported ev = false := by
  obtain ⟨o, r⟩ := ev
  cases o <;> first | rfl | cases h

theorem hdFailed_of_isRead {ev : Event importSig} (h : ev.op.isRead = true) :
    hdFailed ev = false := by
  obtain ⟨o, r⟩ := ev
  cases o <;> first | rfl | cases h

theorem importTarget_of_isRead {K : Codecs} {o : ImportOp} (h : o.isRead = true) :
    importTarget K o = none := by
  cases o <;> first | rfl | cases h

theorem rescanFailed_of_isSetup {ev : Event importSig} (h : ev.op.isSetup = true) :
    rescanFailed ev = false := by
  obtain ⟨o, r⟩ := ev
  cases o <;> first | rfl | cases h

/-- `wpE` over histories of a call that runs alone. -/
abbrev Holds {ε α : Type} (K : Codecs) (Q : Except ε α → Tables × List (Event importSig) → Prop)
    (p : ExceptT ε (Prog importSig) α) (w : Tables × List (Event importSig)) : Prop :=
  wpE (importContract K).logged (relyLogged Eq) (fun _ _ => True) Q p w

section Rules

variable {K : Codecs} {P : ImportOp → Bool} {ε δ α β : Type} {t : Tables}
  {l : List (Event importSig)}

/-- A program that only reads leaves the tables as they are. -/
theorem holds_only (hP : ∀ o, P o = true → o.isRead = true) {p : ExceptT ε (Prog importSig) α}
    (hp : Within (only P ε) p) :
    Holds K (fun _ w => w.1 = t ∧ ∃ τ, w.2 = l ++ τ ∧ ∀ ev ∈ τ, P ev.op = true) p (t, l) :=
  wpE_logged_of_within (I := (· = t)) hp rfl (fun _ _ hw hw' => hw' ▸ hw)
    fun o _ ho hw _ _ hC => ⟨trivial, (importContract_read (hP o ho) hC).trans hw⟩

/-- The rule of a first part that only reads. -/
theorem holds_bind_only (hP : ∀ o, P o = true → o.isRead = true) {p : ExceptT ε (Prog importSig) α}
    (hp : Within (only P ε) p) {f : α → ExceptT ε (Prog importSig) β}
    {Q : Except ε β → Tables × List (Event importSig) → Prop} (hl : ∀ ev ∈ l, P ev.op = true)
    (herr : ∀ e l', (∀ ev ∈ l', P ev.op = true) → Q (.error e) (t, l'))
    (hf : ∀ a l', (∀ ev ∈ l', P ev.op = true) → Holds K Q (f a) (t, l')) :
    Holds K Q (p >>= f) (t, l) := by
  rw [Holds, wpE_bind]
  refine wpE_post (holds_only hP hp) fun r w' hr => ?_
  obtain ⟨t', l'⟩ := w'
  obtain ⟨ht, τ, hτ, hops⟩ := hr
  obtain rfl : t' = t := ht
  have hl' : ∀ ev ∈ l', P ev.op = true := by
    rw [show l' = l ++ τ from hτ, List.forall_mem_append]
    exact ⟨hl, hops⟩
  cases r with
  | error e => exact herr e l' hl'
  | ok a => exact hf a l' hl'

/-- The rule of one call. -/
theorem holds_call {p : Prog importSig (Except δ α)} {o : ImportOp} {g : o.Ret → Except δ α}
    (hp : p = .op o fun r => .pure (g r)) {f : δ → ε}
    {Q : Except ε α → Tables × List (Event importSig) → Prop}
    (h : ∀ r t', importContract K o t r t' → Q ((g r).mapError f) (t', l ++ [⟨o, r⟩])) :
    Holds K Q (liftE f p) (t, l) := by
  subst hp
  rw [Holds, wpE_liftE]
  rintro ⟨t₁, l₁⟩ ⟨ht, hl⟩
  obtain rfl : t = t₁ := ht
  obtain rfl : l₁ = l := hl
  refine ⟨trivial, fun r w₂ hC => ?_⟩
  obtain ⟨t₂, l₂⟩ := w₂
  obtain ⟨hC, hl₂⟩ := hC
  obtain rfl : l₂ = l₁ ++ [⟨o, r⟩] := hl₂
  exact h r t₂ hC

theorem holds_call_bind {p : Prog importSig (Except δ α)} {o : ImportOp} {g : o.Ret → Except δ α}
    (hp : p = .op o fun r => .pure (g r)) {f : δ → ε} {k : α → ExceptT ε (Prog importSig) β}
    {Q : Except ε β → Tables × List (Event importSig) → Prop}
    (h : ∀ r t', importContract K o t r t' →
      andThen Q (fun a w => Holds K Q (k a) w) ((g r).mapError f) (t', l ++ [⟨o, r⟩])) :
    Holds K Q (liftE f p >>= k) (t, l) := by
  rw [Holds, wpE_bind]
  exact holds_call hp h

/-- Something was imported in the events `τ`, and then there are more accounts,
    or nothing was, and then nothing changed. -/
def ImportedIn (t : Tables) (τ : List (Event importSig)) (t' : Tables) : Prop :=
  if ∃ ev ∈ τ, hdImported ev = true then t.accounts.length < t'.accounts.length else t' = t

theorem Tables.Adds.length {t t' : Tables} {a : Account} (h : t.Adds a t') :
    t'.accounts.length = t.accounts.length + 1 := by
  obtain ⟨-, derived, rfl⟩ := h
  simp

/-- The loop of the imports fails exactly if one of them does. -/
theorem holds_importAccounts {seeds : List (SeedFingerprint × Seed)} (args : List AccountArgs)
    (hs : HaveSeeds args seeds) (t : Tables) (l : List (Event importSig)) :
    Holds K (fun r w => ∃ τ, w.2 = l ++ τ ∧ ImportedIn t τ w.1 ∧
      (r.isOk = false ↔ ∃ ev ∈ τ, hdFailed ev = true)) (importAccounts seeds args) (t, l) := by
  induction args generalizing t l with
  | nil =>
    refine ⟨[], (List.append_nil l).symm, ?_, ?_⟩
    · simp [ImportedIn]
    · simp [Except.isOk, Except.toBool]
  | cons a rest ih =>
    obtain ⟨ha, hrest⟩ := List.forall_mem_cons.mp hs
    obtain ⟨seed, hseed⟩ := Option.isSome_iff_exists.mp ha
    rw [importAccounts, hseed]
    refine holds_call_bind rfl fun r t₁ hC => ?_
    cases r with
    | error e =>
      obtain rfl : t₁ = t := hC
      refine ⟨[⟨.importAccountHd a.name seed a.accountIndex a.birthday, .error e⟩], rfl, ?_, ?_⟩
      · simp [ImportedIn, hdImported]
      · simp [hdFailed, Except.isOk, Except.toBool]
    | ok account =>
      have hlen : t₁.accounts.length = t.accounts.length + 1 := Tables.Adds.length hC.1
      show Holds K _ (importAccounts seeds rest >>= _) _
      rw [Holds, wpE_bind]
      refine wpE_post (ih hrest t₁ _) fun r w' hr => ?_
      obtain ⟨τ, hτ, himp, hfail⟩ := hr
      have hgrow : t.accounts.length < w'.1.accounts.length := by
        unfold ImportedIn at himp
        split at himp
        · omega
        · rw [himp]
          omega
      let ev : Event importSig :=
        ⟨.importAccountHd a.name seed a.accountIndex a.birthday, .ok account⟩
      have hτ' : w'.2 = l ++ (ev :: τ) := by rw [hτ, List.append_assoc, List.singleton_append]
      have himp' : ImportedIn t (ev :: τ) w'.1 := by
        unfold ImportedIn
        rw [if_pos ⟨_, List.mem_cons_self, rfl⟩]
        exact hgrow
      have hfail' : r.isOk = false ↔ ∃ ev' ∈ ev :: τ, hdFailed ev' = true := by
        rw [hfail]
        simp [ev, hdFailed]
      cases r with
      | error e => exact ⟨_, hτ', himp', hfail'⟩
      | ok ids => exact ⟨_, hτ', himp', hfail'⟩

/-- The events of a rescan that has failed, or not. -/
structure RescanLog (K : Codecs) (failed : Bool) (τ : List (Event importSig)) : Prop where
  failed_iff : failed = true ↔ ∃ ev ∈ τ, rescanFailed ev = true
  target : ∀ ev ∈ τ, importTarget K ev.op = none

theorem RescanLog.nil : RescanLog K false [] := ⟨by simp, by simp⟩

theorem RescanLog.snoc {τ : List (Event importSig)} (h : RescanLog K false τ) (ev : Event importSig)
    (hev : importTarget K ev.op = none) : RescanLog K (rescanFailed ev) (τ ++ [ev]) := by
  have hτ : ∀ ev ∈ τ, rescanFailed ev = false := by simpa using h.failed_iff
  constructor
  · constructor
    · intro hfail
      exact ⟨ev, List.mem_append_right _ List.mem_cons_self, hfail⟩
    · rintro ⟨ev', hev', hfail⟩
      rcases List.mem_append.mp hev' with h₁ | h₁
      · rw [hτ ev' h₁] at hfail
        cases hfail
      · rwa [List.mem_singleton.mp h₁] at hfail
  · rw [List.forall_mem_append, List.forall_mem_singleton]
    exact ⟨h.target, hev⟩

/-- The rescan writes nothing to the tables, and fails exactly if one of its
    steps does. -/
theorem holds_rescan {dbError chainError rewindError : String → ε} {noChainState : ε}
    (account : AccountUuid) :
    Holds K (fun r w => w.1 = t ∧ ∃ τ, w.2 = l ++ τ ∧ RescanLog K (!r.isOk) τ)
      (rescan dbError chainError noChainState rewindError account) (t, l) := by
  refine holds_call_bind rfl fun r t₁ hC => ?_
  obtain rfl : t₁ = t := hC
  have h₁ := RescanLog.nil.snoc (K := K) ⟨.getAccountBirthday account, r⟩ rfl
  cases r with
  | error e => exact ⟨rfl, _, rfl, h₁⟩
  | ok birthday =>
  refine holds_call_bind rfl fun r t₂ hC => ?_
  obtain rfl : t₂ = t₁ := hC
  have h₂ := h₁.snoc ⟨.snapshot, r⟩ rfl
  cases r with
  | error e => exact ⟨rfl, _, List.append_assoc _ _ _, h₂⟩
  | ok view =>
  refine holds_call_bind rfl fun r t₃ hC => ?_
  obtain rfl : t₃ = t₂ := hC
  rw [List.append_assoc, List.append_assoc]
  cases r with
  | error e => exact ⟨rfl, _, rfl, h₂.snoc ⟨.treeStateAsOf view (birthday - 1), .error e⟩ rfl⟩
  | ok state =>
  have h₃ := h₂.snoc ⟨.treeStateAsOf view (birthday - 1), .ok state⟩ rfl
  cases state with
  | none => exact ⟨rfl, _, rfl, h₃⟩
  | some state =>
  refine holds_call rfl fun r t₄ hC => ?_
  obtain rfl : t₄ = t₃ := hC
  have h₄ := h₃.snoc ⟨.rewindToChainState state, r⟩ rfl
  rw [List.append_assoc]
  cases r with
  | error e => exact ⟨rfl, _, rfl, h₄⟩
  | ok _ => exact ⟨rfl, _, rfl, h₄⟩

/-- The import of one address: `w` if it starts in `t` with history `l`. -/
def AddressImported (K : Codecs) (t : Tables) (l : List (Event importSig)) (ok : Bool)
    (w : Tables × List (Event importSig)) : Prop :=
  ∃ ev target, importTarget K ev.op = some target ∧ w.2 = l ++ [ev] ∧
    w.1 = if ok then t.track target.1 target.2 else t

theorem holds_importParsed {dbError : String → ε} (account : AccountUuid) (parsed : ParsedImport) :
    Holds K (fun r w => AddressImported K t l r.isOk w) (importParsed dbError account parsed)
      (t, l) := by
  cases parsed with
  | P2pkh pubkey result =>
    refine holds_call_bind rfl fun r t₁ hC => ?_
    cases r with
    | error e => exact ⟨_, _, rfl, rfl, hC⟩
    | ok _ => exact ⟨_, (account, K.fromPubkey pubkey), rfl, rfl, hC.2⟩
  | P2sh script result =>
    refine holds_call_bind rfl fun r t₁ hC => ?_
    cases r with
    | error e => exact ⟨_, _, rfl, rfl, hC⟩
    | ok _ => exact ⟨_, (account, .ScriptHash (K.hash160 script.code)), rfl, rfl, hC.2⟩

theorem holds_importData (account : AccountUuid) (data : ImportData) :
    Holds K (fun r w => AddressImported K t l r.isOk w) (importData K account data) (t, l) := by
  cases data with
  | KeyMaterial parsed => exact holds_importParsed account parsed
  | Address address =>
    refine holds_call_bind rfl fun r t₁ hC => ?_
    cases r with
    | error e => exact ⟨_, _, rfl, rfl, hC⟩
    | ok _ => exact ⟨_, (account, address), rfl, rfl, hC.2⟩

end Rules

theorem Tables.track_eq_iff (t : Tables) (account : AccountUuid) (address : TransparentAddress) :
    t.track account address = t ↔ (account, address) ∈ t.addresses := by
  unfold Tables.track
  split
  · rename_i h
    exact iff_of_true rfl h
  · rename_i h
    refine iff_of_false (fun heq => ?_) h
    have hlen := congrArg (fun t => t.addresses.length) heq
    simp at hlen

theorem rescanFailed_of_importTarget {K : Codecs} {ev : Event importSig}
    {target : AccountUuid × TransparentAddress} (h : importTarget K ev.op = some target) :
    rescanFailed ev = false := by
  obtain ⟨o, r⟩ := ev
  cases o <;> first | rfl | cases h

/-- After the setup and one import, only the rescan can fail late. -/
theorem lateRescan_iff {K : Codecs} {t : Tables} {l τ : List (Event importSig)}
    {ev : Event importSig} {target : AccountUuid × TransparentAddress} {failed : Bool}
    (hl : ∀ ev ∈ l, ev.op.isSetup = true) (hev : importTarget K ev.op = some target)
    (hτ : RescanLog K failed τ) :
    LateRescan K t (l ++ [ev] ++ τ) ↔ target ∉ t.addresses ∧ failed = true := by
  have htarget : (∃ ev' ∈ l ++ [ev] ++ τ, ∃ x, importTarget K ev'.op = some x ∧ x ∉ t.addresses) ↔
      target ∉ t.addresses := by
    constructor
    · rintro ⟨ev', hmem, x, hx, hnot⟩
      simp only [List.mem_append, List.mem_singleton] at hmem
      rcases hmem with (h₁ | rfl) | h₁
      · rw [importTarget_of_isRead (isRead_of_isSetup (hl ev' h₁))] at hx
        cases hx
      · rw [hev] at hx
        cases hx
        exact hnot
      · rw [hτ.target ev' h₁] at hx
        cases hx
    · intro hnot
      exact ⟨ev, by simp, target, hev, hnot⟩
  have hfailed : (∃ ev' ∈ l ++ [ev] ++ τ, rescanFailed ev' = true) ↔ failed = true := by
    rw [hτ.failed_iff]
    constructor
    · rintro ⟨ev', hmem, hfail⟩
      simp only [List.mem_append, List.mem_singleton] at hmem
      rcases hmem with (h₁ | rfl) | h₁
      · rw [rescanFailed_of_isSetup (hl ev' h₁)] at hfail
        cases hfail
      · rw [rescanFailed_of_importTarget hev] at hfail
        cases hfail
      · exact ⟨ev', h₁, hfail⟩
    · rintro ⟨ev', h₁, hfail⟩
      exact ⟨ev', List.mem_append_right _ h₁, hfail⟩
  unfold LateRescan
  rw [htarget, hfailed]

theorem importedIn_eq_iff {t t' : Tables} {τ : List (Event importSig)} (h : ImportedIn t τ t') :
    t' = t ↔ ¬ ∃ ev ∈ τ, hdImported ev = true := by
  unfold ImportedIn at h
  split at h
  · rename_i himp
    refine iff_of_false (fun heq => ?_) (not_not_intro himp)
    rw [heq] at h
    exact lt_irrefl _ h
  · rename_i himp
    exact iff_of_true h himp

/-- An event that `l` does not have is one of the rest. -/
theorem mem_tail {f : Event importSig → Bool} {l τ : List (Event importSig)}
    (hl : ∀ ev ∈ l, f ev = false) : (∃ ev ∈ l ++ τ, f ev = true) ↔ ∃ ev ∈ τ, f ev = true := by
  constructor
  · rintro ⟨ev, hev, h⟩
    rcases List.mem_append.mp hev with h₁ | h₁
    · rw [hl ev h₁] at h
      cases h
    · exact ⟨ev, h₁, h⟩
  · rintro ⟨ev, hev, h⟩
    exact ⟨ev, List.mem_append_right _ hev, h⟩

/-! ## The calls -/

section Calls

variable {K : Codecs} {t : Tables}

theorem holds_reloadKeys {l : List (Event importSig)} :
    Holds K (fun r w => r = .ok () ∧ ∃ r', w.2 = l ++ [⟨.reloadKeys, r'⟩]) reloadKeys (t, l) := by
  rintro ⟨t₁, l₁⟩ ⟨ht, hl⟩
  refine ⟨trivial, fun r w hC => ⟨rfl, r, ?_⟩⟩
  rw [hC.2]
  exact congrArg (· ++ _) hl

theorem holds_recoverAccounts (accounts : List AccountParameter) :
    Holds K (fun r w => (r.isOk = false → w.1 = t) ↔ ¬ LateAccount w.2) (recoverAccounts K accounts)
      (t, []) := by
  have hreads := holds_only (K := K) (t := t) (l := []) (fun _ h => h)
    (reads_recoverPrepare K accounts)
  rw [Holds, recoverAccounts, wpE_bind]
  refine wpE_post (wp_and hreads (recoverPrepare_haveSeeds K accounts _)) fun r w hr => ?_
  obtain ⟨t₁, l⟩ := w
  obtain ⟨⟨ht, τ, hτ, hops⟩, hseeds⟩ := hr
  obtain rfl : t₁ = t := ht
  obtain rfl : l = τ := hτ
  have himported : ∀ ev ∈ l, hdImported ev = false :=
    fun ev hev => hdImported_of_isRead (hops ev hev)
  have hfailed : ∀ ev ∈ l, hdFailed ev = false := fun ev hev => hdFailed_of_isRead (hops ev hev)
  cases r with
  | error e =>
    refine iff_of_true (fun _ => rfl) ?_
    rintro ⟨⟨ev, hev, h⟩, -⟩
    rw [himported ev hev] at h
    cases h
  | ok prepared =>
    obtain ⟨args, seeds⟩ := prepared
    show wpE _ _ _ _ (importAccounts seeds args >>= _) _
    rw [wpE_bind]
    refine wpE_post (holds_importAccounts args (hseeds _ rfl) t₁ l) fun r w hr => ?_
    obtain ⟨t₂, l₂⟩ := w
    obtain ⟨τ, hτ, himp, hfail⟩ := hr
    obtain rfl : l₂ = l ++ τ := hτ
    cases r with
    | error e =>
      have hlate : LateAccount (l ++ τ) ↔ ∃ ev ∈ τ, hdImported ev = true :=
        ⟨fun h => (mem_tail himported).mp h.1,
          fun h => ⟨(mem_tail himported).mpr h, (mem_tail hfailed).mpr (hfail.mp rfl)⟩⟩
      have hsame : t₂ = t₁ ↔ ¬ ∃ ev ∈ τ, hdImported ev = true := importedIn_eq_iff himp
      show (_ → t₂ = t₁) ↔ ¬ LateAccount (l ++ τ)
      rw [hlate, hsame]
      exact forall_prop_of_true rfl
    | ok ids =>
      have hnone : ¬ ∃ ev ∈ τ, hdFailed ev = true := fun h => by cases hfail.mpr h
      rw [andThen_ok, wpE_bind]
      refine wpE_post holds_reloadKeys fun r w hr => ?_
      obtain ⟨rfl, r', hw⟩ := hr
      refine iff_of_true (fun h => by cases h) fun hlate => ?_
      obtain ⟨-, ev, hev, h⟩ := hlate
      rw [hw, List.mem_append, List.mem_singleton] at hev
      rcases hev with hev | rfl
      · exact hnone ((mem_tail hfailed).mp ⟨ev, hev, h⟩)
      · cases h

/-- A call that made only setup calls so far has not failed late. -/
theorem not_lateRescan {l : List (Event importSig)} (hl : ∀ ev ∈ l, ev.op.isSetup = true) :
    ¬ LateRescan K t l := by
  rintro ⟨⟨ev, hev, target, htarget, -⟩, -⟩
  rw [importTarget_of_isRead (isRead_of_isSetup (hl ev hev))] at htarget
  cases htarget

/-- An address import without a rescan does not fail late. -/
theorem settled_import {l : List (Event importSig)} {ok : Bool} {w : Tables × List (Event importSig)}
    (hl : ∀ ev ∈ l, ev.op.isSetup = true) (h : AddressImported K t l ok w) :
    (ok = false → w.1 = t) ↔ ¬ LateRescan K t w.2 := by
  obtain ⟨ev, target, hev, hw, htables⟩ := h
  have hlate := lateRescan_iff (t := t) hl hev RescanLog.nil
  rw [List.append_nil, ← hw] at hlate
  refine iff_of_true (fun hok => ?_) (by simp [hlate])
  rw [htables, hok]
  rfl

/-- An address import and its rescan. -/
theorem settled_rescan {l τ : List (Event importSig)} (ok : Bool)
    {w w' : Tables × List (Event importSig)} (hl : ∀ ev ∈ l, ev.op.isSetup = true)
    (h : AddressImported K t l true w) (hw' : w'.1 = w.1) (hτ : w'.2 = w.2 ++ τ)
    (hlog : RescanLog K (!ok) τ) : (ok = false → w'.1 = t) ↔ ¬ LateRescan K t w'.2 := by
  obtain ⟨ev, target, hev, hw, htables⟩ := h
  have htables' : w'.1 = t.track target.1 target.2 := hw'.trans htables
  rw [hτ, hw, lateRescan_iff hl hev hlog, htables', Tables.track_eq_iff]
  cases ok <;> simp

theorem holds_zImportAddress (account hexData : String) (wantRescan : Option Bool) :
    Holds K (fun r w => (r.isOk = false → w.1 = t) ↔ ¬ LateRescan K t w.2)
      (zImportAddress K account hexData wantRescan) (t, []) := by
  have hl : ∀ ev ∈ ([] : List (Event importSig)), ev.op.isSetup = true :=
    fun ev hev => absurd hev List.not_mem_nil
  unfold zImportAddress
  cases K.parseUuid account with
  | none => exact iff_of_true (fun _ => rfl) (not_lateRescan hl)
  | some accountId =>
  cases parseImport K hexData with
  | error e => exact iff_of_true (fun _ => rfl) (not_lateRescan hl)
  | ok parsed =>
  show wpE _ _ _ _ (importParsed _ accountId parsed >>= _) _
  rw [wpE_bind]
  refine wpE_post (holds_importParsed accountId parsed) fun r w hr => ?_
  cases r with
  | error e => exact settled_import hl hr
  | ok result =>
  rw [andThen_ok]
  split
  · show wpE _ _ _ _ (rescan _ _ _ _ accountId >>= _) _
    rw [wpE_bind]
    refine wpE_post (holds_rescan accountId) fun r w' hr' => ?_
    obtain ⟨hw', τ, hτ, hlog⟩ := hr'
    cases r with
    | error e => exact settled_rescan false hl hr hw' hτ hlog
    | ok _ => exact settled_rescan true hl hr hw' hτ hlog
  · exact settled_import hl hr

theorem holds_importAddress (legacySeedFp : Option SeedFingerprint) (cmd : ImportAddressCmd) :
    Holds K (fun r w => (r.isOk = false → w.1 = t) ↔ ¬ LateRescan K t w.2)
      (importAddress K legacySeedFp cmd) (t, []) := by
  have hsetup : ∀ o : ImportOp, o.isSetup = true → o.isRead = true := fun _ => isRead_of_isSetup
  have herr : ∀ (e : CommandError) (l : List (Event importSig)),
      (∀ ev ∈ l, ev.op.isSetup = true) →
      (((.error e : Except CommandError ImportedAddress).isOk = false → t = t) ↔
        ¬ LateRescan K t l) :=
    fun _ _ hl => iff_of_true (fun _ => rfl) (not_lateRescan hl)
  refine holds_bind_only hsetup (only_liftE (oneOf rfl)) (by simp) herr fun _ l₁ hl₁ => ?_
  refine holds_bind_only hsetup (only_liftE (oneOf rfl)) hl₁ herr fun _ l₂ hl₂ => ?_
  refine holds_bind_only hsetup (setup_commandAccount _ _) hl₂ herr fun account l₃ hl₃ => ?_
  refine holds_bind_only hsetup (only_mapErr _ _) hl₃ herr fun data l₄ hl₄ => ?_
  split
  · exact wpE_post (holds_importData account data) fun r w hr => settled_import hl₄ hr
  · refine holds_bind_only hsetup (only_liftE (oneOf rfl)) hl₄ herr fun _ l₅ hl₅ => ?_
    rw [Holds, wpE_bind]
    refine wpE_post (holds_importData account data) fun r w hr => ?_
    cases r with
    | error e => exact settled_import hl₅ hr
    | ok result =>
      rw [andThen_ok, wpE_bind]
      refine wpE_post (holds_rescan account) fun r w' hr' => ?_
      obtain ⟨hw', τ, hτ, hlog⟩ := hr'
      cases r with
      | error e => exact settled_rescan false hl₅ hr hw' hτ hlog
      | ok _ => exact settled_rescan true hl₅ hr hw' hτ hlog

theorem holds_importKey (key : String) (rescan : Option String) (startHeight : Option ℕ) :
    Holds K (fun r w => r.isOk = false → w.1 = t) (importKey K key rescan startHeight) (t, []) := by
  have hread : ∀ o : ImportOp, o.isRead = true → o.isRead = true := fun _ h => h
  have herr : ∀ (e : RpcError) (l : List (Event importSig)), (∀ ev ∈ l, ev.op.isRead = true) →
      (.error e : Except RpcError String).isOk = false → t = t := fun _ _ _ _ => rfl
  refine holds_bind_only hread (only_mapErr _ _) (by simp) herr fun rescan l₁ hl₁ => ?_
  refine holds_bind_only hread (only_mapErr _ _) hl₁ herr fun startHeight l₂ hl₂ => ?_
  refine holds_bind_only hread (only_askRpc (oneOf rfl)) hl₂ herr fun chainTip l₃ hl₃ => ?_
  split
  · exact fun _ => rfl
  · refine holds_bind_only hread (only_mapErr _ _) hl₃ herr fun decoded l₄ hl₄ => ?_
    refine holds_bind_only hread (only_askRpc (oneOf rfl)) hl₄ herr fun encrypted l₅ hl₅ => ?_
    refine holds_bind_only hread (only_mapErr _ _) hl₅ herr fun ufvk l₆ hl₆ => ?_
    refine holds_bind_only hread (only_askRpc (oneOf rfl)) hl₆ herr fun existing l₇ hl₇ => ?_
    refine holds_bind_only hread (reads_importKeyBirthday _ _ _ _) hl₇ herr fun birthday l₈ _ => ?_
    refine holds_call_bind rfl fun r t₁ hC => ?_
    cases r with
    | error e => exact fun _ => hC
    | ok _ =>
      -- What follows the transaction cannot fail.
      show Holds K _ (reloadKeys >>= _) _
      rw [Holds, wpE_bind]
      refine wpE_post holds_reloadKeys fun r w hr => ?_
      obtain ⟨rfl, -⟩ := hr
      exact fun h => by cases h

theorem holds_importUfvk {l : List (Event importSig)} (address : String) (ufvk : Ufvk)
    (rescan : RescanPolicy) (startHeight chainTip : Option ℕ) (existing : Option Account)
    (hl : ∀ ev ∈ l, ev.op.isRead = true) :
    Holds K (fun r w => r.isOk = false → w.1 = t)
      (importUfvk address ufvk rescan startHeight chainTip existing) (t, l) := by
  cases existing with
  | some account =>
    rw [importUfvk]
    cases account.source.purpose with
    | Spending derivation => exact fun _ => rfl
    | ViewOnly => exact fun _ => rfl
  | none =>
    refine holds_bind_only (fun _ h => h) (reads_fetchAccountBirthday _) hl (fun _ _ _ _ => rfl)
      fun birthday l₁ _ => ?_
    refine holds_call_bind rfl fun r t₁ hC => ?_
    cases r with
    | error e => exact fun _ => hC
    | ok _ => exact fun h => by cases h

theorem holds_importViewingKey (vkey : String) (rescan : Option String) (startHeight : Option ℕ) :
    Holds K (fun r w => r.isOk = false → w.1 = t) (importViewingKey K vkey rescan startHeight)
      (t, []) := by
  have hread : ∀ o : ImportOp, o.isRead = true → o.isRead = true := fun _ h => h
  have herr : ∀ (e : RpcError) (l : List (Event importSig)), (∀ ev ∈ l, ev.op.isRead = true) →
      (.error e : Except RpcError String).isOk = false → t = t := fun _ _ _ _ => rfl
  refine holds_bind_only hread (only_mapErr _ _) (by simp) herr fun rescan l₁ hl₁ => ?_
  refine holds_bind_only hread (only_mapErr _ _) hl₁ herr fun startHeight l₂ hl₂ => ?_
  refine holds_bind_only hread (only_askRpc (oneOf rfl)) hl₂ herr fun chainTip l₃ hl₃ => ?_
  split
  · exact fun _ => rfl
  · refine holds_bind_only hread (only_mapErr _ _) hl₃ herr fun decoded l₄ hl₄ => ?_
    refine holds_bind_only hread (only_mapErr _ _) hl₄ herr fun ufvk l₅ hl₅ => ?_
    refine holds_bind_only hread (only_askRpc (oneOf rfl)) hl₅ herr fun existing l₆ hl₆ => ?_
    rw [Holds, wpE_bind]
    refine wpE_post (holds_importUfvk decoded.2 ufvk rescan startHeight chainTip existing hl₆)
      fun r w hr => ?_
    cases r with
    | error e => exact hr
    | ok _ => exact fun h => by cases h

end Calls

/-- What `Holds` says about the runs of a call. -/
theorem holds_run {K : Codecs} {ε α : Type} {p : ExceptT ε (Prog importSig) α} {t t' : Tables}
    {τ : List (Event importSig)} {ok : Bool} {Q : Bool → Tables × List (Event importSig) → Prop}
    (h : Holds K (fun r w => Q r.isOk w) p (t, []))
    (hrun : Run (importContract K) (Except.isOk <$> p.run) t τ ok t') : Q ok (t', τ) :=
  wp_run_logged (l := []) ((wp_map _ _ _).mpr h) (Reaches.alone hrun)

/-- An import that returns an error has left the accounts, the tracked
    addresses and the stored keys as they were if and only if it did not fail
    after a committed write. -/
theorem import_unchanged_iff (K : Codecs) (legacySeedFp : Option SeedFingerprint) (c : ImportCall)
    {t t' : Tables} {τ : List (Event importSig)} {ok : Bool}
    (hrun : Run (importContract K) (c.prog K legacySeedFp) t τ ok t') :
    (ok = false → t' = t) ↔ ¬ c.FailsLate K t τ := by
  cases c with
  | recoverAccounts accounts =>
    exact holds_run (Q := fun ok w => (ok = false → w.1 = t) ↔ ¬ LateAccount w.2)
      (holds_recoverAccounts accounts) hrun
  | importKey key rescan startHeight =>
    have h := holds_run (Q := fun ok w => ok = false → w.1 = t)
      (holds_importKey key rescan startHeight) hrun
    exact iff_of_true h id
  | importViewingKey vkey rescan startHeight =>
    have h := holds_run (Q := fun ok w => ok = false → w.1 = t)
      (holds_importViewingKey vkey rescan startHeight) hrun
    exact iff_of_true h id
  | zImportAddress account hexData rescan =>
    exact holds_run (Q := fun ok w => (ok = false → w.1 = t) ↔ ¬ LateRescan K t w.2)
      (holds_zImportAddress account hexData rescan) hrun
  | importAddress cmd =>
    exact holds_run (Q := fun ok w => (ok = false → w.1 = t) ↔ ¬ LateRescan K t w.2)
      (holds_importAddress legacySeedFp cmd) hrun

/-! ## An import whose rescan fails -/

/-- A public key in hex (z_import_address.rs, lines 201–202). -/
def pubkeyHex : String := "03b0da749730dc9b4b1f4a14d6902877a92541f5368778853d9c4a0cb7802dcfb2"

/-- Its bytes. -/
def pubkeyBytes : List UInt8 :=
  [3, 176, 218, 116, 151, 48, 220, 155, 75, 31, 74, 20, 214, 144, 40, 119, 169, 37, 65, 245, 54, 135,
    120, 133, 61, 156, 74, 12, 183, 128, 45, 207, 178]

/-- The codecs on `pubkeyHex`, whose address on mainnet is
    `t1SRgDBrpcd4LNMUhGbBfh8S8rs7G335v6R`. -/
def pubkeyCodecs : Codecs where
  parseUuid text :=
    if text = "00000000-0000-4000-8000-000000000001" then some 0x40008000000000000001 else none
  parseSeedFingerprint _ := .error "Invalid"
  hexDecode text := if text = pubkeyHex then some pubkeyBytes else none
  publicKeyFromSlice bytes := if bytes = pubkeyBytes then some ⟨bytes⟩ else none
  fromPubkey _ := .PublicKeyHash 0x5dd1d3a048119c27b28293056724d9522f26d945
  hash160 _ := 0x5dd1d3a048119c27b28293056724d9522f26d945
  parseRedeem _ := none
  encodeAddress _ := "t1SRgDBrpcd4LNMUhGbBfh8S8rs7G335v6R"
  decodeAddress _ := none
  decodeExtendedSpendingKey _ := .error "Invalid"
  decodeExtendedFullViewingKey _ := .error "Invalid"
  toExtendedFullViewingKey extsk := ⟨extsk.bytes⟩
  defaultAddress _ := ""
  fromSaplingExtendedFullViewingKey _ := .error "Invalid"
  seedFingerprint seed := ⟨seed.bytes⟩

/-- A wallet with one account and the given tracked addresses. -/
def oneAccount (addresses : List (AccountUuid × TransparentAddress)) : Tables where
  accounts :=
    [⟨0x40008000000000000001, "main", .Derived ⟨⟨[1]⟩, 0⟩, ⟨"uview1"⟩, 419200⟩]
  addresses := addresses
  saplingKeys := []

/-- A chain backend that is not reachable. -/
def noBackend (K : Codecs) : Handler importSig Tables
  | .importStandaloneTransparentPubkey account pubkey, t =>
    if account ∈ t.accounts.map (·.id) then
      some (.ok (), t.track account (K.fromPubkey pubkey)) else none
  | .getAccountBirthday _, t => some (.ok 419200, t)
  | .snapshot, t => some (.error "connection refused", t)
  | _, _ => none

theorem noBackend_keeps (K : Codecs) : (noBackend K).Keeps (importContract K) id := by
  intro o t r t' h
  cases o with
  | importStandaloneTransparentPubkey account pubkey =>
    by_cases hmem : account ∈ t.accounts.map (·.id)
    · have h' := (if_pos hmem).symm.trans h
      cases h'
      exact ⟨hmem, rfl⟩
    · cases (if_neg hmem).symm.trans h
  | getAccountBirthday account =>
    cases h
    rfl
  | snapshot =>
    cases h
    rfl
  | _ => cases h

/-- `z_importaddress` with the default rescan. -/
def importPubkey : ImportCall :=
  .zImportAddress "00000000-0000-4000-8000-000000000001" pubkeyHex none

/-- The call fails on an address the account tracks already, and nothing
    changes. -/
theorem import_unchanged_tracked : ∃ τ t',
    Run (importContract pubkeyCodecs) (importPubkey.prog pubkeyCodecs none)
      (oneAccount [(0x40008000000000000001, pubkeyCodecs.fromPubkey ⟨pubkeyBytes⟩)]) τ false t' ∧
    t' = oneAccount [(0x40008000000000000001, pubkeyCodecs.fromPubkey ⟨pubkeyBytes⟩)] := by
  have hrun := exec_run (noBackend_keeps pubkeyCodecs) (n := 10)
    (p := importPubkey.prog pubkeyCodecs none)
    (s := oneAccount [(0x40008000000000000001, pubkeyCodecs.fromPubkey ⟨pubkeyBytes⟩)]) (a := false)
    (by decide +kernel)
  refine ⟨_, _, hrun, (import_unchanged_iff _ _ _ hrun).mpr ?_ rfl⟩
  rintro ⟨⟨ev, hev, target, htarget, hnot⟩, -⟩
  have hall : ∀ ev ∈ (exec (noBackend pubkeyCodecs) 10 (importPubkey.prog pubkeyCodecs none)
      (oneAccount [(0x40008000000000000001, pubkeyCodecs.fromPubkey ⟨pubkeyBytes⟩)])).1,
      ∀ target ∈ importTarget pubkeyCodecs ev.op,
        target ∈
          (oneAccount [(0x40008000000000000001, pubkeyCodecs.fromPubkey ⟨pubkeyBytes⟩)]).addresses := by
    decide +kernel
  exact hnot (hall ev hev target htarget)

/-- The call fails after it has started to track the address. -/
theorem import_partial : ∃ τ t',
    Run (importContract pubkeyCodecs) (importPubkey.prog pubkeyCodecs none) (oneAccount []) τ false
        t' ∧
    t' ≠ oneAccount [] := by
  have hrun := exec_run (noBackend_keeps pubkeyCodecs) (n := 10)
    (p := importPubkey.prog pubkeyCodecs none) (s := oneAccount []) (a := false) (by decide +kernel)
  refine ⟨_, _, hrun, ?_⟩
  show (exec (noBackend pubkeyCodecs) 10 (importPubkey.prog pubkeyCodecs none) (oneAccount [])).2.2 ≠
    oneAccount []
  decide +kernel

end Zallet.Rpc
