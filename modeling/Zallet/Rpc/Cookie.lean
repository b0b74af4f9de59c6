import Mathlib.Logic.Relation
import Zallet.Migrate.ZcashConf
import Zallet.Rpc.Authorization

/-!
# The cookie file

A server writes its cookie to `.cookie` in the data directory, where local clients
read it (`json_rpc/server/cookie.rs`): it writes `.cookie.tmp`, renames that, and
keeps a guard that deletes `.cookie` when it is dropped. The lock on the data
directory (`commands.rs`, lines 62–101) keeps a second server out, but the lock and
the guard belong to different tasks, and the guard may be dropped after the lock.

* `Act`: what one process does, crashes and failing file operations included.
* `Inv`, `Step.inv`: what holds in every interleaving of any number of processes.
* `clientHeader`: the header that `zallet rpc` sends (`commands/rpc_cli.rs`, lines 74–104).
* `cookie_protocol`: the cookie is whole, and it is that of the serving process unless an
  earlier one has deleted it late; then a client of the same configuration is let in.
-/

namespace Zallet.Rpc.Cookie

open Zallet.Common Zallet.Common.Text
open Zallet.Common.Trim (trim trim_eq_self)
open Zallet.Common.Loop (exists_of_mem_right)
open Zallet.Migrate.ZcashConf (isWhitespace)

/-! ## The protocol -/

/-- What a server writes, of its 32 random bytes. -/
def cookieText (password : List UInt8) : List Char := COOKIE_USER ++ ':' :: Base64.encode password

/-- The files in the data directory. `deleted` records whether a process has deleted
    the cookie of another one since it was written. -/
structure Datadir (P : Type) where
  lock : Option P
  cookie : Option (List Char)
  tmp : Option (List Char)
  deleted : Bool

/-- Where a process is between two file operations. -/
inductive Phase
  | stopped
  /-- The lock is held and the leftover temporary file is about to be deleted. -/
  | removing (password : List UInt8)
  | creating (password : List UInt8)
  | writing (password : List UInt8) (rest : List Char)
  | moving (password : List UInt8)
  /-- The temporary file is about to be deleted after a failure. -/
  | cleaning
  /-- The guard of the cookie is held. -/
  | serving (password : List UInt8)
  /-- Only the lock is still held. -/
  | finishing
  /-- The guard is still held, but the lock is not. -/
  | unlocked (password : List UInt8)

/-- The process holds the lock. -/
def Phase.Locks : Phase → Prop
  | stopped => False
  | unlocked _ => False
  | _ => True

section protocol

variable {P : Type} [DecidableEq P]

/-- The lock of a process that ends is released. -/
def Datadir.release (d : Datadir P) (p : P) : Datadir P :=
  if d.lock = some p then { d with lock := none } else d

/-- One file operation of process `p`, or its end. -/
inductive Act (p : P) : Phase → Datadir P → Phase → Datadir P → Prop
  | lock {d : Datadir P} (password : List UInt8) : d.lock = none →
      Act p .stopped d (.removing password) { d with lock := some p }
  /-- Starting up fails before the cookie is written. -/
  | abandon {d : Datadir P} {password : List UInt8} : Act p (.removing password) d .finishing d
  | removeTmp {d : Datadir P} {password : List UInt8} :
      Act p (.removing password) d (.creating password) { d with tmp := none }
  | removeTmpFails {d : Datadir P} {password : List UInt8} :
      Act p (.removing password) d (.creating password) d
  | create {d : Datadir P} {password : List UInt8} : d.tmp = none →
      Act p (.creating password) d (.writing password (cookieText password))
        { d with tmp := some [] }
  | createFails {d : Datadir P} {password : List UInt8} : Act p (.creating password) d .finishing d
  | write {d : Datadir P} {password : List UInt8} {written now rest : List Char} :
      d.tmp = some written →
      Act p (.writing password (now ++ rest)) d (.writing password rest)
        { d with tmp := some (written ++ now) }
  | written {d : Datadir P} {password : List UInt8} :
      Act p (.writing password []) d (.moving password) d
  | writeFails {d : Datadir P} {password : List UInt8} {rest : List Char} :
      Act p (.writing password rest) d .cleaning d
  | rename {d : Datadir P} {password : List UInt8} {content : List Char} : d.tmp = some content →
      Act p (.moving password) d (.serving password)
        { d with cookie := some content, tmp := none, deleted := false }
  | renameFails {d : Datadir P} {password : List UInt8} : Act p (.moving password) d .cleaning d
  | clean {d : Datadir P} : Act p .cleaning d .finishing { d with tmp := none }
  | cleanFails {d : Datadir P} : Act p .cleaning d .finishing d
  | dropGuard {d : Datadir P} {password : List UInt8} :
      Act p (.serving password) d .finishing { d with cookie := none }
  | dropGuardFails {d : Datadir P} {password : List UInt8} : Act p (.serving password) d .finishing d
  | unlock {d : Datadir P} : Act p .finishing d .stopped (d.release p)
  /-- The lock is dropped first, since the task with the guard has only been aborted. -/
  | unlockFirst {d : Datadir P} {password : List UInt8} :
      Act p (.serving password) d (.unlocked password) (d.release p)
  | dropGuardLate {d : Datadir P} {password : List UInt8} :
      Act p (.unlocked password) d .stopped { d with cookie := none, deleted := true }
  | dropGuardLateFails {d : Datadir P} {password : List UInt8} :
      Act p (.unlocked password) d .stopped d
  | crash {d : Datadir P} {phase : Phase} : Act p phase d .stopped (d.release p)

/-- The data directory and the processes. -/
structure State (P : Type) where
  dir : Datadir P
  phase : P → Phase

/-- No process has run. -/
def State.fresh : State P := ⟨⟨none, none, none, false⟩, fun _ => .stopped⟩

/-- Some process takes a step. -/
def Step (s s' : State P) : Prop :=
  ∃ p phase, Act p (s.phase p) s.dir phase s'.dir ∧ s'.phase = Function.update s.phase p phase

def Reach : State P → State P → Prop := Relation.ReflTransGen Step

/-- What the process relies on in its phase. -/
def Phase.Relies (d : Datadir P) : Phase → Prop
  | writing password rest => ∃ written, d.tmp = some written ∧ written ++ rest = cookieText password
  | moving password => d.tmp = some (cookieText password)
  | serving password => d.cookie = if d.deleted then none else some (cookieText password)
  | _ => True

/-- The invariant of all processes. -/
structure Inv (s : State P) : Prop where
  locks : ∀ p, (s.phase p).Locks ↔ s.dir.lock = some p
  relies : ∀ p, (s.phase p).Relies s.dir
  whole : ∀ t, s.dir.cookie = some t → ∃ password, t = cookieText password

variable {p q : P} {phase phase' : Phase} {d d' : Datadir P} {s s' : State P}

/-- A process that acts holds the lock exactly if the lock says so. -/
theorem Act.locks (h : Act p phase d phase' d') (hp : phase.Locks ↔ d.lock = some p) :
    phase'.Locks ↔ d'.lock = some p := by
  have hrelease : (d.release p).lock ≠ some p := by
    unfold Datadir.release
    split
    · simp
    · assumption
  cases h with
  | lock password hnone => simp [Phase.Locks]
  | unlock => simpa [Phase.Locks] using hrelease
  | unlockFirst => simpa [Phase.Locks] using hrelease
  | crash => simpa [Phase.Locks] using hrelease
  | dropGuardLate => simpa [Phase.Locks] using hp
  | dropGuardLateFails => simpa [Phase.Locks] using hp
  | _ => simpa [Phase.Locks] using hp

/-- A process that acts can rely on what it has done. -/
theorem Act.relies (h : Act p phase d phase' d') (hp : phase.Relies d) : phase'.Relies d' := by
  cases h with
  | create hnone => exact ⟨[], rfl, rfl⟩
  | write htmp =>
    obtain ⟨written, hw, heq⟩ := hp
    obtain rfl := Option.some.inj (htmp.symm.trans hw)
    exact ⟨_, rfl, by rw [List.append_assoc, heq]⟩
  | written =>
    obtain ⟨written, hw, heq⟩ := hp
    rw [List.append_nil] at heq
    rw [Phase.Relies, hw, heq]
  | rename htmp =>
    have hw : d.tmp = some (cookieText _) := hp
    rw [htmp] at hw
    simpa [Phase.Relies] using Option.some.inj hw
  | _ => trivial

/-- What a process does to the files while another one holds the lock. -/
theorem Act.others (h : Act p phase d phase' d') (hp : phase.Locks ↔ d.lock = some p)
    (hne : p ≠ q) (hq : d.lock = some q) :
    d'.lock = d.lock ∧ d'.tmp = d.tmp ∧
      (d'.cookie = d.cookie ∧ d'.deleted = d.deleted ∨ d'.cookie = none ∧ d'.deleted = true) := by
  have hnot : ¬ phase.Locks := by
    rw [hp, hq]
    exact fun heq => hne (Option.some.inj heq).symm
  have hrelease : d.release p = d := by
    unfold Datadir.release
    rw [if_neg fun heq => hne (Option.some.inj (hq.symm.trans heq)).symm]
  cases h with
  | lock password hnone =>
    rw [hq] at hnone
    cases hnone
  | dropGuardLate => exact ⟨rfl, rfl, Or.inr ⟨rfl, rfl⟩⟩
  | dropGuardLateFails => exact ⟨rfl, rfl, Or.inl ⟨rfl, rfl⟩⟩
  | crash =>
    rw [hrelease]
    exact ⟨rfl, rfl, Or.inl ⟨rfl, rfl⟩⟩
  | _ => exact absurd trivial hnot

/-- The cookie comes from the process that renames its temporary file. -/
theorem Act.whole (h : Act p phase d phase' d') (hp : phase.Relies d)
    (hw : ∀ t, d.cookie = some t → ∃ password, t = cookieText password) :
    ∀ t, d'.cookie = some t → ∃ password, t = cookieText password := by
  have hrelease : (d.release p).cookie = d.cookie := by
    unfold Datadir.release
    split
    · rfl
    · rfl
  cases h with
  | rename htmp =>
    intro t ht
    have hmoved : d.tmp = some (cookieText _) := hp
    rw [htmp] at hmoved
    exact ⟨_, (Option.some.inj ht).symm.trans (Option.some.inj hmoved)⟩
  | dropGuard => simp
  | dropGuardLate => simp
  | unlock => rwa [hrelease]
  | unlockFirst => rwa [hrelease]
  | crash => rwa [hrelease]
  | _ => exact hw

/-- The lock goes from nobody to the process that acts, or back. -/
theorem Act.lock_ne (h : Act p phase d phase' d') (hne : p ≠ q) (hq : d.lock ≠ some q) :
    d'.lock ≠ some q := by
  have hrelease : (d.release p).lock ≠ some q := by
    unfold Datadir.release
    split
    · simp
    · exact hq
  cases h with
  | lock password hnone => simpa using hne
  | unlock => exact hrelease
  | unlockFirst => exact hrelease
  | crash => exact hrelease
  | _ => exact hq

theorem Act.relies_others (h : Act p phase d phase' d') (hp : phase.Locks ↔ d.lock = some p)
    (hne : p ≠ q) {other : Phase} (hq : other.Locks → d.lock = some q) (ho : other.Relies d) :
    other.Relies d' := by
  by_cases hlocks : other.Locks
  · obtain ⟨-, htmp, hcookie⟩ := h.others hp hne (hq hlocks)
    cases other with
    | writing password rest =>
      obtain ⟨written, hw, heq⟩ := ho
      exact ⟨written, htmp.trans hw, heq⟩
    | moving password => exact htmp.trans ho
    | serving password =>
      rcases hcookie with ⟨hcookie, hdeleted⟩ | ⟨hcookie, hdeleted⟩
      · rw [Phase.Relies, hcookie, hdeleted]
        exact ho
      · simp [Phase.Relies, hcookie, hdeleted]
    | _ => trivial
  · cases other with
    | stopped => trivial
    | unlocked password => trivial
    | _ => exact absurd trivial hlocks

/-- Every step keeps the invariant. -/
theorem Step.inv (h : Step s s') (hs : Inv s) : Inv s' := by
  obtain ⟨p, phase, hact, hphase⟩ := h
  refine ⟨fun q => ?_, fun q => ?_, hact.whole (hs.relies p) hs.whole⟩
  · by_cases hqp : q = p
    · rw [hqp, hphase, Function.update_self]
      exact hact.locks (hs.locks p)
    · rw [hphase, Function.update_of_ne hqp, hs.locks q]
      constructor
      · intro hq
        rwa [(hact.others (hs.locks p) (Ne.symm hqp) hq).1]
      · intro hq
        by_contra hno
        exact hact.lock_ne (Ne.symm hqp) hno hq
  · by_cases hqp : q = p
    · rw [hqp, hphase, Function.update_self]
      exact hact.relies (hs.relies p)
    · rw [hphase, Function.update_of_ne hqp]
      exact hact.relies_others (hs.locks p) (Ne.symm hqp) (hs.locks q).mp (hs.relies q)

/-- Every run keeps the invariant. -/
theorem Reach.inv (h : Reach State.fresh s) : Inv s := by
  induction h with
  | refl =>
    refine ⟨fun p => ?_, fun p => trivial, fun t ht => ?_⟩
    · simp [State.fresh, Phase.Locks]
    · cases ht
  | tail _ hstep ih => exact hstep.inv ih

/-- A process can start whenever nobody holds the lock, whatever files are left over. -/
theorem reach_serving (s : State P) (password : List UInt8) (hp : s.phase p = .stopped)
    (hlock : s.dir.lock = none) : Reach s ⟨⟨some p, some (cookieText password), none, false⟩,
      Function.update s.phase p (.serving password)⟩ := by
  -- The phases that `p` goes through.
  have hstep : ∀ (phase : Phase) {d d' : Datadir P} {phase' : Phase}, Act p phase d phase' d' →
      Step ⟨d, Function.update s.phase p phase⟩ ⟨d', Function.update s.phase p phase'⟩ := by
    intro phase d d' phase' hact
    exact ⟨p, phase', by simpa using hact, by simp⟩
  have hself : s = ⟨s.dir, Function.update s.phase p .stopped⟩ := by
    rw [← hp, Function.update_eq_self]
  rw [hself]
  simp only [Function.update_idem]
  have hwhole : ∀ {d : Datadir P}, d.tmp = some [] →
      Act p (.writing password (cookieText password)) d (.writing password [])
        { d with tmp := some (cookieText password) } := by
    intro d hd
    simpa using @Act.write P _ p d password [] (cookieText password) [] hd
  have hlocked := Relation.ReflTransGen.single (hstep _ (.lock password hlock))
  have hremoved := hlocked.tail (hstep _ .removeTmp)
  have hcreated := hremoved.tail (hstep _ (.create rfl))
  have hwritten := (hcreated.tail (hstep _ (hwhole rfl))).tail (hstep _ .written)
  exact hwritten.tail (hstep _ (.rename rfl))

end protocol

/-! ## The client -/

/-- `read_cookie`. -/
def readCookie {P : Type} (d : Datadir P) : Option (List Char) := do
  let content ← d.cookie
  let cookie := trim isWhitespace content
  if (COOKIE_USER ++ [':']).isPrefixOf cookie then some cookie else none

/-- The credentials of `zallet rpc`: the first configured password, or the cookie. -/
def clientCredentials {P : Type} (auth : List RpcAuthSection) (d : Datadir P) :
    Option (List Char) :=
  (auth.findSome? fun a => a.password.map fun pw => a.user ++ ':' :: pw).or (readCookie d)

/-- The `Authorization` header of `zallet rpc`. Its text can always be shown. -/
def clientHeader {P : Type} (auth : List RpcAuthSection) (d : Datadir P) : Option (List UInt8) :=
  (clientCredentials auth d).map fun creds =>
    ascii ("Basic ".toList ++ Base64.encode (utf8 creds))

theorem isWhitespace_cookieText (password : List UInt8) :
    ∀ c ∈ cookieText password, isWhitespace c = false := by
  intro c hc
  rcases List.mem_append.mp hc with hc | hc
  · have hall : ∀ c ∈ ['_', '_', 'c', 'o', 'o', 'k', 'i', 'e', '_', '_'],
        isWhitespace c = false := by simp [isWhitespace]
    exact hall c hc
  · rcases List.mem_cons.mp hc with rfl | hc
    · decide
    · rcases Base64.mem_encode hc with rfl | ⟨n, hn, rfl⟩
      · decide
      · have hall : ∀ n < 64, isWhitespace (Base64.digit n) = false := by decide +kernel
        exact hall n hn

/-- The cookie survives the file. -/
theorem readCookie_cookieText {P : Type} {d : Datadir P} {password : List UInt8}
    (h : d.cookie = some (cookieText password)) : readCookie d = some (cookieText password) := by
  have hprefix : (COOKIE_USER ++ [':']).isPrefixOf (cookieText password) = true := by
    rw [List.isPrefixOf_iff_prefix]
    exact ⟨Base64.encode password, by simp [cookieText]⟩
  simp only [readCookie, h, Option.bind_eq_bind, Option.bind_some,
    trim_eq_self (isWhitespace_cookieText password), hprefix, if_true]

section client

variable {hashPassword : List Char → List Char → List UInt8} {salts : ℕ → List UInt8}
  {auth : List RpcAuthSection} {users : Users} {password random : List UInt8}

/-- The cookie is let in. -/
theorem new_cookie (hnew : AuthorizationLayer.new hashPassword salts auth
      (some (generateCookie hashPassword password random)) = some users) :
    isAuthorized hashPassword users
      (ascii (basicAuth COOKIE_USER (Base64.encode password))) = true := by
  obtain ⟨entries, -, hnew⟩ := Option.bind_eq_some_iff.mp hnew
  obtain rfl := Option.some.inj hnew
  apply (isAuthorized_eq_true hashPassword).mpr
  refine ⟨_, _, colon_notMem_COOKIE_USER, rfl, _, Function.update_self .., ?_⟩
  exact check_iff.mpr rfl

/-- What the entry of the map for a configured user has of it. -/
theorem configuredUser_some {a : RpcAuthSection} {entry : List Char × PasswordHash}
    (h : configuredUser hashPassword random a = some entry) : a.user ≠ COOKIE_USER ∧
      entry.1 = a.user ∧
        ∀ pass, a.password = some pass → entry.2 = PasswordHash.fromBare hashPassword pass random := by
  obtain ⟨user, bare, pwhash⟩ := a
  have hreserved : user ≠ COOKIE_USER := by
    intro heq
    simp [configuredUser, heq] at h
  simp only [configuredUser, if_neg hreserved] at h
  refine ⟨hreserved, ?_⟩
  cases bare with
  | none =>
    cases pwhash with
    | none => cases h
    | some pwhash =>
      obtain ⟨hash, -, h⟩ := Option.bind_eq_some_iff.mp h
      split at h
      · cases h
      · exact ⟨(congrArg Prod.fst (Option.some.inj h)).symm, fun pass hpass => by cases hpass⟩
  | some bare =>
    cases pwhash with
    | some pwhash => cases h
    | none =>
      simp only at h
      split at h
      · obtain rfl := Option.some.inj h
        refine ⟨rfl, fun pass hpass => ?_⟩
        rw [Option.some.inj hpass]
      · cases h

/-- A bare password is let in under the name of its entry. -/
theorem new_password {cookie : Option (List Char × PasswordHash)}
    (hnew : AuthorizationLayer.new hashPassword salts auth cookie = some users)
    (hcookie : ∀ credential ∈ cookie, credential.1 = COOKIE_USER)
    (hnodup : (auth.map RpcAuthSection.user).Nodup) {a : RpcAuthSection} (ha : a ∈ auth)
    (hcolon : ':' ∉ a.user) {pass : List Char} (hpass : a.password = some pass) :
    isAuthorized hashPassword users (ascii (basicAuth a.user pass)) = true := by
  obtain ⟨entries, hentries, hnew⟩ := Option.bind_eq_some_iff.mp hnew
  have hforall := forall₂_of_mapM_some hentries
  have hnames : entries.map Prod.fst = auth.map RpcAuthSection.user := by
    have hmap : List.Forall₂ Eq (entries.map Prod.fst)
        (auth.zipIdx.map fun ai => ai.1.user) := by
      rw [List.forall₂_map_left_iff, List.forall₂_map_right_iff]
      exact (hforall.imp fun _ _ h => (configuredUser_some h).2.1).flip
    rw [List.forall₂_eq_eq_eq] at hmap
    conv_rhs => rw [← List.zipIdx_map_fst 0 auth, List.map_map]
    exact hmap
  -- The entry of `a`.
  obtain ⟨i, hi⟩ := List.mem_iff_getElem?.mp ha
  obtain ⟨entry, hmem, hentry⟩ := exists_of_mem_right hforall.flip
    (List.mk_mem_zipIdx_iff_getElem?.mpr hi)
  obtain ⟨hreserved, hname, hbare⟩ := configuredUser_some hentry
  have hlookup : users a.user = some entry.2 := by
    rw [← hnames] at hnodup
    have hcollect : Users.collect entries a.user = some entry.2 := by
      rw [← hname]
      exact (collect_eq_some hnodup).mpr hmem
    cases cookie with
    | none =>
      obtain rfl := Option.some.inj hnew
      exact hcollect
    | some credential =>
      obtain rfl := Option.some.inj hnew
      rw [Users.insert, hcookie credential rfl, Function.update_of_ne hreserved]
      exact hcollect
  apply (isAuthorized_eq_true hashPassword).mpr
  refine ⟨_, _, hcolon, rfl, _, hlookup, check_iff.mpr ?_⟩
  rw [hbare pass hpass]
  rfl

end client

/-! ## The server and the client -/

/-- **The cookie.** However processes start, stop, fail and crash: only one is between
    taking the lock and giving it back; `.cookie` is absent or a whole cookie; while a
    process serves it is that process's own, unless an earlier process has dropped its
    guard late and deleted it; then, with distinct names without a colon, a client with the
    server's configuration is let in if this has a bare password or the cookie is there;
    and whenever nobody holds the lock, any process can get as far as serving. -/
theorem cookie_protocol {P : Type} [DecidableEq P]
    (hashPassword : List Char → List Char → List UInt8) (s : State P) (h : Reach State.fresh s) :
    (∀ p q, (s.phase p).Locks → (s.phase q).Locks → p = q) ∧
    (∀ t, s.dir.cookie = some t → ∃ password, t = cookieText password) ∧
    (∀ p password, s.phase p = .serving password →
      readCookie s.dir = (if s.dir.deleted then none else some (cookieText password)) ∧
      ∀ salts auth random users, AuthorizationLayer.new hashPassword salts auth
          (some (generateCookie hashPassword password random)) = some users →
        (auth.map RpcAuthSection.user).Nodup → (∀ a ∈ auth, ':' ∉ a.user) →
        (∃ a ∈ auth, a.password.isSome) ∨ s.dir.deleted = false →
        ∃ header, clientHeader auth s.dir = some header ∧
          isAuthorized hashPassword users header = true) ∧
    ∀ p password, s.phase p = .stopped → s.dir.lock = none →
      ∃ s', Reach s s' ∧ s'.phase p = .serving password ∧
        readCookie s'.dir = some (cookieText password) ∧ ∀ q ≠ p, s'.phase q = s.phase q := by
  have hinv := h.inv
  refine ⟨fun p q hp hq => ?_, hinv.whole, fun p password hp => ?_, fun p password hp hlock => ?_⟩
  · have hlock := (hinv.locks p).mp hp
    rw [(hinv.locks q).mp hq] at hlock
    exact (Option.some.inj hlock).symm
  · have hcookie : s.dir.cookie = if s.dir.deleted then none else some (cookieText password) := by
      have hrelies := hinv.relies p
      rwa [hp] at hrelies
    have hread : readCookie s.dir = if s.dir.deleted then none else some (cookieText password) := by
      cases hdeleted : s.dir.deleted with
      | false => exact readCookie_cookieText (by simpa [hdeleted] using hcookie)
      | true => simp [readCookie, hcookie, hdeleted]
    refine ⟨hread, fun salts auth random users hnew hnodup hcolon hsome => ?_⟩
    cases hfind : auth.findSome? fun a => a.password.map fun pw => a.user ++ ':' :: pw with
    | none =>
      have hnone : ¬ ∃ a ∈ auth, a.password.isSome := by
        rintro ⟨a, ha, hpass⟩
        have hno := List.findSome?_eq_none_iff.mp hfind a ha
        rw [Option.map_eq_none_iff] at hno
        simp [hno] at hpass
      have hdeleted := hsome.resolve_left hnone
      refine ⟨_, ?_, new_cookie hnew⟩
      rw [clientHeader, clientCredentials, hfind, hread, hdeleted]
      rfl
    | some creds =>
      obtain ⟨a, ha, hcreds⟩ := List.exists_of_findSome?_eq_some hfind
      obtain ⟨pass, hpass, rfl⟩ := Option.map_eq_some_iff.mp hcreds
      refine ⟨_, ?_, new_password hnew (fun credential hc => ?_) hnodup ha (hcolon a ha) hpass⟩
      · rw [clientHeader, clientCredentials, hfind]
        rfl
      · rw [← Option.mem_some_iff.mp hc]
        rfl
  · refine ⟨_, reach_serving s password hp hlock, ?_, readCookie_cookieText rfl, ?_⟩
    · simp
    · intro q hq
      simp [hq]

/-! ## A start after a crash -/

namespace AfterCrash

/-- The cookie of the process that crashes. -/
def lost : List UInt8 := List.replicate 32 1

/-- The cookie of the next process, whose hash `TwoUsers.hmac` knows. -/
def password : List UInt8 := List.replicate 32 7

/-- The second process serves. -/
def serving : State Bool :=
  ⟨⟨some false, some (cookieText password), none, false⟩,
    Function.update (fun _ => .stopped) false (.serving password)⟩

theorem reach_crashed : Reach State.fresh
    ⟨⟨none, some (cookieText lost), none, false⟩, fun _ : Bool => .stopped⟩ := by
  have hstart := @reach_serving Bool _ true State.fresh lost rfl rfl
  have hcrash : Act true (.serving lost) ⟨some true, some (cookieText lost), none, false⟩
      .stopped ⟨none, some (cookieText lost), none, false⟩ := .crash
  refine hstart.tail ⟨true, .stopped, by simpa using hcrash, ?_⟩
  simp [State.fresh]

/-- The cookie that a crash left behind is replaced, and the client is let in by the new one. -/
theorem cookie_protocol_afterCrash :
    ∃ header, clientHeader [] serving.dir = some header ∧
      isAuthorized TwoUsers.hmac (Users.insert (fun _ => none) TwoUsers.cookie) header = true := by
  have hreach : Reach State.fresh serving :=
    reach_crashed.trans (reach_serving _ password rfl rfl)
  obtain ⟨-, -, hserving, -⟩ := cookie_protocol TwoUsers.hmac serving hreach
  refine (hserving false password (by simp [serving])).2 TwoUsers.salts [] (List.replicate 16 9) _
    rfl List.nodup_nil ?_ (Or.inr rfl)
  simp

end AfterCrash

end Zallet.Rpc.Cookie
