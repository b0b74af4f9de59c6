import Zallet.Migrate.ZcashOptions

/-!
# The users of a migrated configuration

`migrate-zcash-conf` keeps the lines `rpcauth=user:salt$hash` of a `zcash.conf`, and the RPC
server builds its map of users from them.

* `migrated_users`: with the migrated configuration, the server builds its map exactly if it
  can use each of these lines; and then it lets in whom the last line of a user lets in, and
  the cookie.
-/

namespace Zallet.Migrate.ZcashOptions

open Zallet.Chain (BranchIds branchNumbers)
open Zallet.Common Zallet.Common.Text
open Zallet.Common.Loop (map_eq_of_forall₂)
open Zallet.Migrate.ZcashConf
open Zallet.Rpc

/-- The lines `rpcauth=user:pwhash`. -/
def rpcauths (settings : List Setting) : List (List Char × List Char) :=
  (given settings "rpcauth").filterMap (splitOnce ':')

/-- What the last line of a user says. -/
def pwhashOf (auths : List (List Char × List Char)) (user : List Char) : Option (List Char) :=
  (auths.filter fun a => decide (a.1 = user)).getLast?.map Prod.snd

section

-- `hash_password`, as in `Zallet.Rpc.Authorization`.
variable (hashPassword : List Char → List Char → List UInt8)

/-- The password is that of the salt and the hash, as `zcashd` checks it. -/
def Opens (pwhash pass : List Char) : Prop :=
  ∃ salt hash, '$' ∉ salt ∧ pwhash = salt ++ '$' :: hash ∧
    hexDecode hash = some (hashPassword pass salt) ∧ (hashPassword pass salt).length = outputSize

/-- The server can use a line: the name is not that of the cookie, there are a salt and a hash
    of the right length, and the hash is not that of the empty password. -/
structure Usable (a : List Char × List Char) : Prop where
  user : a.1 ≠ COOKIE_USER
  pwhash : ∃ salt hash bytes, '$' ∉ salt ∧ a.2 = salt ++ '$' :: hash ∧
    hexDecode hash = some bytes ∧ bytes.length = outputSize
  nonempty : ¬ Opens hashPassword a.2 []

/-! ## One line -/

theorem fromStr_eq_some {pwhash : List Char} {hash : PasswordHash} :
    PasswordHash.fromStr pwhash = some hash ↔ '$' ∉ hash.salt ∧
      ∃ text, pwhash = hash.salt ++ '$' :: text ∧ hexDecode text = some hash.hash ∧
        hash.hash.length = outputSize := by
  obtain ⟨salt, bytes⟩ := hash
  simp only [PasswordHash.fromStr, Option.bind_eq_bind, Option.bind_eq_some_iff]
  constructor
  · intro ⟨⟨salt', text⟩, hsplit, bytes', hhex, h⟩
    obtain ⟨hdollar, rfl⟩ := splitOnce_eq_some.mp hsplit
    by_cases hlen : bytes'.length = outputSize
    · rw [if_pos hlen] at h
      obtain ⟨rfl, rfl⟩ := PasswordHash.mk.inj (Option.some.inj h)
      exact ⟨hdollar, text, rfl, hhex, hlen⟩
    · rw [if_neg hlen] at h
      cases h
  · intro ⟨hdollar, text, htext, hhex, hlen⟩
    refine ⟨(salt, text), splitOnce_eq_some.mpr ⟨hdollar, htext⟩, bytes, hhex, ?_⟩
    rw [if_pos hlen]

variable {hashPassword}

theorem opens_iff {pwhash pass : List Char} :
    Opens hashPassword pwhash pass ↔
      ∃ hash, PasswordHash.fromStr pwhash = some hash ∧ hash.check hashPassword pass = true := by
  constructor
  · intro ⟨salt, text, hdollar, hpwhash, hhex, hlen⟩
    refine ⟨⟨salt, hashPassword pass salt⟩, ?_, check_iff.mpr rfl⟩
    exact fromStr_eq_some.mpr ⟨hdollar, text, hpwhash, hhex, hlen⟩
  · intro ⟨hash, hfrom, hcheck⟩
    obtain ⟨hdollar, text, hpwhash, hhex, hlen⟩ := fromStr_eq_some.mp hfrom
    rw [← check_iff.mp hcheck] at hhex hlen
    exact ⟨hash.salt, text, hdollar, hpwhash, hhex, hlen⟩

/-- The entry of the map for a line does not depend on the random salt. -/
theorem configuredUser_eq_some {random : List UInt8} {a : List Char × List Char}
    {entry : List Char × PasswordHash} :
    configuredUser hashPassword random ⟨a.1, none, some a.2⟩ = some entry ↔
      a.1 ≠ COOKIE_USER ∧ entry.1 = a.1 ∧ PasswordHash.fromStr a.2 = some entry.2 ∧
        entry.2.check hashPassword [] = false := by
  obtain ⟨user, pwhash⟩ := a
  obtain ⟨name, hash⟩ := entry
  unfold configuredUser
  by_cases hreserved : user = COOKIE_USER
  · simp [hreserved]
  · simp only [if_neg hreserved, Option.bind_eq_bind, Option.bind_eq_some_iff]
    constructor
    · intro ⟨hash', hfrom, h⟩
      cases hempty : hash'.check hashPassword [] with
      | true => simp [hempty] at h
      | false =>
        obtain ⟨rfl, rfl⟩ : user = name ∧ hash' = hash := by simpa [hempty] using h
        exact ⟨hreserved, rfl, hfrom, hempty⟩
    · intro ⟨_, hname, hfrom, hempty⟩
      refine ⟨hash, hfrom, ?_⟩
      rw [hempty, hname]
      simp

theorem usable_iff (random : List UInt8) {a : List Char × List Char} :
    (∃ entry, configuredUser hashPassword random ⟨a.1, none, some a.2⟩ = some entry) ↔
      Usable hashPassword a := by
  constructor
  · intro ⟨entry, h⟩
    obtain ⟨huser, -, hfrom, hempty⟩ := configuredUser_eq_some.mp h
    obtain ⟨hdollar, text, hpwhash, hhex, hlen⟩ := fromStr_eq_some.mp hfrom
    refine ⟨huser, ⟨_, text, _, hdollar, hpwhash, hhex, hlen⟩, ?_⟩
    intro hopens
    obtain ⟨hash, hfrom', hcheck⟩ := opens_iff.mp hopens
    rw [hfrom, Option.some.injEq] at hfrom'
    rw [hfrom', hcheck] at hempty
    cases hempty
  · intro ⟨huser, ⟨salt, text, bytes, hdollar, hpwhash, hhex, hlen⟩, hnonempty⟩
    have hfrom : PasswordHash.fromStr a.2 = some ⟨salt, bytes⟩ :=
      fromStr_eq_some.mpr ⟨hdollar, text, hpwhash, hhex, hlen⟩
    refine ⟨(a.1, ⟨salt, bytes⟩), configuredUser_eq_some.mpr ⟨huser, rfl, hfrom, ?_⟩⟩
    rw [Bool.eq_false_iff]
    exact fun hcheck => hnonempty (opens_iff.mpr ⟨_, hfrom, hcheck⟩)

/-! ## All lines -/

/-- The entry of the map for a line. -/
structure EntryOf (a : List Char × List Char) (entry : List Char × PasswordHash) : Prop where
  user : entry.1 = a.1
  pwhash : PasswordHash.fromStr a.2 = some entry.2
  reserved : a.1 ≠ COOKIE_USER

/-- The entries of the map are those of the lines. -/
theorem entries_of_mapM {salts : ℕ → List UInt8} {auths : List (List Char × List Char)} {n : ℕ}
    {entries : List (List Char × PasswordHash)}
    (h : ((auths.map fun a => RpcAuthSection.mk a.1 none (some a.2)).zipIdx n).mapM
      (fun (a, i) => configuredUser hashPassword (salts i) a) = some entries) :
    List.Forall₂ EntryOf auths entries := by
  have hforall := forall₂_of_mapM_some h
  clear h
  induction auths generalizing n entries with
  | nil =>
    cases hforall
    exact List.Forall₂.nil
  | cons a auths ih =>
    rw [List.map_cons, List.zipIdx_cons] at hforall
    obtain ⟨entry, rest, hentry, hrest, rfl⟩ := List.forall₂_cons_left_iff.mp hforall
    obtain ⟨hreserved, huser, hfrom, -⟩ := configuredUser_eq_some.mp hentry
    exact List.Forall₂.cons ⟨huser, hfrom, hreserved⟩ (ih hrest)

theorem mapM_isSome_iff (salts : ℕ → List UInt8) {auths : List (List Char × List Char)} (n : ℕ) :
    (∃ entries, ((auths.map fun a => RpcAuthSection.mk a.1 none (some a.2)).zipIdx n).mapM
      (fun (a, i) => configuredUser hashPassword (salts i) a) = some entries) ↔
      ∀ a ∈ auths, Usable hashPassword a := by
  induction auths generalizing n with
  | nil => simp
  | cons a auths ih =>
    rw [List.forall_mem_cons, ← ih (n + 1), ← usable_iff (salts n), List.map_cons,
      List.zipIdx_cons]
    simp only [List.mapM_cons, Option.bind_eq_bind, Option.bind_eq_some_iff]
    constructor
    · intro ⟨_, entry, hentry, rest, hrest, _⟩
      exact ⟨⟨entry, hentry⟩, rest, hrest⟩
    · intro ⟨⟨entry, hentry⟩, rest, hrest⟩
      exact ⟨_, entry, hentry, rest, hrest, rfl⟩

/-- A later entry replaces an earlier one of the same name. -/
theorem collect_apply (entries : List (List Char × PasswordHash)) (user : List Char) :
    Users.collect entries user =
      (entries.filter fun entry => decide (entry.1 = user)).getLast?.map Prod.snd := by
  induction entries using List.reverseRecOn with
  | nil => rfl
  | append_singleton entries entry ih =>
    rw [Users.collect, List.foldl_append, List.foldl_cons, List.foldl_nil, ← Users.collect,
      Users.insert, List.filter_append]
    by_cases h : entry.1 = user
    · rw [h, Function.update_self]
      simp [h]
    · rw [Function.update_of_ne (Ne.symm h), ih]
      simp [h]

theorem collect_lines {auths : List (List Char × List Char)}
    {entries : List (List Char × PasswordHash)} (h : List.Forall₂ EntryOf auths entries)
    (user : List Char) :
    Users.collect entries user = (pwhashOf auths user).bind PasswordHash.fromStr := by
  -- both sides are the last one of the same list
  have hmap : auths.map (fun a => (a.1, PasswordHash.fromStr a.2)) =
      entries.map fun entry => (entry.1, some entry.2) :=
    map_eq_of_forall₂ h fun a entry he => by rw [he.user, he.pwhash]
  have hlast := congrArg (fun l : List (List Char × Option PasswordHash) =>
    (l.filter fun a => decide (a.1 = user)).getLast?) hmap
  simp only [List.filter_map, List.getLast?_map, Function.comp_def] at hlast
  rw [collect_apply, pwhashOf]
  cases hentries : (entries.filter fun entry => decide (entry.1 = user)).getLast? with
  | none =>
    rw [hentries, Option.map_none, Option.map_eq_none_iff] at hlast
    rw [hlast]
    rfl
  | some entry =>
    rw [hentries, Option.map_some, Option.map_eq_some_iff] at hlast
    obtain ⟨a, ha, heq⟩ := hlast
    rw [ha]
    exact (Prod.mk.inj heq).2.symm

/-- The entries of a migrated configuration. -/
theorem convert_auth {SocketAddr : Type} (ids : BranchIds)
    (parseSocketAddr : List Char → Option SocketAddr) (settings : List Setting) :
    (convert ids parseSocketAddr settings).rpc.auth =
      (rpcauths settings).map fun a => ⟨a.1, none, some a.2⟩ := by
  show values (given settings) "rpcauth" rpcAuth = _
  rw [rpcauths, List.map_filterMap]
  apply congrArg fun f => List.filterMap f (given settings "rpcauth")
  funext value
  rw [rpcAuth]
  cases splitOnce ':' value <;> rfl

variable {cookie : Option (List Char × PasswordHash)} {users : Users}

/-- What the map holds for a user. -/
theorem new_lines {salts : ℕ → List UInt8} {auths : List (List Char × List Char)}
    (hcookie : ∀ credential ∈ cookie, credential.1 = COOKIE_USER)
    (hnew : AuthorizationLayer.new hashPassword salts
      (auths.map fun a => ⟨a.1, none, some a.2⟩) cookie = some users)
    {user : List Char} {hash : PasswordHash} :
    users user = some hash ↔ (∃ credential ∈ cookie, user = COOKIE_USER ∧ credential.2 = hash) ∨
      ∃ pwhash, pwhashOf auths user = some pwhash ∧ PasswordHash.fromStr pwhash = some hash := by
  obtain ⟨entries, hentries, hnew⟩ := Option.bind_eq_some_iff.mp hnew
  have hlines := entries_of_mapM hentries
  have hcollect : Users.collect entries user = some hash ↔
      ∃ pwhash, pwhashOf auths user = some pwhash ∧ PasswordHash.fromStr pwhash = some hash := by
    rw [collect_lines hlines, Option.bind_eq_some_iff]
  cases cookie with
  | none =>
    obtain rfl : Users.collect entries = users := Option.some.inj hnew
    rw [hcollect]
    simp
  | some credential =>
    obtain rfl : (Users.collect entries).insert credential = users := Option.some.inj hnew
    have hname := hcookie credential rfl
    rw [Users.insert]
    by_cases hu : user = credential.1
    · have hno : pwhashOf auths user = none := by
        rw [pwhashOf, Option.map_eq_none_iff, List.getLast?_eq_none_iff, List.filter_eq_nil_iff]
        intro a ha
        obtain ⟨entry, -, he⟩ := Loop.exists_of_mem_right hlines.flip ha
        rw [decide_eq_true_iff]
        exact fun heq => he.reserved (heq.trans (hu.trans hname))
      rw [hu, Function.update_self, ← hu, hno]
      simp [hu, hname]
    · have hne : user ≠ COOKIE_USER := fun heq => hu (heq.trans hname.symm)
      rw [Function.update_of_ne hu, hcollect]
      simp [hne]

end

/-! ## Results -/

/-- **Who is let in after the migration.** The server starts with a migrated configuration
    exactly if it can use each `rpcauth` line. Then a header is accepted exactly if it is
    `Basic ` and the Base64 of `user:pass`, where this is the cookie, or where `pass` is the
    password of the salt and the hash in the last line of `user`. -/
theorem migrated_users {SocketAddr : Type} (ids : BranchIds)
    (parseSocketAddr : List Char → Option SocketAddr)
    (hashPassword : List Char → List Char → List UInt8) (conf : String)
    (allowWarnings thisIsBetaCode : Bool) (lines : List (List Char))
    (config : ZalletConfig SocketAddr)
    (hmigrate : migrateZcashConf (actionOf ids parseSocketAddr) conf .default allowWarnings
      thisIsBetaCode lines = .ok config)
    (salts : ℕ → List UInt8) (cookie : Option (List Char × PasswordHash))
    (hcookie : ∀ credential ∈ cookie, credential.1 = COOKIE_USER) :
    ((∃ users, AuthorizationLayer.new hashPassword salts config.rpc.auth cookie = some users) ↔
      ∀ a ∈ rpcauths (lines.filterMap settingOf), Usable hashPassword a) ∧
    ∀ users, AuthorizationLayer.new hashPassword salts config.rpc.auth cookie = some users →
      ∀ authHeader, isAuthorized hashPassword users authHeader = true ↔
        ∃ user pass, ':' ∉ user ∧ authHeader = ascii (basicAuth user pass) ∧
          ((∃ credential ∈ cookie, user = COOKIE_USER ∧
              credential.2.check hashPassword pass = true) ∨
            ∃ pwhash, pwhashOf (rpcauths (lines.filterMap settingOf)) user = some pwhash ∧
              Opens hashPassword pwhash pass) := by
  obtain ⟨hnone, -, -, -, rfl⟩ :=
    (migrateZcashConf_eq_ok (describes ids parseSocketAddr)).mp hmigrate
  rw [events_settings (events_none.mp hnone), convert_auth]
  generalize rpcauths (lines.filterMap settingOf) = auths
  constructor
  · rw [← mapM_isSome_iff salts 0, AuthorizationLayer.new]
    simp only [Option.bind_eq_bind, Option.bind_eq_some_iff]
    constructor
    · rintro ⟨-, entries, hentries, -⟩
      exact ⟨entries, hentries⟩
    · rintro ⟨entries, hentries⟩
      cases cookie with
      | none => exact ⟨_, entries, hentries, rfl⟩
      | some credential => exact ⟨_, entries, hentries, rfl⟩
  · intro users hnew authHeader
    rw [isAuthorized_eq_true]
    refine exists_congr fun user => exists_congr fun pass => and_congr_right fun _ =>
      and_congr_right fun _ => ?_
    constructor
    · rintro ⟨hash, hhash, hcheck⟩
      rcases (new_lines hcookie hnew).mp hhash with
        ⟨credential, hmem, huser, rfl⟩ | ⟨pwhash, hlast, hfrom⟩
      · exact Or.inl ⟨credential, hmem, huser, hcheck⟩
      · exact Or.inr ⟨pwhash, hlast, opens_iff.mpr ⟨hash, hfrom, hcheck⟩⟩
    · intro h
      rcases h with ⟨credential, hmem, huser, hcheck⟩ | ⟨pwhash, hlast, hopens⟩
      · have hhash := (new_lines hcookie hnew).mpr (Or.inl ⟨credential, hmem, huser, rfl⟩)
        exact ⟨credential.2, hhash, hcheck⟩
      · obtain ⟨hash, hfrom, hcheck⟩ := opens_iff.mp hopens
        exact ⟨hash, (new_lines hcookie hnew).mpr (Or.inr ⟨pwhash, hlast, hfrom⟩), hcheck⟩

/-! ## A file with one user -/

namespace OneUser

open Zallet.Rpc.TwoUsers

def salt : List Char := "69dfe4d5ab3ad4e1f3a6f1f1e1e6a1b2".toList

def pwhash : List Char :=
  salt ++ "$b18ddd01f834d89710a939c34e17172a88d84d8a38b1790ee7e4f32d0060c252".toList

def lines : List (List Char) := ["rpcauth=other:".toList ++ pwhash, "testnet=1".toList]

def config : ZalletConfig (List Char) :=
  { (.default : ZalletConfig (List Char)) with
    consensus := ⟨.Test, []⟩
    rpc := ⟨[], none, [⟨"other".toList, none, some pwhash⟩]⟩ }

theorem migrate_user :
    migrateZcashConf (actionOf branchNumbers some) "zcash.conf" .default false true lines =
      .ok config := by
  decide +kernel

theorem migrated_users_other : ∃ users,
    AuthorizationLayer.new hmac TwoUsers.salts config.rpc.auth (some cookie) = some users ∧
      isAuthorized hmac users (ascii (basicAuth "other".toList "hunter2".toList)) = true := by
  obtain ⟨hstarts, haccepts⟩ := migrated_users branchNumbers some hmac "zcash.conf" false true
    lines config migrate_user TwoUsers.salts (some cookie)
    (fun credential h => by rw [← Option.mem_some_iff.mp h]; rfl)
  have hfrom : PasswordHash.fromStr pwhash = some ⟨salt, hmac "hunter2".toList salt⟩ := by
    decide +kernel
  have hline : rpcauths (lines.filterMap settingOf) = [("other".toList, pwhash)] := by
    decide +kernel
  have husable : Usable hmac ("other".toList, pwhash) := by
    apply (usable_iff []).mp
    exact ⟨("other".toList, _), configuredUser_eq_some.mpr
      ⟨by decide +kernel, rfl, hfrom, by decide +kernel⟩⟩
  obtain ⟨users, hnew⟩ := hstarts.mpr (by simpa [hline] using husable)
  refine ⟨users, hnew, (haccepts users hnew _).mpr ⟨_, _, by simp, rfl, Or.inr ⟨pwhash, ?_, ?_⟩⟩⟩
  · rw [hline]
    decide +kernel
  · exact opens_iff.mpr ⟨_, hfrom, check_iff.mpr rfl⟩

end OneUser

end Zallet.Migrate.ZcashOptions
