import Zallet.Common.Base64
import Zallet.Common.Loop
import Zallet.Common.Text

/-!
# Authorization of RPC requests

`json_rpc/server/authorization.rs`, lines 32–209, and the credential of
`generate_cookie` in `server/cookie.rs`, lines 42–83: a map of users is built
from the configuration and the cookie, and a request is served if the
`Authorization` header names one of them with the right password.

HMAC-SHA256 is the parameter `hashPassword`. The random salts are an argument:
the `i`-th entry takes the `i`-th salt. A header value is a list of bytes, and
the map of the users is the function that its lookups compute.

* `new_lookup`: the map holds what the entries and the cookie say.
* `isAuthorized_iff`: a header is accepted exactly if it is the encoding of the
  cookie or of a configured user with an admitted password.
-/

namespace Zallet.Rpc

open Zallet.Common Zallet.Common.Text
open Zallet.Common.Loop (exists_of_mem_right)

section

-- `hash_password`: the HMAC of a password under a salt.
variable (hashPassword : List Char → List Char → List UInt8)

/-! ## Password hashes -/

structure PasswordHash where
  salt : List Char
  hash : List UInt8
  deriving DecidableEq

/-- `Hmac::<Sha256>::output_size()`. -/
def outputSize : ℕ := 32

def PasswordHash.fromStr (s : List Char) : Option PasswordHash := do
  let (salt, hash) ← splitOnce '$' s
  let hash ← hexDecode hash
  if hash.length = outputSize then some { salt := salt, hash := hash } else none

/-- `from_bare`, with its sixteen random bytes. -/
def PasswordHash.fromBare (password : List Char) (random : List UInt8) : PasswordHash :=
  let salt := hexEncode random
  { salt := salt, hash := hashPassword password salt }

def PasswordHash.check (self : PasswordHash) (password : List Char) : Bool :=
  hashPassword password self.salt == self.hash

/-! ## Users -/

structure RpcAuthSection where
  user : List Char
  password : Option (List Char)
  pwhash : Option (List Char)
  deriving DecidableEq

def COOKIE_USER : List Char := "__cookie__".toList

/-- The credential of `generate_cookie`, of its 32 random bytes. -/
def generateCookie (password random : List UInt8) : List Char × PasswordHash :=
  (COOKIE_USER, PasswordHash.fromBare hashPassword (Base64.encode password) random)

/-- The entry of the map for one configured user. -/
def configuredUser (random : List UInt8) (a : RpcAuthSection) : Option (List Char × PasswordHash) :=
  -- The name of the cookie is reserved.
  if a.user = COOKIE_USER then none
  else
    match a.password, a.pwhash with
    | some password, none =>
      if password ≠ [] then some (a.user, PasswordHash.fromBare hashPassword password random)
      else none
    | none, some pwhash => do
      let hash ← PasswordHash.fromStr pwhash
      if hash.check hashPassword [] then none else some (a.user, hash)
    | _, _ => none

abbrev Users := List Char → Option PasswordHash

/-- `HashMap::insert`. -/
def Users.insert (users : Users) (entry : List Char × PasswordHash) : Users :=
  Function.update users entry.1 (some entry.2)

/-- `collect` into a map: a later entry replaces an earlier one. -/
def Users.collect (entries : List (List Char × PasswordHash)) : Users :=
  entries.foldl Users.insert fun _ => none

/-- `AuthorizationLayer::new`. -/
def AuthorizationLayer.new (salts : ℕ → List UInt8) (auth : List RpcAuthSection)
    (cookie : Option (List Char × PasswordHash)) : Option Users := do
  let entries ← auth.zipIdx.mapM fun (a, i) => configuredUser hashPassword (salts i) a
  let users := Users.collect entries
  match cookie with
  | some credential => some (users.insert credential)
  | none => some users

/-! ## Requests -/

/-- The user and the password that a header value carries. -/
def userPass (authHeader : List UInt8) : Option (List Char × List Char) := do
  let s ← toStr authHeader
  let s ← stripPrefix "Basic ".toList s
  let b ← Base64.decode s
  let encodedUserPass ← fromUtf8 b
  splitOnce ':' encodedUserPass

def isAuthorized (users : Users) (authHeader : List UInt8) : Bool :=
  match userPass authHeader with
  | none => false
  | some (user, pass) =>
    match users user with
    | none => false
    | some password => password.check hashPassword pass

/-- The text of a header with a user and a password. -/
def basicAuth (user pass : List Char) : List Char :=
  "Basic ".toList ++ Base64.encode (utf8 (user ++ ':' :: pass))

/-- A configured entry admits a password: it is the bare password, or the hash is that of it. -/
def RpcAuthSection.Admits (a : RpcAuthSection) (pass : List Char) : Prop :=
  a.password = some pass ∨
    ∃ pwhash ∈ a.pwhash, ∃ hash, PasswordHash.fromStr pwhash = some hash ∧
      hash.check hashPassword pass = true

/-! ## The header -/

theorem shown_basicAuth (user pass : List Char) : ∀ c ∈ basicAuth user pass, Shown c := by
  intro c hc
  rcases List.mem_append.mp hc with hc | hc
  · have hall : ∀ c ∈ ['B', 'a', 's', 'i', 'c', ' '], Shown c := by simp [Shown]
    exact hall c hc
  · rcases Base64.mem_encode hc with rfl | ⟨n, hn, rfl⟩
    · decide
    · have hall : ∀ n < 64, Shown (Base64.digit n) := by decide +kernel
      exact hall n hn

theorem userPass_eq_some {authHeader : List UInt8} {user pass : List Char} :
    userPass authHeader = some (user, pass) ↔
      ':' ∉ user ∧ authHeader = ascii (basicAuth user pass) := by
  simp only [userPass, Option.bind_eq_bind, Option.bind_eq_some_iff, toStr_eq_some,
    stripPrefix_eq_some, Base64.decode_eq_some, fromUtf8_eq_some, splitOnce_eq_some]
  constructor
  · rintro ⟨s, ⟨-, rfl⟩, t, rfl, b, rfl, text, rfl, hcolon, rfl⟩
    exact ⟨hcolon, rfl⟩
  · rintro ⟨hcolon, rfl⟩
    exact ⟨_, ⟨shown_basicAuth user pass, rfl⟩, _, rfl, _, rfl, _, rfl, hcolon, rfl⟩

/-! ## The map -/

theorem collect_eq_some {entries : List (List Char × PasswordHash)}
    (hnodup : (entries.map Prod.fst).Nodup) {user : List Char} {hash : PasswordHash} :
    Users.collect entries user = some hash ↔ (user, hash) ∈ entries := by
  have hfold : ∀ users : Users, entries.foldl Users.insert users user = some hash ↔
      (user, hash) ∈ entries ∨ user ∉ entries.map Prod.fst ∧ users user = some hash := by
    induction entries with
    | nil => simp
    | cons entry entries ih =>
      intro users
      obtain ⟨hnew, hrest⟩ := List.nodup_cons.mp hnodup
      rw [List.foldl_cons, ih hrest, Users.insert]
      by_cases hu : user = entry.1
      · subst hu
        have hno : (entry.1, hash) ∉ entries := fun hmem =>
          hnew (List.mem_map.mpr ⟨_, hmem, rfl⟩)
        simp only [hno, hnew, Function.update_self, Option.some.injEq, List.mem_cons,
          List.map_cons, false_or, or_false, not_false_eq_true, true_and, not_true_eq_false,
          false_and]
        constructor
        · rintro rfl
          rfl
        · intro h
          rw [← h]
      · have hne : (user, hash) ≠ entry := fun h => hu (congrArg Prod.fst h)
        simp only [Function.update_of_ne hu, List.mem_cons, List.map_cons, hne, hu, false_or]
  rw [Users.collect, hfold]
  simp

/-- The entry of the map for a configured user. -/
structure Configured (a : RpcAuthSection) (entry : List Char × PasswordHash) : Prop where
  user : entry.1 = a.user
  reserved : a.user ≠ COOKIE_USER
  check : ∀ pass, entry.2.check hashPassword pass = true ↔ a.Admits hashPassword pass
  nonempty : entry.2.check hashPassword [] = false

section

variable {hashPassword}

theorem check_iff {hash : PasswordHash} {pass : List Char} :
    hash.check hashPassword pass = true ↔ hashPassword pass hash.salt = hash.hash := by
  rw [PasswordHash.check, beq_iff_eq]

theorem check_fromBare (hinj : ∀ salt, Function.Injective fun pass => hashPassword pass salt)
    {password pass : List Char} {random : List UInt8} :
    (PasswordHash.fromBare hashPassword password random).check hashPassword pass = true ↔
      pass = password := by
  rw [check_iff]
  exact (hinj _).eq_iff

theorem configured_of_eq_some
    (hinj : ∀ salt, Function.Injective fun pass => hashPassword pass salt)
    {random : List UInt8} {a : RpcAuthSection} {entry : List Char × PasswordHash}
    (h : configuredUser hashPassword random a = some entry) : Configured hashPassword a entry := by
  obtain ⟨user, password, pwhash⟩ := a
  unfold configuredUser at h
  by_cases hreserved : user = COOKIE_USER
  · rw [if_pos hreserved] at h
    cases h
  · rw [if_neg hreserved] at h
    cases password with
    | none =>
      cases pwhash with
      | none => cases h
      | some pwhash =>
        obtain ⟨hash, hhash, h⟩ := Option.bind_eq_some_iff.mp h
        cases hempty : hash.check hashPassword [] with
        | true => simp [hempty] at h
        | false =>
          obtain rfl : (user, hash) = entry := by simpa [hempty] using h
          refine ⟨rfl, hreserved, fun pass => ?_, hempty⟩
          simp [RpcAuthSection.Admits, hhash]
    | some password =>
      cases pwhash with
      | some pwhash => cases h
      | none =>
        by_cases hempty : password = []
        · simp [hempty] at h
        · obtain rfl : (user, PasswordHash.fromBare hashPassword password random) = entry := by
            simpa [hempty] using h
          refine ⟨rfl, hreserved, fun pass => ?_, ?_⟩
          · rw [check_fromBare hinj]
            exact ⟨fun h => Or.inl (congrArg some h.symm), fun h => h.elim
              (fun hp => (Option.some.inj hp).symm) fun ⟨_, hmem, _⟩ => by cases hmem⟩
          · rw [Bool.eq_false_iff, Ne, check_fromBare hinj]
            exact fun hnil => hempty hnil.symm

theorem forall₂_of_mapM_some {α β : Type} {f : α → Option β} {as : List α} {bs : List β}
    (h : as.mapM f = some bs) : List.Forall₂ (fun a b => f a = some b) as bs := by
  induction as generalizing bs with
  | nil =>
    obtain rfl : [] = bs := Option.some.inj h
    exact List.Forall₂.nil
  | cons a as ih =>
    rw [List.mapM_cons] at h
    obtain ⟨b, hb, h⟩ := Option.bind_eq_some_iff.mp h
    obtain ⟨rest, hrest, h⟩ := Option.bind_eq_some_iff.mp h
    obtain rfl : b :: rest = bs := Option.some.inj h
    exact List.Forall₂.cons hb (ih hrest)

/-- The entries of the map are those of the configured users. -/
theorem configured_of_mapM (hinj : ∀ salt, Function.Injective fun pass => hashPassword pass salt)
    {salts : ℕ → List UInt8} {auth : List RpcAuthSection} {n : ℕ}
    {entries : List (List Char × PasswordHash)}
    (h : (auth.zipIdx n).mapM (fun (a, i) => configuredUser hashPassword (salts i) a) =
      some entries) : List.Forall₂ (Configured hashPassword) auth entries := by
  have hforall := forall₂_of_mapM_some h
  clear h
  induction auth generalizing n entries with
  | nil =>
    cases hforall
    exact List.Forall₂.nil
  | cons a auth ih =>
    rw [List.zipIdx_cons] at hforall
    obtain ⟨entry, rest, hentry, hrest, rfl⟩ := List.forall₂_cons_left_iff.mp hforall
    exact List.Forall₂.cons (configured_of_eq_some hinj hentry) (ih hrest)

theorem names_of_configured {auth : List RpcAuthSection} {entries : List (List Char × PasswordHash)}
    (h : List.Forall₂ (Configured hashPassword) auth entries) :
    entries.map Prod.fst = auth.map RpcAuthSection.user := by
  induction h with
  | nil => rfl
  | cons h _ ih => rw [List.map_cons, List.map_cons, h.user, ih]

/-- What the map holds for a user. -/
theorem new_lookup (hinj : ∀ salt, Function.Injective fun pass => hashPassword pass salt)
    {salts : ℕ → List UInt8} {auth : List RpcAuthSection}
    {cookie : Option (List Char × PasswordHash)} {users : Users}
    (hnodup : (auth.map RpcAuthSection.user).Nodup)
    (hcookie : ∀ credential ∈ cookie, credential.1 = COOKIE_USER)
    (hnew : AuthorizationLayer.new hashPassword salts auth cookie = some users) :
    ∃ entries, List.Forall₂ (Configured hashPassword) auth entries ∧
      ∀ user hash, users user = some hash ↔ (user, hash) ∈ cookie ∨ (user, hash) ∈ entries := by
  obtain ⟨entries, hentries, hnew⟩ := Option.bind_eq_some_iff.mp hnew
  have hconf := configured_of_mapM hinj hentries
  have hnames := names_of_configured hconf
  have hcollect : ∀ user hash, Users.collect entries user = some hash ↔ (user, hash) ∈ entries :=
    fun user hash => collect_eq_some (hnames ▸ hnodup)
  have hreserved : ∀ entry ∈ entries, entry.1 ≠ COOKIE_USER := by
    intro entry hmem
    obtain ⟨a, -, ha⟩ := exists_of_mem_right hconf hmem
    rw [ha.user]
    exact ha.reserved
  refine ⟨entries, hconf, fun user hash => ?_⟩
  cases cookie with
  | none =>
    obtain rfl : Users.collect entries = users := Option.some.inj hnew
    rw [hcollect]
    simp
  | some credential =>
    obtain rfl : (Users.collect entries).insert credential = users := Option.some.inj hnew
    have hname := hcookie credential rfl
    rw [Users.insert, Option.mem_some_iff]
    by_cases hu : user = credential.1
    · have hno : (user, hash) ∉ entries := fun hmem => hreserved _ hmem (hu.trans hname)
      rw [hu, Function.update_self, ← hu, Option.some.injEq]
      simp only [hno, or_false, Prod.ext_iff]
      exact ⟨fun h => ⟨hu.symm, h⟩, And.right⟩
    · have hne : credential ≠ (user, hash) := fun h => hu (congrArg Prod.fst h).symm
      rw [Function.update_of_ne hu, hcollect]
      simp [hne]

/-- The credentials that a user and a password may match. -/
theorem exists_lookup_iff
    (hinj : ∀ salt, Function.Injective fun pass => hashPassword pass salt)
    {salts : ℕ → List UInt8} {auth : List RpcAuthSection}
    {cookie : Option (List Char × PasswordHash)} {users : Users}
    (hnodup : (auth.map RpcAuthSection.user).Nodup)
    (hcookie : ∀ credential ∈ cookie, credential.1 = COOKIE_USER)
    (hnew : AuthorizationLayer.new hashPassword salts auth cookie = some users)
    {user pass : List Char} :
    (∃ hash, users user = some hash ∧ hash.check hashPassword pass = true) ↔
      (∃ credential ∈ cookie, user = credential.1 ∧
        credential.2.check hashPassword pass = true) ∨
      ∃ a ∈ auth, a.user = user ∧ a.Admits hashPassword pass := by
  obtain ⟨entries, hconf, hlookup⟩ := new_lookup hinj hnodup hcookie hnew
  constructor
  · rintro ⟨hash, hhash, hcheck⟩
    rcases (hlookup user hash).mp hhash with hmem | hmem
    · exact Or.inl ⟨(user, hash), hmem, rfl, hcheck⟩
    · obtain ⟨a, ha, hc⟩ := exists_of_mem_right hconf hmem
      exact Or.inr ⟨a, ha, hc.user.symm, (hc.check pass).mp hcheck⟩
  · rintro (⟨credential, hmem, rfl, hcheck⟩ | ⟨a, ha, rfl, hadmits⟩)
    · exact ⟨credential.2, (hlookup _ _).mpr (Or.inl hmem), hcheck⟩
    · obtain ⟨entry, hentry, hc⟩ := exists_of_mem_right hconf.flip ha
      refine ⟨entry.2, (hlookup _ _).mpr (Or.inr ?_), (hc.check pass).mpr hadmits⟩
      rwa [← hc.user]

end

/-! ## Authorization -/

theorem isAuthorized_eq_true {users : Users} {authHeader : List UInt8} :
    isAuthorized hashPassword users authHeader = true ↔ ∃ user pass, ':' ∉ user ∧
      authHeader = ascii (basicAuth user pass) ∧
        ∃ hash, users user = some hash ∧ hash.check hashPassword pass = true := by
  unfold isAuthorized
  constructor
  · intro h
    cases hup : userPass authHeader with
    | none => simp [hup] at h
    | some up =>
      obtain ⟨user, pass⟩ := up
      obtain ⟨hcolon, hheader⟩ := userPass_eq_some.mp hup
      cases hu : users user with
      | none => simp [hup, hu] at h
      | some hash => exact ⟨user, pass, hcolon, hheader, hash, hu, by simpa [hup, hu] using h⟩
  · rintro ⟨user, pass, hcolon, hheader, hash, hu, hcheck⟩
    have hup := userPass_eq_some.mpr ⟨hcolon, hheader⟩
    simp only [hup, hu, hcheck]

/-- A header carries one user and one password. -/
theorem basicAuth_inj {user pass user' pass' : List Char} (h : ':' ∉ user) (h' : ':' ∉ user')
    (heq : ascii (basicAuth user pass) = ascii (basicAuth user' pass')) :
    user = user' ∧ pass = pass' := by
  have hup := userPass_eq_some.mpr ⟨h, Eq.refl (ascii (basicAuth user pass))⟩
  have hup' := userPass_eq_some.mpr ⟨h', heq⟩
  exact Prod.mk.inj (Option.some.inj (hup.symm.trans hup'))

theorem colon_notMem_COOKIE_USER : ':' ∉ COOKIE_USER := by
  have hchars : COOKIE_USER = ['_', '_', 'c', 'o', 'o', 'k', 'i', 'e', '_', '_'] := rfl
  rw [hchars]
  decide

theorem encode_ne_nil {bytes : List UInt8} (h : bytes.length = 32) : Base64.encode bytes ≠ [] := by
  intro hnil
  have hdecode : Base64.decode [] = some bytes := Base64.decode_eq_some.mpr hnil.symm
  obtain rfl : [] = bytes := Option.some.inj hdecode
  cases h

/-- **Who is let in.** A header is accepted exactly if it is `Basic ` and the
    Base64 of `user:pass`, where this is the cookie or a configured user with an
    admitted password. No empty password is accepted, as long as the hash of the
    cookie is not that of it, which holds of every generated cookie; and no
    configured password is under the name of the cookie. -/
theorem isAuthorized_iff (hinj : ∀ salt, Function.Injective fun pass => hashPassword pass salt)
    (salts : ℕ → List UInt8) (auth : List RpcAuthSection)
    (cookie : Option (List Char × PasswordHash)) (users : Users)
    (hnodup : (auth.map RpcAuthSection.user).Nodup)
    (hcookie : ∀ credential ∈ cookie, credential.1 = COOKIE_USER)
    (hnew : AuthorizationLayer.new hashPassword salts auth cookie = some users) :
    (∀ authHeader, isAuthorized hashPassword users authHeader = true ↔
      ∃ user pass, ':' ∉ user ∧ authHeader = ascii (basicAuth user pass) ∧
        ((∃ credential ∈ cookie, user = COOKIE_USER ∧
            credential.2.check hashPassword pass = true) ∨
          ∃ a ∈ auth, a.user = user ∧ a.Admits hashPassword pass)) ∧
    ((∀ credential ∈ cookie, ∃ password random, password.length = 32 ∧
        credential = generateCookie hashPassword password random) →
      ∀ user, ':' ∉ user → isAuthorized hashPassword users (ascii (basicAuth user [])) = false) ∧
    ∀ pass, isAuthorized hashPassword users (ascii (basicAuth COOKIE_USER pass)) = true →
      ∃ credential ∈ cookie, credential.2.check hashPassword pass = true := by
  have hiff : ∀ authHeader, isAuthorized hashPassword users authHeader = true ↔
      ∃ user pass, ':' ∉ user ∧ authHeader = ascii (basicAuth user pass) ∧
        ((∃ credential ∈ cookie, user = COOKIE_USER ∧
            credential.2.check hashPassword pass = true) ∨
          ∃ a ∈ auth, a.user = user ∧ a.Admits hashPassword pass) := by
    intro authHeader
    rw [isAuthorized_eq_true]
    refine exists_congr fun user => exists_congr fun pass => and_congr_right fun _ =>
      and_congr_right fun _ => ?_
    rw [exists_lookup_iff hinj hnodup hcookie hnew]
    refine or_congr (exists_congr fun credential => and_congr_right fun hmem => ?_) Iff.rfl
    rw [hcookie credential hmem]
  obtain ⟨entries, hconf, -⟩ := new_lookup hinj hnodup hcookie hnew
  refine ⟨hiff, fun hgenerated user hcolon => ?_, fun pass h => ?_⟩
  · rw [Bool.eq_false_iff]
    intro h
    obtain ⟨user', pass, hcolon', hheader, h⟩ := (hiff _).mp h
    obtain ⟨rfl, rfl⟩ := basicAuth_inj hcolon hcolon' hheader
    rcases h with ⟨credential, hmem, -, hcheck⟩ | ⟨a, ha, -, hadmits⟩
    · obtain ⟨password, random, hlen, rfl⟩ := hgenerated credential hmem
      exact encode_ne_nil hlen ((check_fromBare hinj).mp hcheck).symm
    · obtain ⟨entry, -, hc⟩ := exists_of_mem_right hconf.flip ha
      have hcheck := (hc.check []).mpr hadmits
      rw [hc.nonempty] at hcheck
      cases hcheck
  · obtain ⟨user, pass', hcolon, hheader, h⟩ := (hiff _).mp h
    obtain ⟨rfl, rfl⟩ := basicAuth_inj colon_notMem_COOKIE_USER hcolon hheader
    rcases h with ⟨credential, hmem, -, hcheck⟩ | ⟨a, ha, huser, -⟩
    · exact ⟨credential, hmem, hcheck⟩
    · obtain ⟨entry, -, hc⟩ := exists_of_mem_right hconf.flip ha
      exact (hc.reserved huser).elim

end

/-! ## A configured password, a configured hash and a cookie -/

namespace TwoUsers

/-- HMAC-SHA256 of the passwords and salts below. -/
def hmacs : List ((List Char × List Char) × List UInt8) :=
  [(("abadpassword".toList, "000102030405060708090a0b0c0d0e0f".toList),
      [61, 205, 183, 129, 201, 39, 245, 161, 178, 176, 211, 83, 57, 167, 37, 221, 107, 218,
        108, 255, 152, 114, 214, 43, 254, 35, 88, 31, 230, 46, 212, 202]),
    (("hunter2".toList, "69dfe4d5ab3ad4e1f3a6f1f1e1e6a1b2".toList),
      [177, 141, 221, 1, 248, 52, 216, 151, 16, 169, 57, 195, 78, 23, 23, 42, 136, 216, 77,
        138, 56, 177, 121, 14, 231, 228, 243, 45, 0, 96, 194, 82]),
    (([], "69dfe4d5ab3ad4e1f3a6f1f1e1e6a1b2".toList),
      [45, 255, 172, 127, 108, 221, 151, 61, 127, 33, 208, 98, 93, 32, 192, 1, 84, 26, 170,
        154, 172, 12, 165, 170, 28, 9, 23, 233, 27, 162, 241, 130]),
    (("BwcHBwcHBwcHBwcHBwcHBwcHBwcHBwcHBwcHBwcHBwc=".toList,
      "09090909090909090909090909090909".toList),
      [190, 43, 137, 28, 5, 47, 177, 43, 99, 91, 47, 252, 163, 124, 165, 58, 188, 84, 5, 1,
        74, 58, 160, 146, 50, 197, 26, 51, 175, 7, 165, 50])]

/-- HMAC-SHA256 where it is known. -/
def hmac (password salt : List Char) : List UInt8 :=
  (hmacs.lookup (password, salt)).getD (List.replicate outputSize 0 ++ 0 :: utf8 password)

def salts (i : ℕ) : List UInt8 := (List.range 16).map fun j => UInt8.ofNat (16 * i + j)

def auth : List RpcAuthSection :=
  [{ user := "rpcuser".toList, password := some "abadpassword".toList, pwhash := none },
    { user := "other".toList, password := none, pwhash := some ("69dfe4d5ab3ad4e1f3a6f1f1e1e6a1b2$" ++
      "b18ddd01f834d89710a939c34e17172a88d84d8a38b1790ee7e4f32d0060c252").toList }]

def cookie : List Char × PasswordHash :=
  generateCookie hmac (List.replicate 32 7) (List.replicate 16 9)

/-- The entries for `auth`. -/
def entries : List (List Char × PasswordHash) :=
  [("rpcuser".toList, PasswordHash.fromBare hmac "abadpassword".toList (salts 0)),
    ("other".toList, ⟨"69dfe4d5ab3ad4e1f3a6f1f1e1e6a1b2".toList,
      hmac "hunter2".toList "69dfe4d5ab3ad4e1f3a6f1f1e1e6a1b2".toList⟩)]

theorem hmac_injective (salt : List Char) : Function.Injective fun pass => hmac pass salt := by
  have hmem : ∀ key value, hmacs.lookup key = some value → (key, value) ∈ hmacs := by
    intro key value h
    obtain ⟨before, after, heq, -⟩ := List.lookup_eq_some_iff.mp h
    rw [heq]
    exact List.mem_append_right _ List.mem_cons_self
  have hlen : ∀ e ∈ hmacs, e.2.length = outputSize := by decide +kernel
  have hkeys : ∀ e ∈ hmacs, ∀ e' ∈ hmacs, e.2 = e'.2 → e.1 = e'.1 := by decide +kernel
  intro p p' h
  simp only [hmac] at h
  cases hp : hmacs.lookup (p, salt) with
  | none =>
    cases hp' : hmacs.lookup (p', salt) with
    | none =>
      simp only [hp, hp', Option.getD_none, List.append_cancel_left_eq, List.cons.injEq,
        true_and] at h
      exact utf8_injective h
    | some value =>
      have hl := congrArg List.length h
      have hv := hlen _ (hmem _ _ hp')
      simp only [hp, hp', Option.getD_none, Option.getD_some, List.length_append,
        List.length_replicate, List.length_cons] at hl hv
      omega
  | some value =>
    cases hp' : hmacs.lookup (p', salt) with
    | none =>
      have hl := congrArg List.length h
      have hv := hlen _ (hmem _ _ hp)
      simp only [hp, hp', Option.getD_none, Option.getD_some, List.length_append,
        List.length_replicate, List.length_cons] at hl hv
      omega
    | some value' =>
      simp only [hp, hp', Option.getD_some] at h
      have hkey := hkeys _ (hmem _ _ hp) _ (hmem _ _ hp') h
      exact congrArg Prod.fst hkey

theorem new_auth : AuthorizationLayer.new hmac salts auth (some cookie) =
    some ((Users.collect entries).insert cookie) := by
  have hentries : auth.zipIdx.mapM (fun (a, i) => configuredUser hmac (salts i) a) =
      some entries := by
    decide +kernel
  rw [AuthorizationLayer.new, hentries]
  rfl

/-- The bare password lets its user in, and an empty one does not. -/
theorem isAuthorized_iff_rpcuser :
    isAuthorized hmac ((Users.collect entries).insert cookie)
      (ascii (basicAuth "rpcuser".toList "abadpassword".toList)) = true ∧
    isAuthorized hmac ((Users.collect entries).insert cookie)
      (ascii (basicAuth "rpcuser".toList [])) = false := by
  have hnodup : (auth.map RpcAuthSection.user).Nodup := by decide +kernel
  have hcolon : ':' ∉ "rpcuser".toList := by simp
  obtain ⟨hiff, hempty, -⟩ := isAuthorized_iff hmac hmac_injective salts auth (some cookie) _ hnodup
    (fun credential h => by rw [← Option.mem_some_iff.mp h]; rfl) new_auth
  refine ⟨(hiff _).mpr ⟨_, _, hcolon, rfl, Or.inr ⟨_, List.mem_cons_self, rfl, Or.inl rfl⟩⟩, ?_⟩
  refine hempty ?_ _ hcolon
  intro credential h
  rw [← Option.mem_some_iff.mp h]
  exact ⟨_, _, List.length_replicate, rfl⟩

end TwoUsers

end Zallet.Rpc
