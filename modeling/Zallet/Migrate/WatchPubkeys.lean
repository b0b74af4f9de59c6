import Zallet.Migrate.Rerun

/-!
# The accounts of watch-only pubkeys

`register_watch_pubkeys` (`zallet-core/src/commands/migrate_zcashd_wallet.rs`,
lines 637–703) finds the wallet account of an account of the document by its name.

* `registers_watchPairs`: what the loop registers, up to its first failure.
* `registers_own_iff`: the pubkeys stay with their accounts exactly if no imported account
  has the name of an earlier account with watch-only pubkeys, or of one that was skipped.
-/

namespace Zallet.Migrate.WatchPubkeys

open Zallet.Migrate
open Zallet.Rpc (PublicKey)
open Zallet.Chain (TransparentAddress)

/-- The accounts of the wallets of a document, with the wallet accounts that the importer
    made of them. It makes no wallet account twice. -/
structure Imports where
  wallets : List (List (Account × Option ℕ))
  nodup : (wallets.flatten.filterMap Prod.snd).Nodup

/-- The accounts in document order. -/
def Imports.accounts (m : Imports) : List (Account × Option ℕ) := m.wallets.flatten

/-- The imported accounts among some, as the report lists them. -/
def importedOf (l : List (Account × Option ℕ)) : List ImportedAccount :=
  l.filterMap fun (account, id) => id.map fun id => ⟨account.name, id⟩

/-- The report lists the imported accounts in document order. -/
def Reports (m : Imports) (report : Report) : Prop :=
  report.importedAccounts = importedOf m.accounts

section

variable (K : Codecs)

/-- `register_watch_pubkeys`. -/
def registerAll (run : Run) (report : Report) (exposureHeight : ℕ) (m : Imports) (s : Store) :
    Outcome Unit :=
  forEach (registerWatchPubkeys K run report exposureHeight) 0 (m.accounts.map Prod.fst) s

/-! ## What should be registered -/

/-- The watch-only pubkeys of an account, with the wallet account made of it. -/
def ownOf : Account × Option ℕ → List (ℕ × PublicKey)
  | (account, some id) => (watchPubkeys K account).map (id, ·)
  | (_, none) => []

def Imports.own (m : Imports) : List (ℕ × PublicKey) := m.accounts.flatMap (ownOf K)

/-- The addresses of pubkeys, exposed as of a height. -/
def exposures (exposureHeight : ℕ) (pairs : List (ℕ × PublicKey)) :
    List (TransparentAddress × ℕ) :=
  pairs.map fun (_, pk) => (K.fromPubkey pk, exposureHeight)

/-- The outcome adds the pairs and the addresses, in their order and up to a failure, and
    changes nothing else. -/
def Registers (run : Run) (exposureHeight : ℕ) (pairs : List (ℕ × PublicKey)) (s : Store)
    (outcome : Outcome Unit) : Prop :=
  ∃ watch exposed,
    outcome.2 = { s with db := { s.db with
      watch := s.db.watch ∪ watch.toFinset
      exposed := s.db.exposed ++ exposures K exposureHeight exposed } } ∧
    watch <+: pairs ∧ exposed <+: pairs ∧
    (outcome.1 = .ok () → watch = pairs ∧ exposed = pairs) ∧
    ((∀ step, run.fault step = none) → outcome.1 = .ok ())

/-- The names tell the accounts apart that have watch-only pubkeys. -/
structure Unambiguous (m : Imports) : Prop where
  imported : ∀ before account id after, m.accounts = before ++ (account, some id) :: after →
    watchPubkeys K account ≠ [] → ∀ other id', (other, some id') ∈ after →
      other.name ≠ account.name
  skipped : ∀ account, (account, none) ∈ m.accounts → watchPubkeys K account ≠ [] →
    ∀ other id', (other, some id') ∈ m.accounts → other.name ≠ account.name

end

/-! ## The loop -/

section

variable {K : Codecs}

theorem exposures_append (height : ℕ) (pairs pairs' : List (ℕ × PublicKey)) :
    exposures K height (pairs ++ pairs') = exposures K height pairs ++ exposures K height pairs' :=
  List.map_append

/-- A turn of the loop exposes the addresses of the pubkeys that it registers. -/
theorem exposures_watchOf {report : Report} {account : Account} (height : ℕ)
    (h : watchOf K report account ≠ []) :
    exposures K height (watchOf K report account) =
      (watchPubkeys K account).map fun pk => (K.fromPubkey pk, height) := by
  unfold watchOf at h ⊢
  cases hname : report.accountsByName account.name with
  | none => simp [hname] at h
  | some id => simp [exposures]

/-- The loop registers every account under the wallet account of its name. -/
theorem registers_watchPairs (run : Run) (report : Report) (exposureHeight : ℕ) (l : List Account)
    (i : ℕ) (s : Store) :
    Registers K run exposureHeight (watchPairs K report l) s
      (forEach (registerWatchPubkeys K run report exposureHeight) i l s) := by
  induction l generalizing i s with
  | nil => exact ⟨[], [], by simp [forEach, exposures], List.prefix_rfl, List.prefix_rfl,
      fun _ => ⟨rfl, rfl⟩, fun _ => rfl⟩
  | cons account l ih =>
    simp only [forEach, registerWatchPubkeys_eq, watchPairs_cons]
    by_cases hnil : watchOf K report account = []
    · simpa [hnil, Outcome.andThen] using ih (i + 1) s
    · simp only [hnil, if_false]
      cases himport : run.fault (.ImportPubkeys i) with
      | some text =>
        refine ⟨[], [], by simp [Outcome.andThen, exposures], List.nil_prefix, List.nil_prefix,
          by simp [Outcome.andThen], fun hfault => ?_⟩
        cases himport.symm.trans (hfault _)
      | none =>
        cases hmark : run.fault (.MarkExposed i) with
        | some text =>
          refine ⟨watchOf K report account, [], by simp [Outcome.andThen, exposures],
            List.prefix_append _ _, List.nil_prefix, by simp [Outcome.andThen], fun hfault => ?_⟩
          cases hmark.symm.trans (hfault _)
        | none =>
          obtain ⟨watch, exposed, heq, hwatch, hexposed, hok, hfault⟩ := ih (i + 1)
            { s with db := { s.db with
              watch := s.db.watch ∪ (watchOf K report account).toFinset
              exposed := s.db.exposed ++
                (watchPubkeys K account).map fun pk => (K.fromPubkey pk, exposureHeight) } }
          refine ⟨watchOf K report account ++ watch, watchOf K report account ++ exposed, ?_,
            (List.prefix_append_right_inj _).mpr hwatch,
            (List.prefix_append_right_inj _).mpr hexposed, fun hr => ?_, hfault⟩
          · simp only [Outcome.andThen]
            rw [heq]
            simp [exposures_append, exposures_watchOf _ hnil, List.toFinset_append]
          · obtain ⟨rfl, rfl⟩ := hok hr
            exact ⟨rfl, rfl⟩

/-! ## The lookup by name -/

variable {m : Imports}

theorem mem_importedOf {l : List (Account × Option ℕ)} {entry : ImportedAccount} :
    entry ∈ importedOf l ↔ ∃ account, (account, some entry.account) ∈ l ∧
      account.name = entry.name := by
  obtain ⟨name, id⟩ := entry
  simp only [importedOf, List.mem_filterMap, Option.map_eq_some_iff]
  constructor
  · rintro ⟨⟨account, id'⟩, hmem, id, rfl, heq⟩
    cases heq
    exact ⟨account, hmem, rfl⟩
  · rintro ⟨account, hmem, rfl⟩
    exact ⟨_, hmem, id, rfl, rfl⟩

theorem mem_importedOf_name {l : List (Account × Option ℕ)} {account : Account} {id : ℕ}
    (h : (account, some id) ∈ l) : ⟨account.name, id⟩ ∈ importedOf l :=
  mem_importedOf.mpr ⟨account, h, rfl⟩

/-- No two imported accounts have one wallet account. -/
theorem nodup_importedOf (m : Imports) :
    ((importedOf m.accounts).map ImportedAccount.account).Nodup := by
  have heq : (importedOf m.accounts).map ImportedAccount.account =
      m.wallets.flatten.filterMap Prod.snd := by
    rw [importedOf, List.map_filterMap]
    refine List.filterMap_congr fun x _ => ?_
    obtain ⟨account, id⟩ := x
    cases id with
    | none => rfl
    | some id => rfl
  rw [heq]
  exact m.nodup

/-- A wallet account belongs to one name. -/
theorem eq_of_account_eq {a b : ImportedAccount} (ha : a ∈ importedOf m.accounts)
    (hb : b ∈ importedOf m.accounts) (h : a.account = b.account) : a = b :=
  List.inj_on_of_nodup_map (nodup_importedOf m) ha hb h

variable {report : Report}

theorem accountsByName_eq_some (hreport : Reports m report) {name : String} {id : ℕ}
    (h : report.accountsByName name = some id) : ⟨name, id⟩ ∈ importedOf m.accounts := by
  obtain ⟨entry, hfind, rfl⟩ := Option.map_eq_some_iff.mp h
  have hname : entry.name = name := by simpa using List.find?_some hfind
  subst hname
  have hmem := List.mem_of_find?_eq_some hfind
  rwa [List.mem_reverse, hreport] at hmem

/-- The lookup finds nothing where no imported account has the name. -/
theorem accountsByName_eq_none_iff (hreport : Reports m report) {name : String} :
    report.accountsByName name = none ↔
      ∀ other id, (other, some id) ∈ m.accounts → other.name ≠ name := by
  rw [Report.accountsByName, Option.map_eq_none_iff, List.find?_eq_none]
  constructor
  · intro h other id hmem hname
    have hentry := mem_importedOf_name hmem
    rw [← hreport] at hentry
    exact h _ (List.mem_reverse.mpr hentry) (by simpa using hname)
  · intro h entry hentry
    rw [List.mem_reverse, hreport] at hentry
    obtain ⟨account, hmem, hname⟩ := mem_importedOf.mp hentry
    simpa [← hname] using h account entry.account hmem

/-- The lookup finds an imported account unless a later one has its name. -/
theorem accountsByName_imported_iff (hreport : Reports m report) {account : Account} {id : ℕ}
    {before after : List (Account × Option ℕ)}
    (hsplit : m.accounts = before ++ (account, some id) :: after) :
    report.accountsByName account.name = some id ↔
      ∀ other id', (other, some id') ∈ after → other.name ≠ account.name := by
  have hentries : report.importedAccounts =
      importedOf before ++ ⟨account.name, id⟩ :: importedOf after := by
    rw [hreport, hsplit, importedOf, List.filterMap_append]
    rfl
  have hnodup : id ∉ (importedOf after).map ImportedAccount.account := by
    have h := nodup_importedOf m
    rw [← hreport, hentries, List.map_append, List.map_cons] at h
    exact (List.nodup_cons.mp h.of_append_right).1
  rw [Report.accountsByName, hentries, List.reverse_append, List.reverse_cons, List.append_assoc,
    List.find?_append]
  cases hfind : (importedOf after).reverse.find? (·.name = account.name) with
  | none =>
    rw [List.find?_eq_none] at hfind
    refine iff_of_true (by simp) fun other id' hother hname => ?_
    exact hfind _ (List.mem_reverse.mpr (mem_importedOf_name hother)) (by simpa using hname)
  | some entry =>
    have hafter := List.mem_reverse.mp (List.mem_of_find?_eq_some hfind)
    have hname : entry.name = account.name := by simpa using List.find?_some hfind
    refine iff_of_false (fun h => hnodup ?_) fun h => ?_
    · obtain rfl : entry.account = id := by simpa using h
      exact List.mem_map_of_mem hafter
    · obtain ⟨other, hother, hother'⟩ := mem_importedOf.mp hafter
      exact h other entry.account hother (hother'.trans hname)

/-! ## Which accounts keep their pubkeys -/

/-- Each account is looked up as the wallet account that was made of it. -/
def LookedUp (K : Codecs) (m : Imports) (report : Report) : Prop :=
  ∀ account id, (account, id) ∈ m.accounts → watchPubkeys K account ≠ [] →
    report.accountsByName account.name = id

theorem lookedUp_iff (hreport : Reports m report) : LookedUp K m report ↔ Unambiguous K m := by
  constructor
  · intro h
    constructor
    · intro before account id after hsplit hwatch
      refine (accountsByName_imported_iff hreport hsplit).mp (h account (some id) ?_ hwatch)
      rw [hsplit]
      exact List.mem_append_right _ List.mem_cons_self
    · intro account hmem hwatch
      exact (accountsByName_eq_none_iff hreport).mp (h account none hmem hwatch)
  · intro h account id hmem hwatch
    cases id with
    | none => exact (accountsByName_eq_none_iff hreport).mpr (h.skipped account hmem hwatch)
    | some id =>
      obtain ⟨before, after, hsplit⟩ := List.append_of_mem hmem
      exact (accountsByName_imported_iff hreport hsplit).mpr
        (h.imported before account id after hsplit hwatch)

/-- What is registered for an account that is looked up as its own. -/
theorem watchOf_eq_ownOf {account : Account} {id : Option ℕ}
    (h : watchPubkeys K account ≠ [] → report.accountsByName account.name = id) :
    watchOf K report account = ownOf K (account, id) := by
  by_cases hwatch : watchPubkeys K account = []
  · cases id <;> cases hname : report.accountsByName account.name <;>
      simp [watchOf, ownOf, hwatch, hname]
  · rw [watchOf, h hwatch]
    cases id <;> rfl

theorem watchPairs_eq_own (h : LookedUp K m report) :
    watchPairs K report (m.accounts.map Prod.fst) = m.own K := by
  rw [watchPairs, Imports.own, List.flatMap_map]
  refine List.flatMap_congr fun x hx => ?_
  exact watchOf_eq_ownOf (h x.1 x.2 hx)

/-- An imported account is looked up as its own if its pubkeys are registered with it. -/
theorem lookedUp_imported (hreport : Reports m report)
    (h : ∀ pair ∈ m.own K, pair ∈ watchPairs K report (m.accounts.map Prod.fst)) {account : Account}
    {id : ℕ} (hmem : (account, some id) ∈ m.accounts) (hwatch : watchPubkeys K account ≠ []) :
    report.accountsByName account.name = some id := by
  obtain ⟨pk, hpk⟩ := List.exists_mem_of_ne_nil _ hwatch
  have hown : (id, pk) ∈ m.own K :=
    List.mem_flatMap.mpr ⟨_, hmem, List.mem_map_of_mem hpk⟩
  obtain ⟨other, -, hother⟩ := List.mem_flatMap.mp (h _ hown)
  unfold watchOf at hother
  cases hname : report.accountsByName other.name with
  | none => simp [hname] at hother
  | some id' =>
    obtain rfl : id' = id := by
      rw [hname] at hother
      obtain ⟨pk', -, heq⟩ := List.mem_map.mp hother
      exact congrArg Prod.fst heq
    have heq := eq_of_account_eq (accountsByName_eq_some hreport hname)
      (mem_importedOf_name hmem) rfl
    have hsame : other.name = account.name := congrArg ImportedAccount.name heq
    rwa [hsame] at hname

/-- A skipped account is not looked up if no more pubkeys are registered than there should
    be. -/
theorem lookedUp_of_length
    (h : ∀ account id, (account, some id) ∈ m.accounts → watchPubkeys K account ≠ [] →
      report.accountsByName account.name = some id)
    (hlength : (watchPairs K report (m.accounts.map Prod.fst)).length = (m.own K).length) :
    LookedUp K m report := by
  have hle : ∀ x ∈ m.accounts, (ownOf K x).length ≤ (watchOf K report x.1).length := by
    rintro ⟨account, id⟩ hmem
    cases id with
    | none => exact Nat.zero_le _
    | some id => exact (watchOf_eq_ownOf (h account id hmem)).symm ▸ le_rfl
  intro account id hmem hwatch
  cases id with
  | some id => exact h account id hmem hwatch
  | none =>
    by_contra hname
    obtain ⟨id, hname⟩ := Option.ne_none_iff_exists'.mp hname
    rw [watchPairs, Imports.own, List.flatMap_map, List.length_flatMap, List.length_flatMap] at hlength
    refine absurd hlength.symm (ne_of_lt (List.sum_lt_sum _ _ hle ⟨_, hmem, ?_⟩))
    simpa [ownOf, watchOf, hname, List.length_pos_iff] using hwatch

/-- Nothing fails. -/
def smooth : Run := ⟨false, false, "", .ok 0, fun _ => none⟩

/-- The outcome tells the pairs that were added to the empty store. -/
theorem pairs_of_registers {height : ℕ} {pairs pairs' : List (ℕ × PublicKey)}
    {outcome : Outcome Unit} (h : Registers K smooth height pairs emptyStore outcome)
    (h' : Registers K smooth height pairs' emptyStore outcome) :
    (∀ pair, pair ∈ pairs ↔ pair ∈ pairs') ∧ pairs.length = pairs'.length := by
  obtain ⟨watch, exposed, heq, -, -, hall, hok⟩ := h
  obtain ⟨watch', exposed', heq', -, -, hall', -⟩ := h'
  obtain ⟨rfl, rfl⟩ := hall (hok fun _ => rfl)
  obtain ⟨rfl, rfl⟩ := hall' (hok fun _ => rfl)
  have hdb := congrArg Store.db (heq.symm.trans heq')
  constructor
  · have hwatch := congrArg Db.watch hdb
    simp only [emptyStore, Finset.empty_union] at hwatch
    intro pair
    rw [← List.mem_toFinset, hwatch, List.mem_toFinset]
  · have hexposed := congrArg (fun db => db.exposed.length) hdb
    simpa [emptyStore, exposures] using hexposed

end

/-! ## The pubkeys of a document -/

/-- On every run and from every store the pubkeys of an account are registered with the
    wallet account made of it, their addresses are exposed, and nothing else is registered,
    exactly if the names tell the accounts apart that have watch-only pubkeys. -/
theorem registers_own_iff (K : Codecs) (m : Imports) (report : Report) (exposureHeight : ℕ)
    (hreport : Reports m report) :
    (∀ run s, Registers K run exposureHeight (m.own K) s
        (registerAll K run report exposureHeight m s)) ↔ Unambiguous K m := by
  have hruns (run : Run) (s : Store) := registers_watchPairs (K := K) run report exposureHeight
    (m.accounts.map Prod.fst) 0 s
  rw [← lookedUp_iff hreport]
  constructor
  · intro h
    obtain ⟨hmem, hlength⟩ := pairs_of_registers (hruns smooth emptyStore) (h smooth emptyStore)
    exact lookedUp_of_length (fun _ _ hin hwatch =>
      lookedUp_imported hreport (fun pair => (hmem pair).mpr) hin hwatch) hlength
  · intro h run s
    rw [← watchPairs_eq_own h]
    exact hruns run s

/-! ## Accounts of one name -/

namespace SameName

def pubkey : List UInt8 := List.replicate 33 2

/-- An account with a watch-only pubkey. -/
def watching (name : String) : Account :=
  ⟨name, ⟨"uview1"⟩, none, none, [.Transparent false (some pubkey)]⟩

/-- An account without addresses. -/
def other (name : String) : Account := ⟨name, ⟨"uview2"⟩, none, none, []⟩

/-- The first account and one of a given name, in two wallets. -/
def imports (name : String) : Imports where
  wallets := [[(watching "savings", some 0)], [(other name, some 1)]]
  nodup := show [0, 1].Nodup by decide

def report (name : String) : Report := ⟨[⟨"savings", 0⟩, ⟨name, 1⟩], [], []⟩

theorem unambiguous_distinct : Unambiguous plainCodecs (imports "spending") := by
  apply (lookedUp_iff (show Reports (imports "spending") (report "spending") from rfl)).mp
  intro account id hmem _
  obtain h | h : (account, id) = (watching "savings", some 0) ∨
      (account, id) = (other "spending", some 1) := by
    simpa [imports, Imports.accounts] using hmem
  · obtain ⟨rfl, rfl⟩ := Prod.mk.inj h
    decide
  · obtain ⟨rfl, rfl⟩ := Prod.mk.inj h
    decide

/-- Under distinct names the pubkey of the first account stays with it on every run. -/
theorem registers_own_distinct : Unambiguous plainCodecs (imports "spending") ∧
    ∀ run s, Registers plainCodecs run 100 [(0, ⟨pubkey⟩)] s
      (registerAll plainCodecs run (report "spending") 100 (imports "spending") s) :=
  ⟨unambiguous_distinct,
    (registers_own_iff plainCodecs (imports "spending") (report "spending") 100 rfl).mpr
      unambiguous_distinct⟩

/-- The pubkey of the first account is registered with the second one. -/
theorem registered_elsewhere : Reports (imports "savings") (report "savings") ∧
    (imports "savings").own plainCodecs = [(0, ⟨pubkey⟩)] ∧
    (registerAll plainCodecs smooth (report "savings") 100 (imports "savings") emptyStore).2.db.watch =
      {(1, ⟨pubkey⟩)} :=
  ⟨rfl, rfl, rfl⟩

end SameName

end Zallet.Migrate.WatchPubkeys
