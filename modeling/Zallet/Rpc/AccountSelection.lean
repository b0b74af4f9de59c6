import Zallet.Rpc.Accounts

/-!
# Which account is selected

`legacy_pool_account` (`zallet-core/src/components/json_rpc/payments.rs`, lines 1104–1191)
takes the first account at the legacy index of a seed, and `parse_account_parameter`
(`json_rpc/utils.rs`, lines 237–309) the last one with a given index. Neither looks at the
legacy address index of a derivation (`migrate_zcashd_wallet.rs`, lines 956–980).

* `legacyPoolAccount_eq_ok`, `accountOfNumber_eq_ok`: what is selected in an order.
* `selection_iff`: when the order does not matter and the account is the one that was named.
-/

namespace Zallet.Rpc.AccountSelection

open Zallet.Common Zallet.Common.Loop
open Zallet.Rpc.Accounts
open Zallet.Wallet

/-- An account with the legacy address index of its derivation. -/
structure MigratedAccount extends Account where
  legacyAddressIndex : Option ℕ
  deriving DecidableEq

/-- The accounts of a wallet. -/
structure Wallet where
  accounts : List MigratedAccount
  nodup : (accounts.map fun x => x.id).Nodup

/-- The answers of a database that lists the accounts in an order. -/
def Wallet.reads (w : Wallet) (order : List MigratedAccount) : AccountReads where
  getAccountIds := .ok (order.map fun x => x.id)
  getAccount := fun id => .ok ((w.accounts.find? fun x => x.id = id).map (·.toAccount))

/-! ## The legacy pool -/

/-- `LegacyPoolError` (lines 1145–1153). -/
inductive LegacyPoolError
  | Disabled
  | NotFound (legacySeedFp : SeedFingerprint)
  | Db (msg : String)
  deriving DecidableEq

/-- The loop over the accounts (lines 1167–1188). -/
def legacyPoolFrom (W : AccountReads) (legacySeedFp : SeedFingerprint) :
    List AccountUuid → Except LegacyPoolError Account
  | [] => .error (.NotFound legacySeedFp)
  | accountId :: rest => do
    match ← (W.getAccount accountId).mapError .Db with
    | none => .error (.Db "Account vanished mid-call")
    | some account =>
      if account.source.keyDerivation.any (isLegacyPoolAccount · legacySeedFp) then .ok account
      else legacyPoolFrom W legacySeedFp rest

/-- `legacy_pool_account` (lines 1158–1191), for the option
    `features.legacy_pool_seed_fingerprint`. -/
def legacyPoolAccount (W : AccountReads) :
    Option SeedFingerprint → Except LegacyPoolError Account
  | none => .error .Disabled
  | some legacySeedFp => do
    let ids ← W.getAccountIds.mapError .Db
    legacyPoolFrom W legacySeedFp ids

/-! ## Specification -/

/-- The account is at the legacy index of the seed. -/
def AtLegacyIndex (legacySeedFp : SeedFingerprint) (x : MigratedAccount) : Prop :=
  x.source.keyDerivation = some ⟨legacySeedFp, zcashLegacyAccount⟩

instance (legacySeedFp : SeedFingerprint) (x : MigratedAccount) :
    Decidable (AtLegacyIndex legacySeedFp x) :=
  inferInstanceAs (Decidable (_ = _))

/-- Whatever the order, the legacy pool is the account at the legacy index of the configured
    seed that has no legacy address index. -/
def NamesLegacyPool (w : Wallet) (config : Option SeedFingerprint) : Prop :=
  ∀ order, order.Perm w.accounts → ∀ account,
    legacyPoolAccount (w.reads order) config = .ok account ↔
      ∃ legacySeedFp ∈ config, ∃ x ∈ w.accounts, x.toAccount = account ∧
        AtLegacyIndex legacySeedFp x ∧ x.legacyAddressIndex = none

/-- The accounts at the legacy index of the configured seed are one, without a legacy
    address index. -/
def OneLegacyPool (w : Wallet) (config : Option SeedFingerprint) : Prop :=
  ∀ legacySeedFp ∈ config, ∀ x ∈ w.accounts, AtLegacyIndex legacySeedFp x →
    x.legacyAddressIndex = none ∧ ∀ y ∈ w.accounts, AtLegacyIndex legacySeedFp y → y = x

section

variable (legacySeeds : List SeedFingerprint)

/-- The account derives from a seed of the wallet that is no legacy one, or was imported
    with such a derivation. -/
def Recorded (x : MigratedAccount) (derivation : Zip32Derivation) : Prop :=
  x.source.keyDerivation = some derivation ∧ derivation.seedFingerprint ∉ legacySeeds

/-- The account was not imported. -/
def SeedDerived (x : MigratedAccount) (derivation : Zip32Derivation) : Prop :=
  x.source = .Derived derivation ∧ derivation.seedFingerprint ∉ legacySeeds

end

section

variable (w : Wallet) (R : MigratedAccount → Zip32Derivation → Prop)

/-- The accounts share one seed. -/
def OneSeed : Prop :=
  ∀ x ∈ w.accounts, ∀ y ∈ w.accounts, ∀ d d', R x d → R y d' →
    d.seedFingerprint = d'.seedFingerprint

/-- The account is the one among them at the index. -/
def TheOne (index : ℕ) (x : MigratedAccount) : Prop :=
  (∃ d, R x d ∧ d.accountIndex = index) ∧
    ∀ y ∈ w.accounts, ∀ d, R y d → d.accountIndex = index → y = x

end

/-- Whatever the order, an account number names the account at that index among the
    accounts that were not imported, where these share one seed. -/
def NumbersName (parseUuid : List Char → Option AccountUuid) (w : Wallet)
    (legacySeeds : List SeedFingerprint) : Prop :=
  ∀ order, order.Perm w.accounts → ∀ n id,
    parseAccountParameter parseUuid (w.reads order) (.ok legacySeeds) (.Number n) = .ok id ↔
      ∃ index, asU64 n = some index ∧ index < zcashLegacyAccount ∧
        OneSeed w (SeedDerived legacySeeds) ∧
        ∃ x ∈ w.accounts, x.id = id ∧ TheOne w (SeedDerived legacySeeds) index x

/-- Where the accounts with a derivation share one seed none with a number was imported, and
    no two have one number. Where they do not, no number would name one that was not
    imported. -/
structure NumbersKept (w : Wallet) (legacySeeds : List SeedFingerprint) : Prop where
  oneSeed : OneSeed w (Recorded legacySeeds) → ∀ x ∈ w.accounts, ∀ d, Recorded legacySeeds x d →
    d.accountIndex < zcashLegacyAccount →
      x.source = .Derived d ∧ ∀ y ∈ w.accounts, ∀ d', Recorded legacySeeds y d' →
        d'.accountIndex = d.accountIndex → y = x
  manySeeds : ¬ OneSeed w (Recorded legacySeeds) → OneSeed w (SeedDerived legacySeeds) →
    ∀ x ∈ w.accounts, ∀ index < zcashLegacyAccount, ¬ TheOne w (SeedDerived legacySeeds) index x

/-! ## What is selected in an order -/

section

variable {w : Wallet} {order : List MigratedAccount}

theorem eq_of_id_eq {x y : MigratedAccount} (hx : x ∈ w.accounts) (hy : y ∈ w.accounts)
    (h : x.id = y.id) : x = y :=
  List.inj_on_of_nodup_map w.nodup hx hy h

theorem getAccount_reads {x : MigratedAccount} (hx : x ∈ w.accounts) :
    (w.reads order).getAccount x.id = .ok (some x.toAccount) := by
  have hfind : w.accounts.find? (fun y => y.id = x.id) = some x := by
    cases hfind : w.accounts.find? fun y => y.id = x.id with
    | none => simpa using List.find?_eq_none.mp hfind x hx
    | some y =>
      have hid : y.id = x.id := by simpa using List.find?_some hfind
      rw [eq_of_id_eq (List.mem_of_find?_eq_some hfind) hx hid]
  simp only [Wallet.reads, hfind, Option.map_some]

theorem any_isLegacyPoolAccount {legacySeedFp : SeedFingerprint} {x : MigratedAccount} :
    x.source.keyDerivation.any (isLegacyPoolAccount · legacySeedFp) =
      decide (AtLegacyIndex legacySeedFp x) := by
  rw [Bool.eq_iff_iff, decide_eq_true_iff, AtLegacyIndex]
  cases x.source.keyDerivation with
  | none => simp
  | some d =>
    obtain ⟨fp, index⟩ := d
    simp [isLegacyPoolAccount]

theorem legacyPoolFrom_reads (legacySeedFp : SeedFingerprint) {l : List MigratedAccount}
    (hl : ∀ x ∈ l, x ∈ w.accounts) :
    legacyPoolFrom (w.reads order) legacySeedFp (l.map fun x => x.id) =
      match l.find? fun x => AtLegacyIndex legacySeedFp x with
      | some x => .ok x.toAccount
      | none => .error (.NotFound legacySeedFp) := by
  induction l with
  | nil => rfl
  | cons x l ih =>
    obtain ⟨hx, hrest⟩ := List.forall_mem_cons.mp hl
    simp only [List.map_cons, legacyPoolFrom, getAccount_reads hx, Except.mapError, bind, Except.bind,
      any_isLegacyPoolAccount, List.find?_cons]
    by_cases h : AtLegacyIndex legacySeedFp x
    · simp [h]
    · simpa [h] using ih hrest

/-- The legacy pool is the first account at the legacy index of the seed. -/
theorem legacyPoolAccount_eq_ok (horder : order.Perm w.accounts) {legacySeedFp : SeedFingerprint}
    {account : Account} :
    legacyPoolAccount (w.reads order) (some legacySeedFp) = .ok account ↔
      ∃ x, order.find? (fun x => AtLegacyIndex legacySeedFp x) = some x ∧
        x.toAccount = account := by
  have heq : legacyPoolAccount (w.reads order) (some legacySeedFp) =
      legacyPoolFrom (w.reads order) legacySeedFp (order.map fun x => x.id) := rfl
  rw [heq, legacyPoolFrom_reads legacySeedFp fun x hx => horder.subset hx]
  cases order.find? fun x => AtLegacyIndex legacySeedFp x <;> simp

/-- The legacy pool is what the configuration names exactly if there is one account to
    choose from. -/
theorem namesLegacyPool_iff (w : Wallet) (config : Option SeedFingerprint) :
    NamesLegacyPool w config ↔ OneLegacyPool w config := by
  cases config with
  | none =>
    refine iff_of_true (fun order _ account => ?_) fun _ h => by cases h
    simp [legacyPoolAccount]
  | some legacySeedFp =>
    constructor
    · rintro h _ ⟨rfl⟩ x hx hat
      have hfirst {z : MigratedAccount} (hz : z ∈ w.accounts) (hatz : AtLegacyIndex legacySeedFp z) :
          ∃ order, order.Perm w.accounts ∧
            legacyPoolAccount (w.reads order) (some legacySeedFp) = .ok z.toAccount := by
        obtain ⟨before, after, hsplit⟩ := List.append_of_mem hz
        have hperm : (z :: (before ++ after)).Perm w.accounts := hsplit ▸ List.perm_middle.symm
        exact ⟨_, hperm, (legacyPoolAccount_eq_ok hperm).mpr ⟨z, by simp [hatz], rfl⟩⟩
      have hnone {z : MigratedAccount} (hz : z ∈ w.accounts) (hatz : AtLegacyIndex legacySeedFp z) :
          z.legacyAddressIndex = none := by
        obtain ⟨order, hperm, hok⟩ := hfirst hz hatz
        obtain ⟨_, -, z', hz', heq, -, hindex⟩ := (h order hperm z.toAccount).mp hok
        rwa [← eq_of_id_eq hz' hz (congrArg Account.id heq)]
      refine ⟨hnone hx hat, fun y hy haty => ?_⟩
      obtain ⟨order, hperm, hok⟩ := hfirst hx hat
      have hoky := (h order hperm y.toAccount).mpr ⟨_, rfl, y, hy, rfl, haty, hnone hy haty⟩
      have heq := Except.ok.inj (hok.symm.trans hoky)
      exact (eq_of_id_eq hx hy (congrArg Account.id heq)).symm
    · intro h order horder account
      rw [legacyPoolAccount_eq_ok horder]
      constructor
      · rintro ⟨x, hfind, rfl⟩
        have hx := horder.subset (List.mem_of_find?_eq_some hfind)
        have hat : AtLegacyIndex legacySeedFp x := by simpa using List.find?_some hfind
        exact ⟨_, rfl, x, hx, rfl, hat, (h _ rfl x hx hat).1⟩
      · rintro ⟨_, ⟨rfl⟩, x, hx, rfl, hat, -⟩
        cases hfind : order.find? fun x => AtLegacyIndex legacySeedFp x with
        | none => simpa [hat] using List.find?_eq_none.mp hfind x (horder.mem_iff.mpr hx)
        | some y =>
          have hy := horder.subset (List.mem_of_find?_eq_some hfind)
          have haty : AtLegacyIndex legacySeedFp y := by simpa using List.find?_some hfind
          exact ⟨y, rfl, by rw [(h _ rfl x hx hat).2 y hy haty]⟩

/-! ## The account with a number -/

variable {legacySeeds : List SeedFingerprint}

instance (x : MigratedAccount) (d : Zip32Derivation) : Decidable (Recorded legacySeeds x d) :=
  inferInstanceAs (Decidable (_ ∧ _))

theorem SeedDerived.recorded {x : MigratedAccount} {d : Zip32Derivation}
    (h : SeedDerived legacySeeds x d) : Recorded legacySeeds x d :=
  ⟨by rw [h.1]; rfl, h.2⟩

theorem Recorded.eq {x : MigratedAccount} {d d' : Zip32Derivation} (h : Recorded legacySeeds x d)
    (h' : Recorded legacySeeds x d') : d = d' :=
  Option.some.inj (h.1.symm.trans h'.1)

/-- The account has a recorded derivation with the index. -/
def AtIndex (legacySeeds : List SeedFingerprint) (index : ℕ) (x : MigratedAccount) : Bool :=
  x.source.keyDerivation.any fun d => decide (d.seedFingerprint ∉ legacySeeds) &&
    decide (d.accountIndex = index)

theorem atIndex_iff {index : ℕ} {x : MigratedAccount} :
    AtIndex legacySeeds index x = true ↔
      ∃ d, Recorded legacySeeds x d ∧ d.accountIndex = index := by
  simp only [AtIndex, Option.any_eq_true, Bool.and_eq_true, decide_eq_true_eq, Recorded, and_assoc]

/-- A turn of the loop notes the seed and the account of a recorded derivation. -/
theorem see_recorded {index : ℕ} {found : Found} {x : MigratedAccount} {d : Zip32Derivation}
    (h : Recorded legacySeeds x d) :
    found.see legacySeeds index x.toAccount x.id =
      { distinctSeeds := found.distinctSeeds.insert d.seedFingerprint
        accountId := if d.accountIndex = index then some x.id else found.accountId } := by
  rw [Found.see, h.1]
  exact if_neg h.2

theorem see_unrecorded {index : ℕ} {found : Found} {x : MigratedAccount}
    (h : ∀ d, ¬ Recorded legacySeeds x d) :
    found.see legacySeeds index x.toAccount x.id = found := by
  rw [Found.see]
  cases hder : x.source.keyDerivation with
  | none => rfl
  | some d =>
    have hlegacy : d.seedFingerprint ∈ legacySeeds := by
      by_contra hlegacy
      exact h d ⟨hder, hlegacy⟩
    exact if_pos hlegacy

/-- What the loop has found after some accounts. -/
structure Scanned (legacySeeds : List SeedFingerprint) (index : ℕ) (l : List MigratedAccount)
    (before after : Found) : Prop where
  seeds : ∀ seed, seed ∈ after.distinctSeeds ↔
    seed ∈ before.distinctSeeds ∨ ∃ x ∈ l, ∃ d, Recorded legacySeeds x d ∧ d.seedFingerprint = seed
  nodup : before.distinctSeeds.Nodup → after.distinctSeeds.Nodup
  account : after.accountId =
    ((l.reverse.find? (AtIndex legacySeeds index)).map fun x => x.id).or before.accountId

theorem scanned_see (index : ℕ) (found : Found) (x : MigratedAccount) :
    Scanned legacySeeds index [x] found (found.see legacySeeds index x.toAccount x.id) := by
  by_cases h : ∃ d, Recorded legacySeeds x d
  · obtain ⟨d, hd⟩ := h
    rw [see_recorded hd]
    refine ⟨fun seed => ?_, fun hnodup => hnodup.insert, ?_⟩
    · have hseed : (∃ d', Recorded legacySeeds x d' ∧ d'.seedFingerprint = seed) ↔
          seed = d.seedFingerprint :=
        ⟨fun ⟨d', hd', heq⟩ => by rw [← heq, hd.eq hd'], fun heq => ⟨d, hd, heq.symm⟩⟩
      simp [hseed, or_comm]
    · by_cases hindex : d.accountIndex = index
      · have hat := atIndex_iff.mpr ⟨d, hd, hindex⟩
        simp [hat, hindex]
      · have hat : ¬ AtIndex legacySeeds index x = true := fun hat => by
          obtain ⟨d', hd', hindex'⟩ := atIndex_iff.mp hat
          exact hindex (hd.eq hd' ▸ hindex')
        simp [hat, hindex]
  · have hnone := not_exists.mp h
    rw [see_unrecorded hnone]
    have hat : ¬ AtIndex legacySeeds index x = true := fun hat => by
      obtain ⟨d, hd, -⟩ := atIndex_iff.mp hat
      exact hnone d hd
    exact ⟨fun seed => by simp [hnone], id, by simp [hat]⟩

theorem Scanned.cons {index : ℕ} {x : MigratedAccount} {l : List MigratedAccount}
    {before middle after : Found} (h : Scanned legacySeeds index [x] before middle)
    (h' : Scanned legacySeeds index l middle after) :
    Scanned legacySeeds index (x :: l) before after where
  seeds seed := by
    rw [h'.seeds, h.seeds]
    simp [or_assoc]
  nodup hnodup := h'.nodup (h.nodup hnodup)
  account := by
    have hreverse : (x :: l).reverse = l.reverse ++ [x] := List.reverse_cons
    rw [h'.account, h.account, ← Option.or_assoc, ← Option.map_or, hreverse, List.find?_append]
    rfl

variable (order legacySeeds) in
/-- The loop finds the seeds of the recorded derivations, and the last account with the
    index. -/
theorem scanAccounts_reads (index : ℕ) {l : List MigratedAccount} (hl : ∀ x ∈ l, x ∈ w.accounts)
    (found : Found) :
    ∃ found', scanAccounts (w.reads order) legacySeeds index (l.map fun x => x.id) found =
      .ok found' ∧ Scanned legacySeeds index l found found' := by
  induction l generalizing found with
  | nil => exact ⟨found, rfl, by simp, id, rfl⟩
  | cons x l ih =>
    obtain ⟨hx, hrest⟩ := List.forall_mem_cons.mp hl
    obtain ⟨found', hscan, hscanned⟩ := ih hrest (found.see legacySeeds index x.toAccount x.id)
    refine ⟨found', ?_, (scanned_see index found x).cons hscanned⟩
    simpa only [List.map_cons, scanAccounts, getAccount_reads hx, database, Except.mapError, bind,
      Except.bind] using hscan

theorem length_eq_one_iff {α : Type} {l : List α} (h : l.Nodup) :
    l.length = 1 ↔ (∃ a, a ∈ l) ∧ ∀ a ∈ l, ∀ b ∈ l, a = b := by
  cases l with
  | nil => simp
  | cons a l =>
    cases l with
    | nil => simp
    | cons b l =>
      refine iff_of_false (by simp) fun ⟨_, hall⟩ => ?_
      have hab : a = b := hall a (by simp) b (by simp)
      simp [hab] at h

/-- A number names the last account with the index, where the recorded derivations share one
    seed. -/
theorem accountOfNumber_eq_ok (horder : order.Perm w.accounts) {n : List Char} {id : AccountUuid} :
    accountOfNumber (w.reads order) (.ok legacySeeds) n = .ok id ↔
      ∃ index, asU64 n = some index ∧ index < zcashLegacyAccount ∧
        OneSeed w (Recorded legacySeeds) ∧
        ∃ x, order.reverse.find? (AtIndex legacySeeds index) = some x ∧ x.id = id := by
  unfold accountOfNumber
  cases hindex : (asU64 n).filter fun n => decide (n < zcashLegacyAccount) with
  | none =>
    refine iff_of_false (by simp) fun ⟨index, hn, hlt, _⟩ => ?_
    simp only [hn, Option.filter_some, decide_eq_true_eq, hlt, if_true] at hindex
    cases hindex
  | some index =>
    obtain ⟨hn, hlt⟩ := Option.filter_eq_some_iff.mp hindex
    obtain ⟨found, hscan, hseeds, hnodup, haccount⟩ := scanAccounts_reads order legacySeeds index
      (fun x hx => horder.subset hx) ⟨[], none⟩
    have hmem (seed : SeedFingerprint) : seed ∈ found.distinctSeeds ↔
        ∃ x ∈ w.accounts, ∃ d, Recorded legacySeeds x d ∧ d.seedFingerprint = seed := by
      simp [hseeds seed, horder.mem_iff]
    have hseed : (∃ seed, seed ∈ found.distinctSeeds) ∧
        (∀ seed ∈ found.distinctSeeds, ∀ seed' ∈ found.distinctSeeds, seed = seed') ↔
        (∃ x ∈ w.accounts, ∃ d, Recorded legacySeeds x d) ∧ OneSeed w (Recorded legacySeeds) := by
      simp only [hmem]
      constructor
      · rintro ⟨⟨seed, x, hx, d, hd, -⟩, hone⟩
        exact ⟨⟨x, hx, d, hd⟩, fun x hx y hy d d' hd hd' =>
          hone _ ⟨x, hx, d, hd, rfl⟩ _ ⟨y, hy, d', hd', rfl⟩⟩
      · rintro ⟨⟨x, hx, d, hd⟩, hone⟩
        refine ⟨⟨_, x, hx, d, hd, rfl⟩, ?_⟩
        rintro _ ⟨x, hx, d, hd, rfl⟩ _ ⟨y, hy, d', hd', rfl⟩
        exact hone x hx y hy d d' hd hd'
    change (scanAccounts (w.reads order) legacySeeds index (order.map fun x => x.id) ⟨[], none⟩ >>=
      fun found => found.account index) = .ok id ↔ _
    rw [hscan]
    change found.account index = .ok id ↔ _
    rw [account_eq_ok, length_eq_one_iff (hnodup List.nodup_nil), hseed, haccount, Option.or_none,
      Option.map_eq_some_iff]
    constructor
    · rintro ⟨⟨-, hone⟩, hlast⟩
      exact ⟨index, hn, by simpa using hlt, hone, hlast⟩
    · rintro ⟨index', hn', -, hone, x, hfind, hid⟩
      obtain rfl : index = index' := Option.some.inj (hn.symm.trans hn')
      obtain ⟨d, hd, -⟩ := atIndex_iff.mp (List.find?_some hfind)
      have hx := horder.subset (List.mem_reverse.mp (List.mem_of_find?_eq_some hfind))
      exact ⟨⟨⟨x, hx, d, hd⟩, hone⟩, x, hfind, hid⟩

theorem asU64_toDigits {index : ℕ} (h : index < 2 ^ 64) :
    asU64 (Nat.toDigits 10 index) = some index := by
  have hdigits : ∀ c ∈ Nat.toDigits 10 index, IsDigit c := fun c hc =>
    Nat.isDigit_of_mem_toDigits (by norm_num) (by norm_num) hc
  rw [asU64, if_pos ⟨Nat.toDigits_ne_nil, hdigits, by rwa [digitsValue_toDigits]⟩,
    digitsValue_toDigits]

/-- An account with a recorded derivation is named by its number if it is listed last. -/
theorem named_last (hone : OneSeed w (Recorded legacySeeds)) {x : MigratedAccount}
    (hx : x ∈ w.accounts) {d : Zip32Derivation} (hd : Recorded legacySeeds x d)
    (hlt : d.accountIndex < zcashLegacyAccount) :
    ∃ order, order.Perm w.accounts ∧
      accountOfNumber (w.reads order) (.ok legacySeeds) (Nat.toDigits 10 d.accountIndex) =
        .ok x.id := by
  obtain ⟨before, after, hsplit⟩ := List.append_of_mem hx
  have hperm : (before ++ after ++ [x]).Perm w.accounts := by
    rw [hsplit]
    exact (List.perm_append_singleton x _).trans List.perm_middle.symm
  have hindex : d.accountIndex < 2 ^ 64 := by
    unfold zcashLegacyAccount at hlt
    omega
  have hat := atIndex_iff.mpr ⟨d, hd, rfl⟩
  exact ⟨_, hperm, (accountOfNumber_eq_ok hperm).mpr
    ⟨_, asU64_toDigits hindex, hlt, hone, x, by simp [hat], rfl⟩⟩

/-- The numbers name what they should exactly if an imported account or a second seed does
    not change what a number means. -/
theorem numbersName_iff (parseUuid : List Char → Option AccountUuid) (w : Wallet)
    (legacySeeds : List SeedFingerprint) :
    NumbersName parseUuid w legacySeeds ↔ NumbersKept w legacySeeds := by
  constructor
  · intro h
    constructor
    · intro hone x hx d hd hlt
      have hnamed {z : MigratedAccount} (hz : z ∈ w.accounts) {e : Zip32Derivation}
          (he : Recorded legacySeeds z e) (hindex : e.accountIndex = d.accountIndex) :
          TheOne w (SeedDerived legacySeeds) d.accountIndex z := by
        obtain ⟨order, hperm, hok⟩ := named_last hone hz he (hindex ▸ hlt)
        obtain ⟨index, hn, -, -, y, hy, hid, htheone⟩ := (h order hperm _ _).mp hok
        have hlt64 : e.accountIndex < 2 ^ 64 := by
          unfold zcashLegacyAccount at hlt
          omega
        obtain rfl : e.accountIndex = index := Option.some.inj ((asU64_toDigits hlt64).symm.trans hn)
        rwa [eq_of_id_eq hy hz hid, hindex] at htheone
      obtain ⟨⟨d', hd', -⟩, hunique⟩ := hnamed hx hd rfl
      refine ⟨by rw [hd.eq hd'.recorded]; exact hd'.1, fun y hy e he hindex => ?_⟩
      obtain ⟨⟨e', he', hindex'⟩, -⟩ := hnamed hy he hindex
      exact hunique y hy e' he' hindex'
    · intro hmany hone x hx index hlt htheone
      have hindex : index < 2 ^ 64 := by
        unfold zcashLegacyAccount at hlt
        omega
      have hok := (h w.accounts (List.Perm.refl _) (Nat.toDigits 10 index) x.id).mpr
        ⟨index, asU64_toDigits hindex, hlt, hone, x, hx, rfl, htheone⟩
      obtain ⟨_, -, -, hrecorded, -⟩ := (accountOfNumber_eq_ok (List.Perm.refl _)).mp hok
      exact hmany hrecorded
  · intro h order horder n id
    refine (accountOfNumber_eq_ok horder).trans ?_
    constructor
    · rintro ⟨index, hn, hlt, hone, x, hfind, hid⟩
      have hx := horder.subset (List.mem_reverse.mp (List.mem_of_find?_eq_some hfind))
      obtain ⟨d, hd, rfl⟩ := atIndex_iff.mp (List.find?_some hfind)
      obtain ⟨hsource, hunique⟩ := h.oneSeed hone x hx d hd hlt
      exact ⟨_, hn, hlt, fun x hx y hy d d' hd hd' => hone x hx y hy d d' hd.recorded hd'.recorded,
        x, hx, hid, ⟨d, ⟨hsource, hd.2⟩, rfl⟩, fun y hy e he => hunique y hy e he.recorded⟩
    · rintro ⟨index, hn, hlt, hone, x, hx, hid, htheone⟩
      have hrecorded : OneSeed w (Recorded legacySeeds) := by
        by_contra hmany
        exact h.manySeeds hmany hone x hx index hlt htheone
      refine ⟨index, hn, hlt, hrecorded, x, ?_, hid⟩
      obtain ⟨⟨d, hd, rfl⟩, -⟩ := htheone
      have hat := atIndex_iff.mpr ⟨d, hd.recorded, rfl⟩
      cases hfind : order.reverse.find? (AtIndex legacySeeds d.accountIndex) with
      | none =>
        have hmem := List.mem_reverse.mpr (horder.mem_iff.mpr hx)
        exact absurd hat (List.find?_eq_none.mp hfind x hmem)
      | some y =>
        have hy := horder.subset (List.mem_reverse.mp (List.mem_of_find?_eq_some hfind))
        obtain ⟨e, he, hindex⟩ := atIndex_iff.mp (List.find?_some hfind)
        rw [(h.oneSeed hrecorded x hx d hd.recorded hlt).2 y hy e he hindex]

end

/-- Whatever the order in which the accounts are listed, the legacy pool is the account that
    the configuration names, exactly if there is one to choose from; and the numbers name
    accounts that were not imported, exactly if the other derivations do not change what a
    number means. -/
theorem selection_iff (parseUuid : List Char → Option AccountUuid) (w : Wallet)
    (config : Option SeedFingerprint) (legacySeeds : List SeedFingerprint) :
    NamesLegacyPool w config ∧ NumbersName parseUuid w legacySeeds ↔
      OneLegacyPool w config ∧ NumbersKept w legacySeeds :=
  and_congr (namesLegacyPool_iff w config) (numbersName_iff parseUuid w legacySeeds)

/-! ## Accounts that look alike -/

namespace LookAlikes

def seed : SeedFingerprint := ⟨[1]⟩

def account (id : AccountUuid) (source : AccountSource) : Account := ⟨id, "", source, ⟨"uview"⟩, 0⟩

/-- The legacy account of an address, the legacy pool, an account and an imported one. -/
def wallet : Wallet where
  accounts :=
    [⟨account 1 (.Derived ⟨seed, zcashLegacyAccount⟩), some 0⟩,
     ⟨account 2 (.Derived ⟨seed, zcashLegacyAccount⟩), none⟩,
     ⟨account 3 (.Derived ⟨seed, 0⟩), none⟩,
     ⟨account 4 (.Imported (.Spending (some ⟨seed, 0⟩))), some 0⟩]
  nodup := by decide

theorem seed_of_recorded {x : MigratedAccount} (hx : x ∈ wallet.accounts) {d : Zip32Derivation}
    (hd : Recorded [] x d) : d.seedFingerprint = seed := by
  simp only [wallet, List.mem_cons, List.not_mem_nil, or_false] at hx
  obtain rfl | rfl | rfl | rfl := hx <;> cases hd.1 <;> rfl

theorem number_zero : parseAccountParameter (fun _ => none) (wallet.reads wallet.accounts) (.ok [])
    (.Number ['0']) = .ok 4 := by
  have hdigits : asU64 (Nat.toDigits 10 0) = some 0 := asU64_toDigits (by norm_num)
  have hzero : asU64 ['0'] = some 0 := hdigits
  have hlt : 0 < zcashLegacyAccount := by norm_num [zcashLegacyAccount]
  have hone : OneSeed wallet (Recorded []) := fun x hx y hy d d' hd hd' => by
    rw [seed_of_recorded hx hd, seed_of_recorded hy hd']
  have hfind : wallet.accounts.reverse.find? (AtIndex [] 0) =
      some ⟨account 4 (.Imported (.Spending (some ⟨seed, 0⟩))), some 0⟩ := rfl
  rw [parseAccountParameter, accountOfNumber_eq_ok (List.Perm.refl wallet.accounts)]
  exact ⟨0, hzero, hlt, hone, _, hfind, rfl⟩

/-- The legacy account of an address is taken for the pool, and account 0 is the imported
    one. -/
theorem other_selected :
    legacyPoolAccount (wallet.reads wallet.accounts) (some seed) =
        .ok (account 1 (.Derived ⟨seed, zcashLegacyAccount⟩)) ∧
      parseAccountParameter (fun _ => none) (wallet.reads wallet.accounts) (.ok [])
        (.Number ['0']) = .ok 4 ∧
      ¬ NamesLegacyPool wallet (some seed) ∧ ¬ NumbersName (fun _ => none) wallet [] := by
  refine ⟨rfl, number_zero, fun h => ?_, fun h => ?_⟩
  · have hpool := (namesLegacyPool_iff _ _).mp h _ rfl _ List.mem_cons_self rfl
    cases hpool.1
  · obtain ⟨index, -, -, -, x, hx, hid, ⟨d, hd, -⟩, -⟩ :=
      (h wallet.accounts (List.Perm.refl _) ['0'] 4).mp number_zero
    simp only [wallet, List.mem_cons, List.not_mem_nil, or_false] at hx
    obtain rfl | rfl | rfl | rfl := hx
    · cases hid
    · cases hid
    · cases hid
    · cases hd.1

end LookAlikes

end Zallet.Rpc.AccountSelection
