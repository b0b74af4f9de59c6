import Zallet.Rpc.ListUnspent
import Zallet.Rpc.Requests

/-!
# Balances

The three calls that report balances (`zallet-core/src/components/json_rpc/methods`):
`z_getbalanceforaccount` (z_get_balance_for_account.rs, lines 20–128), `z_getbalances`
(get_balances.rs, lines 44–299) and `z_gettotalbalance` (z_get_total_balance.rs, lines
37–95).

`DataApi` has the balances of `zcash_client_backend`. A total of these is an amount, and
the accessors of an account's balance cover the pools that their equations say.

* `Zatoshis.sum_eq_some`: a checked sum is exact, and fails exactly where the exact sum
  is not an amount.
* `minconf_agrees_iff`: when the calls agree on what `minconf` means.
* `totals_exact`: the totals of a report are the sums of what it reports.
-/

namespace Zallet.Rpc

open Zallet.Common.Loop
open Zallet.Rpc.ListUnspent (ConfirmationsPolicy)
open Zallet.Wallet (AccountUuid)

/-! ## Sums of amounts -/

/-- `a + b + c + …`, checked from the left. -/
def Zatoshis.sum (a : Zatoshis) (rest : List Zatoshis) : Option Zatoshis :=
  rest.foldl (fun total b => total.bind fun a => a.add b) (some a)

theorem Zatoshis.add_eq_some {a b t : Zatoshis} :
    a.add b = some t ↔ t.value = a.value + b.value := by
  have ht := t.le_max
  unfold Zatoshis.add
  split
  · rw [Option.some.injEq]
    constructor
    · rintro rfl
      rfl
    · intro h
      cases t
      subst h
      rfl
  · simp only [reduceCtorEq, false_iff]
    omega

/-- A fold of checked additions is the exact sum. Every amount is at least zero, so no
    partial sum exceeds the bound where the whole one does not. -/
theorem foldl_checked_eq_some {α : Type} {f : Zatoshis → α → Option Zatoshis} (size : α → ℕ)
    (hf : ∀ z a t, f z a = some t ↔ t.value = z.value + size a) {l : List α} {z t : Zatoshis} :
    l.foldl (fun total a => total.bind fun z => f z a) (some z) = some t ↔
      t.value = z.value + (l.map size).sum := by
  have hnone : ∀ l : List α, l.foldl (fun total a => total.bind fun z => f z a) none = none := by
    intro l
    induction l with
    | nil => rfl
    | cons a l ih => exact ih
  induction l generalizing z with
  | nil =>
    cases z
    cases t
    simp [eq_comm]
  | cons a l ih =>
    rw [List.foldl_cons, Option.bind_some, List.map_cons, List.sum_cons, ← Nat.add_assoc]
    cases hadd : f z a with
    | none =>
      rw [hnone]
      simp only [reduceCtorEq, false_iff]
      intro ht
      have hle := t.le_max
      have hza : z.value + size a ≤ maxMoney := by omega
      have hsome := (hf z a ⟨_, hza⟩).mpr rfl
      rw [hadd] at hsome
      cases hsome
    | some c => exact ih.trans (by rw [(hf z a c).mp hadd])

theorem Zatoshis.sum_eq_some {a t : Zatoshis} {rest : List Zatoshis} :
    a.sum rest = some t ↔ t.value = a.value + (rest.map Zatoshis.value).sum :=
  foldl_checked_eq_some Zatoshis.value fun _ _ _ => Zatoshis.add_eq_some

/-! ## The balances of the wallet -/

namespace DataApi

/-- `data_api::Balance`. -/
structure Balance where
  spendableValue : Zatoshis
  changePendingConfirmation : Zatoshis
  valuePendingSpendability : Zatoshis
  uneconomicValue : Zatoshis
  total_le : spendableValue.value + changePendingConfirmation.value +
    valuePendingSpendability.value ≤ maxMoney
  deriving DecidableEq

/-- `Balance::total`. -/
def Balance.total (b : Balance) : Zatoshis := ⟨_, b.total_le⟩

/-- `data_api::AccountBalance`, with what its accessors return. -/
structure AccountBalance where
  sapling : Balance
  orchard : Balance
  ironwood : Balance
  unshieldedRegular : Balance
  unshieldedCoinbase : Balance
  unshielded : Balance
  spendableValue : Zatoshis
  changePendingConfirmation : Zatoshis
  valuePendingSpendability : Zatoshis
  uneconomicValue : Zatoshis
  spendable_eq : spendableValue.value = sapling.spendableValue.value +
    orchard.spendableValue.value + ironwood.spendableValue.value
  change_eq : changePendingConfirmation.value = sapling.changePendingConfirmation.value +
    orchard.changePendingConfirmation.value + ironwood.changePendingConfirmation.value
  pending_eq : valuePendingSpendability.value = sapling.valuePendingSpendability.value +
    orchard.valuePendingSpendability.value + ironwood.valuePendingSpendability.value
  uneconomic_eq : uneconomicValue.value = sapling.uneconomicValue.value +
    orchard.uneconomicValue.value + ironwood.uneconomicValue.value +
    unshieldedRegular.uneconomicValue.value + unshieldedCoinbase.uneconomicValue.value
  unshielded_spendable : unshielded.spendableValue.value =
    unshieldedRegular.spendableValue.value + unshieldedCoinbase.spendableValue.value
  unshielded_change : unshielded.changePendingConfirmation.value =
    unshieldedRegular.changePendingConfirmation.value +
      unshieldedCoinbase.changePendingConfirmation.value
  unshielded_pending : unshielded.valuePendingSpendability.value =
    unshieldedRegular.valuePendingSpendability.value +
      unshieldedCoinbase.valuePendingSpendability.value
  unshielded_uneconomic : unshielded.uneconomicValue.value =
    unshieldedRegular.uneconomicValue.value + unshieldedCoinbase.uneconomicValue.value

end DataApi

/-- What the calls ask of the wallet. -/
structure BalanceWallet where
  /-- `get_wallet_summary`, by the balances of the accounts. -/
  getWalletSummary : ConfirmationsPolicy →
    Except String (Option (AList fun _ : AccountUuid => DataApi.AccountBalance))
  uuidText : AccountUuid → String
  uuidText_injective : Function.Injective uuidText

/-- `get_wallet_summary` with its error mapped. -/
def BalanceWallet.summary (W : BalanceWallet) (policy : ConfirmationsPolicy) :
    Except RpcError (Option (AList fun _ : AccountUuid => DataApi.AccountBalance)) :=
  (W.getWalletSummary policy).mapError LegacyCode.Database.withMessage

/-- The error of a wallet without a summary. -/
def syncRequired : RpcError := LegacyCode.InWarmup.withMessage "Wallet sync required"

/-! ## `z_getbalanceforaccount` -/

/-- `Pools` (lines 31–58): the `valueZat` of each pool that is not omitted. -/
structure Pools where
  transparent : Option ℕ
  sapling : Option ℕ
  orchard : Option ℕ
  ironwood : Option ℕ
  deriving DecidableEq

/-- `BalanceForAccount` (lines 22–29). -/
structure BalanceForAccount where
  pools : Pools
  minimumConfirmations : ℕ
  deriving DecidableEq

/-- `pool_balance` (lines 124–128). -/
def poolBalance (value : Zatoshis) : Option ℕ := if value.value = 0 then none else some value.value

/-- `response_for_balance` (lines 107–120). -/
def responseForBalance (accountBalance : DataApi.AccountBalance) (minconf : Option ℕ) :
    BalanceForAccount where
  pools := {
    transparent := poolBalance accountBalance.unshielded.spendableValue
    sapling := poolBalance accountBalance.sapling.spendableValue
    orchard := poolBalance accountBalance.orchard.spendableValue
    ironwood := poolBalance accountBalance.ironwood.spendableValue }
  minimumConfirmations := minconf.getD 1

/-- The policy of the call (lines 81–87). -/
def balanceForAccountPolicy (minconf : Option ℕ) : ConfirmationsPolicy :=
  match minconf.bind fun c => if c = 0 then none else some c with
  | some c => .newSymmetrical c false
  | none => .newSymmetrical 1 true

/-- `z_getbalanceforaccount` (lines 73–101). `accountId` is the outcome of
    `parse_account_parameter` on `account`. -/
def zGetbalanceforaccount (W : BalanceWallet) (account : String)
    (accountId : Except RpcError AccountUuid) (minconf : Option ℕ) :
    Except RpcError BalanceForAccount := do
  let accountId ← accountId
  match ← W.summary (balanceForAccountPolicy minconf) with
  | none => .error syncRequired
  | some balances =>
    match balances.lookup accountId with
    | none => .error (LegacyCode.InvalidParameter.withMessage
        ("Error: account " ++ account ++ " has not been generated by z_getnewaccount."))
    | some accountBalance => .ok (responseForBalance accountBalance minconf)

/-! ## `z_getbalances` -/

/-- `Balance` (lines 113–144). The field `locked` is never present. -/
structure Balance where
  spendable : ℕ
  pending : Option ℕ
  dust : Option ℕ
  deriving DecidableEq

/-- `TransparentBalance` (lines 98–111). -/
structure TransparentBalance where
  regular : Option Balance
  coinbase : Option Balance
  deriving DecidableEq

/-- `AccountBalance` (lines 44–87). The list `transparent_watchonly` is always empty. -/
structure AccountBalance where
  accountUuid : String
  transparent : Option TransparentBalance
  sapling : Option Balance
  orchard : Option Balance
  ironwood : Option Balance
  total : Balance
  deriving DecidableEq

/-- The error where an amount exceeds the bound. -/
def databaseCorrupt : RpcError :=
  LegacyCode.Database.withMessage "Wallet database is corrupt: storing more than MAX_MONEY"

/-- `ok_or` with that error. -/
def orCorrupt : Option Zatoshis → Except RpcError Zatoshis
  | some value => .ok value
  | none => .error databaseCorrupt

/-- `opt_value` (lines 295–299). -/
def optValue (value : Zatoshis) : Option ℕ := if value.value = 0 then none else some value.value

/-- `balance` (lines 271–278). -/
def balance (spendable pending dust : Zatoshis) : Balance :=
  ⟨spendable.value, optValue pending, optValue dust⟩

/-- `opt_balance` (lines 280–287). -/
def optBalance (spendable pending dust : Zatoshis) : Option Balance :=
  if spendable.value = 0 ∧ pending.value = 0 ∧ dust.value = 0 then none
  else some (balance spendable pending dust)

/-- `opt_balance_from` (lines 260–269). -/
def optBalanceFrom (b : DataApi.Balance) : Except RpcError (Option Balance) := do
  let pending ← orCorrupt (b.changePendingConfirmation.sum [b.valuePendingSpendability])
  .ok (optBalance b.spendableValue pending b.uneconomicValue)

/-- The closure `is_empty` of `opt_transparent_balance`. -/
def isEmptyBalance (b : DataApi.Balance) : Bool :=
  decide (b.total.value = 0) && decide (b.uneconomicValue.value = 0)

/-- `opt_transparent_balance` (lines 213–228). -/
def optTransparentBalance (regular coinbase : DataApi.Balance) :
    Except RpcError (Option TransparentBalance) :=
  if isEmptyBalance regular && isEmptyBalance coinbase then .ok none
  else do
    let regular ← optBalanceFrom regular
    let coinbase ← optBalanceFrom coinbase
    .ok (some ⟨regular, coinbase⟩)

/-- `balance_from` (lines 230–258). -/
def balanceFrom (b : DataApi.AccountBalance) : Except RpcError Balance := do
  let regular := b.unshieldedRegular
  let coinbase := b.unshieldedCoinbase
  let spendable ← orCorrupt
    (b.spendableValue.sum [regular.spendableValue, coinbase.spendableValue])
  let pending ← orCorrupt
    (b.changePendingConfirmation.sum [b.valuePendingSpendability,
      regular.changePendingConfirmation, regular.valuePendingSpendability,
      coinbase.changePendingConfirmation, coinbase.valuePendingSpendability])
  .ok (balance spendable pending b.uneconomicValue)

/-- `account_balance_response` (lines 194–212). -/
def accountBalanceResponse (accountUuid : String) (account : DataApi.AccountBalance) :
    Except RpcError AccountBalance := do
  let transparent ← optTransparentBalance account.unshieldedRegular account.unshieldedCoinbase
  let sapling ← optBalanceFrom account.sapling
  let orchard ← optBalanceFrom account.orchard
  let ironwood ← optBalanceFrom account.ironwood
  let total ← balanceFrom account
  .ok ⟨accountUuid, transparent, sapling, orchard, ironwood, total⟩

/-- The policy of `z_getbalances` (lines 157–166) and of `z_gettotalbalance` (lines
    48–54). -/
def balancesPolicy : Option ℕ → ConfirmationsPolicy
  | some minconf => if minconf = 0 then .newSymmetrical 1 true else .newSymmetrical minconf false
  | none => .newSymmetrical 1 false

/-- `z_getbalances` (lines 156–191), by the accounts of the report. -/
def getBalances (W : BalanceWallet) (minconf : Option ℕ) : Except RpcError (List AccountBalance) := do
  match ← W.summary (balancesPolicy minconf) with
  | none => .error syncRequired
  | some balances => collect (fun account => do
      let response ← accountBalanceResponse (W.uuidText account.1) account.2
      .ok [response]) balances.entries

/-! ## `z_gettotalbalance` -/

/-- `TotalBalance` (lines 20–30). -/
structure TotalBalance where
  transparent : List Char
  private_ : List Char
  total : List Char
  deriving DecidableEq

section

variable {Decimal : Type} (decimals : Decimals Decimal)

/-- `value_from_zatoshis(value).to_string()`. -/
def zecText (value : Zatoshis) : List Char := decimals.display (valueFromZatoshis decimals value)

/-- One turn of the fold (lines 74–82). -/
def addBalance (totals : Option Zatoshis × Option Zatoshis) (balance : DataApi.AccountBalance) :
    Option Zatoshis × Option Zatoshis :=
  (totals.1.bind fun transparent => transparent.sum [balance.unshielded.total],
    totals.2.bind fun shielded =>
      shielded.sum [balance.sapling.total, balance.orchard.total, balance.ironwood.total])

/-- `total_balance` (lines 71–95). -/
def totalBalance (balances : List DataApi.AccountBalance) : Except RpcError TotalBalance :=
  match balances.foldl addBalance (some .zero, some .zero) with
  | (some transparent, some shielded) =>
    match transparent.add shielded with
    | some total =>
      .ok ⟨zecText decimals transparent, zecText decimals shielded, zecText decimals total⟩
    | none => .error (LegacyCode.Wallet.withMessage "balance overflow")
  | _ => .error (LegacyCode.Wallet.withMessage "balance overflow")

/-- `z_gettotalbalance` (lines 37–64). -/
def zGettotalbalance (W : BalanceWallet) (minconf : Option ℕ) (includeWatchonly : Option Bool) :
    Except RpcError TotalBalance := do
  if includeWatchonly = some true then
    match ← W.summary (balancesPolicy minconf) with
    | some balances => totalBalance decimals (balances.entries.map Sigma.snd)
    | none => totalBalance decimals []
  else .error (LegacyCode.Misc.withMessage
    "include_watchonly argument must be set to true (for now)")

end

/-! ## The totals of a report -/

/-- The pools of an account, the transparent ones first. -/
def DataApi.AccountBalance.pools (b : DataApi.AccountBalance) : List DataApi.Balance :=
  [b.unshieldedRegular, b.unshieldedCoinbase, b.sapling, b.orchard, b.ironwood]

/-- What is pending in a pool. -/
def DataApi.Balance.pending (b : DataApi.Balance) : ℕ :=
  b.changePendingConfirmation.value + b.valuePendingSpendability.value

/-- The sums that a report of an account forms: its spendable value, its pending value,
    and what is pending in each pool. -/
def DataApi.AccountBalance.sums (b : DataApi.AccountBalance) : List ℕ :=
  (b.pools.map fun pool => pool.spendableValue.value).sum ::
    (b.pools.map DataApi.Balance.pending).sum :: b.pools.map DataApi.Balance.pending

/-- The entries of a report, in the order of the pools. -/
def AccountBalance.entries (r : AccountBalance) : List (Option Balance) :=
  [r.transparent.bind TransparentBalance.regular, r.transparent.bind TransparentBalance.coinbase,
    r.sapling, r.orchard, r.ironwood]

def spendableOf (entry : Option Balance) : ℕ := entry.elim 0 Balance.spendable

def pendingOf (entry : Option Balance) : ℕ := entry.elim 0 fun b => b.pending.getD 0

def dustOf (entry : Option Balance) : ℕ := entry.elim 0 fun b => b.dust.getD 0

/-- An entry shows the values of its pool; where it is absent they are zero. -/
structure Shows (pool : DataApi.Balance) (entry : Option Balance) : Prop where
  spendable : spendableOf entry = pool.spendableValue.value
  pending : pendingOf entry = pool.pending
  dust : dustOf entry = pool.uneconomicValue.value

theorem getD_optValue (value : Zatoshis) : (optValue value).getD 0 = value.value := by
  unfold optValue
  split
  · rename_i h
    rw [h]
    rfl
  · rfl

theorem orCorrupt_eq_ok {o : Option Zatoshis} {v : Zatoshis} : orCorrupt o = .ok v ↔ o = some v := by
  cases o <;> simp [orCorrupt]

theorem shows_optBalance {pool : DataApi.Balance} {pending : Zatoshis}
    (h : pending.value = pool.pending) :
    Shows pool (optBalance pool.spendableValue pending pool.uneconomicValue) := by
  unfold optBalance
  split
  · rename_i hzero
    obtain ⟨hspendable, hpending, hdust⟩ := hzero
    exact ⟨hspendable.symm, hpending.symm.trans h, hdust.symm⟩
  · exact ⟨rfl, (getD_optValue pending).trans h, getD_optValue _⟩

/-- A pool is always reported: what is pending is no more than its total. -/
theorem optBalanceFrom_ok (pool : DataApi.Balance) :
    ∃ entry, optBalanceFrom pool = .ok entry ∧ Shows pool entry := by
  have hle := pool.total_le
  have hpending : pool.pending ≤ maxMoney := by
    unfold DataApi.Balance.pending
    omega
  have hsum : pool.changePendingConfirmation.sum [pool.valuePendingSpendability] =
      some ⟨pool.pending, hpending⟩ := by
    rw [Zatoshis.sum_eq_some]
    simp [DataApi.Balance.pending]
  refine ⟨optBalance pool.spendableValue ⟨pool.pending, hpending⟩ pool.uneconomicValue, ?_, ?_⟩
  · rw [optBalanceFrom, hsum]
    rfl
  · exact shows_optBalance rfl

theorem shows_none {pool : DataApi.Balance} (h : isEmptyBalance pool = true) : Shows pool none := by
  rw [isEmptyBalance, Bool.and_eq_true, decide_eq_true_eq, decide_eq_true_eq] at h
  obtain ⟨htotal, hdust⟩ := h
  have hsum : pool.spendableValue.value + pool.changePendingConfirmation.value +
      pool.valuePendingSpendability.value = 0 := htotal
  refine ⟨?_, ?_, hdust.symm⟩
  · show 0 = pool.spendableValue.value
    omega
  · show 0 = pool.changePendingConfirmation.value + pool.valuePendingSpendability.value
    omega

theorem optTransparentBalance_ok (regular coinbase : DataApi.Balance) :
    ∃ entry, optTransparentBalance regular coinbase = .ok entry ∧
      Shows regular (entry.bind TransparentBalance.regular) ∧
      Shows coinbase (entry.bind TransparentBalance.coinbase) := by
  unfold optTransparentBalance
  by_cases hempty : (isEmptyBalance regular && isEmptyBalance coinbase) = true
  · rw [if_pos hempty]
    rw [Bool.and_eq_true] at hempty
    exact ⟨none, rfl, shows_none hempty.1, shows_none hempty.2⟩
  · rw [if_neg hempty]
    obtain ⟨r, hr, hshowsR⟩ := optBalanceFrom_ok regular
    obtain ⟨c, hc, hshowsC⟩ := optBalanceFrom_ok coinbase
    rw [hr, hc]
    exact ⟨some ⟨r, c⟩, rfl, hshowsR, hshowsC⟩

/-- When the total of an account is reported, and which. -/
theorem balanceFrom_eq_ok {b : DataApi.AccountBalance} {total : Balance} :
    balanceFrom b = .ok total ↔ ∃ spendable pending : Zatoshis,
      spendable.value = (b.pools.map fun pool => pool.spendableValue.value).sum ∧
      pending.value = (b.pools.map DataApi.Balance.pending).sum ∧
      total = balance spendable pending b.uneconomicValue := by
  have hspendable := b.spendable_eq
  have hchange := b.change_eq
  have hvalue := b.pending_eq
  simp only [balanceFrom, bind_eq_ok, orCorrupt_eq_ok, Zatoshis.sum_eq_some, Except.ok.injEq]
  constructor
  · rintro ⟨spendable, hs, pending, hp, rfl⟩
    refine ⟨spendable, pending, ?_, ?_, rfl⟩
    · simp [DataApi.AccountBalance.pools] at hs ⊢
      omega
    · simp [DataApi.AccountBalance.pools, DataApi.Balance.pending] at hp ⊢
      omega
  · rintro ⟨spendable, pending, hs, hp, rfl⟩
    refine ⟨spendable, ?_, pending, ?_, rfl⟩
    · simp [DataApi.AccountBalance.pools] at hs ⊢
      omega
    · simp [DataApi.AccountBalance.pools, DataApi.Balance.pending] at hp ⊢
      omega

/-- The entries of a report are always formed; the report stands or falls with its
    total. -/
theorem accountBalanceResponse_spec (accountUuid : String) (b : DataApi.AccountBalance) :
    (∀ r, accountBalanceResponse accountUuid b = .ok r →
      balanceFrom b = .ok r.total ∧ r.accountUuid = accountUuid ∧
        List.Forall₂ Shows b.pools r.entries) ∧
    ∀ total, balanceFrom b = .ok total → ∃ r, accountBalanceResponse accountUuid b = .ok r := by
  obtain ⟨transparent, htransparent, hregular, hcoinbase⟩ :=
    optTransparentBalance_ok b.unshieldedRegular b.unshieldedCoinbase
  obtain ⟨sapling, hsapling, hshowsS⟩ := optBalanceFrom_ok b.sapling
  obtain ⟨orchard, horchard, hshowsO⟩ := optBalanceFrom_ok b.orchard
  obtain ⟨ironwood, hironwood, hshowsI⟩ := optBalanceFrom_ok b.ironwood
  have heq : accountBalanceResponse accountUuid b = balanceFrom b >>= fun total =>
      .ok ⟨accountUuid, transparent, sapling, orchard, ironwood, total⟩ := by
    rw [accountBalanceResponse, htransparent, hsapling, horchard, hironwood]
    rfl
  rw [heq]
  constructor
  · intro r hr
    obtain ⟨total, htotal, hr⟩ := bind_eq_ok.mp hr
    cases hr
    exact ⟨htotal, rfl, .cons hregular (.cons hcoinbase (.cons hshowsS (.cons hshowsO
      (.cons hshowsI .nil))))⟩
  · intro total htotal
    exact ⟨_, bind_eq_ok.mpr ⟨total, htotal, rfl⟩⟩

/-- The exact sum of a column of the entries is that of the pools. -/
theorem sum_entries {pools : List DataApi.Balance} {entries : List (Option Balance)}
    (h : List.Forall₂ Shows pools entries) :
    (entries.map spendableOf).sum = (pools.map fun pool => pool.spendableValue.value).sum ∧
      (entries.map pendingOf).sum = (pools.map DataApi.Balance.pending).sum ∧
      (entries.map dustOf).sum = (pools.map fun pool => pool.uneconomicValue.value).sum := by
  induction h with
  | nil => exact ⟨rfl, rfl, rfl⟩
  | cons hshows _ ih =>
    obtain ⟨hs, hp, hd⟩ := ih
    simp only [List.map_cons, List.sum_cons, hs, hp, hd, hshows.spendable, hshows.pending,
      hshows.dust, and_self]

/-- An account is reported exactly where every sum of its report is an amount. -/
theorem accountBalanceResponse_isOk (accountUuid : String) (b : DataApi.AccountBalance) :
    (∃ r, accountBalanceResponse accountUuid b = .ok r) ↔ ∀ s ∈ b.sums, s ≤ maxMoney := by
  obtain ⟨hok, hreport⟩ := accountBalanceResponse_spec accountUuid b
  constructor
  · rintro ⟨r, hr⟩
    obtain ⟨spendable, pending, hs, hp, -⟩ := balanceFrom_eq_ok.mp (hok r hr).1
    have hle : (b.pools.map DataApi.Balance.pending).sum ≤ maxMoney := hp ▸ pending.le_max
    intro s hmem
    rcases List.mem_cons.mp hmem with rfl | hmem
    · exact hs ▸ spendable.le_max
    rcases List.mem_cons.mp hmem with rfl | hmem
    · exact hle
    · exact (List.single_le_sum (fun _ _ => Nat.zero_le _) s hmem).trans hle
  · intro h
    have hs := h _ (List.mem_cons_self ..)
    have hp := h _ (List.mem_cons_of_mem _ (List.mem_cons_self ..))
    exact hreport _ (balanceFrom_eq_ok.mpr ⟨⟨_, hs⟩, ⟨_, hp⟩, rfl, rfl, rfl⟩)

/-- The total of a report is the sum of its entries. -/
theorem total_eq_entries {accountUuid : String} {b : DataApi.AccountBalance} {r : AccountBalance}
    (h : accountBalanceResponse accountUuid b = .ok r) :
    r.total.spendable = (r.entries.map spendableOf).sum ∧
      r.total.pending.getD 0 = (r.entries.map pendingOf).sum ∧
      r.total.dust.getD 0 = (r.entries.map dustOf).sum := by
  obtain ⟨hfrom, -, hshows⟩ := (accountBalanceResponse_spec accountUuid b).1 r h
  obtain ⟨spendable, pending, hs, hp, htotal⟩ := balanceFrom_eq_ok.mp hfrom
  obtain ⟨hspendables, hpendings, hdusts⟩ := sum_entries hshows
  have hdust := b.uneconomic_eq
  rw [htotal, hspendables, hpendings, hdusts]
  refine ⟨hs, (getD_optValue pending).trans hp, (getD_optValue _).trans ?_⟩
  simp [DataApi.AccountBalance.pools]
  omega

/-! ### The totals of the wallet -/

/-- The transparent total of an account. -/
def DataApi.AccountBalance.transparentTotal (b : DataApi.AccountBalance) : ℕ :=
  b.unshieldedRegular.total.value + b.unshieldedCoinbase.total.value

/-- The shielded total of an account. -/
def DataApi.AccountBalance.privateTotal (b : DataApi.AccountBalance) : ℕ :=
  b.sapling.total.value + b.orchard.total.value + b.ironwood.total.value

theorem unshielded_total (b : DataApi.AccountBalance) :
    b.unshielded.total.value = b.transparentTotal := by
  have hspendable := b.unshielded_spendable
  have hchange := b.unshielded_change
  have hpending := b.unshielded_pending
  simp only [DataApi.Balance.total, DataApi.AccountBalance.transparentTotal]
  omega

/-- The two totals of the fold. -/
theorem foldl_addBalance (balances : List DataApi.AccountBalance)
    (totals : Option Zatoshis × Option Zatoshis) :
    balances.foldl addBalance totals =
      (balances.foldl (fun acc b => acc.bind fun z => z.sum [b.unshielded.total]) totals.1,
        balances.foldl (fun acc b => acc.bind fun z =>
          z.sum [b.sapling.total, b.orchard.total, b.ironwood.total]) totals.2) := by
  induction balances generalizing totals with
  | nil => rfl
  | cons b balances ih => exact ih _

theorem foldl_addBalance_eq_some {balances : List DataApi.AccountBalance} {t p : Zatoshis} :
    balances.foldl addBalance (some .zero, some .zero) = (some t, some p) ↔
      t.value = (balances.map DataApi.AccountBalance.transparentTotal).sum ∧
        p.value = (balances.map DataApi.AccountBalance.privateTotal).sum := by
  rw [foldl_addBalance, Prod.mk.injEq,
    foldl_checked_eq_some DataApi.AccountBalance.transparentTotal fun z b t => ?_,
    foldl_checked_eq_some DataApi.AccountBalance.privateTotal fun z b t => ?_]
  · simp only [Zatoshis.zero, Nat.zero_add]
  · rw [Zatoshis.sum_eq_some]
    simp [DataApi.AccountBalance.privateTotal, Nat.add_assoc]
  · rw [Zatoshis.sum_eq_some]
    simp [unshielded_total]

section

variable {Decimal : Type} {decimals : Decimals Decimal}

/-- When the totals of the wallet are reported, and which. -/
theorem totalBalance_eq_ok {balances : List DataApi.AccountBalance} {r : TotalBalance} :
    totalBalance decimals balances = .ok r ↔ ∃ t p s : Zatoshis,
      t.value = (balances.map DataApi.AccountBalance.transparentTotal).sum ∧
      p.value = (balances.map DataApi.AccountBalance.privateTotal).sum ∧
      s.value = t.value + p.value ∧
      r = ⟨zecText decimals t, zecText decimals p, zecText decimals s⟩ := by
  unfold totalBalance
  constructor
  · intro h
    rcases hfold : balances.foldl addBalance (some .zero, some .zero) with ⟨_ | t, _ | p⟩
    · rw [hfold] at h; cases h
    · rw [hfold] at h; cases h
    · rw [hfold] at h; cases h
    · rw [hfold] at h
      obtain ⟨ht, hp⟩ := foldl_addBalance_eq_some.mp hfold
      cases hadd : t.add p with
      | none =>
        simp only [hadd] at h
        cases h
      | some s =>
        simp only [hadd, Except.ok.injEq] at h
        exact ⟨t, p, s, ht, hp, Zatoshis.add_eq_some.mp hadd, h.symm⟩
  · rintro ⟨t, p, s, ht, hp, hs, rfl⟩
    rw [foldl_addBalance_eq_some.mpr ⟨ht, hp⟩]
    simp only [Zatoshis.add_eq_some.mpr hs]

theorem totalBalance_isOk (balances : List DataApi.AccountBalance) :
    (∃ r, totalBalance decimals balances = .ok r) ↔
      (balances.map fun b => b.transparentTotal + b.privateTotal).sum ≤ maxMoney := by
  rw [List.sum_map_add]
  simp only [totalBalance_eq_ok]
  constructor
  · rintro ⟨r, t, p, s, ht, hp, hs, -⟩
    rw [← ht, ← hp, ← hs]
    exact s.le_max
  · intro h
    exact ⟨_, ⟨_, (Nat.le_add_right _ _).trans h⟩, ⟨_, (Nat.le_add_left _ _).trans h⟩, ⟨_, h⟩, rfl,
      rfl, rfl, rfl⟩

/-- The call fails with one error only. -/
theorem totalBalance_error {balances : List DataApi.AccountBalance} {e : RpcError}
    (h : totalBalance decimals balances = .error e) :
    e = LegacyCode.Wallet.withMessage "balance overflow" := by
  unfold totalBalance at h
  split at h
  · split at h
    · cases h
    · exact (Except.error.inj h).symm
  · exact (Except.error.inj h).symm

/-- The order of the accounts does not matter. -/
theorem totalBalance_perm {balances balances' : List DataApi.AccountBalance}
    (h : balances.Perm balances') :
    totalBalance decimals balances' = totalBalance decimals balances := by
  have hok : ∀ r, totalBalance decimals balances = .ok r ↔
      totalBalance decimals balances' = .ok r := by
    intro r
    rw [totalBalance_eq_ok, totalBalance_eq_ok,
      (h.map DataApi.AccountBalance.transparentTotal).sum_eq,
      (h.map DataApi.AccountBalance.privateTotal).sum_eq]
  cases hbalances : totalBalance decimals balances with
  | ok r => exact (hok r).mp hbalances
  | error e =>
    cases hbalances' : totalBalance decimals balances' with
    | ok r =>
      rw [(hok r).mpr hbalances'] at hbalances
      cases hbalances
    | error e' => rw [totalBalance_error hbalances, totalBalance_error hbalances']

end

/-- An account is reported exactly where the sums of its report are amounts, and the totals
    of the report are then the sums of its entries, each of which shows one pool; the wallet's
    totals are reported exactly where their exact sum is an amount, and are then exact,
    whatever the order of the accounts. -/
theorem totals_exact :
    (∀ accountUuid (b : DataApi.AccountBalance),
      ((∃ r, accountBalanceResponse accountUuid b = .ok r) ↔ ∀ s ∈ b.sums, s ≤ maxMoney) ∧
      ∀ r, accountBalanceResponse accountUuid b = .ok r →
        r.total.spendable = (r.entries.map spendableOf).sum ∧
        r.total.pending.getD 0 = (r.entries.map pendingOf).sum ∧
        r.total.dust.getD 0 = (r.entries.map dustOf).sum ∧
        List.Forall₂ Shows b.pools r.entries) ∧
    ∀ (Decimal : Type) (decimals : Decimals Decimal) (balances : List DataApi.AccountBalance),
      ((∃ r, totalBalance decimals balances = .ok r) ↔
        (balances.map fun b => b.transparentTotal + b.privateTotal).sum ≤ maxMoney) ∧
      (∀ r, totalBalance decimals balances = .ok r → ∃ t p s : Zatoshis,
        t.value = (balances.map DataApi.AccountBalance.transparentTotal).sum ∧
        p.value = (balances.map DataApi.AccountBalance.privateTotal).sum ∧
        s.value = t.value + p.value ∧
        r = ⟨zecText decimals t, zecText decimals p, zecText decimals s⟩) ∧
      ∀ balances', balances.Perm balances' →
        totalBalance decimals balances' = totalBalance decimals balances := by
  refine ⟨fun accountUuid b => ⟨accountBalanceResponse_isOk accountUuid b, fun r hr => ?_⟩,
    fun Decimal decimals balances => ⟨totalBalance_isOk balances,
      fun r => totalBalance_eq_ok.mp, fun balances' => totalBalance_perm⟩⟩
  obtain ⟨hspendable, hpending, hdust⟩ := total_eq_entries hr
  exact ⟨hspendable, hpending, hdust, ((accountBalanceResponse_spec accountUuid b).1 r hr).2.2⟩

/-! ## What `minconf` means -/

/-- The spendable value of each pool. -/
structure PoolValues where
  transparent : ℕ
  sapling : ℕ
  orchard : ℕ
  ironwood : ℕ
  deriving DecidableEq

/-- The pools that a call reports; those that are omitted hold nothing. -/
def Pools.values (pools : Pools) : PoolValues :=
  ⟨pools.transparent.getD 0, pools.sapling.getD 0, pools.orchard.getD 0, pools.ironwood.getD 0⟩

def AccountBalance.values (r : AccountBalance) : PoolValues where
  transparent := spendableOf (r.transparent.bind TransparentBalance.regular) +
    spendableOf (r.transparent.bind TransparentBalance.coinbase)
  sapling := spendableOf r.sapling
  orchard := spendableOf r.orchard
  ironwood := spendableOf r.ironwood

def DataApi.AccountBalance.values (b : DataApi.AccountBalance) : PoolValues where
  transparent := b.unshieldedRegular.spendableValue.value + b.unshieldedCoinbase.spendableValue.value
  sapling := b.sapling.spendableValue.value
  orchard := b.orchard.spendableValue.value
  ironwood := b.ironwood.spendableValue.value

/-- The calls mean the same by `minconf`: `z_getbalanceforaccount` reports the same pools
    for the `minconf` that it says it used, and `z_getbalances` the same spendable values
    for the account. -/
structure MinconfAgrees (W : BalanceWallet) (account : String) (accountId : AccountUuid)
    (minconf : Option ℕ) : Prop where
  echoed : ∀ r r', zGetbalanceforaccount W account (.ok accountId) minconf = .ok r →
    zGetbalanceforaccount W account (.ok accountId) (some r.minimumConfirmations) = .ok r' →
    r'.pools = r.pools
  balances : ∀ r report, zGetbalanceforaccount W account (.ok accountId) minconf = .ok r →
    getBalances W minconf = .ok report → ∀ entry ∈ report, entry.accountUuid = W.uuidText accountId →
    entry.values = r.pools.values

/-- The balance of an account under a policy. -/
def BalanceWallet.Holds (W : BalanceWallet) (policy : ConfirmationsPolicy) (accountId : AccountUuid)
    (b : DataApi.AccountBalance) : Prop :=
  ∃ balances, W.getWalletSummary policy = .ok (some balances) ∧ balances.lookup accountId = some b

theorem BalanceWallet.Holds.unique {W : BalanceWallet} {policy : ConfirmationsPolicy}
    {accountId : AccountUuid} {b b' : DataApi.AccountBalance} (h : W.Holds policy accountId b)
    (h' : W.Holds policy accountId b') : b' = b := by
  obtain ⟨balances, hsummary, hlookup⟩ := h
  obtain ⟨balances', hsummary', hlookup'⟩ := h'
  rw [hsummary] at hsummary'
  cases hsummary'
  rw [hlookup] at hlookup'
  exact (Option.some.inj hlookup').symm

theorem summary_eq_ok {W : BalanceWallet} {policy : ConfirmationsPolicy}
    {o : Option (AList fun _ : AccountUuid => DataApi.AccountBalance)} :
    W.summary policy = .ok o ↔ W.getWalletSummary policy = .ok o :=
  mapError_eq_ok

/-- What `z_getbalanceforaccount` returns. -/
theorem zGetbalanceforaccount_eq_ok {W : BalanceWallet} {account : String}
    {accountId : AccountUuid} {minconf : Option ℕ} {r : BalanceForAccount} :
    zGetbalanceforaccount W account (.ok accountId) minconf = .ok r ↔
      ∃ b, W.Holds (balanceForAccountPolicy minconf) accountId b ∧
        r = responseForBalance b minconf := by
  simp only [zGetbalanceforaccount, bind_eq_ok, Except.ok.injEq, exists_eq_left', summary_eq_ok,
    BalanceWallet.Holds]
  constructor
  · rintro ⟨_ | balances, hsummary, h⟩
    · cases h
    · cases hlookup : balances.lookup accountId with
      | none =>
        simp only [hlookup] at h
        cases h
      | some b =>
        simp only [hlookup, Except.ok.injEq] at h
        exact ⟨b, ⟨balances, hsummary, hlookup⟩, h.symm⟩
  · rintro ⟨b, ⟨balances, hsummary, hlookup⟩, rfl⟩
    exact ⟨some balances, hsummary, by simp only [hlookup]⟩

/-- The pools of a response are determined by their spendable values. -/
theorem pools_responseForBalance (b : DataApi.AccountBalance) (minconf : Option ℕ) :
    (responseForBalance b minconf).pools.values = b.values := by
  have hgetD : ∀ value : Zatoshis, (poolBalance value).getD 0 = value.value := getD_optValue
  have hunshielded := b.unshielded_spendable
  simp only [responseForBalance, Pools.values, hgetD, DataApi.AccountBalance.values, hunshielded]

theorem poolBalance_injective {v v' : Zatoshis} (h : v.value = v'.value) :
    poolBalance v = poolBalance v' := by
  unfold poolBalance
  rw [h]

theorem pools_eq_iff (b b' : DataApi.AccountBalance) (minconf minconf' : Option ℕ) :
    (responseForBalance b' minconf').pools = (responseForBalance b minconf).pools ↔
      b'.values = b.values := by
  constructor
  · intro h
    rw [← pools_responseForBalance b' minconf', h, pools_responseForBalance]
  · intro h
    have htransparent := congrArg PoolValues.transparent h
    simp only [DataApi.AccountBalance.values] at htransparent
    rw [← b'.unshielded_spendable, ← b.unshielded_spendable] at htransparent
    simp only [responseForBalance, Pools.mk.injEq]
    exact ⟨poolBalance_injective htransparent,
      poolBalance_injective (congrArg PoolValues.sapling h),
      poolBalance_injective (congrArg PoolValues.orchard h),
      poolBalance_injective (congrArg PoolValues.ironwood h)⟩

/-- An entry of `z_getbalances` shows the values of its account. -/
theorem entry_values {W : BalanceWallet} {minconf : Option ℕ} {report : List AccountBalance}
    (h : getBalances W minconf = .ok report) {entry : AccountBalance} (hmem : entry ∈ report)
    {accountId : AccountUuid} (huuid : entry.accountUuid = W.uuidText accountId) :
    ∃ b, W.Holds (balancesPolicy minconf) accountId b ∧ entry.values = b.values := by
  simp only [getBalances, bind_eq_ok, summary_eq_ok] at h
  obtain ⟨_ | balances, hsummary, h⟩ := h
  · cases h
  obtain ⟨g, hg, rfl⟩ := collect_eq_ok.mp h
  obtain ⟨account, haccount, hentry⟩ := List.mem_flatMap.mp hmem
  obtain ⟨response, hresponse, hsingle⟩ := bind_eq_ok.mp (hg account haccount)
  rw [Except.ok.injEq] at hsingle
  rw [← hsingle, List.mem_singleton] at hentry
  subst hentry
  obtain ⟨-, hid, hshows⟩ := (accountBalanceResponse_spec _ _).1 _ hresponse
  have hkey : account.1 = accountId := W.uuidText_injective (hid.symm.trans huuid)
  refine ⟨account.2, ⟨balances, hsummary, ?_⟩, ?_⟩
  · rw [← hkey]
    exact AList.mem_lookup_iff.mpr haccount
  · obtain ⟨hregular, hshows⟩ := List.forall₂_cons.mp hshows
    obtain ⟨hcoinbase, hshows⟩ := List.forall₂_cons.mp hshows
    obtain ⟨hsapling, hshows⟩ := List.forall₂_cons.mp hshows
    obtain ⟨horchard, hshows⟩ := List.forall₂_cons.mp hshows
    obtain ⟨hironwood, -⟩ := List.forall₂_cons.mp hshows
    simp only [AccountBalance.values, DataApi.AccountBalance.values, hregular.spendable,
      hcoinbase.spendable, hsapling.spendable, horchard.spendable, hironwood.spendable]

/-- The policies differ only where `minconf` is absent. -/
theorem policies_some (minconf : ℕ) :
    balanceForAccountPolicy (some minconf) = balancesPolicy (some minconf) := by
  by_cases h : minconf = 0
  · simp [balanceForAccountPolicy, balancesPolicy, h]
  · simp [balanceForAccountPolicy, balancesPolicy, h]

/-- The calls agree on what `minconf` means exactly where it is given, or the wallet holds
    the same spendable values for the account whether outputs without a confirmation may be
    shielded or not. -/
theorem minconf_agrees_iff (W : BalanceWallet) (account : String) (accountId : AccountUuid)
    (minconf : Option ℕ) :
    MinconfAgrees W account accountId minconf ↔
      minconf ≠ none ∨ ∀ b b', W.Holds (.newSymmetrical 1 true) accountId b →
        W.Holds (.newSymmetrical 1 false) accountId b' → b'.values = b.values := by
  constructor
  · intro h
    cases minconf with
    | some minconf => exact Or.inl (Option.some_ne_none _)
    | none =>
      refine Or.inr fun b b' hb hb' => ?_
      have hpools := h.echoed _ _ (zGetbalanceforaccount_eq_ok.mpr ⟨b, hb, rfl⟩)
        (zGetbalanceforaccount_eq_ok.mpr ⟨b', hb', rfl⟩)
      exact (pools_eq_iff b b' _ _).mp hpools
  · intro h
    constructor
    · intro r r' hr hr'
      obtain ⟨b, hb, rfl⟩ := zGetbalanceforaccount_eq_ok.mp hr
      obtain ⟨b', hb', rfl⟩ := zGetbalanceforaccount_eq_ok.mp hr'
      rw [pools_eq_iff]
      cases minconf with
      | some minconf => rw [hb.unique hb']
      | none => exact (h.resolve_left fun hne => hne rfl) b b' hb hb'
    · intro r report hr hreport entry hmem huuid
      obtain ⟨b, hb, rfl⟩ := zGetbalanceforaccount_eq_ok.mp hr
      obtain ⟨b', hb', hvalues⟩ := entry_values hreport hmem huuid
      rw [hvalues, pools_responseForBalance]
      cases minconf with
      | some minconf =>
        rw [← policies_some] at hb'
        rw [hb.unique hb']
      | none => exact (h.resolve_left fun hne => hne rfl) b b' hb hb'

/-! ### A wallet with an unconfirmed transparent output -/

namespace UnconfirmedOutput

def zero : Zatoshis := ⟨0, by decide⟩

def output : Zatoshis := ⟨50000, by decide⟩

/-- A pool of funds that can be spent, and of others that cannot yet. -/
def pool (spendable pending : Zatoshis)
    (h : spendable.value + zero.value + pending.value ≤ maxMoney) : DataApi.Balance where
  spendableValue := spendable
  changePendingConfirmation := zero
  valuePendingSpendability := pending
  uneconomicValue := zero
  total_le := h

def empty : DataApi.Balance := pool zero zero (by decide)

def account (unshielded : DataApi.Balance) (h : unshielded.uneconomicValue = zero) :
    DataApi.AccountBalance where
  sapling := empty
  orchard := empty
  ironwood := empty
  unshieldedRegular := unshielded
  unshieldedCoinbase := empty
  unshielded := unshielded
  spendableValue := zero
  changePendingConfirmation := zero
  valuePendingSpendability := zero
  uneconomicValue := zero
  spendable_eq := rfl
  change_eq := rfl
  pending_eq := rfl
  uneconomic_eq := by
    rw [h]
    rfl
  unshielded_spendable := rfl
  unshielded_change := rfl
  unshielded_pending := rfl
  unshielded_uneconomic := rfl

/-- The output is spendable where outputs without a confirmation may be shielded. -/
def wallet : BalanceWallet where
  getWalletSummary policy := .ok (some (AList.singleton 7
    (if policy.allowZeroConfShielding then account (pool output zero (by decide)) rfl
      else account (pool zero output (by decide)) rfl)))
  uuidText accountId := toString accountId.toNat
  uuidText_injective := by
    intro a b h
    exact BitVec.eq_of_toNat_eq (Nat.repr_injective h)

/-- Without `minconf` the call reports the output and `minimum_confirmations` 1, for
    which it reports nothing; nor does `z_getbalances` without `minconf`. -/
theorem minconf_absent :
    zGetbalanceforaccount wallet "7" (.ok 7) none = .ok ⟨⟨some 50000, none, none, none⟩, 1⟩ ∧
    zGetbalanceforaccount wallet "7" (.ok 7) (some 1) = .ok ⟨⟨none, none, none, none⟩, 1⟩ ∧
    getBalances wallet none = .ok [⟨"7", some ⟨some ⟨0, some 50000, none⟩, none⟩, none, none, none,
      ⟨0, some 50000, none⟩⟩] ∧
    ¬ MinconfAgrees wallet "7" 7 none := by
  have habsent : zGetbalanceforaccount wallet "7" (.ok 7) none =
    .ok ⟨⟨some 50000, none, none, none⟩, 1⟩ := rfl
  have hone : zGetbalanceforaccount wallet "7" (.ok 7) (some 1) =
    .ok ⟨⟨none, none, none, none⟩, 1⟩ := rfl
  refine ⟨habsent, hone, rfl, fun h => ?_⟩
  have hpools := h.echoed _ _ habsent hone
  simp at hpools

end UnconfirmedOutput

end Zallet.Rpc
