import Zallet.Common.Loop
import Zallet.Rpc.Amounts
import Zallet.Rpc.Imports

/-!
# The account of a request

`parse_account_parameter` (`zallet-core/src/components/json_rpc/utils.rs`, lines 237–309),
which most calls of the wallet apply to their parameter `account`: a number counts the
accounts of the only seed of the wallet, a string is the UUID of an account.

* `AccountReads` is what the wallet database answers, and the fingerprints of the legacy
  seeds are an argument.
* `accountOfNumber_numbered`: a number names an account with that index that does not
  derive from a legacy seed.
-/

namespace Zallet.Rpc.Accounts

open Zallet.Common Zallet.Common.Loop
open Zallet.Wallet

/-- What the wallet database answers about its accounts. An error is its text. -/
structure AccountReads where
  getAccountIds : Except String (List AccountUuid)
  getAccount : AccountUuid → Except String (Option Account)

/-- `map_err(|e| LegacyCode::Database.with_message(e.to_string()))`. -/
def database {α : Type} (answer : Except String α) : Except RpcError α :=
  answer.mapError LegacyCode.Database.withMessage

/-- `Number::as_u64` of the text of a number. -/
def asU64 (n : List Char) : Option ℕ :=
  if n ≠ [] ∧ (∀ c ∈ n, IsDigit c) ∧ digitsValue n < 2 ^ 64 then some (digitsValue n) else none

/-- The message of a number that is no account index (lines 252–253). -/
def invalidAccountNumber : RpcError :=
  LegacyCode.InvalidParameter.withMessage
    "Invalid account number, must be 0 <= account <= (2^31)-2."

/-- `RpcErrorCode::InternalError`. -/
def vanished : RpcError := internalError "Internal error"

/-- The message where the account is missing (lines 294–296). -/
def notGenerated (zip32AccountIndex : ℕ) : RpcError :=
  LegacyCode.Wallet.withMessage ("Error: account " ++ toString zip32AccountIndex ++
    " has not been generated by z_getnewaccount.")

/-- The message of a wallet with several seeds (line 299). -/
def multipleSeeds : RpcError :=
  LegacyCode.Wallet.withMessage ("Account numbers are not supported in wallets with multiple " ++
    "seeds. Use the account UUID instead.")

/-- What the loop has found: the distinct seeds, and the last account with the index. -/
structure Found where
  distinctSeeds : List SeedFingerprint
  accountId : Option AccountUuid
  deriving DecidableEq

/-- A turn of the loop (lines 276–289). -/
def Found.see (legacySeeds : List SeedFingerprint) (zip32AccountIndex : ℕ) (found : Found)
    (account : Account) (candidate : AccountUuid) : Found :=
  match account.source.keyDerivation with
  | none => found
  | some derivation =>
    if derivation.seedFingerprint ∈ legacySeeds then found
    else
      { distinctSeeds := found.distinctSeeds.insert derivation.seedFingerprint
        accountId :=
          if derivation.accountIndex = zip32AccountIndex then some candidate
          else found.accountId }

/-- The loop over the accounts (lines 264–290). -/
def scanAccounts (W : AccountReads) (legacySeeds : List SeedFingerprint) (zip32AccountIndex : ℕ) :
    List AccountUuid → Found → Except RpcError Found
  | [], found => .ok found
  | candidate :: rest, found => do
    match ← database (W.getAccount candidate) with
    | none => .error vanished
    | some account =>
      scanAccounts W legacySeeds zip32AccountIndex rest
        (found.see legacySeeds zip32AccountIndex account candidate)

/-- The account that was found, where all the seeds are one (lines 292–300). -/
def Found.account (found : Found) (zip32AccountIndex : ℕ) : Except RpcError AccountUuid :=
  if found.distinctSeeds.length = 1 then
    match found.accountId with
    | some accountId => .ok accountId
    | none => .error (notGenerated zip32AccountIndex)
  else .error multipleSeeds

/-- The case of a number (lines 247–301). `legacySeeds` is the outcome of
    `list_legacy_seed_fingerprints`. -/
def accountOfNumber (W : AccountReads) (legacySeeds : Except RpcError (List SeedFingerprint))
    (n : List Char) : Except RpcError AccountUuid :=
  match (asU64 n).filter fun n => decide (n < zcashLegacyAccount) with
  | none => .error invalidAccountNumber
  | some zip32AccountIndex => do
    let legacySeeds ← legacySeeds
    let ids ← database W.getAccountIds
    let found ← scanAccounts W legacySeeds zip32AccountIndex ids ⟨[], none⟩
    found.account zip32AccountIndex

/-- `parse_account_parameter` (lines 238–309). `parseUuid` parses the text of a UUID. -/
def parseAccountParameter (parseUuid : List Char → Option AccountUuid) (W : AccountReads)
    (legacySeeds : Except RpcError (List SeedFingerprint)) :
    JsonValue → Except RpcError AccountUuid
  | .Number n => accountOfNumber W legacySeeds n
  | .String s =>
    match parseUuid s with
    | some accountId => .ok accountId
    | none => .error invalidParams
  | _ => .error invalidParams

/-! ## What a number names -/

variable {W : AccountReads} {legacySeeds : List SeedFingerprint} {zip32AccountIndex : ℕ}

theorem database_eq_ok {α : Type} {answer : Except String α} {a : α} :
    database answer = .ok a ↔ answer = .ok a :=
  mapError_eq_ok

/-- The account has the index, under a seed that is no legacy seed. -/
def Numbered (W : AccountReads) (legacySeeds : List SeedFingerprint) (zip32AccountIndex : ℕ)
    (id : AccountUuid) : Prop :=
  ∃ account derivation, W.getAccount id = .ok (some account) ∧
    account.source.keyDerivation = some derivation ∧
    derivation.seedFingerprint ∉ legacySeeds ∧ derivation.accountIndex = zip32AccountIndex

/-- A turn of the loop finds nothing but such accounts. -/
theorem numbered_see {found : Found} {account : Account} {candidate : AccountUuid}
    (hget : W.getAccount candidate = .ok (some account))
    (hfound : ∀ id ∈ found.accountId, Numbered W legacySeeds zip32AccountIndex id) :
    ∀ id ∈ (found.see legacySeeds zip32AccountIndex account candidate).accountId,
      Numbered W legacySeeds zip32AccountIndex id := by
  intro id hid
  unfold Found.see at hid
  cases hder : account.source.keyDerivation with
  | none =>
    rw [hder] at hid
    exact hfound id hid
  | some derivation =>
    rw [hder] at hid
    simp only at hid
    split_ifs at hid with hlegacy hindex
    · exact hfound id hid
    · obtain rfl : candidate = id := by simpa using hid
      exact ⟨account, derivation, hget, hder, hlegacy, hindex⟩
    · exact hfound id hid

theorem numbered_scanAccounts {ids : List AccountUuid} {found found' : Found}
    (h : scanAccounts W legacySeeds zip32AccountIndex ids found = .ok found')
    (hfound : ∀ id ∈ found.accountId, Numbered W legacySeeds zip32AccountIndex id) :
    ∀ id ∈ found'.accountId, Numbered W legacySeeds zip32AccountIndex id := by
  induction ids generalizing found with
  | nil =>
    cases h
    exact hfound
  | cons candidate rest ih =>
    obtain ⟨answer, hanswer, h⟩ := bind_eq_ok.mp h
    cases answer with
    | none => cases h
    | some account => exact ih h (numbered_see (database_eq_ok.mp hanswer) hfound)

theorem account_eq_ok {found : Found} {id : AccountUuid} :
    found.account zip32AccountIndex = .ok id ↔
      found.distinctSeeds.length = 1 ∧ found.accountId = some id := by
  unfold Found.account
  by_cases hone : found.distinctSeeds.length = 1
  · cases found.accountId <;> simp [hone]
  · simp [hone]

/-- A number names an account with that index that does not derive from a legacy seed. -/
theorem accountOfNumber_numbered {n : List Char} {id : AccountUuid}
    (h : accountOfNumber W (.ok legacySeeds) n = .ok id) :
    ∃ zip32AccountIndex, asU64 n = some zip32AccountIndex ∧
      Numbered W legacySeeds zip32AccountIndex id := by
  unfold accountOfNumber at h
  cases hindex : (asU64 n).filter fun n => decide (n < zcashLegacyAccount) with
  | none =>
    rw [hindex] at h
    cases h
  | some index =>
    rw [hindex] at h
    obtain ⟨seeds, hseeds, hrun⟩ := bind_eq_ok.mp h
    cases hseeds
    obtain ⟨ids, -, hloop⟩ := bind_eq_ok.mp hrun
    obtain ⟨found, hscan, hfound⟩ := bind_eq_ok.mp hloop
    obtain ⟨-, hid⟩ := account_eq_ok.mp hfound
    refine ⟨index, (Option.filter_eq_some_iff.mp hindex).1, ?_⟩
    exact numbered_scanAccounts hscan (by simp) id (by simp [hid])

end Zallet.Rpc.Accounts
