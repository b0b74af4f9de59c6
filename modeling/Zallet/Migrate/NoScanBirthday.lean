import Zallet.Migrate.Enrich

/-!
# The birthday of a wallet that is not scanned

Without a chain backend, `migrate-zcashd-wallet` estimates the birthday of the wallet from
the expiry heights of its transactions (`migrate_zcashd_wallet.rs`, lines 444–462), and
`enriched_document` gives it to the accounts that record none.

The expiry height of a transaction is read off its contents. The heights at which the
transactions were mined are those of the chain; the command does not see them.

* `estimate_le_iff`: the heights that the estimate does not exceed.
* `conservative_iff`: when no transaction of the document was mined below the estimate.
* `birthday_enriched`: the accounts that are scanned from the estimate.
-/

namespace Zallet.Migrate.NoScanBirthday

open Zallet.Chain (TxId)

variable {T : ZewifTypes} (expiryHeight : T.TransactionContents → Option ℕ)

/-! ## The estimate -/

/-- The expiry heights of the document's transactions that are not 0. -/
def usableExpiryHeights (document : Zewif T) : List ℕ :=
  (document.transactions.entries.filterMap fun entry => expiryHeight entry.2.contents).filter
    fun h => decide (0 < h)

/-- `no_scan_birthday_estimate` without a chain view (lines 449–458). -/
def noScanBirthdayEstimate (document : Zewif T) (saplingActivation : ℕ) : ℕ :=
  (((usableExpiryHeights expiryHeight document).min?.map fun h => h - 1000).map
    fun h => max h saplingActivation).getD saplingActivation

/-- The arguments of `enriched_document` in no-scan mode (lines 464–471). -/
def noScanEnrichment (document : Zewif T) (saplingActivation : ℕ)
    (secretStore : Option SecretStore) (mnemonicFp : Option String) : Enrichment T where
  secretStore := secretStore
  mnemonicFp := mnemonicFp
  birthdayChainState := none
  recoverUntil := none
  noScanBirthdayEstimate := some (noScanBirthdayEstimate expiryHeight document saplingActivation)

/-- An expiry height that the estimate takes into account. -/
def Usable (tx : Transaction T) (h : ℕ) : Prop := expiryHeight tx.contents = some h ∧ 0 < h

variable {expiryHeight}

theorem mem_usableExpiryHeights {document : Zewif T} {h : ℕ} :
    h ∈ usableExpiryHeights expiryHeight document ↔
      ∃ txid tx, document.transactions.lookup txid = some tx ∧ Usable expiryHeight tx h := by
  simp only [usableExpiryHeights, List.mem_filter, List.mem_filterMap, decide_eq_true_eq, Usable]
  constructor
  · rintro ⟨⟨⟨txid, tx⟩, hmem, hexpiry⟩, hpos⟩
    exact ⟨txid, tx, AList.mem_lookup_iff.mpr hmem, hexpiry, hpos⟩
  · rintro ⟨txid, tx, hlookup, hexpiry, hpos⟩
    exact ⟨⟨⟨txid, tx⟩, AList.mem_lookup_iff.mp hlookup, hexpiry⟩, hpos⟩

/-- The estimate does not exceed a height after the activation of Sapling exactly where no
    expiry height can be used, or one of them is at most 1000 above it. -/
theorem estimate_le_iff {document : Zewif T} {saplingActivation m : ℕ} :
    noScanBirthdayEstimate expiryHeight document saplingActivation ≤ max saplingActivation m ↔
      usableExpiryHeights expiryHeight document = [] ∨
        ∃ h ∈ usableExpiryHeights expiryHeight document, h ≤ max saplingActivation m + 1000 := by
  unfold noScanBirthdayEstimate
  cases hmin : (usableExpiryHeights expiryHeight document).min? with
  | none =>
    have hnil := List.min?_eq_none_iff.mp hmin
    simp [hnil]
  | some least =>
    obtain ⟨hmem, hleast⟩ := List.min?_eq_some_iff.mp hmin
    have hne := List.ne_nil_of_mem hmem
    simp only [Option.map_some, Option.getD_some, hne, false_or]
    constructor
    · intro hle
      exact ⟨least, hmem, by omega⟩
    · rintro ⟨h, hh, hle⟩
      have := hleast h hh
      omega

/-! ## The transactions of the document -/

/-- The premise of the estimate: a transaction that was mined did not expire before, and
    its expiry height, if it has one, is less than 1000 above. -/
def MinedInTime (expiryHeight : T.TransactionContents → Option ℕ) (minedAt : TxId → Option ℕ)
    (document : Zewif T) : Prop :=
  ∀ txid tx, document.transactions.lookup txid = some tx → ∀ m, minedAt txid = some m →
    ∀ h, Usable expiryHeight tx h → m ≤ h ∧ h < m + 1000

/-- No transaction of the document was mined between the activation of Sapling and the
    birthday. -/
def Conservative (birthday saplingActivation : ℕ) (minedAt : TxId → Option ℕ)
    (document : Zewif T) : Prop :=
  ∀ txid tx, document.transactions.lookup txid = some tx → ∀ m, minedAt txid = some m →
    birthday ≤ max saplingActivation m

/-- Under its premise, the estimate is conservative exactly where for every mined
    transaction without an expiry height that can be used, no transaction has one, or one of
    them has one that is at most 1000 above. -/
theorem conservative_iff {minedAt : TxId → Option ℕ} {document : Zewif T}
    (hmined : MinedInTime expiryHeight minedAt document) (saplingActivation : ℕ) :
    Conservative (noScanBirthdayEstimate expiryHeight document saplingActivation)
        saplingActivation minedAt document ↔
      ∀ txid tx, document.transactions.lookup txid = some tx → ∀ m, minedAt txid = some m →
        (∀ h, ¬ Usable expiryHeight tx h) →
        usableExpiryHeights expiryHeight document = [] ∨
          ∃ h ∈ usableExpiryHeights expiryHeight document,
            h ≤ max saplingActivation m + 1000 := by
  constructor
  · intro h txid tx hlookup m hm _
    exact estimate_le_iff.mp (h txid tx hlookup m hm)
  · intro h txid tx hlookup m hm
    rw [estimate_le_iff]
    by_cases husable : ∃ e, Usable expiryHeight tx e
    · obtain ⟨e, he⟩ := husable
      have hlt := (hmined txid tx hlookup m hm e he).2
      exact Or.inr ⟨e, mem_usableExpiryHeights.mpr ⟨txid, tx, hlookup, he⟩, by omega⟩
    · exact h txid tx hlookup m hm fun e he => husable ⟨e, he⟩

/-! ## The accounts -/

/-- In no-scan mode an account that records no birthday is scanned from the estimate, and
    the others keep theirs. -/
theorem birthday_enriched (document : Zewif T) (saplingActivation : ℕ)
    (secretStore : Option SecretStore) (mnemonicFp : Option String) (account : ZewifAccount T) :
    ((noScanEnrichment expiryHeight document saplingActivation secretStore mnemonicFp).account
        account).birthdayHeight =
      if account.birthdayHeight = none ∧ account.birthdayChainState = none then
        some (noScanBirthdayEstimate expiryHeight document saplingActivation)
      else account.birthdayHeight := by
  have h := (accountEnriched
    (noScanEnrichment expiryHeight document saplingActivation secretStore mnemonicFp)
    account).height
  simpa [noScanEnrichment] using h

/-! ## A transaction without an expiry height -/

namespace NoExpiry

/-- Documents whose transactions have an expiry height, or none, as contents. -/
def types : ZewifTypes := ⟨Unit, Option ℕ, Unit, Unit, Unit, Unit, ()⟩

/-- Two transactions with these expiry heights. -/
def document (first second : Option ℕ) : Zewif types where
  exportHeight := 2000000
  exportHeightBlockHash := 0
  wallets := []
  transactions := ⟨[⟨1, ⟨none, none, first⟩⟩, ⟨2, ⟨none, none, second⟩⟩],
    by simp [List.NodupKeys, List.keys]⟩
  secrets := none
  extensions := ()

/-- Where they were mined. -/
def minedAt (txid : TxId) : Option ℕ := if txid = 1 then some 500000 else some 1999980

theorem lookup_document {first second : Option ℕ} {txid : TxId} {tx : Transaction types}
    (h : (document first second).transactions.lookup txid = some tx) :
    txid = 1 ∧ tx = ⟨none, none, first⟩ ∨ txid = 2 ∧ tx = ⟨none, none, second⟩ := by
  have hmem := AList.mem_lookup_iff.mp h
  simpa [document, Sigma.ext_iff] using hmem

theorem minedInTime (first : Option ℕ) (hfirst : ∀ h ∈ first, h = 500040) :
    MinedInTime (T := types) id minedAt (document first (some 2000000)) := by
  intro txid tx hlookup m hm h husable
  obtain ⟨rfl, rfl⟩ | ⟨rfl, rfl⟩ := lookup_document hlookup
  · have hm' : 500000 = m := Option.some.inj hm
    have hh := hfirst h husable.1
    omega
  · have hm' : 1999980 = m := Option.some.inj hm
    have hh : 2000000 = h := Option.some.inj husable.1
    omega

/-- The estimate is conservative where both transactions expire. -/
theorem conservative_of_expiry :
    Conservative (noScanBirthdayEstimate id (document (some 500040) (some 2000000)) 419200) 419200
      minedAt (document (some 500040) (some 2000000)) := by
  refine (conservative_iff (minedInTime (some 500040) (by simp)) 419200).mpr ?_
  intro txid tx hlookup m hm hnone
  obtain ⟨rfl, rfl⟩ | ⟨rfl, rfl⟩ := lookup_document hlookup
  · exact absurd ⟨rfl, by decide⟩ (hnone 500040)
  · exact absurd ⟨rfl, by decide⟩ (hnone 2000000)

/-- The estimate passes over a transaction that does not expire and was mined long before
    the one that does. -/
theorem not_conservative :
    MinedInTime (T := types) id minedAt (document none (some 2000000)) ∧
    noScanBirthdayEstimate id (document none (some 2000000)) 419200 = 1999000 ∧
    ¬ Conservative (noScanBirthdayEstimate id (document none (some 2000000)) 419200) 419200
      minedAt (document none (some 2000000)) := by
  have hestimate : noScanBirthdayEstimate (T := types) id (document none (some 2000000)) 419200 =
    1999000 := rfl
  refine ⟨minedInTime none (by simp), hestimate, fun h => ?_⟩
  have hle := h 1 ⟨none, none, none⟩ rfl 500000 rfl
  rw [hestimate] at hle
  omega

end NoExpiry

end Zallet.Migrate.NoScanBirthday
