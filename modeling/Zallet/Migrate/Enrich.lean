import Zallet.Chain.Types
import Zallet.Migrate.ZcashdWallet

/-!
# Enriching a ZeWIF document

`backfill_mined_heights` and `enriched_document`
(`migrate_zcashd_wallet.rs`, lines 886–1022) on whole documents: with their
wallets, birthdays, transactions, address books and extensions. `Document`, on
which the runs of the command are modelled, is what `Zewif.flatten` keeps of
them.

The contents that are only copied are of the types of `ZewifTypes`. The
transactions are a finite map, so their order says nothing.

* `enriched_frame`: an enriched document has the accounts of the document in
  their order, changed in the key source and the birthday only; enriching it
  again changes nothing; and the backfill sets the heights of the transactions
  that have none and whose block is known.
-/

namespace Zallet.Migrate

open Zallet.Chain (TxId BlockHash)

/-! ## Documents -/

/-- The types of what is copied without being looked at. -/
structure ZewifTypes where
  /-- The other fields of an account. -/
  AccountContents : Type
  /-- The other fields of a transaction. -/
  TransactionContents : Type
  ChainState : Type
  Network : Type
  AddressBookEntry : Type
  Extensions : Type
  noExtensions : Extensions

variable {T : ZewifTypes}

/-- `zewif::Account`. -/
structure ZewifAccount (T : ZewifTypes) extends Account where
  birthdayHeight : Option ℕ
  birthdayChainState : Option T.ChainState
  recoverUntilHeight : Option ℕ
  contents : T.AccountContents

structure TxBlockPosition where
  blockHash : BlockHash
  index : ℕ

/-- `zewif::Transaction`. -/
structure Transaction (T : ZewifTypes) where
  minedHeight : Option ℕ
  blockPosition : Option TxBlockPosition
  contents : T.TransactionContents

structure ZewifWallet (T : ZewifTypes) where
  network : T.Network
  accounts : List (ZewifAccount T)
  addressBook : List T.AddressBookEntry
  extensions : T.Extensions

/-- `zewif::Zewif`. -/
structure Zewif (T : ZewifTypes) where
  exportHeight : ℕ
  exportHeightBlockHash : BlockHash
  wallets : List (ZewifWallet T)
  transactions : AList fun _ : TxId => Transaction T
  secrets : Option Secrets
  extensions : T.Extensions

def ZewifWallet.new (network : T.Network) : ZewifWallet T where
  network := network
  accounts := []
  addressBook := []
  extensions := T.noExtensions

def ZewifWallet.addAccount (wallet : ZewifWallet T) (account : ZewifAccount T) : ZewifWallet T :=
  { wallet with accounts := wallet.accounts ++ [account] }

def ZewifWallet.addAddressBookEntry (wallet : ZewifWallet T) (entry : T.AddressBookEntry) :
    ZewifWallet T :=
  { wallet with addressBook := wallet.addressBook ++ [entry] }

def Zewif.new (exportHeight : ℕ) (exportHeightBlockHash : BlockHash) : Zewif T where
  exportHeight := exportHeight
  exportHeightBlockHash := exportHeightBlockHash
  wallets := []
  transactions := ∅
  secrets := none
  extensions := T.noExtensions

def Zewif.addWallet (document : Zewif T) (wallet : ZewifWallet T) : Zewif T :=
  { document with wallets := document.wallets ++ [wallet] }

def Zewif.addTransaction (document : Zewif T) (txid : TxId) (tx : Transaction T) : Zewif T :=
  { document with transactions := document.transactions.insert txid tx }

/-! ## The functions -/

/-- The mined height of a transaction and its block, if the block has a height. -/
def resolvedHeight (blockHeights : BlockHash → Option ℕ) (tx : Transaction T) : Option ℕ :=
  tx.blockPosition.bind fun position => blockHeights position.blockHash

/-- The transactions to backfill, with their heights. -/
def backfillOf (blockHeights : BlockHash → Option ℕ) (document : Zewif T) : List (TxId × ℕ) :=
  (document.transactions.entries.filter fun entry => entry.2.minedHeight.isNone).filterMap
    fun entry => (resolvedHeight blockHeights entry.2).map fun height => (entry.1, height)

/-- One turn of the loop; `none` is a panic. -/
def setMinedHeight (document : Zewif T) (entry : TxId × ℕ) : Option (Zewif T) := do
  let tx ← document.transactions.lookup entry.1
  some (document.addTransaction entry.1 { tx with minedHeight := some entry.2 })

/-- `backfill_mined_heights` (lines 897–920). -/
def backfillMinedHeights (document : Zewif T) (blockHeights : BlockHash → Option ℕ) :
    Option (Zewif T) :=
  (backfillOf blockHeights document).foldlM setMinedHeight document

/-- The arguments of `enriched_document`, without the document. -/
structure Enrichment (T : ZewifTypes) where
  secretStore : Option SecretStore
  mnemonicFp : Option String
  birthdayChainState : Option T.ChainState
  recoverUntil : Option ℕ
  noScanBirthdayEstimate : Option ℕ

/-- The key source of an account (lines 957–985), and then its birthday
    (lines 987–998). -/
def Enrichment.account (args : Enrichment T) (account : ZewifAccount T) : ZewifAccount T :=
  let account :=
    { account with keySource := enrichedKeySource args.mnemonicFp account.toAccount }
  match args.birthdayChainState with
  | some chainState =>
    let account := { account with birthdayChainState := some chainState }
    match args.recoverUntil with
    | some height => { account with recoverUntilHeight := some height }
    | none => account
  | none =>
    match account.birthdayHeight, account.birthdayChainState, args.noScanBirthdayEstimate with
    | none, none, some estimate => { account with birthdayHeight := some estimate }
    | _, _, _ => account

def Enrichment.wallet (args : Enrichment T) (wallet : ZewifWallet T) : ZewifWallet T :=
  let outWallet := wallet.accounts.foldl
    (fun outWallet account => outWallet.addAccount (args.account account))
    (ZewifWallet.new wallet.network)
  let outWallet := wallet.addressBook.foldl ZewifWallet.addAddressBookEntry outWallet
  { outWallet with extensions := wallet.extensions }

/-- `enriched_document` (lines 938–1018). -/
def Zewif.enrichedDocument (document : Zewif T) (args : Enrichment T) : Zewif T :=
  let out := document.wallets.foldl (fun out wallet => out.addWallet (args.wallet wallet))
    (Zewif.new document.exportHeight document.exportHeightBlockHash)
  let out := { out with transactions := document.transactions }
  let out :=
    match args.secretStore with
    | some store => { out with secrets := some (.Plain store) }
    | none => out
  { out with extensions := document.extensions }

/-! ## What the functions change -/

/-- The enrichment of an account: nothing changes but the key source and the
    birthday, and these as follows. -/
structure AccountEnriched (args : Enrichment T) (account account' : ZewifAccount T) : Prop where
  frame : ∃ keySource birthdayHeight birthdayChainState recoverUntilHeight, account' =
    { account with
      keySource := keySource
      birthdayHeight := birthdayHeight
      birthdayChainState := birthdayChainState
      recoverUntilHeight := recoverUntilHeight }
  legacy : ∀ fp ∈ args.mnemonicFp, ∀ seed index,
    account.keySource = some (.Derived seed zcashdLegacyAccountIndex index) →
    account'.keySource = some (.Derived fp zcashdLegacyAccountIndex index)
  seedless : ∀ fp ∈ args.mnemonicFp, account.isSeedlessLegacyAccount = true →
    account'.keySource = some (.Derived fp zcashdLegacyAccountIndex none)
  keySource : (∀ seed index,
      account.keySource ≠ some (.Derived seed zcashdLegacyAccountIndex index)) →
    account.isSeedlessLegacyAccount = false → account'.keySource = account.keySource
  noMnemonic : args.mnemonicFp = none → account'.keySource = account.keySource
  chainState : account'.birthdayChainState =
    args.birthdayChainState.or account.birthdayChainState
  recoverUntil : account'.recoverUntilHeight =
    if args.birthdayChainState.isSome then args.recoverUntil.or account.recoverUntilHeight
    else account.recoverUntilHeight
  height : account'.birthdayHeight =
    if args.birthdayChainState = none ∧ account.birthdayHeight = none ∧
        account.birthdayChainState = none then args.noScanBirthdayEstimate
    else account.birthdayHeight

/-- The enrichment of a wallet: the same accounts in the same order. -/
structure WalletEnriched (args : Enrichment T) (wallet wallet' : ZewifWallet T) : Prop where
  network : wallet'.network = wallet.network
  accounts : List.Forall₂ (AccountEnriched args) wallet.accounts wallet'.accounts
  addressBook : wallet'.addressBook = wallet.addressBook
  extensions : wallet'.extensions = wallet.extensions

structure DocumentEnriched (args : Enrichment T) (document document' : Zewif T) : Prop where
  exportHeight : document'.exportHeight = document.exportHeight
  exportHeightBlockHash : document'.exportHeightBlockHash = document.exportHeightBlockHash
  wallets : List.Forall₂ (WalletEnriched args) document.wallets document'.wallets
  transactions : document'.transactions = document.transactions
  secrets : document'.secrets = args.secretStore.map .Plain
  extensions : document'.extensions = document.extensions

/-- What the backfill does to one transaction. -/
def TransactionBackfilled (blockHeights : BlockHash → Option ℕ) (tx tx' : Transaction T) : Prop :=
  (∃ position height, tx.minedHeight = none ∧ tx.blockPosition = some position ∧
      blockHeights position.blockHash = some height ∧
      tx' = { tx with minedHeight := some height }) ∨
    (tx.minedHeight = none → ∀ position, tx.blockPosition = some position →
      blockHeights position.blockHash = none) ∧ tx' = tx

structure DocumentBackfilled (blockHeights : BlockHash → Option ℕ) (document document' : Zewif T) :
    Prop where
  frame : ∃ transactions, document' = { document with transactions := transactions }
  transactions : ∀ txid, Option.Rel (TransactionBackfilled blockHeights)
    (document.transactions.lookup txid) (document'.transactions.lookup txid)

/-! ## Accounts -/

theorem isSeedlessLegacyAccount_eq_false {account : Account} {seed : String} {index : ℕ}
    {legacyAddressIndex : Option ℕ}
    (h : account.keySource = some (.Derived seed index legacyAddressIndex)) :
    account.isSeedlessLegacyAccount = false := by
  simp [Account.isSeedlessLegacyAccount, Account.isDerived, h]

theorem enrichedKeySource_legacy {fp seed : String} {account : Account} {index : Option ℕ}
    (h : account.keySource = some (.Derived seed zcashdLegacyAccountIndex index)) :
    enrichedKeySource (some fp) account = some (.Derived fp zcashdLegacyAccountIndex index) := by
  simp only [enrichedKeySource, h]
  split
  · rfl
  · rename_i hsame
    have hseed : seed = fp := by
      by_contra hne
      exact hsame ⟨trivial, hne⟩
    rw [hseed]

theorem enrichedKeySource_seedless {fp : String} {account : Account}
    (h : account.isSeedlessLegacyAccount = true) :
    enrichedKeySource (some fp) account = some (.Derived fp zcashdLegacyAccountIndex none) := by
  cases hsource : account.keySource with
  | none => simp [enrichedKeySource, hsource, h]
  | some source =>
    cases source with
    | Derived seed index legacyAddressIndex =>
      rw [isSeedlessLegacyAccount_eq_false hsource] at h
      cases h
    | Imported => simp [enrichedKeySource, hsource, h]

theorem enrichedKeySource_other {mnemonicFp : Option String} {account : Account}
    (hlegacy : ∀ seed index,
      account.keySource ≠ some (.Derived seed zcashdLegacyAccountIndex index))
    (hseedless : account.isSeedlessLegacyAccount = false) :
    enrichedKeySource mnemonicFp account = account.keySource := by
  cases mnemonicFp with
  | none => rfl
  | some fp =>
    cases hsource : account.keySource with
    | none => simp [enrichedKeySource, hsource, hseedless]
    | some source =>
      cases source with
      | Derived seed index legacyAddressIndex =>
        have hindex : index ≠ zcashdLegacyAccountIndex := by
          rintro rfl
          exact hlegacy _ _ hsource
        simp [enrichedKeySource, hsource, hindex]
      | Imported => simp [enrichedKeySource, hsource, hseedless]

/-- The fields of an enriched account. -/
theorem enrichedAccount_eq (args : Enrichment T) (account : ZewifAccount T) :
    args.account account = { account with
      keySource := enrichedKeySource args.mnemonicFp account.toAccount
      birthdayHeight :=
        if args.birthdayChainState = none ∧ account.birthdayHeight = none ∧
            account.birthdayChainState = none then args.noScanBirthdayEstimate
        else account.birthdayHeight
      birthdayChainState := args.birthdayChainState.or account.birthdayChainState
      recoverUntilHeight :=
        if args.birthdayChainState.isSome then args.recoverUntil.or account.recoverUntilHeight
        else account.recoverUntilHeight } := by
  obtain ⟨store, fp, chainState, recoverUntil, estimate⟩ := args
  obtain ⟨account, height, state, recover, contents⟩ := account
  cases chainState with
  | some chainState => cases recoverUntil <;> simp [Enrichment.account]
  | none => cases height <;> cases state <;> cases estimate <;> simp [Enrichment.account]

theorem accountEnriched (args : Enrichment T) (account : ZewifAccount T) :
    AccountEnriched args account (args.account account) := by
  rw [enrichedAccount_eq]
  refine ⟨⟨_, _, _, _, rfl⟩, ?_, ?_, ?_, ?_, rfl, rfl, rfl⟩
  · intro fp hfp seed index hsource
    rw [Option.mem_def.mp hfp]
    exact enrichedKeySource_legacy hsource
  · intro fp hfp hseedless
    rw [Option.mem_def.mp hfp]
    exact enrichedKeySource_seedless hseedless
  · exact enrichedKeySource_other
  · intro hnone
    rw [hnone]
    rfl

/-- An enriched key source is enriched already. -/
theorem enrichedKeySource_idem (mnemonicFp : Option String) (account : Account) :
    enrichedKeySource mnemonicFp
      { account with keySource := enrichedKeySource mnemonicFp account } =
      enrichedKeySource mnemonicFp account := by
  cases mnemonicFp with
  | none => rfl
  | some fp =>
    by_cases hlegacy : ∃ seed index,
        account.keySource = some (.Derived seed zcashdLegacyAccountIndex index)
    · obtain ⟨seed, index, hsource⟩ := hlegacy
      rw [enrichedKeySource_legacy hsource]
      exact enrichedKeySource_legacy rfl
    · cases hseedless : account.isSeedlessLegacyAccount with
      | true =>
        rw [enrichedKeySource_seedless hseedless]
        exact enrichedKeySource_legacy rfl
      | false =>
        have hother : ∀ seed index,
            account.keySource ≠ some (.Derived seed zcashdLegacyAccountIndex index) :=
          fun seed index hsource => hlegacy ⟨seed, index, hsource⟩
        rw [enrichedKeySource_other hother hseedless]
        exact enrichedKeySource_other hother hseedless

theorem enrichedAccount_idem (args : Enrichment T) (account : ZewifAccount T) :
    args.account (args.account account) = args.account account := by
  rw [enrichedAccount_eq args (args.account account), enrichedAccount_eq args account]
  obtain ⟨store, fp, chainState, recoverUntil, estimate⟩ := args
  obtain ⟨account, height, state, recover, contents⟩ := account
  have hsource := enrichedKeySource_idem fp account
  cases chainState with
  | some chainState => cases recoverUntil <;> simp [hsource]
  | none => cases height <;> cases state <;> simp [hsource]

/-! ## Wallets and documents -/

theorem enrichedWallet_eq (args : Enrichment T) (wallet : ZewifWallet T) :
    args.wallet wallet = { wallet with accounts := wallet.accounts.map args.account } := by
  have haccounts : ∀ (l : List (ZewifAccount T)) (out : ZewifWallet T),
      l.foldl (fun out account => out.addAccount (args.account account)) out =
        { out with accounts := out.accounts ++ l.map args.account } := by
    intro l
    induction l with
    | nil => simp
    | cons account l ih =>
      intro out
      rw [List.foldl_cons, ih]
      simp [ZewifWallet.addAccount]
  have hbook : ∀ (l : List T.AddressBookEntry) (out : ZewifWallet T),
      l.foldl ZewifWallet.addAddressBookEntry out =
        { out with addressBook := out.addressBook ++ l } := by
    intro l
    induction l with
    | nil => simp
    | cons entry l ih =>
      intro out
      rw [List.foldl_cons, ih]
      simp [ZewifWallet.addAddressBookEntry]
  simp [Enrichment.wallet, haccounts, hbook, ZewifWallet.new]

theorem enrichedDocument_eq (document : Zewif T) (args : Enrichment T) :
    document.enrichedDocument args = { document with
      wallets := document.wallets.map args.wallet
      secrets := args.secretStore.map .Plain } := by
  have hwallets : ∀ (l : List (ZewifWallet T)) (out : Zewif T),
      l.foldl (fun out wallet => out.addWallet (args.wallet wallet)) out =
        { out with wallets := out.wallets ++ l.map args.wallet } := by
    intro l
    induction l with
    | nil => simp
    | cons wallet l ih =>
      intro out
      rw [List.foldl_cons, ih]
      simp [Zewif.addWallet]
  cases hstore : args.secretStore <;>
    simp [Zewif.enrichedDocument, hwallets, hstore, Zewif.new]

theorem walletEnriched (args : Enrichment T) (wallet : ZewifWallet T) :
    WalletEnriched args wallet (args.wallet wallet) := by
  rw [enrichedWallet_eq]
  refine ⟨rfl, ?_, rfl, rfl⟩
  rw [List.forall₂_map_right_iff, List.forall₂_same]
  exact fun account _ => accountEnriched args account

theorem enrichedWallet_idem (args : Enrichment T) (wallet : ZewifWallet T) :
    args.wallet (args.wallet wallet) = args.wallet wallet := by
  simp only [enrichedWallet_eq, List.map_map]
  congr 2
  exact funext fun account => enrichedAccount_idem args account

theorem documentEnriched (document : Zewif T) (args : Enrichment T) :
    DocumentEnriched args document (document.enrichedDocument args) := by
  rw [enrichedDocument_eq]
  refine ⟨rfl, rfl, ?_, rfl, rfl, rfl⟩
  rw [List.forall₂_map_right_iff, List.forall₂_same]
  exact fun wallet _ => walletEnriched args wallet

theorem enrichedDocument_idem (document : Zewif T) (args : Enrichment T) :
    (document.enrichedDocument args).enrichedDocument args = document.enrichedDocument args := by
  simp only [enrichedDocument_eq, List.map_map]
  congr 2
  exact funext fun wallet => enrichedWallet_idem args wallet

/-! ## The backfill -/

theorem mem_backfillOf {blockHeights : BlockHash → Option ℕ} {document : Zewif T} {txid : TxId}
    {height : ℕ} :
    (txid, height) ∈ backfillOf blockHeights document ↔
      ∃ tx, document.transactions.lookup txid = some tx ∧ tx.minedHeight = none ∧
        resolvedHeight blockHeights tx = some height := by
  simp only [backfillOf, List.mem_filterMap, List.mem_filter, Option.isNone_iff_eq_none,
    Option.map_eq_some_iff, Prod.mk.injEq]
  constructor
  · rintro ⟨⟨txid, tx⟩, ⟨hmem, hnone⟩, _, hheight, rfl, rfl⟩
    exact ⟨tx, AList.mem_lookup_iff.mpr hmem, hnone, hheight⟩
  · rintro ⟨tx, hlookup, hnone, hheight⟩
    exact ⟨⟨txid, tx⟩, ⟨AList.mem_lookup_iff.mp hlookup, hnone⟩, height, hheight, rfl, rfl⟩

/-- No transaction is backfilled twice. -/
theorem nodup_backfillOf (blockHeights : BlockHash → Option ℕ) (document : Zewif T) :
    ((backfillOf blockHeights document).map Prod.fst).Nodup := by
  have hfirst : ∀ l : List (Sigma fun _ : TxId => Transaction T), ((l.filterMap fun entry =>
      (resolvedHeight blockHeights entry.2).map fun height => (entry.1, height)).map
        Prod.fst).Sublist (l.map Sigma.fst) := by
    intro l
    induction l with
    | nil => exact List.Sublist.slnil
    | cons entry l ih =>
      cases hheight : resolvedHeight blockHeights entry.2 with
      | none => simpa [hheight] using ih.cons entry.1
      | some height => simpa [hheight] using ih
  exact (List.Sublist.nodup · document.transactions.keys_nodup)
    ((hfirst _).trans (List.filter_sublist.map Sigma.fst))

/-- What the loop does to the transactions. -/
theorem foldlM_setMinedHeight (l : List (TxId × ℕ)) (document : Zewif T)
    (hmem : ∀ entry ∈ l, entry.1 ∈ document.transactions) (hnodup : (l.map Prod.fst).Nodup) :
    ∃ transactions, l.foldlM setMinedHeight document =
        some { document with transactions := transactions } ∧
      (∀ entry ∈ l, transactions.lookup entry.1 =
        (document.transactions.lookup entry.1).map fun tx =>
          { tx with minedHeight := some entry.2 }) ∧
      ∀ txid ∉ l.map Prod.fst, transactions.lookup txid = document.transactions.lookup txid := by
  induction l generalizing document with
  | nil => exact ⟨document.transactions, rfl, by simp, fun _ _ => rfl⟩
  | cons entry l ih =>
    obtain ⟨hentry, hmem⟩ := List.forall_mem_cons.mp hmem
    obtain ⟨hnew, hnodup⟩ := List.nodup_cons.mp hnodup
    obtain ⟨tx, htx⟩ := Option.isSome_iff_exists.mp (AList.lookup_isSome.mpr hentry)
    have hset : setMinedHeight document entry =
        some (document.addTransaction entry.1 { tx with minedHeight := some entry.2 }) := by
      rw [setMinedHeight, htx]
      rfl
    obtain ⟨transactions, hfold, hin, hout⟩ := ih
      (document.addTransaction entry.1 { tx with minedHeight := some entry.2 })
      (fun e he => (AList.mem_insert _).mpr (Or.inr (hmem e he))) hnodup
    refine ⟨transactions, ?_, ?_, ?_⟩
    · rw [List.foldlM_cons, hset]
      exact hfold
    · rw [List.forall_mem_cons]
      constructor
      · rw [hout _ hnew, htx]
        exact AList.lookup_insert _
      · intro e he
        have hne : e.1 ≠ entry.1 := fun h => hnew (h ▸ List.mem_map_of_mem he)
        rw [hin e he, Zewif.addTransaction, AList.lookup_insert_ne hne]
    · intro txid htxid
      rw [List.map_cons, List.mem_cons, not_or] at htxid
      rw [hout txid htxid.2, Zewif.addTransaction, AList.lookup_insert_ne htxid.1]

theorem resolvedHeight_eq_some {blockHeights : BlockHash → Option ℕ} {tx : Transaction T}
    {height : ℕ} : resolvedHeight blockHeights tx = some height ↔
      ∃ position, tx.blockPosition = some position ∧
        blockHeights position.blockHash = some height :=
  Option.bind_eq_some_iff

theorem backfillMinedHeights_spec (document : Zewif T) (blockHeights : BlockHash → Option ℕ) :
    ∃ document', backfillMinedHeights document blockHeights = some document' ∧
      DocumentBackfilled blockHeights document document' := by
  have hmem : ∀ entry ∈ backfillOf blockHeights document, entry.1 ∈ document.transactions := by
    intro entry hentry
    obtain ⟨tx, htx, -⟩ := mem_backfillOf.mp hentry
    exact AList.lookup_isSome.mp (by rw [htx]; rfl)
  obtain ⟨transactions, hfold, hin, hout⟩ := foldlM_setMinedHeight _ document hmem
    (nodup_backfillOf blockHeights document)
  refine ⟨_, hfold, ⟨transactions, rfl⟩, fun txid => ?_⟩
  by_cases htxid : txid ∈ (backfillOf blockHeights document).map Prod.fst
  · obtain ⟨⟨txid, height⟩, hentry, rfl⟩ := List.mem_map.mp htxid
    obtain ⟨tx, htx, hnone, hheight⟩ := mem_backfillOf.mp hentry
    obtain ⟨position, hposition, hblock⟩ := resolvedHeight_eq_some.mp hheight
    rw [hin _ hentry, htx]
    exact .some (Or.inl ⟨position, height, hnone, hposition, hblock, rfl⟩)
  · rw [hout txid htxid]
    cases htx : document.transactions.lookup txid with
    | none => exact .none
    | some tx =>
      refine .some (Or.inr ⟨fun hnone position hposition => ?_, rfl⟩)
      by_contra hblock
      obtain ⟨height, hheight⟩ := Option.ne_none_iff_exists'.mp hblock
      have hresolved := resolvedHeight_eq_some.mpr ⟨position, hposition, hheight⟩
      exact htxid (List.mem_map.mpr ⟨_, mem_backfillOf.mpr ⟨tx, htx, hnone, hresolved⟩, rfl⟩)

/-- **The frame of the enrichment.** -/
theorem enriched_frame :
    (∀ (document : Zewif T) (args : Enrichment T),
      DocumentEnriched args document (document.enrichedDocument args) ∧
      (document.enrichedDocument args).enrichedDocument args = document.enrichedDocument args) ∧
    ∀ (document : Zewif T) (blockHeights : BlockHash → Option ℕ), ∃ document',
      backfillMinedHeights document blockHeights = some document' ∧
      DocumentBackfilled blockHeights document document' := by
  exact ⟨fun document args => ⟨documentEnriched document args, enrichedDocument_idem document args⟩,
    backfillMinedHeights_spec⟩

/-! ## The documents of the runs -/

/-- What the runs of the command keep of a document. -/
def Zewif.flatten (document : Zewif T) (network : NetworkType) : Document where
  network := network
  accounts := document.wallets.flatMap fun wallet => wallet.accounts.map ZewifAccount.toAccount
  secrets := document.secrets

/-- The enrichment of the runs is that of the whole documents. -/
theorem flatten_enrichedDocument (document : Zewif T) (args : Enrichment T) (network : NetworkType)
    (roots : Roots) (hstore : roots.secretStore = args.secretStore)
    (hfp : roots.mnemonicFp = args.mnemonicFp) :
    (document.enrichedDocument args).flatten network =
      enrichedDocument (document.flatten network) roots := by
  have haccount : ∀ account : ZewifAccount T, (args.account account).toAccount =
      { account.toAccount with
        keySource := enrichedKeySource args.mnemonicFp account.toAccount } := by
    intro account
    rw [enrichedAccount_eq]
  simp only [Zewif.flatten, enrichedDocument_eq, enrichedDocument, enrichedWallet_eq, hstore, hfp,
    List.flatMap_map, List.map_flatMap, List.map_map, Function.comp_def, haccount]

end Zallet.Migrate
