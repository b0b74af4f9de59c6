import Zallet.Common.Loop
import Zallet.Migrate.ZcashdWallet

/-!
# Running the migration again

`rerun_safe_iff`: after a first run with any outcome, a second run of the same
document that allows multiple imports and in which no call fails ends in one of the
two good ways exactly if

* an account of the wallet already had the seed of the document before the first run,
  and the document has nothing left to register, or
* the first run got past the import, an imported account derives from the mnemonic seed
  of the document, so that the second run is rejected, and the first run had registered
  all watch-only pubkeys, or
* the document can be imported and the first run did not get past the import, or the
  document has no account.

`migrate_faultless` says how a run in which no call fails ends. A wallet without a seed
gets a new one on each run, so that its second run is not recognised
(`seedless_imported_twice`).
-/

namespace Zallet.Migrate

open Zallet.Rpc (SeedFingerprint PublicKey Dfvk ExtendedSpendingKey Zip32Derivation)
open Zallet.Chain (TransparentAddress)
open Zallet.Common.Loop (bind_eq_ok bind_eq_error)

variable {K : Codecs} {I : Importer}

/-! ## Specification -/

/-- The secrets of a document are in the keystore. -/
def Stored (K : Codecs) (document : Document) (keystore : Keystore) : Prop :=
  ∀ store, document.secrets = some (.Plain store) →
    (∀ entry ∈ store.seeds,
      match entry.material with
      | .Bip39Mnemonic phrase _ => K.phraseFingerprint phrase ∈ keystore.mnemonics
      | .LegacySeed bytes => ∀ fp ∈ K.legacyFingerprint bytes, fp ∈ keystore.legacySeeds) ∧
    (∀ entry ∈ store.transparentKeys, ∀ key ∈ K.decodeTransparentKey entry.spendingKey,
      key.pubkey ∈ keystore.transparentKeys) ∧
    ∀ entry ∈ store.saplingKeys, ∀ extsk, K.decodeSaplingKey entry.spendingKey = .ok extsk →
      K.dfvk extsk ∈ keystore.saplingKeys

/-- The report of an import into a database with `n` accounts. -/
def Importer.report (I : Importer) (document : Document) (n : ℕ) : Report :=
  ⟨I.imported document n, I.skipped document, I.skippedKeys document⟩

/-- The watch-only pubkeys of an account with the account they belong to. -/
def watchOf (K : Codecs) (report : Report) (account : Account) : List (ℕ × PublicKey) :=
  match report.accountsByName account.name with
  | none => []
  | some id => (watchPubkeys K account).map (id, ·)

/-- The watch-only pubkeys that a run registers if nothing fails. -/
def watchPairs (K : Codecs) (report : Report) (accounts : List Account) : List (ℕ × PublicKey) :=
  accounts.flatMap (watchOf K report)

/-- The watch-only pubkeys that a run registers before its first failure. -/
def watchDone (K : Codecs) (run : Run) (report : Report) :
    ℕ → List Account → List (ℕ × PublicKey)
  | _, [] => []
  | i, account :: rest =>
    if watchOf K report account = [] then watchDone K run report (i + 1) rest
    else if run.fault (.ImportPubkeys i) ≠ none then []
    else if run.fault (.MarkExposed i) ≠ none then watchOf K report account
    else watchOf K report account ++ watchDone K run report (i + 1) rest

/-- The accounts, keys and watch-only pubkeys of the document were added to the
    wallet database once, and its secrets are in the keystore. -/
structure RegisteredOnce (K : Codecs) (I : Importer) (document : Document) (before after : Store) :
    Prop where
  accounts : after.db.accounts = before.db.accounts ++ (I.accepted document).map (walletAccount K)
  keys : after.db.keys = before.db.keys ∪ (I.newKeys document before.db.accounts.length).toFinset
  watch : after.db.watch = before.db.watch ∪
    (watchPairs K (I.report document before.db.accounts.length) document.accounts).toFinset
  secrets : Stored K document after.keystore

/-- The document as an uninterrupted run registers it: a seed it mints may be
    any. -/
def RegisteredAll (K : Codecs) (I : Importer) (document : Document) (before after : Store) : Prop :=
  ∃ mint roots, rootsOf K mint document = .ok roots ∧
    RegisteredOnce K I (enrichedDocument document roots) before after

/-- The mnemonic seed of the document belongs to an account of the database. -/
def KnownBefore (K : Codecs) (mint : String) (document : Document) (s : Store) : Prop :=
  ∃ roots fp, rootsOf K mint document = .ok roots ∧
    roots.mnemonicFp.bind K.decodeSeedFingerprint = some fp ∧ fp ∈ existingSeeds s.db

/-- A second run ended well: it completed and everything is registered once, or it
    was rejected and the first run, from `before`, had registered everything an
    uninterrupted run would have. -/
def RerunSafe (K : Codecs) (I : Importer) (run : Run) (document : Document) (before between : Store) :
    Prop :=
  match migrate K I run document between with
  | (.ok _, after) => RegisteredAll K I document before after
  | (.error (.DuplicateImport _), after) =>
      after = between ∧ RegisteredAll K I document before between
  | (.error _, _) => False

/-- No call of a run fails, `import_wallet` included. -/
structure NothingFails (K : Codecs) (I : Importer) (run : Run) (document : Document) (s : Store) :
    Prop where
  faults : ∀ step, run.fault step = none
  birthday : ∃ height, run.birthday = .ok height
  imports : ∀ plan, prepare K run document s = .ok plan → I.refuses s.db plan.document = none

/-- The document has no account to import, and its secrets are in the keystore. -/
def NothingNew (K : Codecs) (I : Importer) (mint : String) (document : Document) (s : Store) : Prop :=
  ∃ roots, rootsOf K mint document = .ok roots ∧
    I.accepted (enrichedDocument document roots) = [] ∧
    Stored K (enrichedDocument document roots) s.keystore

/-- The sink takes a seed. -/
def SeedEntry.Sound (K : Codecs) (entry : SeedEntry) : Prop :=
  match entry.material with
  | .Bip39Mnemonic phrase language => language.any (· ≠ .English) = false ∧
      K.fromPhrase phrase = .ok () ∧
      K.decodeSeedFingerprint entry.fingerprint = some (K.phraseFingerprint phrase)
  | .LegacySeed bytes => ∃ fp, K.legacyFingerprint bytes = some fp ∧
      K.decodeSeedFingerprint entry.fingerprint = some fp

/-- The sink takes a transparent key. -/
def TransparentKeyEntry.Sound (K : Codecs) (entry : TransparentKeyEntry) : Prop :=
  ∃ key, K.decodeTransparentKey entry.spendingKey = some key ∧ key.serialize = entry.pubkey

/-- The sink takes a Sapling key. -/
def SaplingKeyEntry.Sound (K : Codecs) (entry : SaplingKeyEntry) : Prop :=
  ∃ extsk, K.decodeSaplingKey entry.spendingKey = .ok extsk ∧ K.encodeFvk extsk = entry.fvk

/-- The sink takes every entry of a secret store. -/
structure SecretStore.Sound (K : Codecs) (store : SecretStore) : Prop where
  seeds : ∀ entry ∈ store.seeds, entry.Sound K
  transparentKeys : ∀ entry ∈ store.transparentKeys, entry.Sound K
  saplingKeys : ∀ entry ∈ store.saplingKeys, entry.Sound K

/-- The check of the report passes: an account is imported, if there is one, and
    nothing is skipped unless the run allows it. -/
def Complete (I : Importer) (run : Run) (document : Document) : Prop :=
  (document.accounts = [] ∨ I.accepted document ≠ []) ∧
    (run.allowPartialImport = true ∨ I.skipped document = [] ∧ I.skippedKeys document = [])

/-- The document is for the network of the wallet, its secrets are readable and sound,
    and the report of its import passes the check. -/
def Importable (K : Codecs) (I : Importer) (run : Run) (document : Document) (s : Store) : Prop :=
  document.network = s.network ∧ ∃ roots, rootsOf K run.mint document = .ok roots ∧
    (∀ store, roots.secretStore = some store → store.Sound K) ∧
    Complete I run (enrichedDocument document roots)

/-- A run got past the import. -/
structure Commits (K : Codecs) (I : Importer) (run : Run) (document : Document) (s : Store)
    (plan : Plan) (report : Report) (s' : Store) : Prop where
  prepared : prepare K run document s = .ok plan
  imported : persistAndImport K I run plan s = (.ok report, s')

/-- An account that is imported derives from the mnemonic seed of the document, which
    was not minted, and says that it comes from `zcashd`. -/
def Recognised (K : Codecs) (I : Importer) (document : Document) (roots : Roots) : Prop :=
  roots.mintedSeed = false ∧ ∃ fp, roots.mnemonicFp.bind K.decodeSeedFingerprint = some fp ∧
    ∃ account ∈ I.accepted (enrichedDocument document roots),
      zcashdSeed (walletAccount K account) = some fp

/-! ## Preparation -/

theorem normalize_not_duplicate {store : SecretStore} {fp : SeedFingerprint} :
    normalize K store ≠ .error (.DuplicateImport fp) := by
  intro h
  simp only [normalize] at h
  split at h
  · cases h
  · split at h <;> cases h
  · cases h

theorem ownRoots_not_duplicate {document : Document} {fp : SeedFingerprint} :
    ownRoots K document ≠ .error (.DuplicateImport fp) := by
  intro h
  unfold ownRoots at h
  split at h
  · cases h
  · rename_i store _
    cases hn : normalize K store with
    | error e =>
      rw [hn] at h
      exact normalize_not_duplicate (hn.trans (congrArg _ (Except.error.inj h)))
    | ok a => rw [hn] at h; cases h
  · cases h

theorem rootsOf_eq_ok {mint : String} {document : Document} {roots : Roots} :
    rootsOf K mint document = .ok roots ↔ ∃ own, ownRoots K document = .ok own ∧
      ((mints document own ∧ roots = ⟨some ((own.1.getD ⟨[], [], []⟩).addSeed (mnemonicEntry K mint)),
          some (mnemonicEntry K mint).fingerprint, true⟩) ∨
        (¬ mints document own ∧ roots = ⟨own.1, own.2, false⟩)) := by
  unfold rootsOf
  rw [bind_eq_ok]
  constructor
  · rintro ⟨own, hown, h⟩
    refine ⟨own, hown, ?_⟩
    split at h
    · exact Or.inl ⟨‹_›, (Except.ok.inj h).symm⟩
    · exact Or.inr ⟨‹_›, (Except.ok.inj h).symm⟩
  · rintro ⟨own, hown, ⟨hm, rfl⟩ | ⟨hm, rfl⟩⟩
    · exact ⟨own, hown, if_pos hm⟩
    · exact ⟨own, hown, if_neg hm⟩

theorem rootsOf_not_duplicate {mint : String} {document : Document} {fp : SeedFingerprint} :
    rootsOf K mint document ≠ .error (.DuplicateImport fp) := by
  intro h
  obtain h | ⟨own, -, h⟩ := bind_eq_error.mp h
  · exact ownRoots_not_duplicate h
  · split at h <;> cases h

/-- Two runs use the same seed unless they mint one. -/
theorem rootsOf_mint {mint mint' : String} {document : Document} {roots roots' : Roots}
    (h : rootsOf K mint document = .ok roots) (h' : rootsOf K mint' document = .ok roots') :
    (roots.mintedSeed = false ∧ roots' = roots) ∨
      (roots.mintedSeed = true ∧ roots'.mintedSeed = true ∧
        roots'.mnemonicFp = some (mnemonicEntry K mint').fingerprint ∧ roots.mnemonicFp.isSome ∧
        hasSeedlessLegacyAccount document = true) := by
  obtain ⟨own, hown, hcase⟩ := rootsOf_eq_ok.mp h
  obtain ⟨own', hown', hcase'⟩ := rootsOf_eq_ok.mp h'
  obtain rfl : own = own' := Except.ok.inj (hown.symm.trans hown')
  obtain ⟨hm, rfl⟩ | ⟨hm, rfl⟩ := hcase
  · obtain ⟨-, rfl⟩ | ⟨hm', -⟩ := hcase'
    · exact Or.inr ⟨rfl, rfl, rfl, rfl, hm.2⟩
    · exact absurd hm hm'
  · obtain ⟨hm', -⟩ | ⟨-, rfl⟩ := hcase'
    · exact absurd hm' hm
    · exact Or.inl ⟨rfl, rfl⟩

theorem prepare_ok {run : Run} {document : Document} {s : Store} {plan : Plan}
    (h : prepare K run document s = .ok plan) :
    rootsOf K run.mint document = .ok plan.roots ∧
      plan.document = enrichedDocument document plan.roots ∧
      checkDuplicate K run s.db plan.roots.mnemonicFp = .ok () := by
  unfold prepare at h
  simp only [bind_eq_ok] at h
  obtain ⟨_, -, _, -, _, -, roots, hroots, _, -, ⟨⟩, hcheck, _, -, _, -, h⟩ := h
  rw [← Except.ok.inj h]
  exact ⟨hroots, rfl, hcheck⟩

theorem prepare_network {run : Run} {document : Document} {s : Store} {plan : Plan}
    (h : prepare K run document s = .ok plan) : document.network = s.network := by
  unfold prepare at h
  simp only [bind_eq_ok] at h
  obtain ⟨_, -, _, hnetwork, -⟩ := h
  unfold checkNetwork at hnetwork
  split at hnetwork
  · assumption
  · cases hnetwork

/-- The check passes unless the seed of the document is known. -/
theorem checkDuplicate_ok {run : Run} {db : Db} {mnemonicFp : Option String} {fp : SeedFingerprint}
    (h : checkDuplicate K run db mnemonicFp = .ok ())
    (hfp : mnemonicFp.bind K.decodeSeedFingerprint = some fp) : fp ∉ existingSeeds db := by
  unfold checkDuplicate at h
  split at h
  · rename_i hnil
    simp [hnil]
  · split at h
    · rw [hfp] at h
      simp only at h
      split at h
      · cases h
      · assumption
    · cases h

/-! ## The writes -/

/-- The keystore only grows. -/
structure Keystore.Le (k k' : Keystore) : Prop where
  mnemonics : k.mnemonics ⊆ k'.mnemonics
  legacySeeds : k.legacySeeds ⊆ k'.legacySeeds
  transparentKeys : k.transparentKeys ⊆ k'.transparentKeys
  saplingKeys : k.saplingKeys ⊆ k'.saplingKeys

theorem Keystore.Le.refl (k : Keystore) : k.Le k :=
  ⟨Finset.Subset.refl _, Finset.Subset.refl _, Finset.Subset.refl _, Finset.Subset.refl _⟩

theorem Keystore.Le.trans {k₁ k₂ k₃ : Keystore} (h : k₁.Le k₂) (h' : k₂.Le k₃) : k₁.Le k₃ :=
  ⟨h.1.trans h'.1, h.2.trans h'.2, h.3.trans h'.3, h.4.trans h'.4⟩

/-- What a step of the sink does: it leaves the wallet database, the keystore
    grows, and if it succeeds then `P` holds of the keystore. -/
structure Sinks (P : Keystore → Prop) (s : Store) (r : Outcome Unit) : Prop where
  network : r.2.network = s.network
  db : r.2.db = s.db
  grows : s.keystore.Le r.2.keystore
  stored : r.1 = .ok () → P r.2.keystore
  error : ∀ e, r.1 = .error e → ∀ fp, e ≠ .DuplicateImport fp

theorem Sinks.stopped {P : Keystore → Prop} {s : Store} {e : SecretSinkError} :
    Sinks P s (.error (.SecretSink e), s) :=
  ⟨rfl, rfl, Keystore.Le.refl _, by simp, by simp⟩

theorem Sinks.andThen {P Q : Keystore → Prop} {s : Store} {r : Outcome Unit}
    {f : Unit → Store → Outcome Unit} (hP : ∀ k k', k.Le k' → P k → P k') (hr : Sinks P s r)
    (hf : ∀ s, Sinks Q s (f () s)) : Sinks (fun k => P k ∧ Q k) s (r.andThen f) := by
  obtain ⟨e | ⟨⟩, s₁⟩ := r
  · exact ⟨hr.network, hr.db, hr.grows, by simp [Outcome.andThen], hr.error⟩
  · have hs := hf s₁
    refine ⟨hs.network.trans hr.network, hs.db.trans hr.db, hr.grows.trans hs.grows, fun hok => ?_, hs.error⟩
    exact ⟨hP _ _ hs.grows (hr.stored rfl), hs.stored hok⟩

theorem Sinks.forEach {α : Type} {P : α → Keystore → Prop} {f : ℕ → α → Store → Outcome Unit}
    (hP : ∀ a k k', k.Le k' → P a k → P a k') (hf : ∀ i a s, Sinks (P a) s (f i a s)) (l : List α)
    (i : ℕ) (s : Store) : Sinks (fun k => ∀ a ∈ l, P a k) s (forEach f i l s) := by
  induction l generalizing i s with
  | nil => exact ⟨rfl, rfl, Keystore.Le.refl _, by simp, by simp [Migrate.forEach]⟩
  | cons a l ih =>
    have h := Sinks.andThen (f := fun _ s => Migrate.forEach f (i + 1) l s) (hP a) (hf i a s)
      fun s => ih (i + 1) s
    refine ⟨h.network, h.db, h.grows, fun hok => ?_, h.error⟩
    rw [List.forall_mem_cons]
    exact h.stored hok

def SeedEntry.Stored (K : Codecs) (entry : SeedEntry) (k : Keystore) : Prop :=
  match entry.material with
  | .Bip39Mnemonic phrase _ => K.phraseFingerprint phrase ∈ k.mnemonics
  | .LegacySeed bytes => ∀ fp ∈ K.legacyFingerprint bytes, fp ∈ k.legacySeeds

def TransparentKeyEntry.Stored (K : Codecs) (entry : TransparentKeyEntry) (k : Keystore) : Prop :=
  ∀ key ∈ K.decodeTransparentKey entry.spendingKey, key.pubkey ∈ k.transparentKeys

def SaplingKeyEntry.Stored (K : Codecs) (entry : SaplingKeyEntry) (k : Keystore) : Prop :=
  ∀ extsk, K.decodeSaplingKey entry.spendingKey = .ok extsk → K.dfvk extsk ∈ k.saplingKeys

theorem SeedEntry.Stored.mono {entry : SeedEntry} {k k' : Keystore} (h : k.Le k')
    (hk : entry.Stored K k) : entry.Stored K k' := by
  unfold SeedEntry.Stored at hk ⊢
  split
  · exact h.mnemonics (by simpa [*] using hk)
  · rename_i bytes hm
    rw [hm] at hk
    exact fun fp hfp => h.legacySeeds (hk fp hfp)

theorem checkFingerprint_not_duplicate {recorded : String} {computed fp : SeedFingerprint} :
    checkFingerprint K recorded computed ≠ .error (.DuplicateImport fp) := by
  unfold checkFingerprint
  intro h
  split at h
  · cases h
  · split at h <;> cases h

theorem storeSeed_sinks {run : Run} (i : ℕ) (entry : SeedEntry) (s : Store) :
    Sinks (entry.Stored K) s (storeSeed K run i entry s) := by
  obtain ⟨recorded, material⟩ := entry
  cases material with
  | Bip39Mnemonic phrase language =>
    simp only [storeSeed]
    split
    · exact Sinks.stopped
    · split
      · exact Sinks.stopped
      · exact Sinks.stopped
      · refine ⟨rfl, rfl, ⟨Finset.subset_insert _ _, Finset.Subset.refl _, Finset.Subset.refl _,
          Finset.Subset.refl _⟩, fun _ => Finset.mem_insert_self _ _, ?_⟩
        rintro e he fp rfl
        exact checkFingerprint_not_duplicate he
  | LegacySeed bytes =>
    simp only [storeSeed]
    split
    · exact Sinks.stopped
    · exact Sinks.stopped
    · rename_i fp hfp hfault
      refine ⟨rfl, rfl, ⟨Finset.Subset.refl _, Finset.subset_insert _ _, Finset.Subset.refl _,
        Finset.Subset.refl _⟩, fun _ fp' hfp' => ?_, ?_⟩
      · cases hfp.symm.trans hfp'
        exact Finset.mem_insert_self _ _
      · rintro e he fp rfl
        exact checkFingerprint_not_duplicate he

theorem storeTransparentKey_sinks {run : Run} (i : ℕ) (entry : TransparentKeyEntry) (s : Store) :
    Sinks (entry.Stored K) s (storeTransparentKey K run i entry s) := by
  unfold storeTransparentKey TransparentKeyEntry.Stored
  split
  · exact Sinks.stopped
  · rename_i key hkey
    split
    · exact Sinks.stopped
    · split
      · exact Sinks.stopped
      · refine ⟨rfl, rfl, ⟨Finset.Subset.refl _, Finset.Subset.refl _, Finset.subset_insert _ _,
          Finset.Subset.refl _⟩, fun _ key' hkey' => ?_, by simp⟩
        cases hkey.symm.trans hkey'
        exact Finset.mem_insert_self _ _

theorem storeSaplingKey_sinks {run : Run} (i : ℕ) (entry : SaplingKeyEntry) (s : Store) :
    Sinks (entry.Stored K) s (storeSaplingKey K run i entry s) := by
  unfold storeSaplingKey SaplingKeyEntry.Stored
  split
  · exact Sinks.stopped
  · rename_i extsk hextsk
    split
    · exact Sinks.stopped
    · split
      · exact Sinks.stopped
      · refine ⟨rfl, rfl, ⟨Finset.Subset.refl _, Finset.Subset.refl _, Finset.Subset.refl _,
          Finset.subset_insert _ _⟩, fun _ extsk' hextsk' => ?_, by simp⟩
        cases hextsk.symm.trans hextsk'
        exact Finset.mem_insert_self _ _

theorem persist_sinks (run : Run) (document : Document) (s : Store) :
    Sinks (Stored K document) s (persist K run document s) := by
  unfold persist
  split
  · rename_i store hstore
    have hseeds := fun s => Sinks.forEach (P := SeedEntry.Stored K) (f := storeSeed K run)
      (fun _ _ _ => SeedEntry.Stored.mono) storeSeed_sinks store.seeds 0 s
    have htransparent := fun s => Sinks.forEach (P := TransparentKeyEntry.Stored K)
      (f := storeTransparentKey K run)
      (fun _ _ _ hle h key hkey => hle.transparentKeys (h key hkey))
      storeTransparentKey_sinks store.transparentKeys 0 s
    have hsapling := fun s => Sinks.forEach (P := SaplingKeyEntry.Stored K)
      (f := storeSaplingKey K run)
      (fun _ _ _ hle h extsk hextsk => hle.saplingKeys (h extsk hextsk))
      storeSaplingKey_sinks store.saplingKeys 0 s
    have hrest := fun s => Sinks.andThen
      (f := fun _ s => forEach (storeSaplingKey K run) 0 store.saplingKeys s)
      (fun k k' hle h e he key hkey => hle.transparentKeys (h e he key hkey)) (htransparent s)
      hsapling
    have h := Sinks.andThen
      (f := fun _ s => (forEach (storeTransparentKey K run) 0 store.transparentKeys s).andThen
        fun _ s => forEach (storeSaplingKey K run) 0 store.saplingKeys s)
      (fun k k' hle h e he => (h e he).mono hle) (hseeds s) hrest
    refine ⟨h.network, h.db, h.grows, fun hok store' hstore' => ?_, h.error⟩
    cases hstore.symm.trans hstore'
    exact h.stored hok
  · rename_i hnone
    exact ⟨rfl, rfl, Keystore.Le.refl _, fun _ store hstore => absurd hstore (hnone store), by simp⟩

theorem removeProvisionalMnemonic_keeps (run : Run) (fp : String) (s : Store) :
    (removeProvisionalMnemonic K run fp s).network = s.network ∧
      (removeProvisionalMnemonic K run fp s).db = s.db := by
  unfold removeProvisionalMnemonic
  split
  · exact ⟨rfl, rfl⟩
  · split
    · exact ⟨rfl, rfl⟩
    · split <;> exact ⟨rfl, rfl⟩

theorem andThen_eq_ok {α β : Type} {r : Outcome α} {f : α → Store → Outcome β} {b : β} {s' : Store} :
    r.andThen f = (.ok b, s') ↔ ∃ a s, r = (.ok a, s) ∧ f a s = (.ok b, s') := by
  obtain ⟨e | a, s⟩ := r <;> simp [Outcome.andThen]

/-- A run that does not get past the import leaves the wallet database. -/
theorem persistAndImport_error {run : Run} {plan : Plan} {s s' : Store} {e : MigrateError}
    (h : persistAndImport K I run plan s = (.error e, s')) :
    s'.network = s.network ∧ s'.db = s.db ∧ ∀ fp, e ≠ .DuplicateImport fp := by
  have hsinks := persist_sinks (K := K) run plan.document s
  have hinner : ∀ e₁ s₁, ((persist K run plan.document s).andThen fun _ s =>
      importWallet K I plan.document s) = (.error e₁, s₁) →
      s₁.network = s.network ∧ s₁.db = s.db ∧ ∀ fp, e₁ ≠ .DuplicateImport fp := by
    intro e₁ s₁ h₁
    generalize persist K run plan.document s = r at h₁ hsinks
    obtain ⟨e₂ | ⟨⟩, s₂⟩ := r
    · cases h₁
      exact ⟨hsinks.network, hsinks.db, hsinks.error _ rfl⟩
    · simp only [Outcome.andThen, importWallet] at h₁
      split at h₁
      · cases h₁
        exact ⟨hsinks.network, hsinks.db, by simp⟩
      · cases h₁
  unfold persistAndImport persistAndImportWith at h
  split at h
  · cases h
  · rename_i e₁ s₁ h₁
    obtain ⟨hnetwork, hdb, he⟩ := hinner e₁ s₁ h₁
    split at h
    · cases h
      rename_i fp _ _
      have hremoved := removeProvisionalMnemonic_keeps (K := K) run fp s₁
      exact ⟨hremoved.1.trans hnetwork, hremoved.2.trans hdb, he⟩
    · cases h
      exact ⟨hnetwork, hdb, he⟩

/-- A run that gets past the import has added the accounts and their keys. -/
theorem persistAndImport_ok {run : Run} {plan : Plan} {s s' : Store} {report : Report}
    (h : persistAndImport K I run plan s = (.ok report, s')) :
    report = I.report plan.document s.db.accounts.length ∧
      s'.db.accounts = s.db.accounts ++ (I.accepted plan.document).map (walletAccount K) ∧
      s'.db.keys = s.db.keys ∪ (I.newKeys plan.document s.db.accounts.length).toFinset ∧
      s'.db.watch = s.db.watch ∧ Stored K plan.document s'.keystore ∧ s'.network = s.network := by
  have hsinks := persist_sinks (K := K) run plan.document s
  unfold persistAndImport persistAndImportWith at h
  split at h
  · rename_i report₁ s₁ h₁
    cases h
    obtain ⟨⟨⟩, s₂, hpersist, himport⟩ := andThen_eq_ok.mp h₁
    rw [hpersist] at hsinks
    have hdb : s₂.db = s.db := hsinks.db
    simp only [importWallet] at himport
    split at himport
    · cases himport
    · cases himport
      rw [hdb]
      exact ⟨rfl, rfl, rfl, rfl, hsinks.stored rfl, hsinks.network⟩
  · split at h <;> cases h

/-! ## After the import -/

@[simp] theorem watchPairs_cons {report : Report} {account : Account} {l : List Account} :
    watchPairs K report (account :: l) = watchOf K report account ++ watchPairs K report l :=
  List.flatMap_cons

/-- One turn of the loop over the accounts. -/
theorem registerWatchPubkeys_eq {run : Run} {report : Report} {height i : ℕ} {account : Account}
    {s : Store} :
    registerWatchPubkeys K run report height i account s =
      if watchOf K report account = [] then (.ok (), s)
      else
        match run.fault (.ImportPubkeys i) with
        | some text => (.error (.Database text), s)
        | none =>
          let s := { s with db := { s.db with
            watch := s.db.watch ∪ (watchOf K report account).toFinset } }
          match run.fault (.MarkExposed i) with
          | some text => (.error (.Database text), s)
          | none => (.ok (), { s with db := { s.db with
              exposed := s.db.exposed ++
                (watchPubkeys K account).map fun pk => (K.fromPubkey pk, height) } }) := by
  unfold registerWatchPubkeys watchOf
  cases report.accountsByName account.name with
  | none => simp
  | some id =>
    cases run.fault (.ImportPubkeys i) <;> cases run.fault (.MarkExposed i) <;>
      simp only [List.map_eq_nil_iff]

/-- The loop over the accounts registers pubkeys up to the first failure, and all if
    there is none. -/
theorem forEach_watch (run : Run) (report : Report) (height : ℕ) (l : List Account) (i : ℕ)
    (s : Store) :
    ∃ r exposed, forEach (registerWatchPubkeys K run report height) i l s =
      (r, { s with db := { s.db with
        watch := s.db.watch ∪ (watchDone K run report i l).toFinset, exposed := exposed } }) ∧
      (r = .ok () → watchDone K run report i l = watchPairs K report l) ∧
      ∀ e, r = .error e → ∀ fp, e ≠ .DuplicateImport fp := by
  induction l generalizing i s with
  | nil => exact ⟨.ok (), s.db.exposed, by simp [forEach, watchDone], by simp [watchDone, watchPairs],
      by simp⟩
  | cons account l ih =>
    simp only [forEach, registerWatchPubkeys_eq, watchDone, watchPairs_cons]
    by_cases hnil : watchOf K report account = []
    · simpa [hnil, Outcome.andThen] using ih (i + 1) s
    · simp only [hnil, if_false]
      cases himport : run.fault (.ImportPubkeys i) with
      | some text => exact ⟨_, s.db.exposed, by simp [Outcome.andThen]; rfl, by simp, by simp⟩
      | none =>
        cases hmark : run.fault (.MarkExposed i) with
        | some text => exact ⟨_, s.db.exposed, by simp [Outcome.andThen]; rfl, by simp, by simp⟩
        | none =>
          obtain ⟨r, exposed, heq, hok, herror⟩ := ih (i + 1) { s with db := { s.db with
            watch := s.db.watch ∪ (watchOf K report account).toFinset
            exposed := s.db.exposed ++
              (watchPubkeys K account).map fun pk => (K.fromPubkey pk, height) } }
          refine ⟨r, exposed, ?_, fun hr => ?_, herror⟩
          · simp only [Outcome.andThen]
            rw [heq]
            simp [List.toFinset_append, Finset.union_assoc]
          · simpa using hok hr

/-- The part of a run after the import. -/
theorem finish_spec (run : Run) (plan : Plan) (report : Report) (s : Store) :
    ∃ r exposed, finish K run plan report s =
      (r, { s with db := { s.db with
        watch := s.db.watch ∪ (watchDone K run report 0 plan.document.accounts).toFinset
        exposed := exposed } }) ∧
      (r = .ok () → watchDone K run report 0 plan.document.accounts =
          watchPairs K report plan.document.accounts ∧
        (report.importedAccounts = [] → plan.document.accounts = [])) ∧
      ∀ e, r = .error e → ∀ fp, e ≠ .DuplicateImport fp := by
  obtain ⟨r, exposed, heq, hok, herror⟩ := forEach_watch (K := K) run report plan.exposureHeight
    plan.document.accounts 0 s
  unfold finish
  rw [heq]
  cases r with
  | error e => exact ⟨.error e, exposed, rfl, by simp, herror⟩
  | ok u =>
    refine ⟨_, exposed, rfl, fun hcheck => ⟨hok rfl, fun hnil => ?_⟩, fun e hcheck fp => ?_⟩
    · unfold checkImportReport at hcheck
      split at hcheck
      · cases hcheck
      · rename_i hsome
        by_contra hne
        exact hsome ⟨List.length_pos_iff.mpr hne, hnil⟩
    · unfold checkImportReport at hcheck
      split at hcheck
      · cases hcheck
        simp
      · split at hcheck
        · cases hcheck
          simp
        · cases hcheck

/-! ## Runs -/

/-- What a run does: it stops before the import and leaves the wallet database, or
    it gets past the import. -/
theorem migrate_cases (run : Run) (document : Document) (s : Store) :
    ((∀ plan report s', ¬ Commits K I run document s plan report s') ∧
        (migrate K I run document s).1 ≠ .ok () ∧ (migrate K I run document s).2.db = s.db ∧
        ∀ fp, (migrate K I run document s).1 = .error (.DuplicateImport fp) →
          (migrate K I run document s).2 = s ∧
          prepare K run document s = .error (.DuplicateImport fp)) ∨
      ∃ plan report s', Commits K I run document s plan report s' ∧
        migrate K I run document s = finish K run plan report s' := by
  cases hprep : prepare K run document s with
  | error e =>
    have hmigrate : migrate K I run document s = (.error e, s) := by
      simp only [migrate, migrateWith, hprep]
    rw [hmigrate]
    refine Or.inl ⟨fun plan report s' h => ?_, by simp, rfl, fun fp he => ⟨rfl, ?_⟩⟩
    · cases hprep.symm.trans h.prepared
    · rw [Except.error.inj he]
  | ok plan =>
    have hmigrate : migrate K I run document s =
        (persistAndImport K I run plan s).andThen fun report s => finish K run plan report s := by
      simp only [migrate, migrateWith, hprep]
      rfl
    rw [hmigrate]
    cases himport : persistAndImport K I run plan s with
    | mk r s' =>
      cases r with
      | error e =>
        obtain ⟨-, hdb, he⟩ := persistAndImport_error himport
        refine Or.inl ⟨fun plan' report s'' h => ?_, by simp [Outcome.andThen], ?_, ?_⟩
        · cases hprep.symm.trans h.prepared
          cases himport.symm.trans h.imported
        · simpa [Outcome.andThen] using hdb
        · intro fp hfp
          simp only [Outcome.andThen, Except.error.injEq] at hfp
          exact absurd hfp (he fp)
      | ok report =>
        exact Or.inr ⟨plan, report, s', ⟨hprep, himport⟩, by simp [Outcome.andThen]⟩

theorem isDerived_enriched (mnemonicFp : Option String) (account : Account) :
    ({ account with keySource := enrichedKeySource mnemonicFp account } : Account).isDerived =
      (account.isDerived || mnemonicFp.isSome && account.isSeedlessLegacyAccount) := by
  obtain ⟨name, viewingKey, keySource, provenance, addresses⟩ := account
  cases mnemonicFp with
  | none => simp [enrichedKeySource, Account.isDerived]
  | some fp =>
    cases keySource with
    | none =>
      by_cases h : provenance = some zcashdLegacySource <;>
        simp [enrichedKeySource, Account.isDerived, Account.isSeedlessLegacyAccount, h]
    | some source =>
      cases source with
      | Derived seed index legacy =>
        by_cases h : index = zcashdLegacyAccountIndex ∧ seed ≠ fp <;>
          simp [enrichedKeySource, Account.isDerived, h]
      | Imported =>
        by_cases h : provenance = some zcashdLegacySource <;>
          simp [enrichedKeySource, Account.isDerived, Account.isSeedlessLegacyAccount, h]

/-- How many accounts are imported does not depend on the seed. -/
theorem accepted_length (document : Document) {roots roots' : Roots}
    (h : roots.mnemonicFp.isSome = roots'.mnemonicFp.isSome) :
    (I.accepted (enrichedDocument document roots)).length =
      (I.accepted (enrichedDocument document roots')).length := by
  simp only [Importer.accepted, enrichedDocument, List.filter_map, List.length_map]
  congr 2
  funext account
  simp only [Function.comp_apply, isDerived_enriched, h]

theorem mnemonicFp_isSome {mint mint' : String} {document : Document} {roots roots' : Roots}
    (h : rootsOf K mint document = .ok roots) (h' : rootsOf K mint' document = .ok roots') :
    roots.mnemonicFp.isSome = roots'.mnemonicFp.isSome := by
  obtain ⟨-, rfl⟩ | ⟨-, -, hfp', hfp, -⟩ := rootsOf_mint h h'
  · rfl
  · rw [hfp, hfp']
    rfl

theorem existingSeeds_append {db db' : Db} {l : List WalletAccount}
    (h : db'.accounts = db.accounts ++ l) :
    existingSeeds db' = existingSeeds db ++ l.filterMap zcashdSeed := by
  simp [existingSeeds, h]

/-- A run that got past the import. -/
theorem Commits.spec {run : Run} {document : Document} {s s' : Store} {plan : Plan} {report : Report}
    (h : Commits K I run document s plan report s') :
    rootsOf K run.mint document = .ok plan.roots ∧
      plan.document = enrichedDocument document plan.roots ∧
      (∀ fp, plan.roots.mnemonicFp.bind K.decodeSeedFingerprint = some fp →
        fp ∉ existingSeeds s.db) ∧
      report = I.report plan.document s.db.accounts.length ∧
      s'.db.accounts = s.db.accounts ++ (I.accepted plan.document).map (walletAccount K) ∧
      s'.db.keys = s.db.keys ∪ (I.newKeys plan.document s.db.accounts.length).toFinset ∧
      s'.db.watch = s.db.watch ∧ Stored K plan.document s'.keystore ∧ s'.network = s.network := by
  obtain ⟨hroots, hdoc, hcheck⟩ := prepare_ok h.prepared
  exact ⟨hroots, hdoc, fun fp hfp => checkDuplicate_ok hcheck hfp, persistAndImport_ok h.imported⟩

theorem Commits.unique {run : Run} {document : Document} {s s' s'' : Store} {plan plan' : Plan}
    {report report' : Report} (h : Commits K I run document s plan report s')
    (h' : Commits K I run document s plan' report' s'') :
    plan = plan' ∧ report = report' ∧ s' = s'' := by
  obtain rfl := Except.ok.inj (h.prepared.symm.trans h'.prepared)
  have heq := Prod.mk.inj (h.imported.symm.trans h'.imported)
  exact ⟨rfl, Except.ok.inj heq.1, heq.2⟩

/-- The state after a run that got past the import, which failed or not. -/
theorem migrate_committed {run : Run} {document : Document} {s s' : Store} {plan : Plan}
    {report : Report} (h : Commits K I run document s plan report s')
    (heq : migrate K I run document s = finish K run plan report s') :
    ∃ r after, migrate K I run document s = (r, after) ∧
      after.db.accounts = s'.db.accounts ∧ after.db.keys = s'.db.keys ∧
      after.db.watch = s.db.watch ∪
        (watchDone K run report 0 plan.document.accounts).toFinset ∧
      after.keystore = s'.keystore ∧
      (r = .ok () → watchDone K run report 0 plan.document.accounts =
          watchPairs K report plan.document.accounts ∧
        (I.accepted plan.document = [] → document.accounts = [])) ∧
      ∀ fp, r ≠ .error (.DuplicateImport fp) := by
  obtain ⟨-, hdoc, -, hreport, -, -, hwatch, -⟩ := h.spec
  obtain ⟨r, exposed, hfinish, hok, herror⟩ := finish_spec (K := K) run plan report s'
  refine ⟨r, _, heq.trans hfinish, rfl, rfl, by simp [hwatch], rfl, fun hr => ?_, fun fp hr => ?_⟩
  · refine ⟨(hok hr).1, fun hnil => ?_⟩
    have hzero := (hok hr).2 (by rw [hreport]; simp [Importer.report, Importer.imported, hnil])
    simpa [hdoc, enrichedDocument] using hzero
  · exact herror _ hr fp rfl

/-- A completed run registers the document once. -/
theorem Commits.registeredOnce {run : Run} {document : Document} {s s' after : Store} {plan : Plan}
    {report : Report} (h : Commits K I run document s plan report s')
    (heq : migrate K I run document s = finish K run plan report s')
    (hok : migrate K I run document s = (.ok (), after)) :
    RegisteredOnce K I (enrichedDocument document plan.roots) s after := by
  obtain ⟨-, hdoc, -, hreport, haccounts, hkeys, -, hstored, -⟩ := h.spec
  obtain ⟨r, after', heq', hacc, hk, hw, hks, hr, -⟩ := migrate_committed h heq
  cases hok.symm.trans heq'
  rw [← hdoc]
  refine ⟨hacc.trans haccounts, hk.trans hkeys, ?_, hks ▸ hstored⟩
  rw [hw, (hr rfl).1, hreport]

theorem RegisteredOnce.of_db {document : Document} {s₁ s₂ s : Store} (hdb : s₁.db = s₂.db)
    (h : RegisteredOnce K I document s₁ s) : RegisteredOnce K I document s₂ s := by
  obtain ⟨h₁, h₂, h₃, h₄⟩ := h
  rw [hdb] at h₁ h₂ h₃
  exact ⟨h₁, h₂, h₃, h₄⟩

/-! ## Runs in which no call fails -/

section Faultless

variable {run : Run}

theorem ask_faultless (h : ∀ step, run.fault step = none) (step : Step)
    (error : String → MigrateError) : run.ask step error = .ok () := by
  unfold Run.ask
  rw [h]

theorem readAccounts_faultless (h : ∀ step, run.fault step = none) (n : ℕ) :
    readAccounts run n = .ok () := by
  have hloop : ∀ l : List ℕ, (l.forM fun i => run.ask (.GetAccount i) .Database) = .ok () := by
    intro l
    induction l with
    | nil => rfl
    | cons i l ih =>
      change (run.ask _ _ >>= fun _ => l.forM _) = _
      rw [ask_faultless h]
      exact ih
  unfold readAccounts
  rw [ask_faultless h]
  exact hloop _

/-- The preparation checks the network, the secrets and the seed. -/
theorem prepare_faultless {document : Document} {s : Store}
    (h : NothingFails K I run document s) :
    ∃ height, prepare K run document s = (do
      checkNetwork document s
      let roots ← rootsOf K run.mint document
      checkDuplicate K run s.db roots.mnemonicFp
      .ok ⟨enrichedDocument document roots, roots, height⟩) := by
  obtain ⟨height, hheight⟩ := h.birthday
  refine ⟨height, ?_⟩
  unfold prepare
  simp only [ask_faultless h.faults, readAccounts_faultless h.faults, hheight]
  rfl

/-- The check for an earlier import, for a run that allows multiple ones. -/
theorem checkDuplicate_allowed (hallow : run.allowMultipleWalletImports = true) (db : Db)
    (mnemonicFp : Option String) :
    (∃ fp, mnemonicFp.bind K.decodeSeedFingerprint = some fp ∧ fp ∈ existingSeeds db ∧
        checkDuplicate K run db mnemonicFp = .error (.DuplicateImport fp)) ∨
      ((∀ fp, mnemonicFp.bind K.decodeSeedFingerprint = some fp → fp ∉ existingSeeds db) ∧
        checkDuplicate K run db mnemonicFp = .ok ()) := by
  unfold checkDuplicate
  by_cases hnil : existingSeeds db = []
  · exact Or.inr ⟨by simp [hnil], if_pos hnil⟩
  rw [if_neg hnil, if_pos hallow]
  cases hfp : mnemonicFp.bind K.decodeSeedFingerprint with
  | none => exact Or.inr ⟨by simp, rfl⟩
  | some fp =>
    by_cases hmem : fp ∈ existingSeeds db
    · exact Or.inl ⟨fp, rfl, hmem, if_pos hmem⟩
    · refine Or.inr ⟨fun fp' h => ?_, if_neg hmem⟩
      rw [← Option.some.inj h]
      exact hmem

/-- How the preparation ends: the seed is known, or it is not, or the document is for
    another network or its secrets are not readable. -/
theorem prepare_cases {document : Document} {s : Store}
    (hallow : run.allowMultipleWalletImports = true) (h : NothingFails K I run document s) :
    (document.network = s.network ∧ KnownBefore K run.mint document s ∧
        ∃ fp, prepare K run document s = .error (.DuplicateImport fp)) ∨
      (document.network = s.network ∧ ¬ KnownBefore K run.mint document s ∧
        ∃ plan, prepare K run document s = .ok plan) ∨
      ((document.network ≠ s.network ∨ ∀ roots, rootsOf K run.mint document ≠ .ok roots) ∧
        ∃ e, prepare K run document s = .error e ∧ ∀ fp, e ≠ .DuplicateImport fp) := by
  obtain ⟨height, hprep⟩ := prepare_faultless h
  rw [hprep]
  by_cases hnetwork : document.network = s.network
  swap
  · refine Or.inr (Or.inr ⟨Or.inl hnetwork, .NetworkMismatch document.network s.network, ?_,
      by simp⟩)
    simp only [checkNetwork, if_neg hnetwork]
    rfl
  have hcheck : checkNetwork document s = .ok () := if_pos hnetwork
  rw [hcheck]
  cases hroots : rootsOf K run.mint document with
  | error e =>
    refine Or.inr (Or.inr ⟨Or.inr (by simp), e, rfl, fun fp he => ?_⟩)
    exact rootsOf_not_duplicate (hroots.trans (congrArg _ he))
  | ok roots =>
    obtain ⟨fp, hfp, hmem, hdup⟩ | ⟨hunknown, hok⟩ :=
      checkDuplicate_allowed (K := K) hallow s.db roots.mnemonicFp
    · refine Or.inl ⟨hnetwork, ⟨roots, fp, hroots, hfp, hmem⟩, fp, ?_⟩
      change (checkDuplicate K run s.db roots.mnemonicFp >>= _) = _
      rw [hdup]
      rfl
    · refine Or.inr (Or.inl ⟨hnetwork, ?_, ⟨enrichedDocument document roots, roots, height⟩, ?_⟩)
      · rintro ⟨roots', fp, hroots', hfp, hmem⟩
        obtain rfl := Except.ok.inj (hroots.symm.trans hroots')
        exact hunknown fp hfp hmem
      · change (checkDuplicate K run s.db roots.mnemonicFp >>= _) = _
        rw [hok]
        rfl

theorem andThen_isOk {α β : Type} {r : Outcome α} {f : α → Store → Outcome β} :
    (∃ b, (r.andThen f).1 = .ok b) ↔ ∃ a, r.1 = .ok a ∧ ∃ b, (f a r.2).1 = .ok b := by
  obtain ⟨e | a, s⟩ := r <;> simp [Outcome.andThen]

theorem forEach_isOk {α : Type} {P : α → Prop} {f : ℕ → α → Store → Outcome Unit}
    (hf : ∀ i a s, (∃ u, (f i a s).1 = .ok u) ↔ P a) (l : List α) (i : ℕ) (s : Store) :
    (∃ u, (forEach f i l s).1 = .ok u) ↔ ∀ a ∈ l, P a := by
  induction l generalizing i s with
  | nil => simp [forEach]
  | cons a l ih =>
    rw [forEach, andThen_isOk, List.forall_mem_cons, ← hf i a s]
    constructor
    · rintro ⟨u, hu, hrest⟩
      exact ⟨⟨u, hu⟩, (ih _ _).mp hrest⟩
    · rintro ⟨⟨u, hu⟩, hrest⟩
      exact ⟨u, hu, (ih _ _).mpr hrest⟩

theorem checkFingerprint_isOk {recorded : String} {computed : SeedFingerprint} :
    (∃ u, checkFingerprint K recorded computed = .ok u) ↔
      K.decodeSeedFingerprint recorded = some computed := by
  unfold checkFingerprint
  cases K.decodeSeedFingerprint recorded with
  | none => simp
  | some decoded => by_cases h : decoded = computed <;> simp [h]

theorem storeSeed_isOk (h : ∀ step, run.fault step = none) (i : ℕ) (entry : SeedEntry) (s : Store) :
    (∃ u, (storeSeed K run i entry s).1 = .ok u) ↔ entry.Sound K := by
  obtain ⟨recorded, material⟩ := entry
  cases material with
  | Bip39Mnemonic phrase language =>
    simp only [storeSeed, SeedEntry.Sound, h]
    by_cases hlanguage : language.any (· ≠ .English) = true
    · rw [if_pos hlanguage]
      apply iff_of_false
      · rintro ⟨u, ⟨⟩⟩
      · rintro ⟨hnone, -⟩
        exact absurd (hlanguage.symm.trans hnone) (by simp)
    · rw [if_neg hlanguage, and_iff_right (Bool.eq_false_iff.mpr hlanguage)]
      cases K.fromPhrase phrase with
      | error text => simp
      | ok u => simp [checkFingerprint_isOk]
  | LegacySeed bytes =>
    simp only [storeSeed, SeedEntry.Sound, h]
    cases K.legacyFingerprint bytes with
    | none => simp
    | some fp => simp [checkFingerprint_isOk]

theorem storeTransparentKey_isOk (h : ∀ step, run.fault step = none) (i : ℕ)
    (entry : TransparentKeyEntry) (s : Store) :
    (∃ u, (storeTransparentKey K run i entry s).1 = .ok u) ↔ entry.Sound K := by
  unfold storeTransparentKey TransparentKeyEntry.Sound
  cases K.decodeTransparentKey entry.spendingKey with
  | none => simp
  | some key => by_cases hkey : key.serialize = entry.pubkey <;> simp [hkey, h]

theorem storeSaplingKey_isOk (h : ∀ step, run.fault step = none) (i : ℕ) (entry : SaplingKeyEntry)
    (s : Store) : (∃ u, (storeSaplingKey K run i entry s).1 = .ok u) ↔ entry.Sound K := by
  unfold storeSaplingKey SaplingKeyEntry.Sound
  cases K.decodeSaplingKey entry.spendingKey with
  | error text => simp
  | ok extsk => by_cases hkey : K.encodeFvk extsk = entry.fvk <;> simp [hkey, h]

/-- The keystore takes the secrets iff every entry is sound. -/
theorem persist_isOk (h : ∀ step, run.fault step = none) (document : Document) (s : Store) :
    (∃ u, (persist K run document s).1 = .ok u) ↔
      ∀ store, document.secrets = some (.Plain store) → store.Sound K := by
  unfold persist
  split
  · rename_i store hstore
    have hseeds := fun s => forEach_isOk (storeSeed_isOk (K := K) h) store.seeds 0 s
    have htransparent := fun s => forEach_isOk (storeTransparentKey_isOk (K := K) h)
      store.transparentKeys 0 s
    have hsapling := fun s => forEach_isOk (storeSaplingKey_isOk (K := K) h) store.saplingKeys 0 s
    rw [andThen_isOk]
    constructor
    · rintro ⟨u, hu, hrest⟩ store' hstore'
      obtain ⟨v, hv, hlast⟩ := andThen_isOk.mp hrest
      cases hstore.symm.trans hstore'
      exact ⟨(hseeds _).mp ⟨u, hu⟩, (htransparent _).mp ⟨v, hv⟩, (hsapling _).mp hlast⟩
    · intro hsound
      obtain ⟨hs, ht, hk⟩ := hsound store hstore
      obtain ⟨u, hu⟩ := (hseeds s).mpr hs
      obtain ⟨v, hv⟩ := (htransparent _).mpr ht
      exact ⟨u, hu, andThen_isOk.mpr ⟨v, hv, (hsapling _).mpr hk⟩⟩
  · rename_i hnone
    exact ⟨fun _ store hstore => absurd hstore (hnone store), fun _ => ⟨(), rfl⟩⟩

/-- The step is done iff every entry of the secret store is sound. -/
theorem persistAndImport_isOk {document : Document} {s : Store} {plan : Plan}
    (h : NothingFails K I run document s) (hplan : prepare K run document s = .ok plan) :
    (∃ report, (persistAndImport K I run plan s).1 = .ok report) ↔
      ∀ store, plan.roots.secretStore = some store → store.Sound K := by
  have hdoc := (prepare_ok hplan).2.1
  have hsecrets : ∀ store, plan.document.secrets = some (.Plain store) ↔
      plan.roots.secretStore = some store := by
    intro store
    rw [hdoc]
    cases hstore : plan.roots.secretStore <;> simp [enrichedDocument, hstore]
  have hpersist := persist_isOk (K := K) h.faults plan.document s
  simp only [hsecrets] at hpersist
  rw [← hpersist]
  have hdb := (persist_sinks (K := K) run plan.document s).db
  have himport : ∀ s₁, s₁.db = s.db → ∃ report, (importWallet K I plan.document s₁).1 = .ok report := by
    intro s₁ hs₁
    unfold importWallet
    rw [hs₁, h.imports plan hplan]
    exact ⟨_, rfl⟩
  have hinner : (∃ report, ((persist K run plan.document s).andThen fun _ s =>
      importWallet K I plan.document s).1 = .ok report) ↔
      ∃ u, (persist K run plan.document s).1 = .ok u := by
    rw [andThen_isOk]
    constructor
    · rintro ⟨u, hu, -⟩
      exact ⟨u, hu⟩
    · rintro ⟨u, hu⟩
      exact ⟨u, hu, himport _ hdb⟩
  rw [← hinner]
  unfold persistAndImport persistAndImportWith
  generalize (persist K run plan.document s).andThen
    (fun _ s => importWallet K I plan.document s) = r
  obtain ⟨e | report, s₁⟩ := r
  · simp only [reduceCtorEq, exists_false, iff_false, not_exists]
    intro report
    split <;> simp
  · simp

theorem checkImportReport_isOk (report : Report) (n : ℕ) (allow : Bool) :
    (∃ u, checkImportReport report n allow = .ok u) ↔
      (n = 0 ∨ report.importedAccounts ≠ []) ∧
        (allow = true ∨ report.skippedAccounts = [] ∧ report.skippedTransparentKeys = []) := by
  unfold checkImportReport
  by_cases hnone : n > 0 ∧ report.importedAccounts = []
  · rw [if_pos hnone]
    apply iff_of_false
    · rintro ⟨u, ⟨⟩⟩
    · rintro ⟨hn | hsome, -⟩
      · omega
      · exact hsome hnone.2
  · have himported : n = 0 ∨ report.importedAccounts ≠ [] := by
      by_cases hn : n = 0
      · exact Or.inl hn
      · exact Or.inr fun hnil => hnone ⟨Nat.pos_of_ne_zero hn, hnil⟩
    rw [if_neg hnone, and_iff_right himported]
    cases allow with
    | true => simp
    | false =>
      by_cases hskipped : report.skippedAccounts = [] ∧ report.skippedTransparentKeys = []
      · simp [hskipped.1, hskipped.2]
      · have hsome := not_and_or.mp hskipped
        rw [if_pos ⟨hsome, rfl⟩]
        simp [hskipped]

theorem registerWatchPubkeys_isOk (h : ∀ step, run.fault step = none) (report : Report)
    (height i : ℕ) (account : Account) (s : Store) :
    ∃ u, (registerWatchPubkeys K run report height i account s).1 = .ok u := by
  rw [registerWatchPubkeys_eq]
  split
  · exact ⟨(), rfl⟩
  · rw [h, h]
    exact ⟨(), rfl⟩

/-- After the import, a run is done iff its report passes the check. -/
theorem Commits.finish_isOk {document : Document} {s s' : Store} {plan : Plan} {report : Report}
    (h : ∀ step, run.fault step = none) (hcommits : Commits K I run document s plan report s') :
    (∃ u, (finish K run plan report s').1 = .ok u) ↔
      Complete I run (enrichedDocument document plan.roots) := by
  obtain ⟨-, hdoc, -, hreport, -⟩ := hcommits.spec
  have hloop : ∃ u, (forEach (registerWatchPubkeys K run report plan.exposureHeight) 0
      plan.document.accounts s').1 = .ok u :=
    (forEach_isOk (P := fun _ => True) (fun i account s => iff_true_intro
      (registerWatchPubkeys_isOk h report plan.exposureHeight i account s)) _ 0 s').mpr
      fun _ _ => trivial
  have himported : report.importedAccounts = [] ↔ I.accepted plan.document = [] := by
    rw [hreport]
    simp [Importer.report, Importer.imported]
  have hcheck := checkImportReport_isOk report plan.document.accounts.length run.allowPartialImport
  obtain ⟨u, hu⟩ := hloop
  have hfinish : (∃ u, (finish K run plan report s').1 = .ok u) ↔
      ∃ u, checkImportReport report plan.document.accounts.length run.allowPartialImport = .ok u := by
    unfold finish
    rw [andThen_isOk]
    constructor
    · rintro ⟨-, -, hok⟩
      exact hok
    · intro hok
      exact ⟨u, hu, hok⟩
  rw [hfinish, hcheck, List.length_eq_zero_iff, Ne, himported, hreport, ← hdoc]
  rfl

/-- How a run in which no call fails ends: it is rejected, as the seed is known, or it is
    done, or something in the document stops it. -/
theorem migrate_faultless {document : Document} {s : Store}
    (hallow : run.allowMultipleWalletImports = true) (h : NothingFails K I run document s) :
    ((document.network = s.network ∧ KnownBefore K run.mint document s) ∧
        ∃ fp, migrate K I run document s = (.error (.DuplicateImport fp), s)) ∨
      ((¬ KnownBefore K run.mint document s ∧ Importable K I run document s) ∧
        ∃ plan report s' after, Commits K I run document s plan report s' ∧
          migrate K I run document s = finish K run plan report s' ∧
          migrate K I run document s = (.ok (), after)) ∨
      (¬ (document.network = s.network ∧ KnownBefore K run.mint document s) ∧
        ¬ (¬ KnownBefore K run.mint document s ∧ Importable K I run document s) ∧
        ∃ e after, migrate K I run document s = (.error e, after) ∧ ∀ fp, e ≠ .DuplicateImport fp) := by
  have hstopped : ∀ e, prepare K run document s = .error e →
      migrate K I run document s = (.error e, s) := by
    intro e he
    simp only [migrate, migrateWith, he]
  obtain ⟨hnetwork, hknown, fp, hprep⟩ | ⟨hnetwork, hunknown, plan, hprep⟩ | ⟨hbad, e, hprep, he⟩ :=
    prepare_cases hallow h
  · exact Or.inl ⟨⟨hnetwork, hknown⟩, fp, hstopped _ hprep⟩
  · right
    have hroots := (prepare_ok hprep).1
    have hsound := persistAndImport_isOk h hprep
    obtain ⟨hnone, hfailed, -, hdup⟩ | ⟨plan', report, s', hcommits, heq⟩ :=
      migrate_cases (K := K) (I := I) run document s
    · -- the keystore did not take the secrets
      right
      refine ⟨fun hknown => hunknown hknown.2, ?_, ?_⟩
      · rintro ⟨-, -, roots, hroots', hstores, -⟩
        obtain rfl := Except.ok.inj (hroots.symm.trans hroots')
        obtain ⟨report, hreport⟩ := hsound.mpr hstores
        exact hnone plan report _ ⟨hprep, Prod.ext hreport rfl⟩
      · generalize hr : migrate K I run document s = r at hfailed hdup
        obtain ⟨e | ⟨⟩, after⟩ := r
        · refine ⟨e, after, rfl, fun fp he => ?_⟩
          have hprep' := (hdup fp (congrArg _ he)).2
          cases hprep.symm.trans hprep'
        · exact absurd rfl hfailed
    · obtain rfl : plan = plan' := Except.ok.inj (hprep.symm.trans hcommits.prepared)
      have hcomplete := hcommits.finish_isOk h.faults
      rw [← heq] at hcomplete
      obtain ⟨r, after, hr, -, -, -, -, -, hnodup⟩ := migrate_committed hcommits heq
      rw [hr] at hcomplete
      cases r with
      | ok u =>
        have hstores := hsound.mp ⟨report, congrArg Prod.fst hcommits.imported⟩
        exact Or.inl ⟨⟨hunknown, hnetwork, plan.roots, hroots, hstores, hcomplete.mp ⟨u, rfl⟩⟩,
          plan, report, s', after, hcommits, heq, hr⟩
      | error e =>
        right
        refine ⟨fun hknown => hunknown hknown.2, ?_, e, after, hr, fun fp he => hnodup fp
          (congrArg _ he)⟩
        rintro ⟨-, -, roots, hroots', -, hall⟩
        obtain rfl := Except.ok.inj (hroots.symm.trans hroots')
        obtain ⟨u, hu⟩ := hcomplete.mpr hall
        cases hu
  · right
    right
    refine ⟨?_, ?_, e, s, hstopped e hprep, he⟩
    · rintro ⟨hnetwork, roots, fp, hroots, -⟩
      obtain hother | hunreadable := hbad
      · exact hother hnetwork
      · exact hunreadable roots hroots
    · rintro ⟨-, hnetwork, roots, hroots, -⟩
      obtain hother | hunreadable := hbad
      · exact hother hnetwork
      · exact hunreadable roots hroots

end Faultless

section Committed

variable {run₁ run₂ : Run} {document : Document} {s s₁ s' : Store} {plan : Plan} {report : Report}

/-- The first run left out no watch-only pubkey. -/
def WatchedAll (K : Codecs) (run : Run) (s : Store) (plan : Plan) (report : Report) : Prop :=
  ∀ p ∈ watchPairs K report plan.document.accounts,
    p ∈ s.db.watch ∨ p ∈ watchDone K run report 0 plan.document.accounts

theorem watchDone_subset (run : Run) (report : Report) (l : List Account) (i : ℕ) :
    ∀ p ∈ watchDone K run report i l, p ∈ watchPairs K report l := by
  induction l generalizing i with
  | nil => simp [watchDone]
  | cons account l ih =>
    intro p hp
    simp only [watchDone] at hp
    rw [watchPairs_cons, List.mem_append]
    split at hp
    · exact Or.inr (ih _ p hp)
    · split at hp
      · cases hp
      · split at hp
        · exact Or.inl hp
        · exact (List.mem_append.mp hp).imp_right (ih _ p)

/-- A run that does not fail after the import leaves no pubkey out. -/
theorem watchDone_eq {run : Run} (h : ∀ i, run.fault (.ImportPubkeys i) = none ∧
    run.fault (.MarkExposed i) = none) (report : Report) (l : List Account) (i : ℕ) :
    watchDone K run report i l = watchPairs K report l := by
  induction l generalizing i with
  | nil => rfl
  | cons account l ih =>
    simp only [watchDone, watchPairs_cons, (h i).1, (h i).2, ih]
    split
    · simp [*]
    · simp

/-- The first run registered everything iff it left no pubkey out. -/
theorem registeredAll_iff (hcommits : Commits K I run₁ document s plan report s')
    (heq : migrate K I run₁ document s = finish K run₁ plan report s')
    (hminted : plan.roots.mintedSeed = false) :
    RegisteredAll K I document s (migrate K I run₁ document s).2 ↔
      WatchedAll K run₁ s plan report := by
  obtain ⟨hroots, hdoc, -, hreport, haccounts, hkeys, -, hstored, -⟩ := hcommits.spec
  obtain ⟨r, after, heq', hacc, hk, hw, hks, -, -⟩ := migrate_committed hcommits heq
  rw [heq']
  constructor
  · rintro ⟨mint, roots, hroots', hreg⟩ p hp
    obtain ⟨-, rfl⟩ | ⟨hm, -⟩ := rootsOf_mint hroots hroots'
    · have hmem : p ∈ after.db.watch := by
        rw [hreg.watch, ← hdoc, ← hreport]
        exact Finset.mem_union_right _ (List.mem_toFinset.mpr hp)
      rw [hw] at hmem
      simpa using hmem
    · exact absurd (hminted.symm.trans hm) (by simp)
  · intro hall
    refine ⟨run₁.mint, plan.roots, hroots, ?_⟩
    rw [← hdoc]
    refine ⟨hacc.trans haccounts, hk.trans hkeys, ?_, hks ▸ hstored⟩
    rw [hw, ← hreport]
    ext p
    simp only [Finset.mem_union, List.mem_toFinset]
    constructor
    · exact Or.imp_right (watchDone_subset run₁ report _ 0 p)
    · rintro (hp | hp)
      · exact Or.inl hp
      · exact hall p hp

/-- A seed that a committed run did not mint is known afterwards iff it is
    recognised. -/
theorem mem_existingSeeds_iff (hcommits : Commits K I run₁ document s plan report s')
    (hs₁ : s₁.db.accounts = s'.db.accounts) {fp : SeedFingerprint}
    (hminted : plan.roots.mintedSeed = false)
    (hfp : plan.roots.mnemonicFp.bind K.decodeSeedFingerprint = some fp) :
    fp ∈ existingSeeds s₁.db ↔ Recognised K I document plan.roots := by
  obtain ⟨-, hdoc, hfresh, -, haccounts, -⟩ := hcommits.spec
  rw [existingSeeds_append (hs₁.trans haccounts), List.mem_append, hdoc]
  simp only [hfresh fp hfp, false_or, List.mem_filterMap, List.mem_map, exists_exists_and_eq_and]
  constructor
  · rintro ⟨account, hmem, hseed⟩
    exact ⟨hminted, fp, hfp, account, hmem, hseed⟩
  · rintro ⟨-, fp', hfp', account, hmem, hseed⟩
    cases hfp.symm.trans hfp'
    exact ⟨account, hmem, hseed⟩

/-- A second run that completed after a committed one has registered the document a
    second time. -/
theorem rerun_completed_iff (hcommits : Commits K I run₁ document s plan report s')
    (hs₁ : s₁.db.accounts = s'.db.accounts) (hkeys₁ : s₁.db.keys = s'.db.keys)
    (hwatch₁ : s₁.db.watch = s.db.watch ∪ (watchDone K run₁ report 0 plan.document.accounts).toFinset)
    {plan₂ : Plan} {report₂ : Report} {s₂ after : Store}
    (hcommits₂ : Commits K I run₂ document s₁ plan₂ report₂ s₂)
    (heq₂ : migrate K I run₂ document s₁ = finish K run₂ plan₂ report₂ s₂)
    (hok : migrate K I run₂ document s₁ = (.ok (), after)) :
    RegisteredAll K I document s after ↔ document.accounts = [] := by
  have hspec := hcommits.spec
  have hspec₂ := hcommits₂.spec
  have honce := hcommits₂.registeredOnce heq₂ hok
  obtain ⟨r, after', heq', -, -, -, -, hr, -⟩ := migrate_committed hcommits₂ heq₂
  cases hok.symm.trans heq'
  constructor
  · rintro ⟨mint, roots, hroots, hreg⟩
    apply (hr rfl).2
    -- the database has two sets of accounts, and every set has as many
    have hlen := congrArg List.length (hreg.accounts.symm.trans honce.accounts)
    rw [hs₁, hspec.2.2.2.2.1, hspec.2.1] at hlen
    have h₁ := accepted_length (I := I) document (mnemonicFp_isSome hroots hspec.1)
    have h₂ := accepted_length (I := I) document (mnemonicFp_isSome hspec₂.1 hspec.1)
    simp only [List.length_append, List.length_map] at hlen
    rw [hspec₂.2.1]
    exact List.eq_nil_of_length_eq_zero (by omega)
  · intro hnil
    have hacc : ∀ roots, I.accepted (enrichedDocument document roots) = [] := by
      simp [Importer.accepted, enrichedDocument, hnil]
    have hdocs : ∀ roots, (enrichedDocument document roots).accounts = [] := by
      simp [enrichedDocument, hnil]
    refine ⟨run₂.mint, plan₂.roots, hspec₂.1, ?_, ?_, ?_, honce.secrets⟩
    · rw [honce.accounts, hs₁, hspec.2.2.2.2.1, hspec.2.1, hacc, hacc]
      simp
    · rw [honce.keys, hkeys₁, hspec.2.2.2.2.2.1, hspec.2.1]
      simp [Importer.newKeys, hacc]
    · rw [honce.watch, hwatch₁, hspec.2.1, hdocs, hdocs]
      simp [watchPairs, watchDone]

end Committed

/-! ## The second run -/

section SecondRun

variable {run₂ : Run} {document : Document} {s : Store}

/-- A run leaves the network of the wallet and the accounts it has. -/
theorem migrate_keeps (run : Run) (document : Document) (s : Store) :
    (migrate K I run document s).2.network = s.network ∧
      ∀ fp ∈ existingSeeds s.db, fp ∈ existingSeeds (migrate K I run document s).2.db := by
  cases hprep : prepare K run document s with
  | error e =>
    have hmigrate : migrate K I run document s = (.error e, s) := by
      simp only [migrate, migrateWith, hprep]
    rw [hmigrate]
    exact ⟨rfl, fun fp hmem => hmem⟩
  | ok plan =>
    have hmigrate : migrate K I run document s =
        (persistAndImport K I run plan s).andThen fun report s => finish K run plan report s := by
      simp only [migrate, migrateWith, hprep]
      rfl
    rw [hmigrate]
    cases himport : persistAndImport K I run plan s with
    | mk r s' =>
      cases r with
      | error e =>
        obtain ⟨hnetwork, hdb, -⟩ := persistAndImport_error himport
        refine ⟨hnetwork, fun fp hmem => ?_⟩
        simp only [Outcome.andThen]
        rwa [hdb]
      | ok report =>
        obtain ⟨-, haccounts, -, -, -, hnetwork⟩ := persistAndImport_ok himport
        obtain ⟨r, exposed, hfinish, -⟩ := finish_spec (K := K) run plan report s'
        simp only [Outcome.andThen]
        rw [hfinish]
        refine ⟨hnetwork, fun fp hmem => ?_⟩
        have happend := existingSeeds_append haccounts
        exact happend ▸ List.mem_append_left _ hmem

/-- Before the first run, a seed that the second run would mint is not known. -/
theorem knownBefore_own
    (hfresh : ∀ fp, K.decodeSeedFingerprint (mnemonicEntry K run₂.mint).fingerprint = some fp →
      fp ∉ existingSeeds s.db) {roots : Roots} {fp : SeedFingerprint}
    (hroots : rootsOf K run₂.mint document = .ok roots)
    (hfp : roots.mnemonicFp.bind K.decodeSeedFingerprint = some fp) (hmem : fp ∈ existingSeeds s.db) :
    roots.mintedSeed = false := by
  obtain ⟨own, -, ⟨-, rfl⟩ | ⟨-, rfl⟩⟩ := rootsOf_eq_ok.mp hroots
  · exact absurd hmem (hfresh fp hfp)
  · rfl

/-- A first run does not import a document whose seed is known. -/
theorem knownBefore_stops (run₁ : Run)
    (hfresh : ∀ fp, K.decodeSeedFingerprint (mnemonicEntry K run₂.mint).fingerprint = some fp →
      fp ∉ existingSeeds s.db) (hknown : KnownBefore K run₂.mint document s) :
    ∃ e, prepare K run₁ document s = .error e := by
  obtain ⟨roots, fp, hroots, hfp, hmem⟩ := hknown
  have hown := knownBefore_own hfresh hroots hfp hmem
  cases hprep : prepare K run₁ document s with
  | error e => exact ⟨e, rfl⟩
  | ok plan =>
    obtain ⟨hroots₁, -, hcheck⟩ := prepare_ok hprep
    obtain ⟨-, hsame⟩ | ⟨hminted, -⟩ := rootsOf_mint hroots hroots₁
    · exact absurd hmem (checkDuplicate_ok hcheck (hsame ▸ hfp))
    · exact absurd (hown.symm.trans hminted) (by simp)

/-- A wallet that the run left as it was has everything of the document registered iff
    there was nothing new in it. -/
theorem registeredAll_self_iff {mint : String} {roots : Roots}
    (hroots : rootsOf K mint document = .ok roots) (hown : roots.mintedSeed = false) :
    RegisteredAll K I document s s ↔ NothingNew K I mint document s := by
  constructor
  · rintro ⟨mint', roots', hroots', hreg⟩
    obtain ⟨-, rfl⟩ | ⟨hminted, -⟩ := rootsOf_mint hroots hroots'
    · have hnil := List.self_eq_append_right.mp hreg.accounts
      exact ⟨roots', hroots, List.map_eq_nil_iff.mp hnil, hreg.secrets⟩
    · exact absurd (hown.symm.trans hminted) (by simp)
  · rintro ⟨roots', hroots', hnil, hstored⟩
    have hwatch : ∀ l n, watchPairs K (I.report (enrichedDocument document roots') n) l = [] := by
      intro l n
      apply List.flatMap_eq_nil_iff.mpr
      intro account _
      simp [watchOf, Report.accountsByName, Importer.report, Importer.imported, hnil]
    refine ⟨mint, roots', hroots', by simp [hnil], ?_, ?_, hstored⟩
    · simp [Importer.newKeys, hnil]
    · simp [hwatch]

theorem rootsOf_own {mint : String} (mint' : String) {roots : Roots}
    (hroots : rootsOf K mint document = .ok roots) (hown : roots.mintedSeed = false) :
    rootsOf K mint' document = .ok roots := by
  obtain ⟨own, howned, ⟨-, rfl⟩ | hnot⟩ := rootsOf_eq_ok.mp hroots
  · cases hown
  · exact rootsOf_eq_ok.mpr ⟨own, howned, Or.inr hnot⟩

/-- After the first run, the seed of the document is known if it was before, or the
    first run imported the document and it is recognised. -/
theorem knownBefore_after (run₁ : Run)
    (hfresh : ∀ fp, K.decodeSeedFingerprint (mnemonicEntry K run₂.mint).fingerprint = some fp →
      fp ∉ existingSeeds (migrate K I run₁ document s).2.db) :
    KnownBefore K run₂.mint document (migrate K I run₁ document s).2 ↔
      KnownBefore K run₂.mint document s ∨ ∃ plan report s',
        Commits K I run₁ document s plan report s' ∧ Recognised K I document plan.roots := by
  have hgrows := (migrate_keeps (K := K) (I := I) run₁ document s).2
  constructor
  · rintro ⟨roots, fp, hroots, hfp, hmem⟩
    obtain ⟨-, -, hdb, -⟩ | ⟨plan, report, s', hcommits, heq⟩ :=
      migrate_cases (K := K) (I := I) run₁ document s
    · exact Or.inl ⟨roots, fp, hroots, hfp, hdb ▸ hmem⟩
    · right
      obtain ⟨r, s₁, heq₁, hacc, -⟩ := migrate_committed hcommits heq
      rw [heq₁] at hfresh hmem
      obtain ⟨hown, rfl⟩ | ⟨-, -, hminted, -⟩ := rootsOf_mint hcommits.spec.1 hroots
      · exact ⟨plan, report, s', hcommits,
          (mem_existingSeeds_iff hcommits hacc hown hfp).mp hmem⟩
      · rw [hminted] at hfp
        exact absurd hmem (hfresh fp hfp)
  · rintro (⟨roots, fp, hroots, hfp, hmem⟩ | ⟨plan, report, s', hcommits, hrec⟩)
    · exact ⟨roots, fp, hroots, hfp, hgrows fp hmem⟩
    · obtain ⟨hown, fp, hfp, -⟩ := id hrec
      have hroots := rootsOf_own run₂.mint hcommits.spec.1 hown
      refine ⟨plan.roots, fp, hroots, hfp, ?_⟩
      obtain ⟨hnone, -⟩ | ⟨plan', report', s'', hcommits', heq⟩ :=
        migrate_cases (K := K) (I := I) run₁ document s
      · exact absurd hcommits (hnone plan report s')
      · obtain ⟨rfl, rfl, rfl⟩ := hcommits.unique hcommits'
        obtain ⟨r, s₁, heq₁, hacc, -⟩ := migrate_committed hcommits heq
        rw [heq₁]
        exact (mem_existingSeeds_iff hcommits hacc hown hfp).mpr hrec

theorem Recognised.accounts {roots : Roots} (h : Recognised K I document roots) :
    document.accounts ≠ [] := by
  intro hnil
  obtain ⟨-, -, -, account, haccount, -⟩ := h
  simp [Importer.accepted, enrichedDocument, hnil] at haccount

variable {s₁ after : Store}

theorem rerunSafe_rejected {fp : SeedFingerprint}
    (h : migrate K I run₂ document s₁ = (.error (.DuplicateImport fp), s₁)) :
    RerunSafe K I run₂ document s s₁ ↔ RegisteredAll K I document s s₁ := by
  unfold RerunSafe
  rw [h]
  exact and_iff_right rfl

theorem rerunSafe_completed (h : migrate K I run₂ document s₁ = (.ok (), after)) :
    RerunSafe K I run₂ document s s₁ ↔ RegisteredAll K I document s after := by
  unfold RerunSafe
  rw [h]

theorem not_rerunSafe_failed {e : MigrateError}
    (h : migrate K I run₂ document s₁ = (.error e, after)) (he : ∀ fp, e ≠ .DuplicateImport fp) :
    ¬ RerunSafe K I run₂ document s s₁ := by
  unfold RerunSafe
  rw [h]
  cases e with
  | DuplicateImport fp => exact absurd rfl (he fp)
  | _ => exact id

/-- A run that imported the document did not know its seed. -/
theorem Commits.not_known {run₁ : Run} {plan : Plan} {report : Report} {s' : Store}
    (hcommits : Commits K I run₁ document s plan report s')
    (hfresh : ∀ fp, K.decodeSeedFingerprint (mnemonicEntry K run₂.mint).fingerprint = some fp →
      fp ∉ existingSeeds s.db) : ¬ KnownBefore K run₂.mint document s := by
  intro hknown
  obtain ⟨e, he⟩ := knownBefore_stops run₁ hfresh hknown
  cases he.symm.trans hcommits.prepared

/-- A first run on a document whose seed is known leaves the wallet as it was. -/
theorem registeredAll_known_iff (run₁ : Run)
    (hfresh : ∀ fp, K.decodeSeedFingerprint (mnemonicEntry K run₂.mint).fingerprint = some fp →
      fp ∉ existingSeeds s.db) (hknown : KnownBefore K run₂.mint document s) :
    RegisteredAll K I document s (migrate K I run₁ document s).2 ↔
      NothingNew K I run₂.mint document s := by
  obtain ⟨e, he⟩ := knownBefore_stops run₁ hfresh hknown
  have hsame : migrate K I run₁ document s = (.error e, s) := by
    simp only [migrate, migrateWith, he]
  obtain ⟨roots, fp, hroots, hfp, hmem⟩ := hknown
  rw [hsame]
  exact registeredAll_self_iff hroots (knownBefore_own hfresh hroots hfp hmem)

/-- A second run that completes has registered the document once iff the first one
    imported no account of it. -/
theorem registeredAll_completed_iff {run₁ : Run} {plan₂ : Plan} {report₂ : Report} {s₂ : Store}
    (hcommits₂ : Commits K I run₂ document (migrate K I run₁ document s).2 plan₂ report₂ s₂)
    (heq₂ : migrate K I run₂ document (migrate K I run₁ document s).2 =
      finish K run₂ plan₂ report₂ s₂)
    (hend : migrate K I run₂ document (migrate K I run₁ document s).2 = (.ok (), after)) :
    RegisteredAll K I document s after ↔ ∀ plan report s',
      Commits K I run₁ document s plan report s' → document.accounts = [] := by
  obtain ⟨hnone, -, hdb, -⟩ | ⟨plan, report, s', hcommits, heq⟩ :=
    migrate_cases (K := K) (I := I) run₁ document s
  · apply iff_of_true
    · exact ⟨run₂.mint, plan₂.roots, hcommits₂.spec.1,
        (hcommits₂.registeredOnce heq₂ hend).of_db hdb⟩
    · intro plan report s' hcommits
      exact absurd hcommits (hnone plan report s')
  · obtain ⟨r, s₁, heq₁, hacc, hk, hw, -⟩ := migrate_committed hcommits heq
    rw [heq₁] at hcommits₂ heq₂ hend
    rw [rerun_completed_iff hcommits hacc hk hw hcommits₂ heq₂ hend]
    constructor
    · intro hnil _ _ _ _
      exact hnil
    · intro hall
      exact hall plan report s' hcommits

end SecondRun

/-- After a first run with any outcome, a second run that allows multiple imports and in
    which no call fails completes or is rejected, with everything registered once, iff
    the seed of the document was known before and there was nothing new in it, or the
    first run imported it, so that it is recognised by its seed, and left out no
    watch-only pubkey, or the seed is not known, the document can be imported and the
    first run did not import an account of it. -/
theorem rerun_safe_iff (K : Codecs) (I : Importer) (run₁ run₂ : Run) (document : Document) (s : Store)
    (hallow : run₂.allowMultipleWalletImports = true)
    (hfails : NothingFails K I run₂ document (migrate K I run₁ document s).2)
    (hfresh : ∀ fp, K.decodeSeedFingerprint (mnemonicEntry K run₂.mint).fingerprint = some fp →
      fp ∉ existingSeeds (migrate K I run₁ document s).2.db) :
    RerunSafe K I run₂ document s (migrate K I run₁ document s).2 ↔
      (document.network = s.network ∧ KnownBefore K run₂.mint document s ∧
        NothingNew K I run₂.mint document s) ∨
      (∃ plan report s', Commits K I run₁ document s plan report s' ∧
        Recognised K I document plan.roots ∧ WatchedAll K run₁ s plan report) ∨
      (¬ KnownBefore K run₂.mint document s ∧ Importable K I run₂ document s ∧
        ∀ plan report s', Commits K I run₁ document s plan report s' → document.accounts = []) := by
  obtain ⟨hnetwork₁, hgrows⟩ := migrate_keeps (K := K) (I := I) run₁ document s
  have hfresh₀ : ∀ fp, K.decodeSeedFingerprint (mnemonicEntry K run₂.mint).fingerprint = some fp →
      fp ∉ existingSeeds s.db := fun fp hfp hmem => hfresh fp hfp (hgrows fp hmem)
  have himports : Importable K I run₂ document (migrate K I run₁ document s).2 ↔
      Importable K I run₂ document s := by
    unfold Importable
    rw [hnetwork₁]
  have hafter := knownBefore_after run₁ hfresh
  obtain ⟨⟨hnetwork, hknown₁⟩, fp, hend⟩ | ⟨⟨hunknown₁, himportable⟩, plan₂, report₂, s₂, after,
      hcommits₂, heq₂, hend⟩ | ⟨hnot, hnot', e, after, hend, he⟩ := migrate_faultless hallow hfails
  · -- rejected: a known document is not imported, and a recognised one has an account
    rw [rerunSafe_rejected hend]
    rw [hnetwork₁] at hnetwork
    obtain hknown | ⟨plan, report, s', hcommits, hrec⟩ := hafter.mp hknown₁
    · rw [registeredAll_known_iff run₁ hfresh₀ hknown]
      constructor
      · intro hnew
        exact Or.inl ⟨hnetwork, hknown, hnew⟩
      · rintro (⟨-, -, hnew⟩ | ⟨plan, report, s', hcommits, -⟩ | ⟨hunknown, -⟩)
        · exact hnew
        · exact absurd hknown (hcommits.not_known hfresh₀)
        · exact absurd hknown hunknown
    · have heq : migrate K I run₁ document s = finish K run₁ plan report s' := by
        simp only [migrate, migrateWith, hcommits.prepared]
        exact congrArg (Outcome.andThen · _) hcommits.imported
      rw [registeredAll_iff hcommits heq hrec.1]
      constructor
      · intro hall
        exact Or.inr (Or.inl ⟨plan, report, s', hcommits, hrec, hall⟩)
      · rintro (⟨-, hknown, -⟩ | ⟨plan', report', s'', hcommits', -, hall⟩ | ⟨-, -, hnil⟩)
        · exact absurd hknown (hcommits.not_known hfresh₀)
        · obtain ⟨rfl, rfl, rfl⟩ := hcommits.unique hcommits'
          exact hall
        · exact absurd (hnil plan report s' hcommits) hrec.accounts
  · -- completed
    have hunknown : ¬ KnownBefore K run₂.mint document s := fun h => hunknown₁ (hafter.mpr (Or.inl h))
    rw [rerunSafe_completed hend, registeredAll_completed_iff hcommits₂ heq₂ hend]
    constructor
    · intro hall
      exact Or.inr (Or.inr ⟨hunknown, himports.mp himportable, hall⟩)
    · rintro (⟨-, hknown, -⟩ | ⟨plan, report, s', hcommits, hrec, -⟩ | ⟨-, -, hall⟩)
      · exact absurd hknown hunknown
      · exact absurd (hafter.mpr (Or.inr ⟨plan, report, s', hcommits, hrec⟩)) hunknown₁
      · exact hall
  · -- stopped
    apply iff_of_false (not_rerunSafe_failed hend he)
    rw [hnetwork₁] at hnot
    rintro (⟨hnetwork, hknown, -⟩ | ⟨plan, report, s', hcommits, hrec, -⟩ |
      ⟨hunknown, himportable, hall⟩)
    · exact hnot ⟨hnetwork, hafter.mpr (Or.inl hknown)⟩
    · exact hnot ⟨prepare_network hcommits.prepared, hafter.mpr (Or.inr ⟨plan, report, s', hcommits, hrec⟩)⟩
    · refine hnot' ⟨fun hknown => ?_, himports.mpr himportable⟩
      obtain hknown | ⟨plan, report, s', hcommits, hrec⟩ := hafter.mp hknown
      · exact hunknown hknown
      · exact hrec.accounts (hall plan report s' hcommits)

/-! ## Two wallets -/

def bytesOf (text : String) : List UInt8 := text.toList.map fun c => c.toNat.toUInt8

/-- Codecs for phrases and compressed pubkeys. -/
def plainCodecs : Codecs where
  encodeSeedFingerprint fp := String.ofList (fp.bytes.map fun b => Char.ofNat b.toNat)
  decodeSeedFingerprint text := some ⟨bytesOf text⟩
  deriveMnemonic _ := none
  fromPhrase _ := .ok ()
  phraseFingerprint phrase := ⟨bytesOf phrase⟩
  legacyFingerprint _ := none
  decodeTransparentKey _ := none
  decodeSaplingKey _ := .error "not a Sapling key"
  encodeFvk _ := ""
  dfvk extsk := ⟨extsk.bytes⟩
  parsePublicKey bytes := some ⟨bytes⟩
  fromPubkey pk := .PublicKeyHash (BitVec.ofNat 160 (pk.bytes.foldl (fun n b => 256 * n + b.toNat) 0))

/-- An importer that needs a seed for every account. -/
def seedImporter : Importer where
  skip _ derived := if derived then none else some .TransparentAddressSetWithoutSeed
  keysOf _ _ := []
  skippedKeys _ := []
  refuses _ _ := none

def emptyStore : Store := ⟨.Main, ⟨[], ∅, ∅, []⟩, ⟨∅, ∅, ∅, ∅⟩⟩

/-- A run in which nothing fails, with the seed it would mint. -/
def smoothRun (mint : String) : Run := ⟨true, false, mint, .ok 419200, fun _ => none⟩

theorem smoothRun_nothingFails (mint : String) (document : Document) (s : Store) :
    NothingFails plainCodecs seedImporter (smoothRun mint) document s :=
  ⟨fun _ => rfl, ⟨419200, rfl⟩, fun _ _ => rfl⟩

/-- A wallet from before HD seeds. -/
def seedlessWallet : Document :=
  ⟨.Main, [⟨"Legacy", ⟨"transparent"⟩, some .Imported, some zcashdLegacySource, []⟩], none⟩

/-- The second run on a wallet without a seed mints another seed and imports the
    wallet again. -/
theorem seedless_imported_twice :
    let first := migrate plainCodecs seedImporter (smoothRun "seed 1") seedlessWallet emptyStore
    let second := migrate plainCodecs seedImporter (smoothRun "seed 2") seedlessWallet first.2
    first.1 = .ok () ∧
      NothingFails plainCodecs seedImporter (smoothRun "seed 2") seedlessWallet first.2 ∧
      second.1 = .ok () ∧ second.2.db.accounts.length = 2 ∧
      ¬ RerunSafe plainCodecs seedImporter (smoothRun "seed 2") seedlessWallet emptyStore first.2 := by
  intro first second
  have hfirst : first.1 = .ok () := by decide +kernel
  have hsecond : second.1 = .ok () := by decide +kernel
  have htwo : second.2.db.accounts.length = 2 := by decide +kernel
  refine ⟨hfirst, smoothRun_nothingFails _ _ _, hsecond, htwo, fun hsafe => ?_⟩
  have heq : migrate plainCodecs seedImporter (smoothRun "seed 2") seedlessWallet first.2 =
      (.ok (), second.2) := Prod.ext hsecond rfl
  unfold RerunSafe at hsafe
  rw [heq] at hsafe
  obtain ⟨mint, roots, -, hreg⟩ := hsafe
  have hlen : (seedImporter.accepted (enrichedDocument seedlessWallet roots)).length ≤ 1 :=
    List.length_filter_le _ _
  have haccounts := congrArg List.length hreg.accounts
  simp only [List.length_append, List.length_map] at haccounts
  have hempty : emptyStore.db.accounts.length = 0 := rfl
  omega

/-- A wallet with a mnemonic and a watch-only pubkey. -/
def mnemonicWallet : Document :=
  ⟨.Main, [⟨"Main", ⟨"unified"⟩, some (.Derived "seed" 0 none), some zcashdMnemonicSource,
      [.Transparent false (some (List.replicate 33 2))]⟩],
    some (.Plain ⟨[⟨"seed", .Bip39Mnemonic "seed" (some .English)⟩], [], []⟩)⟩

/-- The second run on a wallet with a mnemonic is rejected, and everything was
    registered. -/
theorem rerun_safe_mnemonic :
    let first := migrate plainCodecs seedImporter (smoothRun "seed 1") mnemonicWallet emptyStore
    RerunSafe plainCodecs seedImporter (smoothRun "seed 2") mnemonicWallet emptyStore first.2 := by
  intro first
  have hfresh : ∀ fp, plainCodecs.decodeSeedFingerprint
      (mnemonicEntry plainCodecs (smoothRun "seed 2").mint).fingerprint = some fp →
      fp ∉ existingSeeds first.2.db := by
    intro fp hfp
    cases hfp
    decide +kernel
  obtain ⟨-, hfailed, -⟩ | ⟨plan, report, s', hcommits, -⟩ :=
    migrate_cases (K := plainCodecs) (I := seedImporter) (smoothRun "seed 1") mnemonicWallet emptyStore
  · exact absurd (by decide +kernel) hfailed
  refine (rerun_safe_iff plainCodecs seedImporter (smoothRun "seed 1") (smoothRun "seed 2")
    mnemonicWallet emptyStore rfl (smoothRun_nothingFails _ _ _) hfresh).mpr
    (Or.inr (Or.inl ⟨plan, report, s', hcommits, ?_, ?_⟩))
  · have hroots : rootsOf plainCodecs "seed 1" mnemonicWallet =
        .ok ⟨some ⟨[⟨"seed", .Bip39Mnemonic "seed" (some .English)⟩], [], []⟩, some "seed",
          false⟩ := by
      decide +kernel
    rw [← Except.ok.inj (hroots.symm.trans hcommits.spec.1)]
    exact ⟨rfl, ⟨bytesOf "seed"⟩, rfl, _, List.mem_cons_self .., by decide +kernel⟩
  · intro p hp
    rw [watchDone_eq (fun _ => ⟨rfl, rfl⟩)]
    exact Or.inr hp

end Zallet.Migrate
