import Zallet.Migrate.Rerun

/-!
# The provisional seed of a migration

`remove_provisional_mnemonic` and `seed_is_referenced`
(`migrate_zcashd_wallet.rs`, lines 705–772), called when the secrets fail or the
wallet's import does (lines 545–559): a seed that the run minted is taken back,
unless an account derives from it.

The import is any function on the wallet database, so it may have added any of
the accounts before it fails; it has no access to the keystore, since its sink
discards every secret. A call of the keystore fails as `Run.fault` says, at any
of the seeds and keys.

* `migrate_rolls_back`: after a failure the minted mnemonic is gone unless an
  account derives from it or taking it back failed, and no other mnemonic, and
  none that an account derives from, is ever deleted.
-/

namespace Zallet.Migrate

open Zallet.Rpc (SeedFingerprint)

variable {K : Codecs}

/-! ## The import -/

/-- An import as a step on the store. -/
def Store.onDb (importInto : Document → Db → Except MigrateError Report × Db) (document : Document)
    (s : Store) : Outcome Report :=
  ((importInto document s.db).1, { s with db := (importInto document s.db).2 })

/-- `import_wallet` on the database alone. -/
def importDb (K : Codecs) (I : Importer) (document : Document) (db : Db) :
    Except MigrateError Report × Db :=
  match I.refuses db document with
  | some text => (.error (.Import text), db)
  | none =>
    (.ok ⟨I.imported document db.accounts.length, I.skipped document, I.skippedKeys document⟩,
      { db with
        accounts := db.accounts ++ (I.accepted document).map (walletAccount K)
        keys := db.keys ∪ (I.newKeys document db.accounts.length).toFinset })

/-- The import that the other runs of the command go through is one of them. -/
theorem onDb_importDb (I : Importer) : Store.onDb (importDb K I) = importWallet K I := by
  funext document s
  unfold Store.onDb importDb importWallet
  cases I.refuses s.db document <;> rfl

/-- The step that may fail, before the rollback. -/
def attempt (K : Codecs) (importDocument : Document → Store → Outcome Report) (run : Run)
    (plan : Plan) (s : Store) : Outcome Report :=
  (persist K run plan.document s).andThen fun _ s => importDocument plan.document s

/-! ## The rollback -/

/-- An account of the wallet database derives from a seed. -/
def Db.DerivesFrom (db : Db) (fp : SeedFingerprint) : Prop :=
  ∃ account ∈ db.accounts, ∃ derivation keySource,
    account.source = .Derived derivation keySource ∧ derivation.seedFingerprint = fp

theorem seedIsReferenced_iff {db : Db} {fp : SeedFingerprint} :
    seedIsReferenced db fp = true ↔ db.DerivesFrom fp := by
  unfold seedIsReferenced
  rw [List.any_eq_true]
  refine exists_congr fun account => and_congr_right fun _ => ?_
  cases account.source with
  | Derived derivation keySource => simp
  | Imported keySource => simp

/-- What the rollback leaves of the mnemonics. -/
inductive Removal (run : Run) (fp : SeedFingerprint) (s s' : Store) : Prop
  | removed (h : s'.keystore.mnemonics = s.keystore.mnemonics.erase fp)
      (hfree : ¬ s.db.DerivesFrom fp)
  | referenced (h : s'.keystore.mnemonics = s.keystore.mnemonics) (hderives : s.db.DerivesFrom fp)
  | failed (h : s'.keystore.mnemonics = s.keystore.mnemonics)
      (hfault : run.fault .SeedIsReferenced ≠ none ∨ run.fault .DeleteMnemonic ≠ none)

theorem removal_of_decoded {run : Run} {encoded : String} {fp : SeedFingerprint} (s : Store)
    (hdecode : K.decodeSeedFingerprint encoded = some fp) :
    Removal run fp s (removeProvisionalMnemonic K run encoded s) := by
  unfold removeProvisionalMnemonic
  rw [hdecode]
  by_cases hfault : run.fault .SeedIsReferenced ≠ none ∨ run.fault .DeleteMnemonic ≠ none
  · exact .failed (by simp only [if_pos hfault]) hfault
  · by_cases href : s.db.DerivesFrom fp
    · refine .referenced ?_ href
      simp only [if_neg hfault, if_pos (seedIsReferenced_iff.mpr href)]
    · refine .removed ?_ href
      have hnot := fun h => href (seedIsReferenced_iff.mp h)
      simp only [if_neg hfault, if_neg hnot]

/-! ## The command -/

theorem minted_of_prepare {run : Run} {document : Document} {s : Store} {plan : Plan}
    (h : prepare K run document s = .ok plan) (hminted : plan.roots.mintedSeed = true) :
    plan.roots.mnemonicFp = some (K.encodeSeedFingerprint (K.phraseFingerprint run.mint)) := by
  obtain ⟨own, -, ⟨-, hroots⟩ | ⟨-, hroots⟩⟩ := rootsOf_eq_ok.mp (prepare_ok h).1
  · rw [hroots]
    rfl
  · rw [hroots] at hminted
    cases hminted

/-- The seeds that the step stored are still there before the rollback. -/
theorem attempt_grows {importInto : Document → Db → Except MigrateError Report × Db} {run : Run}
    {plan : Plan} (s : Store) :
    s.keystore.mnemonics ⊆ (attempt K (Store.onDb importInto) run plan s).2.keystore.mnemonics := by
  have hsinks := persist_sinks (K := K) run plan.document s
  unfold attempt
  generalize persist K run plan.document s = r at hsinks
  obtain ⟨e | ⟨⟩, s₁⟩ := r
  · exact hsinks.grows.mnemonics
  · exact hsinks.grows.mnemonics

theorem finish_keystore (run : Run) (plan : Plan) (report : Report) (s : Store) :
    (finish K run plan report s).2.keystore = s.keystore := by
  obtain ⟨r, exposed, heq, -⟩ := finish_spec (K := K) run plan report s
  rw [heq]

/-- A failed step goes back with the rollback if the run minted a seed. -/
theorem persistAndImportWith_error {importDocument : Document → Store → Outcome Report} {run : Run}
    {plan : Plan} {s s₁ : Store} {e : MigrateError}
    (h : attempt K importDocument run plan s = (.error e, s₁)) :
    persistAndImportWith K importDocument run plan s = (.error e,
      match plan.roots.mintedSeed, plan.roots.mnemonicFp with
      | true, some fp => removeProvisionalMnemonic K run fp s₁
      | _, _ => s₁) := by
  unfold attempt at h
  unfold persistAndImportWith
  rw [h]
  cases plan.roots.mintedSeed <;> cases plan.roots.mnemonicFp <;> rfl

/-- The end of a run whose step failed: what the rollback leaves if the run minted
    a seed, and the step's own store if it did not. -/
theorem migrateWith_error {importDocument : Document → Store → Outcome Report} {run : Run}
    {document : Document} {plan : Plan} {s s₁ : Store} {e : MigrateError}
    (hencode : ∀ fp, K.decodeSeedFingerprint (K.encodeSeedFingerprint fp) = some fp)
    (hprepared : prepare K run document s = .ok plan)
    (h : attempt K importDocument run plan s = (.error e, s₁)) :
    ∃ s', migrateWith K importDocument run document s = (.error e, s') ∧ s'.db = s₁.db ∧
      (plan.roots.mintedSeed = false ∧ s' = s₁ ∨
        plan.roots.mintedSeed = true ∧ Removal run (K.phraseFingerprint run.mint) s₁ s') := by
  have hrun : migrateWith K importDocument run document s =
      (persistAndImportWith K importDocument run plan s).andThen fun report s =>
        finish K run plan report s := by
    rw [migrateWith, hprepared]
  rw [hrun, persistAndImportWith_error h]
  cases hminted : plan.roots.mintedSeed with
  | false => exact ⟨s₁, rfl, rfl, Or.inl ⟨rfl, rfl⟩⟩
  | true =>
    rw [minted_of_prepare hprepared hminted]
    exact ⟨_, rfl, (removeProvisionalMnemonic_keeps run _ s₁).2,
      Or.inr ⟨rfl, removal_of_decoded s₁ (hencode _)⟩⟩

/-- A run whose step succeeded keeps every seed. -/
theorem migrateWith_keystore {importDocument : Document → Store → Outcome Report} {run : Run}
    {document : Document} {plan : Plan} {s s₁ : Store} {report : Report}
    (hprepared : prepare K run document s = .ok plan)
    (h : attempt K importDocument run plan s = (.ok report, s₁)) :
    (migrateWith K importDocument run document s).2.keystore = s₁.keystore := by
  have hstep : persistAndImportWith K importDocument run plan s = (.ok report, s₁) := by
    unfold attempt at h
    rw [persistAndImportWith, h]
  rw [migrateWith, hprepared]
  simp only [hstep, Outcome.andThen]
  exact finish_keystore run plan report s₁

/-- **The provisional seed.** When the secrets or the import fail, at any call and
    with any accounts already in the database, the command returns the error and
    a minted mnemonic is not in the keystore, unless an account derives from it or
    the check or the deletion failed. A mnemonic that was there before, or that
    the run stored, is only ever deleted if it is the minted one and no account
    derives from it. -/
theorem migrate_rolls_back (K : Codecs)
    (hencode : ∀ fp, K.decodeSeedFingerprint (K.encodeSeedFingerprint fp) = some fp)
    (importInto : Document → Db → Except MigrateError Report × Db) (run : Run)
    (document : Document) (s : Store) :
    (∀ plan e s₁, prepare K run document s = .ok plan →
      attempt K (Store.onDb importInto) run plan s = (.error e, s₁) →
      (migrateWith K (Store.onDb importInto) run document s).1 = .error e ∧
      (migrateWith K (Store.onDb importInto) run document s).2.db = s₁.db ∧
      (plan.roots.mintedSeed = true →
        K.phraseFingerprint run.mint ∈
          (migrateWith K (Store.onDb importInto) run document s).2.keystore.mnemonics →
        s₁.db.DerivesFrom (K.phraseFingerprint run.mint) ∨
          run.fault .SeedIsReferenced ≠ none ∨ run.fault .DeleteMnemonic ≠ none)) ∧
    ∀ fp, (fp ∈ s.keystore.mnemonics ∨ ∃ plan, prepare K run document s = .ok plan ∧
        fp ∈ (attempt K (Store.onDb importInto) run plan s).2.keystore.mnemonics) →
      fp ∉ (migrateWith K (Store.onDb importInto) run document s).2.keystore.mnemonics →
      ∃ plan e s₁, prepare K run document s = .ok plan ∧ plan.roots.mintedSeed = true ∧
        attempt K (Store.onDb importInto) run plan s = (.error e, s₁) ∧
        fp = K.phraseFingerprint run.mint ∧ ¬ s₁.db.DerivesFrom fp := by
  constructor
  · intro plan e s₁ hprepared hfailed
    obtain ⟨s', hrun, hdb, hcase⟩ := migrateWith_error hencode hprepared hfailed
    rw [hrun]
    refine ⟨rfl, hdb, fun hminted hmem => ?_⟩
    obtain ⟨hnot, -⟩ | ⟨-, hremoval⟩ := hcase
    · rw [hnot] at hminted
      cases hminted
    · cases hremoval with
      | removed h _ =>
        rw [h] at hmem
        exact absurd hmem (Finset.notMem_erase _ _)
      | referenced _ hderives => exact Or.inl hderives
      | failed _ hfault => exact Or.inr hfault
  · intro fp hbefore hafter
    cases hprepared : prepare K run document s with
    | error e =>
      have hstopped : migrateWith K (Store.onDb importInto) run document s = (.error e, s) := by
        rw [migrateWith, hprepared]
      rw [hstopped] at hafter
      obtain hmem | ⟨plan, hplan, -⟩ := hbefore
      · exact absurd hmem hafter
      · cases hprepared.symm.trans hplan
    | ok plan =>
      have hstored : fp ∈ (attempt K (Store.onDb importInto) run plan s).2.keystore.mnemonics := by
        obtain hmem | ⟨plan', hplan, hmem⟩ := hbefore
        · exact attempt_grows s hmem
        · cases hprepared.symm.trans hplan
          exact hmem
      cases hattempt : attempt K (Store.onDb importInto) run plan s with
      | mk r s₁ =>
        rw [hattempt] at hstored
        cases r with
        | ok report =>
          rw [migrateWith_keystore hprepared hattempt] at hafter
          exact absurd hstored hafter
        | error e =>
          obtain ⟨s', hrun, -, hcase⟩ := migrateWith_error hencode hprepared hattempt
          rw [hrun] at hafter
          obtain ⟨-, rfl⟩ | ⟨hminted, hremoval⟩ := hcase
          · exact absurd hstored hafter
          · cases hremoval with
            | removed h hfree =>
              rw [h, Finset.mem_erase, not_and] at hafter
              have hfp : fp = K.phraseFingerprint run.mint := by
                by_contra hne
                exact hafter hne hstored
              exact ⟨plan, e, s₁, rfl, hminted, hattempt, hfp, hfp ▸ hfree⟩
            | referenced h _ => exact absurd (h ▸ hstored) hafter
            | failed h _ => exact absurd (h ▸ hstored) hafter

/-! ## An import that stops after an account -/

theorem plainCodecs_encode (fp : SeedFingerprint) :
    plainCodecs.decodeSeedFingerprint (plainCodecs.encodeSeedFingerprint fp) = some fp := by
  have hbyte : ∀ b : UInt8, (Char.ofNat b.toNat).toNat.toUInt8 = b := by
    intro b
    have hb := b.toNat_lt
    rw [Char.toNat_ofNat, if_pos (Or.inl (by omega))]
    exact UInt8.ofNat_toNat
  have hbytes : fp.bytes.map ((fun c => c.toNat.toUInt8) ∘ fun b => Char.ofNat b.toNat) = fp.bytes :=
    (List.map_congr_left (g := id) fun b _ => hbyte b).trans (List.map_id _)
  simp only [plainCodecs, bytesOf, String.toList_ofList, List.map_map, hbytes]

/-- An import that fails after its first account. -/
def stoppedImport (_ : Document) (db : Db) : Except MigrateError Report × Db :=
  (.error (.Import "disk full"), { db with accounts := db.accounts ++ [⟨"Legacy", .Imported none⟩] })

/-- The seed minted for a wallet without one does not stay behind. -/
theorem migrate_rolls_back_seedless :
    plainCodecs.phraseFingerprint "seed 1" ∉
      (migrateWith plainCodecs (Store.onDb stoppedImport) (smoothRun "seed 1") seedlessWallet
        emptyStore).2.keystore.mnemonics := by
  intro hmem
  have hprepared : ∃ plan, prepare plainCodecs (smoothRun "seed 1") seedlessWallet emptyStore =
      .ok plan ∧ plan.roots.mintedSeed = true ∧ ∃ s₁,
        attempt plainCodecs (Store.onDb stoppedImport) (smoothRun "seed 1") plan emptyStore =
          (.error (.Import "disk full"), s₁) ∧ s₁.db.accounts = [⟨"Legacy", .Imported none⟩] :=
    ⟨_, rfl, rfl, _, rfl, rfl⟩
  obtain ⟨plan, hplan, hminted, s₁, hattempt, haccounts⟩ := hprepared
  have h := (migrate_rolls_back plainCodecs plainCodecs_encode stoppedImport (smoothRun "seed 1")
    seedlessWallet emptyStore).1 plan _ s₁ hplan hattempt
  obtain ⟨account, hmem, derivation, keySource, hsource, -⟩ | hfault | hfault := h.2.2 hminted hmem
  · rw [haccounts, List.mem_singleton] at hmem
    rw [hmem] at hsource
    cases hsource
  · exact hfault rfl
  · exact hfault rfl

end Zallet.Migrate
