import Mathlib

/-!
# Opening the wallet database

`Database::open` (`zallet-core/src/components/database.rs`, lines 66–200) with its
checks (lines 210–272) and the migration that creates Zallet's own tables
(`ext/migrations/initial_setup.rs`, lines 32–54).

`openFile` lists the states that the file goes through, one for each commit: these
are the states in which a process that stops during `open` may leave it.

* `open_restartable_iff`: an open of such a state ends as the uninterrupted one did
  unless the state is a non-empty file without a version row (`HalfCreated`), which
  the checks take for a database of an old version. A rejected open changes nothing.
* `stopped_creation_rejected`: stopping after the first migration is enough.

`Migrator` is the list of all migrations in dependency order with their effect on the
tables of other crates; each is applied in a transaction of its own. Versions are
compared in an order that is a parameter.
-/

namespace Zallet.Database

inductive NetworkType
  | Main
  | Test
  | Regtest
  deriving DecidableEq

abbrev MigrationId := BitVec 128

/-- A row of `ext_zallet_db_version_metadata`. -/
structure VersionRow where
  version : String
  gitRevision : Option String
  clean : Option Bool
  migrated : ℕ
  deriving DecidableEq

/-- A row without its time. -/
def VersionRow.tuple (row : VersionRow) : String × Option String × Option Bool :=
  (row.version, row.gitRevision, row.clean)

/-- A database: the migrations that were applied, the content of the tables of other
    crates, and Zallet's two tables, if they exist. `walletMetadata` has its one row. -/
structure Db (C : Type) where
  applied : List MigrationId
  content : C
  walletMetadata : Option NetworkType
  versionMetadata : Option (List VersionRow)
  deriving DecidableEq

inductive File (C : Type)
  | missing
  | empty
  | database (db : Db C)
  deriving DecidableEq

/-- The version of the running binary. -/
structure Build (V : Type) [LE V] where
  version : String
  gitRevision : Option String
  clean : Option Bool
  /-- `Version::parse`. -/
  parse : String → Except String V
  /-- `MIN_COMPATIBLE_ZALLET_VERSION`. -/
  minimumVersion : V
  own_compatible : ∃ v, parse version = .ok v ∧ minimumVersion ≤ v

structure Migrator (C : Type) where
  order : List MigrationId
  up : MigrationId → C → Except String C
  /-- The content of a new database. -/
  new : C

/-- The migration of initial_setup.rs. -/
def initialSetup : MigrationId := 0xa2b3f7edb2ec4b92a3903f9bed3f0324#128

inductive InitError
  | IncompatibleAlpha
  | InvalidZalletVersion (version err : String)
  | NoWalletMetadata
  | DbMismatch (dbNetworkType configNetworkType : NetworkType)
  | Migration (text : String)
  | NoVersionMetadata
  deriving DecidableEq

/-- The error of the version or the network check. -/
def InitError.isCheck : InitError → Bool
  | Migration _ => false
  | NoVersionMetadata => false
  | _ => true

section Open

variable {V C : Type} [LinearOrder V] (B : Build V) (M : Migrator C) (network : NetworkType)

/-- `latest_recorded_zallet_version` (lines 261–272). -/
def latestRecordedZalletVersion (db : Db C) : Except InitError String :=
  match db.versionMetadata with
  | none => .error .IncompatibleAlpha
  | some rows =>
    match rows.getLast? with
    | none => .error .IncompatibleAlpha
    | some row => .ok row.version

/-- `verify_alpha_db_compatibility` (lines 246–258). -/
def verifyAlphaDbCompatibility (db : Db C) : Except InitError Unit :=
  match latestRecordedZalletVersion db with
  | .error e => .error e
  | .ok latestVersion =>
    match B.parse latestVersion with
    | .error e => .error (.InvalidZalletVersion latestVersion e)
    | .ok v => if B.minimumVersion ≤ v then .ok () else .error .IncompatibleAlpha

/-- `verify_wallet_network_type` (lines 219–244). -/
def verifyWalletNetworkType (db : Db C) : Except InitError Unit :=
  match db.walletMetadata with
  | none => .error .NoWalletMetadata
  | some walletNetworkType =>
    if walletNetworkType = network then .ok ()
    else .error (.DbMismatch walletNetworkType network)

/-- `verify_existing_database` (lines 210–217). -/
def verifyExistingDatabase (db : Db C) : Except InitError Unit :=
  match verifyAlphaDbCompatibility B db with
  | .error e => .error e
  | .ok _ => verifyWalletNetworkType network db

/-- The transaction of one migration. `CREATE TABLE` fails if the table exists. -/
def applyMigration (id : MigrationId) (db : Db C) : Except InitError (Db C) :=
  if id = initialSetup then
    if db.walletMetadata = none ∧ db.versionMetadata = none then
      .ok { db with
        applied := db.applied ++ [id], walletMetadata := some network, versionMetadata := some [] }
    else .error (.Migration "table already exists")
  else
    match M.up id db.content with
    | .error e => .error (.Migration e)
    | .ok content => .ok { db with applied := db.applied ++ [id], content := content }

/-- `init_or_migrate`: the databases after each commit, and the last one. -/
def applyMigrations : List MigrationId → Db C → List (Db C) × Except InitError (Db C)
  | [], db => ([], .ok db)
  | id :: rest, db =>
    if id ∈ db.applied then applyMigrations rest db
    else
      match applyMigration M network id db with
      | .error e => ([], .error e)
      | .ok db' => (db' :: (applyMigrations rest db').1, (applyMigrations rest db').2)

/-- The row that this binary records. -/
def Build.row {V : Type} [LE V] (B : Build V) (now : ℕ) : VersionRow :=
  ⟨B.version, B.gitRevision, B.clean, now⟩

/-- The version row is written unless the latest one is the same (lines 150–197). -/
def recordVersion (now : ℕ) (db : Db C) : Except InitError (Db C) :=
  match db.versionMetadata with
  | none => .error .NoVersionMetadata
  | some rows =>
    if rows.getLast?.map VersionRow.tuple = some (B.row now).tuple then .ok db
    else .ok { db with versionMetadata := some (rows ++ [B.row now]) }

/-- The migrations and the version row, with the states of the file. -/
def migrateAndRecord (now : ℕ) (db : Db C) : List (File C) × Except InitError (File C) :=
  match applyMigrations M network M.order db with
  | (dbs, .error e) => (dbs.map .database, .error e)
  | (dbs, .ok db') =>
    match recordVersion B now db' with
    | .error e => (dbs.map .database, .error e)
    | .ok db'' => (dbs.map .database ++ [.database db''], .ok (.database db''))

/-- `Database::open`: the states that the file goes through, and the last one. -/
def openFile (now : ℕ) (file : File C) : List (File C) × Except InitError (File C) :=
  match file with
  | .database db =>
    match verifyExistingDatabase B network db with
    | .error e => ([file], .error e)
    | .ok _ =>
      (file :: (migrateAndRecord B M network now db).1, (migrateAndRecord B M network now db).2)
  | _ =>
    (file :: .empty :: (migrateAndRecord B M network now ⟨[], M.new, none, none⟩).1,
      (migrateAndRecord B M network now ⟨[], M.new, none, none⟩).2)

/-! ## Specification -/

/-- The same schema, content, network and recorded versions, apart from the times of
    the version rows. -/
def Db.Same (db db' : Db C) : Prop :=
  db.applied = db'.applied ∧ db.content = db'.content ∧ db.walletMetadata = db'.walletMetadata ∧
    db.versionMetadata.map (List.map VersionRow.tuple) =
      db'.versionMetadata.map (List.map VersionRow.tuple)

/-- Opening `stop` succeeds and ends as opening `start` does. -/
def Restarts (now now' : ℕ) (start stop : File C) : Prop :=
  ∃ db db', (openFile B M network now start).2 = .ok (.database db) ∧
    (openFile B M network now' stop).2 = .ok (.database db') ∧ db.Same db'

/-- A file that has been written to and has no version row. -/
def HalfCreated : File C → Prop
  | .database db => db.versionMetadata = none ∨ db.versionMetadata = some []
  | _ => False

/-! ## The migrations -/

variable {B M network}

theorem applyMigrations_skip {pre : List MigrationId} (suf : List MigrationId) {db : Db C}
    (h : ∀ id ∈ pre, id ∈ db.applied) :
    applyMigrations M network (pre ++ suf) db = applyMigrations M network suf db := by
  induction pre with
  | nil => rfl
  | cons id pre ih =>
    rw [List.cons_append, applyMigrations, if_pos (h id (List.mem_cons_self ..))]
    exact ih fun id hid => h id (List.mem_cons_of_mem _ hid)

theorem applyMigration_applied {id : MigrationId} {db db' : Db C}
    (h : applyMigration M network id db = .ok db') : db'.applied = db.applied ++ [id] := by
  unfold applyMigration at h
  split at h
  · split at h
    · rw [← Except.ok.inj h]
    · cases h
  · split at h
    · cases h
    · rw [← Except.ok.inj h]

/-- From every state between two migrations the remaining ones lead to the same end,
    and the ones before are applied. -/
theorem applyMigrations_resume (l : List MigrationId) (db : Db C) :
    ∀ db' ∈ db :: (applyMigrations M network l db).1, db.applied ⊆ db'.applied ∧
      ∃ pre suf, l = pre ++ suf ∧ (∀ id ∈ pre, id ∈ db'.applied) ∧
        (applyMigrations M network suf db').2 = (applyMigrations M network l db).2 := by
  induction l generalizing db with
  | nil =>
    intro db' hdb'
    simp only [applyMigrations, List.mem_singleton] at hdb'
    subst hdb'
    exact ⟨List.Subset.refl _, [], [], rfl, by simp, rfl⟩
  | cons id l ih =>
    intro db' hdb'
    rw [applyMigrations] at hdb' ⊢
    split at hdb'
    · rename_i hid
      rw [if_pos hid]
      obtain ⟨hsub, pre, suf, rfl, hpre, hend⟩ := ih db db' hdb'
      refine ⟨hsub, id :: pre, suf, rfl, ?_, hend⟩
      rw [List.forall_mem_cons]
      exact ⟨hsub hid, hpre⟩
    · rename_i hid
      rw [if_neg hid]
      split at hdb'
      · rename_i e he
        simp only [List.mem_singleton] at hdb'
        subst hdb'
        refine ⟨List.Subset.refl _, [], id :: l, rfl, by simp, ?_⟩
        simp only [applyMigrations, if_neg hid, he]
      · rename_i db₁ hdb₁
        have happlied := applyMigration_applied hdb₁
        rcases List.mem_cons.mp hdb' with rfl | hmem
        · refine ⟨List.Subset.refl _, [], id :: l, rfl, by simp, ?_⟩
          simp only [applyMigrations, if_neg hid, hdb₁]
        · obtain ⟨hsub, pre, suf, rfl, hpre, hend⟩ := ih db₁ db' hmem
          refine ⟨fun x hx => hsub (by rw [happlied]; exact List.mem_append_left _ hx),
            id :: pre, suf, rfl, ?_, ?_⟩
          · rw [List.forall_mem_cons]
            exact ⟨hsub (by rw [happlied]; simp), hpre⟩
          · rw [hend]

/-- The result of the migrations from a state between two of them. -/
theorem applyMigrations_again {l : List MigrationId} {db db' : Db C}
    (h : db' ∈ db :: (applyMigrations M network l db).1) :
    (applyMigrations M network l db').2 = (applyMigrations M network l db).2 := by
  obtain ⟨-, pre, suf, rfl, hpre, hend⟩ := applyMigrations_resume l db db' h
  rw [applyMigrations_skip suf hpre, hend]

theorem applyMigrations_complete {l : List MigrationId} {db db' : Db C}
    (h : (applyMigrations M network l db).2 = .ok db') :
    db.applied ⊆ db'.applied ∧ ∀ id ∈ l, id ∈ db'.applied := by
  induction l generalizing db with
  | nil =>
    cases h
    exact ⟨List.Subset.refl _, by simp⟩
  | cons id l ih =>
    rw [applyMigrations] at h
    split at h
    · obtain ⟨hsub, hall⟩ := ih h
      exact ⟨hsub, List.forall_mem_cons.mpr ⟨hsub ‹_›, hall⟩⟩
    · split at h
      · cases h
      · rename_i db₁ hdb₁
        obtain ⟨hsub, hall⟩ := ih h
        rw [applyMigration_applied hdb₁] at hsub
        exact ⟨fun x hx => hsub (List.mem_append_left _ hx),
          List.forall_mem_cons.mpr ⟨hsub (by simp), hall⟩⟩

/-- A property of databases that every migration keeps holds between all of them. -/
theorem applyMigrations_inv (M : Migrator C) (network : NetworkType) {P : Db C → Prop}
    (hP : ∀ id db db', applyMigration M network id db = .ok db' → P db → P db')
    (l : List MigrationId) {db : Db C} (hdb : P db) :
    (∀ db' ∈ (applyMigrations M network l db).1, P db') ∧
      ∀ db', (applyMigrations M network l db).2 = .ok db' → P db' := by
  induction l generalizing db with
  | nil => exact ⟨by simp [applyMigrations], fun db' h => by cases h; exact hdb⟩
  | cons id l ih =>
    rw [applyMigrations]
    split
    · exact ih hdb
    · split
      · exact ⟨by simp, fun db' h => by cases h⟩
      · rename_i db₁ hdb₁
        have hdb₁' := hP id db db₁ hdb₁ hdb
        exact ⟨List.forall_mem_cons.mpr ⟨hdb₁', (ih hdb₁').1⟩, (ih hdb₁').2⟩

/-- Once there is a version table, migrations leave both tables. -/
theorem applyMigration_tables {id : MigrationId} {db db' : Db C} {rows : List VersionRow}
    (h : applyMigration M network id db = .ok db') (hrows : db.versionMetadata = some rows) :
    db'.versionMetadata = some rows ∧ db'.walletMetadata = db.walletMetadata := by
  unfold applyMigration at h
  split at h
  · split at h
    · rename_i hnone
      cases hnone.2.symm.trans hrows
    · cases h
  · split at h
    · cases h
    · rw [← Except.ok.inj h]
      exact ⟨hrows, rfl⟩

/-- The tables of a database that is being created. -/
def Creating (network : NetworkType) (db : Db C) : Prop :=
  (db.walletMetadata = none ∧ db.versionMetadata = none) ∨
    (db.walletMetadata = some network ∧ db.versionMetadata = some [])

theorem applyMigration_creating {id : MigrationId} {db db' : Db C}
    (h : applyMigration M network id db = .ok db') (hdb : Creating network db) :
    Creating network db' := by
  unfold applyMigration at h
  split at h
  · split at h
    · rw [← Except.ok.inj h]
      exact Or.inr ⟨rfl, rfl⟩
    · cases h
  · split at h
    · cases h
    · rw [← Except.ok.inj h]
      exact hdb

/-! ## The version row -/

/-- What the version row depends on. -/
theorem recordVersion_ok {now : ℕ} {db db' : Db C} (h : recordVersion B now db = .ok db') :
    ∃ rows, db.versionMetadata = some rows ∧
      ((rows.getLast?.map VersionRow.tuple = some (B.row now).tuple ∧ db' = db) ∨
        (rows.getLast?.map VersionRow.tuple ≠ some (B.row now).tuple ∧
          db' = { db with versionMetadata := some (rows ++ [B.row now]) })) := by
  unfold recordVersion at h
  split at h
  · cases h
  · rename_i rows hrows
    refine ⟨rows, hrows, ?_⟩
    split at h
    · exact Or.inl ⟨‹_›, (Except.ok.inj h).symm⟩
    · exact Or.inr ⟨‹_›, (Except.ok.inj h).symm⟩

theorem recordVersion_now {now : ℕ} (now' : ℕ) {db db' : Db C}
    (h : recordVersion B now db = .ok db') :
    ∃ db'', recordVersion B now' db = .ok db'' ∧ db'.Same db'' := by
  obtain ⟨rows, hrows, ⟨hlast, rfl⟩ | ⟨hlast, rfl⟩⟩ := recordVersion_ok h
  · refine ⟨db', ?_, rfl, rfl, rfl, rfl⟩
    simp only [recordVersion, hrows]
    exact if_pos hlast
  · refine ⟨{ db with versionMetadata := some (rows ++ [B.row now']) }, ?_, rfl, rfl, rfl, ?_⟩
    · simp only [recordVersion, hrows]
      exact if_neg hlast
    · simp [Build.row, VersionRow.tuple]

/-- After the version row was written its version is that of this binary. -/
theorem recordVersion_latest {now : ℕ} {db db' : Db C} (h : recordVersion B now db = .ok db') :
    ∃ rows row, db'.versionMetadata = some rows ∧ rows.getLast? = some row ∧
      row.tuple = (B.row now).tuple ∧ db'.walletMetadata = db.walletMetadata ∧
      db'.applied = db.applied := by
  obtain ⟨rows, hrows, ⟨hlast, rfl⟩ | ⟨-, rfl⟩⟩ := recordVersion_ok h
  · obtain ⟨row, hrow, htuple⟩ := Option.map_eq_some_iff.mp hlast
    exact ⟨rows, row, hrows, hrow, htuple, rfl, rfl⟩
  · exact ⟨_, B.row now, rfl, by simp, rfl, rfl, rfl⟩

/-! ## The checks -/

theorem not_halfCreated {db : Db C} {rows : List VersionRow} (hrows : db.versionMetadata = some rows)
    (hne : rows ≠ []) : ¬ HalfCreated (.database db) := by
  rintro (h | h)
  · cases h.symm.trans hrows
  · cases h.symm.trans hrows
    exact hne rfl

theorem verify_halfCreated {db : Db C} (h : HalfCreated (.database db)) :
    verifyExistingDatabase B network db = .error .IncompatibleAlpha := by
  obtain h | h := h <;>
    simp [verifyExistingDatabase, verifyAlphaDbCompatibility, latestRecordedZalletVersion, h]

theorem verify_ok {db : Db C} (h : verifyExistingDatabase B network db = .ok ()) :
    ∃ rows, db.versionMetadata = some rows ∧ rows ≠ [] ∧ db.walletMetadata = some network := by
  cases hrows : db.versionMetadata with
  | none => cases h.symm.trans (verify_halfCreated (Or.inl hrows))
  | some rows =>
    refine ⟨rows, rfl, ?_, ?_⟩
    · rintro rfl
      cases h.symm.trans (verify_halfCreated (Or.inr hrows))
    · unfold verifyExistingDatabase at h
      split at h
      · cases h
      · unfold verifyWalletNetworkType at h
        split at h
        · cases h
        · rename_i network' hnetwork
          split at h
          · rw [hnetwork, ‹network' = network›]
          · cases h

/-- The checks read Zallet's tables only. -/
theorem verify_congr {db db' : Db C} (hversion : db'.versionMetadata = db.versionMetadata)
    (hwallet : db'.walletMetadata = db.walletMetadata) :
    verifyExistingDatabase B network db' = verifyExistingDatabase B network db := by
  simp [verifyExistingDatabase, verifyAlphaDbCompatibility, latestRecordedZalletVersion,
    verifyWalletNetworkType, hversion, hwallet]

/-- The checks pass on a database that this binary has opened. -/
theorem verify_latest {now : ℕ} {db : Db C} {rows : List VersionRow} {row : VersionRow}
    (hrows : db.versionMetadata = some rows) (hrow : rows.getLast? = some row)
    (htuple : row.tuple = (B.row now).tuple) (hwallet : db.walletMetadata = some network) :
    verifyExistingDatabase B network db = .ok () := by
  obtain ⟨v, hparse, hv⟩ := B.own_compatible
  have hversion : row.version = B.version := congrArg Prod.fst htuple
  simp [verifyExistingDatabase, verifyAlphaDbCompatibility, latestRecordedZalletVersion,
    verifyWalletNetworkType, hrows, hrow, hversion, hparse, hv, hwallet]

/-! ## Opening again -/

theorem openFile_database {now : ℕ} {db : Db C} (h : verifyExistingDatabase B network db = .ok ()) :
    (openFile B M network now (.database db)).2 = (migrateAndRecord B M network now db).2 := by
  simp [openFile, h]

theorem migrateAndRecord_ok {now : ℕ} {db : Db C} {file : File C}
    (h : (migrateAndRecord B M network now db).2 = .ok file) :
    ∃ db' db'', (applyMigrations M network M.order db).2 = .ok db' ∧
      recordVersion B now db' = .ok db'' ∧ file = .database db'' ∧
      (migrateAndRecord B M network now db).1 =
        (applyMigrations M network M.order db).1.map .database ++ [.database db''] := by
  unfold migrateAndRecord at h ⊢
  split at h
  · cases h
  · rename_i dbs db' hdbs
    split at h
    · cases h
    · rename_i db'' hdb''
      cases h
      exact ⟨db', db'', by rw [hdbs], hdb'', rfl, by simp [hdbs]⟩

theorem migrateAndRecord_eq {now : ℕ} {db db' db'' : Db C}
    (h : (applyMigrations M network M.order db).2 = .ok db')
    (h' : recordVersion B now db' = .ok db'') :
    (migrateAndRecord B M network now db).2 = .ok (.database db'') := by
  unfold migrateAndRecord
  split
  · rename_i heq
    cases (congrArg Prod.snd heq).symm.trans h
  · rename_i heq
    cases (congrArg Prod.snd heq).symm.trans h
    simp [h']

theorem migrateAndRecord_error {now : ℕ} {db : Db C} {e : InitError}
    (h : (migrateAndRecord B M network now db).2 = .error e) : e.isCheck = false := by
  have hmigration : ∀ l (db : Db C) e, (applyMigrations M network l db).2 = .error e →
      e.isCheck = false := by
    intro l
    induction l with
    | nil => intro db e h; cases h
    | cons id l ih =>
      intro db e h
      rw [applyMigrations] at h
      split at h
      · exact ih db e h
      · split at h
        · rename_i e' he'
          cases h
          unfold applyMigration at he'
          split at he'
          · split at he' <;> cases he'
            rfl
          · split at he' <;> cases he'
            rfl
        · exact ih _ e h
  unfold migrateAndRecord at h
  split at h
  · rename_i heq
    cases h
    exact hmigration _ _ _ (congrArg Prod.snd heq)
  · split at h
    · rename_i he
      cases h
      unfold recordVersion at he
      split at he
      · cases he
        rfl
      · split at he <;> cases he
    · cases h

/-- Opening the final state again leaves it as it is. -/
theorem openFile_final {now : ℕ} (now' : ℕ) {db db' db'' : Db C}
    (h : (applyMigrations M network M.order db).2 = .ok db')
    (h' : recordVersion B now db' = .ok db'') (hwallet : db'.walletMetadata = some network) :
    (openFile B M network now' (.database db'')).2 = .ok (.database db'') := by
  obtain ⟨rows, row, hrows, hrow, htuple, hwallet', happlied⟩ := recordVersion_latest h'
  rw [openFile_database (verify_latest hrows hrow htuple (hwallet'.trans hwallet))]
  have hall : ∀ id ∈ M.order, id ∈ db''.applied := by
    rw [happlied]
    exact (applyMigrations_complete h).2
  have hskip : applyMigrations M network (M.order ++ []) db'' = ([], .ok db'') :=
    applyMigrations_skip [] hall
  rw [List.append_nil] at hskip
  refine migrateAndRecord_eq (congrArg Prod.snd hskip) ?_
  simp only [recordVersion, hrows, hrow, Option.map_some, htuple]
  exact if_pos rfl

/-- A stop while an existing database is opened. -/
theorem restarts_existing {now : ℕ} (now' : ℕ) {db : Db C} {file stop : File C}
    (hverify : verifyExistingDatabase B network db = .ok ())
    (hok : (migrateAndRecord B M network now db).2 = .ok file)
    (hstop : stop ∈ .database db :: (migrateAndRecord B M network now db).1) :
    Restarts B M network now now' (.database db) stop ∧ ¬ HalfCreated stop := by
  obtain ⟨rows, hrows, hne, hwallet⟩ := verify_ok hverify
  obtain ⟨db', db'', hmigrated, hrecord, rfl, htrace⟩ := migrateAndRecord_ok hok
  have hopen : (openFile B M network now (.database db)).2 = .ok (.database db'') :=
    (openFile_database hverify).trans hok
  have htables := applyMigrations_inv M network
    (P := fun d => d.versionMetadata = some rows ∧ d.walletMetadata = some network)
    (fun _ _ _ h hd => ⟨(applyMigration_tables h hd.1).1,
      (applyMigration_tables h hd.1).2.trans hd.2⟩) M.order ⟨hrows, hwallet⟩
  rw [htrace, ← List.cons_append, List.mem_append, ← List.map_cons, List.mem_map] at hstop
  obtain ⟨mid, hmid, rfl⟩ | hfinal := hstop
  · -- between two migrations the checks see the old tables
    have hmidtables : mid.versionMetadata = some rows ∧ mid.walletMetadata = some network := by
      rcases List.mem_cons.mp hmid with rfl | hmem
      · exact ⟨hrows, hwallet⟩
      · exact htables.1 mid hmem
    have hmidverify : verifyExistingDatabase B network mid = .ok () := by
      rw [verify_congr (hmidtables.1.trans hrows.symm) (hmidtables.2.trans hwallet.symm), hverify]
    obtain ⟨db₂, hrecord₂, hsame⟩ := recordVersion_now now' hrecord
    refine ⟨⟨db'', db₂, hopen, ?_, hsame⟩, ?_⟩
    · rw [openFile_database hmidverify]
      exact migrateAndRecord_eq ((applyMigrations_again hmid).trans hmigrated) hrecord₂
    · exact not_halfCreated hmidtables.1 hne
  · rw [List.mem_singleton.mp hfinal]
    refine ⟨⟨db'', db'', hopen, openFile_final now' hmigrated hrecord (htables.2 db' hmigrated).2,
      rfl, rfl, rfl, rfl⟩, ?_⟩
    obtain ⟨rows', row, hrows', hrow, -⟩ := recordVersion_latest hrecord
    exact not_halfCreated hrows' (List.getLast?_isSome.mp (by simp [hrow]))

/-- A stop while a database is created. -/
theorem restarts_new {now : ℕ} (now' : ℕ) {start stop : File C} {file : File C}
    (hstart : start = .missing ∨ start = .empty)
    (hok : (migrateAndRecord B M network now ⟨[], M.new, none, none⟩).2 = .ok file)
    (hstop : stop ∈ start :: .empty ::
      (migrateAndRecord B M network now ⟨[], M.new, none, none⟩).1) :
    Restarts B M network now now' start stop ↔ ¬ HalfCreated stop := by
  obtain ⟨db', db'', hmigrated, hrecord, rfl, htrace⟩ := migrateAndRecord_ok hok
  have hfresh : ∀ f : File C, f = .missing ∨ f = .empty → ∀ t, (openFile B M network t f).2 =
      (migrateAndRecord B M network t ⟨[], M.new, none, none⟩).2 := by
    rintro f (rfl | rfl) t <;> rfl
  have hopen := (hfresh start hstart now).trans hok
  have hcreating := applyMigrations_inv M network (fun _ _ _ h hd => applyMigration_creating h hd)
    M.order
    (show Creating network (⟨[], M.new, none, none⟩ : Db C) from Or.inl ⟨rfl, rfl⟩)
  have hagain : ∀ f : File C, f = .missing ∨ f = .empty →
      (Restarts B M network now now' start f ↔ ¬ HalfCreated f) := by
    intro f hf
    obtain ⟨db₂, hrecord₂, hsame⟩ := recordVersion_now now' hrecord
    have hrestarts : Restarts B M network now now' start f :=
      ⟨db'', db₂, hopen, (hfresh f hf now').trans (migrateAndRecord_eq hmigrated hrecord₂), hsame⟩
    refine ⟨fun _ => ?_, fun _ => hrestarts⟩
    rcases hf with rfl | rfl <;> exact id
  rcases List.mem_cons.mp hstop with rfl | hstop
  · exact hagain stop hstart
  · rcases List.mem_cons.mp hstop with rfl | hstop
    · exact hagain .empty (Or.inr rfl)
    · rw [htrace, List.mem_append, List.mem_map] at hstop
      obtain ⟨mid, hmid, rfl⟩ | hfinal := hstop
      · -- between two migrations there is no version row
        have hhalf : HalfCreated (.database mid) := by
          rcases hcreating.1 mid hmid with h | h
          · exact Or.inl h.2
          · exact Or.inr h.2
        refine ⟨fun hrestarts => ?_, fun h => absurd hhalf h⟩
        obtain ⟨_, _, -, hreopen, -⟩ := hrestarts
        simp [openFile, verify_halfCreated hhalf] at hreopen
      · rw [List.mem_singleton.mp hfinal]
        obtain ⟨rows', row, hrows', hrow, -⟩ := recordVersion_latest hrecord
        obtain ⟨rows, hrows, -⟩ := recordVersion_ok hrecord
        have hwallet : db'.walletMetadata = some network := by
          rcases hcreating.2 db' hmigrated with h | h
          · cases h.2.symm.trans hrows
          · exact h.1
        refine ⟨fun _ => ?_, fun _ => ⟨db'', db'', hopen,
          openFile_final now' hmigrated hrecord hwallet, rfl, rfl, rfl, rfl⟩⟩
        exact not_halfCreated hrows' (List.getLast?_isSome.mp (by simp [hrow]))

end Open

/-- If an open from `start` succeeds, then an open from a state in which it may have
    stopped succeeds with the same result iff that state is not a half-created file; and
    an open that a check rejects leaves the file as it was. -/
theorem open_restartable_iff {V C : Type} [LinearOrder V] (B : Build V) (M : Migrator C)
    (network : NetworkType) (now now' : ℕ) (start : File C) :
    (∀ file, (openFile B M network now start).2 = .ok file →
      ∀ stop ∈ (openFile B M network now start).1,
        (Restarts B M network now now' start stop ↔ ¬ HalfCreated stop)) ∧
      ∀ e, (openFile B M network now start).2 = .error e → e.isCheck = true →
        ∀ state ∈ (openFile B M network now start).1, state = start := by
  constructor
  · intro file hok stop hstop
    cases start with
    | missing => exact restarts_new now' (Or.inl rfl) hok hstop
    | empty => exact restarts_new now' (Or.inr rfl) hok hstop
    | database db =>
      cases hverify : verifyExistingDatabase B network db with
      | error e => simp [openFile, hverify] at hok
      | ok u =>
        simp only [openFile, hverify] at hok hstop
        have h := restarts_existing now' hverify hok hstop
        exact ⟨fun _ => h.2, fun _ => h.1⟩
  · intro e herror hcheck state hstate
    cases start with
    | missing => exact absurd hcheck (by simpa using migrateAndRecord_error herror)
    | empty => exact absurd hcheck (by simpa using migrateAndRecord_error herror)
    | database db =>
      cases hverify : verifyExistingDatabase B network db with
      | error e' =>
        simp only [openFile, hverify] at hstate
        exact List.mem_singleton.mp hstate
      | ok u =>
        simp only [openFile, hverify] at herror
        exact absurd hcheck (by simpa using migrateAndRecord_error herror)

/-- A build whose version is the place of its text in the list. -/
def listBuild : Build ℕ where
  version := "0.1.0-beta.2"
  gitRevision := none
  clean := none
  parse text :=
    if text ∈ ["0.1.0-alpha.3", "0.1.0-alpha.4", "0.1.0-beta.2"] then
      .ok (["0.1.0-alpha.3", "0.1.0-alpha.4", "0.1.0-beta.2"].idxOf text)
    else .error "unexpected character"
  minimumVersion := 1
  own_compatible := ⟨2, by decide +kernel, by decide⟩

/-- A migration of the wallet crate on which Zallet's depends, and a later one. -/
def someMigrations : Migrator (List MigrationId) where
  order := [1, initialSetup, 2]
  up id content := .ok (content ++ [id])
  new := []

/-- A process that stops after the first migration of a new database leaves a file that
    the next open rejects as one of an old version. -/
theorem stopped_creation_rejected :
    (openFile listBuild someMigrations .Main 0 .missing).2.isOk = true ∧
      .database ⟨[1], [1], none, none⟩ ∈ (openFile listBuild someMigrations .Main 0 .missing).1 ∧
      (openFile listBuild someMigrations .Main 1 (.database ⟨[1], [1], none, none⟩)).2 =
        .error .IncompatibleAlpha ∧
      ¬ Restarts listBuild someMigrations .Main 0 1 .missing (.database ⟨[1], [1], none, none⟩) := by
  have hreject : (openFile listBuild someMigrations .Main 1
      (.database ⟨[1], [1], none, none⟩)).2 = .error .IncompatibleAlpha := by decide +kernel
  refine ⟨by decide +kernel, by decide +kernel, hreject, ?_⟩
  rintro ⟨_, _, -, hreopen, -⟩
  cases hreject.symm.trans hreopen

/-- A stop after the migration of a database of an earlier version. -/
theorem upgrade_restartable :
    Restarts listBuild someMigrations .Main 0 1
      (.database ⟨[1, initialSetup], [1], some .Main, some [⟨"0.1.0-alpha.4", none, none, 0⟩]⟩)
      (.database ⟨[1, initialSetup, 2], [1, 2], some .Main,
        some [⟨"0.1.0-alpha.4", none, none, 0⟩]⟩) := by
  refine ((open_restartable_iff listBuild someMigrations .Main 0 1 _).1
    (.database ⟨[1, initialSetup, 2], [1, 2], some .Main,
      some [⟨"0.1.0-alpha.4", none, none, 0⟩, ⟨"0.1.0-beta.2", none, none, 0⟩]⟩)
    (by decide +kernel) _ (by decide +kernel)).mpr ?_
  exact not_halfCreated rfl (by simp)

end Zallet.Database
