import Mathlib

/-!
# Choosing the backend

The launcher reads the `backend` key of the config file and runs the binary of
that backend (`zallet/src/main.rs`, lines 27–195). The binary parses the same
command line with clap, loads its config file
(`zallet-core/src/commands.rs`, lines 105–230; `application.rs`, lines 83–108)
and refuses to run if the file names another backend (`after_config`, lines
151–182). A file without the key is accepted by every backend.

The launcher scans for the two options that locate the file and does not
understand short-flag clusters or attached values that are not UTF-8, and it also
scans the arguments of the subcommand. `scan_plain`: on a command line without
these the two parsers find the same options. `backend_chosen_iff`: a binary that
gets past `after_config` is the right one unless the launcher read another file
than the binary (`Diverted`); `cluster_runs_zaino` is such a command line.

* A command-line argument is its bytes (`OsString` on Unix), and so is a path.
* `Cli` is clap's parser for the options before the subcommand, as clap
  documents it: `--flag value`, `--flag=value`, `-f value`, `-fvalue`, `-f=value`
  and clusters of short flags of which only the last may take a value. A value
  is not empty and does not start with a hyphen unless it is attached, and no
  option is given twice.
* `Setting` is the rest of the world: the home directory, the files, the TOML
  parser and the subcommands' parsers.
-/

namespace Zallet.Launcher

/-! ## Bytes and paths -/

/-- `OsString`. -/
abbrev OsString := List UInt8

abbrev Path := OsString

/-- The bytes of an ASCII text. -/
def ascii (text : List Char) : OsString := text.map fun c => c.toNat.toUInt8

/-- A byte between `low` and `high`. -/
def isBetween (low high b : UInt8) : Bool := low ≤ b && b ≤ high

/-- A continuation byte of UTF-8. -/
def isContinuation (b : UInt8) : Bool := isBetween 0x80 0xbf b

/-- Whether the two bytes start a three-byte character. -/
def startsThree (b₀ b₁ : UInt8) : Bool :=
  (b₀ == 0xe0 && isBetween 0xa0 0xbf b₁) || (isBetween 0xe1 0xec b₀ && isContinuation b₁) ||
    (b₀ == 0xed && isBetween 0x80 0x9f b₁) || (isBetween 0xee 0xef b₀ && isContinuation b₁)

/-- Whether the two bytes start a four-byte character. -/
def startsFour (b₀ b₁ : UInt8) : Bool :=
  (b₀ == 0xf0 && isBetween 0x90 0xbf b₁) || (isBetween 0xf1 0xf3 b₀ && isContinuation b₁) ||
    (b₀ == 0xf4 && isBetween 0x80 0x8f b₁)

/-- Whether bytes are UTF-8, which is when `OsStr::to_str` succeeds. -/
def validUtf8 : OsString → Bool
  | [] => true
  | b₀ :: rest =>
    if b₀ < 0x80 then validUtf8 rest
    else
      match rest with
      | [] => false
      | b₁ :: rest₁ =>
        if isBetween 0xc2 0xdf b₀ && isContinuation b₁ then validUtf8 rest₁
        else
          match rest₁ with
          | [] => false
          | b₂ :: rest₂ =>
            if startsThree b₀ b₁ && isContinuation b₂ then validUtf8 rest₂
            else
              match rest₂ with
              | [] => false
              | b₃ :: rest₃ =>
                startsFour b₀ b₁ && isContinuation b₂ && isContinuation b₃ && validUtf8 rest₃

/-- `Path::is_absolute`. -/
def isAbsolute (path : Path) : Bool := path.head? == some 47

/-- `Path::join`. -/
def join (base path : Path) : Path :=
  if isAbsolute path then path
  else if base = [] ∨ base.getLast? = some 47 then base ++ path
  else base ++ 47 :: path

/-- `CONFIG_FILE`. -/
def configFile : Path := ascii ['z', 'a', 'l', 'l', 'e', 't', '.', 't', 'o', 'm', 'l']

/-- The default data directory below the home directory. -/
def dotZallet : Path := ascii ['.', 'z', 'a', 'l', 'l', 'e', 't']

/-! ## The launcher -/

/-- `ConfigLocator` (lines 68–73). -/
structure ConfigLocator where
  datadir : Option Path
  config : Option Path
  deriving DecidableEq

/-- The two options that locate the config file. -/
inductive Locator
  | Datadir
  | Config
  deriving DecidableEq

/-- The long name of an option. -/
def Locator.long : Locator → OsString
  | Datadir => ascii ['d', 'a', 't', 'a', 'd', 'i', 'r']
  | Config => ascii ['c', 'o', 'n', 'f', 'i', 'g']

/-- The short name of an option. -/
def Locator.short : Locator → UInt8
  | Datadir => 100
  | Config => 99

def ConfigLocator.set (locator : ConfigLocator) (option : Locator) (value : Path) : ConfigLocator :=
  match option with
  | .Datadir => { locator with datadir := some value }
  | .Config => { locator with config := some value }

/-- `take` of `scan_locator_args` (lines 86–115): the value of the option if
    `arg` gives it, and whether it is the next argument. -/
def take (option : Locator) (arg : OsString) (next : Option OsString) : Option Path × Bool :=
  if validUtf8 arg = false then (none, false)
  else if arg = 45 :: 45 :: option.long ∨ arg = [45, option.short] then (next, true)
  else
    match List.isPrefixOf? (45 :: 45 :: option.long ++ [61]) arg with
    | some v => (some v, false)
    | none =>
      match List.isPrefixOf? [45, option.short, 61] arg with
      | some v => (some v, false)
      | none =>
        match List.isPrefixOf? [45, option.short] arg with
        | some v => (some v, false)
        | none => (none, false)

/-- The option that an argument gives, with its value and whether that is the
    next argument (lines 123–134). -/
def takeLocator (arg : OsString) (next : Option OsString) : Option (Locator × Path × Bool) :=
  match take .Datadir arg next with
  | (some v, skip) => some (.Datadir, v, skip)
  | (none, _) =>
    match take .Config arg next with
    | (some v, skip) => some (.Config, v, skip)
    | (none, _) => none

/-- `scan_locator_args` (lines 84–137). -/
def scanLocatorArgs : ConfigLocator → List OsString → ConfigLocator
  | locator, [] => locator
  | locator, [arg] =>
    if arg = [45, 45] then locator
    else
      match takeLocator arg none with
      | some (option, v, _) => locator.set option v
      | none => locator
  | locator, arg :: next :: rest =>
    if arg = [45, 45] then locator
    else
      match takeLocator arg (some next) with
      | some (option, v, true) => scanLocatorArgs (locator.set option v) rest
      | some (option, v, false) => scanLocatorArgs (locator.set option v) (next :: rest)
      | none => scanLocatorArgs locator (next :: rest)

/-- `resolve_config_path` of the launcher (lines 144–161). -/
def resolveConfigPath (locator : ConfigLocator) (home : Option Path) : Option Path :=
  match locator.datadir.or (home.map (join · dotZallet)) with
  | none => none
  | some datadir =>
    if isAbsolute (locator.config.getD configFile) then some (locator.config.getD configFile)
    else some (join datadir (locator.config.getD configFile))

/-! ## The world -/

/-- A value of a TOML table. -/
inductive TomlValue
  | String (text : String)
  | other (text : String)
  deriving DecidableEq

structure Setting where
  /-- `home::home_dir`. -/
  home : Option Path
  /-- `Path::exists`. -/
  existsFile : Path → Bool
  /-- `std::fs::read_to_string`. -/
  read : Path → Option String
  read_exists : ∀ path contents, read path = some contents → existsFile path = true
  /-- The `backend` entry of a TOML document, or the error of its parser. -/
  backendEntry : String → Except String (Option TomlValue)
  /-- Whether the other sections of the document are a Zallet config. -/
  otherSections : String → Bool
  /-- Whether a subcommand with its arguments is accepted. -/
  accepts : OsString → List OsString → Bool

/-- `DEFAULT_BACKEND`. -/
def defaultBackend : String := "zebra"

/-- A byte of a backend name. -/
def isNameByte (c : Char) : Bool := c.isLower || c.isDigit || c == '-'

/-- `parse_backend_name` (main.rs, lines 46–59) and `BackendName::from_str`
    (config.rs, lines 47–60), which differ in their messages only. -/
def parseBackendName (message : String → String) (value : String) : Except String String :=
  if value ≠ "" ∧ value.toList.all isNameByte then .ok value else .error (message value)

/-- `backend_from_config` (lines 168–179). -/
def backendFromConfig (S : Setting) (contents : String) : Except String String :=
  match S.backendEntry contents with
  | .error e => .error ("failed to parse config file: " ++ e)
  | .ok none => .ok defaultBackend
  | .ok (some (.String s)) =>
    parseBackendName (fun s => "invalid backend name '" ++ s ++
      "' in config file: backend names are nonempty, lowercase alphanumeric plus hyphens") s
  | .ok (some (.other text)) => .error ("invalid `backend` value " ++ text ++
      " in config file (expected a string naming a backend, e.g. \"zebra\")")

/-- The file that the launcher looks for. -/
def launcherPath (S : Setting) (args : List OsString) : Option Path :=
  resolveConfigPath (scanLocatorArgs ⟨none, none⟩ args) S.home

/-- `select_backend` (lines 182–197), without the path in its error. -/
def selectBackend (S : Setting) (args : List OsString) : Except String String :=
  match launcherPath S args with
  | none => .ok defaultBackend
  | some path =>
    match S.read path with
    | none => .ok defaultBackend
    | some contents => backendFromConfig S contents

/-! ## The backend binary -/

/-- The global options of `EntryPoint` (cli.rs, lines 29–50). -/
structure Cli where
  verbose : Bool
  locator : ConfigLocator
  deriving DecidableEq

def ConfigLocator.get (locator : ConfigLocator) : Locator → Option Path
  | .Datadir => locator.datadir
  | .Config => locator.config

/-- An option may be given once, and its value is not empty. -/
def Cli.set (cli : Cli) (option : Locator) (value : Path) : Option Cli :=
  if cli.locator.get option ≠ none ∨ value = [] then none
  else some { cli with locator := cli.locator.set option value }

def Cli.setVerbose (cli : Cli) : Option Cli :=
  if cli.verbose then none else some { cli with verbose := true }

/-- The options after the hyphen of a short-flag cluster, with the option that
    still needs its value. -/
def parseShorts (cli : Cli) : OsString → Option (Cli × Option Locator)
  | [] => some (cli, none)
  | b :: rest =>
    if b = 118 then (cli.setVerbose).bind (parseShorts · rest)
    else if b = Locator.short .Datadir then attached .Datadir rest
    else if b = Locator.short .Config then attached .Config rest
    else none
where
  attached (option : Locator) : OsString → Option (Cli × Option Locator)
    | [] => some (cli, some option)
    | b :: v => (cli.set option (if b = 61 then v else b :: v)).map (·, none)

/-- A long option after its hyphens, with the option that still needs its
    value. -/
def parseLong (cli : Cli) (body : OsString) : Option (Cli × Option Locator) :=
  if body = ascii ['v', 'e', 'r', 'b', 'o', 's', 'e'] then (cli.setVerbose).map (·, none)
  else if body = Locator.long .Datadir then some (cli, some .Datadir)
  else if body = Locator.long .Config then some (cli, some .Config)
  else
    match List.isPrefixOf? (Locator.long .Datadir ++ [61]) body with
    | some v => (cli.set .Datadir v).map (·, none)
    | none =>
      match List.isPrefixOf? (Locator.long .Config ++ [61]) body with
      | some v => (cli.set .Config v).map (·, none)
      | none => none

/-- An argument that starts with a hyphen. -/
def parseOption (cli : Cli) (arg : OsString) : Option (Cli × Option Locator) :=
  if arg.take 2 = [45, 45] then parseLong cli (arg.drop 2)
  else if arg = [45] then none
  else parseShorts cli (arg.drop 1)

/-- A value that is an argument of its own does not look like an option. -/
def isValue (arg : OsString) : Bool := arg.head? != some 45 || arg == [45]

/-- clap's parser: the options before the subcommand, and the subcommand with
    its arguments. -/
def parseArgs (S : Setting) : Cli → List OsString → Option (Cli × List OsString)
  | _, [] => none
  | cli, [arg] => if arg.head? ≠ some 45 ∧ S.accepts arg [] then some (cli, [arg]) else none
  | cli, arg :: next :: rest =>
    if arg.head? ≠ some 45 then
      if S.accepts arg (next :: rest) then some (cli, arg :: next :: rest) else none
    else
      match parseOption cli arg with
      | none => none
      | some (cli, none) => parseArgs S cli (next :: rest)
      | some (cli, some option) =>
        if isValue next then (cli.set option next).bind (parseArgs S · rest) else none

/-- `EntryPoint::datadir` (commands.rs, lines 156–191). -/
def datadir (S : Setting) (cli : Cli) : Option Path :=
  cli.locator.datadir.or (S.home.map (join · dotZallet))

/-- `resolve_config_path` of the binary (commands.rs, lines 119–126), for
    `config_path` and `process_config`. -/
def binaryPath (S : Setting) (cli : Cli) : Option Path :=
  (datadir S cli).map fun datadir =>
    if isAbsolute (cli.locator.config.getD configFile) then cli.locator.config.getD configFile
    else join datadir (cli.locator.config.getD configFile)

/-- `EntryPoint::config_path` (commands.rs, lines 201–211). -/
def configPath (S : Setting) (cli : Cli) : Option Path :=
  match binaryPath S cli with
  | none => none
  | some filename =>
    if cli.locator.config.isSome ∨ S.existsFile filename then some filename else none

/-- The `backend` key of a config as the binary reads it (config.rs, lines
    69–115). -/
def loadBackend (S : Setting) (contents : String) : Except String (Option String) :=
  match S.backendEntry contents with
  | .error e => .error e
  | .ok none => if S.otherSections contents then .ok none else .error "invalid config"
  | .ok (some (.String s)) =>
    match parseBackendName (fun s => "invalid backend name '" ++ s ++
      "': backend names are nonempty, lowercase alphanumeric plus hyphens") s with
    | .ok name => if S.otherSections contents then .ok (some name) else .error "invalid config"
    | .error e => .error e
  | .ok (some (.other _)) => .error "invalid type: expected a string"

/-- The `backend` key of the config that the binary runs with, or its failure
    to get one: `load_config` (application.rs, lines 83–108) if there is a config
    path, else the default config; `process_config` (commands.rs, lines 213–232)
    needs the data directory in both cases. -/
def configuredBackend (S : Setting) (cli : Cli) : Except String (Option String) :=
  match datadir S cli with
  | none => .error "err-init-cannot-find-home-dir"
  | some _ =>
    match configPath S cli with
    | none => .ok none
    | some path =>
      if S.existsFile path = false then .error "err-config-file-not-found"
      else
        match S.read path with
        | none => .error "io error"
        | some contents => loadBackend S contents

/-- `after_config` (application.rs, lines 151–182) lets the binary of `provided`
    run. -/
def getsPast (S : Setting) (cli : Cli) (provided : String) : Prop :=
  ∃ configured, configuredBackend S cli = .ok configured ∧ ∀ name ∈ configured, name = provided

/-- The backend that the config of the binary asks for. -/
def Wanted (S : Setting) (cli : Cli) (backend : String) : Prop :=
  ∃ configured, configuredBackend S cli = .ok configured ∧ backend = configured.getD defaultBackend

/-! ## When the two parsers agree -/

/-- An argument whose options the launcher sees: it is UTF-8, and no cluster
    that starts with `-v`. Values need not be. -/
def plainArg (arg : OsString) : Prop :=
  arg.head? = some 45 → validUtf8 arg = true ∧ (arg.take 2 = [45, 118] → arg = [45, 118])

instance : DecidablePred plainArg := fun arg => by unfold plainArg; infer_instance

/-- The launcher takes no argument of the subcommand for one of the options. -/
def Quiet (tail : List OsString) : Prop :=
  ∀ locator, scanLocatorArgs locator tail = locator

theorem isPrefixOf?_eq_some {p l v : OsString} (h : List.isPrefixOf? p l = some v) :
    l = p ++ v := by
  induction p generalizing l with
  | nil => simpa [List.isPrefixOf?] using h
  | cons x p ih =>
    cases l with
    | nil => simp [List.isPrefixOf?] at h
    | cons y l =>
      simp only [List.isPrefixOf?, beq_iff_eq, Option.ite_none_right_eq_some] at h
      obtain ⟨rfl, h⟩ := h
      rw [ih h, List.cons_append]

/-- What an option argument does to the options that clap has found. -/
def Sees (arg : OsString) (cli cli' : Cli) : Option Locator → Prop
  | some option => cli' = cli ∧ ∀ next, takeLocator arg (some next) = some (option, next, true)
  | none =>
    (cli'.locator = cli.locator ∧ ∀ next, takeLocator arg next = none) ∨
      ∃ option v, cli'.locator = cli.locator.set option v ∧
        ∀ next, takeLocator arg next = some (option, v, false)

theorem setVerbose_locator {cli cli' : Cli} (h : cli.setVerbose = some cli') :
    cli'.locator = cli.locator := by
  simp only [Cli.setVerbose] at h
  split at h
  · cases h
  · rw [← Option.some.inj h]

theorem set_locator {cli cli' : Cli} {option : Locator} {v : Path}
    (h : cli.set option v = some cli') :
    v ≠ [] ∧ cli'.locator = cli.locator.set option v := by
  simp only [Cli.set] at h
  split at h
  · cases h
  · rename_i hfree
    rw [← Option.some.inj h]
    exact ⟨fun hv => hfree (Or.inr hv), rfl⟩

theorem take_flag (option : Locator) (next : OsString) :
    takeLocator (45 :: 45 :: option.long) (some next) = some (option, next, true) ∧
      takeLocator [45, option.short] (some next) = some (option, next, true) := by
  cases option <;> constructor <;> rfl

theorem take_long {option : Locator} {v : Path}
    (hutf : validUtf8 (45 :: 45 :: (option.long ++ 61 :: v)) = true) (next : Option OsString) :
    takeLocator (45 :: 45 :: (option.long ++ 61 :: v)) next = some (option, v, false) := by
  cases option
  all_goals
    simp [Locator.long, ascii] at hutf
    simp [takeLocator, take, hutf, Locator.long, Locator.short, ascii, List.isPrefixOf?]

theorem take_attached {option : Locator} {b : UInt8} {v : Path}
    (hutf : validUtf8 (45 :: option.short :: b :: v) = true) (next : Option OsString) :
    takeLocator (45 :: option.short :: b :: v) next =
      some (option, if b = 61 then v else b :: v, false) := by
  cases option
  all_goals
    simp only [Locator.short] at hutf
    by_cases hb : b = 61
    · subst hb
      simp [takeLocator, take, hutf, Locator.long, Locator.short, ascii, List.isPrefixOf?]
    · simp [takeLocator, take, hutf, hb, Ne.symm hb, Locator.long, Locator.short, ascii,
        List.isPrefixOf?]

theorem parseLong_sees {cli cli' : Cli} {body : OsString} {need : Option Locator}
    (hutf : validUtf8 (45 :: 45 :: body) = true) (h : parseLong cli body = some (cli', need)) :
    Sees (45 :: 45 :: body) cli cli' need := by
  have hset : ∀ option v, body = option.long ++ 61 :: v →
      (cli.set option v).map (·, none) = some (cli', need) →
      Sees (45 :: 45 :: body) cli cli' need := by
    rintro option v rfl hset
    obtain ⟨cli₁, hcli, hpair⟩ := Option.map_eq_some_iff.mp hset
    cases hpair
    exact Or.inr ⟨option, v, (set_locator hcli).2, take_long hutf⟩
  simp only [parseLong] at h
  split at h
  · rename_i hverbose
    obtain ⟨cli₁, hcli, hpair⟩ := Option.map_eq_some_iff.mp h
    cases hpair
    subst hverbose
    exact Or.inl ⟨setVerbose_locator hcli, fun next => by cases next <;> rfl⟩
  · split at h
    · rename_i hbody
      cases h
      subst hbody
      exact ⟨rfl, fun next => (take_flag .Datadir next).1⟩
    · split at h
      · rename_i hbody
        cases h
        subst hbody
        exact ⟨rfl, fun next => (take_flag .Config next).1⟩
      · split at h
        · rename_i hbody
          exact hset .Datadir _ (by simpa using isPrefixOf?_eq_some hbody) h
        · split at h
          · rename_i hbody
            exact hset .Config _ (by simpa using isPrefixOf?_eq_some hbody) h
          · cases h

theorem attached_sees {cli cli' : Cli} {option : Locator} {rest : OsString}
    {need : Option Locator} (hutf : validUtf8 (45 :: option.short :: rest) = true)
    (h : parseShorts.attached cli option rest = some (cli', need)) :
    Sees (45 :: option.short :: rest) cli cli' need := by
  cases rest with
  | nil =>
    cases h
    exact ⟨rfl, fun next => (take_flag option next).2⟩
  | cons b v =>
    obtain ⟨cli₁, hcli, hpair⟩ := Option.map_eq_some_iff.mp h
    cases hpair
    exact Or.inr ⟨option, _, (set_locator hcli).2, take_attached hutf⟩

/-- The launcher finds in a plain option what clap finds. -/
theorem parseOption_sees {cli cli' : Cli} {arg : OsString} {need : Option Locator}
    (hhead : arg.head? = some 45) (hplain : plainArg arg)
    (h : parseOption cli arg = some (cli', need)) :
    Sees arg cli cli' need := by
  obtain ⟨hutf, hcluster⟩ := hplain hhead
  cases arg with
  | nil => cases hhead
  | cons a rest =>
    have ha : a = 45 := by simpa using hhead
    subst ha
    simp only [parseOption] at h
    split at h
    · rename_i hlong
      cases rest with
      | nil => cases hlong
      | cons b body =>
        have hb : b = 45 := by simpa using hlong
        subst hb
        exact parseLong_sees hutf h
    · split at h
      · cases h
      · simp only [List.drop_one, List.tail_cons] at h
        cases rest with
        | nil => simp_all
        | cons b body =>
          simp only [parseShorts] at h
          split at h
          · rename_i hv
            subst hv
            have hbody : body = [] := by simpa using hcluster (by simp)
            subst hbody
            obtain ⟨cli₁, hcli, hnil⟩ := Option.bind_eq_some_iff.mp h
            cases hnil
            exact Or.inl ⟨setVerbose_locator hcli, fun next => by cases next <;> rfl⟩
          · split at h
            · rename_i hd
              subst hd
              exact attached_sees hutf h
            · split at h
              · rename_i hc
                subst hc
                exact attached_sees hutf h
              · cases h

theorem ne_dashes_of_parseOption {cli : Cli} {arg : OsString} {r : Cli × Option Locator}
    (h : parseOption cli arg = some r) : arg ≠ [45, 45] := by
  rintro rfl
  cases h

theorem scan_set_next {locator : ConfigLocator} {arg : OsString} {option : Locator}
    {next : OsString} (hne : arg ≠ [45, 45])
    (h : takeLocator arg (some next) = some (option, next, true)) (rest : List OsString) :
    scanLocatorArgs locator (arg :: next :: rest) =
      scanLocatorArgs (locator.set option next) rest := by
  simp [scanLocatorArgs, hne, h]

/-- On plain options the launcher's scan reaches the subcommand with the options
    that clap found. -/
theorem scan_plain {S : Setting} {cli cli' : Cli} {args tail : List OsString}
    (h : parseArgs S cli args = some (cli', tail)) :
    ∃ opts, args = opts ++ tail ∧ ((∀ arg ∈ opts, plainArg arg) →
      scanLocatorArgs cli.locator args = scanLocatorArgs cli'.locator tail) := by
  fun_induction parseArgs S cli args with
  | case1 => cases h
  | case2 cli arg hsub =>
    cases h
    exact ⟨[], rfl, fun _ => rfl⟩
  | case3 => cases h
  | case4 cli arg next rest hhead hsub =>
    cases h
    exact ⟨[], rfl, fun _ => rfl⟩
  | case5 => cases h
  | case6 => cases h
  | case7 cli arg next rest hhead cli₁ hopt ih =>
    obtain ⟨opts, hargs, hscan⟩ := ih h
    refine ⟨arg :: opts, by rw [hargs]; rfl, fun hplain => ?_⟩
    have hrest := hscan fun a ha => hplain a (List.mem_cons_of_mem _ ha)
    have hsees := parseOption_sees (not_not.mp hhead) (hplain arg (List.mem_cons_self ..)) hopt
    have hne := ne_dashes_of_parseOption hopt
    obtain ⟨hloc, hnone⟩ | ⟨option, v, hloc, htake⟩ := hsees
    · rw [← hrest, hloc]
      simp [scanLocatorArgs, hne, hnone]
    · rw [← hrest, hloc]
      simp [scanLocatorArgs, hne, htake]
  | case8 cli arg next rest hhead cli₁ option hopt hvalue ih =>
    obtain ⟨cli₂, hset, hparse⟩ := Option.bind_eq_some_iff.mp h
    obtain ⟨opts, hargs, hscan⟩ := ih cli₂ hparse
    refine ⟨arg :: next :: opts, by rw [hargs]; rfl, fun hplain => ?_⟩
    have hrest := hscan fun a ha =>
      hplain a (List.mem_cons_of_mem _ (List.mem_cons_of_mem _ ha))
    obtain ⟨hcli, htake⟩ :=
      parseOption_sees (not_not.mp hhead) (hplain arg (List.mem_cons_self ..)) hopt
    rw [scan_set_next (ne_dashes_of_parseOption hopt) (htake next), ← hrest,
      (set_locator hset).2, hcli]
  | case9 => cases h

/-- The launcher looks for the file that the binary looks for. -/
theorem launcherPath_eq {S : Setting} {cli : Cli} {args tail : List OsString}
    (hscan : scanLocatorArgs ⟨none, none⟩ args = scanLocatorArgs cli.locator tail)
    (hquiet : Quiet tail) :
    launcherPath S args = binaryPath S cli := by
  unfold launcherPath resolveConfigPath binaryPath datadir
  rw [hscan, hquiet]
  cases cli.locator.datadir.or (S.home.map (join · dotZallet)) with
  | none => rfl
  | some datadir => by_cases habs : isAbsolute (cli.locator.config.getD configFile) <;> simp [habs]

/-! ## The backend that runs -/

/-- The launcher read another file than the binary, and that file names a
    backend while the binary's config does not. -/
def Diverted (S : Setting) (args : List OsString) (cli : Cli) : Prop :=
  configuredBackend S cli = .ok none ∧ launcherPath S args ≠ binaryPath S cli ∧
    ∃ path contents name, launcherPath S args = some path ∧ S.read path = some contents ∧
      S.backendEntry contents = .ok (some (.String name)) ∧ name ≠ defaultBackend

theorem parseBackendName_ok {message : String → String} {value name : String}
    (h : parseBackendName message value = .ok name) : name = value := by
  simp only [parseBackendName] at h
  split at h
  · exact (Except.ok.inj h).symm
  · cases h

/-- A backend other than the default comes from a file. -/
theorem selectBackend_named {S : Setting} {args : List OsString} {b : String}
    (h : selectBackend S args = .ok b) (hb : b ≠ defaultBackend) :
    ∃ path contents, launcherPath S args = some path ∧ S.read path = some contents ∧
      S.backendEntry contents = .ok (some (.String b)) := by
  simp only [selectBackend] at h
  split at h
  · exact absurd (Except.ok.inj h).symm hb
  · rename_i path hpath
    split at h
    · exact absurd (Except.ok.inj h).symm hb
    · rename_i contents hread
      simp only [backendFromConfig] at h
      split at h
      · cases h
      · exact absurd (Except.ok.inj h).symm hb
      · rename_i s hentry
        rw [← parseBackendName_ok h] at hentry
        exact ⟨path, contents, hpath, hread, hentry⟩
      · cases h

/-- A key in the file at the binary's path is part of its config. -/
theorem configuredBackend_ne_none {S : Setting} {cli : Cli} {path : Path} {contents name : String}
    (hpath : binaryPath S cli = some path) (hread : S.read path = some contents)
    (hentry : S.backendEntry contents = .ok (some (.String name))) :
    configuredBackend S cli ≠ .ok none := by
  have hexists := S.read_exists path contents hread
  have hconfig : configPath S cli = some path := by
    simp [configPath, hpath, hexists]
  obtain ⟨dir, hdir, -⟩ := Option.map_eq_some_iff.mp hpath
  simp only [configuredBackend, hdir, hconfig, hexists, hread, loadBackend, hentry]
  intro h
  split at h
  · cases h
  · split at h
    · split at h <;> cases h
    · cases h

theorem not_diverted_of_plain {S : Setting} {args tail opts : List OsString} {cli : Cli}
    (hparse : parseArgs S ⟨false, ⟨none, none⟩⟩ args = some (cli, tail)) (hargs : args = opts ++ tail)
    (hplain : ∀ arg ∈ opts, plainArg arg) (hquiet : Quiet tail) :
    ¬ Diverted S args cli := by
  rintro ⟨-, hne, -⟩
  obtain ⟨opts', hargs', hscan⟩ := scan_plain hparse
  have hopts : opts' = opts := List.append_cancel_right (hargs'.symm.trans hargs)
  exact hne (launcherPath_eq (hscan (hopts ▸ hplain)) hquiet)

/-- A binary that gets past `after_config` is the one its config asks for iff the
    launcher was not diverted by another file; and on plain options, with nothing
    in the subcommand's arguments that looks like one, it is not. -/
theorem backend_chosen_iff (S : Setting) (args tail : List OsString) (cli : Cli) (b : String)
    (hparse : parseArgs S ⟨false, ⟨none, none⟩⟩ args = some (cli, tail))
    (hselect : selectBackend S args = .ok b) (hpast : getsPast S cli b) :
    (Wanted S cli b ↔ ¬ Diverted S args cli) ∧
      ∀ opts, args = opts ++ tail → (∀ arg ∈ opts, plainArg arg) → Quiet tail →
        ¬ Diverted S args cli := by
  refine ⟨?_, fun opts hargs hplain hquiet => not_diverted_of_plain hparse hargs hplain hquiet⟩
  obtain ⟨configured, hconf, hname⟩ := hpast
  constructor
  · rintro ⟨configured', hconf', rfl⟩ ⟨hnone, -, path, contents, name, hpath, hread, hentry, hne⟩
    rw [hnone] at hconf hconf'
    cases hconf
    cases hconf'
    -- the launcher read `name` from that file, not the default
    simp only [selectBackend, hpath, hread, backendFromConfig, hentry] at hselect
    exact hne (parseBackendName_ok hselect).symm
  · intro hdiv
    refine ⟨configured, hconf, ?_⟩
    cases configured with
    | some name => exact (hname name rfl).symm
    | none =>
      by_contra hb
      obtain ⟨path, contents, hpath, hread, hentry⟩ := selectBackend_named hselect hb
      refine hdiv ⟨hconf, fun heq => ?_, path, contents, b, hpath, hread, hentry, hb⟩
      exact configuredBackend_ne_none (heq ▸ hpath) hread hentry hconf

/-- A config without the `backend` key. -/
def sections : String :=
  "[builder]\n[builder.limits]\n[consensus]\nnetwork = \"main\"\n[database]\n[external]\n" ++
  "[features]\nas_of_version = \"0.1.0\"\n[features.deprecated]\n[features.experimental]\n" ++
  "[indexer]\n[keystore]\n[note_management]\n[rpc]\n"

/-- The same config with the key. -/
def zainoSections : String := "backend = \"zaino\"\n" ++ sections

/-- `/home/u/.zallet/zallet.toml`. -/
def homeConfig : Path :=
  join (join (ascii ['/', 'h', 'o', 'm', 'e', '/', 'u']) dotZallet) configFile

/-- `/w/zallet.toml`. -/
def otherConfig : Path := join (ascii ['/', 'w']) configFile

/-- Two wallets: the one in the home directory names Zaino, the one in `/w` names
    no backend. -/
def twoWallets : Setting where
  home := some (ascii ['/', 'h', 'o', 'm', 'e', '/', 'u'])
  existsFile path := path == homeConfig || path == otherConfig
  read path :=
    if path = homeConfig then some zainoSections
    else if path = otherConfig then some sections
    else none
  read_exists path contents h := by
    by_cases hhome : path = homeConfig
    · simp [hhome]
    · by_cases hother : path = otherConfig
      · simp [hother]
      · simp [hhome, hother] at h
  backendEntry contents :=
    .ok (if contents = zainoSections then some (.String "zaino") else none)
  otherSections contents := contents == zainoSections || contents == sections
  accepts cmd args := cmd == ascii ['s', 't', 'a', 'r', 't'] && args == []

def startCommand : OsString := ascii ['s', 't', 'a', 'r', 't']

/-- `zallet -vd /w start` runs the wallet in `/w` with Zaino: the launcher does not
    see the option and reads the config in the home directory. -/
theorem cluster_runs_zaino :
    ∃ cli, parseArgs twoWallets ⟨false, ⟨none, none⟩⟩
        [ascii ['-', 'v', 'd'], ascii ['/', 'w'], startCommand] = some (cli, [startCommand]) ∧
      selectBackend twoWallets [ascii ['-', 'v', 'd'], ascii ['/', 'w'], startCommand] =
        .ok "zaino" ∧
      getsPast twoWallets cli "zaino" ∧ ¬ Wanted twoWallets cli "zaino" := by
  have hconf : configuredBackend twoWallets ⟨true, ⟨some (ascii ['/', 'w']), none⟩⟩ = .ok none := by
    decide +kernel
  refine ⟨⟨true, ⟨some (ascii ['/', 'w']), none⟩⟩, by decide +kernel, by decide +kernel,
    ⟨none, hconf, by simp⟩, ?_⟩
  rintro ⟨configured, hconf', hname⟩
  rw [hconf] at hconf'
  cases hconf'
  exact absurd hname (by decide)

/-- `zallet -d /w start` runs the wallet in `/w` with the default backend. -/
theorem backend_chosen_start :
    Wanted twoWallets ⟨false, ⟨some (ascii ['/', 'w']), none⟩⟩ "zebra" := by
  have hparse : parseArgs twoWallets ⟨false, ⟨none, none⟩⟩
      [ascii ['-', 'd'], ascii ['/', 'w'], startCommand] =
        some (⟨false, ⟨some (ascii ['/', 'w']), none⟩⟩, [startCommand]) := by decide +kernel
  have hchosen := backend_chosen_iff twoWallets _ _ _ "zebra" hparse (by decide +kernel)
    ⟨none, by decide +kernel, by simp⟩
  refine hchosen.1.mpr (hchosen.2 [ascii ['-', 'd'], ascii ['/', 'w']] rfl (by decide) ?_)
  intro locator
  rfl

end Zallet.Launcher
