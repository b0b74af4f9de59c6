import Zallet.Common.Text
import Zallet.Common.Trim
import Zallet.Keystore.Decrypt

/-!
# Reading `zcash.conf`

The `migrate-zcash-conf` command
(`zallet-core/src/commands/migrate_zcash_conf.rs`, lines 50–143 and 212–231), from the
lines of the file to the configuration.

The configuration, and what the options do to it, are arbitrary: `actions` is the table
of `build_actions`.

* `readConf_eq`: what the command does depends on the lines by what `events` keeps of
  them, the options with their values and the line that it rejects.
* `parseLine_eq_iff`: the lines that are read as in the Boost.Program_options format.
* `zcash_conf_iff`: the files that are.
-/

namespace Zallet.Migrate

open Zallet.Common Zallet.Common.Trim
open Zallet.Keystore (Error ErrorKind)

namespace ZcashConf

/-! ## Lines -/

/-- `char::is_whitespace`. -/
def isWhitespace (c : Char) : Bool :=
  decide (9 ≤ c.toNat ∧ c.toNat ≤ 13 ∨ c.toNat = 0x20 ∨ c.toNat = 0x85 ∨ c.toNat = 0xA0 ∨
    c.toNat = 0x1680 ∨ 0x2000 ≤ c.toNat ∧ c.toNat ≤ 0x200A ∨ c.toNat = 0x2028 ∨
    c.toNat = 0x2029 ∨ c.toNat = 0x202F ∨ c.toNat = 0x205F ∨ c.toNat = 0x3000)

/-- What a line is read as. -/
inductive ParsedLine
  | Skipped
  | Invalid
  | Option (option value : List Char)
  deriving DecidableEq

/-- What stands before the first `#`. -/
def cutComment (line : List Char) : List Char :=
  match Text.splitOnce '#' line with
  | some (before, _) => before
  | none => line

/-- The parser (lines 65–83). -/
def parseLine (line : List Char) : ParsedLine :=
  if line.isEmpty || line.head? == some '#' then .Skipped
  else
    match Text.splitOnce '=' line with
    | none => .Invalid
    | some (option, rest) => .Option option (trimEnd isWhitespace (cutComment rest))

/-- The Boost.Program_options format, without section headers. -/
def boostLine (line : List Char) : ParsedLine :=
  let line := trim isWhitespace (cutComment line)
  if line.isEmpty then .Skipped
  else
    match Text.splitOnce '=' line with
    | none => .Invalid
    | some (name, value) => .Option (trim isWhitespace name) (trim isWhitespace value)

/-! ## Acting on options -/

/-- The effect of an option on a configuration (`MapAction`). -/
abbrev MapAction (Config : Type) := List Char → Config → Except Error Config

/-- `Action` (lines 216–231). -/
inductive Action (Config : Type)
  | MapTo (f : MapAction Config) (target : Option String)
  | MapMulti (f : MapAction Config)
  | Ignore
  | Warn (f : List Char → Option String)

/-- The local variables of the loop. -/
structure ConfState (Config : Type) where
  config : Config
  observed : List (List Char)
  related : List (String × List Char)
  warnings : List String

section

variable {Config : Type} (actions : List Char → Option (Action Config)) (conf : String)

/-- The message `err-migrate-multiple-related-zcashd-options`. -/
def multipleRelatedOptions (option prev : List Char) : String :=
  "zcashd option '" ++ String.ofList option ++ "' collides with '" ++ String.ofList prev ++
    "', but both appear in\n" ++ conf ++
    "\nRemove one of the conflicting options, then re-run this command."

/-- The message `err-migrate-duplicate-zcashd-option`. -/
def duplicateOption (option : List Char) : String :=
  "zcashd option '" ++ String.ofList option ++
    "' does not support multiple values,\nbut appears multiple times in " ++ conf ++
    "\nRemove or comment out any duplicates so that it is only set once,\n" ++
    "then re-run this command."

/-- The message `err-migrate-invalid-line`. -/
def invalidLine (line : List Char) : String :=
  "Invalid line '" ++ String.ofList line ++ "' in " ++ conf

/-- The message `err-migrate-unknown-zcashd-option`. -/
def unknownOption (option : List Char) : String :=
  "Unknown zcashd option '" ++ String.ofList option ++ "'"

/-- Act on an option (lines 85–124). -/
def actOn (option value : List Char) (st : ConfState Config) : Except Error (ConfState Config) :=
  match actions option with
  | some (.MapTo f target) =>
    match target.bind fun target => st.related.lookup target with
    | some prev => .error (ErrorKind.Generic.context (multipleRelatedOptions conf option prev))
    | none =>
      if option ∈ st.observed then
        .error (ErrorKind.Generic.context (duplicateOption conf option))
      else do
        let config ← f value st.config
        .ok { st with
          config := config
          observed := option :: st.observed
          related := (target.toList.map fun target => (target, option)) ++ st.related }
  | some (.MapMulti f) => do
    let config ← f value st.config
    .ok { st with config := config }
  | some .Ignore => .ok st
  | some (.Warn f) => .ok { st with warnings := st.warnings ++ (f value).toList }
  | none => .error (ErrorKind.Generic.context (unknownOption option))

/-- The loop over the lines (lines 60–125), with a parser. -/
def readConf (parse : List Char → ParsedLine) :
    List (List Char) → ConfState Config → Except Error (ConfState Config)
  | [], st => .ok st
  | line :: lines, st =>
    match parse line with
    | .Skipped => readConf parse lines st
    | .Invalid => .error (ErrorKind.Generic.context (invalidLine conf line))
    | .Option option value => do
      let st ← actOn actions conf option value st
      readConf parse lines st

/-- The command up to the configuration that it writes (lines 50–143). -/
def migrateZcashConf (default : Config) (allowWarnings thisIsBetaCode : Bool)
    (lines : List (List Char)) : Except Error Config := do
  let st ← readConf actions conf parseLine lines ⟨default, [], [], []⟩
  if st.warnings ≠ [] ∧ allowWarnings = false then
    .error (ErrorKind.Generic.context "To allow a migration with warnings, use '--allow-warnings'")
  else if thisIsBetaCode = false then
    .error (ErrorKind.Generic.context
      ("This command is not stable, and parts of your zcashd data may not get\n" ++
        "migrated correctly. You will need to rerun this command again once zallet\n" ++
        "is stable to migrate your config correctly. To confirm you are aware of\n" ++
        "this, use '--this-is-beta-code-and-you-will-need-to-redo-the-migration-later'."))
  else .ok st.config

/-! ## What the lines say -/

/-- The options of a file with their values, up to the first line that is rejected, and
    that line. -/
def events (parse : List Char → ParsedLine) :
    List (List Char) → List (List Char × List Char) × Option (List Char)
  | [] => ([], none)
  | line :: lines =>
    match parse line with
    | .Skipped => events parse lines
    | .Invalid => ([], some line)
    | .Option option value =>
      ((option, value) :: (events parse lines).1, (events parse lines).2)

/-- Act on the options one after the other, and reject the line. -/
def actOnAll : List (List Char × List Char) × Option (List Char) → ConfState Config →
    Except Error (ConfState Config)
  | ([], none), st => .ok st
  | ([], some line), _ => .error (ErrorKind.Generic.context (invalidLine conf line))
  | ((option, value) :: options, rejected), st => do
    let st ← actOn actions conf option value st
    actOnAll (options, rejected) st

/-- The loop does what the events of the file say. -/
theorem readConf_eq (parse : List Char → ParsedLine) (lines : List (List Char))
    (st : ConfState Config) :
    readConf actions conf parse lines st = actOnAll actions conf (events parse lines) st := by
  induction lines generalizing st with
  | nil => rw [readConf, events, actOnAll]
  | cons line lines ih =>
    rw [readConf, events]
    cases parse line with
    | Skipped => exact ih st
    | Invalid => rw [actOnAll]
    | Option option value =>
      rw [actOnAll]
      exact congrArg _ (funext ih)

end

/-! ## A line -/

theorem isWhitespace_eq : isWhitespace '=' = false := by decide

theorem cutComment_eq (line : List Char) : cutComment line = line.takeWhile (· ≠ '#') := by
  unfold cutComment
  cases h : Text.splitOnce '#' line with
  | some parts =>
    obtain ⟨before, after⟩ := parts
    obtain ⟨hnot, rfl⟩ := Text.splitOnce_eq_some.mp h
    have hbefore : ∀ c ∈ before, decide (c ≠ '#') = true := fun c hc =>
      decide_eq_true fun hc' => hnot (hc' ▸ hc)
    rw [List.takeWhile_append_of_pos hbefore]
    simp
  | none =>
    have hnot := Text.splitOnce_eq_none.mp h
    have hall : ∀ c ∈ line, decide (c ≠ '#') = true := fun c hc =>
      decide_eq_true fun hc' => hnot (hc' ▸ hc)
    exact (List.takeWhile_eq_self_iff.mpr hall).symm

theorem cutComment_subset (line : List Char) : cutComment line ⊆ line := by
  rw [cutComment_eq]
  exact (List.takeWhile_prefix _).subset

theorem not_mem_cutComment (line : List Char) : '#' ∉ cutComment line := by
  rw [cutComment_eq]
  intro hmem
  have hne := List.mem_takeWhile_imp hmem
  simp at hne

/-- The comment of a line whose first part has none. -/
theorem cutComment_append {before : List Char} (h : '#' ∉ before) (after : List Char) :
    cutComment (before ++ '=' :: after) = before ++ '=' :: cutComment after := by
  have hbefore : ∀ c ∈ before, decide (c ≠ '#') = true := fun c hc =>
    decide_eq_true fun hc' => h (hc' ▸ hc)
  rw [cutComment_eq, cutComment_eq, List.takeWhile_append_of_pos hbefore]
  simp

/-- A line that the parser skips without reading it. -/
def Passed (line : List Char) : Prop := line = [] ∨ line.head? = some '#'

instance (line : List Char) : Decidable (Passed line) := inferInstanceAs (Decidable (_ ∨ _))

theorem passed_iff (line : List Char) :
    (line.isEmpty || line.head? == some '#') = true ↔ Passed line := by
  simp [Passed]

theorem cutComment_of_passed {line : List Char} (h : Passed line) : cutComment line = [] := by
  rw [cutComment_eq]
  rcases h with rfl | hhead
  · rfl
  · cases line with
    | nil => rfl
    | cons c line =>
      rw [List.head?_cons, Option.some.injEq] at hhead
      simp [hhead]

theorem blank_of_passed {line : List Char} (h : Passed line) :
    Blank isWhitespace (cutComment line) := by
  rw [cutComment_of_passed h]
  intro c hc
  cases hc

/-- A line is split where its first part is. -/
theorem split_of_cutComment {line name value : List Char}
    (h : cutComment line = name ++ '=' :: value) :
    ∃ rest, line = name ++ '=' :: rest ∧ cutComment rest = value := by
  have hnot : '#' ∉ name := fun hmem => not_mem_cutComment line (h ▸ List.mem_append_left _ hmem)
  obtain ⟨tail, htail⟩ : cutComment line <+: line := by
    rw [cutComment_eq]
    exact List.takeWhile_prefix _
  have hline : line = name ++ '=' :: (value ++ tail) := by
    rw [← htail, h, List.append_assoc, List.cons_append]
  refine ⟨value ++ tail, hline, ?_⟩
  rw [hline, cutComment_append hnot] at h
  exact List.cons_injective (List.append_cancel_left h)

/-- The three ways in which the parser reads a line. -/
theorem parseLine_skipped {line : List Char} (h : Passed line) : parseLine line = .Skipped := by
  rw [parseLine, if_pos ((passed_iff line).mpr h)]

theorem parseLine_invalid {line : List Char} (h : ¬ Passed line) (hnot : '=' ∉ line) :
    parseLine line = .Invalid := by
  rw [parseLine, if_neg (mt (passed_iff line).mp h), Text.splitOnce_eq_none.mpr hnot]

theorem parseLine_option {option rest : List Char} (h : ¬ Passed (option ++ '=' :: rest))
    (hnot : '=' ∉ option) : parseLine (option ++ '=' :: rest) =
      .Option option (trimEnd isWhitespace (cutComment rest)) := by
  rw [parseLine, if_neg (mt (passed_iff _).mp h), Text.splitOnce_eq_some.mpr ⟨hnot, rfl⟩]

/-- The three ways in which the format reads a line. -/
theorem boostLine_skipped {line : List Char} (h : Blank isWhitespace (cutComment line)) :
    boostLine line = .Skipped := by
  rw [boostLine, trim_eq_nil.mpr h]
  rfl

theorem boostLine_invalid {line : List Char} (h : ¬ Blank isWhitespace (cutComment line))
    (hnot : '=' ∉ cutComment line) : boostLine line = .Invalid := by
  have hne : (trim isWhitespace (cutComment line)).isEmpty = false :=
    List.isEmpty_eq_false_iff.mpr (mt trim_eq_nil.mp h)
  have hsplit : Text.splitOnce '=' (trim isWhitespace (cutComment line)) = none :=
    Text.splitOnce_eq_none.mpr fun hmem => hnot (trim_subset _ hmem)
  simp only [boostLine, hne, hsplit, Bool.false_eq_true, if_false]

theorem boostLine_option {line name value : List Char}
    (h : cutComment line = name ++ '=' :: value) (hnot : '=' ∉ name) :
    boostLine line = .Option (trim isWhitespace name) (trim isWhitespace value) := by
  have htrim : trim isWhitespace (cutComment line) =
      name.dropWhile isWhitespace ++ '=' :: trimEnd isWhitespace value := by
    rw [h, trim_split isWhitespace_eq]
  have hsplit : Text.splitOnce '=' (trim isWhitespace (cutComment line)) =
      some (name.dropWhile isWhitespace, trimEnd isWhitespace value) :=
    Text.splitOnce_eq_some.mpr
      ⟨fun hmem => hnot ((List.dropWhile_suffix _).subset hmem), htrim⟩
  have hne : (trim isWhitespace (cutComment line)).isEmpty = false := by
    rw [htrim]
    simp
  simp only [boostLine, hne, hsplit, Bool.false_eq_true, if_false, trim_dropWhile, trim_trimEnd]

/-- The parser and the format agree on the line: it is empty or a comment; or something
    visible stands before the comment, and there is no `=` in it; or its first `=` stands
    before the comment, with no blanks around the name nor before the value. -/
def Plain (line : List Char) : Prop :=
  Passed line ∨ ¬ Blank isWhitespace (cutComment line) ∧ '=' ∉ line ∨
    ∃ name value, cutComment line = name ++ '=' :: value ∧ '=' ∉ name ∧
      trim isWhitespace name = name ∧
      (Blank isWhitespace value ∨ ∀ c ∈ value.head?, isWhitespace c = false)

/-- A name and a value as the format yields them. -/
structure Clean (option value : List Char) : Prop where
  no_comment : '#' ∉ option
  option_trimmed : trim isWhitespace option = option
  value_trimmed : trim isWhitespace value = value

/-- What the format yields is clean. -/
theorem clean_of_boostLine {line option value : List Char}
    (h : boostLine line = .Option option value) : Clean option value := by
  by_cases hblank : Blank isWhitespace (cutComment line)
  · rw [boostLine_skipped hblank] at h
    cases h
  by_cases hmem : '=' ∈ cutComment line
  · obtain ⟨name, rest, heq, hnot⟩ := List.eq_append_cons_of_mem hmem
    rw [boostLine_option heq hnot] at h
    cases h
    refine ⟨fun hcomment => ?_, trim_trim _, trim_trim _⟩
    refine not_mem_cutComment line ?_
    rw [heq]
    exact List.mem_append_left _ (trim_subset _ hcomment)
  · rw [boostLine_invalid hblank hmem] at h
    cases h

/-- The parser skips only what it passes over. -/
theorem passed_of_skipped {line : List Char} (h : parseLine line = .Skipped) : Passed line := by
  by_contra hpassed
  by_cases hmem : '=' ∈ line
  · obtain ⟨name, rest, rfl, hnot⟩ := List.eq_append_cons_of_mem hmem
    rw [parseLine_option hpassed hnot] at h
    cases h
  · rw [parseLine_invalid hpassed hmem] at h
    cases h

/-- Only from a plain line does the parser get something clean. -/
theorem plain_of_clean {line option value : List Char}
    (h : parseLine line = .Option option value) (hclean : Clean option value) : Plain line := by
  by_cases hpassed : Passed line
  · exact Or.inl hpassed
  by_cases hmem : '=' ∈ line
  · obtain ⟨name, rest, rfl, hnot⟩ := List.eq_append_cons_of_mem hmem
    rw [parseLine_option hpassed hnot] at h
    cases h
    have hvalue := hclean.value_trimmed
    rw [trim_trimEnd] at hvalue
    have hcut := cutComment_append hclean.no_comment rest
    exact Or.inr (Or.inr ⟨_, _, hcut, hnot, hclean.option_trimmed,
      trimEnd_eq_trim_iff.mp hvalue.symm⟩)
  · rw [parseLine_invalid hpassed hmem] at h
    cases h

/-- A line that is not plain and that the parser rejects is skipped in the format. -/
theorem boostLine_of_invalid {line : List Char} (h : parseLine line = .Invalid)
    (hplain : ¬ Plain line) : boostLine line = .Skipped := by
  by_cases hpassed : Passed line
  · exact absurd (Or.inl hpassed) hplain
  by_cases hmem : '=' ∈ line
  · obtain ⟨name, rest, rfl, hnot⟩ := List.eq_append_cons_of_mem hmem
    rw [parseLine_option hpassed hnot] at h
    cases h
  · by_cases hblank : Blank isWhitespace (cutComment line)
    · exact boostLine_skipped hblank
    · exact absurd (Or.inr (Or.inl ⟨hblank, hmem⟩)) hplain

/-- The parser reads a line as the format does exactly where the line is plain. -/
theorem parseLine_eq_iff (line : List Char) : parseLine line = boostLine line ↔ Plain line := by
  constructor
  · intro h
    cases hparse : parseLine line with
    | Skipped => exact Or.inl (passed_of_skipped hparse)
    | Invalid =>
      by_contra hplain
      rw [hparse, boostLine_of_invalid hparse hplain] at h
      cases h
    | Option option value => exact plain_of_clean hparse (clean_of_boostLine (h ▸ hparse))
  · rintro (hpassed | ⟨hblank, hmem⟩ | ⟨name, value, heq, hnot, hname, hvalue⟩)
    · rw [parseLine_skipped hpassed, boostLine_skipped (blank_of_passed hpassed)]
    · rw [parseLine_invalid (mt blank_of_passed hblank) hmem,
        boostLine_invalid hblank fun h => hmem (cutComment_subset line h)]
    · obtain ⟨rest, rfl, rfl⟩ := split_of_cutComment heq
      have hpassed : ¬ Passed (name ++ '=' :: rest) := by
        intro hpassed
        have hmem : '=' ∈ cutComment (name ++ '=' :: rest) := by
          rw [heq]
          exact List.mem_append_right _ (List.mem_cons_self ..)
        rw [cutComment_of_passed hpassed] at hmem
        cases hmem
      rw [parseLine_option hpassed hnot, boostLine_option heq hnot, hname,
        trimEnd_eq_trim_iff.mpr hvalue]

/-! ## A file -/

/-- A line that is rejected. -/
def Rejected (line : List Char) : Prop := ¬ Passed line ∧ '=' ∉ line

instance (line : List Char) : Decidable (Rejected line) := inferInstanceAs (Decidable (_ ∧ _))

/-- The lines up to the first one that is rejected. -/
def linesRead : List (List Char) → List (List Char)
  | [] => []
  | line :: lines => if Rejected line then [line] else line :: linesRead lines

/-- A line that the events name as rejected is read so. -/
theorem parse_of_rejected {parse : List Char → ParsedLine} {lines : List (List Char)}
    {line : List Char} (h : (events parse lines).2 = some line) : parse line = .Invalid := by
  induction lines with
  | nil => cases h
  | cons l lines ih =>
    rw [events] at h
    cases hparse : parse l with
    | Skipped =>
      rw [hparse] at h
      exact ih h
    | Invalid =>
      rw [hparse] at h
      cases h
      exact hparse
    | Option option value =>
      rw [hparse] at h
      exact ih h

/-- The options of a file are what its lines are read as. -/
theorem parse_of_mem {parse : List Char → ParsedLine} {lines : List (List Char)}
    {option value : List Char} (h : (option, value) ∈ (events parse lines).1) :
    ∃ line, parse line = .Option option value := by
  induction lines with
  | nil => cases h
  | cons l lines ih =>
    rw [events] at h
    cases hparse : parse l with
    | Skipped =>
      rw [hparse] at h
      exact ih h
    | Invalid =>
      rw [hparse] at h
      cases h
    | Option option' value' =>
      rw [hparse] at h
      rcases List.mem_cons.mp h with heq | hmem
      · cases heq
        exact ⟨l, hparse⟩
      · exact ih hmem

theorem rejected_iff (line : List Char) : Rejected line ↔ parseLine line = .Invalid := by
  constructor
  · rintro ⟨hpassed, hmem⟩
    exact parseLine_invalid hpassed hmem
  · intro h
    refine ⟨fun hpassed => ?_, fun hmem => ?_⟩
    · rw [parseLine_skipped hpassed] at h
      cases h
    · obtain ⟨name, rest, rfl, hnot⟩ := List.eq_append_cons_of_mem hmem
      by_cases hpassed : Passed (name ++ '=' :: rest)
      · rw [parseLine_skipped hpassed] at h
        cases h
      · rw [parseLine_option hpassed hnot] at h
        cases h

/-- A file whose first line is not plain is not read as in the format: the parser yields
    something that is not clean, or rejects a line that the format skips. -/
theorem events_ne {line : List Char} (h : ¬ Plain line) (lines : List (List Char)) :
    events parseLine (line :: lines) ≠ events boostLine (line :: lines) := by
  intro heq
  cases hparse : parseLine line with
  | Skipped => exact h (Or.inl (passed_of_skipped hparse))
  | Invalid =>
    have hboost := boostLine_of_invalid hparse h
    have hrejected : (events boostLine (line :: lines)).2 = some line := by
      rw [← heq, events, hparse]
    rw [parse_of_rejected hrejected] at hboost
    cases hboost
  | Option option value =>
    have hmem : (option, value) ∈ (events boostLine (line :: lines)).1 := by
      rw [← heq, events, hparse]
      exact List.mem_cons_self ..
    obtain ⟨l, hl⟩ := parse_of_mem hmem
    exact h (plain_of_clean hparse (clean_of_boostLine hl))

/-- A file is read as in the format exactly where every line of it up to the first one
    that is rejected is plain. -/
theorem zcash_conf_iff (lines : List (List Char)) :
    events parseLine lines = events boostLine lines ↔ ∀ line ∈ linesRead lines, Plain line := by
  induction lines with
  | nil => simp [events, linesRead]
  | cons line lines ih =>
    have hmem : line ∈ linesRead (line :: lines) := by
      rw [linesRead]
      split <;> exact List.mem_cons_self ..
    by_cases hplain : Plain line
    · have hboost := (parseLine_eq_iff line).mpr hplain
      by_cases hrejected : Rejected line
      · rw [linesRead, if_pos hrejected, events, events, ← hboost,
          (rejected_iff line).mp hrejected]
        simpa using hplain
      · rw [linesRead, if_neg hrejected, List.forall_mem_cons, ← ih, events, events, ← hboost]
        cases hparse : parseLine line with
        | Skipped => simp [hplain]
        | Invalid => exact absurd ((rejected_iff line).mpr hparse) hrejected
        | Option option value => simp [hplain, Prod.ext_iff]
    · exact iff_of_false (events_ne hplain lines) fun h => hplain (h line hmem)

/-- A line of blanks after an indented option. -/
def indented : List (List Char) := [" gen=1".toList, "  ".toList]

/-- The option keeps its blank, and the line of blanks is rejected. -/
theorem indented_events :
    events parseLine indented = ([(" gen".toList, "1".toList)], some "  ".toList) ∧
    events boostLine indented = ([("gen".toList, "1".toList)], none) ∧
    events parseLine indented ≠ events boostLine indented := by
  decide

end ZcashConf

end Zallet.Migrate
