import Zallet.Migrate.ZcashConf

/-!
# What a `zcash.conf` is converted to

The loop of `migrate-zcash-conf` acts on one option after the other. Here a table of
actions is arbitrary, and `convert` says for a whole list of options which configuration
they stand for. If each action does to `convert` what appending its option does
(`Describes`), then the loop accepts exactly the lists of options that fit together, in any
order, and ends with what `convert` says (`migrateZcashConf_eq_ok`).
-/

namespace Zallet.Migrate.ZcashConf

open Zallet.Keystore (Error ErrorKind)

/-- An option and its value. -/
abbrev Setting := List Char × List Char

section

variable {Config : Type} (actions : List Char → Option (Action Config)) (conf : String)

/-- The target of an option that may be set once. -/
def targetOf (option : List Char) : Option (Option String) :=
  match actions option with
  | some (.MapTo _ target) => some target
  | _ => none

/-- Two settings can stand in one file: they are not the same option, nor two of the same
    target, unless the option may be repeated. -/
def Compatible (a b : Setting) : Prop :=
  ∀ target ∈ targetOf actions a.1, a.1 ≠ b.1 ∧
    ∀ target' ∈ targetOf actions b.1, ∀ name ∈ target, name ∉ target'

/-- The command knows the option and accepts its value. -/
def Valid (default : Config) (a : Setting) : Prop :=
  match actions a.1 with
  | some (.MapTo f _) => ∃ config, f a.2 default = .ok config
  | some (.MapMulti f) => ∃ config, f a.2 default = .ok config
  | some .Ignore => True
  | some (.Warn _) => True
  | none => False

/-- The settings fit together. -/
structure Fits (default : Config) (settings : List Setting) : Prop where
  valid : ∀ a ∈ settings, Valid actions default a
  compatible : settings.Pairwise (Compatible actions)

/-- The warning that a setting gives. -/
def warningOf (a : Setting) : Option String :=
  match actions a.1 with
  | some (.Warn f) => f a.2
  | _ => none

/-- `convert` describes what the actions do. -/
structure Describes (default : Config) (convert : List Setting → Config) : Prop where
  nil : convert [] = default
  /-- Whether a value is accepted does not depend on the configuration. -/
  valid : ∀ (a : Setting) (f : MapAction Config), (∃ target, actions a.1 = some (.MapTo f target)) ∨
    actions a.1 = some (.MapMulti f) → ∀ config config',
      (∃ c, f a.2 config = .ok c) → ∃ c, f a.2 config' = .ok c
  mapTo : ∀ done (a : Setting) (f : MapAction Config) target c, actions a.1 = some (.MapTo f target) →
    (∀ d ∈ done, Compatible actions d a) → f a.2 (convert done) = .ok c →
      c = convert (done ++ [a])
  mapMulti : ∀ done (a : Setting) (f : MapAction Config) c, actions a.1 = some (.MapMulti f) →
    f a.2 (convert done) = .ok c → c = convert (done ++ [a])
  other : ∀ done (a : Setting), actions a.1 = some .Ignore ∨ (∃ f, actions a.1 = some (.Warn f)) →
    convert (done ++ [a]) = convert done

/-- The state of the loop after the settings `done`. -/
structure Reflects (convert : List Setting → Config) (done : List Setting)
    (st : ConfState Config) : Prop where
  config : st.config = convert done
  observed : ∀ option, option ∈ st.observed ↔
    (targetOf actions option).isSome ∧ ∃ d ∈ done, d.1 = option
  related : ∀ name, (st.related.lookup name).isSome ↔
    ∃ d ∈ done, ∃ target ∈ targetOf actions d.1, name ∈ target
  warnings : st.warnings = done.filterMap (warningOf actions)

end

section

variable {Config : Type} {actions : List Char → Option (Action Config)} {conf : String}

/-! ## Compatible settings -/

theorem Compatible.symm {a b : Setting} (h : Compatible actions a b) : Compatible actions b a := by
  intro target htarget
  have hne : b.1 ≠ a.1 := by
    intro heq
    rw [heq] at htarget
    exact (h target htarget).1 heq.symm
  refine ⟨hne, ?_⟩
  intro target' htarget' name hname hname'
  exact (h target' htarget').2 target htarget name hname' hname

/-- An option that may be repeated, is ignored or only warns is compatible with all. -/
theorem compatible_of_none {a b : Setting} (h : targetOf actions b.1 = none) :
    Compatible actions a b := by
  intro target htarget
  constructor
  · intro heq
    rw [heq, h] at htarget
    cases htarget
  · intro target' htarget'
    rw [h] at htarget'
    cases htarget'

theorem targetOf_mapTo {option : List Char} {f : MapAction Config} {target : Option String}
    (h : actions option = some (.MapTo f target)) : targetOf actions option = some target := by
  rw [targetOf, h]

/-- An option that may be set once is compatible with what comes before it exactly if
    neither it nor its target has been set. -/
theorem compatible_all_iff {done : List Setting} {a : Setting} {f : MapAction Config}
    {target : Option String} (h : actions a.1 = some (.MapTo f target)) :
    (∀ d ∈ done, Compatible actions d a) ↔ (¬ ∃ d ∈ done, d.1 = a.1) ∧
      ∀ name ∈ target, ¬ ∃ d ∈ done, ∃ target' ∈ targetOf actions d.1, name ∈ target' := by
  have ha := targetOf_mapTo h
  constructor
  · intro hall
    constructor
    · intro ⟨d, hd, heq⟩
      exact (hall d hd target (heq ▸ ha)).1 heq
    · intro name hname ⟨d, hd, target', htarget', hname'⟩
      exact (hall d hd target' htarget').2 target ha name hname' hname
  · intro ⟨hnew, hrelated⟩ d hd target' htarget'
    refine ⟨fun heq => hnew ⟨d, hd, heq⟩, ?_⟩
    intro target'' htarget'' name hname hname''
    obtain rfl : target'' = target := Option.some.inj (htarget''.symm.trans ha)
    exact hrelated name hname'' ⟨d, hd, target', htarget', hname⟩

/-! ## One setting -/

variable {default : Config} {convert : List Setting → Config} {done : List Setting}
  {st st' : ConfState Config} {a : Setting}

theorem Describes.valid_at (hdesc : Describes actions default convert) {f : MapAction Config}
    (h : (∃ target, actions a.1 = some (.MapTo f target)) ∨ actions a.1 = some (.MapMulti f))
    (config : Config) : Valid actions default a ↔ ∃ c, f a.2 config = .ok c := by
  have hvalid : Valid actions default a ↔ ∃ c, f a.2 default = .ok c := by
    rcases h with ⟨target, h⟩ | h
    · rw [Valid, h]
    · rw [Valid, h]
  rw [hvalid]
  exact ⟨hdesc.valid a f h default config, hdesc.valid a f h config default⟩

/-- What has been recorded does not change where only the configuration does. -/
theorem Reflects.append (h : Reflects actions convert done st)
    (hnone : targetOf actions a.1 = none) {config : Config}
    (hconfig : config = convert (done ++ [a])) {warnings : List String}
    (hwarnings : warnings = st.warnings ++ (warningOf actions a).toList) :
    Reflects actions convert (done ++ [a])
      { st with config := config, warnings := warnings } where
  config := hconfig
  observed option := by
    rw [h.observed]
    simp only [List.mem_append, List.mem_singleton, or_and_right, exists_or, exists_eq_left]
    constructor
    · intro ⟨hsome, hd⟩
      exact ⟨hsome, Or.inl hd⟩
    · intro ⟨hsome, hd⟩
      refine ⟨hsome, hd.resolve_right ?_⟩
      intro heq
      rw [← heq, hnone] at hsome
      cases hsome
  related name := by
    rw [h.related]
    simp [or_and_right, exists_or, hnone]
  warnings := by
    rw [hwarnings, h.warnings, List.filterMap_append]
    cases hw : warningOf actions a with
    | none => simp [hw]
    | some warning => simp [hw]

/-- Acting on an option that may be set once. -/
theorem actOn_mapTo (hdesc : Describes actions default convert)
    (h : Reflects actions convert done st) {f : MapAction Config} {target : Option String}
    (hact : actions a.1 = some (.MapTo f target)) :
    (∀ st', actOn actions conf a.1 a.2 st = .ok st' →
      Valid actions default a ∧ (∀ d ∈ done, Compatible actions d a) ∧
        Reflects actions convert (done ++ [a]) st') ∧
    (Valid actions default a → (∀ d ∈ done, Compatible actions d a) →
      ∃ st', actOn actions conf a.1 a.2 st = .ok st') := by
  have hvalid := hdesc.valid_at (Or.inl ⟨target, hact⟩) st.config
  have htarget := targetOf_mapTo hact
  -- the two lookups find nothing exactly if nothing before collides
  have hfresh : (∀ d ∈ done, Compatible actions d a) ↔ a.1 ∉ st.observed ∧
      (target.bind fun name => st.related.lookup name) = none := by
    rw [compatible_all_iff hact, h.observed, htarget, Option.isSome_some]
    refine and_congr (by simp) ?_
    rw [Option.bind_eq_none_iff]
    refine forall_congr' fun name => imp_congr_right fun _ => ?_
    rw [← h.related, Bool.not_eq_true, Option.isSome_eq_false_iff, Option.isNone_iff_eq_none]
  rw [hvalid]
  constructor
  · intro st' hst'
    rw [actOn, hact] at hst'
    cases hlookup : target.bind fun name => st.related.lookup name with
    | some prev =>
      simp only [hlookup] at hst'
      cases hst'
    | none =>
      by_cases hobserved : a.1 ∈ st.observed
      · simp only [hlookup, if_pos hobserved] at hst'
        cases hst'
      · simp only [hlookup, if_neg hobserved] at hst'
        have hall := hfresh.mpr ⟨hobserved, hlookup⟩
        cases hf : f a.2 st.config with
        | error e =>
          rw [hf] at hst'
          cases hst'
        | ok config =>
          rw [hf] at hst'
          obtain rfl := Except.ok.inj hst'
          refine ⟨⟨config, rfl⟩, hall, ?_⟩
          rw [h.config] at hf
          exact {
            config := hdesc.mapTo done a f target config hact hall hf
            observed := fun option => by
              rw [List.mem_cons, h.observed]
              simp only [List.mem_append, List.mem_singleton, or_and_right, exists_or,
                exists_eq_left]
              constructor
              · rintro (rfl | ⟨hsome, hd⟩)
                · exact ⟨by rw [htarget]; rfl, Or.inr rfl⟩
                · exact ⟨hsome, Or.inl hd⟩
              · rintro ⟨hsome, hd | heq⟩
                · exact Or.inr ⟨hsome, hd⟩
                · exact Or.inl heq.symm
            related := fun name => by
              simp only [List.mem_append, List.mem_singleton, or_and_right, exists_or,
                exists_eq_left, htarget, Option.mem_some_iff, exists_eq_left']
              rw [← h.related]
              cases target with
              | none => simp
              | some target =>
                simp only [Option.toList_some, List.map_cons, List.map_nil, List.cons_append,
                  List.nil_append, List.lookup_cons, Option.mem_some_iff]
                by_cases hname : name = target
                · simp [hname]
                · have hbeq : (name == target) = false := by simpa using hname
                  simp [hbeq, Ne.symm hname]
            warnings := by
              rw [h.warnings, List.filterMap_append]
              simp [warningOf, hact] }
  · intro ⟨config, hf⟩ hall
    obtain ⟨hobserved, hlookup⟩ := hfresh.mp hall
    rw [actOn, hact]
    simp only [hlookup, if_neg hobserved, hf]
    exact ⟨_, rfl⟩

variable (conf) in
/-- Acting on one setting: it succeeds exactly if the setting is valid and compatible with
    those before it, and then the state reflects it too. -/
theorem actOn_ok (hdesc : Describes actions default convert)
    (h : Reflects actions convert done st) (a : Setting) :
    (∀ st', actOn actions conf a.1 a.2 st = .ok st' →
      Valid actions default a ∧ (∀ d ∈ done, Compatible actions d a) ∧
        Reflects actions convert (done ++ [a]) st') ∧
    (Valid actions default a → (∀ d ∈ done, Compatible actions d a) →
      ∃ st', actOn actions conf a.1 a.2 st = .ok st') := by
  cases hact : actions a.1 with
  | none => simp [actOn, hact, Valid]
  | some action =>
    cases action with
    | MapTo f target => exact actOn_mapTo hdesc h hact
    | MapMulti f =>
      have hnone : targetOf actions a.1 = none := by rw [targetOf, hact]
      have hvalid := hdesc.valid_at (Or.inr hact) st.config
      have hact' : actOn actions conf a.1 a.2 st =
          (f a.2 st.config).bind fun config => .ok { st with config := config } := by
        rw [actOn, hact]
        rfl
      rw [hact', hvalid]
      refine ⟨?_, fun ⟨config, hf⟩ _ => ⟨_, by rw [hf]; rfl⟩⟩
      intro st' hst'
      cases hf : f a.2 st.config with
      | error e =>
        rw [hf] at hst'
        cases hst'
      | ok config =>
        rw [hf] at hst'
        obtain rfl := Except.ok.inj hst'
        refine ⟨⟨config, rfl⟩, fun d _ => compatible_of_none hnone, ?_⟩
        rw [h.config] at hf
        exact h.append hnone (hdesc.mapMulti done a f config hact hf)
          (by rw [warningOf, hact, Option.toList_none, List.append_nil])
    | Ignore =>
      have hnone : targetOf actions a.1 = none := by rw [targetOf, hact]
      have hact' : actOn actions conf a.1 a.2 st = .ok st := by rw [actOn, hact]
      rw [hact', Valid, hact]
      refine ⟨?_, fun _ _ => ⟨st, rfl⟩⟩
      intro st' hst'
      obtain rfl := Except.ok.inj hst'
      refine ⟨trivial, fun d _ => compatible_of_none hnone, ?_⟩
      exact h.append hnone (h.config.trans (hdesc.other done a (Or.inl hact)).symm)
        (by rw [warningOf, hact, Option.toList_none, List.append_nil])
    | Warn f =>
      have hnone : targetOf actions a.1 = none := by rw [targetOf, hact]
      have hact' : actOn actions conf a.1 a.2 st =
          .ok { st with warnings := st.warnings ++ (f a.2).toList } := by rw [actOn, hact]
      rw [hact', Valid, hact]
      refine ⟨?_, fun _ _ => ⟨_, rfl⟩⟩
      intro st' hst'
      obtain rfl := Except.ok.inj hst'
      refine ⟨trivial, fun d _ => compatible_of_none hnone, ?_⟩
      exact h.append hnone (h.config.trans (hdesc.other done a (Or.inr ⟨f, hact⟩)).symm)
        (by rw [warningOf, hact])

/-! ## The whole file -/

variable (conf) in
/-- The loop over the settings `settings`, behind the settings `done`. -/
theorem actOnAll_ok (hdesc : Describes actions default convert) (settings : List Setting)
    (rejected : Option (List Char)) (h : Reflects actions convert done st) :
    (∀ st', actOnAll actions conf (settings, rejected) st = .ok st' →
      rejected = none ∧ Fits actions default settings ∧
        (∀ d ∈ done, ∀ a ∈ settings, Compatible actions d a) ∧
        Reflects actions convert (done ++ settings) st') ∧
    (rejected = none → Fits actions default settings →
      (∀ d ∈ done, ∀ a ∈ settings, Compatible actions d a) →
      ∃ st', actOnAll actions conf (settings, rejected) st = .ok st') := by
  induction settings generalizing done st with
  | nil =>
    cases rejected with
    | none =>
      rw [actOnAll, List.append_nil]
      refine ⟨?_, fun _ _ _ => ⟨st, rfl⟩⟩
      intro st' hst'
      obtain rfl := Except.ok.inj hst'
      exact ⟨rfl, ⟨by simp, List.Pairwise.nil⟩, by simp, h⟩
    | some line => simp [actOnAll]
  | cons a rest ih =>
    obtain ⟨hone, hcan⟩ := actOn_ok conf hdesc h a
    rw [actOnAll]
    constructor
    · intro st' hst'
      cases hact : actOn actions conf a.1 a.2 st with
      | error e =>
        rw [hact] at hst'
        cases hst'
      | ok next =>
        rw [hact] at hst'
        obtain ⟨hvalid, hall, hnext⟩ := hone next hact
        obtain ⟨hnone, hfits, hdone, hst⟩ := (ih hnext).1 st' hst'
        have happend : ∀ d ∈ done, ∀ b ∈ rest, Compatible actions d b :=
          fun d hd => hdone d (List.mem_append_left _ hd)
        have ha : ∀ b ∈ rest, Compatible actions a b :=
          hdone a (List.mem_append_right _ (List.mem_singleton_self a))
        refine ⟨hnone, ⟨?_, List.pairwise_cons.mpr ⟨ha, hfits.compatible⟩⟩, ?_, ?_⟩
        · exact List.forall_mem_cons.mpr ⟨hvalid, hfits.valid⟩
        · exact fun d hd => List.forall_mem_cons.mpr ⟨hall d hd, happend d hd⟩
        · rwa [List.append_assoc, List.singleton_append] at hst
    · intro hnone hfits hdone
      obtain ⟨hvalid, hrest⟩ := List.forall_mem_cons.mp hfits.valid
      obtain ⟨ha, hpair⟩ := List.pairwise_cons.mp hfits.compatible
      obtain ⟨next, hact⟩ := hcan hvalid fun d hd => hdone d hd a (List.mem_cons_self ..)
      obtain ⟨-, -, hnext⟩ := hone next hact
      obtain ⟨st', hst'⟩ := (ih hnext).2 hnone ⟨hrest, hpair⟩ fun d hd b hb => by
        rcases List.mem_append.mp hd with hd | hd
        · exact hdone d hd b (List.mem_cons_of_mem _ hb)
        · rw [List.mem_singleton.mp hd]
          exact ha b hb
      exact ⟨st', by rw [hact]; exact hst'⟩

/-- The state that the loop starts in. -/
theorem Describes.reflects_nil (hdesc : Describes actions default convert) :
    Reflects actions convert [] ⟨default, [], [], []⟩ where
  config := hdesc.nil.symm
  observed option := by simp
  related name := by simp
  warnings := rfl

/-- The command succeeds exactly if every line is read, the settings fit together and the
    warnings and the state of the code are accepted; and then with what they stand for. -/
theorem migrateZcashConf_eq_ok (hdesc : Describes actions default convert)
    {allowWarnings thisIsBetaCode : Bool} {lines : List (List Char)} {config : Config} :
    migrateZcashConf actions conf default allowWarnings thisIsBetaCode lines = .ok config ↔
      (events parseLine lines).2 = none ∧ Fits actions default (events parseLine lines).1 ∧
      (allowWarnings = true ∨ ∀ a ∈ (events parseLine lines).1, warningOf actions a = none) ∧
      thisIsBetaCode = true ∧ config = convert (events parseLine lines).1 := by
  obtain ⟨hrun, hcan⟩ := actOnAll_ok conf hdesc (events parseLine lines).1
    (events parseLine lines).2 hdesc.reflects_nil
  rw [migrateZcashConf, readConf_eq]
  have hwarnings : ∀ st : ConfState Config,
      st.warnings = (events parseLine lines).1.filterMap (warningOf actions) →
      ((st.warnings ≠ [] ∧ allowWarnings = false) ↔
        ¬ (allowWarnings = true ∨ ∀ a ∈ (events parseLine lines).1, warningOf actions a = none)) := by
    intro st hst
    rw [hst, Ne, List.filterMap_eq_nil_iff]
    cases allowWarnings <;> simp
  constructor
  · intro h
    cases hst : actOnAll actions conf (events parseLine lines) ⟨default, [], [], []⟩ with
    | error e =>
      rw [hst] at h
      cases h
    | ok st =>
      obtain ⟨hnone, hfits, -, hreflects⟩ := hrun st hst
      rw [hst] at h
      by_cases hwarn : st.warnings ≠ [] ∧ allowWarnings = false
      · simp only [Except.bind, bind, if_pos hwarn] at h
        cases h
      · simp only [Except.bind, bind, if_neg hwarn] at h
        cases hbeta : thisIsBetaCode with
        | false => simp [hbeta] at h
        | true =>
          rw [hbeta] at h
          obtain rfl := Except.ok.inj h
          rw [hwarnings st hreflects.warnings, not_not] at hwarn
          exact ⟨hnone, hfits, hwarn, rfl, hreflects.config⟩
  · intro ⟨hnone, hfits, hwarn, hbeta, hconfig⟩
    obtain ⟨st, hst⟩ := hcan hnone hfits (by simp)
    obtain ⟨-, -, -, hreflects⟩ := hrun st hst
    have hno : ¬ (st.warnings ≠ [] ∧ allowWarnings = false) := by
      rw [hwarnings st hreflects.warnings, not_not]
      exact hwarn
    rw [hst, hconfig, hbeta, ← List.nil_append (events parseLine lines).1, ← hreflects.config]
    simp only [Except.bind, bind, if_neg hno]
    rfl

/-! ## The order of the lines -/

/-- What a line sets. -/
def settingOf (line : List Char) : Option Setting :=
  match parseLine line with
  | .Option option value => some (option, value)
  | _ => none

theorem events_none {lines : List (List Char)} :
    (events parseLine lines).2 = none ↔ ∀ line ∈ lines, parseLine line ≠ .Invalid := by
  induction lines with
  | nil => simp [events]
  | cons line lines ih =>
    rw [events]
    cases hline : parseLine line with
    | Skipped => simp [ih, hline]
    | Invalid => simp [hline]
    | Option option value => simp [ih, hline]

theorem events_settings {lines : List (List Char)}
    (h : ∀ line ∈ lines, parseLine line ≠ .Invalid) :
    (events parseLine lines).1 = lines.filterMap settingOf := by
  induction lines with
  | nil => rfl
  | cons line lines ih =>
    obtain ⟨hline, hrest⟩ := List.forall_mem_cons.mp h
    rw [events, List.filterMap_cons, settingOf]
    cases hparse : parseLine line with
    | Skipped => exact ih hrest
    | Invalid => exact absurd hparse hline
    | Option option value => rw [← ih hrest]

theorem Fits.perm {settings settings' : List Setting} (h : Fits actions default settings)
    (hperm : settings.Perm settings') : Fits actions default settings' where
  valid a ha := h.valid a (hperm.mem_iff.mpr ha)
  compatible := (hperm.pairwise_iff fun h => h.symm).mp h.compatible

/-- What the settings stand for depends only on the order of the values of each repeated
    option. -/
def OrderFree (actions : List Char → Option (Action Config)) (default : Config)
    (convert : List Setting → Config) : Prop :=
  ∀ settings settings' : List Setting, settings.Perm settings' → Fits actions default settings →
    (∀ option f, actions option = some (.MapMulti f) →
      settings.filter (fun a => decide (a.1 = option)) =
        settings'.filter (fun a => decide (a.1 = option))) →
    convert settings = convert settings'

/-- The order of the lines does not matter, except among those of one repeated option. -/
theorem migrateZcashConf_perm (hdesc : Describes actions default convert)
    (hfree : OrderFree actions default convert) {allowWarnings thisIsBetaCode : Bool}
    {lines lines' : List (List Char)} (hperm : lines.Perm lines')
    (hmulti : ∀ option f, actions option = some (.MapMulti f) →
      (lines.filterMap settingOf).filter (fun a => decide (a.1 = option)) =
        (lines'.filterMap settingOf).filter (fun a => decide (a.1 = option)))
    {config : Config}
    (h : migrateZcashConf actions conf default allowWarnings thisIsBetaCode lines = .ok config) :
    migrateZcashConf actions conf default allowWarnings thisIsBetaCode lines' = .ok config := by
  rw [migrateZcashConf_eq_ok hdesc] at h ⊢
  obtain ⟨hnone, hfits, hwarn, hbeta, hconfig⟩ := h
  have hread := events_none.mp hnone
  have hread' : ∀ line ∈ lines', parseLine line ≠ .Invalid :=
    fun line hline => hread line (hperm.mem_iff.mpr hline)
  rw [events_settings hread] at hfits hwarn hconfig
  rw [events_settings hread']
  have hsettings := hperm.filterMap settingOf
  refine ⟨events_none.mpr hread', hfits.perm hsettings, ?_, hbeta, ?_⟩
  · exact hwarn.imp_right fun hall a ha => hall a (hsettings.mem_iff.mpr ha)
  · rw [hconfig]
    exact hfree _ _ hsettings hfits hmulti

end

end Zallet.Migrate.ZcashConf
