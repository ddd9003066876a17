import UsageBilling.Proofs.Calendar.ZoneNames
import UsageBilling.Proofs.Logging.Setup

/-! Settings that were accepted. Every value that a reader stores is read again as itself, and so is every default
(`Canonical`), so that accepted settings given again are accepted as they are (`load_stored`). What a stored value
is good for is read off that: a level that is read as itself has the capitals of a level's name, which makes it that
name but for the dots, and the setup of log output, which goes by the capitals again, finds that level
(`exists_level_of_load`). The dots are the one thing that can be missing (`dotless_level_is_stored`). -/

namespace UsageBilling

/-! ### Names of levels -/

theorem LogLevel.mem_all (l : LogLevel) : l ∈ all := by cases l <;> decide

/-- The names of the levels are told by their capitals. -/
theorem LogLevel.plain_name (l : LogLevel) : Text.Plain l.name.toList := by cases l <;> decide +kernel

/-- A level is found for a text iff the text names it, in any case and with or without the dot of an `i`. -/
theorem LogOutput.thresholdOf_eq_ok {text : String} {l : LogLevel} :
    thresholdOf text = .ok l ↔ Text.withDots text.toLower = l.name := by
  constructor
  · intro h
    unfold thresholdOf at h
    split at h
    next l' hfound =>
      obtain rfl : l' = l := Except.ok.inj h
      have hcapitals := List.find?_some hfound
      exact (Text.uppercase_eq_iff l'.plain_name).mp (eq_of_beq hcapitals).symm
    next => cases h
  · intro h
    have hcapitals : Text.uppercase text = Text.uppercase l.name := (Text.uppercase_eq_iff l.plain_name).mpr h
    unfold thresholdOf
    rw [hcapitals]
    cases l <;> rfl

namespace Settings

/-! ### Readers -/

/-- What a reader gives is read as itself when `write` writes it out again, and so is the default. -/
structure Canonical {α : Type} (read : Json → Except SettingFault α) (write : α → Json) (default : α) : Prop where
  again : ∀ {v a}, read v = .ok a → read (write a) = .ok a
  default : read (write default) = .ok default

theorem canonical_string (default : String) : Canonical string .text default := ⟨fun _ => rfl, rfl⟩

theorem string_eq_ok {v : Json} {s : String} : string v = .ok s ↔ v = .text s := by
  cases v with
  | text t => exact ⟨fun h => congrArg _ (Except.ok.inj h), fun h => congrArg _ (Json.text.inj h)⟩
  | _ => exact ⟨nofun, nofun⟩

theorem mem_logLevelNames_iff {capitals : String} :
    capitals ∈ logLevelNames ↔ ∃ l : LogLevel, capitals = Text.uppercase l.name := by
  have hnames : logLevelNames = LogLevel.all.map fun l => Text.uppercase l.name := rfl
  rw [hnames, List.mem_map]
  exact ⟨fun ⟨l, _, h⟩ => ⟨l, h.symm⟩, fun ⟨l, h⟩ => ⟨l, l.mem_all, h.symm⟩⟩

/-- A log level is accepted iff it names a level, in any case and with or without the dot of an `i`. -/
theorem logLevelOf_eq_ok {v : Json} {stored : String} : logLevelOf v = .ok stored ↔
    ∃ text, v = .text text ∧ stored = text.toLower ∧ ∃ l : LogLevel, Text.withDots text.toLower = l.name := by
  rw [logLevelOf, bind_eq_ok]
  refine exists_congr fun text => and_congr string_eq_ok ?_
  have hnamed : Text.uppercase text ∈ logLevelNames ↔ ∃ l : LogLevel, Text.withDots text.toLower = l.name :=
    mem_logLevelNames_iff.trans (exists_congr fun l => Text.uppercase_eq_iff l.plain_name)
  split
  next h => exact ⟨fun hstored => ⟨(Except.ok.inj hstored).symm, hnamed.mp h⟩, fun hstored => by rw [hstored.1]; rfl⟩
  next h => exact ⟨nofun, fun hstored => absurd (hnamed.mpr hstored.2) h⟩

theorem canonical_logLevelOf : Canonical logLevelOf .text "info" where
  again h := by
    obtain ⟨text, -, rfl, hnamed⟩ := logLevelOf_eq_ok.mp h
    exact logLevelOf_eq_ok.mpr ⟨_, rfl, (Text.toLower_toLower text).symm, by rwa [Text.toLower_toLower]⟩
  default := by
    have hsmall : "info".toLower = "info" := (Text.toLower_eq _).trans rfl
    exact logLevelOf_eq_ok.mpr ⟨_, rfl, hsmall.symm, .info, by rw [hsmall]; rfl⟩

theorem logFormatOf_eq_ok {v : Json} {stored : String} : logFormatOf v = .ok stored ↔
    ∃ text, v = .text text ∧ stored = text.toLower ∧ text.toLower ∈ ["json", "pretty"] := by
  rw [logFormatOf, bind_eq_ok]
  refine exists_congr fun text => and_congr string_eq_ok ?_
  split
  next h => exact ⟨fun hstored => ⟨(Except.ok.inj hstored).symm, h⟩, fun hstored => by rw [hstored.1]; rfl⟩
  next h => exact ⟨nofun, fun hstored => absurd hstored.2 h⟩

theorem canonical_logFormatOf : Canonical logFormatOf .text "pretty" where
  again h := by
    obtain ⟨text, -, rfl, hknown⟩ := logFormatOf_eq_ok.mp h
    exact logFormatOf_eq_ok.mpr ⟨_, rfl, (Text.toLower_toLower text).symm, by rwa [Text.toLower_toLower]⟩
  default := by
    have hsmall : "pretty".toLower = "pretty" := (Text.toLower_eq _).trans rfl
    exact logFormatOf_eq_ok.mpr ⟨_, rfl, hsmall.symm, by rw [hsmall]; decide⟩

theorem canonical_detailModeOf : Canonical detailModeOf (fun m => .text m.name) .aggregate where
  again {_ m} _ := by cases m <;> rfl
  default := rfl

theorem canonical_boolOf : Canonical boolOf .bool false := ⟨fun _ => rfl, rfl⟩

theorem zoneOf_eq_ok {v : Json} {stored : String × Zone} :
    zoneOf v = .ok stored ↔ v = .text stored.1 ∧ Zone.ofName? stored.1 = some stored.2 := by
  obtain ⟨name, z⟩ := stored
  rw [zoneOf, bind_eq_ok]
  simp only [string_eq_ok]
  constructor
  · rintro ⟨text, rfl, h⟩
    cases hz : Zone.ofName? text with
    | none =>
        rw [hz] at h
        cases h
    | some z' =>
        rw [hz] at h
        cases h
        exact ⟨rfl, hz⟩
  · rintro ⟨rfl, hz⟩
    exact ⟨name, rfl, by rw [hz]; rfl⟩

theorem canonical_zoneOf : Canonical zoneOf (fun stored => .text stored.1) ("UTC", .utc) where
  again h := zoneOf_eq_ok.mpr ⟨rfl, (zoneOf_eq_ok.mp h).2⟩
  default := zoneOf_eq_ok.mpr ⟨rfl, Zone.ofName?_utc⟩

/-! ### Sources -/

section

variable {α : Type} {sources : Sources} {field : String} {read : Json → Except SettingFault α} {write : α → Json}
  {default a : α}

/-- A setting is its default or what was read, so that it is read as itself. -/
theorem Canonical.reread (h : Canonical read write default) (ha : sources.read field read default = .ok a) :
    read (write a) = .ok a := by
  rw [Sources.read] at ha
  split at ha
  next =>
    obtain rfl : default = a := Except.ok.inj ha
    exact h.default
  next v _ =>
    cases hv : read v with
    | error fault =>
        rw [hv] at ha
        cases ha
    | ok b =>
        rw [hv] at ha
        obtain rfl : b = a := Except.ok.inj ha
        exact h.again hv

theorem read_given {given : Fields} {environment : List (String × String)} {file : String} {v : Json}
    (hgiven : given.lookup field = some v) (hread : read v = .ok a) :
    (Sources.mk given environment file).read field read default = .ok a := by
  have hvalue : (Sources.mk given environment file).value? field = some v := by
    rw [Sources.value?, hgiven, Option.some_or]
  rw [Sources.read, hvalue]
  dsimp only
  rw [hread]
  rfl

end

theorem load_eq_ok {sources : Sources} {s : Settings} : load sources = .ok s ↔
    sources.read "environment" string "development" = .ok s.environment ∧
    sources.read "service_name" string "arrears-core" = .ok s.serviceName ∧
    sources.read "log_level" logLevelOf "info" = .ok s.logLevel ∧
    sources.read "log_format" logFormatOf "pretty" = .ok s.logFormat ∧
    sources.read "usage_detail_mode" detailModeOf .aggregate = .ok s.detailMode ∧
    sources.read "usage_zero_amount_disabled" boolOf false = .ok s.zeroAmountDisabled ∧
    sources.read "account_time_zone" zoneOf ("UTC", .utc) = .ok (s.zoneName, s.zone) := by
  unfold load
  dsimp only
  split
  next h₁ h₂ h₃ h₄ h₅ h₆ h₇ =>
    rw [h₁, h₂, h₃, h₄, h₅, h₆, h₇]
    obtain ⟨⟩ := s
    simp only [Except.ok.injEq, Settings.mk.injEq, Prod.mk.injEq]
  next hfaulty =>
    refine ⟨nofun, fun h => ?_⟩
    obtain ⟨h₁, h₂, h₃, h₄, h₅, h₆, h₇⟩ := h
    exact absurd h₇ (hfaulty _ _ _ _ _ _ _ _ h₁ h₂ h₃ h₄ h₅ h₆)

/-! ### Accepted settings -/

/-- The stored values, as they would be given again. -/
def stored (s : Settings) : Fields := [
  ("environment", .text s.environment),
  ("service_name", .text s.serviceName),
  ("log_level", .text s.logLevel),
  ("log_format", .text s.logFormat),
  ("usage_detail_mode", .text s.detailMode.name),
  ("usage_zero_amount_disabled", .bool s.zeroAmountDisabled),
  ("account_time_zone", .text s.zoneName)]

section

variable {sources : Sources} {s : Settings}

/-- Accepted settings are accepted again, and stay as they are. -/
theorem load_stored (h : load sources = .ok s) (environment : List (String × String)) (file : String) :
    load ⟨s.stored, environment, file⟩ = .ok s := by
  obtain ⟨henvironment, hservice, hlevel, hformat, hmode, hzero, hzone⟩ := load_eq_ok.mp h
  refine load_eq_ok.mpr ⟨read_given ?_ ((canonical_string _).reread henvironment),
    read_given ?_ ((canonical_string _).reread hservice), read_given ?_ (canonical_logLevelOf.reread hlevel),
    read_given ?_ (canonical_logFormatOf.reread hformat), read_given ?_ (canonical_detailModeOf.reread hmode),
    read_given ?_ (canonical_boolOf.reread hzero), read_given ?_ (canonical_zoneOf.reread hzone)⟩ <;>
    simp [stored, List.lookup_cons]

/-- The stored level is the name of a level but for the dots. -/
theorem exists_level_of_load (h : load sources = .ok s) :
    ∃ l : LogLevel, Text.withDots s.logLevel = l.name ∧ LogOutput.thresholdOf s.logLevel = .ok l := by
  obtain ⟨-, -, hlevel, -⟩ := load_eq_ok.mp h
  obtain ⟨text, htext, hsmall, l, hl⟩ := logLevelOf_eq_ok.mp (canonical_logLevelOf.reread hlevel)
  obtain rfl : s.logLevel = text := Json.text.inj htext
  exact ⟨l, by rwa [← hsmall] at hl, LogOutput.thresholdOf_eq_ok.mpr hl⟩

theorem logFormat_of_load (h : load sources = .ok s) : s.logFormat ∈ ["json", "pretty"] := by
  obtain ⟨-, -, -, hformat, -⟩ := load_eq_ok.mp h
  obtain ⟨text, htext, hsmall, hknown⟩ := logFormatOf_eq_ok.mp (canonical_logFormatOf.reread hformat)
  rwa [hsmall]

theorem ofName_of_load (h : load sources = .ok s) : Zone.ofName s.zoneName = .ok s.zone := by
  obtain ⟨-, -, -, -, -, -, hzone⟩ := load_eq_ok.mp h
  exact Zone.ofName_eq_ok.mpr (zoneOf_eq_ok.mp (canonical_zoneOf.reread hzone)).2

/-- A level that is one of the names but for the dots is one of them iff no dot is missing. -/
theorem mem_names_iff {level : String} {l : LogLevel} (h : Text.withDots level = l.name) :
    level ∈ ["debug", "info", "warning", "error", "critical"] ↔ 'ı' ∉ level.toList := by
  have hdots : ∀ name ∈ ["debug", "info", "warning", "error", "critical"], 'ı' ∉ name.toList := by decide
  have hnames : l.name ∈ ["debug", "info", "warning", "error", "critical"] := by cases l <;> decide
  refine ⟨hdots level, fun hdotted => ?_⟩
  rwa [← h, Text.withDots_of_notMem hdotted] at hnames

end

/-- A setup that leaves everything to the settings takes their level, and is machine readable in production and
where they ask for it. -/
theorem setup_of_settings {s : Settings} {l : LogLevel} (h : LogOutput.thresholdOf s.logLevel = .ok l)
    (o : LogOutput) : ∃ format lines, o.setup ⟨none, none, none⟩ (.ok s) =
      ({ o with serviceName := s.serviceName, configuration := some ⟨l, format⟩ }, .ok lines) ∧
      (format = .json ↔ s.isProduction ∨ s.logFormat = "json") := by
  let asked : LogOutput.Resolved := ⟨s.logLevel, if s.isProduction then "json" else s.logFormat, s.serviceName⟩
  have hasked : LogOutput.resolve ⟨none, none, none⟩ (.ok s) = .ok asked := rfl
  obtain ⟨hstate, lines, hlines⟩ := LogOutput.setup_of_known_level (o := o) hasked h
  refine ⟨(LogOutput.configurationOf asked l).format, lines, Prod.ext hstate hlines, ?_⟩
  have hformat : (LogOutput.configurationOf asked l).format = .json ↔ asked.format = "json" := by
    unfold LogOutput.configurationOf
    split
    next hjson => exact iff_of_true rfl hjson
    next hother => exact iff_of_false nofun hother
  rw [hformat]
  show (if s.isProduction then "json" else s.logFormat) = "json" ↔ _
  split
  next hproduction => exact iff_of_true rfl (.inl hproduction)
  next hproduction => exact ⟨.inr, fun hjson => hjson.resolve_left hproduction⟩

/-- Accepted settings are safe to build on. The log format is one of the two; all values are accepted again as
they are, whatever the environment and the file hold; the time zone is found; and a setup of log output that is
left to them succeeds, takes the level that the stored one names and is machine readable in production and where
the stored format is `json`. The stored level names a level, and it is the name itself iff no `i` in it lacks the
dot. -/
theorem accepted_settings_safe {sources : Sources} {s : Settings} (h : load sources = .ok s) :
    (s.logLevel ∈ ["debug", "info", "warning", "error", "critical"] ↔ 'ı' ∉ s.logLevel.toList) ∧
    s.logFormat ∈ ["json", "pretty"] ∧
    (∀ environment file, load ⟨s.stored, environment, file⟩ = .ok s) ∧
    Zone.ofName s.zoneName = .ok s.zone ∧
    ∃ level : LogLevel, Text.withDots s.logLevel = level.name ∧ ∀ o : LogOutput, ∃ format lines,
      o.setup ⟨none, none, none⟩ (.ok s) =
        ({ o with serviceName := s.serviceName, configuration := some ⟨level, format⟩ }, .ok lines) ∧
      (format = .json ↔ s.isProduction ∨ s.logFormat = "json") := by
  obtain ⟨level, hlevel, hthreshold⟩ := exists_level_of_load h
  exact ⟨mem_names_iff hlevel, logFormat_of_load h, load_stored h, ofName_of_load h, level, hlevel,
    setup_of_settings hthreshold⟩

namespace Sample

/-- A level without the dot on its `i`, given in an environment of production. -/
def sources : Sources := ⟨[("log_level", .text "Warnıng")], [("ARREARS_ENVIRONMENT", "PROD")], ""⟩

def settings : Settings :=
  ⟨"PROD", "arrears-core", "warnıng", "pretty", .aggregate, false, "UTC", .utc⟩

theorem readVariables_empty : readVariables "" = [] := by
  have htrimmed : "".trimAscii.toString = "" := by
    have hstart : "".toSlice.trimAsciiStart.copy = "" := by
      rw [String.Slice.copy_eq_empty_iff, String.Slice.trimAsciiStart, String.Slice.isEmpty_dropWhile]
      simp
    show "".trimAscii.copy = ""
    rw [String.trimAscii, String.Slice.trimAscii, String.Slice.trimAsciiEnd, String.Slice.copy_eq_empty_iff,
      String.Slice.isEmpty_dropEndWhile]
    simp [hstart]
  have hlines : "".splitOn "\n" = [""] := by cbv
  rw [readVariables, hlines, List.filterMap_cons_none, List.filterMap_nil]
  rw [readVariable, htrimmed]
  rfl

theorem value?_sources (field : String) :
    sources.value? field = (sources.given.lookup field).or (variableFor sources.environment field) := by
  have hfile : variableFor (readVariables sources.file) field = none := by
    show variableFor (readVariables "") field = none
    rw [readVariables_empty]
    rfl
  rw [Sources.value?, hfile, Option.or_none]

theorem load_sources : load sources = .ok settings := by
  rw [load_eq_ok]
  simp only [Sources.read, value?_sources]
  decide +kernel

end Sample

theorem accepted_settings_safe_dotless : load Sample.sources = .ok Sample.settings ∧
    Sample.settings.logLevel ∉ ["debug", "info", "warning", "error", "critical"] ∧
    load ⟨Sample.settings.stored, [], ""⟩ = .ok Sample.settings ∧
    ∃ lines, LogOutput.fresh.setup ⟨none, none, none⟩ (.ok Sample.settings) =
      (⟨some ⟨.warning, .json⟩, "arrears-core", .empty⟩, .ok lines) := by
  obtain ⟨hname, -, hagain, -, level, hlevel, hsetup⟩ := accepted_settings_safe Sample.load_sources
  obtain ⟨format, lines, hlines, hformat⟩ := hsetup LogOutput.fresh
  obtain rfl : level = .warning := by
    revert hlevel
    cases level <;> decide
  obtain rfl : format = .json := hformat.mpr (.inl (by rw [isProduction, Text.toLower_eq]; rfl))
  exact ⟨Sample.load_sources, fun hmem => hname.mp hmem (by decide), hagain [] "", lines, hlines⟩

/-- A level that lacks a dot is accepted, and stored without it. -/
theorem dotless_level_is_stored : ¬ ∀ (sources : Sources) (s : Settings), load sources = .ok s →
    s.logLevel ∈ ["debug", "info", "warning", "error", "critical"] := by
  intro h
  have hmem := h Sample.sources Sample.settings Sample.load_sources
  revert hmem
  decide

end Settings
end UsageBilling
