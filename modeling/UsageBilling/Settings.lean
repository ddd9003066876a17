import UsageBilling.Calendar.Zone
import UsageBilling.Error
import UsageBilling.Invoice
import UsageBilling.Journal
import UsageBilling.Text.Uppercase

/-! Settings of the invoicing, and where they come from: given values win over variables of the
environment, these over the lines of a file of variables, and these over the defaults. -/

namespace UsageBilling

structure Settings where
  environment : String
  serviceName : String
  logLevel : String
  logFormat : String
  detailMode : DetailMode
  zeroAmountDisabled : Bool
  zoneName : String
  zone : Zone
  deriving DecidableEq

namespace Settings

/-- Whether the environment is one in which log output is always machine readable, whatever the case of its
letters. Only ASCII letters change their case: no other character has a small form out of these names. -/
def isProduction (s : Settings) : Bool :=
  s.environment.toLower ∈ ["production", "prod", "staging"]

/-! ### Values -/

def string : Json → Except SettingFault String
  | .text s => .ok s
  | _ => .error .notAString

/-- The names of the log levels, in capitals. -/
def logLevelNames : List String := ["DEBUG", "INFO", "WARNING", "ERROR", "CRITICAL"]

/-- A log level: a text whose capitals name one. It is kept in small letters; only ASCII letters
change, since no other letter of such a text has a small form of its own. -/
def logLevelOf (v : Json) : Except SettingFault String := do
  let s ← string v
  if Text.uppercase s ∈ logLevelNames then return s.toLower else throw (.unknownLogLevel s)

/-- A log format, whatever the case of its letters. Here too only ASCII letters change, and no other character
has a small form out of the two names. -/
def logFormatOf (v : Json) : Except SettingFault String := do
  let s ← string v
  if s.toLower ∈ ["json", "pretty"] then return s.toLower else throw (.unknownLogFormat s)

/-- A detail mode, by its exact name. -/
def detailModeOf : Json → Except SettingFault DetailMode
  | .text s => match DetailMode.ofName? s with
    | some m => .ok m
    | none => .error .notADetailMode
  | _ => .error .notADetailMode

/-- The texts that are read as true, and those that are read as false. -/
def trueTexts : List String := ["true", "t", "yes", "y", "on", "1"]

def falseTexts : List String := ["false", "f", "no", "n", "off", "0"]

/-- A boolean: itself, one of its texts whatever the case of the letters, or a whole number 1 or 0. -/
def boolOf : Json → Except SettingFault Bool
  | .bool b => .ok b
  | .text s =>
      if s.toLower ∈ trueTexts then .ok true
      else if s.toLower ∈ falseTexts then .ok false
      else .error .notReadableAsBoolean
  | .number c places =>
      if c = Decimal.pow10 places then .ok true
      else if c = 0 then .ok false
      else if c % Decimal.pow10 places = 0 then .error .notReadableAsBoolean
      else .error .notABoolean
  | _ => .error .notABoolean

/-- A time zone name, kept as it is given, with its zone. -/
def zoneOf (v : Json) : Except SettingFault (String × Zone) := do
  let s ← string v
  match Zone.ofName? s with
  | some z => return (s, z)
  | none => throw (.unknownZone s)

/-! ### Sources -/

def envStart : String := "arrears_"

/-- A line `NAME=value` of a file of variables; blank lines and comments have none. This is the plain form of such
files: quotes, `export` in front of a name, comments behind a value and references to other variables are not
interpreted, and are kept as part of the name or the value. -/
def readVariable (line : String) : Option (String × String) :=
  let cs := line.trimAscii.toString.toList
  if cs.head? = some '#' ∨ '=' ∉ cs then none
  else
    let name := String.ofList (cs.takeWhile (· ≠ '='))
    let value := String.ofList ((cs.dropWhile (· ≠ '=')).drop 1)
    some (name.trimAscii.toString, value.trimAscii.toString)

def readVariables (text : String) : List (String × String) :=
  (text.splitOn "\n").filterMap readVariable

/-- The value that some variables hold for a setting: the last one whose name matches, whatever the
case of its letters. -/
def variableFor (vars : List (String × String)) (field : String) : Option Json :=
  (vars.reverse.find? fun v => v.1.toLower == envStart ++ field).map fun v => .text v.2

/-- Where settings are read from. -/
structure Sources where
  given : Fields
  environment : List (String × String)
  file : String

/-- The raw value of a setting, if any source has one. -/
def Sources.value? (s : Sources) (field : String) : Option Json :=
  (s.given.lookup field).or ((variableFor s.environment field).or
    (variableFor (readVariables s.file) field))

/-- A setting: its default where no source has a value, and otherwise the value read by `read`. -/
def Sources.read {α : Type} (s : Sources) (field : String) (read : Json → Except SettingFault α)
    (default : α) : Except (String × SettingFault) α :=
  match s.value? field with
  | none => .ok default
  | some v => (read v).mapError fun fault => (field, fault)

def faultOf {α : Type} : Except (String × SettingFault) α → List (String × SettingFault)
  | .ok _ => []
  | .error fault => [fault]

/-- Reads the settings. All faults are reported together. -/
def load (s : Sources) : Except Error Settings :=
  let environment := s.read "environment" string "development"
  let serviceName := s.read "service_name" string "arrears-core"
  let logLevel := s.read "log_level" logLevelOf "info"
  let logFormat := s.read "log_format" logFormatOf "pretty"
  let detailMode := s.read "usage_detail_mode" detailModeOf .aggregate
  let zeroAmountDisabled := s.read "usage_zero_amount_disabled" boolOf false
  let zone := s.read "account_time_zone" zoneOf ("UTC", .utc)
  match environment, serviceName, logLevel, logFormat, detailMode, zeroAmountDisabled, zone with
  | .ok environment, .ok serviceName, .ok logLevel, .ok logFormat, .ok detailMode,
      .ok zeroAmountDisabled, .ok (zoneName, zone) =>
      .ok { environment, serviceName, logLevel, logFormat, detailMode, zeroAmountDisabled, zoneName,
            zone }
  | environment, serviceName, logLevel, logFormat, detailMode, zeroAmountDisabled, zone =>
      .error (.settings (faultOf environment ++ faultOf serviceName ++ faultOf logLevel
        ++ faultOf logFormat ++ faultOf detailMode ++ faultOf zeroAmountDisabled ++ faultOf zone))

/-! ### The settings in use -/

/-- The settings in use, once they have been read. -/
abbrev Cache := Option Settings

/-- The settings in use; they are read from the environment and the file of variables when there are none. Also
tells whether they had been read before. Where there is no file, its text is empty. -/
def Cache.get (c : Cache) (environment : List (String × String)) (file : String := "") :
    Except Error (Settings × Bool) × Cache :=
  match c with
  | some s => (.ok (s, true), c)
  | none =>
      match load ⟨[], environment, file⟩ with
      | .ok s => (.ok (s, false), some s)
      | .error e => (.error e, none)

end Settings
end UsageBilling
