import UsageBilling.Settings

/-! Log output: the configuration in force, the fields bound around log lines, and the lines as they
are written. A line carries its own fields over the bound ones; its level and logger win over both,
and the name of the service is added where neither has one. -/

namespace UsageBilling

/-! ### Bound fields -/

/-- What a key was bound to before a block was entered. -/
structure Shadowed where
  key : String
  before : Option Json

/-- The fields bound now, and for each block entered, the innermost first, what it has shadowed. -/
structure LogContext where
  bound : Fields
  blocks : List (List Shadowed)

namespace LogContext

def empty : LogContext := ⟨[], []⟩

def enter (c : LogContext) (fields : Fields) : LogContext :=
  ⟨c.bound.overlay fields, (fields.map fun f => ⟨f.1, c.bound.lookup f.1⟩) :: c.blocks⟩

/-- Gives a key back what it was bound to. -/
def restore (bound : Fields) (s : Shadowed) : Fields :=
  match s.before with
  | some value => bound.set s.key value
  | none => bound.erase s.key

/-- Leaves the innermost block. -/
def exit (c : LogContext) : LogContext :=
  match c.blocks with
  | [] => c
  | shadowed :: blocks => ⟨shadowed.foldl restore c.bound, blocks⟩

end LogContext

/-! ### Configuration -/

/-- The form of the lines written. -/
inductive LogFormat where
  | json
  | console
  deriving DecidableEq

/-- The level from which lines are written, and their form. -/
structure LogConfiguration where
  threshold : LogLevel
  format : LogFormat
  deriving DecidableEq

/-- What a setup asks for; what is left out is taken from the settings. -/
structure SetupRequest where
  level : Option String
  format : Option String
  serviceName : Option String
  deriving DecidableEq

/-- The state of log output: no line can be written before the first setup. -/
structure LogOutput where
  configuration : Option LogConfiguration
  serviceName : String
  context : LogContext

/-- A written line: an object, or text for the console. The time of writing is not part of it. -/
inductive LogLine where
  | object (fields : Fields)
  | console (text : String)

namespace LogOutput

def fresh : LogOutput := ⟨none, "arrears-core", .empty⟩

/-! ### Lines -/

/-- A text filled up with blanks to a width. -/
def filled (width : Nat) (text : String) : String :=
  text ++ String.ofList (List.replicate (width - text.length) ' ')

mutual

/-- A value as the console shows it within lists and objects. -/
def literal : Json → String
  | .null => "None"
  | .bool true => "True"
  | .bool false => "False"
  | .number c p => String.ofList (Json.numberText c p)
  | .text s => Text.quoted s
  | .list xs => "[" ++ literals xs ++ "]"
  | .object fields => "\x7b" ++ literalFields fields ++ "\x7d"

def literals : List Json → String
  | [] => ""
  | [x] => literal x
  | x :: y :: rest => literal x ++ ", " ++ literals (y :: rest)

def literalFields : List (String × Json) → String
  | [] => ""
  | [(k, v)] => Text.quoted k ++ ": " ++ literal v
  | (k, v) :: f :: rest => Text.quoted k ++ ": " ++ literal v ++ ", " ++ literalFields (f :: rest)

end

/-- The characters for which the console puts a text into quotes. -/
def needsQuotes (c : Char) : Bool := c ∈ [' ', '\t', '=', '\r', '\n', '"', '\'']

/-- A value as the console shows it: words bare, other texts in quotes. -/
def consoleValue : Json → String
  | .text s => if s.toList.any needsQuotes then Text.quoted s else s
  | v => literal v

/-- The console form of a line: level and event in columns, the logger, and the fields by key. -/
def consoleLine (level : LogLevel) (logger event : String) (fields : Fields) : String :=
  let sorted := fields.mergeSort fun a b => decide (a.1 ≤ b.1)
  let rest := sorted.map fun f => " " ++ f.1 ++ "=" ++ consoleValue f.2
  "[" ++ filled 9 level.name ++ "] " ++ filled 30 event ++ " [" ++ logger ++ "]" ++ String.join rest

/-- The name a logger is shown by; the nameless one is the root of all. -/
def loggerName (logger : String) : String := if logger = "" then "root" else logger

/-- All the fields of a line other than its time. -/
def lineFields (o : LogOutput) (logger : String) (level : LogLevel) (event : String)
    (fields : Fields) : Fields :=
  let own := Fields.set fields "event" (.text event)
  let merged := o.context.bound.overlay own
  let named := (merged.set "logger" (.text (loggerName logger))).set "level" (.text level.name)
  if named.any (·.1 == "service") then named else named.set "service" (.text o.serviceName)

/-- The lines that one log call writes: none below the threshold or without a configuration. -/
def log (o : LogOutput) (logger : String) (level : LogLevel) (event : String) (fields : Fields) :
    List LogLine :=
  match o.configuration with
  | none => []
  | some c =>
      if level.rank < c.threshold.rank then []
      else
        let all := o.lineFields logger level event fields
        match c.format with
        | .json => [.object all]
        | .console =>
            let rest := ["event", "logger", "level", "timestamp"].foldl Fields.erase all
            [.console (consoleLine level (loggerName logger) event rest)]

/-! ### Setup -/

/-- A request with nothing left out: level, format and service name. -/
structure Resolved where
  level : String
  format : String
  serviceName : String

/-- A text that was asked for, or another where none or an empty one was. -/
def orElse (asked : Option String) (other : String) : String :=
  match asked with
  | some s => if s = "" then other else s
  | none => other

/-- Completes a request. The settings are looked at only when something is left out; then empty texts
are replaced from them as well. -/
def resolve (r : SetupRequest) (settings : Except Error Settings) : Except Error Resolved :=
  match r.level, r.format, r.serviceName with
  | some level, some format, some serviceName => .ok ⟨level, format, serviceName⟩
  | level, format, serviceName => do
      let s ← settings
      return {
        level := orElse level s.logLevel
        format := orElse format (if s.isProduction then "json" else s.logFormat)
        serviceName := orElse serviceName s.serviceName }

/-- The level that a text names, whatever the case of its letters. -/
def thresholdOf (text : String) : Except Error LogLevel :=
  match LogLevel.all.find? fun l => Text.uppercase l.name == Text.uppercase text with
  | some l => .ok l
  | none => .error (.unknownLogLevel (Text.uppercase text))

/-- The logger of the setup itself. -/
def ownLogger : String := "arrears_core.core.logging"

/-- Configures log output and logs that. The service name is changed before the level is looked at. -/
def setup (o : LogOutput) (r : SetupRequest) (settings : Except Error Settings) :
    LogOutput × Except Error (List LogLine) :=
  match resolve r settings with
  | .error e => (o, .error e)
  | .ok q =>
      let renamed := { o with serviceName := q.serviceName }
      match thresholdOf q.level with
      | .error e => (renamed, .error e)
      | .ok threshold =>
          let format : LogFormat := if q.format = "json" then .json else .console
          let configured := { renamed with configuration := some ⟨threshold, format⟩ }
          (configured, .ok (configured.log ownLogger .info "logging_configured"
            [("level", .text q.level), ("format", .text q.format)]))

end LogOutput
end UsageBilling
