import Predistortion.Form.Basic
import Predistortion.Settings.Basic
import Predistortion.Text.Blank

/-!
# Log output

How an application writes the log: the level from which lines are written, their format, and what
they show. The level comes from the settings by name, in any case.
-/

namespace Predistortion

/-- The level of a log line. -/
inductive LogLevel where
  | trace | debug | info | warn | error
deriving DecidableEq, Inhabited

namespace LogLevel

/-- The name shown to users. -/
def label : LogLevel → String
  | .trace => "TRACE"
  | .debug => "DEBUG"
  | .info => "INFO"
  | .warn => "WARN"
  | .error => "ERROR"

/-- The levels by name. -/
def byName : List (String × LogLevel) :=
  [("trace", .trace), ("debug", .debug), ("info", .info), ("warn", .warn), ("error", .error)]

/-- The level with a name, in any case. No letter outside ASCII has a letter of these names as its
lower case, so only ASCII letters are lowered. -/
def ofName? (name : String) : Option LogLevel :=
  byName.lookup (String.ofList (Text.lowerAscii name.toList))

/-- Why a name is refused. -/
def refusal (name : String) : String :=
  s!"Invalid log level '{name}'. Must be one of: " ++ ", ".intercalate logLevelNames

/-- The level with a name, or the refusal of the name. -/
def ofName (name : String) : Except String LogLevel :=
  match ofName? name with
  | some level => .ok level
  | none => .error (refusal name)

end LogLevel

/-- The format of log lines. -/
inductive LogFormat where
  /-- Several coloured lines. -/
  | pretty
  /-- One line without colour. -/
  | compact
  /-- One object on each line. -/
  | json
deriving DecidableEq, Inhabited

instance : Named LogFormat where
  names := [("pretty", .pretty), ("compact", .compact), ("json", .json)]

/-- How the log is written. -/
structure LogOptions where
  /-- The level from which lines are written. -/
  level : LogLevel := .info
  /-- The format. -/
  format : LogFormat := .pretty
  /-- Lines show where they come from. -/
  location : Bool := true
  /-- Lines show the name of the thread. -/
  threadNames : Bool := false
  /-- Pretty lines are coloured. -/
  colour : Bool := true
deriving DecidableEq

namespace LogOptions

/-- The options at the level of some settings. -/
def ofSettings (s : Settings) : Except String LogOptions := do
  return { level := ← LogLevel.ofName s.logLevel }

/-- The options with another format. -/
def withFormat (o : LogOptions) (format : LogFormat) : LogOptions := { o with format }

/-- The options with locations shown or not. -/
def withLocation (o : LogOptions) (location : Bool) : LogOptions := { o with location }

/-- The options with colours or without. -/
def withColour (o : LogOptions) (colour : Bool) : LogOptions := { o with colour }

end LogOptions

end Predistortion
