import SchemaTypings.Error
import SchemaTypings.Log
import SchemaTypings.Text.Case

/-!
Which records a run shows and which it keeps: those of a level or above on the terminal, and all of
them in a log file if one is named.
-/

namespace SchemaTypings

/-- The number of a level; a graver level has a higher one. -/
def Level.number : Level → Int
  | .debug => 10
  | .info => 20
  | .warning => 30
  | .error => 40

/-- The words for levels. -/
def levelWords : List (Text × Int) :=
  [("CRITICAL", 50), ("FATAL", 50), ("ERROR", 40), ("WARN", 30), ("WARNING", 30), ("INFO", 20),
    ("DEBUG", 10), ("NOTSET", 0)]

/-- Words that name something of the log, but no level, and what is wrong with each. -/
def otherWords : List (Text × Error) := [("BASIC_FORMAT", .notAChoice), ("_STYLES", .wrongShape)]

/-- The number of a word for a level, in any letter case; that of a warning for a word that names
nothing. -/
def levelOf (word : Text) : Except Error Int :=
  match levelWords.find? fun e => e.1 = word.upper with
  | some e => .ok e.2
  | none =>
    match otherWords.find? fun e => e.1 = word.upper with
    | some e => .error e.2
    | none => .ok Level.warning.number

/-- What is done with the records of a run. -/
structure LogSetup where
  /-- The least level that the terminal shows. -/
  threshold : Int
  /-- Whether there is a log file. -/
  hasFile : Bool
deriving DecidableEq, Repr

namespace LogSetup

/-- The least levels that the terminal and the file take. -/
def thresholds (s : LogSetup) : List Int :=
  if s.hasFile then [s.threshold, Level.debug.number] else [s.threshold]

/-- The least level that anything takes. -/
def lowest (s : LogSetup) : Int := if s.hasFile then Level.debug.number else s.threshold

/-- Whether the terminal shows a record. -/
def shows (s : LogSetup) (r : Record) : Bool := s.threshold ≤ r.level.number

end LogSetup

/-- The name under which a part of the program, or of one that uses it, leaves records. -/
def topicName (name : Text) : Text :=
  if Text.startsWith name Topic.setup.name then name else Topic.setup.name ++ "." ++ name

/-- A record as a line of a log file, but for the time that a log puts in front. -/
def Record.line (r : Record) : Text :=
  r.level.name ++ Text.times (8 - r.level.name.length) ' ' ++ " " ++ r.topic.name ++ ": "
    ++ r.message ++ "\n"

end SchemaTypings
