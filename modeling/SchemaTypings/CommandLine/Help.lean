import SchemaTypings.CommandLine.Switch

/-!
What the program says about itself: its usage, its help and its version.
-/

namespace SchemaTypings

namespace CommandLine

/-- The name of the program. -/
def programName : Text := "mongoose-ts"

/-- The version of the program. -/
def version : Text := "0.1.0"

/-- What the program does. -/
def purpose : Text := "Generate TypeScript interfaces from Mongoose schema declarations"

/-- The name of the argument that is no switch, and what the help says of it. -/
def sourceArgument : Text × Text := ("source", "Model file or directory containing model files")

/-- The usage of the program, on one line. -/
def usage : Text :=
  let bracketed (form : Text) : Text := "[" ++ form ++ "]"
  let switches := Switch.all.map fun s => bracketed (s.withOperand (s.names.headD []))
  "usage: " ++ programName ++ " " ++ Text.join " " (switches ++ [bracketed sourceArgument.1])

/-- The column at which explanations start. -/
def helpColumn : Nat := 24

/-- The lines of an entry of the help: the explanation stands beside the form, or below it where the
form is too wide. -/
def entryLines (form help : Text) : List Text :=
  let start : Text := "  " ++ form
  if start.length + 2 ≤ helpColumn then
    [start ++ Text.times (helpColumn - start.length) ' ' ++ help]
  else [start, Text.times helpColumn ' ' ++ help]

/-- A group of entries under its title. -/
def groupLines (title : Text) (entries : List (Text × Text)) : List Text :=
  ([[], title ++ ":"] : List Text) ++ entries.flatMap fun e => entryLines e.1 e.2

/-- The help of the program. -/
def helpText : Text :=
  Text.join "\n" ([usage, [], purpose] ++ groupLines "positional arguments" [sourceArgument]
    ++ Switch.groups.flatMap fun g => groupLines g.1 (g.2.map fun s => (s.forms, s.help)))

/-- The name and the version of the program. -/
def versionText : Text := programName ++ " " ++ version

end CommandLine

end SchemaTypings
