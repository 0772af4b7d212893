import SchemaTypings.Text.CodePoint

/-!
The switches of the command line: their names, what each takes, and what the help says of it.
-/

namespace SchemaTypings

namespace CommandLine

/-- The meanings of switches. -/
inductive Meaning
  | help
  | version
  | source
  | output
  | settingsFile
  | unformatted
  | errorPolicy
  | debug
  | logLevel
  | logFile
deriving DecidableEq, Repr

/-- What a switch takes. -/
inductive Operand
  | nothing
  | word (called : Text)
  | choice (words : List Text)
deriving DecidableEq, Repr

/-- A switch of the command line. -/
structure Switch where
  meaning : Meaning
  names : List Text
  operand : Operand
  help : Text
deriving DecidableEq, Repr

namespace Switch

/-- The words for what to do after a file fails. -/
def policies : List Text := ["skip", "abort"]

/-- The words for the least level of records. -/
def levels : List Text := ["DEBUG", "INFO", "WARNING", "ERROR", "CRITICAL"]

/-- The switches in groups, each under the title that the help gives it. -/
def groups : List (Text × List Switch) :=
  [("options",
    [⟨.help, ["-h", "--help"], .nothing, "show this help message and exit"⟩,
     ⟨.version, ["-v", "--version"], .nothing, "show program's version number and exit"⟩]),
   ("input and output",
    [⟨.source, ["-s", "--src", "--source"], .word "PATH",
        "Model file or directory (alternative to the positional argument)"⟩,
     ⟨.output, ["-o", "--output"], .word "FILE",
        "Output file (default: <source directory>/index.d.ts)"⟩,
     ⟨.settingsFile, ["--config"], .word "FILE", "JSON configuration file"⟩]),
   ("generation options",
    [⟨.unformatted, ["-n", "--no-format", "--noFormat"], .nothing,
        "Skip the built-in formatting pass"⟩,
     ⟨.errorPolicy, ["--on-error"], .choice policies,
        "Skip files that fail to convert, or abort the whole run (default: skip)"⟩,
     ⟨.debug, ["-d", "--debug"], .nothing,
        "Write intermediate artifacts to the debug directory"⟩]),
   ("logging",
    [⟨.logLevel, ["--log-level"], .choice levels, "Console log level (default: WARNING)"⟩,
     ⟨.logFile, ["--log-file"], .word "FILE", "Also write full logs to this file"⟩])]

/-- All switches in order. -/
def all : List Switch := groups.flatMap (·.2)

/-- The names of all switches in order, each with its switch. -/
def byName : List (Text × Switch) := all.flatMap fun s => s.names.map fun n => (n, s)

/-- The switch of a name. -/
def named? (name : Text) : Option Switch := (byName.find? fun e => e.1 = name).map (·.2)

/-- The name of what a switch takes. -/
def operandName (s : Switch) : Option Text :=
  match s.operand with
  | .nothing => none
  | .word called => some called
  | .choice words => some ("\x7b" ++ Text.join "," words ++ "\x7d")

/-- A name of a switch with what it takes. -/
def withOperand (s : Switch) (name : Text) : Text :=
  match s.operandName with
  | some operand => name ++ " " ++ operand
  | none => name

/-- All names of a switch, each with what it takes. -/
def forms (s : Switch) : Text := Text.join ", " (s.names.map s.withOperand)

/-- All names of a switch, as complaints call it. -/
def called (s : Switch) : Text := Text.join "/" s.names

end Switch

end CommandLine

end SchemaTypings
