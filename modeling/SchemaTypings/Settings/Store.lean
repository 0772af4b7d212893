import SchemaTypings.Files.Tree
import SchemaTypings.Json.Printer
import SchemaTypings.Json.Reader
import SchemaTypings.Settings

/-!
Settings from the defaults of a language, a file and overrides, each counting over the one before,
and settings written to a file.
-/

namespace SchemaTypings

namespace Settings

/-- The entries of a settings file. -/
def readFile (tree : FileTree) (path : PathName) : Except Error (Entries Literal) := do
  if !(← tree.has path) then
    throw (.settings ("Configuration file not found: " ++ path.toText))
  if path.suffix.lower ≠ ".json" then
    throw (.settings ("Configuration file must be JSON: " ++ path.toText))
  match tree.readText path with
  | .error (.system e) =>
    throw (.settings ("Failed to load configuration file " ++ path.toText ++ ": " ++ e.message))
  | .error e => throw e
  | .ok none => throw .undecodable
  | .ok (some text) =>
    match Json.read text with
    | .error f =>
      throw (.settings ("Invalid JSON in configuration file " ++ path.toText ++ ": " ++
        f.described text))
    | .ok (.object entries) => pure entries
    | .ok _ =>
      throw (.settings ("Configuration file must contain a JSON object: " ++ path.toText))

/-- The settings for a language from its defaults, a file if one is named, and overrides. -/
def merge (tree : FileTree) (language : Text) (overrides : Entries Literal) (file : Option Text) :
    Except Error Settings := do
  let given ← match file with
    | some name => if name.isEmpty then pure [] else readFile tree (PathName.ofText name)
    | none => pure []
  ofEntries (((defaults language).update given).update overrides)

/-- The same, but invalid settings are refused. -/
def load (tree : FileTree) (language : Text) (overrides : Entries Literal) (file : Option Text) :
    Except Error Settings := do
  let settings ← merge tree language overrides file
  let problems ← settings.problems language
  if problems.isEmpty then pure settings else throw (.settings (Text.join "; " problems))

/-- The text of a settings file: custom settings stand beside the others. -/
def fileText (settings : Settings) : Except Error Text := do
  let custom ← settings.customDictionary
  pure (Literal.ofDictionary ((Dictionary.ofEntries settings.entries).update custom)).json

/-- A refused save, told with the path of the file. -/
def failedSave (path : PathName) (e : SystemError) : Error :=
  .settings ("Failed to save configuration to " ++ path.toText ++ ": " ++ e.message)

/-- The tree in which `path` holds the settings. -/
def save (tree : FileTree) (settings : Settings) (path : PathName) : Except Error FileTree := do
  let text ← settings.fileText
  match tree.openFile path with
  | .error (.system e) => throw (failedSave path e)
  | .error e => throw e
  | .ok place =>
    match Utf8.encode? text with
    | none => throw .unencodable
    | some bytes =>
      match tree.device place bytes with
      | none => pure (tree.set place (.file bytes))
      | some failure => throw (failedSave path failure.error)

end Settings

end SchemaTypings
