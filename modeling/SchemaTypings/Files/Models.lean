import SchemaTypings.Files.Tree
import SchemaTypings.Log

/-!
Model files: which files of a tree are models, in one order that does not depend on how directories
are listed, and the text of one. Hidden directories and installed packages are left out, and so are
declaration files.
-/

namespace SchemaTypings

namespace Models

/-- Whether a directory of this name is never searched. -/
def isSkipped (name : Text) : Bool := name = "node_modules" || Text.startsWith name "."

/-- Whether a file at a place below the searched directory is a model. -/
def isWanted (place : Place) : Bool :=
  !(place.dropLast.any isSkipped) && PathName.isModel ⟨[], place⟩

/-- Leaves a record about files. -/
def note {ε : Type} (level : Level) (message : Text) : Logged ε Unit :=
  Logged.record level .files message

/-- The model files of a directory, in the order of their path names. -/
def inDirectory (tree : FileTree) (source : PathName) (place : Place) : List PathName :=
  let found := (tree.below place).filterMap fun (place, node) =>
    match node with
    | .file _ =>
      if isWanted place then some (⟨source.root, source.parts ++ place⟩ : PathName) else none
    | .directory => none
  found.mergeSort fun p q => Text.le p.toText q.toText

/-- The model files of a file or a directory. -/
def collect (tree : FileTree) (source : PathName) : Logged Error (List PathName) := do
  note .debug ("Collecting model files from " ++ source.toText)
  match ← tree.probe source with
  | none => do
    note .error ("Source not found: " ++ source.toText)
    Logged.fail (.missingSource source.toText)
  | some (_, .file _) => do
    if !source.isModel then
      note .warning ("File does not look like a JS/TS model: " ++ source.toText)
    pure [source]
  | some (place, .directory) => do
    let found := inDirectory tree source place
    note .info
      ("Found " ++ Text.ofNat found.length ++ " model file(s) in " ++ source.toText)
    pure found

/-- The text of a model file. -/
def load (tree : FileTree) (path : PathName) : Logged Error Text := do
  note .debug ("Reading model file: " ++ path.toText)
  match tree.readText path with
  | .ok (some text) => pure text
  | .ok none => do
    let message : Text := "File is not UTF-8 text: " ++ path.toText
    note .error message
    Logged.fail (.source message)
  | .error (.system e) => do
    let message : Text := "Error reading file " ++ path.toText ++ ": " ++ e.message
    note .error message
    Logged.fail (.source message)
  | .error e => Logged.fail e

/-- Where the combined declarations of a file or a directory go, if nothing else is said. -/
def defaultOutput (tree : FileTree) (source : PathName) : Except Error PathName := do
  let directory := if ← tree.isFile source then source.parent else source
  pure (directory.child "index.d.ts")

end Models

end SchemaTypings
