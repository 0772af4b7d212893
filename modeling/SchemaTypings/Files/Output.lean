import SchemaTypings.Files.Models
import SchemaTypings.Json.Printer

/-!
Files that a run writes. A write makes the directories above the file; the file is emptied before
its text is encoded, so that a text without an encoding leaves it empty, and a device that fails
leaves a first part of the text.
-/

namespace SchemaTypings

/-- A file tree and what became of an operation on it. -/
structure Effect (α : Type) where
  tree : FileTree
  outcome : Logged Error α

namespace Output

/-- The line endings that a file can have; an empty one stands for a plain line feed. -/
def lineEndings : List Text := ["", "\n", "\r", "\r\n"]

/-- The tree with `text` at `path`, each line feed written as `ending`, and what became of it. -/
def write (tree : FileTree) (path : PathName) (text : Text) (ending : Text) : Effect Unit :=
  match tree.makeDirectories path.parent with
  | (tree, .error e) => ⟨tree, Logged.fail e⟩
  | (tree, .ok ()) =>
    match tree.openFile path with
    | .error e => ⟨tree, Logged.fail e⟩
    | .ok place =>
      if !(lineEndings.contains ending) then ⟨tree.set place (.file []), Logged.fail .notAChoice⟩
      else
        match Utf8.encode? (if ending.isEmpty then text else text.withLineEnds ending) with
        | none => ⟨tree.set place (.file []), Logged.fail .unencodable⟩
        | some bytes =>
          ⟨tree.set place (.file (tree.stored place bytes)),
            match tree.device place bytes with
            | none => Models.note .debug ("Wrote " ++ path.toText)
            | some failure => Logged.fail (.system failure.error)⟩

/-- A report as the text of a JSON file. -/
def jsonText (value : Literal) : Text := value.json ++ "\n"

/-- The directories for the intermediate results of a run. -/
def debugDirectories : List Text := ["json-raw", "json-clean", "typedefs"]

end Output

end SchemaTypings
