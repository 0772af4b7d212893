import SchemaTypings.Field.Build
import SchemaTypings.Literal.Parser

/-!
The field tree of a declaration in canonical literal text.
-/

namespace SchemaTypings

/-- The error with the file that the text is from. -/
def ReadError.inFile (path : Option Text) (e : ReadError) : ReadError :=
  match path, e with
  | some path, .malformed m => .malformed (m.withPath path)
  | _, e => e

/-- The field tree that literal text denotes; `path` is the file it is from, for messages. -/
def FieldTree.materialize (text : Text) (path : Option Text) : Logged ReadError FieldTree := do
  match ← (Logged.lift (Literal.parse text)).mapError (ReadError.inFile path) with
  | .object entries => do
    let tree ← ofEntries entries []
    let file := match path with
      | some path => if path.isEmpty then ("<source>" : Text) else path
      | none => "<source>"
    Logged.record .debug .materializing
      ("Materialized " ++ Text.ofNat tree.length ++ " field(s) from " ++ file)
    pure tree
  | _ =>
    Logged.fail (.malformed
      ⟨.literal, "Schema definition is not an object literal", path, some text, some 0⟩)

end SchemaTypings
