import SchemaTypings.Literal
import SchemaTypings.Text.Quoted
import SchemaTypings.Text.Word

/-!
Literal values as object-literal text, in one canonical form: `{ name: "string", tags: [1, 2] }`.
-/

namespace SchemaTypings

/-- A key as object-literal text: bare if it passes as a name, else quoted. -/
def Text.asKey (key : Text) : Text := if key.passesAsName then key else key.quoted

namespace Literal

mutual

/-- The value as object-literal text. -/
def render : Literal → Text
  | .null => "null"
  | .bool b => if b then "true" else "false"
  | .int i => Text.ofInt i
  | .float x => x.shown
  | .text s => s.quoted
  | .list items => "[" ++ Text.join ", " (renderList items) ++ "]"
  | .object [] => "\x7b\x7d"
  | .object (e :: rest) => "\x7b " ++ Text.join ", " (renderEntries (e :: rest)) ++ " \x7d"

def renderList : List Literal → List Text
  | [] => []
  | v :: rest => v.render :: renderList rest

def renderEntries : List (Text × Literal) → List Text
  | [] => []
  | (k, v) :: rest => (k.asKey ++ ": " ++ v.render) :: renderEntries rest

end

end Literal

end SchemaTypings
