import SchemaTypings.Literal
import SchemaTypings.Text.Quoted

/-!
Literal values as messages show them: `None`, `True`, `{'a': [1, 'x']}`.
-/

namespace SchemaTypings

namespace Literal

mutual

/-- The value as messages show it. -/
def shown : Literal → Text
  | .null => "None"
  | .bool b => if b then "True" else "False"
  | .int i => Text.ofInt i
  | .float x => x.shown
  | .text s => s.shown
  | .list items => "[" ++ Text.join ", " (shownList items) ++ "]"
  | .object entries => "\x7b" ++ Text.join ", " (shownEntries entries) ++ "\x7d"

def shownList : List Literal → List Text
  | [] => []
  | v :: rest => v.shown :: shownList rest

def shownEntries : List (Text × Literal) → List Text
  | [] => []
  | (k, v) :: rest => (k.shown ++ ": " ++ v.shown) :: shownEntries rest

end

/-- The value inside a sentence: a text as it is, anything else as shown. -/
def said : Literal → Text
  | .text s => s
  | v => v.shown

end Literal

end SchemaTypings
