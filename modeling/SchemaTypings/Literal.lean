import SchemaTypings.Entries
import SchemaTypings.Number.Shortest

/-!
Literal values: what object-literal text and JSON text denote. Integers have any size and stay apart
from floating-point numbers; an object keeps the order of its entries.
-/

namespace SchemaTypings

/-- A literal value. -/
inductive Literal
  | null
  | bool (b : Bool)
  | int (i : Int)
  | float (x : Binary64)
  | text (s : Text)
  | list (items : List Literal)
  | object (entries : List (Text × Literal))

namespace Literal

instance : Inhabited Literal := ⟨.null⟩

/-- Whether the value counts as true where any value may stand for a yes or no: all do but null,
false, zero, and what is empty. -/
def isTruthy : Literal → Bool
  | .null => false
  | .bool b => b
  | .int i => i ≠ 0
  | .float x => x.isNonzero
  | .text s => !s.isEmpty
  | .list items => !items.isEmpty
  | .object entries => !entries.isEmpty

/-- The text of a text value. -/
def text? : Literal → Option Text
  | .text s => some s
  | _ => none

def isText : Literal → Bool
  | .text _ => true
  | _ => false

/-- A number; the two truth values are none. -/
def isNumber : Literal → Bool
  | .int _ => true
  | .float _ => true
  | _ => false

/-- The integer of an integer or a truth value. -/
def integer? : Literal → Option Int
  | .int i => some i
  | .bool b => some (if b then 1 else 0)
  | _ => none

/-- Equality of texts and of numbers by their value, so that 1 and 1.0 are the same. -/
def sameScalar : Literal → Literal → Bool
  | .text s, .text t => s = t
  | .int i, .int j => i = j
  | .int i, .float x => x.isInteger i
  | .float x, .int i => x.isInteger i
  | .float x, .float y => x.sameValue y
  | _, _ => false

end Literal

end SchemaTypings
