import SchemaTypings.Literal
import SchemaTypings.Text.Case
import SchemaTypings.Text.Quoted

/-!
Fields of a schema and ordered trees of them. A field's kind says which of its parts count: the base
type of a plain field, the child of an array or a nested object, the target of a reference, the
values of an enumeration.
-/

namespace SchemaTypings

/-- The structural kinds of field. -/
inductive FieldKind
  | primitive
  | array
  | nested
  | enumeration
  | reference
deriving DecidableEq, Repr

/-- The built-in types. -/
inductive BaseType
  | string
  | number
  | boolean
  | date
  | objectId
  | decimal128
  | mixed
deriving DecidableEq, Repr

/-- The name of a kind in reports. -/
def FieldKind.label : FieldKind → Text
  | .primitive => "primitive"
  | .array => "array"
  | .nested => "nested"
  | .enumeration => "enum"
  | .reference => "reference"

/-- The kinds in order. -/
def FieldKind.all : List FieldKind := [.primitive, .array, .nested, .enumeration, .reference]

/-- The kind of a name in reports. -/
def FieldKind.ofLabel? (label : Text) : Option FieldKind := all.find? (·.label = label)

/-- The tag of a built-in type. -/
def BaseType.tag : BaseType → Text
  | .string => "string"
  | .number => "number"
  | .boolean => "boolean"
  | .date => "Date"
  | .objectId => "ObjectId"
  | .decimal128 => "Decimal128"
  | .mixed => "Mixed"

/-- The built-in types in order. -/
def BaseType.all : List BaseType :=
  [.string, .number, .boolean, .date, .objectId, .decimal128, .mixed]

/-- The built-in type of a tag. -/
def BaseType.ofTag? (tag : Text) : Option BaseType := all.find? (·.tag = tag)

/-- The built-in type of a tag in any letter case. -/
def BaseType.ofName? (name : Text) : Option BaseType :=
  all.find? fun base => Text.lower base.tag = Text.lower name

/-- What an array or a nested object holds. -/
inductive Child (α : Type)
  | nothing
  | element (field : α)
  | fields (tree : List α)

/-- A field of a schema. -/
structure Field where
  name : Text
  kind : FieldKind
  required : Bool := true
  base : Option BaseType := none
  child : Child Field := .nothing
  target : Option Text := none
  viaRef : Bool := false
  literals : List Literal := []

/-- Fields in the order of their declaration, at most one of a name. -/
abbrev FieldTree := List Field

namespace FieldTree

/-- The names in order. -/
def names (tree : FieldTree) : List Text := tree.map (·.name)

/-- The field of a name. -/
def get? (tree : FieldTree) (name : Text) : Option Field := tree.find? (·.name = name)

def contains (tree : FieldTree) (name : Text) : Bool := (get? tree name).isSome

/-- `field` at the end, in place of one of its name. -/
def add (tree : FieldTree) (field : Field) : FieldTree :=
  tree.filter (fun (f : Field) => decide (f.name ≠ field.name)) ++ [field]

/-- The tree as messages show it. -/
def shown (tree : FieldTree) : Text :=
  "FieldTree(" ++ "[" ++ Text.join ", " (tree.names.map Text.shown) ++ "]" ++ ")"

@[simp] theorem names_add (tree : FieldTree) (field : Field) :
    names (tree.add field) = (names tree).filter (· ≠ field.name) ++ [field.name] := by
  simp [names, add, List.filter_map, Function.comp_def]

end FieldTree

/-- The literal of an optional text. -/
def Literal.ofText? : Option Text → Literal
  | some s => .text s
  | none => .null

mutual

/-- The field as a report shows it. -/
def Field.report : Field → Literal
  | ⟨_, kind, required, base, child, target, viaRef, literals⟩ =>
    let head : Entries Literal := [("kind", .text kind.label), ("required", .bool required)]
    let type : Entries Literal :=
      (base.map fun b : BaseType => (("type" : Text), .text b.tag)).toList
    .object (head ++ type ++ match kind with
      | .primitive => []
      | .reference => [("target", .ofText? target), ("via_ref", .bool viaRef)]
      | .enumeration => [("values", .list literals)]
      | .array => childReport "element" child
      | .nested => childReport "fields" child)

/-- What a field holds, under `key`. -/
def childReport (key : Text) : Child Field → Entries Literal
  | .nothing => []
  | .element field => [(key, field.report)]
  | .fields tree => [(key, .object (treeReport tree))]

/-- The entries of a tree's report. -/
def treeReport : List Field → Entries Literal
  | [] => []
  | field :: rest => (field.name, field.report) :: treeReport rest

end

/-- The tree as a report shows it. -/
def FieldTree.report (tree : FieldTree) : Literal := .object (treeReport tree)

mutual

/-- The levels of objects below a field, if its parts have the shape of its kind. -/
def Field.levels? : Field → Option Nat
  | ⟨_, kind, _, _, child, _, _, _⟩ =>
    match kind with
    | .array => elementLevels? child
    | .nested => objectLevels? child
    | _ => some 0

def elementLevels? : Child Field → Option Nat
  | .nothing => some 0
  | .element field => field.levels?
  | .fields _ => none

def objectLevels? : Child Field → Option Nat
  | .nothing => some 0
  | .element _ => none
  | .fields tree => (treeLevels? tree).map (· + 1)

def treeLevels? : List Field → Option Nat
  | [] => some 0
  | field :: rest => do
    let below ← field.levels?
    let others ← treeLevels? rest
    pure (max below others)

end

/-- How deep objects nest in a tree whose own level counts as `level`. -/
def FieldTree.depth? (tree : FieldTree) (level : Int) : Option Int :=
  (treeLevels? tree).map fun n => level + n

mutual

/-- Equality of fields; numbers among the values are equal if their values are. -/
def Field.same : Field → Field → Bool
  | ⟨n, k, r, b, c, t, v, l⟩, ⟨n', k', r', b', c', t', v', l'⟩ =>
    n = n' && k = k' && r = r' && b = b' && childSame c c' && t = t' && v = v' &&
      l.length = l'.length && (l.zip l').all fun (x, y) => x.sameScalar y

def childSame : Child Field → Child Field → Bool
  | .nothing, .nothing => true
  | .element f, .element g => f.same g
  | .fields s, .fields t => treeSame s t
  | _, _ => false

def treeSame : List Field → List Field → Bool
  | [], [] => true
  | f :: s, g :: t => f.same g && treeSame s t
  | _, _ => false

end

end SchemaTypings
