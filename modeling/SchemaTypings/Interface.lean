import SchemaTypings.Dictionary
import SchemaTypings.Field

/-!
Interfaces: a name and typed properties. A type carries, besides its structure, the names that it
imports and the hints about references that did not resolve.
-/

namespace SchemaTypings

/-- The kinds of type. -/
inductive TypeKind
  | primitive
  | named
  | array
  | object
  | enumeration
  | union
  | unresolved
deriving DecidableEq, Repr

/-- The name of a kind in reports. -/
def TypeKind.label : TypeKind → Text
  | .primitive => "primitive"
  | .named => "named"
  | .array => "array"
  | .object => "object"
  | .enumeration => "enum"
  | .union => "union"
  | .unresolved => "unresolved"

/-- The kinds in order. -/
def TypeKind.all : List TypeKind :=
  [.primitive, .named, .array, .object, .enumeration, .union, .unresolved]

/-- The kind of a name in reports. -/
def TypeKind.ofLabel? (label : Text) : Option TypeKind := all.find? (·.label = label)

/-- A property with a type. -/
structure Property (α : Type) where
  name : Text
  type : α
  optional : Bool := false

/-- A type. Its name is that of a primitive type or an interface, or the name that did not
resolve. -/
structure TypeExpr where
  kind : TypeKind
  name : Literal := .text []
  element : Option TypeExpr := none
  fields : List (Property TypeExpr) := []
  literals : List Literal := []
  members : List TypeExpr := []
  imports : List Literal := []
  hints : List Text := []

/-- A named interface and its properties. -/
structure Interface where
  name : Text
  fields : List (Property TypeExpr)

/-- The names of the lists, each once; names that settings give are the same as keys are. -/
def unionOfNames (lists : List (List Literal)) : List Literal :=
  lists.flatten.foldl
    (fun seen v => if seen.any (Dictionary.sameKey · v) then seen else seen ++ [v]) []

/-- The names that properties import, each once. -/
def importsOf (fields : List (Property TypeExpr)) : List Literal :=
  unionOfNames (fields.map (·.type.imports))

/-- The hints of properties, in order. -/
def hintsOf (fields : List (Property TypeExpr)) : List Text := fields.flatMap (·.type.hints)

mutual

/-- The type as a report shows it. -/
def TypeExpr.report : TypeExpr → Literal
  | ⟨kind, name, element, fields, literals, members, _, _⟩ =>
    let head : Entries Literal := [("kind", .text kind.label)]
    let called : Entries Literal := if name.isTruthy then [("name", name)] else []
    let listed : Entries Literal := if literals.isEmpty then [] else [("literals", .list literals)]
    let joined : Entries Literal :=
      if members.isEmpty then [] else [("members", .list (membersReport members))]
    let object : Entries Literal :=
      if kind = .object then [("fields", .object (Entries.ofList (fieldsReport fields)))] else []
    .object (head ++ called ++ elementReport element ++ object ++ listed ++ joined)

def elementReport : Option TypeExpr → Entries Literal
  | none => []
  | some element => [("element", element.report)]

/-- The entries of the properties in a report. -/
def fieldsReport : List (Property TypeExpr) → Entries Literal
  | [] => []
  | ⟨name, type, optional⟩ :: rest =>
    (name, .object [("type", type.report), ("optional", .bool optional)]) :: fieldsReport rest

def membersReport : List TypeExpr → List Literal
  | [] => []
  | type :: rest => type.report :: membersReport rest

end

namespace Interface

/-- The interface as a report shows it. -/
def report (i : Interface) : Literal :=
  .object [("name", .text i.name), ("fields", .object (Entries.ofList (fieldsReport i.fields)))]

/-- The names that an interface imports. -/
def imports (i : Interface) : List Literal := importsOf i.fields

/-- The hints about an interface. -/
def hints (i : Interface) : List Text := hintsOf i.fields

end Interface

end SchemaTypings
