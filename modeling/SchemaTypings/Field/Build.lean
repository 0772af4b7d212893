import SchemaTypings.Declaration.Raw
import SchemaTypings.Field
import SchemaTypings.Literal.Display
import SchemaTypings.Log

/-!
Field trees from literal values. A string names a type, a list makes an array, an object with a
`type` describes one field by its options, and any other object nests fields. What declares no type
is dropped with a warning.
-/

namespace SchemaTypings

namespace Field

/-- A name behind the dotted path of its context. -/
def pathIn (context name : Text) : Text := if context.isEmpty then name else context ++ "." ++ name

/-- The field that a string declares: a built-in type, or else a reference. -/
def ofText (name value : Text) : Field :=
  if value.isEmpty then { name, kind := .primitive, base := some .string }
  else
    match BaseType.ofName? value with
    | some base => { name, kind := .primitive, base := some base }
    | none => { name, kind := .reference, target := some value }

/-- The element of an array whose element has no type. -/
def anyElement : Field := { name := "element", kind := .primitive, base := some .mixed }

/-- The element of an array that lists values. -/
def textElement : Field := { name := "element", kind := .primitive, base := some .string }

mutual

/-- `change` made to the field, or to the innermost element of an array. -/
def mapLeaf (change : Field → Field) : Field → Field
  | ⟨name, kind, required, base, child, target, viaRef, literals⟩ =>
    if kind = .array then
      match mapElement change child with
      | some child => ⟨name, kind, required, base, child, target, viaRef, literals⟩
      | none => change ⟨name, kind, required, base, child, target, viaRef, literals⟩
    else change ⟨name, kind, required, base, child, target, viaRef, literals⟩

def mapElement (change : Field → Field) : Child Field → Option (Child Field)
  | .nothing => none
  | .element field => some (.element (mapLeaf change field))
  | .fields tree => some (.fields tree)

end

/-- A plain field as a reference to `ref`; other fields stay. -/
def asReference (ref : Text) (field : Field) : Field :=
  if field.kind = .primitive then
    { field with kind := .reference, target := some ref, viaRef := true }
  else field

/-- Whether a plain field of some base type can be an enumeration of `values`. -/
def admits (field : Field) (values : List Literal) : Bool :=
  (field.base = some .string && values.all Literal.isText) ||
    (field.base = some .number && values.all Literal.isNumber)

/-- A plain field as an enumeration of `values`, if they have its type; other fields stay. -/
def asEnumeration (values : List Literal) (field : Field) : Field :=
  if field.kind = .primitive ∧ field.admits values then
    { field with kind := .enumeration, literals := values }
  else field

/-- The field that a `mapLeaf` changes. -/
def leaf : Field → Field
  | ⟨name, kind, required, base, child, target, viaRef, literals⟩ =>
    if kind = .array then
      match child with
      | .element field => leaf field
      | _ => ⟨name, kind, required, base, child, target, viaRef, literals⟩
    else ⟨name, kind, required, base, child, target, viaRef, literals⟩

/-- The values without those equal to an earlier one. -/
def distinct (values : List Literal) : List Literal :=
  values.foldl (fun seen v => if seen.any (·.sameScalar v) then seen else seen ++ [v]) []

/-- The values of an `enum` option: a list, or an object with a list of `values`. -/
def enumValues (option : Option Literal) : List Literal :=
  let list := match option with
    | some (.object entries) => Entries.get? entries "values"
    | other => other
  match list with
  | some (.list values) =>
    if values.all fun v => v.isText || v.isNumber then distinct values else []
  | _ => []

/-- Whether a `required` option says that the field is optional. -/
def isOptional (option : Option Literal) : Bool :=
  let decision := match option with
    | some (.list (first :: _)) => some first
    | other => other
  match decision with
  | some (.bool b) => !b
  | _ => false

/-- The field with the option `ref` of `options`. -/
def withRef (options : Entries Literal) (field : Field) : Field :=
  match options.get? "ref" with
  | some (.text ref) => if ref.isEmpty then field else field.mapLeaf (asReference ref)
  | _ => field

/-- The field with the options `required`, `ref` and `enum` of `options`. -/
def withOptions {ε : Type} (options : Entries Literal) (path : Text) (field : Field) :
    Logged ε Field := do
  let field :=
    if isOptional (options.get? "required") then { field with required := false } else field
  let field := field.withRef options
  let values := enumValues (options.get? "enum")
  if values.isEmpty then pure field
  else do
    let leaf := field.leaf
    if leaf.kind = .primitive ∧ leaf.admits values = false then
      Logged.record .debug .fields
        ("Ignoring enum of '" ++ path ++ "': values do not match the field type")
    pure (field.mapLeaf (asEnumeration values))

/-- The warning about a value that declares no type. -/
def skipped (context name : Text) (value : Literal) : Text :=
  "Skipping field '" ++ pathIn context name ++ "': " ++ value.shown ++ " is not a type declaration"

mutual

/-- The field that a value declares, if it declares a type. -/
def build {ε : Type} (name : Text) (value : Literal) (context : Text) : Logged ε (Option Field) :=
  match value with
  | .text s => pure (some (ofText name s))
  | .list items => do
    let element ← buildElement items (pathIn context name)
    pure (some { name, kind := .array, child := .element element })
  | .object [] => pure (some { name, kind := .primitive, base := some .mixed })
  | .object (e :: rest) =>
    if Literal.isOptions (e :: rest) then do
      match ← buildType name (e :: rest) context with
      | some field => do
        let field ← field.withOptions (e :: rest) (pathIn context name)
        pure (some field)
      | none => pure none
    else do
      let tree ← buildTree (e :: rest) (pathIn context name) []
      pure (some { name, kind := .nested, child := .fields tree })
  | _ => pure none

/-- The field that the `type` among the options declares. -/
def buildType {ε : Type} (name : Text) (options : List (Text × Literal)) (context : Text) :
    Logged ε (Option Field) :=
  match options with
  | [] => pure none
  | (k, v) :: rest => if k = "type" then build name v context else buildType name rest context

/-- The element of the array at `path` that a list declares. -/
def buildElement {ε : Type} (items : List Literal) (path : Text) : Logged ε Field :=
  match items with
  | [] => pure anyElement
  | v :: rest =>
    if !rest.isEmpty && (v :: rest).all Literal.isText then pure textElement
    else do
      if !rest.isEmpty then
        Logged.record .debug .fields
          ("Array type of '" ++ path ++ "' lists several elements, using the first")
      let element ← build "element" v path
      pure (element.getD anyElement)

/-- The fields that the entries declare, put behind `tree`. -/
def buildTree {ε : Type} (entries : List (Text × Literal)) (context : Text) (tree : FieldTree) :
    Logged ε FieldTree :=
  match entries with
  | [] => pure tree
  | (name, value) :: rest => do
    match ← build name value context with
    | some field => buildTree rest context (tree.add field)
    | none => do
      Logged.record .warning .fields (skipped context name value)
      buildTree rest context tree

end

end Field

/-- The fields that the entries of an object declare. -/
def FieldTree.ofEntries {ε : Type} (entries : Entries Literal) (context : Text) :
    Logged ε FieldTree :=
  Field.buildTree entries context []

end SchemaTypings
