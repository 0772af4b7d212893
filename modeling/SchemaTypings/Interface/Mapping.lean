import SchemaTypings.Interface
import SchemaTypings.InterfaceNames
import SchemaTypings.Literal.Display
import SchemaTypings.Settings

/-!
Interfaces from field trees. Base types have names that settings may change; references resolve to
the interfaces of the run, and those that do not are marked as such.
-/

namespace SchemaTypings

/-- The names of types, and how references are typed. -/
structure TypeNames where
  string : Literal := .text "string"
  number : Literal := .text "number"
  boolean : Literal := .text "boolean"
  date : Literal := .text "Date"
  objectId : Literal := .text "ObjectId"
  decimal128 : Literal := .text "Decimal128"
  mixed : Literal := .text "any"
  unresolved : Literal := .text "unknown"
  refStyle : Settings.RefStyle := .interface
  overrides : List (BaseType × Literal) := []

namespace TypeNames

/-- The name of a base type before overrides. -/
def plain (names : TypeNames) : BaseType → Literal
  | .string => names.string
  | .number => names.number
  | .boolean => names.boolean
  | .date => names.date
  | .objectId => names.objectId
  | .decimal128 => names.decimal128
  | .mixed => names.mixed

/-- The name of a base type. -/
def name (names : TypeNames) (base : BaseType) : Literal :=
  ((names.overrides.reverse.find? fun e => e.1 = base).map (·.2)).getD (names.plain base)

/-- Whether the type is imported rather than built in. -/
def isImported (base : BaseType) : Bool := base = .objectId || base = .decimal128

/-- The type of a base type. -/
def type (names : TypeNames) (base : BaseType) : TypeExpr :=
  { kind := .primitive
    name := names.name base
    imports := if isImported base then [names.name base] else [] }

/-- Whether a value can be one of a set of names: a list or an object cannot. -/
def canBeName : Literal → Bool
  | .list _ => false
  | .object _ => false
  | _ => true

/-- The same names, unless an imported one cannot be a name. -/
def checked (names : TypeNames) : Except Error TypeNames :=
  if canBeName (names.name .objectId) && canBeName (names.name .decimal128) then .ok names
  else .error .wrongShape

/-- The names that settings give. -/
def ofSettings (settings : Settings) : Except Error TypeNames := do
  let invalid (what : Text) : Error :=
    .generation ("Invalid TypeScript type configuration: " ++ what)
  let refStyle ← match settings.refStyle? with
    | some style => pure style
    | none => throw (invalid (settings.refStyle.shown ++ " is not a valid RefStyle"))
  let custom ← settings.customEntries
  let overrides ← match custom.get? "type_overrides" with
    | none => pure []
    | some (.object entries) =>
      entries.mapM fun (tag, name) =>
        match BaseType.ofTag? tag with
        | some base => pure (base, name)
        | none => throw (invalid (tag.shown ++ " is not a valid PrimitiveTag"))
    | some _ => throw .missingPart
  let get (key : Text) (default : Literal) : Literal := (custom.get? key).getD default
  checked
    { string := get "string_type" (.text "string")
      number := get "number_type" (.text "number")
      boolean := get "boolean_type" (.text "boolean")
      date := get "date_type" (.text "Date")
      mixed := get "mixed_type" (.text "any")
      unresolved := settings.unresolvedType
      refStyle, overrides }

end TypeNames

/-- The hint about a reference that did not resolve. -/
def unresolvedHint (names : TypeNames) (target context : Text) : Text :=
  "Unresolved reference '" ++ target ++ "' in field '" ++ context ++ "', using "
    ++ names.unresolved.said

namespace TypeExpr

/-- The type of a reference to `target`. -/
def ofReference (names : TypeNames) (known : InterfaceNames) (base : Option BaseType)
    (target : Option Text) (viaRef : Bool) (context : Text) : Except Error TypeExpr :=
  let id := names.type (base.getD .objectId)
  if viaRef ∧ names.refStyle = .id then .ok id
  else
    match target with
    | none => .error .missingPart
    | some target =>
      match known.resolve? target with
      | none =>
        .ok { kind := .unresolved, name := .text target,
              hints := [unresolvedHint names target context] }
      | some interface =>
        let named : TypeExpr := { kind := .named, name := .text interface }
        if viaRef ∧ names.refStyle = .union then
          .ok { kind := .union, members := [id, named], imports := id.imports }
        else .ok named

mutual

/-- The type of a field whose dotted path is `context`. -/
def ofField (names : TypeNames) (known : InterfaceNames) (context : Text) :
    Field → Except Error TypeExpr
  | ⟨_, kind, _, base, child, target, viaRef, literals⟩ =>
    match kind with
    | .primitive =>
      match base with
      | some base => .ok (names.type base)
      | none => .error .missingPart
    | .array => ofElement names known (context ++ "[]") child
    | .nested => ofNested names known context child
    | .enumeration => .ok { kind := .enumeration, literals }
    | .reference => ofReference names known base target viaRef context

def ofElement (names : TypeNames) (known : InterfaceNames) (context : Text) :
    Child Field → Except Error TypeExpr
  | .element field => do
    let element ← ofField names known context field
    pure { kind := .array, element := some element,
           imports := element.imports, hints := element.hints }
  | _ => .error .missingPart

def ofNested (names : TypeNames) (known : InterfaceNames) (context : Text) :
    Child Field → Except Error TypeExpr
  | .fields tree => do
    let fields ← ofTree names known context tree
    pure { kind := .object, fields, imports := importsOf fields, hints := hintsOf fields }
  | _ => .error .missingPart

/-- The properties of a tree whose dotted path is `context`. -/
def ofTree (names : TypeNames) (known : InterfaceNames) (context : Text) :
    List Field → Except Error (List (Property TypeExpr))
  | [] => .ok []
  | field :: rest => do
    let type ← ofField names known (context ++ "." ++ field.name) field
    let others ← ofTree names known context rest
    pure ({ name := field.name, type, optional := !field.required } :: others)

end

end TypeExpr

/-- The interface of a schema. -/
def Interface.ofTree (names : TypeNames) (known : InterfaceNames) (name : Text) (tree : FieldTree) :
    Except Error Interface := do
  pure ⟨name, ← TypeExpr.ofTree names known name tree⟩

end SchemaTypings
