import SchemaTypings.Interface.Mapping
import SchemaTypings.Literal.Printer
import SchemaTypings.Text.Blank

/-!
Types as generated code.
-/

namespace SchemaTypings

/-- `s` on one line and without the end of a comment. -/
def Text.asComment (s : Text) : Text := replace "*/" "*\\/" (join " " (words s))

/-- A value as the type of itself. -/
def Literal.asType : Literal → Text
  | .text s => s.quoted
  | v => v.shown

namespace TypeExpr

/-- Whether the text of the type needs parentheses before brackets. -/
def isUnion (t : TypeExpr) : Bool :=
  match t.kind with
  | .enumeration => 1 < t.literals.length
  | .union => 1 < t.members.length
  | .unresolved => true
  | _ => false

/-- Whether the text of the type is the name as settings give it. -/
def isBareName (t : TypeExpr) : Bool := t.kind = .primitive || t.kind = .named

/-- A property as code, given its type as code. -/
def propertyText (name : Text) (optional : Bool) (type : Text) : Text :=
  name.asKey ++ (if optional then "?" else "") ++ ": " ++ type ++ ";"

mutual

/-- The type as code; `unresolved` stands in for what did not resolve. -/
def render (unresolved : Literal) : TypeExpr → Except Error Text
  | ⟨kind, name, element, fields, literals, members, _, _⟩ =>
    match kind with
    | .primitive => .ok name.said
    | .named => .ok name.said
    | .unresolved =>
      match name with
      | .text s => .ok (unresolved.said ++ " /* unresolved: " ++ s.asComment ++ " */")
      | _ => .error .missingPart
    | .enumeration => .ok (Text.join " | " (literals.map Literal.asType))
    | .union => do
      let parts ← renderMembers unresolved members
      pure (Text.join " | " parts)
    | .array => renderElement unresolved element
    | .object =>
      if fields.isEmpty then .ok "\x7b\x7d"
      else do
        let parts ← renderFields unresolved fields
        pure ("\x7b " ++ Text.join " " parts ++ " \x7d")

def renderElement (unresolved : Literal) : Option TypeExpr → Except Error Text
  | none => .error .missingPart
  | some element => do
    let text ← element.render unresolved
    pure ((if element.isUnion then "(" ++ text ++ ")" else text) ++ "[]")

/-- The members of a union; a name that is no text cannot be joined to others. -/
def renderMembers (unresolved : Literal) : List TypeExpr → Except Error (List Text)
  | [] => .ok []
  | type :: rest => do
    let text ← type.render unresolved
    let others ← renderMembers unresolved rest
    if type.isBareName && !type.name.isText then throw .wrongShape
    pure (text :: others)

def renderFields (unresolved : Literal) : List (Property TypeExpr) → Except Error (List Text)
  | [] => .ok []
  | ⟨name, type, optional⟩ :: rest => do
    let text ← type.render unresolved
    let others ← renderFields unresolved rest
    pure (propertyText name optional text :: others)

end

end TypeExpr

end SchemaTypings
