import SchemaTypings.Generator
import SchemaTypings.Proofs.Types

/-!
The TypeScript generator under the default settings, but for the reference style. It writes an
interface for every tree of declared fields, whatever names the interfaces of the run have, with one
line for each property.
-/

namespace SchemaTypings

namespace Generator

/-- The TypeScript generator with the default settings. -/
def standard : Generator :=
  { language := .typeScript, settings := {}, typeNames := {}, templates := .builtIn }

theorem create_typeScript : create .typeScript {} = .ok standard := rfl

/-- The TypeScript generator for a reference style, with the default settings otherwise. -/
def styled (style : Settings.RefStyle) : Generator :=
  { language := .typeScript, settings := { refStyle := .text style.label },
    typeNames := { refStyle := style }, templates := .builtIn }

theorem create_styled (style : Settings.RefStyle) :
    create .typeScript { refStyle := .text style.label } = .ok (styled style) := by
  cases style <;> rfl

theorem styled_interface : styled .interface = standard := rfl

theorem outcome_interfaceName (base : Text) :
    (standard.interfaceName base).outcome = .ok ("I" ++ base.toPascalCase) := rfl

/-! ### The template of an interface -/

/-- A property as the template of an interface takes it, given its type as code. -/
def propertyEntry (name : Text) (optional : Bool) (type : Text) : Literal :=
  .object [("name", .text name.asKey), ("type", .text type), ("optional", .bool optional)]

/-- A property as code on a line of its own. -/
def line (property : Text) : Text := "\n  " ++ property

/-- An interface as code, given its properties as code. -/
def interfaceText (name : Text) (properties : List Text) : Text :=
  "export interface " ++ name ++ " \x7b" ++ (properties.map line).flatten ++ "\n\x7d"

/-- What a template can look up while it renders an interface. -/
def interfaceContext (name : Text) (fields : List Literal) : Entries Literal :=
  (Template.ownName, Template.itself "ts_interface") ::
    [("interface_name", .text name), ("fields", .list fields), ("indent", .text (Text.times 2 ' '))] ++
      Template.globals

/-- The part of the interface template that is repeated for each property. -/
def propertyPieces : List Template.Piece :=
  [.text "\n", .var "indent", .value (.entry "field" "name") .plain,
    .when (.entry "field" "optional") [.text "?"],
    .text ": ", .value (.entry "field" "type") .plain, .text ";"]

theorem render_cons {context : Entries Literal} {piece : Template.Piece}
    {rest : List Template.Piece} {head tail : Text}
    (hp : Template.renderPiece context piece = .ok head)
    (hr : Template.render context rest = .ok tail) :
    Template.render context (piece :: rest) = .ok (head ++ tail) := by
  simp [Template.render, hp, hr]

/-- Each property is on a line of its own. -/
theorem render_property (interface : Text) (fields : List Literal) (name : Text) (optional : Bool)
    (type : Text) :
    Template.render (("field", propertyEntry name optional type) :: interfaceContext interface fields)
      propertyPieces = .ok (line (TypeExpr.propertyText name optional type)) := by
  have rendered : Template.render (("field", propertyEntry name optional type) ::
      interfaceContext interface fields) propertyPieces =
        .ok ([('\n' : CodePoint)] ++ (Text.times 2 ' ' ++ (name.asKey ++
          (Text.ofString (if optional then "?" else "") ++
            (Text.ofString ": " ++ (type ++ (Text.ofString ";" ++ []))))))) := by
    cases optional <;> rfl
  have start : Text.ofString "\n  " = [('\n' : CodePoint)] ++ Text.times 2 ' ' := rfl
  rw [rendered, line, start, TypeExpr.propertyText]
  simp only [List.append_assoc, List.append_nil]

/-- The template writes the properties that it is given. -/
theorem render_interface {name : Text} {fields : List Literal} {properties : List Text}
    (h : fields.mapM (fun v => Template.render (("field", v) :: interfaceContext name fields)
      propertyPieces) = .ok (properties.map line)) :
    TemplateStore.builtIn.render "ts_interface"
      [("interface_name", .text name), ("fields", .list fields),
        ("indent", .text (Text.times 2 ' '))] = .ok (interfaceText name properties) := by
  let context := interfaceContext name fields
  have loop : Template.renderPiece context (.each "field" (.variable "fields") propertyPieces) =
      .ok (properties.map line).flatten := by
    have found : Template.find context (.variable "fields") = .ok (.list fields) := rfl
    simp [Template.renderPiece, found, Template.itemsOf, context, h]
  have text (s : Text) : Template.renderPiece context (.text s) = .ok s := by
    rw [Template.renderPiece]
  have initial : Template.renderPiece context (.var "interface_name") = .ok name := rfl
  have close : Template.render context [.text "\n\x7d"] = .ok (("\n\x7d" : Text) ++ []) :=
    render_cons (text _) (by rw [Template.render])
  have rendered : Template.render context Template.interfaceTemplate = .ok _ :=
    render_cons (text _) (render_cons initial (render_cons (text _) (render_cons loop close)))
  rw [interfaceText]
  simp only [List.append_assoc]
  rw [List.append_nil] at rendered
  exact congrArg (Except.mapError _) rendered

/-! ### Interfaces -/

/-- Properties whose types can be written are written as their code. -/
theorem exists_propertyData {g : Generator} {fields : List (Property TypeExpr)} {codes : List Text}
    (h : TypeExpr.renderFields g.typeNames.unresolved fields = .ok codes) (name : Text)
    (all : List Literal) :
    ∃ data, fields.mapM g.propertyData = .ok data ∧
      data.mapM (fun v => Template.render (("field", v) :: interfaceContext name all)
        propertyPieces) = .ok (codes.map line) := by
  induction fields generalizing codes with
  | nil =>
    rw [TypeExpr.renderFields] at h
    cases h
    exact ⟨[], rfl, rfl⟩
  | cons p rest ih =>
    obtain ⟨key, type, optional⟩ := p
    rw [TypeExpr.renderFields] at h
    obtain ⟨code, printed, h⟩ := bind_eq_ok.1 h
    obtain ⟨others, printed', h⟩ := bind_eq_ok.1 h
    cases h
    obtain ⟨data, made, lines⟩ := ih printed'
    have first : g.propertyData ⟨key, type, optional⟩ = .ok (propertyEntry key optional code) := by
      simp [propertyData, propertyEntry, printed]
    refine ⟨propertyEntry key optional code :: data, ?_, ?_⟩
    · simp [List.mapM_cons, first, made]
    · simp [List.mapM_cons, render_property, lines]

/-- The code of an interface whose types can be written. -/
theorem single_eq {style : Settings.RefStyle} {i : Interface} {codes : List Text}
    (h : TypeExpr.renderFields (styled style).typeNames.unresolved i.fields = .ok codes) :
    (styled style).single i = .ok (interfaceText i.name codes) := by
  obtain ⟨data, made, -⟩ := exists_propertyData h i.name []
  obtain ⟨data', made', lines⟩ := exists_propertyData h i.name data
  cases made.symm.trans made'
  rw [single, show (styled style).language = .typeScript from rfl]
  simp only [made, ok_bind]
  exact render_interface lines

/-- The interface of a tree of whole fields, and its code. -/
theorem exists_model {tree : FieldTree} (h : treeIsWhole tree = true) (style : Settings.RefStyle)
    (name : Text) (known : InterfaceNames) :
    ∃ i code, (styled style).model name tree known = .ok i ∧
      (styled style).single i = .ok code := by
  have texts (base : BaseType) : ((styled style).typeNames.name base).isText = true := by
    cases base <;> rfl
  obtain ⟨fields, eq, codes, printed⟩ :=
    TypeExpr.exists_ofTree known (styled style).typeNames.unresolved texts tree h name
  refine ⟨⟨name, fields⟩, interfaceText name codes, ?_, single_eq printed⟩
  show Interface.ofTree _ _ _ _ = _
  rw [Interface.ofTree, eq]
  rfl

end Generator

end SchemaTypings
