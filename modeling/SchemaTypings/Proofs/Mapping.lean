import Mathlib.Data.List.Forall2
import SchemaTypings.Proofs.Canonical
import SchemaTypings.Proofs.Spelling

/-!
The types of sound fields under the default names of types, and the code of each of them.
-/

namespace SchemaTypings

/-- What the names of a run resolve to are names of interfaces. -/
def InterfaceNames.AreSpelled (known : InterfaceNames) : Prop :=
  ∀ target name, known.resolve? target = some name → name.IsInterfaceName

namespace TypeExpr

/-! ### The types there are -/

def ofBase (base : BaseType) : TypeExpr := TypeNames.type {} base

def ofInterface (name : Text) : TypeExpr := { kind := .named, name := .text name }

def ofChoice (base : BaseType) (name : Text) : TypeExpr :=
  { kind := .union, members := [ofBase base, ofInterface name], imports := (ofBase base).imports }

/-- What stands in for a reference that did not resolve. -/
def ofTarget (target : Text) (hints : List Text) : TypeExpr :=
  { kind := .unresolved, name := .text target, hints }

def ofLiterals (literals : List Literal) : TypeExpr := { kind := .enumeration, literals }

def arrayOf (element : TypeExpr) : TypeExpr :=
  { kind := .array, element := some element, imports := element.imports, hints := element.hints }

def objectOf (fields : List (Property TypeExpr)) : TypeExpr :=
  { kind := .object, fields, imports := importsOf fields, hints := hintsOf fields }

/-- The types of fields: interfaces have names of their own, the names of properties satisfy `name`,
what did not resolve `target`, and enumerations have values, all of which satisfy `value`. -/
inductive Holds (name target : Text → Prop) (value : Literal → Prop) : TypeExpr → Prop
  | base (base : BaseType) : Holds name target value (ofBase base)
  | interface {n : Text} (h : n.IsInterfaceName) : Holds name target value (ofInterface n)
  | choice (base : BaseType) {n : Text} (h : n.IsInterfaceName) :
    Holds name target value (ofChoice base n)
  | target (s : Text) (hints : List Text) (h : target s) : Holds name target value (ofTarget s hints)
  | literals {literals : List Literal} (some : literals ≠ []) (all : ∀ v ∈ literals, value v) :
    Holds name target value (ofLiterals literals)
  | array {element : TypeExpr} (h : Holds name target value element) :
    Holds name target value (arrayOf element)
  | object {fields : List (Property TypeExpr)} (keys : ∀ p ∈ fields, name p.name)
    (types : ∀ p ∈ fields, Holds name target value p.type) :
    Holds name target value (objectOf fields)

/-- The types of sound fields: no property has a name with a line feed behind it. -/
abbrev IsMapped (value : Literal → Prop) : TypeExpr → Prop :=
  Holds (·.isNameAndFeed = false) (fun _ => True) value

/-! ### Fields with their types -/

/-- A property is that of a field. -/
structure IsPropertyOf (names : TypeNames) (known : InterfaceNames) (context : Text) (f : Field)
    (p : Property TypeExpr) : Prop where
  name : p.name = f.name
  optional : p.optional = !f.required
  type : ofField names known (context ++ "." ++ f.name) f = .ok p.type

section

variable {names : TypeNames} {known : InterfaceNames} {context : Text}

/-- The properties of a tree are those of its fields, in order. -/
theorem forall₂_of_ofTree {tree : FieldTree} {fields : List (Property TypeExpr)}
    (h : ofTree names known context tree = .ok fields) :
    List.Forall₂ (IsPropertyOf names known context) tree fields := by
  induction tree generalizing fields with
  | nil =>
    rw [ofTree] at h
    cases h
    exact .nil
  | cons f rest ih =>
    rw [ofTree] at h
    obtain ⟨type, eq, h⟩ := bind_eq_ok.1 h
    obtain ⟨others, eq', h⟩ := bind_eq_ok.1 h
    cases h
    exact .cons ⟨rfl, rfl, eq⟩ (ih eq')

theorem exists_of_mem_ofTree {tree : FieldTree} {fields : List (Property TypeExpr)}
    (h : ofTree names known context tree = .ok fields) :
    ∀ p ∈ fields, ∃ f ∈ tree, IsPropertyOf names known context f p := by
  intro p hp
  obtain ⟨n, bound, rfl⟩ := List.getElem_of_mem hp
  have all := List.forall₂_iff_get.1 (forall₂_of_ofTree h)
  exact ⟨_, List.getElem_mem (all.1 ▸ bound), all.2 n (all.1 ▸ bound) bound⟩

end

variable {name target : Text → Prop} {value : Literal → Prop} {known : InterfaceNames}
  {style : Settings.RefStyle}

theorem holds_ofReference (names : known.AreSpelled) {base : Option BaseType} {s : Option Text}
    (hs : ∀ t, s = some t → target t) {viaRef : Bool} {context : Text} {t : TypeExpr}
    (h : ofReference { refStyle := style } known base s viaRef context = .ok t) :
    t.Holds name target value := by
  have id : (TypeNames.type { refStyle := style } (base.getD .objectId)) =
      ofBase (base.getD .objectId) := rfl
  unfold ofReference at h
  dsimp only at h
  split at h
  · cases h
    exact id ▸ .base _
  split at h
  · cases h
  split at h
  · cases h
    exact .target _ _ (hs _ rfl)
  next _ resolved =>
    split at h
    · cases h
      exact .choice _ (names _ _ resolved)
    · cases h
      exact .interface (names _ _ resolved)

/-- The type of a field has its names, targets and values. -/
theorem isMapped_ofField (names : known.AreSpelled) {f : Field} (sound : f.Holds name target value) :
    ∀ {context : Text} {t : TypeExpr}, ofField { refStyle := style } known context f = .ok t →
      t.Holds name target value := by
  induction sound with
  | @intro f _ targets values _ fields elementIh fieldsIh =>
    intro context t h
    obtain ⟨fName, kind, required, base, child, fTarget, viaRef, literals⟩ := f
    cases kind with
    | primitive =>
      cases base with
      | none =>
        rw [ofField] at h
        cases h
      | some base =>
        rw [ofField] at h
        cases h
        exact .base base
    | array =>
      cases child with
      | nothing | fields =>
        rw [ofField, ofElement] at h
        · cases h
        · nofun
      | element e =>
        rw [ofField, ofElement] at h
        obtain ⟨type, eq, h⟩ := bind_eq_ok.1 h
        cases h
        exact .array (elementIh e rfl eq)
    | nested =>
      cases child with
      | nothing | element =>
        rw [ofField, ofNested] at h
        · cases h
        · nofun
      | fields tree =>
        rw [ofField, ofNested] at h
        obtain ⟨properties, eq, h⟩ := bind_eq_ok.1 h
        cases h
        have all (p : Property TypeExpr) (hp : p ∈ properties) :
            name p.name ∧ p.type.Holds name target value := by
          obtain ⟨g, hg, same, -, type⟩ := exists_of_mem_ofTree eq p hp
          cases fields tree rfl g hg with
          | intro hn => exact ⟨same ▸ hn, fieldsIh tree rfl g hg type⟩
        exact .object (fun p hp => (all p hp).1) fun p hp => (all p hp).2
    | enumeration =>
      rw [ofField] at h
      cases h
      exact .literals (values rfl).1 (values rfl).2
    | reference =>
      rw [ofField] at h
      exact holds_ofReference names targets h

/-! ### The code of types -/

/-- The type as code. -/
def code (t : TypeExpr) : Text := (t.render (.text "unknown")).toOption.getD []

end TypeExpr

def Property.code (p : Property TypeExpr) : Text :=
  TypeExpr.propertyText p.name p.optional p.type.code

namespace TypeExpr

variable {name target : Text → Prop} {value : Literal → Prop} {t : TypeExpr} {s : Text}
  {fields : List (Property TypeExpr)}

theorem code_eq (h : t.render (.text "unknown") = .ok s) : t.code = s := by rw [code, h]; rfl

theorem Prints.render_eq (h : t.Prints (.text "unknown")) :
    t.render (.text "unknown") = .ok t.code := by
  obtain ⟨s, printed⟩ := h
  rw [printed, code_eq printed]

theorem renderFields_eq (h : ∀ p ∈ fields, Prints (.text "unknown") p.type) :
    renderFields (.text "unknown") fields = .ok (fields.map Property.code) := by
  induction fields with
  | nil => rw [renderFields, List.map_nil]
  | cons p rest ih =>
    have first := (h p List.mem_cons_self).render_eq
    have others := ih fun q hq => h q (List.mem_cons_of_mem p hq)
    obtain ⟨name, type, optional⟩ := p
    rw [renderFields, first, others]
    rfl

theorem prints_ofBase (base : BaseType) : (ofBase base).Prints (.text "unknown") :=
  ⟨_, by rw [ofBase, TypeNames.type, render]⟩

theorem code_ofBase (base : BaseType) : (ofBase base).code = (TypeNames.name {} base).said :=
  code_eq (by rw [ofBase, TypeNames.type, render])

theorem code_ofInterface (name : Text) : (ofInterface name).code = name :=
  code_eq (by rw [ofInterface, render]; rfl)

theorem render_ofChoice (base : BaseType) (name : Text) :
    (ofChoice base name).render (.text "unknown") = .ok ((ofBase base).code ++ (" | " ++ name)) := by
  have first : (ofBase base).render (.text "unknown") = .ok (ofBase base).code :=
    (prints_ofBase base).render_eq
  have second : (ofInterface name).render (.text "unknown") = .ok name := by
    rw [ofInterface, render]
    rfl
  have text : (ofBase base).name.isText = true := by cases base <;> rfl
  have text' : (ofInterface name).name.isText = true := rfl
  rw [ofChoice, render]
  simp [renderMembers, first, second, text, text']

theorem code_ofTarget (target : Text) (hints : List Text) :
    (ofTarget target hints).code = "unknown /* unresolved: " ++ target.asComment ++ " */" :=
  code_eq (by rw [ofTarget, render]; rfl)

theorem code_ofLiterals (literals : List Literal) :
    (ofLiterals literals).code = Text.join " | " (literals.map Literal.asType) :=
  code_eq (by rw [ofLiterals, render])

theorem render_arrayOf (h : t.Prints (.text "unknown")) :
    (arrayOf t).render (.text "unknown") =
      .ok ((if t.isUnion then "(" ++ t.code ++ ")" else t.code) ++ "[]") := by
  rw [arrayOf, render, renderElement, h.render_eq]
  rfl

theorem render_objectOf (h : ∀ p ∈ fields, Prints (.text "unknown") p.type) :
    (objectOf fields).render (.text "unknown") =
      .ok (if fields.isEmpty then "\x7b\x7d"
        else "\x7b " ++ Text.join " " (fields.map Property.code) ++ " \x7d") := by
  rw [objectOf, render]
  split
  · rfl
  · rw [renderFields_eq h]
    rfl

theorem Holds.prints (h : t.Holds name target value) : t.Prints (.text "unknown") := by
  induction h with
  | base base => exact prints_ofBase base
  | interface => exact ⟨_, by rw [ofInterface, render]⟩
  | choice base => exact ⟨_, render_ofChoice base _⟩
  | target => exact ⟨_, by rw [ofTarget, render]⟩
  | literals => exact ⟨_, by rw [ofLiterals, render]⟩
  | array _ ih => exact ⟨_, render_arrayOf ih⟩
  | object _ _ ih => exact ⟨_, render_objectOf ih⟩

end TypeExpr

/-! ### Interfaces -/

/-- A tree of whole fields has an interface with a property for each field, and the code of the
interface has a line for each property. -/
theorem Generator.exists_fields {known : InterfaceNames} (names : known.AreSpelled)
    {name target : Text → Prop} {value : Literal → Prop} {tree : FieldTree}
    (whole : treeIsWhole tree = true) (sound : ∀ f ∈ tree, f.Holds name target value)
    (style : Settings.RefStyle) (interface : Text) :
    ∃ fields, (styled style).model interface tree known = .ok ⟨interface, fields⟩ ∧
      List.Forall₂ (TypeExpr.IsPropertyOf (styled style).typeNames known interface) tree fields ∧
      (∀ p ∈ fields, name p.name ∧ p.type.Holds name target value) ∧
      (styled style).single ⟨interface, fields⟩ =
        .ok (interfaceText interface (fields.map Property.code)) := by
  obtain ⟨i, -, model, -⟩ := exists_model whole style interface known
  have made : Interface.ofTree (styled style).typeNames known interface tree = .ok i := model
  rw [Interface.ofTree] at made
  obtain ⟨fields, eq, made⟩ := bind_eq_ok.1 made
  cases made
  have mapped : ∀ p ∈ fields, name p.name ∧ p.type.Holds name target value := by
    intro p hp
    obtain ⟨f, hf, of⟩ := TypeExpr.exists_of_mem_ofTree eq p hp
    refine ⟨?_, TypeExpr.isMapped_ofField names (sound f hf) of.type⟩
    cases sound f hf with
    | intro hn => exact of.name ▸ hn
  have printed := TypeExpr.renderFields_eq fun p hp => (mapped p hp).2.prints
  exact ⟨fields, model, TypeExpr.forall₂_of_ofTree eq, mapped, single_eq printed⟩

end SchemaTypings
