import SchemaTypings.Proofs.Comments
import SchemaTypings.Proofs.JoinedLines
import SchemaTypings.Proofs.Mapping

/-!
The lines of generated interfaces. Whatever texts a source has for names, values and types, none of
them leaves its line, and none in a comment ends the comment.
-/

namespace SchemaTypings

/-! ### Types on one line -/

/-- A number has no code point that is not visible, and neither has a text unless it shows it. -/
theorem Literal.not_mem_asType {c : CodePoint} (hidden : c.isVisible = false) {v : Literal}
    (h : v.IsEnumerable) (texts : ∀ s, v = .text s → c ∉ s.quoted) : c ∉ v.asType := by
  cases v with
  | text s => exact texts s rfl
  | int i =>
    rw [asType, shown]
    · exact Text.not_mem_of_visible hidden (Text.all_isVisible_ofInt i)
    · intro _ other
      cases other
  | float x =>
    rw [asType, shown]
    · exact Text.not_mem_of_visible hidden x.all_isVisible_shown
    · intro _ other
      cases other
  | _ => cases h

theorem CodePoint.IsWordPart.isVisible {c : CodePoint} (h : c.IsWordPart) : c.isVisible = true := by
  rcases h with start | digit
  · simp only [isNameStart, isAsciiLetter, Bool.or_eq_true, decide_eq_true_eq] at start
    rcases start with ((lower | upper) | rfl) | rfl
    · exact isVisible_of_isBetween (by decide) (by decide) lower
    · exact isVisible_of_isBetween (by decide) (by decide) upper
    · decide
    · decide
  · exact isVisible_of_isBetween (by decide) (by decide) digit

theorem Text.IsInterfaceName.all_isVisible {name : Text} (h : name.IsInterfaceName) :
    name.all CodePoint.isVisible = true := by
  obtain ⟨word, rfl, parts⟩ := h
  refine List.all_eq_true.2 fun c hc => ?_
  rcases List.mem_cons.1 hc with rfl | hc
  · decide
  · exact (parts c hc).isVisible

namespace TypeExpr

variable {c : CodePoint} {name target : Text → Prop} {value : Literal → Prop} {t : TypeExpr}

theorem mem_propertyText_iff (hidden : c.isVisible = false) (key : Text) (optional : Bool)
    (type : Text) : c ∈ propertyText key optional type ↔ c ∈ key.asKey ∨ c ∈ type := by
  have mark : c ∉ Text.ofString (if optional then "?" else "") :=
    Text.not_mem_of_visible hidden (by cases optional <;> decide)
  have colon : c ∉ Text.ofString ": " := Text.not_mem_of_visible hidden (by decide)
  have close : c ∉ Text.ofString ";" := Text.not_mem_of_visible hidden (by decide)
  simp [propertyText, mark, colon, close]

theorem all_isVisible_code_ofBase (base : BaseType) :
    (ofBase base).code.all CodePoint.isVisible = true := by
  rw [code_ofBase]
  cases base <;> decide

/-- A code point that is not visible gets into the code of a type only by a key, a comment or a value
in it. -/
theorem Holds.not_mem_code (hidden : c.isVisible = false) (h : t.Holds name target value)
    (keys : ∀ s, name s → c ∉ s.asKey) (targets : ∀ s, target s → c ∉ s.asComment)
    (values : ∀ v, value v → c ∉ v.asType) : c ∉ t.code := by
  have mark {s : Text} (visible : s.all CodePoint.isVisible = true) : c ∉ s :=
    Text.not_mem_of_visible hidden visible
  induction h with
  | base base => exact mark (all_isVisible_code_ofBase base)
  | interface spelled =>
    rw [code_ofInterface]
    exact mark spelled.all_isVisible
  | choice base spelled =>
    rw [code_eq (render_ofChoice base _), List.mem_append, List.mem_append, not_or, not_or]
    exact ⟨mark (all_isVisible_code_ofBase base), mark (by decide), mark spelled.all_isVisible⟩
  | target s hints holds =>
    rw [code_ofTarget, List.mem_append, List.mem_append, not_or, not_or]
    exact ⟨⟨mark (by decide), targets s holds⟩, mark (by decide)⟩
  | literals some all =>
    rw [code_ofLiterals, Text.mem_join (mark (by decide))]
    rintro ⟨s, hs, mem⟩
    obtain ⟨v, hv, rfl⟩ := List.mem_map.1 hs
    exact values v (all v hv) mem
  | @array element mapped ih =>
    rw [code_eq (render_arrayOf mapped.prints), List.mem_append, not_or]
    refine ⟨?_, mark (by decide)⟩
    split
    · rw [List.mem_append, List.mem_append, not_or, not_or]
      exact ⟨⟨mark (by decide), ih⟩, mark (by decide)⟩
    · exact ih
  | object names types ih =>
    rw [code_eq (render_objectOf fun p hp => (types p hp).prints)]
    split
    · exact mark (by decide)
    · rw [List.mem_append, List.mem_append, not_or, not_or, Text.mem_join (mark (by decide))]
      refine ⟨⟨mark (by decide), ?_⟩, mark (by decide)⟩
      rintro ⟨s, hs, mem⟩
      obtain ⟨p, hp, rfl⟩ := List.mem_map.1 hs
      rcases (mem_propertyText_iff hidden p.name p.optional p.type.code).1 mem with mem | mem
      · exact keys p.name (names p hp) mem
      · exact ih p hp mem

/-- The type of a sound field is on one line. -/
theorem IsMapped.not_mem_code (h : t.IsMapped Literal.IsEnumerable) :
    ('\n' : CodePoint) ∉ t.code := by
  have hidden : CodePoint.isVisible '\n' = false := by decide
  refine Holds.not_mem_code hidden h (fun s key => ?_) (fun s _ => Text.not_mem_asComment s)
    fun v enumerable => Literal.not_mem_asType hidden enumerable fun s _ => Text.not_mem_quoted s
  simp [Text.mem_asKey_iff, key]

theorem not_mem_propertyText {key type : Text} (plain : key.isNameAndFeed = false)
    (optional : Bool) (h : ('\n' : CodePoint) ∉ type) :
    ('\n' : CodePoint) ∉ propertyText key optional type := by
  rw [mem_propertyText_iff (by decide), Text.mem_asKey_iff, plain]
  simpa using h

end TypeExpr

/-! ### Lines of interfaces -/

namespace Generator

def indented (property : Text) : Text := "  " ++ property

/-- Each property is a line of the interface. -/
theorem lines_interfaceText {name : Text} {properties : List Text} (hn : ('\n' : CodePoint) ∉ name)
    (hp : ∀ p ∈ properties, ('\n' : CodePoint) ∉ p) :
    (interfaceText name properties).lines =
      ("export interface " ++ name ++ " \x7b") :: (properties.map indented ++ [Text.ofString "\x7d"]) := by
  have all (s : Text) (hs : ('\n' : CodePoint) ∉ s) :
      Text.lines (s ++ ((properties.map line).flatten ++ "\n\x7d")) =
        s :: (properties.map indented ++ [Text.ofString "\x7d"]) := by
    induction properties generalizing s with
    | nil =>
      have close : Text.lines "\x7d" = [Text.ofString "\x7d"] := Text.lines_eq (by decide)
      have lines := Text.lines_append hs "\x7d"
      rw [close] at lines
      exact lines
    | cons p properties ih =>
      have own : ('\n' : CodePoint) ∉ indented p := by
        rw [indented, List.mem_append, not_or]
        exact ⟨by decide, hp p List.mem_cons_self⟩
      have others := ih (fun q hq => hp q (List.mem_cons_of_mem p hq)) (indented p) own
      have first : line p = ('\n' : CodePoint) :: indented p := rfl
      rw [List.map_cons, List.flatten_cons, first, List.append_assoc, List.cons_append,
        Text.lines_append hs, others]
      rfl
  have header : ('\n' : CodePoint) ∉ Text.ofString "export interface " ++ name ++ " \x7b" := by
    rw [List.mem_append, List.mem_append, not_or, not_or]
    exact ⟨⟨by decide, hn⟩, by decide⟩
  rw [interfaceText, List.append_assoc]
  exact all _ header

end Generator

/-! ### Types in types -/

/-- A type is another one or stands in it, at any depth. -/
inductive TypeExpr.OccursIn (t : TypeExpr) : TypeExpr → Prop
  | self : OccursIn t t
  | element {u e : TypeExpr} (inside : u.element = some e) (h : OccursIn t e) : OccursIn t u
  | field {u : TypeExpr} {p : Property TypeExpr} (inside : p ∈ u.fields) (h : OccursIn t p.type) :
    OccursIn t u
  | member {u m : TypeExpr} (inside : m ∈ u.members) (h : OccursIn t m) : OccursIn t u

theorem Text.infix_join {s separator : Text} {texts : List Text} (h : s ∈ texts) :
    s <:+: join separator texts := by
  induction texts with
  | nil => cases h
  | cons first rest ih =>
    cases rest with
    | nil => simp_all
    | cons second rest =>
      rw [join_cons_cons]
      rcases List.mem_cons.1 h with rfl | h
      · exact (List.prefix_append s _).isInfix
      · exact (ih h).trans ((List.suffix_append _ _).trans (List.suffix_append _ _)).isInfix

namespace TypeExpr

variable {value : Literal → Prop} {t u : TypeExpr}

theorem infix_propertyText (name : Text) (optional : Bool) (type : Text) :
    type <:+: propertyText name optional type :=
  ((List.suffix_append _ type).isInfix).trans (List.prefix_append _ _).isInfix

/-- The code of each property is in the code of the object. -/
theorem infix_code_objectOf {fields : List (Property TypeExpr)} {p : Property TypeExpr}
    (prints : ∀ q ∈ fields, q.type.Prints (.text "unknown")) (h : p ∈ fields) :
    p.code <:+: (objectOf fields).code := by
  have some : fields.isEmpty = false := by
    rw [List.isEmpty_eq_false_iff]
    exact List.ne_nil_of_mem h
  have joined : p.code <:+: Text.join " " (fields.map Property.code) :=
    Text.infix_join (List.mem_map_of_mem h)
  rw [code_eq (render_objectOf prints), some, List.append_assoc]
  exact joined.trans ⟨"\x7b ", " \x7d", by simp⟩

/-- What stands in the type of a sound field is the type of one, and its code is part of that of the
other. -/
theorem OccursIn.isMapped (h : t.OccursIn u) (mapped : u.IsMapped value) :
    t.IsMapped value ∧ t.code <:+: u.code := by
  induction h with
  | self => exact ⟨mapped, List.infix_refl _⟩
  | @element u e inside _ ih =>
    cases mapped with
    | array element =>
      cases inside
      obtain ⟨whole, part⟩ := ih element
      refine ⟨whole, part.trans ?_⟩
      rw [code_eq (render_arrayOf element.prints)]
      split
      · exact ⟨"(", ")" ++ "[]", by simp⟩
      · exact (List.prefix_append _ _).isInfix
    | _ => cases inside
  | @field u p inside _ ih =>
    cases mapped with
    | @object fields _ types =>
      obtain ⟨whole, part⟩ := ih (types p inside)
      refine ⟨whole, part.trans ((infix_propertyText p.name p.optional p.type.code).trans ?_)⟩
      exact infix_code_objectOf (fun q hq => (types q hq).prints) inside
    | _ => cases inside
  | @member u m inside _ ih =>
    cases mapped with
    | @choice base name spelled =>
      rcases List.mem_cons.1 inside with rfl | inside
      · obtain ⟨whole, part⟩ := ih (.base base)
        refine ⟨whole, part.trans ?_⟩
        rw [code_eq (render_ofChoice base name)]
        exact (List.prefix_append _ _).isInfix
      · rw [List.mem_singleton.1 inside] at ih
        obtain ⟨whole, part⟩ := ih (.interface spelled)
        refine ⟨whole, part.trans ?_⟩
        rw [code_ofInterface, code_eq (render_ofChoice base name)]
        exact ((List.suffix_append _ _).trans (List.suffix_append _ _)).isInfix
    | _ => cases inside

/-- The code of a type is a comment that is on one line and ends where it is closed. -/
def IsCommented (t : TypeExpr) (text : Text) : Prop :=
  t.code = "unknown /* unresolved: " ++ text ++ " */" ∧ text.KeepsOpen ∧
    (∀ c ∈ text, c.isBlank = true → c = ' ') ∧
    ∀ rest, Text.find? "*/" (text ++ (" */" ++ rest)) = some (text.length + 1)

theorem IsMapped.exists_isCommented (h : t.IsMapped value) (kind : t.kind = .unresolved) :
    ∃ text, t.IsCommented text := by
  cases h with
  | target target hints =>
    have inside := Text.keepsOpen_asComment target
    exact ⟨target.asComment, code_ofTarget target hints, inside,
      fun c hc => Text.eq_of_mem_asComment hc, inside.find?_eq⟩
  | _ => cases kind

end TypeExpr

/-! ### Converted sources -/

namespace Batch

variable {known : InterfaceNames} {source path : Text} {c : Conversion}

theorem isInterfaceName_of_chosenName {base name : Text} (spelled : known.AreSpelled)
    (h : (chosenName .standard known base).outcome = .ok name) : name.IsInterfaceName := by
  have own (h : (Generator.standard.interfaceName base).outcome = .ok name) :
      name.IsInterfaceName := by
    cases (Generator.outcome_interfaceName base).symm.trans h
    exact Text.isInterfaceName_toPascalCase base
  rw [chosenName] at h
  split at h
  · next resolved =>
    split at h
    · exact own h
    · cases h
      exact spelled _ _ resolved
  · exact own h

/-- A line of an interface is the one of a field with a type: it holds the name, a mark if the field
is optional, and the type, in which every type that did not resolve is a comment. -/
structure IsLineOf (known : InterfaceNames) (interface : Text) (f : Field) (type : TypeExpr)
    (row : Text) : Prop where
  mapped : TypeExpr.ofField Generator.standard.typeNames known (interface ++ "." ++ f.name) f =
    .ok type
  printed : type.render Generator.standard.typeNames.unresolved = .ok type.code
  row : row = "  " ++ (f.name.asKey ++ (if f.required then "" else "?") ++ ": " ++ type.code ++ ";")
  comments : ∀ t : TypeExpr, t.OccursIn type → t.kind = .unresolved →
    t.code <:+: type.code ∧ ∃ text, t.IsCommented text

/-- A converted source has a property for each field, and its code is made of these. -/
theorem IsConverted.exists_fields {tree : FieldTree} {name : Text} {i : Interface}
    (result : IsConverted .standard known source path c tree name i) (spelled : known.AreSpelled)
    {key target : Text → Prop} {value : Literal → Prop}
    (sound : ∀ f ∈ tree, f.Holds key target value) :
    ∃ fields, i = ⟨name, fields⟩ ∧
      List.Forall₂ (TypeExpr.IsPropertyOf Generator.standard.typeNames known name) tree fields ∧
      (∀ p ∈ fields, key p.name ∧ p.type.Holds key target value) ∧
      c.code = Generator.interfaceText name (fields.map Property.code) := by
  obtain ⟨d, normalized, -, -, materialized⟩ := result.canonical
  have whole : treeIsWhole tree = true := by
    obtain ⟨es, -, rfl⟩ := FieldTree.materialize_eq_ok.1 materialized
    exact FieldTree.isWhole_declared es
  obtain ⟨fields, made, properties, holds, single⟩ :=
    Generator.exists_fields spelled whole sound .interface name
  rw [Generator.styled_interface] at made properties single
  cases result.made.symm.trans made
  exact ⟨fields, rfl, properties, holds, Except.ok.inj (result.single.symm.trans single)⟩

/-- The fields of a converted source are sound. -/
theorem IsConverted.isSound {tree : FieldTree} {name : Text} {i : Interface}
    (result : IsConverted .standard known source path c tree name i) :
    ∀ f ∈ tree, f.IsSound Literal.IsEnumerable := by
  obtain ⟨d, normalized, -, canonical, materialized⟩ := result.canonical
  exact FieldTree.isSound_of_normalize canonical materialized

/-- The code of a converted source has a line for each field of the schema between the first and the
last, and no text of the source leaves its line or ends its comment. -/
theorem lines_of_converted {paths : List Text} (named : (namesOf .standard paths).outcome = .ok known)
    (ran : (convert .standard known source path).outcome = .ok c)
    (converted : c.status = .converted) :
    ∃ tree name rows, c.tree = some tree ∧ c.interfaceName = some name ∧
      c.code.lines = ("export interface " ++ name ++ " \x7b") :: (rows ++ [Text.ofString "\x7d"]) ∧
      List.Forall₂ (fun f row => ∃ type, IsLineOf known name f type row) tree rows := by
  obtain ⟨-, ⟨other, -⟩ | ⟨tree, name, i, result⟩⟩ := convert_cases ran
  · exact absurd converted other
  have spelled : known.AreSpelled := fun _ _ => isInterfaceName_of_namesOf rfl named
  have sound := result.isSound
  obtain ⟨fields, -, properties, mapped, code⟩ := result.exists_fields spelled sound
  refine ⟨tree, name, (fields.map Property.code).map Generator.indented, result.tree,
    result.interface, ?_, ?_⟩
  · rw [code]
    apply Generator.lines_interfaceText
    · exact Text.not_mem_of_visible (by decide)
        (isInterfaceName_of_chosenName spelled result.chosen).all_isVisible
    · intro property h
      obtain ⟨p, hp, rfl⟩ := List.mem_map.1 h
      obtain ⟨key, type⟩ := mapped p hp
      exact TypeExpr.not_mem_propertyText key p.optional (TypeExpr.IsMapped.not_mem_code type)
  · rw [List.map_map, List.forall₂_map_right_iff]
    refine List.Forall₂.imp ?_ ((List.forall₂_and_left _ _).2 ⟨sound, properties⟩)
    intro f p ⟨soundField, of⟩
    have type := TypeExpr.isMapped_ofField spelled soundField of.type
    refine ⟨p.type, of.type, type.prints.render_eq, ?_, ?_⟩
    · show Generator.indented p.code = _
      rw [Generator.indented, Property.code, TypeExpr.propertyText, of.name, of.optional]
      cases f.required <;> rfl
    · intro t occurs unresolved
      obtain ⟨inner, part⟩ := occurs.isMapped type
      exact ⟨part, inner.exists_isCommented unresolved⟩

/-- A schema with a line feed in a name, and a line feed and the end of a comment in a value and in a
type. -/
def brokenSource : Text :=
  "let s = new Schema(\x7b 'a\\n\x7d': \x7b type: String, enum: ['\\n*/'] \x7d, b: 'c*/\\n' \x7d);"

theorem exists_convert_broken :
    ∃ known c, (namesOf .standard ["s.js"]).outcome = .ok known ∧
      (convert .standard known brokenSource "s.js").outcome = .ok c ∧ c.status = .converted := by
  have ran : ((namesOf .standard ["s.js"]).outcome.toOption.any fun known =>
      (convert .standard known brokenSource "s.js").outcome.toOption.any fun c =>
        decide (c.status = .converted)) = true := by
    rw [brokenSource, Text.ofString_ofList, Text.ofString_ofList]
    decide +kernel
  obtain ⟨known, named, ran⟩ := exists_of_toOption_any ran
  obtain ⟨c, ok, converted⟩ := exists_of_toOption_any ran
  exact ⟨known, c, named, ok, of_decide_eq_true converted⟩

theorem lines_of_converted_broken :
    ∃ known c, (namesOf .standard ["s.js"]).outcome = .ok known ∧
      (convert .standard known brokenSource "s.js").outcome = .ok c ∧ c.status = .converted ∧
        ∃ tree name rows, c.tree = some tree ∧ c.interfaceName = some name ∧
          c.code.lines =
            ("export interface " ++ name ++ " \x7b") :: (rows ++ [Text.ofString "\x7d"]) ∧
          List.Forall₂ (fun f row => ∃ type, IsLineOf known name f type row) tree rows := by
  obtain ⟨known, c, named, ran, converted⟩ := exists_convert_broken
  exact ⟨known, c, named, ran, converted, lines_of_converted named ran converted⟩

end Batch

end SchemaTypings
