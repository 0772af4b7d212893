import SchemaTypings.Proofs.Enclosing
import SchemaTypings.Proofs.Nodes
import SchemaTypings.Proofs.Refusals

/-!
What the brackets of an array bind to. The code of an array puts its element in parentheses if the
element is a union by its kind. As long as the names of types are enclosed, no other element shows a
bar outside strings, comments and brackets, but for a name that settings give one.
-/

namespace SchemaTypings

/-! ### Names, keys and values -/

/-- All names that stand in types are enclosed. -/
structure TypeNames.AreEnclosed (names : TypeNames) (known : InterfaceNames) : Prop where
  bases : ∀ base, (names.name base).said.isEnclosed = true
  unresolved : names.unresolved.said.isEnclosed = true
  interfaces : ∀ target name, known.resolve? target = some name → name.isEnclosed = true

theorem Text.all_isInert_of {p : CodePoint → Bool} {s : Text} (h : s.all p = true)
    (none : ∀ d ∈ ofString "\"\x27\x60/=()[]\x7b\x7d<>", p d = false) :
    s.all CodePoint.isInert = true :=
  all_not_contains h none

theorem Text.all_isInert_of_isName {s : Text} (h : s.isName = true) :
    s.all CodePoint.isInert = true := by
  have marks : ∀ d ∈ ofString "\"\x27\x60/=()[]\x7b\x7d<>", d.isNamePart = false := by
    decide +kernel
  cases s with
  | nil => rfl
  | cons c s =>
    rw [isName, Bool.and_eq_true] at h
    refine all_isInert_of (p := CodePoint.isNamePart) ?_ marks
    rw [List.all_cons, CodePoint.isNamePart_of_isNameStart h.1, h.2]
    rfl

theorem Text.staysInside_asKey (key : Text) : key.asKey.StaysInside := by
  rw [asKey]
  split
  · next passes =>
    rw [passesAsName_eq, Bool.or_eq_true] at passes
    refine .of_isInert ?_
    rcases passes with isName | feed
    · exact all_isInert_of_isName isName
    · obtain ⟨name, isName, rfl⟩ := exists_of_isNameAndFeed feed
      rw [List.all_append, all_isInert_of_isName isName]
      decide
  · exact .quoted key

theorem Literal.staysInside_asType {v : Literal} (h : v.IsEnumerable) : v.asType.StaysInside := by
  rcases asType_cases h with ⟨s, rfl⟩ | number
  · exact .quoted s
  · exact .of_isInert (Text.all_isInert_of number (by decide))

theorem Literal.not_hasBar_asType {v : Literal} (h : v.IsEnumerable) : ¬v.asType.HasBar := by
  rcases asType_cases h with ⟨s, rfl⟩ | number
  · exact Text.not_hasBar_quoted s
  · refine Text.not_hasBar fun mem => ?_
    have space := List.all_eq_true.1 number _ (Text.mem_of_mem_outer mem)
    revert space
    decide

/-! ### The code of types -/

namespace TypeExpr

theorem staysInside_propertyText (key : Text) (optional : Bool) {type : Text}
    (h : type.StaysInside) : (propertyText key optional type).StaysInside := by
  have colon : (Text.ofString ": ").all CodePoint.isInert = true := by decide
  have mark : (Text.ofString (if optional then "?" else "")).all CodePoint.isInert = true := by
    cases optional <;> decide
  have close : Text.StaysInside (type ++ ";") := by
    refine h.append (.of_isInert (by decide)) ?_
    rintro c ⟨⟩
    decide
  rw [propertyText, List.append_assoc, List.append_assoc, List.append_assoc]
  refine (Text.staysInside_asKey key).append (.behind mark (.behind colon close)) ?_
  cases optional
  · rintro c ⟨⟩
    decide
  · rintro c ⟨⟩
    decide

/-- The code of a type with another where an array needs it. -/
def bound (t : TypeExpr) (text : Text) : Text := if t.isUnion then "(" ++ text ++ ")" else text

theorem render_arrayOf_eq_ok {unresolved : Literal} {e : TypeExpr} {code : Text} :
    (arrayOf e).render unresolved = .ok code ↔
      ∃ text, e.render unresolved = .ok text ∧ code = e.bound text ++ "[]" := by
  rw [arrayOf, render, renderElement, bind_eq_ok]
  refine exists_congr fun text => and_congr_right fun _ => ⟨fun made => ?_, fun made => ?_⟩
  · cases made
    rfl
  · rw [made]
    rfl

theorem staysInside_bound {t : TypeExpr} {text : Text} (h : text.StaysInside) :
    (t.bound text).StaysInside := by
  rw [bound]
  split
  · exact h.bracketed (o := '(') (c := ')') (by decide) (by decide)
  · exact h

theorem staysInside_renderFields {unresolved : Literal} {fields : List (Property TypeExpr)}
    (each : ∀ p ∈ fields, ∀ text, p.type.render unresolved = .ok text → text.StaysInside)
    {parts : List Text} (h : renderFields unresolved fields = .ok parts) :
    ∀ s ∈ parts, Text.StaysInside s := by
  induction fields generalizing parts with
  | nil =>
    rw [renderFields] at h
    cases h
    simp
  | cons p rest ih =>
    obtain ⟨name, type, optional⟩ := p
    rw [List.forall_mem_cons] at each
    rw [renderFields] at h
    obtain ⟨text, first, h⟩ := bind_eq_ok.1 h
    obtain ⟨others, behind, h⟩ := bind_eq_ok.1 h
    cases h
    exact List.forall_mem_cons.2
      ⟨staysInside_propertyText name optional (each.1 text first), ih each.2 behind⟩

theorem staysInside_renderMembers {unresolved : Literal} {members : List TypeExpr}
    (each : ∀ t ∈ members, ∀ text, t.render unresolved = .ok text → text.StaysInside)
    {parts : List Text} (h : renderMembers unresolved members = .ok parts) :
    ∀ s ∈ parts, Text.StaysInside s := by
  induction members generalizing parts with
  | nil =>
    rw [renderMembers] at h
    cases h
    simp
  | cons t rest ih =>
    rw [List.forall_mem_cons] at each
    rw [renderMembers] at h
    obtain ⟨text, first, h⟩ := bind_eq_ok.1 h
    obtain ⟨others, behind, h⟩ := bind_eq_ok.1 h
    dsimp only at h
    split at h
    · cases h
    · cases h
      exact List.forall_mem_cons.2 ⟨each.1 text first, ih each.2 behind⟩

/-- An object is a text that stays inside, with braces around it. -/
theorem exists_braced {unresolved : Literal} {fields : List (Property TypeExpr)}
    (each : ∀ p ∈ fields, ∀ text, p.type.render unresolved = .ok text → text.StaysInside)
    {text : Text} (h : (objectOf fields).render unresolved = .ok text) :
    ∃ inner : Text, inner.StaysInside ∧
      text = ('\x7b' : CodePoint) :: (inner ++ [('\x7d' : CodePoint)]) := by
  rw [objectOf, render] at h
  split at h
  · cases h
    exact ⟨[], .nil, rfl⟩
  · obtain ⟨parts, rendered, made⟩ := bind_eq_ok.1 h
    cases made
    have spaced : Text.StaysInside (Text.join " " parts ++ " ") := by
      refine Text.StaysInside.append (.join (by decide) rfl ?_) (.of_isInert (by decide)) ?_
      · exact staysInside_renderFields each rendered
      · rintro c ⟨⟩
        decide
    refine ⟨_, Text.StaysInside.behind (s := " ") (by decide) spaced, ?_⟩
    simp [Text.ofString]

variable {names : TypeNames} {known : InterfaceNames} {t : TypeExpr}

/-- The code of a type stays inside if the names in it are enclosed. -/
theorem IsOf.staysInside (h : t.IsOf names known) (enclosed : names.AreEnclosed known) :
    ∀ {text : Text}, t.render names.unresolved = .ok text → text.StaysInside := by
  have base (b : BaseType) {text : Text}
      (printed : (names.type b).render names.unresolved = .ok text) : text.StaysInside := by
    rw [TypeNames.type, render] at printed
    cases printed
    exact Text.staysInside_of_isEnclosed (enclosed.bases b)
  have interface {target name text : Text} (resolved : known.resolve? target = some name)
      (printed : (ofInterface name).render names.unresolved = .ok text) : text.StaysInside := by
    rw [ofInterface, render] at printed
    cases printed
    exact Text.staysInside_of_isEnclosed (enclosed.interfaces target name resolved)
  induction h with
  | base b => exact base b
  | interface resolved => exact interface resolved
  | choice b resolved =>
    intro text printed
    rw [orInterface, render] at printed
    obtain ⟨parts, rendered, made⟩ := bind_eq_ok.1 printed
    cases made
    refine .join (by decide) rfl (staysInside_renderMembers ?_ rendered)
    rw [List.forall_mem_cons, List.forall_mem_singleton]
    exact ⟨fun _ => base b, fun _ => interface resolved⟩
  | target s hints =>
    intro text printed
    rw [ofTarget, render] at printed
    cases printed
    have unresolved := Text.staysInside_of_isEnclosed enclosed.unresolved
    exact unresolved.commented (Text.keepsOpen_asComment s)
  | literals some all =>
    intro text printed
    rw [ofLiterals, render] at printed
    cases printed
    refine .join (by decide) rfl fun s hs => ?_
    obtain ⟨v, hv, rfl⟩ := List.mem_map.1 hs
    exact Literal.staysInside_asType (all v hv)
  | array element ih =>
    intro text printed
    obtain ⟨inner, own, rfl⟩ := render_arrayOf_eq_ok.1 printed
    have brackets : Text.StaysInside "[]" :=
      Text.StaysInside.nil.bracketed (o := '[') (c := ']') (by decide) (by decide)
    refine (staysInside_bound (ih own)).append brackets ?_
    rintro c ⟨⟩
    decide
  | object types ih =>
    intro text printed
    obtain ⟨inner, inside, rfl⟩ := exists_braced (fun p hp _ => ih p hp) printed
    exact inside.bracketed (by decide) (by decide)

/-! ### Bars in the code of elements -/

/-- The type behind the brackets of arrays. -/
def innermost : TypeExpr → TypeExpr
  | ⟨.array, _, some element, _, _, _, _, _⟩ => element.innermost
  | t => t

theorem innermost_of_isUnion (h : t.isUnion = true) :
    t.innermost = t ∧ t.isBareName = false := by
  obtain ⟨kind, name, element, fields, literals, members, imports, hints⟩ := t
  cases kind with
  | primitive | named | array | object => cases h
  | enumeration | union | unresolved => exact ⟨rfl, rfl⟩

/-- Where the name of the innermost type stands by itself, it shows a bar. -/
def NamesBar (t : TypeExpr) : Prop :=
  t.innermost.isBareName = true ∧ t.innermost.name.said.HasBar

/-- The code of a type that is no union shows a bar just if a name in it does, which stands by
itself. -/
theorem IsOf.hasBar_iff (h : t.IsOf names known) (enclosed : names.AreEnclosed known) :
    ∀ {text : Text}, t.render names.unresolved = .ok text → t.isUnion = false →
      (text.HasBar ↔ t.NamesBar) := by
  induction h with
  | base b =>
    intro text printed _
    rw [TypeNames.type, render] at printed
    cases printed
    exact (and_iff_right rfl).symm
  | interface resolved =>
    intro text printed _
    rw [ofInterface, render] at printed
    cases printed
    exact (and_iff_right rfl).symm
  | choice | target =>
    intro text _ single
    cases single
  | @literals literals some all =>
    intro text printed single
    rw [ofLiterals, render] at printed
    cases printed
    have one : ¬1 < literals.length := of_decide_eq_false single
    rcases literals with _ | ⟨v, _ | ⟨w, rest⟩⟩
    · exact absurd rfl some
    · refine iff_of_false ?_ fun bar => by cases bar.1
      rw [List.map_singleton, Text.join_singleton]
      exact Literal.not_hasBar_asType (all v List.mem_cons_self)
    · exact absurd (by simp) one
  | @array element shape ih =>
    intro text printed _
    obtain ⟨inner, own, rfl⟩ := render_arrayOf_eq_ok.1 printed
    have same : element.arrayOf.innermost = element.innermost := rfl
    rw [Text.hasBar_append (by decide), NamesBar, same, bound]
    split
    · next union =>
      have hidden := Text.not_hasBar_bracketed (shape.staysInside enclosed own) (o := '(')
        (c := ')') (by decide) (by decide)
      have bare := innermost_of_isUnion union
      refine iff_of_false hidden fun bar => ?_
      rw [bare.1, bare.2] at bar
      cases bar.1
    · next single => exact ih own (Bool.eq_false_iff.2 single)
  | object types =>
    intro text printed _
    obtain ⟨inner, inside, rfl⟩ :=
      exists_braced (fun p hp _ => (types p hp).staysInside enclosed) printed
    refine iff_of_false ?_ fun bar => by cases bar.1
    exact Text.not_hasBar_bracketed inside (by decide) (by decide)

/-- An array whose element shows a bar has it in parentheses, unless a name shows it. -/
theorem IsOf.code_arrayOf (h : t.IsOf names known) (enclosed : names.AreEnclosed known)
    {text : Text} (printed : t.render names.unresolved = .ok text) :
    ∃ code, (arrayOf t).render names.unresolved = .ok code ∧
      ((text.HasBar → code = "(" ++ text ++ ")[]") ↔ ¬t.NamesBar) := by
  refine ⟨t.bound text ++ "[]", render_arrayOf_eq_ok.2 ⟨text, printed, rfl⟩, ?_⟩
  rw [bound]
  split
  · next union =>
    have bare := innermost_of_isUnion union
    refine iff_of_true (fun _ => by simp [Text.ofString]) fun bar => ?_
    rw [NamesBar, bare.1, bare.2] at bar
    cases bar.1
  · next single =>
    have longer : text ++ "[]" ≠ "(" ++ text ++ ")[]" := by
      intro same
      have lengths := congrArg List.length same
      simp [Text.ofString] at lengths
    rw [← h.hasBar_iff enclosed printed (Bool.eq_false_iff.2 single)]
    exact imp_congr_right fun _ => iff_of_false longer id

end TypeExpr

namespace FieldTree

/-- In the interface of what entries declare, an array whose element shows a bar outside strings,
comments and brackets has the element in parentheses, unless the bar is in a name of a type that
stands by itself there. The names of types may be any that are enclosed. -/
theorem exists_bound_arrays (es : Entries Literal) (context : Text) {names : TypeNames}
    {known : InterfaceNames} (enclosed : names.AreEnclosed known) (name : Text) :
    ∃ tree i, (ofEntries es context : Logged Error FieldTree).outcome = .ok tree ∧
      Interface.ofTree names known name tree = .ok i ∧
      ∀ n ∈ i.nodes, n.2.kind = .array → ∃ e, n.2.element = some e ∧
        ∀ text, e.render names.unresolved = .ok text →
          ∃ code, n.2.render names.unresolved = .ok code ∧
            ((text.HasBar → code = "(" ++ text ++ ")[]") ↔ ¬e.NamesBar) := by
  obtain ⟨tree, i, declared, made, -, tells⟩ := Interface.exists_tells es context names known name
  have types := Interface.isOf_of_mem_nodes (isOf_of_tells tells)
  refine ⟨tree, i, declared, made, fun n hn kind => ?_⟩
  obtain ⟨e, shape, eq⟩ := (types n hn).exists_element kind
  rw [eq]
  exact ⟨e, rfl, fun text printed => shape.code_arrayOf enclosed printed⟩

/-- A name with a bar inside brackets. -/
def bracketedNames : TypeNames := { string := .text "Array<string | null>" }

theorem exists_bound_arrays_bracketed :
    bracketedNames.AreEnclosed ⟨[]⟩ ∧
      ∃ tree i, (ofEntries [("tags", .list [.text "string"])] [] :
          Logged Error FieldTree).outcome = .ok tree ∧
        Interface.ofTree bracketedNames ⟨[]⟩ "ISample" tree = .ok i ∧
        ∀ n ∈ i.nodes, n.2.kind = .array → ∃ e, n.2.element = some e ∧
          ∀ text, e.render bracketedNames.unresolved = .ok text →
            ∃ code, n.2.render bracketedNames.unresolved = .ok code ∧
              ((text.HasBar → code = "(" ++ text ++ ")[]") ↔ ¬e.NamesBar) := by
  have enclosed : bracketedNames.AreEnclosed ⟨[]⟩ := by
    refine ⟨fun base => ?_, by decide, fun target name resolved => ?_⟩
    · cases base <;> decide
    · cases resolved
  exact ⟨enclosed, exists_bound_arrays _ [] enclosed "ISample"⟩

/-- Settings with a name that is a union. -/
def nullableSettings : Settings :=
  { custom := .gathered [(.text "string_type", .text "string | null")] }

/-- The brackets of an array bind to the last member of such a name. -/
theorem not_bound_nullable :
    Settings.load FileTree.empty "typescript" [("string_type", .text "string | null")] none =
      .ok nullableSettings ∧
    ∃ g tree i path array e, Generator.create .typeScript nullableSettings = .ok g ∧
      (ofEntries [("tags", .list [.text "string"])] [] : Logged Error FieldTree).outcome =
        .ok tree ∧
      g.model "IA" tree ⟨[]⟩ = .ok i ∧ (path, array) ∈ i.nodes ∧ array.kind = .array ∧
      array.element = some e ∧ e.render g.typeNames.unresolved = .ok "string | null" ∧
      Text.HasBar "string | null" ∧ array.render g.typeNames.unresolved = .ok "string | null[]" ∧
      Text.ofString "string | null[]" ≠ "(string | null)[]" :=
  ⟨rfl, _, _, _, _, _, _, rfl, rfl, rfl, List.mem_cons_self, rfl, rfl, rfl, by decide, rfl,
    by decide⟩

end FieldTree

end SchemaTypings
