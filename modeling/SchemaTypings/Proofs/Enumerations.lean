import SchemaTypings.Proofs.Canonical
import SchemaTypings.Proofs.Syntax

/-!
Where the values of an enumeration come from. Each enumeration of a field tree has the values of the
items that are written in one list, the `enum` of the options of its field. A name and an expression
that is not interpreted count as texts there, so a value need not be that of a constant.
-/

namespace SchemaTypings

/-! ### Enumerations in a field -/

/-- A step into a field: to the element of an array, or to a field of an object. -/
inductive Field.Step
  | element
  | field (name : Text)

namespace Field

/-- At the end of the path in a field stands an enumeration of the values. -/
inductive Enumerates : Field → List Step → List Literal → Prop
  | here {f : Field} (kind : f.kind = .enumeration) : Enumerates f [] f.literals
  | element {f e : Field} {path : List Step} {values : List Literal} (child : f.child = .element e)
    (h : Enumerates e path values) : Enumerates f (.element :: path) values
  | field {f g : Field} {tree : FieldTree} {path : List Step} {values : List Literal}
    (child : f.child = .fields tree) (mem : g ∈ tree) (h : Enumerates g path values) :
    Enumerates f (.field g.name :: path) values

variable {f g : Field} {path : List Step} {values : List Literal}

theorem Enumerates.congr (h : f.Enumerates path values) (kind : g.kind = f.kind)
    (literals : g.literals = f.literals) (child : g.child = f.child) : g.Enumerates path values := by
  cases h with
  | here enumeration =>
    rw [← literals]
    exact .here (kind.trans enumeration)
  | element inside h => exact .element (child.trans inside) h
  | field inside mem h => exact .field (child.trans inside) mem h

theorem not_enumerates (kind : f.kind ≠ .enumeration) (child : f.child = .nothing) :
    ¬f.Enumerates path values := by
  intro h
  cases h with
  | here enumeration => exact kind enumeration
  | element inside | field inside =>
    rw [child] at inside
    cases inside

theorem not_enumerates_ofText (name s : Text) : ¬(ofText name s).Enumerates path values := by
  unfold ofText
  split
  · exact not_enumerates (by simp) rfl
  split
  · exact not_enumerates (by simp) rfl
  · exact not_enumerates (by simp) rfl

theorem mapLeaf_cases (change : Field → Field) (f : Field) :
    f.mapLeaf change = change f ∨ f.mapLeaf change = f ∨
      ∃ e, f.kind = .array ∧ f.child = .element e ∧
        f.mapLeaf change = { f with child := .element (e.mapLeaf change) } := by
  obtain ⟨name, kind, required, base, child, target, viaRef, literals⟩ := f
  rw [Field.mapLeaf]
  split
  · next array =>
    cases child with
    | nothing => exact .inl rfl
    | fields tree => exact .inr (.inl rfl)
    | element e => exact .inr (.inr ⟨e, array, rfl, rfl⟩)
  · exact .inl rfl

/-- A change of the innermost element adds no enumerations but those that it makes there. -/
theorem Enumerates.of_mapLeaf {change : Field → Field} (made : List Literal → Prop)
    (child : ∀ g, (change g).child = g.child)
    (hc : ∀ g, (change g).kind = .enumeration →
      (g.kind = .enumeration ∧ (change g).literals = g.literals) ∨ made (change g).literals)
    (h : (f.mapLeaf change).Enumerates path values) :
    f.Enumerates path values ∨ ∃ n, path = List.replicate n .element ∧ made values := by
  have changed {f : Field} {path : List Step} (h : (change f).Enumerates path values) :
      f.Enumerates path values ∨ ∃ n, path = List.replicate n .element ∧ made values := by
    cases h with
    | here kind =>
      rcases hc f kind with ⟨own, same⟩ | new
      · rw [same]
        exact .inl (.here own)
      · exact .inr ⟨0, rfl, new⟩
    | element inside h => exact .inl (.element ((child f).symm.trans inside) h)
    | field inside mem h => exact .inl (.field ((child f).symm.trans inside) mem h)
  induction path generalizing f with
  | nil =>
    rcases mapLeaf_cases change f with eq | eq | ⟨e, array, -, eq⟩ <;> rw [eq] at h
    · exact changed h
    · exact .inl h
    · cases h with
      | here enumeration => cases array.symm.trans enumeration
  | cons step path ih =>
    rcases mapLeaf_cases change f with eq | eq | ⟨e, -, element, eq⟩ <;> rw [eq] at h
    · exact changed h
    · exact .inl h
    · cases h with
      | element inside h =>
        cases inside
        rcases ih h with own | ⟨n, rfl, new⟩
        · exact .inl (.element element own)
        · exact .inr ⟨n + 1, rfl, new⟩
      | field inside => cases inside

theorem Enumerates.of_withRef {options : Entries Literal}
    (h : (f.withRef options).Enumerates path values) : f.Enumerates path values := by
  unfold withRef at h
  split at h
  · split at h
    · exact h
    · next ref _ _ =>
      have reference (g : Field) : (asReference ref g).child = g.child ∧
          ((asReference ref g).kind = .enumeration →
            g.kind = .enumeration ∧ (asReference ref g).literals = g.literals) := by
        unfold asReference
        split
        · exact ⟨rfl, nofun⟩
        · exact ⟨rfl, fun kind => ⟨kind, rfl⟩⟩
      obtain own | ⟨-, -, none⟩ := h.of_mapLeaf (fun _ => False) (fun g => (reference g).1)
        fun g kind => .inl ((reference g).2 kind)
      · exact own
      · exact none.elim
  · exact h

/-- The options of a field make an enumeration of their own `enum` only. -/
theorem Enumerates.of_configured {options : Entries Literal}
    (h : (f.configured options).Enumerates path values) :
    f.Enumerates path values ∨ ∃ n, path = List.replicate n .element ∧ values ≠ [] ∧
      values = enumValues (options.get? "enum") := by
  have required {g : Field} (h : ((if isOptional (options.get? "required") then
      { g with required := false } else g).withRef options).Enumerates path values) :
      g.Enumerates path values := by
    have own := h.of_withRef
    split at own
    · exact own.congr rfl rfl rfl
    · exact own
  unfold configured at h
  dsimp only at h
  split at h
  · exact .inl (required h)
  · next some =>
    generalize enumValues (options.get? "enum") = own at h some
    have enumeration (g : Field) : (asEnumeration own g).child = g.child ∧
        ((asEnumeration own g).kind = .enumeration →
          (g.kind = .enumeration ∧ (asEnumeration own g).literals = g.literals) ∨
            (asEnumeration own g).literals = own) := by
      unfold asEnumeration
      split
      · exact ⟨rfl, fun _ => .inr rfl⟩
      · exact ⟨rfl, fun kind => .inl ⟨kind, rfl⟩⟩
    obtain inner | ⟨n, path, rfl⟩ := h.of_mapLeaf (· = own) (fun g => (enumeration g).1)
      fun g => (enumeration g).2
    · exact .inl (required inner)
    · exact .inr ⟨n, path, by simpa using some, rfl⟩

/-! ### Declared fields -/

theorem name_mapLeaf {change : Field → Field} (hc : ∀ g, (change g).name = g.name) (f : Field) :
    (f.mapLeaf change).name = f.name := by
  rcases mapLeaf_cases change f with eq | eq | ⟨e, -, -, eq⟩ <;> rw [eq]
  exact hc f

theorem name_asReference (ref : Text) (g : Field) : (g.asReference ref).name = g.name := by
  unfold asReference
  split <;> rfl

theorem name_asEnumeration (values : List Literal) (g : Field) :
    (g.asEnumeration values).name = g.name := by
  unfold asEnumeration
  split <;> rfl

theorem name_configured (options : Entries Literal) (f : Field) :
    (f.configured options).name = f.name := by
  have ref (g : Field) : (g.withRef options).name = g.name := by
    unfold withRef
    split
    · split
      · rfl
      · exact name_mapLeaf (name_asReference _) g
    · rfl
  have required : (if isOptional (options.get? "required") then { f with required := false }
      else f).name = f.name := by
    split <;> rfl
  unfold configured
  dsimp only
  split
  · rw [ref, required]
  · rw [name_mapLeaf (name_asEnumeration _), ref, required]

theorem declaredType?_eq (name : Text) (options : Entries Literal) :
    declaredType? name options = (options.get? "type").bind (declared? name) := by
  induction options with
  | nil => rfl
  | cons e rest ih =>
    obtain ⟨k, v⟩ := e
    rw [declaredType?, Entries.get?]
    split
    · rfl
    · exact ih

/-- A value declares a field of the name that it is given. -/
theorem name_of_declared? {name : Text} {v : Literal} (h : declared? name v = some f) :
    f.name = name := by
  induction v using Literal.induct generalizing f with
  | null | bool | int | float => cases h
  | text s =>
    cases h
    unfold ofText
    split
    · rfl
    split <;> rfl
  | list =>
    rw [declared?] at h
    cases h
    rfl
  | object es ih =>
    by_cases empty : es = []
    · subst empty
      cases h
      rfl
    rw [declared?_object empty] at h
    split at h
    · obtain ⟨g, type, rfl⟩ := Option.map_eq_some_iff.1 h
      rw [declaredType?_eq] at type
      obtain ⟨v, get, type⟩ := Option.bind_eq_some_iff.1 type
      rw [name_configured]
      exact ih _ (Entries.mem_of_get? get) type
    · cases h
      rfl

theorem exists_of_mem_declaredTree {es : Entries Literal} {tree : FieldTree}
    (h : f ∈ declaredTree es tree) : f ∈ tree ∨ ∃ e ∈ es, declared? e.1 e.2 = some f := by
  induction es generalizing tree with
  | nil => exact .inl h
  | cons e rest ih =>
    obtain ⟨k, v⟩ := e
    rw [declaredTree] at h
    split at h
    · next g hg =>
      rcases ih h with h | ⟨e, he, hf⟩
      · rcases List.mem_append.1 h with h | h
        · exact .inl (List.mem_filter.1 h).1
        · rw [List.mem_singleton.1 h]
          exact .inr ⟨(k, v), List.mem_cons_self, hg⟩
      · exact .inr ⟨e, List.mem_cons_of_mem _ he, hf⟩
    · rcases ih h with h | ⟨e, he, hf⟩
      · exact .inl h
      · exact .inr ⟨e, List.mem_cons_of_mem _ he, hf⟩

end Field

/-! ### What is written for enumerations -/

namespace Written

/-- Induction over what is written, whose parts are the items of a list and the values of an
object. -/
@[elab_as_elim]
theorem induct {motive : Written → Prop} (null : motive .null) (bool : ∀ b, motive (.bool b))
    (number : ∀ v, motive (.number v)) (string : ∀ s, motive (.string s))
    (name : ∀ path, motive (.name path)) (expression : ∀ s, motive (.expression s))
    (list : ∀ items, (∀ w ∈ items, motive w) → motive (.list items))
    (object : ∀ es, (∀ e ∈ es, motive e.2) → motive (.object es)) (w : Written) : motive w := by
  induction h : sizeOf w using Nat.strongRecOn generalizing w with
  | ind n ih =>
    subst h
    cases w with
    | null => exact null
    | bool b => exact bool b
    | number v => exact number v
    | string s => exact string s
    | name path => exact name path
    | expression s => exact expression s
    | list items =>
      refine list items fun w hw => ih (sizeOf w) ?_ w rfl
      have := List.sizeOf_lt_of_mem hw
      simp only [Written.list.sizeOf_spec]
      omega
    | object es =>
      refine object es fun e he => ih (sizeOf e.2) ?_ e.2 rfl
      have := List.sizeOf_lt_of_mem he
      obtain ⟨k, w⟩ := e
      simp only [Written.object.sizeOf_spec, Prod.mk.sizeOf_spec] at this ⊢
      omega

/-- Its value where a plain value belongs. -/
def value (w : Written) : Literal := w.raw.quoteOption

/-- A string or a number, with or without a minus sign. -/
def isConstant : Written → Bool
  | .string _ => true
  | .number _ => true
  | _ => false

def isOptions (es : Entries Written) : Bool := Raw.isOptions (es.map fun e => (e.1, e.2.raw))

def items? : Written → Option (List Written)
  | .list items => some items
  | _ => none

/-- The list that is written for `enum`, or in an object for `enum` for `values`. -/
def enumItems? (es : Entries Written) : Option (List Written) :=
  match es.get? "enum" with
  | some (.object inner) => (Entries.get? inner "values").bind items?
  | other => other.bind items?

/-- At the end of the path in the field that is written, items are listed: as the `enum` of options,
for the innermost element if these describe an array, or inside the `type` of options, the first
element of an array, or a nested field. -/
inductive Enumerates : Written → List Field.Step → List Written → Prop
  | own {es : Entries Written} {items : List Written} (n : Nat) (options : isOptions es = true)
    (enum : enumItems? es = some items) : Enumerates (.object es) (List.replicate n .element) items
  | type {es : Entries Written} {w : Written} {path : List Field.Step} {items : List Written}
    (options : isOptions es = true) (type : es.get? "type" = some w) (h : Enumerates w path items) :
    Enumerates (.object es) path items
  | element {w : Written} {rest : List Written} {path : List Field.Step} {items : List Written}
    (h : Enumerates w path items) : Enumerates (.list (w :: rest)) (.element :: path) items
  | field {es : Entries Written} {name : Text} {w : Written} {path : List Field.Step}
    {items : List Written} (plain : isOptions es = false) (mem : (name, w) ∈ es)
    (h : Enumerates w path items) : Enumerates (.object es) (.field name :: path) items

/-- The values of an enumeration are those of the items, each once. -/
structure Lists (items : List Written) (values : List Literal) : Prop where
  values : values = Field.distinct (items.map value)
  enumerable : ∀ w ∈ items, w.value.IsEnumerable

theorem value_eq_list {w : Written} {values : List Literal} (h : w.value = .list values) :
    ∃ items, w.items? = some items ∧ values = items.map value := by
  cases w with
  | list items =>
    rw [value, raw_list, Raw.quoteOption_list, List.map_map] at h
    exact ⟨items, rfl, (Literal.list.inj h).symm⟩
  | object es =>
    rw [value, raw_object, Raw.quoteOption_object] at h
    cases h
  | number v => cases v <;> cases h
  | _ => cases h

theorem value_eq_object {w : Written} {entries : Entries Literal} (h : w.value = .object entries) :
    ∃ es, w = .object es ∧ entries = es.map fun e => (e.1, e.2.value) := by
  cases w with
  | object es =>
    rw [value, raw_object, Raw.quoteOption_object, List.map_map] at h
    exact ⟨es, rfl, (Literal.object.inj h).symm⟩
  | list items =>
    rw [value, raw_list, Raw.quoteOption_list] at h
    cases h
  | number v => cases v <;> cases h
  | _ => cases h

/-- What counts as an `enum` is written as a list, or as an object with one. -/
theorem exists_lists {es : Entries Written} {option : Option Literal}
    (get : option = (es.get? "enum").map value) (some : Field.enumValues option ≠ []) :
    ∃ items, enumItems? es = .some items ∧ Lists items (Field.enumValues option) := by
  obtain none | ⟨values, list, all, eq⟩ := Field.enumValues_cases option
  · exact absurd none some
  have lists {items : List Written} (h : values = items.map value) :
      Lists items (Field.enumValues option) := by
    subst h
    exact ⟨eq, fun w hw => all _ (List.mem_map_of_mem hw)⟩
  rcases list with list | ⟨entries, object, list⟩
  · obtain ⟨w, enum, written⟩ := Option.map_eq_some_iff.1 (get.symm.trans list)
    obtain ⟨items, items?, h⟩ := value_eq_list written
    refine ⟨items, ?_, lists h⟩
    rw [enumItems?, enum]
    cases w with
    | list => exact items?
    | _ => cases items?
  · obtain ⟨w, enum, written⟩ := Option.map_eq_some_iff.1 (get.symm.trans object)
    obtain ⟨inner, rfl, rfl⟩ := value_eq_object written
    rw [Entries.get?_map fun _ => value] at list
    obtain ⟨u, get, written⟩ := Option.map_eq_some_iff.1 list
    obtain ⟨items, items?, h⟩ := value_eq_list written
    refine ⟨items, ?_, lists h⟩
    rw [enumItems?, enum]
    simp only [get, Option.bind_some, items?]

/-! ### What is written and what is declared -/

/-- The entries of an object where a type belongs. -/
def quoted (es : Entries Written) : Entries Literal :=
  es.map fun e => (e.1, Raw.quoteIn (es.map fun e => (e.1, e.2.raw)) e.1 e.2.raw)

theorem quoteType_object (es : Entries Written) :
    (object es).raw.quoteType = .object (quoted es) := by
  rw [raw_object, Raw.quoteType_object, List.map_map]
  rfl

theorem isOptions_quoted (es : Entries Written) : Literal.isOptions (quoted es) = isOptions es := by
  have same := Raw.isOptions_quoteIn (es.map fun e => (e.1, e.2.raw))
  rwa [List.map_map] at same

theorem get?_quoted (es : Entries Written) (key : Text) : (quoted es).get? key =
    (Entries.get? es key).map fun w => Raw.quoteIn (es.map fun e => (e.1, e.2.raw)) key w.raw :=
  Entries.get?_map (fun k (w : Written) =>
    Raw.quoteIn (es.map fun e : Text × Written => (e.1, e.2.raw)) k w.raw) es key

theorem get?_quoted_type (es : Entries Written) :
    (quoted es).get? "type" = (Entries.get? es "type").map fun w => w.raw.quoteType := by
  have type : Raw.isTypeKey "type" = true := by decide
  simp only [get?_quoted, Raw.quoteIn, type, Bool.not_true, Bool.and_false, Bool.false_eq_true,
    if_false]

theorem get?_quoted_enum {es : Entries Written} (options : isOptions es = true) :
    (quoted es).get? "enum" = (Entries.get? es "enum").map value := by
  have plain : Raw.isTypeKey "enum" = false := by decide
  rw [isOptions] at options
  simp only [get?_quoted, Raw.quoteIn, plain, options, Bool.not_false, Bool.and_true, if_true]
  rfl

theorem mem_quoted {es : Entries Written} (plain : isOptions es = false) {e : Text × Literal}
    (h : e ∈ quoted es) : ∃ w, (e.1, w) ∈ es ∧ e.2 = w.raw.quoteType := by
  obtain ⟨⟨k, w⟩, he, rfl⟩ := List.mem_map.1 h
  rw [isOptions] at plain
  refine ⟨w, he, ?_⟩
  rw [Raw.quoteIn, plain]
  rfl

/-- Each enumeration of the field that a value declares is written as one. -/
theorem exists_enumerates (w : Written) {name : Text} {f : Field} {path : List Field.Step}
    {values : List Literal} (declared : Field.declared? name w.raw.quoteType = some f)
    (h : f.Enumerates path values) : ∃ items, w.Enumerates path items ∧ Lists items values := by
  induction w using induct generalizing name f path values with
  | null | bool => cases declared
  | number v => cases v <;> cases declared
  | string | name | expression =>
    cases declared
    exact absurd h (Field.not_enumerates_ofText _ _)
  | list ws ih =>
    rw [raw_list, Raw.quoteType_list, List.map_map, Field.declared?] at declared
    cases declared
    cases h with
    | here kind => cases kind
    | field inside => cases inside
    | element inside h =>
      cases inside
      cases ws with
      | nil => exact absurd h (Field.not_enumerates (by decide) rfl)
      | cons w rest =>
        rw [List.map_cons, Field.declaredElement] at h
        split at h
        · exact absurd h (Field.not_enumerates (by decide) rfl)
        · cases first : Field.declared? "element" (Raw.quoteType w.raw) with
          | none =>
            rw [Function.comp_apply, first] at h
            exact absurd h (Field.not_enumerates (by decide) rfl)
          | some e =>
            rw [Function.comp_apply, first] at h
            obtain ⟨items, enumerates, lists⟩ := ih w List.mem_cons_self first h
            exact ⟨items, .element enumerates, lists⟩
  | object es ih =>
    by_cases empty : es = []
    · subst empty
      cases declared
      exact absurd h (Field.not_enumerates (by simp) rfl)
    rw [quoteType_object, Field.declared?_object (by simpa [quoted] using empty),
      isOptions_quoted] at declared
    split at declared
    · next options =>
      obtain ⟨g, type, rfl⟩ := Option.map_eq_some_iff.1 declared
      rcases h.of_configured with h | ⟨n, rfl, some, rfl⟩
      · rw [Field.declaredType?_eq, get?_quoted_type] at type
        obtain ⟨v, quoted, field⟩ := Option.bind_eq_some_iff.1 type
        obtain ⟨w, get, rfl⟩ := Option.map_eq_some_iff.1 quoted
        obtain ⟨items, enumerates, lists⟩ := ih _ (Entries.mem_of_get? get) field h
        exact ⟨items, .type options get enumerates, lists⟩
      · obtain ⟨items, enum, lists⟩ := exists_lists (get?_quoted_enum options) some
        exact ⟨items, .own n options enum, lists⟩
    · next plain =>
      cases declared
      cases h with
      | here kind => cases kind
      | element inside => cases inside
      | field inside mem h =>
        cases inside
        rw [Bool.not_eq_true] at plain
        obtain none | ⟨e, he, field⟩ := Field.exists_of_mem_declaredTree mem
        · cases none
        · obtain ⟨w, hw, eq⟩ := mem_quoted plain he
          rw [eq] at field
          obtain ⟨items, enumerates, lists⟩ := ih _ hw field h
          rw [Field.name_of_declared? field]
          exact ⟨items, .field plain hw enumerates, lists⟩

/-! ### Constants -/

/-- What counts as one of an enumeration and is no constant counts as a text. -/
theorem isText_of_not_isConstant {w : Written} (h : w.value.IsEnumerable)
    (other : w.isConstant = false) : w.value.isText = true := by
  cases w with
  | name | expression => rfl
  | number | string => cases other
  | list items =>
    rw [value, raw_list, Raw.quoteOption_list] at h
    cases h
  | object es =>
    rw [value, raw_object, Raw.quoteOption_object] at h
    cases h
  | null | bool => cases h

end Written

namespace Field

theorem eq_of_sameScalar_text {v : Literal} {s : Text} (h : v.sameScalar (.text s) = true) :
    v = .text s := by
  cases v with
  | text t => rw [of_decide_eq_true h]
  | _ => cases h

/-- No text is lost among values that are kept once each. -/
theorem text_mem_distinct {values : List Literal} {s : Text} (h : .text s ∈ values) :
    .text s ∈ distinct values :=
  mem_keepNew (fun _ => eq_of_sameScalar_text) (.inr h)

end Field

/-- All values are those of constants exactly if every item has the value of a constant. -/
theorem Written.Lists.forall_constant_iff {items : List Written} {values : List Literal}
    (h : Lists items values) :
    (∀ v ∈ values, ∃ c ∈ items, c.isConstant = true ∧ c.value = v) ↔
      ∀ w ∈ items, ∃ c ∈ items, c.isConstant = true ∧ c.value = w.value := by
  rw [h.values]
  constructor
  · intro all w hw
    cases other : w.isConstant with
    | true => exact ⟨w, hw, other, rfl⟩
    | false =>
      refine all _ ?_
      have text := isText_of_not_isConstant (h.enumerable w hw) other
      have mem := List.mem_map_of_mem (f := value) hw
      cases value : w.value with
      | text s => exact Field.text_mem_distinct (value ▸ mem)
      | _ => simp [value, Literal.isText] at text
  · intro all v hv
    obtain ⟨w, hw, rfl⟩ := List.mem_map.1 (Field.mem_of_mem_distinct hv)
    exact all w hw

/-! ### The enumerations of a declaration -/

namespace FieldTree

variable {text normalized : Text} {path : Option Text} {tree : FieldTree}

/-- Canonical text on one line has the fields that the declaration was read as. -/
theorem exists_declared (hn : (Declaration.normalize text).outcome = .ok normalized)
    (hm : (materialize normalized path).outcome = .ok tree)
    (line : ('\n' : CodePoint) ∉ normalized) :
    ∃ raw, (Declaration.readRaw text).outcome = .ok raw ∧
      tree = declared (Raw.quoteFields raw) := by
  obtain ⟨fields, es, typed, finite, respelled, rfl⟩ := exists_respelled hn hm
  rw [Declaration.outcome_read] at typed
  obtain ⟨raw, read, rfl⟩ := map_eq_ok.1 typed
  rw [Declaration.outcome_normalize, read] at hn
  cases hn
  have kept := (Literal.not_mem_render_iff _).1 line
  rw [Literal.respelled_eq (Declaration.quoted_of_readRaw read).1 kept finite] at respelled
  exact ⟨raw, read, by rw [Literal.object.inj respelled]⟩

/-- Each enumeration of a declaration has the values of the items of one list, which is written for
the `enum` of its field. All of them are values of constants in that list exactly if every other item
of it, a name or an expression, has the value of one. The canonical text has a line feed only where a
key ends with one; such a key is read without it, so that it is no longer the one that is
written. -/
theorem exists_written_enumeration (hn : (Declaration.normalize text).outcome = .ok normalized)
    (hm : (materialize normalized path).outcome = .ok tree)
    (line : ('\n' : CodePoint) ∉ normalized) :
    ∃ entries, Declaration.Declares text entries ∧ ∀ f ∈ tree, ∀ steps values,
      f.Enumerates steps values → ∃ w items, (f.name, w) ∈ entries ∧ w.Enumerates steps items ∧
        values = Field.distinct (items.map Written.value) ∧
        ((∀ v ∈ values, ∃ c ∈ items, c.isConstant = true ∧ c.value = v) ↔
          ∀ w ∈ items, ∃ c ∈ items, c.isConstant = true ∧ c.value = w.value) := by
  obtain ⟨raw, read, rfl⟩ := exists_declared hn hm line
  obtain ⟨entries, declares, rfl⟩ := Declaration.exists_declares read
  refine ⟨entries, declares, fun f hf steps values enumerates => ?_⟩
  obtain none | ⟨e, he, field⟩ := Field.exists_of_mem_declaredTree hf
  · cases none
  rw [Raw.quoteFields_eq_map, List.map_map] at he
  obtain ⟨⟨key, w⟩, hw, rfl⟩ := List.mem_map.1 he
  obtain ⟨items, written, lists⟩ := w.exists_enumerates field enumerates
  rw [Field.name_of_declared? field]
  exact ⟨w, items, hw, written, lists.values, lists.forall_constant_iff⟩

/-- A schema with an enumeration of strings, with a name among them, and one of numbers for the
elements of an array. -/
def enumSample : Text :=
  "\x7b a: \x7b type: String, enum: ['x', ROLE, 'y' as T] \x7d, " ++
    "b: \x7b type: [Number], enum: \x7b values: [1, -2] \x7d \x7d \x7d"

theorem exists_written_enumeration_sample :
    ∃ normalized tree, (Declaration.normalize enumSample).outcome = .ok normalized ∧
      (materialize normalized none).outcome = .ok tree ∧ ('\n' : CodePoint) ∉ normalized ∧
      ∃ entries, Declaration.Declares enumSample entries ∧ ∀ f ∈ tree, ∀ steps values,
        f.Enumerates steps values → ∃ w items, (f.name, w) ∈ entries ∧ w.Enumerates steps items ∧
          values = Field.distinct (items.map Written.value) ∧
          ((∀ v ∈ values, ∃ c ∈ items, c.isConstant = true ∧ c.value = v) ↔
            ∀ w ∈ items, ∃ c ∈ items, c.isConstant = true ∧ c.value = w.value) := by
  have ran : ((Declaration.normalize enumSample).outcome.toOption.any fun normalized =>
      decide (('\n' : CodePoint) ∉ normalized) &&
        (materialize normalized none).outcome.toOption.isSome) = true := by
    rw [enumSample, Text.ofString_ofList, Text.ofString_ofList]
    decide +kernel
  obtain ⟨normalized, canonical, ran⟩ := exists_of_toOption_any ran
  rw [Bool.and_eq_true, decide_eq_true_eq, Option.isSome_iff_exists] at ran
  obtain ⟨line, tree, materialized⟩ := ran
  have materialized := ok_of_toOption materialized
  exact ⟨normalized, tree, canonical, materialized, line,
    exists_written_enumeration canonical materialized line⟩

/-- The text declares an enumeration with a value, though no token of it is a string or a number. -/
def Invents (text value : Text) : Prop :=
  ∃ normalized tree ts, (Declaration.normalize text).outcome = .ok normalized ∧
    (materialize normalized none).outcome = .ok tree ∧ tokenize text = .ok ts ∧
    (∃ f ∈ tree, f.Enumerates [] f.literals ∧ .text value ∈ f.literals) ∧
    ∀ t ∈ ts, t.kind ≠ .string ∧ t.kind ≠ .number

/-- A name becomes a value that is allowed. -/
theorem invents_role : Invents "\x7b a: \x7b type: String, enum: [ROLE] \x7d \x7d" "ROLE" := by
  have ran : (let text : Text := "\x7b a: \x7b type: String, enum: [ROLE] \x7d \x7d"
      (Declaration.normalize text).outcome.toOption.any fun normalized =>
        (materialize normalized none).outcome.toOption.any fun tree =>
          tree.any (fun f => decide (f.kind = .enumeration) &&
            f.literals.any (·.sameScalar (.text "ROLE"))) &&
          (tokenize text).toOption.any fun ts =>
            ts.all fun t => decide (t.kind ≠ .string ∧ t.kind ≠ .number)) = true := by
    decide +kernel
  simp only [Option.any_eq_true, Bool.and_eq_true, List.any_eq_true, List.all_eq_true,
    decide_eq_true_eq] at ran
  obtain ⟨normalized, canonical, tree, materialized, ⟨f, hf, kind, v, hv, same⟩, ts, tokens,
    plain⟩ := ran
  refine ⟨normalized, tree, ts, ok_of_toOption canonical, ok_of_toOption materialized,
    ok_of_toOption tokens, ⟨f, hf, .here kind, ?_⟩, plain⟩
  rwa [← Field.eq_of_sameScalar_text same]

end FieldTree

end SchemaTypings
