import SchemaTypings.Proofs.Enumerations
import SchemaTypings.Proofs.Mapping

/-!
The shape of declared fields. Every kind of field has the parts that it takes, at every depth, and
that is all that the types of a tree and their code depend on.
-/

namespace SchemaTypings

/-- No value is the same as one before it. -/
def Literal.AreDistinct (values : List Literal) : Prop :=
  values.Pairwise fun v w => v.sameScalar w = false

/-- Values of a type that can be enumerated: texts of a string, numbers of a number. -/
inductive Literal.AreOf : Option BaseType → List Literal → Prop
  | string {values : List Literal} (h : ∀ v ∈ values, v.isText = true) : AreOf (some .string) values
  | number {values : List Literal} (h : ∀ v ∈ values, v.isNumber = true) :
    AreOf (some .number) values

/-- A field with the parts of its kind, and so is every field in it. -/
inductive Field.IsWellformed : Field → Prop
  | primitive {f : Field} (kind : f.kind = .primitive) (base : f.base.isSome = true) :
    IsWellformed f
  | array {f e : Field} (kind : f.kind = .array) (child : f.child = .element e)
      (named : e.name = "element") (element : IsWellformed e) : IsWellformed f
  | nested {f : Field} {tree : FieldTree} (kind : f.kind = .nested) (child : f.child = .fields tree)
      (distinct : tree.names.Nodup) (fields : ∀ g ∈ tree, IsWellformed g) : IsWellformed f
  | enumeration {f : Field} (kind : f.kind = .enumeration) (some : f.literals ≠ [])
      (distinct : Literal.AreDistinct f.literals) (typed : Literal.AreOf f.base f.literals) :
    IsWellformed f
  | reference {f : Field} {target : Text} (kind : f.kind = .reference)
      (named : f.target = some target) (some : target ≠ [])
      (base : f.viaRef = true → f.base.isSome = true) : IsWellformed f

/-- Fields of the shape of their kinds, no two of one name. -/
structure FieldTree.IsWellformed (tree : FieldTree) : Prop where
  distinct : tree.names.Nodup
  fields : ∀ f ∈ tree, f.IsWellformed

theorem FieldTree.IsWellformed.add {tree : FieldTree} {f : Field} (h : tree.IsWellformed)
    (hf : f.IsWellformed) : (tree.add f).IsWellformed where
  distinct := by
    rw [names_add]
    refine List.nodup_append.2 ⟨h.distinct.filter _, List.nodup_singleton _, ?_⟩
    intro n hn m hm same
    rw [List.mem_singleton.1 hm] at same
    exact of_decide_eq_true (List.mem_filter.1 hn).2 same
  fields g hg := by
    rcases List.mem_append.1 hg with hg | hg
    · exact h.fields g (List.mem_filter.1 hg).1
    · rwa [List.mem_singleton.1 hg]

namespace Field

variable {f : Field}

/-! ### Changes of a field -/

/-- Whether a field is optional is no part of its shape. -/
theorem IsWellformed.optional (h : f.IsWellformed) (required : Bool) :
    ({ f with required } : Field).IsWellformed := by
  cases h with
  | primitive kind base => exact .primitive kind base
  | array kind child named element => exact .array kind child named element
  | nested kind child distinct fields => exact .nested kind child distinct fields
  | enumeration kind some distinct typed => exact .enumeration kind some distinct typed
  | reference kind named some base => exact .reference kind named some base

theorem IsWellformed.base (h : f.IsWellformed) (kind : f.kind = .primitive) :
    f.base.isSome = true := by
  cases h with
  | primitive _ base => exact base
  | array other | nested other | enumeration other | reference other =>
    rw [kind] at other
    cases other

/-- A plain field keeps its base type when it becomes a reference. -/
theorem IsWellformed.asReference {ref : Text} (some : ref ≠ []) (h : f.IsWellformed) :
    (f.asReference ref).IsWellformed := by
  unfold Field.asReference
  split
  · next kind => exact .reference rfl rfl some fun _ => h.base kind
  · exact h

theorem areOf_of_admits {values : List Literal} (h : f.admits values = true) :
    Literal.AreOf f.base values := by
  rw [admits, Bool.or_eq_true, Bool.and_eq_true, Bool.and_eq_true] at h
  rcases h with ⟨base, all⟩ | ⟨base, all⟩
  · rw [of_decide_eq_true base]
    exact .string (List.all_eq_true.1 all)
  · rw [of_decide_eq_true base]
    exact .number (List.all_eq_true.1 all)

theorem IsWellformed.asEnumeration {values : List Literal} (some : values ≠ [])
    (distinct : Literal.AreDistinct values) (h : f.IsWellformed) :
    (f.asEnumeration values).IsWellformed := by
  unfold Field.asEnumeration
  split
  · next plain => exact .enumeration rfl some distinct (areOf_of_admits plain.2)
  · exact h

theorem mapLeaf_of_ne {change : Field → Field} (h : f.kind ≠ .array) :
    f.mapLeaf change = change f := by
  obtain ⟨⟩ := f
  rw [mapLeaf, if_neg h]

/-- A change at the innermost element leaves the arrays around it. -/
theorem IsWellformed.mapLeaf {change : Field → Field} (named : ∀ g, (change g).name = g.name)
    (hc : ∀ g : Field, g.IsWellformed → (change g).IsWellformed) (h : f.IsWellformed) :
    (f.mapLeaf change).IsWellformed := by
  have here {g : Field} (kind : g.kind ≠ .array) (shape : g.IsWellformed) :
      (g.mapLeaf change).IsWellformed := by
    rw [mapLeaf_of_ne kind]
    exact hc g shape
  induction h with
  | @array f e kind child name element ih =>
    rcases mapLeaf_cases change f with eq | eq | ⟨e', -, child', eq⟩ <;> rw [eq]
    · exact hc f (.array kind child name element)
    · exact .array kind child name element
    · rw [child] at child'
      cases child'
      exact .array kind rfl ((name_mapLeaf named e).trans name) ih
  | primitive kind base => exact here (by rw [kind]; decide) (.primitive kind base)
  | nested kind child distinct fields =>
    exact here (by rw [kind]; decide) (.nested kind child distinct fields)
  | enumeration kind some distinct typed =>
    exact here (by rw [kind]; decide) (.enumeration kind some distinct typed)
  | reference kind name some base => exact here (by rw [kind]; decide) (.reference kind name some base)

theorem areDistinct_distinct (values : List Literal) : Literal.AreDistinct (distinct values) :=
  pairwise_keepNew List.Pairwise.nil

theorem areDistinct_enumValues (option : Option Literal) :
    Literal.AreDistinct (enumValues option) := by
  rcases enumValues_cases option with none | ⟨values, -, -, eq⟩
  · rw [none]
    exact List.Pairwise.nil
  · rw [eq]
    exact areDistinct_distinct values

/-- The options change a field at most into a reference or an enumeration of its values. -/
theorem IsWellformed.configured (options : Entries Literal) (h : f.IsWellformed) :
    (f.configured options).IsWellformed := by
  have required : (if isOptional (options.get? "required") then { f with required := false }
      else f).IsWellformed := by
    split
    · exact h.optional false
    · exact h
  have ref {g : Field} (hg : g.IsWellformed) : (g.withRef options).IsWellformed := by
    unfold withRef
    split
    · next ref get =>
      split
      · exact hg
      · next some =>
        exact hg.mapLeaf (name_asReference ref) fun _ => .asReference (by simpa using some)
    · exact hg
  unfold Field.configured
  dsimp only
  split
  · exact ref required
  · next some =>
    exact (ref required).mapLeaf (name_asEnumeration _) fun _ =>
      .asEnumeration (by simpa using some) (areDistinct_enumValues _)

/-! ### What values declare -/

theorem isWellformed_ofText (name s : Text) : (ofText name s).IsWellformed := by
  unfold ofText
  split
  · exact .primitive rfl rfl
  · next some =>
    split
    · exact .primitive rfl rfl
    · exact .reference rfl rfl (by simpa using some) fun via => by cases via

theorem isWellformed_declaredTree {es : Entries Literal} {tree : FieldTree}
    (h : ∀ e ∈ es, ∀ f, declared? e.1 e.2 = some f → f.IsWellformed) (ht : tree.IsWellformed) :
    FieldTree.IsWellformed (declaredTree es tree) := by
  induction es generalizing tree with
  | nil =>
    rw [declaredTree]
    exact ht
  | cons e rest ih =>
    obtain ⟨name, value⟩ := e
    have others := fun e he => h e (List.mem_cons_of_mem _ he)
    rw [declaredTree]
    split
    · next f declared => exact ih others (ht.add (h _ List.mem_cons_self f declared))
    · exact ih others ht

theorem isWellformed_declared? {name : Text} {v : Literal} (h : declared? name v = some f) :
    f.IsWellformed := by
  induction v using Literal.induct generalizing name f with
  | null | bool | int | float => cases h
  | text s =>
    cases h
    exact isWellformed_ofText name s
  | list items ih =>
    rw [declared?] at h
    cases h
    -- Of the items, at most the first declares the element.
    have element : (declaredElement items).name = "element" ∧
        (declaredElement items).IsWellformed := by
      cases items with
      | nil =>
        rw [declaredElement]
        exact ⟨rfl, .primitive rfl rfl⟩
      | cons v rest =>
        rw [declaredElement]
        split
        · exact ⟨rfl, .primitive rfl rfl⟩
        cases first : declared? "element" v with
        | none => exact ⟨rfl, .primitive rfl rfl⟩
        | some e => exact ⟨name_of_declared? first, ih v List.mem_cons_self first⟩
    exact .array rfl rfl element.1 element.2
  | object es ih =>
    by_cases empty : es = []
    · subst empty
      cases h
      exact .primitive rfl rfl
    rw [declared?_object empty] at h
    split at h
    · obtain ⟨g, type, rfl⟩ := Option.map_eq_some_iff.1 h
      rw [declaredType?_eq] at type
      obtain ⟨v, get, type⟩ := Option.bind_eq_some_iff.1 type
      exact (ih _ (Entries.mem_of_get? get) type).configured es
    · cases h
      have tree : FieldTree.IsWellformed (declaredTree es []) :=
        isWellformed_declaredTree (fun e he _ => ih e he) ⟨List.nodup_nil, nofun⟩
      exact .nested rfl rfl tree.distinct tree.fields

/-! ### Types and code -/

/-- What the types of fields need of them is part of their shape. -/
theorem IsWellformed.isWhole (h : f.IsWellformed) : f.isWhole = true := by
  induction h with
  | @primitive f kind base =>
    obtain ⟨⟩ := f
    cases kind
    exact base
  | @array f e kind child _ _ ih =>
    obtain ⟨⟩ := f
    cases kind
    cases child
    exact ih
  | @nested f tree kind child _ _ ih =>
    obtain ⟨⟩ := f
    cases kind
    cases child
    rw [Field.isWhole, objectIsWhole, treeIsWhole_eq_all]
    exact List.all_eq_true.2 ih
  | @enumeration f kind =>
    obtain ⟨⟩ := f
    cases kind
    rfl
  | @reference f target kind named =>
    obtain ⟨⟩ := f
    cases kind
    cases named
    rfl

end Field

theorem TypeExpr.prints_of_renderFields {unresolved : Literal} {fields : List (Property TypeExpr)}
    {codes : List Text} (h : renderFields unresolved fields = .ok codes) :
    ∀ p ∈ fields, p.type.Prints unresolved := by
  induction fields generalizing codes with
  | nil => exact nofun
  | cons p rest ih =>
    obtain ⟨name, type, optional⟩ := p
    rw [renderFields] at h
    obtain ⟨code, own, h⟩ := bind_eq_ok.1 h
    obtain ⟨others, behind, -⟩ := bind_eq_ok.1 h
    intro q hq
    rcases List.mem_cons.1 hq with rfl | hq
    · exact ⟨code, own⟩
    · exact ih behind q hq

namespace FieldTree

/-- The interface of a tree of fields of the right shape, whatever names are known and whatever texts
name the base types, and the code of its types. -/
theorem IsWellformed.exists_interface {tree : FieldTree} (h : tree.IsWellformed) {names : TypeNames}
    (texts : ∀ base, (names.name base).isText = true) (known : InterfaceNames) (name : Text) :
    ∃ i, Interface.ofTree names known name tree = .ok i ∧ i.name = name ∧
      i.fields.map (·.name) = tree.names ∧ ∀ p ∈ i.fields, p.type.Prints names.unresolved := by
  have whole : treeIsWhole tree = true := by
    rw [treeIsWhole_eq_all]
    exact List.all_eq_true.2 fun f hf => (h.fields f hf).isWhole
  obtain ⟨fields, made, codes, printed⟩ :=
    TypeExpr.exists_ofTree known names.unresolved texts tree whole name
  refine ⟨⟨name, fields⟩, ?_, rfl, ?_, TypeExpr.prints_of_renderFields printed⟩
  · rw [Interface.ofTree, made]
    rfl
  · have same := TypeExpr.forall₂_of_ofTree made
    clear made printed whole h
    induction same with
    | nil => rfl
    | cons of _ ih => rw [List.map_cons, ih, of.name]; rfl

/-- What entries declare is a tree of fields of the right shape, at every depth, so there is an
interface of it, and code of each of its types. -/
theorem exists_wellformed (es : Entries Literal) (context : Text) :
    ∃ tree, (ofEntries es context : Logged Error FieldTree).outcome = .ok tree ∧
      tree.IsWellformed ∧
      ∀ names : TypeNames, (∀ base, (names.name base).isText = true) →
        ∀ (known : InterfaceNames) (name : Text), ∃ i,
          Interface.ofTree names known name tree = .ok i ∧ i.fields.map (·.name) = tree.names ∧
            ∀ p ∈ i.fields, ∃ code, p.type.render names.unresolved = .ok code := by
  have shape : (declared es).IsWellformed :=
    Field.isWellformed_declaredTree (fun _ _ _ => Field.isWellformed_declared?)
      ⟨List.nodup_nil, nofun⟩
  refine ⟨declared es, outcome_ofEntries es context, shape, fun names texts known name => ?_⟩
  obtain ⟨i, made, -, named, printed⟩ := shape.exists_interface texts known name
  exact ⟨i, made, named, printed⟩

/-- Arrays in arrays with a reference at the bottom, and an enumeration in an object. -/
def sampleEntries : Entries Literal :=
  [("tags", .object [("type", .list [.list [.text "ObjectId"]]), ("ref", .text "Tag"),
      ("required", .bool false)]),
    ("meta", .object [("level", .object [("type", .text "Number"),
      ("enum", .list [.int 1, .int 2, .int 1])]), ("other", .text "Nothing")])]

theorem exists_wellformed_sample :
    ∃ tree, (ofEntries sampleEntries [] : Logged Error FieldTree).outcome = .ok tree ∧
      tree.IsWellformed ∧ (∀ base, (({} : TypeNames).name base).isText = true) ∧
      ∃ i, Interface.ofTree {} ⟨[("Tag", "ITag")]⟩ "ISample" tree = .ok i ∧
        i.fields.map (·.name) = tree.names ∧
        ∀ p ∈ i.fields, ∃ code, p.type.render ({} : TypeNames).unresolved = .ok code := by
  obtain ⟨tree, declared, shape, interface⟩ := exists_wellformed sampleEntries []
  have texts : ∀ base, (({} : TypeNames).name base).isText = true := by
    intro base
    cases base <;> rfl
  exact ⟨tree, declared, shape, texts, interface {} texts _ _⟩

end FieldTree

end SchemaTypings
