import SchemaTypings.Interface.Printer
import SchemaTypings.Proofs.Fields

/-!
Types of declared fields. A field that a value declares has the parts that its kind takes, so it has
a type, and as long as the base types are named by texts, that type can be written.
-/

namespace SchemaTypings

/-! ### Whole fields -/

mutual

/-- Whether a field has the parts that its kind takes, down to the last level. -/
def Field.isWhole : Field → Bool
  | ⟨_, kind, _, base, child, target, _, _⟩ =>
    match kind with
    | .primitive => base.isSome
    | .array => elementIsWhole child
    | .nested => objectIsWhole child
    | .enumeration => true
    | .reference => target.isSome

def elementIsWhole : Child Field → Bool
  | .element field => field.isWhole
  | _ => false

def objectIsWhole : Child Field → Bool
  | .fields tree => treeIsWhole tree
  | _ => false

def treeIsWhole : List Field → Bool
  | [] => true
  | field :: rest => field.isWhole && treeIsWhole rest

end

theorem treeIsWhole_eq_all (tree : FieldTree) : treeIsWhole tree = tree.all Field.isWhole := by
  induction tree with
  | nil => rfl
  | cons field rest ih => rw [treeIsWhole, ih, List.all_cons]

theorem treeIsWhole_add {tree : FieldTree} {field : Field} (h : treeIsWhole tree = true)
    (hf : field.isWhole = true) : treeIsWhole (tree.add field) = true := by
  rw [treeIsWhole_eq_all, List.all_eq_true] at *
  intro g hg
  rcases List.mem_append.1 hg with hg | hg
  · exact h g (List.mem_filter.1 hg).1
  · rwa [List.mem_singleton.1 hg]

namespace Field

theorem isWhole_ofText (name s : Text) : (ofText name s).isWhole = true := by
  unfold ofText
  split
  · rfl
  · split <;> rfl

mutual

/-- A change that keeps fields whole does so at the innermost element. -/
theorem isWhole_mapLeaf {change : Field → Field}
    (hc : ∀ f : Field, f.isWhole = true → (change f).isWhole = true) :
    ∀ f : Field, f.isWhole = true → (f.mapLeaf change).isWhole = true
  | ⟨name, kind, required, base, child, target, viaRef, literals⟩, h => by
    rw [mapLeaf]
    split
    · next array =>
      subst array
      have element := isWhole_mapElement hc child h
      split
      · next new eq => rw [isWhole, element new eq]
      · exact hc _ h
    · exact hc _ h

theorem isWhole_mapElement {change : Field → Field}
    (hc : ∀ f : Field, f.isWhole = true → (change f).isWhole = true) :
    ∀ child : Child Field, elementIsWhole child = true → ∀ new, mapElement change child = some new →
      elementIsWhole new = true
  | .nothing, _, new, eq => by cases eq
  | .element field, h, new, eq => by
    rw [mapElement] at eq
    cases eq
    exact isWhole_mapLeaf hc field h
  | .fields tree, h, new, eq => by cases h

end

theorem isWhole_asReference (ref : Text) (f : Field) (h : f.isWhole = true) :
    (asReference ref f).isWhole = true := by
  unfold asReference
  split
  · rfl
  · exact h

theorem isWhole_asEnumeration (values : List Literal) (f : Field) (h : f.isWhole = true) :
    (asEnumeration values f).isWhole = true := by
  unfold asEnumeration
  split
  · rfl
  · exact h

theorem isWhole_configured (options : Entries Literal) (f : Field) (h : f.isWhole = true) :
    (f.configured options).isWhole = true := by
  have required : (if isOptional (options.get? "required") then { f with required := false }
      else f).isWhole = true := by
    split
    · obtain ⟨⟩ := f
      exact h
    · exact h
  have ref (g : Field) (hg : g.isWhole = true) : (g.withRef options).isWhole = true := by
    unfold withRef
    split
    · split
      · exact hg
      · exact isWhole_mapLeaf (isWhole_asReference _) g hg
    · exact hg
  unfold configured
  dsimp only
  split
  · exact ref _ required
  · exact isWhole_mapLeaf (isWhole_asEnumeration _) _ (ref _ required)

mutual

/-- What a value declares is whole. -/
theorem isWhole_declared? (name : Text) : ∀ v : Literal, ∀ f ∈ declared? name v, f.isWhole = true
  | .null, f, h | .bool _, f, h | .int _, f, h | .float _, f, h => by simp [declared?] at h
  | .text s, f, h => by
    cases h
    exact isWhole_ofText name s
  | .list items, f, h => by
    cases h
    exact isWhole_declaredElement items
  | .object [], f, h => by
    cases h
    rfl
  | .object (e :: rest), f, h => by
    rw [declared?] at h
    split at h
    · obtain ⟨g, hg, rfl⟩ := Option.map_eq_some_iff.1 h
      exact isWhole_configured _ g (isWhole_declaredType? name (e :: rest) g hg)
    · cases h
      exact isWhole_declaredTree (e :: rest) [] rfl

theorem isWhole_declaredType? (name : Text) : ∀ options : List (Text × Literal),
    ∀ f ∈ declaredType? name options, f.isWhole = true
  | [], f, h => by cases h
  | (k, v) :: rest, f, h => by
    rw [declaredType?] at h
    split at h
    · exact isWhole_declared? name v f h
    · exact isWhole_declaredType? name rest f h

theorem isWhole_declaredElement : ∀ items : List Literal, (declaredElement items).isWhole = true
  | [] => rfl
  | v :: rest => by
    rw [declaredElement]
    split
    · rfl
    · cases h : declared? "element" v with
      | none => rfl
      | some f => exact isWhole_declared? "element" v f h

theorem isWhole_declaredTree : ∀ (es : List (Text × Literal)) (tree : FieldTree),
    treeIsWhole tree = true → treeIsWhole (declaredTree es tree) = true
  | [], _, h => h
  | (k, v) :: rest, tree, h => by
    rw [declaredTree]
    split
    · next f hf =>
      exact isWhole_declaredTree rest _ (treeIsWhole_add h (isWhole_declared? k v f hf))
    · exact isWhole_declaredTree rest tree h

end

end Field

/-! ### Types of whole fields -/

namespace TypeExpr

/-- The type can be written as code. -/
def Prints (unresolved : Literal) (t : TypeExpr) : Prop := ∃ code, t.render unresolved = .ok code

variable {names : TypeNames} (known : InterfaceNames) (unresolved : Literal)

theorem exists_ofReference (hn : ∀ base, (names.name base).isText = true) (base : Option BaseType)
    {target : Option Text} (ht : target.isSome = true) (viaRef : Bool) (context : Text) :
    ∃ t, ofReference names known base target viaRef context = .ok t ∧ t.Prints unresolved := by
  obtain ⟨target, rfl⟩ := Option.isSome_iff_exists.1 ht
  have id : (names.type (base.getD .objectId)).Prints unresolved :=
    ⟨_, by rw [TypeNames.type, render]⟩
  unfold ofReference
  dsimp only
  split
  · exact ⟨_, rfl, id⟩
  split
  · exact ⟨_, rfl, _, by rw [render]⟩
  split
  · have text (s : Text) : (Literal.text s).isText = true := rfl
    refine ⟨_, rfl, ?_⟩
    simp [Prints, render, renderMembers, TypeNames.type, hn, isBareName, text]
  · exact ⟨_, rfl, _, by rw [render]⟩

mutual

theorem exists_ofField (hn : ∀ base, (names.name base).isText = true) :
    ∀ (f : Field), f.isWhole = true → ∀ context : Text,
      ∃ t, ofField names known context f = .ok t ∧ t.Prints unresolved
  | ⟨name, kind, required, base, child, target, viaRef, literals⟩, h, context => by
    cases kind with
    | primitive =>
      obtain ⟨base, rfl⟩ := Option.isSome_iff_exists.1 h
      exact ⟨_, by rw [ofField], _, by rw [TypeNames.type, render]⟩
    | array =>
      obtain ⟨t, eq, prints⟩ := exists_ofElement hn child h (context ++ "[]")
      exact ⟨t, by rw [ofField, eq], prints⟩
    | nested =>
      obtain ⟨t, eq, prints⟩ := exists_ofNested hn child h context
      exact ⟨t, by rw [ofField, eq], prints⟩
    | enumeration => exact ⟨_, by rw [ofField], _, by rw [render]⟩
    | reference =>
      obtain ⟨t, eq, prints⟩ := exists_ofReference known unresolved hn base h viaRef context
      exact ⟨t, by rw [ofField, eq], prints⟩

theorem exists_ofElement (hn : ∀ base, (names.name base).isText = true) :
    ∀ child : Child Field, elementIsWhole child = true → ∀ context : Text,
      ∃ t, ofElement names known context child = .ok t ∧ t.Prints unresolved
  | .nothing, h, _ => by cases h
  | .fields _, h, _ => by cases h
  | .element field, h, context => by
    obtain ⟨t, eq, code, printed⟩ := exists_ofField hn field h context
    exact ⟨_, by rw [ofElement, eq]; rfl, _, by rw [render, renderElement, printed]; rfl⟩

theorem exists_ofNested (hn : ∀ base, (names.name base).isText = true) :
    ∀ child : Child Field, objectIsWhole child = true → ∀ context : Text,
      ∃ t, ofNested names known context child = .ok t ∧ t.Prints unresolved
  | .nothing, h, _ => by cases h
  | .element _, h, _ => by cases h
  | .fields tree, h, context => by
    obtain ⟨fields, eq, codes, printed⟩ := exists_ofTree hn tree h context
    refine ⟨_, by rw [ofNested, eq]; rfl, ?_⟩
    rw [Prints, render]
    split
    · exact ⟨_, rfl⟩
    · rw [printed]
      exact ⟨_, rfl⟩

/-- Whole fields have types that can be written. -/
theorem exists_ofTree (hn : ∀ base, (names.name base).isText = true) :
    ∀ tree : List Field, treeIsWhole tree = true → ∀ context : Text,
      ∃ fields, ofTree names known context tree = .ok fields ∧
        ∃ codes, renderFields unresolved fields = .ok codes
  | [], _, _ => ⟨[], by rw [ofTree], [], by rw [renderFields]⟩
  | field :: rest, h, context => by
    rw [treeIsWhole, Bool.and_eq_true] at h
    obtain ⟨t, eq, code, printed⟩ := exists_ofField hn field h.1 (context ++ "." ++ field.name)
    obtain ⟨fields, eq', codes, printed'⟩ := exists_ofTree hn rest h.2 context
    exact ⟨_, by rw [ofTree, eq, eq']; rfl, _, by rw [renderFields, printed, printed']; rfl⟩

end

end TypeExpr

end SchemaTypings
