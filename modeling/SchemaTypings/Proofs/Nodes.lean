import SchemaTypings.Proofs.Shapes

/-!
What a type carries besides its structure. Types keep the names that they import and the hints about
references that did not resolve; both are those of the nodes of the type, of which there are as many
as its structure has parts.
-/

namespace SchemaTypings

/-! ### Outlines -/

/-- How a field or a type is built: the elements of arrays, and the names in objects with what is
optional. -/
inductive Outline
  | plain
  | array (element : Outline)
  | object (fields : List (Property Outline))

mutual

/-- The outline of a field. -/
def Field.outline : Field → Outline
  | ⟨_, .array, _, _, .element field, _, _, _⟩ => .array field.outline
  | ⟨_, .nested, _, _, .fields tree, _, _, _⟩ => .object (treeOutline tree)
  | _ => .plain

/-- The outlines of the fields of a tree, which are optional unless they are required. -/
def treeOutline : List Field → List (Property Outline)
  | [] => []
  | field :: rest => ⟨field.name, field.outline, !field.required⟩ :: treeOutline rest

end

mutual

/-- The outline of a type. -/
def TypeExpr.outline : TypeExpr → Outline
  | ⟨.array, _, some element, _, _, _, _, _⟩ => .array element.outline
  | ⟨.object, _, _, fields, _, _, _, _⟩ => .object (fieldsOutline fields)
  | _ => .plain

def fieldsOutline : List (Property TypeExpr) → List (Property Outline)
  | [] => []
  | ⟨name, type, optional⟩ :: rest => ⟨name, type.outline, optional⟩ :: fieldsOutline rest

end

/-! ### Nodes -/

mutual

/-- The nodes of a type, each with its path: the type itself, then those in it, from left to
right. -/
def TypeExpr.nodes (path : Text) : TypeExpr → List (Text × TypeExpr)
  | ⟨kind, name, element, fields, literals, members, imports, hints⟩ =>
    (path, ⟨kind, name, element, fields, literals, members, imports, hints⟩) ::
      (nodesInElement (path ++ "[]") element ++ nodesInFields path fields
        ++ nodesInMembers path members)

def nodesInElement (path : Text) : Option TypeExpr → List (Text × TypeExpr)
  | none => []
  | some element => element.nodes path

def nodesInFields (path : Text) : List (Property TypeExpr) → List (Text × TypeExpr)
  | [] => []
  | ⟨name, type, _⟩ :: rest => type.nodes (path ++ "." ++ name) ++ nodesInFields path rest

def nodesInMembers (path : Text) : List TypeExpr → List (Text × TypeExpr)
  | [] => []
  | member :: rest => member.nodes path ++ nodesInMembers path rest

end

mutual

/-- The targets in a field that resolve to no interface, in order, each with its path. -/
def Field.unresolved (known : InterfaceNames) (style : Settings.RefStyle) (path : Text) :
    Field → List (Text × Text)
  | ⟨_, .array, _, _, .element field, _, _, _⟩ => field.unresolved known style (path ++ "[]")
  | ⟨_, .nested, _, _, .fields tree, _, _, _⟩ => unresolvedInTree known style path tree
  | ⟨_, .reference, _, _, _, some target, viaRef, _⟩ =>
    if (viaRef ∧ style = .id) ∨ (known.resolve? target).isSome then [] else [(path, target)]
  | _ => []

def unresolvedInTree (known : InterfaceNames) (style : Settings.RefStyle) (path : Text) :
    List Field → List (Text × Text)
  | [] => []
  | field :: rest =>
    field.unresolved known style (path ++ "." ++ field.name)
      ++ unresolvedInTree known style path rest

end

/-! ### Names that are kept once -/

namespace Dictionary

/-- What some key is the same as is the same as itself. -/
theorem sameKey_self {k l : Literal} (h : sameKey k l = true) : sameKey l l = true := by
  cases l with
  | null => rfl
  | bool | int | text => simp [sameKey, asNumber, Literal.sameScalar]
  | float x =>
    cases x with
    | finite | infinite => simp [sameKey, asNumber, Literal.sameScalar, Binary64.sameValue]
    | nan =>
      cases k with
      | float y => cases y <;> cases h
      | _ => cases h
  | list | object => cases k <;> cases h

end Dictionary

theorem unionOfNames_eq (lists : List (List Literal)) :
    unionOfNames lists = keepNew Dictionary.sameKey [] lists.flatten := rfl

/-- What is in some of the lists is in `all`, itself or as the same key, and nothing else is, nor is
any key twice. -/
structure IsUnion (lists : List (List Literal)) (all : List Literal) : Prop where
  sound : ∀ v ∈ all, ∃ l ∈ lists, v ∈ l
  complete : ∀ l ∈ lists, ∀ v ∈ l, v ∈ all ∨ ∃ w ∈ all, Dictionary.sameKey w v = true
  distinct : all.Pairwise fun u v => Dictionary.sameKey u v = false

theorem isUnion_unionOfNames (lists : List (List Literal)) :
    IsUnion lists (unionOfNames lists) where
  sound _ hv := List.mem_flatten.1 ((mem_of_mem_keepNew hv).resolve_left List.not_mem_nil)
  complete l hl _ hv := mem_or_exists_keepNew (.inr (List.mem_flatten.2 ⟨l, hl, hv⟩))
  distinct := pairwise_keepNew .nil

theorem keepNew_append (same : Literal → Literal → Bool) (seen values values' : List Literal) :
    keepNew same seen (values ++ values') = keepNew same (keepNew same seen values) values' :=
  List.foldl_append

/-- Among these values, being the same goes from one to the next. -/
def IsTransitive (same : Literal → Literal → Bool) (all : List Literal) : Prop :=
  ∀ u ∈ all, ∀ v ∈ all, ∀ w ∈ all, same u v = true → same v w = true → same u w = true

/-- What is the same as one of two keys is the same as itself, so there is no third. -/
theorem isTransitive_sameKey (a b : Literal) : IsTransitive Dictionary.sameKey [a, b] := by
  intro u hu v hv w hw same same'
  by_cases first : u = v
  · rwa [first]
  by_cases second : v = w
  · rwa [← second]
  have last : w = u := by
    simp only [List.mem_cons, List.not_mem_nil, or_false] at hu hv hw
    grind
  rw [last] at same' ⊢
  exact Dictionary.sameKey_self same'

section

variable {same : Literal → Literal → Bool} {all seen held values : List Literal}

theorem any_keepNew (trans : IsTransitive same all) (hs : seen ⊆ all) (hn : values ⊆ all)
    {v : Literal} (hv : v ∈ all) (h : seen.any (same · v) = true ∨ values.any (same · v) = true) :
    (keepNew same seen values).any (same · v) = true := by
  induction values generalizing seen with
  | nil => exact h.resolve_right (by simp)
  | cons u values ih =>
    rw [List.cons_subset] at hn
    rw [List.any_cons, Bool.or_eq_true, ← or_assoc] at h
    rw [keepNew_cons]
    split
    · next there =>
      refine ih hs hn.2 (h.imp_left fun h => ?_)
      rcases h with h | same
      · exact h
      · obtain ⟨w, hw, there⟩ := List.any_eq_true.1 there
        exact List.any_eq_true.2 ⟨w, hw, trans w (hs hw) u hn.1 v hv there same⟩
    · refine ih (List.append_subset.2 ⟨hs, List.cons_subset.2 ⟨hn.1, List.nil_subset _⟩⟩) hn.2
        (h.imp_left fun h => ?_)
      rw [List.any_append, Bool.or_eq_true]
      exact h.imp_right fun same => by simpa using same

/-- Of values of which each is kept once, as many are new as of all of them. -/
theorem keepNew_keepNew (trans : IsTransitive same all) (hs : seen ⊆ all) (hh : held ⊆ all)
    (hn : values ⊆ all) :
    keepNew same seen (keepNew same held values) =
      keepNew same (keepNew same seen held) values := by
  induction values generalizing held with
  | nil => rfl
  | cons v values ih =>
    rw [List.cons_subset] at hn
    rw [keepNew_cons]
    split
    · next there =>
      rw [ih hh hn.2, keepNew_cons, if_pos (any_keepNew trans hs hh hn.1 (.inr there))]
    · have more : held ++ [v] ⊆ all :=
        List.append_subset.2 ⟨hh, List.cons_subset.2 ⟨hn.1, List.nil_subset _⟩⟩
      rw [ih more hn.2, keepNew_append, ← keepNew_append, List.singleton_append]

end

/-! ### What types carry -/

/-- The targets of the nodes that did not resolve. -/
def unresolvedIn (nodes : List (Text × TypeExpr)) : List (Text × Literal) :=
  (nodes.filter (·.2.kind = .unresolved)).map fun n => (n.1, n.2.name)

/-- What the nodes of base types import. -/
def importedIn (nodes : List (Text × TypeExpr)) : List (List Literal) :=
  (nodes.filter (·.2.kind = .primitive)).map (·.2.imports)

theorem unresolvedIn_append (nodes nodes' : List (Text × TypeExpr)) :
    unresolvedIn (nodes ++ nodes') = unresolvedIn nodes ++ unresolvedIn nodes' := by
  simp [unresolvedIn]

theorem importedIn_append (nodes nodes' : List (Text × TypeExpr)) :
    importedIn (nodes ++ nodes') = importedIn nodes ++ importedIn nodes' := by
  simp [importedIn]

/-- The names that can be imported. -/
def TypeNames.imported (names : TypeNames) : List Literal :=
  [names.name .objectId, names.name .decimal128]

theorem TypeNames.imports_subset (names : TypeNames) (base : BaseType) :
    (names.type base).imports ⊆ names.imported := by
  cases base <;> simp [type, isImported, imported]

/-! ### The types of fields -/

namespace TypeExpr

/-- A type, or an interface. -/
def orInterface (id : TypeExpr) (name : Text) : TypeExpr :=
  { kind := .union, members := [id, ofInterface name], imports := id.imports }

/-- The types of fields, whatever names base types have and whatever interfaces are known. -/
inductive IsOf (names : TypeNames) (known : InterfaceNames) : TypeExpr → Prop
  | base (base : BaseType) : IsOf names known (names.type base)
  | interface {target name : Text} (h : known.resolve? target = some name) :
    IsOf names known (ofInterface name)
  | choice (base : BaseType) {target name : Text} (h : known.resolve? target = some name) :
    IsOf names known (orInterface (names.type base) name)
  | target (target : Text) (hints : List Text) : IsOf names known (ofTarget target hints)
  | literals {literals : List Literal} (some : literals ≠ [])
      (all : ∀ v ∈ literals, v.IsEnumerable) : IsOf names known (ofLiterals literals)
  | array {element : TypeExpr} (h : IsOf names known element) : IsOf names known (arrayOf element)
  | object {fields : List (Property TypeExpr)} (types : ∀ p ∈ fields, IsOf names known p.type) :
    IsOf names known (objectOf fields)

theorem nodes_arrayOf (t : TypeExpr) (path : Text) :
    (arrayOf t).nodes path = (path, arrayOf t) :: t.nodes (path ++ "[]") := by
  simp [arrayOf, nodes, nodesInElement, nodesInFields, nodesInMembers]

theorem nodes_objectOf (fields : List (Property TypeExpr)) (path : Text) :
    (objectOf fields).nodes path = (path, objectOf fields) :: nodesInFields path fields := by
  simp [objectOf, nodes, nodesInElement, nodesInMembers]

theorem nodes_orInterface (names : TypeNames) (base : BaseType) (name path : Text) :
    (orInterface (names.type base) name).nodes path =
      [(path, orInterface (names.type base) name), (path, names.type base),
        (path, ofInterface name)] := rfl

theorem mem_nodesInFields {fields : List (Property TypeExpr)} {path : Text}
    {n : Text × TypeExpr} : n ∈ nodesInFields path fields ↔
      ∃ p ∈ fields, n ∈ p.type.nodes (path ++ "." ++ p.name) := by
  induction fields with
  | nil => simp [nodesInFields]
  | cons p rest ih =>
    obtain ⟨name, type, optional⟩ := p
    rw [nodesInFields, List.mem_append, ih]
    simp

namespace IsOf

variable {names : TypeNames} {known : InterfaceNames} {t : TypeExpr}

/-- The nodes of the type of a field are types of fields. -/
theorem of_mem_nodes (h : t.IsOf names known) :
    ∀ {path : Text}, ∀ n ∈ t.nodes path, n.2.IsOf names known := by
  have alone {u : TypeExpr} (hu : u.IsOf names known) {path : Text}
      (all : u.nodes path = [(path, u)]) : ∀ n ∈ u.nodes path, n.2.IsOf names known := by
    intro n hn
    rw [all, List.mem_singleton] at hn
    rwa [hn]
  induction h with
  | base b => exact alone (.base b) rfl
  | interface resolved => exact alone (.interface resolved) rfl
  | target s hints => exact alone (.target s hints) rfl
  | literals some all => exact alone (.literals some all) rfl
  | choice b resolved =>
    intro path n hn
    rw [nodes_orInterface] at hn
    simp only [List.mem_cons, List.not_mem_nil, or_false] at hn
    rcases hn with rfl | rfl | rfl
    · exact .choice b resolved
    · exact .base b
    · exact .interface resolved
  | array element ih =>
    intro path n hn
    rw [nodes_arrayOf] at hn
    rcases List.mem_cons.1 hn with rfl | hn
    · exact .array element
    · exact ih n hn
  | object types ih =>
    intro path n hn
    rw [nodes_objectOf] at hn
    rcases List.mem_cons.1 hn with rfl | hn
    · exact .object types
    · obtain ⟨p, hp, hn⟩ := mem_nodesInFields.1 hn
      exact ih p hp n hn

theorem exists_base (h : t.IsOf names known) (kind : t.kind = .primitive) :
    ∃ base, t = names.type base := by
  cases h with
  | base b => exact ⟨b, rfl⟩
  | _ => cases kind

theorem exists_element (h : t.IsOf names known) (kind : t.kind = .array) :
    ∃ e : TypeExpr, e.IsOf names known ∧ t = arrayOf e := by
  cases h with
  | array element => exact ⟨_, element, rfl⟩
  | _ => cases kind

theorem importedIn_subset {nodes : List (Text × TypeExpr)}
    (all : ∀ n ∈ nodes, n.2.IsOf names known) : (importedIn nodes).flatten ⊆ names.imported := by
  intro v hv
  obtain ⟨imports, mem, hv⟩ := List.mem_flatten.1 hv
  obtain ⟨n, hn, rfl⟩ := List.mem_map.1 mem
  rw [List.mem_filter] at hn
  obtain ⟨base, eq⟩ := (all n hn.1).exists_base (of_decide_eq_true hn.2)
  rw [eq] at hv
  exact names.imports_subset base hv

/-- Behind names that can be imported, the names of properties are those of their base types. -/
theorem keepNew_imports {fields : List (Property TypeExpr)}
    (types : ∀ p ∈ fields, p.type.IsOf names known)
    (each : ∀ p ∈ fields, ∀ path, p.type.imports = unionOfNames (importedIn (p.type.nodes path)))
    (path : Text) {seen : List Literal} (hs : seen ⊆ names.imported) :
    keepNew Dictionary.sameKey seen (fields.map (·.type.imports)).flatten =
      keepNew Dictionary.sameKey seen (importedIn (nodesInFields path fields)).flatten := by
  have trans : IsTransitive Dictionary.sameKey names.imported := isTransitive_sameKey _ _
  induction fields generalizing seen with
  | nil => rfl
  | cons p fields ih =>
    obtain ⟨name, type, optional⟩ := p
    rw [List.forall_mem_cons] at types each
    have own : (importedIn (type.nodes (path ++ "." ++ name))).flatten ⊆ names.imported :=
      importedIn_subset types.1.of_mem_nodes
    have more {v : Literal} (hv : v ∈ keepNew Dictionary.sameKey seen
        (importedIn (type.nodes (path ++ "." ++ name))).flatten) : v ∈ names.imported :=
      (mem_of_mem_keepNew hv).elim (fun hv => hs hv) fun hv => own hv
    rw [nodesInFields, importedIn_append, List.flatten_append, keepNew_append,
      ← ih types.2 each.2 fun _ => more, List.map_cons, List.flatten_cons, keepNew_append,
      each.1 (path ++ "." ++ name), unionOfNames_eq,
      keepNew_keepNew trans hs (List.nil_subset _) own]
    rfl

/-- The type of a field imports what the base types among its nodes do. -/
theorem imports_eq (h : t.IsOf names known) (path : Text) :
    t.imports = unionOfNames (importedIn (t.nodes path)) := by
  induction h generalizing path with
  | base b => cases b <;> rfl
  | choice b => cases b <;> rfl
  | interface | target | literals => rfl
  | array element ih =>
    rw [nodes_arrayOf]
    exact ih _
  | object types ih =>
    rw [nodes_objectOf]
    exact keepNew_imports types ih path (List.nil_subset _)

end IsOf

end TypeExpr

/-! ### What types tell of fields -/

section

variable {names : TypeNames} {known : InterfaceNames}

/-- The type of a field at a path is built as the field is, and its nodes that did not resolve are
the targets in the field that are unknown, with a hint for each. -/
structure TypeExpr.Tells (names : TypeNames) (known : InterfaceNames) (f : Field) (path : Text)
    (t : TypeExpr) : Prop where
  outline : t.outline = f.outline
  shape : t.IsOf names known
  targets : unresolvedIn (t.nodes path) =
    (f.unresolved known names.refStyle path).map fun u => (u.1, .text u.2)
  hints : t.hints =
    (f.unresolved known names.refStyle path).map fun u => unresolvedHint names u.2 u.1

/-- A property of a field, whose type tells of the field. -/
structure Property.Tells (names : TypeNames) (known : InterfaceNames) (path : Text) (f : Field)
    (p : Property TypeExpr) : Prop where
  name : p.name = f.name
  optional : p.optional = !f.required
  type : p.type.Tells names known f (path ++ "." ++ f.name)

section

variable {tree : FieldTree} {fields : List (Property TypeExpr)} {path : Text}

theorem fieldsOutline_eq (h : List.Forall₂ (Property.Tells names known path) tree fields) :
    fieldsOutline fields = treeOutline tree := by
  induction h with
  | nil => rfl
  | @cons f p tree fields first _ ih =>
    obtain ⟨name, type, optional⟩ := p
    rw [fieldsOutline, treeOutline, ih, first.type.outline, ← first.name, ← first.optional]

theorem isOf_of_tells (h : List.Forall₂ (Property.Tells names known path) tree fields) :
    ∀ p ∈ fields, p.type.IsOf names known := by
  induction h with
  | nil => simp
  | cons first _ ih => exact List.forall_mem_cons.2 ⟨first.type.shape, ih⟩

theorem unresolvedIn_nodesInFields
    (h : List.Forall₂ (Property.Tells names known path) tree fields) :
    unresolvedIn (nodesInFields path fields) =
      (unresolvedInTree known names.refStyle path tree).map fun u => (u.1, .text u.2) := by
  induction h with
  | nil => rfl
  | @cons f p tree fields first _ ih =>
    obtain ⟨name, type, optional⟩ := p
    obtain rfl : name = f.name := first.name
    rw [nodesInFields, unresolvedIn_append, first.type.targets, ih, unresolvedInTree,
      List.map_append]

theorem hintsOf_eq (h : List.Forall₂ (Property.Tells names known path) tree fields) :
    hintsOf fields = (unresolvedInTree known names.refStyle path tree).map fun u =>
      unresolvedHint names u.2 u.1 := by
  induction h with
  | nil => rfl
  | @cons f p tree fields first _ ih =>
    rw [hintsOf, List.flatMap_cons, first.type.hints, unresolvedInTree, List.map_append, ← ih]
    rfl

end

section

variable {f : Field} {path : Text}

/-- A type in which all is resolved tells of a field without parts that is known. -/
theorem TypeExpr.tells_resolved {t : TypeExpr} (shape : t.IsOf names known)
    (targets : unresolvedIn (t.nodes path) = []) (hints : t.hints = [])
    (outline : t.outline = f.outline) (known' : f.unresolved known names.refStyle path = []) :
    t.Tells names known f path where
  outline := outline
  shape := shape
  targets := by rw [targets, known', List.map_nil]
  hints := by rw [hints, known', List.map_nil]

/-- The type of a reference tells of it. -/
theorem TypeExpr.exists_ofReference_tells {target : Text} (kind : f.kind = .reference)
    (named : f.target = some target) (path : Text) :
    ∃ t, ofReference names known f.base f.target f.viaRef path = .ok t ∧
      t.Tells names known f path := by
  obtain ⟨name, _, required, base, child, _, viaRef, literals⟩ := f
  cases kind
  cases named
  dsimp only
  by_cases id : viaRef = true ∧ names.refStyle = .id
  · refine ⟨_, by rw [ofReference, if_pos id], tells_resolved (.base _) rfl rfl rfl ?_⟩
    rw [Field.unresolved, if_pos (.inl id)]
  cases resolved : known.resolve? target with
  | none =>
    have unknown : Field.unresolved known names.refStyle path
        ⟨name, .reference, required, base, child, some target, viaRef, literals⟩ =
          [(path, target)] := by
      rw [Field.unresolved, if_neg (by simp [id, resolved])]
    refine ⟨ofTarget target [unresolvedHint names target path], ?_, rfl, .target _ _, ?_, ?_⟩
    · simp only [ofReference, if_neg id, resolved]
      rfl
    · rw [unknown]
      rfl
    · rw [unknown]
      rfl
  | some interface =>
    have known' : Field.unresolved known names.refStyle path
        ⟨name, .reference, required, base, child, some target, viaRef, literals⟩ = [] := by
      rw [Field.unresolved, if_pos (by simp [resolved])]
    by_cases union : viaRef = true ∧ names.refStyle = .union
    · refine ⟨orInterface (names.type (base.getD .objectId)) interface, ?_,
        tells_resolved (.choice _ resolved) rfl rfl rfl known'⟩
      simp only [ofReference, if_neg id, resolved, if_pos union]
      rfl
    · refine ⟨ofInterface interface, ?_, tells_resolved (.interface resolved) rfl rfl rfl known'⟩
      simp only [ofReference, if_neg id, resolved, if_neg union]
      rfl

/-- An array tells of what its element does. -/
theorem TypeExpr.tells_arrayOf {e : Field} {t : TypeExpr} (kind : f.kind = .array)
    (child : f.child = .element e) (h : t.Tells names known e (path ++ "[]")) :
    (arrayOf t).Tells names known f path := by
  obtain ⟨name, _, required, base, _, target, viaRef, literals⟩ := f
  cases kind
  cases child
  refine ⟨congrArg Outline.array h.outline, .array h.shape, ?_, h.hints⟩
  rw [nodes_arrayOf]
  exact h.targets

/-- An object tells of what its properties do. -/
theorem TypeExpr.tells_objectOf {tree : FieldTree} {fields : List (Property TypeExpr)}
    (kind : f.kind = .nested) (child : f.child = .fields tree)
    (h : List.Forall₂ (Property.Tells names known path) tree fields) :
    (objectOf fields).Tells names known f path := by
  obtain ⟨name, _, required, base, _, target, viaRef, literals⟩ := f
  cases kind
  cases child
  refine ⟨congrArg Outline.object (fieldsOutline_eq h), .object (isOf_of_tells h), ?_, hintsOf_eq h⟩
  rw [nodes_objectOf]
  exact unresolvedIn_nodesInFields h

theorem TypeExpr.exists_ofTree_tells {tree : FieldTree}
    (h : ∀ f ∈ tree, ∀ path, ∃ t, ofField names known path f = .ok t ∧ t.Tells names known f path)
    (path : Text) :
    ∃ fields, ofTree names known path tree = .ok fields ∧
      List.Forall₂ (Property.Tells names known path) tree fields := by
  induction tree with
  | nil => exact ⟨[], rfl, .nil⟩
  | cons f rest ih =>
    obtain ⟨t, first, tells⟩ := h f List.mem_cons_self (path ++ "." ++ f.name)
    obtain ⟨others, behind, all⟩ := ih fun g hg => h g (List.mem_cons_of_mem _ hg)
    refine ⟨⟨f.name, t, !f.required⟩ :: others, ?_, .cons ⟨rfl, rfl, tells⟩ all⟩
    rw [ofTree, first, behind]
    rfl

theorem Literal.AreOf.isEnumerable {base : Option BaseType} {values : List Literal}
    (h : AreOf base values) : ∀ v ∈ values, v.IsEnumerable := by
  intro v hv
  rw [IsEnumerable, Bool.or_eq_true]
  cases h with
  | string texts => exact .inl (texts v hv)
  | number numbers => exact .inr (numbers v hv)

/-- A field of the right shape has a type, which tells of it. -/
theorem Field.IsWellformed.exists_tells (h : f.IsWellformed) (names : TypeNames)
    (known : InterfaceNames) : ∀ path, ∃ t,
      TypeExpr.ofField names known path f = .ok t ∧ t.Tells names known f path := by
  induction h with
  | @primitive f kind typed =>
    obtain ⟨base, some⟩ := Option.isSome_iff_exists.1 typed
    obtain ⟨name, _, required, _, child, target, viaRef, literals⟩ := f
    cases kind
    cases some
    exact fun path => ⟨_, by rw [TypeExpr.ofField],
      TypeExpr.tells_resolved (.base base) rfl rfl rfl rfl⟩
  | @array f e kind child named element ih =>
    intro path
    obtain ⟨t, made, tells⟩ := ih (path ++ "[]")
    refine ⟨TypeExpr.arrayOf t, ?_, TypeExpr.tells_arrayOf kind child tells⟩
    obtain ⟨name, _, required, base, _, target, viaRef, literals⟩ := f
    cases kind
    cases child
    rw [TypeExpr.ofField, TypeExpr.ofElement, made]
    rfl
  | @nested f tree kind child distinct fields ih =>
    intro path
    obtain ⟨properties, made, tells⟩ := TypeExpr.exists_ofTree_tells ih path
    refine ⟨TypeExpr.objectOf properties, ?_, TypeExpr.tells_objectOf kind child tells⟩
    obtain ⟨name, _, required, base, _, target, viaRef, literals⟩ := f
    cases kind
    cases child
    rw [TypeExpr.ofField, TypeExpr.ofNested, made]
    rfl
  | @enumeration f kind some distinct typed =>
    obtain ⟨name, _, required, base, child, target, viaRef, literals⟩ := f
    cases kind
    exact fun path => ⟨TypeExpr.ofLiterals literals, by rw [TypeExpr.ofField]; rfl,
      TypeExpr.tells_resolved (.literals some typed.isEnumerable) rfl rfl rfl rfl⟩
  | @reference f target kind named =>
    intro path
    obtain ⟨t, made, tells⟩ := TypeExpr.exists_ofReference_tells kind named path
    refine ⟨t, ?_, tells⟩
    obtain ⟨name, _, required, base, child, _, viaRef, literals⟩ := f
    cases kind
    rw [TypeExpr.ofField]
    exact made

end

end

/-! ### Interfaces -/

namespace Interface

/-- The nodes of an interface, each with its path. -/
def nodes (i : Interface) : List (Text × TypeExpr) := nodesInFields i.name i.fields

variable {names : TypeNames} {known : InterfaceNames} {i : Interface}

theorem isOf_of_mem_nodes (types : ∀ p ∈ i.fields, p.type.IsOf names known) :
    ∀ n ∈ i.nodes, n.2.IsOf names known := by
  intro n hn
  obtain ⟨p, hp, hn⟩ := TypeExpr.mem_nodesInFields.1 hn
  exact (types p hp).of_mem_nodes n hn

theorem imports_eq (types : ∀ p ∈ i.fields, p.type.IsOf names known) :
    i.imports = unionOfNames (importedIn i.nodes) :=
  TypeExpr.IsOf.keepNew_imports types (fun p hp => (types p hp).imports_eq) i.name
    (List.nil_subset _)

/-- What entries declare has an interface, whose types tell of the fields. -/
theorem exists_tells (es : Entries Literal) (context : Text) (names : TypeNames)
    (known : InterfaceNames) (name : Text) :
    ∃ tree i, (FieldTree.ofEntries es context : Logged Error FieldTree).outcome = .ok tree ∧
      Interface.ofTree names known name tree = .ok i ∧ i.name = name ∧
      List.Forall₂ (Property.Tells names known name) tree i.fields := by
  have shape : FieldTree.IsWellformed (FieldTree.declared es) :=
    Field.isWellformed_declaredTree (fun _ _ _ => Field.isWellformed_declared?)
      ⟨List.nodup_nil, by simp⟩
  obtain ⟨fields, made, tells⟩ := TypeExpr.exists_ofTree_tells
    (fun f hf => (shape.fields f hf).exists_tells names known) name
  refine ⟨FieldTree.declared es, ⟨name, fields⟩, FieldTree.outcome_ofEntries es context, ?_, rfl,
    tells⟩
  rw [Interface.ofTree, made]
  rfl

end Interface

namespace FieldTree

/-- What entries declare has an interface, whatever names types have and whatever interfaces are
known. It is built as the tree is, at every depth. The nodes in it that did not resolve are the
targets in the tree that are unknown, in order, each at its path, and its hints are one for each of
them, which tells the target, the path and what is used in its place. All its nodes are types of
fields, and what it imports are the imports of the base types among them, each once. -/
theorem exists_interface_told (es : Entries Literal) (context : Text) (names : TypeNames)
    (known : InterfaceNames) (name : Text) :
    ∃ tree i, (ofEntries es context : Logged Error FieldTree).outcome = .ok tree ∧
      Interface.ofTree names known name tree = .ok i ∧ i.name = name ∧
      fieldsOutline i.fields = treeOutline tree ∧
      unresolvedIn i.nodes =
        (unresolvedInTree known names.refStyle name tree).map (fun u => (u.1, .text u.2)) ∧
      i.hints =
        (unresolvedInTree known names.refStyle name tree).map (fun (path, target) =>
          "Unresolved reference '" ++ target ++ "' in field '" ++ path ++ "', using " ++
            names.unresolved.said) ∧
      (∀ n ∈ i.nodes, n.2.IsOf names known) ∧
      i.imports = unionOfNames (importedIn i.nodes) ∧ IsUnion (importedIn i.nodes) i.imports := by
  obtain ⟨tree, i, declared, made, rfl, tells⟩ :=
    Interface.exists_tells es context names known name
  have types := isOf_of_tells tells
  have imports := Interface.imports_eq types
  exact ⟨tree, i, declared, made, rfl, fieldsOutline_eq tells, unresolvedIn_nodesInFields tells,
    hintsOf_eq tells, Interface.isOf_of_mem_nodes types, imports, imports ▸ isUnion_unionOfNames _⟩

end FieldTree

end SchemaTypings
