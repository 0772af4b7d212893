import SchemaTypings.Field.Build
import SchemaTypings.Proofs.Outcomes
import SchemaTypings.Proofs.Reading

/-!
The fields that values declare, apart from the records that building them leaves. Every value has
its fields, wherever it stands, and quoting the types of a declaration does not change them.
-/

namespace SchemaTypings

/-! ### Fields without records -/

namespace Field

/-- The field with the options `required`, `ref` and `enum` of `options`. -/
def configured (options : Entries Literal) (field : Field) : Field :=
  let field :=
    if isOptional (options.get? "required") then { field with required := false } else field
  let field := field.withRef options
  let values := enumValues (options.get? "enum")
  if values.isEmpty then field else field.mapLeaf (asEnumeration values)

mutual

/-- The field that a value declares, if it declares a type. -/
def declared? (name : Text) (value : Literal) : Option Field :=
  match value with
  | .text s => some (ofText name s)
  | .list items => some { name, kind := .array, child := .element (declaredElement items) }
  | .object [] => some { name, kind := .primitive, base := some .mixed }
  | .object (e :: rest) =>
    if Literal.isOptions (e :: rest) then
      (declaredType? name (e :: rest)).map (configured (e :: rest))
    else some { name, kind := .nested, child := .fields (declaredTree (e :: rest) []) }
  | _ => none

/-- The field that the `type` among the options declares. -/
def declaredType? (name : Text) (options : List (Text × Literal)) : Option Field :=
  match options with
  | [] => none
  | (k, v) :: rest => if k = "type" then declared? name v else declaredType? name rest

/-- The element of an array that a list declares. -/
def declaredElement (items : List Literal) : Field :=
  match items with
  | [] => anyElement
  | v :: rest =>
    if !rest.isEmpty && (v :: rest).all Literal.isText then textElement
    else (declared? "element" v).getD anyElement

/-- The fields that the entries declare, put behind `tree`. -/
def declaredTree (entries : List (Text × Literal)) (tree : FieldTree) : FieldTree :=
  match entries with
  | [] => tree
  | (name, value) :: rest =>
    match declared? name value with
    | some field => declaredTree rest (tree.add field)
    | none => declaredTree rest tree

end

theorem declared?_object {name : Text} {es : Entries Literal} (h : es ≠ []) :
    declared? name (.object es) =
      if Literal.isOptions es then (declaredType? name es).map (configured es)
      else some { name, kind := .nested, child := .fields (declaredTree es []) } := by
  cases es with
  | nil => exact absurd rfl h
  | cons e rest => rw [declared?]

variable {ε : Type}

theorem outcome_withOptions (options : Entries Literal) (path : Text) (field : Field) :
    (field.withOptions options path : Logged ε Field).outcome = .ok (field.configured options) := by
  unfold withOptions configured
  dsimp only
  split
  · rfl
  · rw [apply_ite Logged.outcome]
    simp

mutual

theorem outcome_build (name : Text) (context : Text) : ∀ v : Literal,
    (build name v context : Logged ε (Option Field)).outcome = .ok (declared? name v)
  | .null | .bool _ | .int _ | .float _ | .text _ | .object [] => by simp [build, declared?]
  | .list items => by
    simp [build, declared?, outcome_buildElement (pathIn context name) items]
  | .object (e :: rest) => by
    simp only [build, declared?]
    split
    · rw [Logged.outcome_bind, outcome_buildType name context (e :: rest)]
      cases declaredType? name (e :: rest) with
      | none => simp
      | some field => simp [outcome_withOptions]
    · simp [outcome_buildTree (pathIn context name) (e :: rest) []]

theorem outcome_buildType (name : Text) (context : Text) : ∀ options : List (Text × Literal),
    (buildType name options context : Logged ε (Option Field)).outcome =
      .ok (declaredType? name options)
  | [] => by simp [buildType, declaredType?]
  | (k, v) :: rest => by
    simp only [buildType, declaredType?]
    split
    · exact outcome_build name context v
    · exact outcome_buildType name context rest

theorem outcome_buildElement (path : Text) : ∀ items : List Literal,
    (buildElement items path : Logged ε Field).outcome = .ok (declaredElement items)
  | [] => by simp [buildElement, declaredElement]
  | v :: rest => by
    simp only [buildElement, declaredElement]
    split
    · simp
    · split <;> simp [outcome_build "element" path v]

theorem outcome_buildTree (context : Text) : ∀ (entries : List (Text × Literal)) (tree : FieldTree),
    (buildTree entries context tree : Logged ε FieldTree).outcome = .ok (declaredTree entries tree)
  | [], tree => by simp [buildTree, declaredTree]
  | (name, value) :: rest, tree => by
    simp only [buildTree, declaredTree, Logged.outcome_bind, outcome_build name context value,
      ok_bind]
    cases declared? name value with
    | some field => exact outcome_buildTree context rest (tree.add field)
    | none => simp [outcome_buildTree context rest tree]

end

end Field

/-- The fields that the entries of an object declare. -/
def FieldTree.declared (entries : Entries Literal) : FieldTree := Field.declaredTree entries []

@[simp] theorem FieldTree.outcome_ofEntries {ε : Type} (entries : Entries Literal)
    (context : Text) :
    (ofEntries entries context : Logged ε FieldTree).outcome = .ok (declared entries) :=
  Field.outcome_buildTree context entries []

/-! ### Quoting types -/

theorem Entries.get?_map {α β : Type} (f : Text → α → β) (es : Entries α) (key : Text) :
    Entries.get? (es.map fun e => (e.1, f e.1 e.2)) key = (es.get? key).map (f key) := by
  induction es with
  | nil => rfl
  | cons e es ih =>
    obtain ⟨k, v⟩ := e
    by_cases h : k = key
    · subst h
      simp [Entries.get?]
    · simpa [Entries.get?, h] using ih

/-- What is done to the values does not change the keys. -/
theorem Entries.keys_map {α β : Type} (f : Text → α → β) (es : Entries α) :
    keys (es.map fun e => (e.1, f e.1 e.2)) = es.keys := by
  simp [keys, Function.comp_def]

theorem Entries.mem_of_get? {α : Type} {es : Entries α} {key : Text} {v : α}
    (h : es.get? key = some v) : (key, v) ∈ es := by
  induction es with
  | nil => cases h
  | cons e es ih =>
    obtain ⟨k, w⟩ := e
    rw [get?] at h
    split at h
    · next hk =>
      cases h
      simp [hk]
    · exact List.mem_cons_of_mem _ (ih h)

namespace Raw

mutual

/-- A plain value stays what it is where a plain value belongs. -/
theorem quoteOption_ofLiteral : ∀ v : Literal, quoteOption (ofLiteral v) = v
  | .null | .bool _ | .int _ | .float _ | .text _ => by simp [ofLiteral, quoteOption]
  | .list items => by simp [ofLiteral, quoteOption, quoteOptionItems_ofLiterals items]
  | .object entries => by simp [ofLiteral, quoteOption, quoteOptionEntries_ofEntries entries]

theorem quoteOptionItems_ofLiterals : ∀ items : List Literal,
    quoteOptionItems (ofLiterals items) = items
  | [] => rfl
  | v :: rest => by
    rw [ofLiterals, quoteOptionItems, quoteOption_ofLiteral v, quoteOptionItems_ofLiterals rest]

theorem quoteOptionEntries_ofEntries : ∀ es : List (Text × Literal),
    quoteOptionEntries (ofEntries es) = es
  | [] => rfl
  | (k, v) :: rest => by
    rw [ofEntries, quoteOptionEntries, quoteOption_ofLiteral v, quoteOptionEntries_ofEntries rest]

end

end Raw

namespace Literal

/-- The value with its types quoted. -/
def typed (v : Literal) : Literal := Raw.quoteType (Raw.ofLiteral v)

/-- The option of a field, quoted if it is a type. -/
def typedOption (key : Text) (v : Literal) : Literal := if Raw.isTypeKey key then v.typed else v

theorem quoteTypeItems_ofLiterals (items : List Literal) :
    Raw.quoteTypeItems (Raw.ofLiterals items) = items.map typed := by
  induction items with
  | nil => rfl
  | cons v rest ih => rw [Raw.ofLiterals, Raw.quoteTypeItems, ih, List.map_cons, typed]

@[simp] theorem typed_list (items : List Literal) :
    typed (.list items) = .list (items.map typed) := by
  rw [typed, Raw.ofLiteral, Raw.quoteType, quoteTypeItems_ofLiterals]

theorem quoteFields_ofEntries (es : Entries Literal) :
    Raw.quoteFields (Raw.ofEntries es) = es.map fun e => (e.1, e.2.typed) := by
  induction es with
  | nil => rfl
  | cons e es ih =>
    obtain ⟨k, v⟩ := e
    rw [Raw.ofEntries, Raw.quoteFields, ih, List.map_cons, typed]

theorem quoteOptions_ofEntries (es : Entries Literal) :
    Raw.quoteOptions (Raw.ofEntries es) = es.map fun e => (e.1, typedOption e.1 e.2) := by
  induction es with
  | nil => rfl
  | cons e es ih =>
    obtain ⟨k, v⟩ := e
    rw [Raw.ofEntries, Raw.quoteOptions, ih, List.map_cons, typedOption, typed,
      Raw.quoteOption_ofLiteral]

/-- Whether an object has a key does not depend on what stands under its keys. -/
theorem has_map {α β : Type} (f : Text → α → β) (es : Entries α) (key : Text) :
    Entries.has (es.map fun e => (e.1, f e.1 e.2)) key = es.has key := by
  rw [Entries.has, Entries.get?_map, Option.isSome_map, Entries.has]

theorem isOptions_ofEntries (es : Entries Literal) :
    Raw.isOptions (Raw.ofEntries es) = isOptions es := by
  have get : Entries.get? (Raw.ofEntries es) "type" = (es.get? "type").map Raw.ofLiteral := by
    rw [Raw.ofEntries_eq_map]
    exact Entries.get?_map (fun _ v => Raw.ofLiteral v) es "type"
  have has (inner : Entries Literal) :
      Entries.has (Raw.ofEntries inner) "type" = inner.has "type" := by
    rw [Raw.ofEntries_eq_map]
    exact has_map (fun _ v => Raw.ofLiteral v) inner "type"
  rw [Raw.isOptions, get, isOptions]
  cases es.get? "type" with
  | none => rfl
  | some v => cases v <;> simp [Raw.ofLiteral, has]

/-- What becomes of a value under a key of an object with the entries `es`. -/
def typedIn (es : Entries Literal) : Text → Literal → Literal :=
  if isOptions es then typedOption else fun _ v => v.typed

/-- A typed object has the same keys. -/
theorem typed_object (es : Entries Literal) :
    typed (.object es) = .object (es.map fun e => (e.1, typedIn es e.1 e.2)) := by
  rw [typed, Raw.ofLiteral, Raw.quoteType, isOptions_ofEntries, typedIn]
  split
  · rw [quoteOptions_ofEntries]
  · rw [quoteFields_ofEntries]

/-- Quoting types does not change whether entries are the options of a field. -/
theorem isOptions_typed (es : Entries Literal) :
    isOptions (es.map fun e => (e.1, typedIn es e.1 e.2)) = isOptions es := by
  have type (v : Literal) : typedIn es "type" v = v.typed := by
    rw [typedIn]
    split <;> rfl
  rw [isOptions, Entries.get?_map, isOptions]
  cases es.get? "type" with
  | none => rfl
  | some v =>
    rw [Option.map_some, type]
    cases v with
    | object inner => simp [typed_object, has_map]
    | _ => simp [typed, Raw.ofLiteral, Raw.quoteType]

theorem isText_typed (v : Literal) : v.typed.isText = v.isText := by
  cases v <;> simp [typed, Raw.ofLiteral, Raw.quoteType, isText]

end Literal

namespace Field

theorem ofText_typeOfText (name s : Text) : ofText name (Raw.typeOfText s) = ofText name s := by
  have tags : ∀ e ∈ typeTags, ∀ name, ofText name e.2 = ofText name e.1 := by
    have bases : ∀ e ∈ typeTags, BaseType.ofName? e.2 = BaseType.ofName? e.1 ∧
        (BaseType.ofName? e.1).isSome = true ∧ e.1 ≠ [] ∧ e.2 ≠ [] := by decide +kernel
    intro e he name
    obtain ⟨same, some, h1, h2⟩ := bases e he
    obtain ⟨base, hb⟩ := Option.isSome_iff_exists.1 some
    rw [hb] at same
    simp [ofText, h1, h2, hb, same]
  rw [Raw.typeOfText]
  split
  · next empty =>
    rw [List.isEmpty_iff.1 empty]
    rfl
  · cases h : Entries.get? typeTags s with
    | none => rfl
    | some tag => exact tags _ (Entries.mem_of_get? h) name

/-- The options that are no types count as they are written. -/
theorem configured_typed (es : Entries Literal) (field : Field) :
    field.configured (es.map fun e => (e.1, Literal.typedOption e.1 e.2)) =
      field.configured es := by
  have kept {key : Text} (h : Raw.isTypeKey key = false) :
      Entries.get? (es.map fun e => (e.1, Literal.typedOption e.1 e.2)) key = es.get? key := by
    rw [Entries.get?_map]
    cases es.get? key <;> simp [Literal.typedOption, h]
  have required : Raw.isTypeKey "required" = false := by decide
  have ref : Raw.isTypeKey "ref" = false := by decide
  have enum : Raw.isTypeKey "enum" = false := by decide
  simp only [configured, withRef, kept required, kept ref, kept enum]

mutual

theorem declared?_typed (name : Text) : ∀ v : Literal, declared? name v.typed = declared? name v
  | .null | .bool _ | .int _ | .float _ => by
    simp [Literal.typed, Raw.ofLiteral, Raw.quoteType]
  | .text s => by
    simp [Literal.typed, Raw.ofLiteral, Raw.quoteType, declared?, ofText_typeOfText]
  | .list items => by
    rw [Literal.typed_list, declared?, declaredElement_typed items, declared?]
  | .object [] => by rw [Literal.typed_object]; rfl
  | .object (e :: rest) => by
    rw [Literal.typed_object, declared?_object (by simp), declared?_object (by simp),
      Literal.isOptions_typed]
    unfold Literal.typedIn
    split
    · rw [declaredType?_typed name (e :: rest)]
      exact congrArg (fun f => (declaredType? name (e :: rest)).map f)
        (funext fun field => configured_typed (e :: rest) field)
    · rw [declaredTree_typed (e :: rest)]

theorem declaredType?_typed (name : Text) : ∀ es : List (Text × Literal),
    declaredType? name (es.map fun e => (e.1, Literal.typedOption e.1 e.2)) =
      declaredType? name es
  | [] => rfl
  | (k, v) :: rest => by
    simp only [List.map_cons, declaredType?]
    split
    · next type =>
      rw [type]
      exact declared?_typed name v
    · exact declaredType?_typed name rest

theorem declaredElement_typed : ∀ items : List Literal,
    declaredElement (items.map Literal.typed) = declaredElement items
  | [] => rfl
  | v :: rest => by
    have texts (ws : List Literal) : (ws.map Literal.typed).all Literal.isText =
        ws.all Literal.isText := by
      simp [List.all_map, Function.comp_def, Literal.isText_typed]
    rw [List.map_cons, declaredElement, List.isEmpty_map, ← List.map_cons, texts,
      declared?_typed "element" v, declaredElement]

theorem declaredTree_typed : ∀ (es : List (Text × Literal)) (tree : FieldTree),
    declaredTree (es.map fun e => (e.1, e.2.typed)) tree = declaredTree es tree
  | [], _ => rfl
  | (k, v) :: rest, tree => by
    simp only [List.map_cons, declaredTree, declared?_typed k v]
    cases declared? k v with
    | some field => exact declaredTree_typed rest (tree.add field)
    | none => exact declaredTree_typed rest tree

end

end Field

end SchemaTypings
