import SchemaTypings.Proofs.Fields

/-!
Quoting the types of what is written. Every object keeps its keys and stays the options of a field
if it is so, and types that are quoted once are not changed when they are quoted again.
-/

namespace SchemaTypings

/-! ### Values as they are written -/

namespace Raw

/-- Every path of names in a value satisfies `path`, every other text `text`, and the keys of every
object satisfy `keys`. -/
inductive Holds (path text : Text → Prop) (keys : List Text → Prop) : Raw → Prop
  | bare {p : Text} (h : path p) : Holds path text keys (.bare p)
  | null : Holds path text keys .null
  | bool (b : Bool) : Holds path text keys (.bool b)
  | int (i : Int) : Holds path text keys (.int i)
  | float (x : Binary64) : Holds path text keys (.float x)
  | text {s : Text} (h : text s) : Holds path text keys (.text s)
  | list {items : List Raw} (h : ∀ v ∈ items, Holds path text keys v) :
    Holds path text keys (.list items)
  | object {es : List (Text × Raw)} (hk : keys (Entries.keys es))
      (h : ∀ e ∈ es, Holds path text keys e.2) : Holds path text keys (.object es)

theorem Holds.mono {path path' text text' : Text → Prop} {keys keys' : List Text → Prop} {v : Raw}
    (h : v.Holds path text keys) (paths : ∀ p, path p → path' p) (texts : ∀ s, text s → text' s)
    (all : ∀ ks, keys ks → keys' ks) : v.Holds path' text' keys' := by
  induction h with
  | bare h => exact .bare (paths _ h)
  | null => exact .null
  | bool b => exact .bool b
  | int i => exact .int i
  | float x => exact .float x
  | text h => exact .text (texts _ h)
  | list _ ih => exact .list ih
  | object hk _ ih => exact .object (all _ hk) ih

/-- What becomes of a value under a key of an object with the entries `es`. -/
def quoteIn (es : Entries Raw) (key : Text) (v : Raw) : Literal :=
  if isOptions es && !isTypeKey key then quoteOption v else quoteType v

@[simp] theorem quoteOption_list (items : List Raw) :
    quoteOption (.list items) = .list (items.map quoteOption) := by
  have all : quoteOptionItems items = items.map quoteOption := by
    induction items with
    | nil => rfl
    | cons v rest ih => rw [quoteOptionItems, ih, List.map_cons]
  rw [quoteOption, all]

@[simp] theorem quoteOption_object (es : Entries Raw) :
    quoteOption (.object es) = .object (es.map fun e => (e.1, quoteOption e.2)) := by
  have all : quoteOptionEntries es = es.map fun e => (e.1, quoteOption e.2) := by
    induction es with
    | nil => rfl
    | cons e rest ih => rw [quoteOptionEntries, ih, List.map_cons]
  rw [quoteOption, all]

@[simp] theorem quoteType_list (items : List Raw) :
    quoteType (.list items) = .list (items.map quoteType) := by
  have all : quoteTypeItems items = items.map quoteType := by
    induction items with
    | nil => rfl
    | cons v rest ih => rw [quoteTypeItems, ih, List.map_cons]
  rw [quoteType, all]

theorem quoteFields_eq_map (es : Entries Raw) :
    quoteFields es = es.map fun e => (e.1, quoteType e.2) := by
  induction es with
  | nil => rfl
  | cons e rest ih => rw [quoteFields, ih, List.map_cons]

theorem quoteOptions_eq_map (es : Entries Raw) : quoteOptions es =
    es.map fun e => (e.1, if isTypeKey e.1 then quoteType e.2 else quoteOption e.2) := by
  induction es with
  | nil => rfl
  | cons e rest ih => rw [quoteOptions, ih, List.map_cons]

/-- A quoted object has the same keys. -/
@[simp] theorem quoteType_object (es : Entries Raw) :
    quoteType (.object es) = .object (es.map fun e => (e.1, quoteIn es e.1 e.2)) := by
  rw [quoteType]
  cases options : isOptions es with
  | true =>
    rw [if_pos rfl, quoteOptions_eq_map]
    congr 2
    funext e
    cases type : isTypeKey e.1 <;> simp [quoteIn, options, type]
  | false => simp [quoteFields_eq_map, quoteIn, options]

/-- Quoting does not change whether entries are the options of a field. -/
theorem isOptions_quoteIn (es : Entries Raw) :
    Literal.isOptions (es.map fun e => (e.1, quoteIn es e.1 e.2)) = isOptions es := by
  have type (v : Raw) : quoteIn es "type" v = quoteType v := by simp [quoteIn, isTypeKey]
  rw [Literal.isOptions, Entries.get?_map, isOptions]
  cases es.get? "type" with
  | none => rfl
  | some v =>
    rw [Option.map_some, type]
    cases v with
    | object inner => simp [Literal.has_map (quoteIn inner)]
    | list items => simp
    | _ => rfl

/-! ### Quoting twice -/

/-- No tag has a tag of its own. -/
theorem typeOfText_tag : ∀ e ∈ typeTags, typeOfText e.2 = e.2 := by decide +kernel

theorem typeOfText_typeOfText (s : Text) : typeOfText (typeOfText s) = typeOfText s := by
  by_cases empty : s.isEmpty = true
  · rw [List.isEmpty_iff.1 empty]
    rfl
  · cases tag : Entries.get? typeTags s with
    | some t => simpa [typeOfText, empty, tag] using typeOfText_tag _ (Entries.mem_of_get? tag)
    | none => simp [typeOfText, empty, tag]

/-- The tag of a path is none of the names that have a tag, and so is a path without a tag. -/
theorem typeOfText_typeOfPath {path : Text} (h : path ≠ []) :
    typeOfText (typeOfPath path) = typeOfPath path := by
  have names : ∀ e ∈ typeTags, lastName e.1 = e.1 := by decide +kernel
  rw [typeOfPath]
  cases tag : Entries.get? typeTags (lastName path) with
  | some t => exact typeOfText_tag _ (Entries.mem_of_get? tag)
  | none =>
    have unknown : Entries.get? typeTags path = none := by
      cases known : Entries.get? typeTags path with
      | none => rfl
      | some t =>
        rw [names _ (Entries.mem_of_get? known), known] at tag
        cases tag
    simp [typeOfText, h, unknown]

/-- A value whose types are quoted keeps them when they are quoted again. -/
theorem typed_quoteType {text : Text → Prop} {keys : List Text → Prop} {v : Raw}
    (h : v.Holds (· ≠ []) text keys) :
    (quoteType v).typed = quoteType v := by
  induction h with
  | bare named => simp [quoteType, Literal.typed, ofLiteral, typeOfText_typeOfPath named]
  | text => simp [quoteType, Literal.typed, ofLiteral, typeOfText_typeOfText]
  | @list items _ ih =>
    rw [quoteType_list, Literal.typed_list, List.map_map]
    exact congrArg Literal.list (List.map_congr_left ih)
  | @object es _ _ ih =>
    rw [quoteType_object, Literal.typed_object, Literal.typedIn, isOptions_quoteIn, List.map_map]
    -- An option that is no type is left alone both times.
    refine congrArg Literal.object (List.map_congr_left fun e he => ?_)
    cases options : isOptions es <;> cases type : isTypeKey e.1 <;>
      simp [quoteIn, options, type, Literal.typedOption, ih e he]
  | _ => rfl

end Raw

/-! ### Quoting fields -/

/-- Quoting the types among plain entries, at whatever depth they stand, leaves the fields that the
entries declare. -/
theorem FieldTree.exists_ofEntries_quoteFields {ε : Type} (es : Entries Literal)
    (context context' : Text) :
    ∃ tree, (ofEntries es context : Logged ε FieldTree).outcome = .ok tree ∧
      (ofEntries (Raw.quoteFields (Raw.ofEntries es)) context' : Logged ε FieldTree).outcome =
        .ok tree := by
  refine ⟨declared es, outcome_ofEntries es context, ?_⟩
  have same : declared (es.map fun e => (e.1, e.2.typed)) = declared es :=
    Field.declaredTree_typed es []
  rw [Literal.quoteFields_ofEntries, outcome_ofEntries, same]

/-- The entries themselves are changed. -/
example : Raw.quoteFields (Raw.ofEntries [("at", .text "Date"), ("by", .text "String")]) =
    ([("at", .text "Date"), ("by", .text "string")] : Entries Literal) := rfl

end SchemaTypings
