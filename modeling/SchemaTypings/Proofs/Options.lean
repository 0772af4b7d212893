import SchemaTypings.Proofs.Equality
import SchemaTypings.Proofs.Fields

/-!
Spellings of one field. An object that gives only a `type` is its type, and the options of an array
say the same whether they stand beside the list or inside it, since `ref` and `enum` reach the
innermost element.
-/

namespace SchemaTypings

/-- Whether a value is an object with a `type`. -/
def Literal.hasType : Literal → Bool
  | .object es => Entries.has es "type"
  | _ => false

/-- An object with a `type` describes a field, unless the type is itself so described. -/
theorem Literal.isOptions_of_type {es : Entries Literal} {v : Literal}
    (type : es.get? "type" = some v) : isOptions es = !v.hasType := by
  rw [isOptions, type]
  cases v <;> rfl

/-- An outcome passed on stays with its records. -/
theorem Logged.monadBind_pure {ε α : Type} (x : Logged ε α) : (x >>= pure) = x := by
  obtain ⟨log, outcome⟩ := x
  cases outcome with
  | error e => rfl
  | ok a =>
    show (⟨log ++ [], .ok a⟩ : Logged ε α) = ⟨log, .ok a⟩
    rw [List.append_nil]

namespace Field

variable {ε : Type} {es es' : Entries Literal} {v : Literal}

/-! ### An object that gives only a type -/

theorem buildType_of_type (type : es.get? "type" = some v) (name context : Text) :
    (buildType name es context : Logged ε (Option Field)) = build name v context := by
  induction es with
  | nil => cases type
  | cons e es ih =>
    obtain ⟨k, w⟩ := e
    rw [buildType]
    rw [Entries.get?] at type
    split at type
    · next here =>
      cases type
      rw [if_pos here]
    · next other =>
      rw [if_neg other]
      exact ih type

theorem withOptions_of_none (required : es.get? "required" = none) (ref : es.get? "ref" = none)
    (enum : es.get? "enum" = none) (path : Text) (field : Field) :
    (field.withOptions es path : Logged ε Field) = Logged.pure field := by
  simp [withOptions, withRef, required, ref, enum, isOptional, enumValues]

/-- Without the options that count, an object with a `type` is built as its type is. -/
theorem build_of_type (plain : v.hasType = false) (type : es.get? "type" = some v)
    (required : es.get? "required" = none) (ref : es.get? "ref" = none)
    (enum : es.get? "enum" = none) (name context : Text) :
    (build name (.object es) context : Logged ε (Option Field)) = build name v context := by
  have options : Literal.isOptions es = true := by
    rw [Literal.isOptions_of_type type, plain, Bool.not_false]
  cases es with
  | nil => cases type
  | cons e rest =>
    rw [build, if_pos options, buildType_of_type type]
    refine Eq.trans ?_ (Logged.monadBind_pure (build name v context))
    congr 1
    funext field
    cases field with
    | none => rfl
    | some field =>
      simp only [withOptions_of_none required ref enum, Logged.pure_monadBind]
      rfl

/-! ### Options beside and inside a list -/

/-- Whether a value declares a type does not depend on the name of the field. -/
theorem isSome_declared? (plain : v.hasType = false) (name name' : Text) :
    (declared? name v).isSome = (declared? name' v).isSome := by
  match v with
  | .null | .bool _ | .int _ | .float _ | .text _ | .list _ | .object [] => simp [declared?]
  | .object (e :: rest) =>
    have fields : Literal.isOptions (e :: rest) = false := by
      have none : Entries.get? (e :: rest) "type" = none := by
        simpa [Literal.hasType, Entries.has] using plain
      rw [Literal.isOptions, none]
    simp [declared?, fields]

/-- What is computed from the first `type` of entries is computed from the value under it. -/
theorem eq_of_get?_type {α : Type} {ofEntries : Entries Literal → α} {ofValue : Literal → α}
    (cons : ∀ k v rest, ofEntries ((k, v) :: rest) =
      if k = "type" then ofValue v else ofEntries rest)
    (type : es.get? "type" = some v) : ofEntries es = ofValue v := by
  induction es with
  | nil => cases type
  | cons e es ih =>
    obtain ⟨k, w⟩ := e
    rw [Entries.get?] at type
    rw [cons]
    split at type
    · next here =>
      cases type
      rw [if_pos here]
    · next other =>
      rw [if_neg other]
      exact ih type

theorem declaredType?_of_type (type : es.get? "type" = some v) (name : Text) :
    declaredType? name es = declared? name v :=
  eq_of_get?_type (fun _ _ _ => by rw [declaredType?]) type

/-- The field of an object with a `type` is that of the type with the options. -/
theorem declared?_of_type (plain : v.hasType = false) (type : es.get? "type" = some v)
    (name : Text) : declared? name (.object es) = (declared? name v).map (configured es) := by
  have some : es ≠ [] := by
    rintro rfl
    cases type
  rw [declared?_object some, if_pos (by rw [Literal.isOptions_of_type type, plain, Bool.not_false]),
    declaredType?_of_type type]

/-- Only `required`, `ref` and `enum` count. -/
theorem configured_congr (required : es.get? "required" = es'.get? "required")
    (ref : es.get? "ref" = es'.get? "ref") (enum : es.get? "enum" = es'.get? "enum") :
    configured es = configured es' := by
  funext field
  simp only [configured, withRef, required, ref, enum]

/-- The array of one element. -/
def arrayOf (name : Text) (element : Field) : Field :=
  { name, kind := .array, child := .element element }

theorem mapLeaf_arrayOf (change : Field → Field) (name : Text) (element : Field) :
    (arrayOf name element).mapLeaf change = arrayOf name (element.mapLeaf change) := by
  simp [arrayOf, mapLeaf, mapElement]

/-- Options without a `required` make of an array the array of the element that they make. -/
theorem configured_arrayOf (required : es.get? "required" = none) (name : Text) (element : Field) :
    configured es (arrayOf name element) = arrayOf name (configured es element) := by
  have ref (field : Field) :
      withRef es (arrayOf name field) = arrayOf name (field.withRef es) := by
    unfold withRef
    split
    · split
      · rfl
      · rw [mapLeaf_arrayOf]
    · rfl
  have optional : isOptional none = false := rfl
  simp only [configured, required, optional, Bool.false_eq_true, if_false, ref]
  split
  · rfl
  · rw [mapLeaf_arrayOf]

theorem declared?_singleton (name : Text) (w : Literal) :
    declared? name (.list [w]) =
      some (arrayOf name ((declared? "element" w).getD anyElement)) := by
  simp [declared?, declaredElement, arrayOf]

/-- Beside a list of one type or inside it, the options make the same array. -/
theorem declared?_beside_eq_inside (plain : v.hasType = false)
    (declares : (declared? "element" v).isSome) (beside : es.get? "type" = some (.list [v]))
    (inside : es'.get? "type" = some v) (required : es.get? "required" = none)
    (same : ∀ key ∈ (["required", "ref", "enum"] : List Text), es.get? key = es'.get? key)
    (name : Text) :
    declared? name (.object es) = declared? name (.list [.object es']) := by
  obtain ⟨element, built⟩ := Option.isSome_iff_exists.1 declares
  have options : configured es = configured es' :=
    configured_congr (same _ (by simp)) (same _ (by simp)) (same _ (by simp))
  calc declared? name (.object es)
      = some (configured es (arrayOf name element)) := by
        rw [declared?_of_type rfl beside, declared?_singleton, built]
        rfl
    _ = some (arrayOf name (configured es' element)) := by
        rw [configured_arrayOf required, options]
    _ = declared? name (.list [.object es']) := by
        rw [declared?_singleton, declared?_of_type plain inside, built]
        rfl

/-- Two spellings of a field: `{ type: v, … }` without the options that count builds just what `v`
does, and `{ type: [v], … }` builds the field of `[{ type: v, … }]`, whatever `ref` and `enum` are.
The two arrays may leave different records, since those name the place of the options. -/
theorem build_eq_of_spelling (name context : Text) {v : Literal} (plain : v.hasType = false) :
    (∀ o : Entries Literal,
      (∀ key ∈ o.keys, key ∉ (["type", "required", "ref", "enum"] : List Text)) →
      (build name (.object (("type", v) :: o)) context : Logged ε (Option Field)) =
        build name v context) ∧
    ((build name v context : Logged ε (Option Field)).outcome ≠ .ok none →
      ∀ o : Entries Literal, (∀ key ∈ o.keys, key ∉ (["type", "required"] : List Text)) →
      ∃ field,
        (build name (.object (("type", .list [v]) :: o)) context :
          Logged ε (Option Field)).outcome = .ok (some field) ∧
        (build name (.list [.object (("type", v) :: o)]) context :
          Logged ε (Option Field)).outcome = .ok (some field)) := by
  have behind {o : Entries Literal} (w : Literal) {key : Text} (h : "type" ≠ key) :
      Entries.get? (("type", w) :: o) key = o.get? key := by rw [Entries.get?, if_neg h]
  have front (o : Entries Literal) (w : Literal) :
      Entries.get? (("type", w) :: o) "type" = some w := by rw [Entries.get?, if_pos rfl]
  constructor
  · intro o others
    have absent {key : Text} (h : key ∈ (["required", "ref", "enum"] : List Text)) :
        Entries.get? (("type", v) :: o) key = none := by
      rw [behind v (by rintro rfl; revert h; decide)]
      exact Entries.get?_eq_none_iff.2 fun mem => others key mem (List.mem_cons_of_mem _ h)
    exact build_of_type plain (front o v) (absent (by simp)) (absent (by simp))
      (absent (by simp)) name context
  · intro declares o others
    rw [outcome_build] at declares
    have element : (declared? "element" v).isSome := by
      rw [isSome_declared? plain "element" name, Option.isSome_iff_ne_none]
      exact fun none => declares (congrArg Except.ok none)
    have same := declared?_beside_eq_inside plain element (front o (.list [v])) (front o v)
      (by rw [behind _ (by decide)]
          exact Entries.get?_eq_none_iff.2 fun mem => others _ mem (by simp))
      (fun key mem => by
        have other : "type" ≠ key := by rintro rfl; revert mem; decide
        rw [behind _ other, behind _ other])
      name
    let element := (declared? "element" (.object (("type", v) :: o))).getD anyElement
    refine ⟨arrayOf name element, ?_, ?_⟩
    · rw [outcome_build, same, declared?_singleton]
    · rw [outcome_build, declared?_singleton]

/-- An array of strings that `index` leaves alone, and that `ref` turns into references. -/
theorem build_eq_of_spelling_strings :
    (build "a" (.object [("type", .list [.text "string"]), ("index", .bool true)]) "" :
      Logged Unit (Option Field)) = build "a" (.list [.text "string"]) "" ∧
    ∃ field,
      (build "a" (.object [("type", .list [.list [.text "string"]]), ("ref", .text "User")]) "" :
        Logged Unit (Option Field)).outcome = .ok (some field) ∧
      (build "a" (.list [.object [("type", .list [.text "string"]), ("ref", .text "User")]]) "" :
        Logged Unit (Option Field)).outcome = .ok (some field) := by
  have spellings := build_eq_of_spelling (ε := Unit) "a" "" (v := .list [.text "string"]) rfl
  refine ⟨spellings.1 [("index", .bool true)] (by decide),
    spellings.2 ?_ [("ref", .text "User")] (by decide)⟩
  rw [outcome_build, declared?_singleton]
  exact fun none => nomatch none

end Field

end SchemaTypings
