import Mathlib.Data.Option.Basic
import SchemaTypings.Proofs.Quoting
import SchemaTypings.Proofs.Wellformed

/-!
What quoting the types of a declaration leaves as it is. Quoting twice is quoting once. At every
place there are a list of the same length, or an object of the same keys that is the options of a
field as before, or else a plain value; and below an option that is no type nothing changes but that
a path of names becomes its text. The outermost object is no field, so its values are types even
where it looks like options.
-/

namespace SchemaTypings

/-! ### Places in a value -/

/-- A step into a value: to an item of a list, or to what stands under a key of an object. -/
inductive ValueStep
  | item (i : Nat)
  | key (name : Text)

/-- What a value is, apart from the values in it. -/
inductive Shape
  | plain
  | list (length : Nat)
  | object (keys : List Text) (isOptions : Bool)

namespace Raw

/-- What a step leads to. -/
def child? : Raw → ValueStep → Option Raw
  | .list items, .item i => items[i]?
  | .object es, .key name => Entries.get? es name
  | _, _ => none

/-- What stands at the end of a path. -/
def at? (v : Raw) (path : List ValueStep) : Option Raw := path.foldlM child? v

@[simp] theorem at?_nil (v : Raw) : v.at? [] = some v := rfl

theorem at?_cons (v : Raw) (step : ValueStep) (path : List ValueStep) :
    v.at? (step :: path) = (v.child? step).bind (·.at? path) := rfl

def shape : Raw → Shape
  | .list items => .list items.length
  | .object es => .object (Entries.keys es) (isOptions es)
  | _ => .plain

/-- The plain value that is written, where a path of names stands for its text. -/
def plain? : Raw → Option Literal
  | .bare path => some (.text path)
  | .null => some .null
  | .bool b => some (.bool b)
  | .int i => some (.int i)
  | .float x => some (.float x)
  | .text s => some (.text s)
  | .list _ | .object _ => none

end Raw

namespace Literal

/-- The same for literal values. -/
def child? : Literal → ValueStep → Option Literal
  | .list items, .item i => items[i]?
  | .object es, .key name => Entries.get? es name
  | _, _ => none

def at? (v : Literal) (path : List ValueStep) : Option Literal := path.foldlM child? v

@[simp] theorem at?_nil (v : Literal) : v.at? [] = some v := rfl

theorem at?_cons (v : Literal) (step : ValueStep) (path : List ValueStep) :
    v.at? (step :: path) = (v.child? step).bind (·.at? path) := rfl

theorem at?_append (v : Literal) (path below : List ValueStep) :
    v.at? (path ++ below) = (v.at? path).bind (·.at? below) := by
  rw [at?, List.foldlM_append]
  rfl

def shape : Literal → Shape
  | .list items => .list items.length
  | .object es => .object (Entries.keys es) (isOptions es)
  | _ => .plain

def plain? : Literal → Option Literal
  | .list _ | .object _ => none
  | v => some v

end Literal

/-! ### Quoted values -/

/-- The value `w` is `v` with its names settled, as that of a type or as that of a plain value. -/
def IsQuoted (v : Raw) (w : Literal) : Prop := w = Raw.quoteType v ∨ w = Raw.quoteOption v

namespace IsQuoted

variable {v : Raw} {w : Literal} {items : List Raw} {es : Entries Raw}

theorem exists_list (h : IsQuoted (.list items) w) :
    ∃ quote : Raw → Literal, (∀ v, IsQuoted v (quote v)) ∧ w = .list (items.map quote) := by
  obtain rfl | rfl := h
  · exact ⟨_, fun _ => .inl rfl, Raw.quoteType_list items⟩
  · exact ⟨_, fun _ => .inr rfl, Raw.quoteOption_list items⟩

theorem quoteIn (es : Entries Raw) (key : Text) (v : Raw) : IsQuoted v (Raw.quoteIn es key v) := by
  rw [Raw.quoteIn]
  split
  · exact .inr rfl
  · exact .inl rfl

theorem exists_object (h : IsQuoted (.object es) w) :
    ∃ quote : Text → Raw → Literal, (∀ key v, IsQuoted v (quote key v)) ∧
      w = .object (es.map fun e => (e.1, quote e.1 e.2)) := by
  obtain rfl | rfl := h
  · exact ⟨_, quoteIn es, Raw.quoteType_object es⟩
  · exact ⟨_, fun _ _ => .inr rfl, Raw.quoteOption_object es⟩

/-- A quoted value has an entry `type` if the value has one. -/
theorem isOptions (quote : Text → Raw → Literal) (quoted : ∀ key v, IsQuoted v (quote key v))
    (es : Entries Raw) :
    Literal.isOptions (es.map fun e => (e.1, quote e.1 e.2)) = Raw.isOptions es := by
  rw [Literal.isOptions, Entries.get?_map, Raw.isOptions]
  cases es.get? "type" with
  | none => rfl
  | some v =>
    have here := quoted "type" v
    cases v with
    | object inner =>
      obtain ⟨quote', -, eq⟩ := here.exists_object
      simp [eq, Literal.has_map quote']
    | list items =>
      obtain ⟨quote', -, eq⟩ := here.exists_list
      simp [eq]
    | _ =>
      obtain eq | eq := here <;> simp [eq, Raw.quoteType, Raw.quoteOption]

theorem shape (h : IsQuoted v w) : w.shape = v.shape := by
  cases v with
  | list items =>
    obtain ⟨quote, -, rfl⟩ := h.exists_list
    simp [Literal.shape, Raw.shape]
  | object es =>
    obtain ⟨quote, quoted, rfl⟩ := h.exists_object
    rw [Literal.shape, Raw.shape, isOptions quote quoted, Entries.keys_map]
  | _ => obtain rfl | rfl := h <;> rfl

/-- What is in a quoted value is quoted. -/
theorem child? (h : IsQuoted v w) (step : ValueStep) :
    Option.Rel IsQuoted (v.child? step) (w.child? step) := by
  cases v with
  | list items =>
    obtain ⟨quote, quoted, rfl⟩ := h.exists_list
    cases step with
    | item i =>
      rw [Raw.child?, Literal.child?, List.getElem?_map]
      cases items[i]? with
      | none => exact .none
      | some v => exact .some (quoted v)
    | key name => exact .none
  | object es =>
    obtain ⟨quote, quoted, rfl⟩ := h.exists_object
    cases step with
    | item i => exact .none
    | key name =>
      rw [Raw.child?, Literal.child?, Entries.get?_map]
      cases Entries.get? es name with
      | none => exact .none
      | some v => exact .some (quoted name v)
  | _ => obtain rfl | rfl := h <;> exact .none

theorem at? (h : IsQuoted v w) (path : List ValueStep) :
    Option.Rel IsQuoted (v.at? path) (w.at? path) := by
  induction path generalizing v w with
  | nil => exact .some h
  | cons step path ih =>
    have inside := h.child? step
    rw [Raw.at?_cons, Literal.at?_cons]
    generalize v.child? step = x, w.child? step = y at inside ⊢
    cases inside with
    | none => exact .none
    | some quoted => exact ih quoted

end IsQuoted

/-! ### Options that are no types -/

namespace Raw

variable {es options : Entries Raw} {key : Text} {v : Raw}

/-- Where a plain value belongs, only the paths of names are replaced. -/
theorem at?_quoteOption (v : Raw) (path : List ValueStep) :
    (quoteOption v).at? path = (v.at? path).map quoteOption := by
  induction path generalizing v with
  | nil => rfl
  | cons step path ih =>
    have inside : (quoteOption v).child? step = (v.child? step).map quoteOption := by
      cases v with
      | list items => cases step <;> simp [child?, Literal.child?]
      | object es =>
        cases step with
        | item i => simp [child?, Literal.child?]
        | key name =>
          rw [quoteOption_object, Literal.child?, child?]
          exact Entries.get?_map (fun _ => quoteOption) es name
      | _ => rfl
    rw [Literal.at?_cons, inside, at?_cons]
    cases v.child? step with
    | none => rfl
    | some v => exact ih v

theorem plain?_quoteOption (v : Raw) : (quoteOption v).plain? = v.plain? := by
  cases v <;> simp [quoteOption, plain?, Literal.plain?]

/-- Such an option of quoted options is the option as a plain value. -/
theorem child?_of_isQuoted {w : Literal} (h : IsQuoted (.object options) w)
    (isOptions : isOptions options = true) (other : isTypeKey key = false)
    (here : Entries.get? options key = some v) : w.child? (.key key) = some (quoteOption v) := by
  obtain rfl | rfl := h
  · rw [quoteType_object, Literal.child?, Entries.get?_map, here]
    simp [quoteIn, isOptions, other]
  · rw [quoteOption_object, Literal.child?, Entries.get?_map fun _ => quoteOption, here]
    rfl

/-- All that is in a declaration is quoted, though the object itself is not as that of a field. -/
theorem at?_quoteFields (es : Entries Raw) {path : List ValueStep} (inside : path ≠ []) :
    Option.Rel IsQuoted ((object es).at? path) ((Literal.object (quoteFields es)).at? path) := by
  cases path with
  | nil => exact absurd rfl inside
  | cons step path =>
    rw [at?_cons, Literal.at?_cons]
    cases step with
    | item i => exact .none
    | key name =>
      rw [quoteFields_eq_map, child?, Literal.child?, Entries.get?_map fun _ => quoteType]
      cases Entries.get? es name with
      | none => exact .none
      | some v => exact IsQuoted.at? (.inl rfl) path

theorem shape_quoteFields (es : Entries Raw) :
    (Literal.object (quoteFields es)).shape = (object es).shape := by
  have options := IsQuoted.isOptions (fun _ => quoteType) (fun _ _ => .inl rfl) es
  rw [quoteFields_eq_map, Literal.shape, options, Entries.keys_map fun _ => quoteType, shape]

/-- Quoting types again changes nothing. -/
theorem quoteFields_quoteFields (h : (object es).IsWellformed) :
    quoteFields (ofEntries (quoteFields es)) = quoteFields es := by
  cases h with
  | object _ values =>
    rw [Literal.quoteFields_ofEntries, quoteFields_eq_map, List.map_map]
    refine List.map_congr_left fun e mem => ?_
    exact congrArg (Prod.mk e.1) (typed_quoteType (values e mem))

end Raw

/-! ### Declarations -/

namespace Declaration

/-- Quoting the types of a declaration that is read changes nothing the second time. Every place
keeps its shape: the length of a list, the keys of an object and whether it is the options of a
field. Below any option of a field but those that are types, only the paths of names are replaced by
their texts, so a literal value stays what it is. -/
theorem quoteFields_keeps {text : Text} {es : Entries Raw}
    (read : (readRaw text).outcome = .ok es) :
    Raw.quoteFields (Raw.ofEntries (Raw.quoteFields es)) = Raw.quoteFields es ∧
      (∀ path, ((Literal.object (Raw.quoteFields es)).at? path).map Literal.shape =
        ((Raw.object es).at? path).map Raw.shape) ∧
      ∀ path options key v, path ≠ [] → (Raw.object es).at? path = some (.object options) →
        Raw.isOptions options = true → Raw.isTypeKey key = false →
        Entries.get? options key = some v →
          (∀ below, ((Literal.object (Raw.quoteFields es)).at? (path ++ .key key :: below)).bind
              Literal.plain? = (v.at? below).bind Raw.plain?) ∧
            ∀ w, v = Raw.ofLiteral w →
              (Literal.object (Raw.quoteFields es)).at? (path ++ [.key key]) = some w := by
  refine ⟨Raw.quoteFields_quoteFields (wellformed_of_readRaw read), fun path => ?_,
    fun path options key v inside here isOptions other value => ?_⟩
  · by_cases inside : path = []
    · subst inside
      exact congrArg some (Raw.shape_quoteFields es)
    · have same := Raw.at?_quoteFields es inside
      generalize (Raw.object es).at? path = x, (Literal.object (Raw.quoteFields es)).at? path = y
        at same ⊢
      cases same with
      | none => rfl
      | some quoted => exact congrArg some quoted.shape
  · have same := Raw.at?_quoteFields es inside
    rw [here] at same
    simp only [Literal.at?_append, Literal.at?_cons]
    generalize (Literal.object (Raw.quoteFields es)).at? path = y at same ⊢
    cases same with
    | some quoted =>
    have option := Raw.child?_of_isQuoted quoted isOptions other value
    refine ⟨fun below => ?_, ?_⟩
    · rw [Option.bind_some, option, Option.bind_some, Raw.at?_quoteOption]
      cases v.at? below with
      | none => rfl
      | some leaf => exact Raw.plain?_quoteOption leaf
    · rintro w rfl
      rw [Option.bind_some, option, Option.bind_some, Literal.at?_nil, Raw.quoteOption_ofLiteral]

/-- The value is that string. -/
def isString (s : Text) : Raw → Bool
  | .text t => decide (t = s)
  | _ => false

theorem eq_of_isString {s : Text} {v : Raw} (h : isString s v = true) : v = .text s := by
  cases v with
  | text t => exact congrArg Raw.text (of_decide_eq_true h)
  | _ => cases h

/-- The value is the options of a field, and one of them is that string. -/
def hasString (key s : Text) : Raw → Bool
  | .object options => Raw.isOptions options && (Entries.get? options key).any (isString s)
  | _ => false

/-- A field whose default is the empty string, which as a type would stand for another. -/
def emptyDefault : Text := "\x7b a: \x7b type: [String], enum: ['Date', B.c], default: '' \x7d \x7d"

theorem quoteFields_keeps_default : ∃ es options, (readRaw emptyDefault).outcome = .ok es ∧
    (Raw.object es).at? [.key "a"] = some (.object options) ∧ Raw.isOptions options = true ∧
    Entries.get? options "default" = some (.text []) ∧
    Raw.quoteFields (Raw.ofEntries (Raw.quoteFields es)) = Raw.quoteFields es ∧
    (Literal.object (Raw.quoteFields es)).at? [.key "a", .key "default"] = some (.text []) := by
  have ran : ((readRaw emptyDefault).outcome.toOption.any fun es =>
      (Entries.get? es "a").any (hasString "default" [])) = true := by decide +kernel
  simp only [Option.any_eq_true] at ran
  obtain ⟨es, read, v, here, shown⟩ := ran
  have read := ok_of_toOption read
  cases v with
  | object options =>
    simp only [hasString, Bool.and_eq_true, Option.any_eq_true] at shown
    obtain ⟨isOptions, v, value, string⟩ := shown
    obtain rfl := eq_of_isString string
    have place : (Raw.object es).at? [.key "a"] = some (.object options) := by
      rw [Raw.at?_cons, Raw.child?, here]
      rfl
    obtain ⟨twice, -, kept⟩ := quoteFields_keeps read
    exact ⟨es, options, read, place, isOptions, value, twice,
      (kept _ options "default" _ (by simp) place isOptions (by decide) value).2 (.text []) rfl⟩
  | _ => cases shown

/-- Two fields that are called like options. -/
def likeOptions : Text := "\x7b type: String, ref: \"String\" \x7d"

/-- The outermost object may look like options; its string is quoted as a type all the same. -/
theorem not_keeps_outermost : ∃ es, (readRaw likeOptions).outcome = .ok es ∧
    ¬∀ path options key v, (Raw.object es).at? path = some (.object options) →
      Raw.isOptions options = true → Raw.isTypeKey key = false →
      Entries.get? options key = some v → ∀ w, v = Raw.ofLiteral w →
        (Literal.object (Raw.quoteFields es)).at? (path ++ [.key key]) = some w := by
  have ran : ((readRaw likeOptions).outcome.toOption.any fun es => Raw.isOptions es &&
      (Entries.get? es "ref").any (isString "String")) = true := by decide +kernel
  simp only [Option.any_eq_true, Bool.and_eq_true] at ran
  obtain ⟨es, read, isOptions, v, value, string⟩ := ran
  obtain rfl := eq_of_isString string
  refine ⟨es, ok_of_toOption read, fun all => ?_⟩
  have kept := all [] es "ref" _ rfl isOptions (by decide) value (.text "String") rfl
  rw [List.nil_append, Literal.at?_cons, Raw.quoteFields_eq_map, Literal.child?,
    Entries.get?_map fun _ => Raw.quoteType, value] at kept
  have same : Raw.typeOfText "String" = "String" := Literal.text.inj (Option.some.inj kept)
  exact absurd same (by decide)

end Declaration

end SchemaTypings
