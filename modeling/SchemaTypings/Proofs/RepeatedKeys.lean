import Mathlib.Data.List.Forall2
import SchemaTypings.Proofs.Acceptance
import SchemaTypings.Proofs.Enumerations
import SchemaTypings.Proofs.Leniency
import SchemaTypings.Proofs.Rendering

/-!
Keys that repeat. The text of an object keeps all its entries; both readers and the field tree take
the last entry of each key, in the place of that entry.
-/

namespace SchemaTypings

/-! ### Field trees -/

namespace FieldTree

/-- The fields are those that the values of the entries declare. -/
def AreDeclared (es : List (Text × Literal)) (fields : List Field) : Prop :=
  List.Forall₂ (fun e field =>
    (Field.build e.1 e.2 [] : Logged ReadError (Option Field)).outcome = .ok (some field)) es fields

theorem name_of_build {name context : Text} {v : Literal} {field : Field}
    (h : (Field.build name v context : Logged ReadError (Option Field)).outcome =
      .ok (some field)) : field.name = name := by
  rw [Field.outcome_build, Except.ok.injEq] at h
  exact Field.name_of_declared? h

/-- Fields that are added one by one have the names that moving their entries one by one gives. -/
theorem names_foldl_add {es : List (Text × Literal)} {fields : List Field}
    (h : AreDeclared es fields) {tree : FieldTree} {before : Entries Literal}
    (same : tree.names = before.keys) :
    names (fields.foldl add tree) = Entries.keys (before.moveAll es) := by
  induction h generalizing tree before with
  | nil => exact same
  | @cons e field es fields built _ ih =>
    obtain ⟨key, v⟩ := e
    refine ih ?_
    rw [names_add, Entries.keys_move, same, name_of_build built]

theorem get?_add (tree : FieldTree) (field : Field) (name : Text) :
    (tree.add field).get? name = if field.name = name then some field else tree.get? name := by
  rw [get?, add, List.find?_append]
  split
  · next own =>
    have gone : (tree.filter fun f : Field => decide (f.name ≠ field.name)).find?
        (fun f => decide (f.name = name)) = none := by
      rw [List.find?_eq_none]
      intro f mem
      rw [List.mem_filter, decide_eq_true_eq, own] at mem
      simpa using mem.2
    rw [gone, Option.none_or, List.find?_cons_of_pos (by simpa using own)]
  · next other =>
    rw [List.find?_filter, List.find?_cons_of_neg (by simpa using other), List.find?_nil,
      Option.or_none, get?]
    refine congrArg (fun p => List.find? p tree) (funext fun f => ?_)
    by_cases own : f.name = name
    · have kept : f.name ≠ field.name := fun same => other (same.symm.trans own)
      rw [decide_eq_true own, decide_eq_true kept]
      rfl
    · simp [own]

/-- The last field of a name that was added is the one that is found. -/
theorem get?_foldl_add (fields : List Field) (name : Text) :
    get? (fields.foldl add []) name = (fields.filter fun f => f.name = name).getLast? := by
  induction fields using List.reverseRecOn with
  | nil => rfl
  | append_singleton fields field ih =>
    rw [List.foldl_append, List.foldl_cons, List.foldl_nil, get?_add, ih, List.filter_append,
      List.filter_singleton]
    split
    · next own => simp [own]
    · next other => simp [other]

end FieldTree

/-! ### Texts of objects -/

namespace Literal

variable {es : List (Text × Literal)}

theorem isFinite_of_arePlain (plain : ∀ e ∈ es, e.2.isPlain = true) :
    (object es).everywhere isFinite = true := by
  rw [everywhere_object, Bool.and_eq_true, List.all_eq_true]
  exact ⟨rfl, fun e mem => (everywhere_of_isPlain (plain e mem)).2.2⟩

/-- The text of an object of plain values denotes the last entries of its keys. -/
theorem parse_render_lasts (keys : ∀ e ∈ es, ('\n' : CodePoint) ∉ e.1)
    (plain : ∀ e ∈ es, e.2.isPlain = true) :
    Literal.parse (object es).render = .ok (.object (Entries.lasts es)) := by
  have same : ∀ e ∈ es, (e.1.keyRead, e.2.respelled) = e := by
    intro e mem
    obtain ⟨distinct, kept, finite⟩ := everywhere_of_isPlain (plain e mem)
    rw [respelled_eq distinct kept finite,
      Text.keyRead_of_not_isNameAndFeed (Text.not_isNameAndFeed_of_not_mem (keys e mem))]
  rw [parse_render_respelled (isFinite_of_arePlain plain), respelled_object,
    List.map_congr_left same, List.map_id', Entries.lastWins_eq_lasts]

/-- Keys that repeat are resolved alike by the strict reader, by the lenient one and by a field tree
to which the fields of the entries are added one by one. -/
theorem repeated_keys_resolved {fields : List Field} (keys : ∀ e ∈ es, ('\n' : CodePoint) ∉ e.1)
    (plain : ∀ e ∈ es, e.2.isPlain = true) (declared : FieldTree.AreDeclared es fields) :
    Literal.parse (object es).render = .ok (.object (Entries.lasts es)) ∧
      Declaration.read (object es).render = Logged.pure ((Entries.lasts es).map fun e =>
        (e.1, Raw.quoteType (Raw.ofLiteral e.2))) ∧
      FieldTree.names (fields.foldl FieldTree.add []) = Entries.keys (Entries.lasts es) ∧
      ∀ name, FieldTree.get? (fields.foldl FieldTree.add []) name =
        (fields.filter fun f => f.name = name).getLast? := by
  have parsed := parse_render_lasts keys plain
  refine ⟨parsed, ?_, ?_, FieldTree.get?_foldl_add fields⟩
  · rw [(Declaration.read_of_parse parsed).1, Raw.quoteFields_eq_map, Raw.ofEntries_eq_map,
      List.map_map]
    rfl
  · rw [← Entries.lastWins_eq_lasts]
    exact FieldTree.names_foldl_add declared rfl

/-- Entries with a key that repeats, once with another between. -/
def repeatedSample : List (Text × Literal) :=
  [("b c", .text "Number"), ("a", .list []), ("b c", .object []), ("d", .text "User"),
    ("b c", .text "Date")]

theorem repeated_keys_resolved_sample :
    Literal.parse (object repeatedSample).render =
        .ok (.object [("a", .list []), ("d", .text "User"), ("b c", .text "Date")]) ∧
      ∃ fields, FieldTree.AreDeclared repeatedSample fields ∧
        FieldTree.names (fields.foldl FieldTree.add []) = ["a", "d", "b c"] ∧
        FieldTree.get? (fields.foldl FieldTree.add []) "b c" =
          some (Field.ofText "b c" "Date") := by
  have keys : ∀ e ∈ repeatedSample, ('\n' : CodePoint) ∉ e.1 := by decide
  have plain : ∀ e ∈ repeatedSample, e.2.isPlain = true := by decide
  have declared : FieldTree.AreDeclared repeatedSample
      [.ofText "b c" "Number", { name := "a", kind := .array, child := .element Field.anyElement },
        { name := "b c", kind := .primitive, base := some .mixed }, .ofText "d" "User",
        .ofText "b c" "Date"] :=
    .cons rfl (.cons rfl (.cons rfl (.cons rfl (.cons rfl .nil))))
  obtain ⟨parsed, -, names, found⟩ := repeated_keys_resolved keys plain declared
  exact ⟨parsed, _, declared, names, found "b c"⟩

end Literal

end SchemaTypings
