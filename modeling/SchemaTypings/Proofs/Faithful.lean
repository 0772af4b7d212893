import SchemaTypings.Proofs.Converting

/-!
Schemas that are written as literal values convert to the fields that the values declare. Quoting
the types keeps a value plain and keeps the fields it declares, so the canonical text of such a
schema can be read again, and denotes them.
-/

namespace SchemaTypings

namespace Literal

mutual

/-- Quoting types keeps plain values plain. -/
theorem isPlain_typed : ∀ v : Literal, v.typed.isPlain = v.isPlain
  | .null | .bool _ | .int _ | .float _ | .text _ => by
    simp [typed, Raw.ofLiteral, Raw.quoteType, isPlain]
  | .list items => by
    rw [typed_list, isPlain, arePlain_typed items, isPlain]
  | .object es => by
    have entries : arePlainEntries (es.map fun e => (e.1, typedIn es e.1 e.2)) =
        arePlainEntries es := by
      unfold typedIn
      split
      · exact arePlainEntries_typedOption es
      · exact arePlainEntries_typed es
    rw [typed_object, isPlain, Entries.keys_map, entries, isPlain]

theorem arePlain_typed : ∀ items : List Literal, arePlain (items.map typed) = arePlain items
  | [] => rfl
  | v :: rest => by
    rw [List.map_cons, arePlain, isPlain_typed v, arePlain_typed rest, arePlain]

theorem arePlainEntries_typed : ∀ es : List (Text × Literal),
    arePlainEntries (es.map fun e => (e.1, e.2.typed)) = arePlainEntries es
  | [] => rfl
  | (k, v) :: rest => by
    rw [List.map_cons, arePlainEntries, isPlain_typed v, arePlainEntries_typed rest,
      arePlainEntries]

theorem arePlainEntries_typedOption : ∀ es : List (Text × Literal),
    arePlainEntries (es.map fun e => (e.1, typedOption e.1 e.2)) = arePlainEntries es
  | [] => rfl
  | (k, v) :: rest => by
    have option : (typedOption k v).isPlain = v.isPlain := by
      rw [typedOption]
      split
      · exact isPlain_typed v
      · rfl
    rw [List.map_cons, arePlainEntries, option, arePlainEntries_typedOption rest,
      arePlainEntries]

end

/-- The entries of a schema with their types quoted are plain if the schema is. -/
theorem isPlain_quoteFields {es : Entries Literal} (plain : isPlain (.object es) = true) :
    isPlain (.object (Raw.quoteFields (Raw.ofEntries es))) = true := by
  rw [isPlain, Bool.and_eq_true] at plain
  rw [quoteFields_ofEntries, isPlain, Entries.keys_map (fun _ => typed), arePlainEntries_typed,
    Bool.and_eq_true]
  exact plain

end Literal

/-! ### The stages -/

namespace Declaration

variable {es : Entries Literal}

/-- The source of a schema that is written as the object with the given entries. -/
def ofEntries (es : Entries Literal) : Text := ofArgument (Literal.object es).render

theorem outcome_normalize_ofEntries (plain : (Literal.object es).isPlain = true) :
    (normalize (ofEntries es)).outcome =
      .ok (Literal.object (Raw.quoteFields (Raw.ofEntries es))).render := by
  obtain ⟨ts, rendered⟩ := LiteralText.renders (.object es)
  have raw := readRaw_ofArgument rendered.writes.lexes (rendered.denotes_self plain)
  simp [normalize, read, ofEntries, raw]

theorem outcome_extract_ofEntries (plain : (Literal.object es).isPlain = true) :
    (extract (ofEntries es)).outcome =
      .ok (some ⟨"s", ofEntries es, 0, (ofEntries es).length⟩) := by
  obtain ⟨ts, rendered⟩ := LiteralText.renders (.object es)
  exact extract_ofArgument rendered.writes.lexes (rendered.denotes_self plain)

end Declaration

namespace Batch

variable {es : Entries Literal}

theorem outcome_readTree_ofEntries (plain : (Literal.object es).isPlain = true) (path : Text) :
    (readTree (Declaration.ofEntries es) path).outcome =
      .ok ((Literal.object (Raw.quoteFields (Raw.ofEntries es))).render,
        .ok (FieldTree.declared es)) := by
  have parsed := Literal.parse_render (Literal.isPlain_quoteFields plain)
  have same : FieldTree.declared (Raw.quoteFields (Raw.ofEntries es)) = FieldTree.declared es := by
    rw [FieldTree.declared, Literal.quoteFields_ofEntries, Field.declaredTree_typed,
      FieldTree.declared]
  simp [readTree, Declaration.outcome_normalize_ofEntries plain,
    FieldTree.outcome_materialize_object (some path) parsed, same]

/-- A schema that is written as a plain object converts to the fields that the object declares,
whatever the path and the names of the other interfaces are; it is empty if there are none. -/
theorem convert_ofEntries (known : InterfaceNames) (path : Text)
    (plain : (Literal.object es).isPlain = true) :
    ∃ tree c, (FieldTree.ofEntries es [] : Logged Error FieldTree).outcome = .ok tree ∧
      (convert .standard known ("const s = new Schema(" ++ (Literal.object es).render ++ ");")
        path).outcome = .ok c ∧
      c.sourceText = some ("const s = new Schema(" ++ (Literal.object es).render ++ ");") ∧
      c.tree = some tree ∧ c.status = if tree.isEmpty then .empty else .converted := by
  have source : ("const s = new Schema(" : Text) ++ (Literal.object es).render ++ ");" =
      Declaration.ofEntries es := List.append_assoc ..
  rw [source]
  obtain ⟨c, finished, -, text, tree, status⟩ := exists_finish (FieldTree.isWhole_declared es)
    known path ⟨"s", Declaration.ofEntries es, 0, (Declaration.ofEntries es).length⟩
    (Literal.object (Raw.quoteFields (Raw.ofEntries es))).render
  refine ⟨FieldTree.declared es, c, FieldTree.outcome_ofEntries .., ?_, text, tree, status⟩
  simp [convert, Declaration.outcome_extract_ofEntries plain, outcome_readTree_ofEntries plain,
    finished]

/-- The entries of a schema with a list, options and a quoted key. -/
def sampleEntries : Entries Literal :=
  [("name", .text "String"), ("e-mails", .list [.text "a \"quoted\" \x7b"]),
    ("size", .object [("type", .text "Number"), ("required", .bool false), ("min", .int (-3))])]

theorem convert_ofEntries_sample :
    (Literal.object sampleEntries).isPlain = true ∧
      ∃ tree c, (FieldTree.ofEntries sampleEntries [] : Logged Error FieldTree).outcome = .ok tree ∧
        (convert .standard ⟨[]⟩
          ("const s = new Schema(" ++ (Literal.object sampleEntries).render ++ ");")
          "models/user.js").outcome = .ok c ∧
        c.sourceText =
          some ("const s = new Schema(" ++ (Literal.object sampleEntries).render ++ ");") ∧
        c.tree = some tree ∧ c.status = if tree.isEmpty then .empty else .converted := by
  have plain : (Literal.object sampleEntries).isPlain = true := by decide
  exact ⟨plain, convert_ofEntries _ _ plain⟩

end Batch

end SchemaTypings
