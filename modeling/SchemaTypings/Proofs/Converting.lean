import SchemaTypings.Batch
import SchemaTypings.Proofs.Declaring
import SchemaTypings.Proofs.Generating

/-!
Conversions by the TypeScript generator in its default configuration. Once a declaration has its
canonical text, no later stage fails but on a text that is malformed.
-/

namespace SchemaTypings

/-! ### The field tree of canonical text -/

namespace FieldTree

theorem outcome_materialize_object {text : Text} {es : Entries Literal} (path : Option Text)
    (h : Literal.parse text = .ok (.object es)) :
    (materialize text path).outcome = .ok (declared es) := by
  simp [materialize, h]

/-- A field tree that literal text denotes is that of the object that the text denotes. -/
theorem materialize_eq_ok {text : Text} {path : Option Text} {tree : FieldTree} :
    (materialize text path).outcome = .ok tree ↔
      ∃ es, Literal.parse text = .ok (.object es) ∧ tree = declared es := by
  constructor
  · intro h
    cases hv : Literal.parse text with
    | error e => simp [materialize, hv] at h
    | ok v =>
      cases v with
      | object es =>
        rw [outcome_materialize_object path hv] at h
        cases h
        exact ⟨es, rfl, rfl⟩
      | _ => simp [materialize, hv] at h
  · rintro ⟨es, h, rfl⟩
    exact outcome_materialize_object path h

/-- Canonical text is refused for no other reason than that it is malformed. -/
theorem malformed_of_materialize_render {v : Literal} {path : Option Text} {e : ReadError}
    (h : (materialize v.render path).outcome = .error e) : ∃ m, e = .malformed m := by
  cases hv : Literal.parse v.render with
  | error e' =>
    obtain ⟨m, rfl⟩ := Literal.malformed_of_parse_render hv
    simp only [materialize, Logged.outcome_bind, Logged.outcome_mapError, Logged.outcome_lift, hv,
      mapError_error, error_bind] at h
    cases h
    cases path <;> exact ⟨_, rfl⟩
  | ok w =>
    cases w with
    | object es =>
      rw [outcome_materialize_object path hv] at h
      cases h
    | _ =>
      simp only [materialize, Logged.outcome_bind, Logged.outcome_mapError, Logged.outcome_lift, hv,
        mapError_ok, ok_bind, Logged.outcome_fail] at h
      cases h
      exact ⟨_, rfl⟩

theorem isWhole_declared (es : Entries Literal) : treeIsWhole (declared es) = true :=
  Field.isWhole_declaredTree es [] rfl

end FieldTree

namespace Batch

/-! ### The last stage -/

/-- The name of the interface for a base name. -/
def chosenName (g : Generator) (known : InterfaceNames) (base : Text) : Logged Error Text :=
  match known.resolve? base with
  | some name => if name.isEmpty then g.interfaceName base else Logged.pure name
  | none => g.interfaceName base

/-- The last stage once the interface has its name. -/
def finishAs (g : Generator) (known : InterfaceNames) (path : Text) (d : Declaration)
    (normalized : Text) (tree : FieldTree) (name : Text) : Logged Error Conversion :=
  if tree.isEmpty then do
    note .info ("Schema in " ++ path ++ " has no convertible fields, skipping")
    pure { path, status := .empty, interfaceName := some name, sourceText := some d.text,
           normalized := some normalized, tree := some tree,
           warnings := Generator.treeWarnings name tree }
  else do
    let model ← g.model name tree known
    let warnings := Generator.treeWarnings name tree ++ g.modelWarnings model
    Logged.records (warnings.map fun w => ⟨.warning, .batch, path ++ ": " ++ w⟩)
    let code ← g.single model
    pure { path, status := .converted, interfaceName := some name, code,
           sourceText := some d.text, normalized := some normalized, tree := some tree,
           model := some model, warnings }

theorem finish_eq (g : Generator) (known : InterfaceNames) (path : Text) (d : Declaration)
    (normalized : Text) (tree : FieldTree) :
    finish g known path d normalized tree =
      chosenName g known (PathName.ofText path).baseName >>=
        finishAs g known path d normalized tree := by
  rw [finish, chosenName]
  cases known.resolve? (PathName.ofText path).baseName with
  | none => rfl
  | some name =>
    by_cases empty : name.isEmpty = true
    · simp only [if_pos empty]
      rfl
    · simp only [if_neg empty]
      rfl

theorem exists_chosenName (known : InterfaceNames) (base : Text) :
    ∃ name, (chosenName .standard known base).outcome = .ok name := by
  rw [chosenName]
  split
  · split
    · exact ⟨_, Generator.outcome_interfaceName base⟩
    · exact ⟨_, rfl⟩
  · exact ⟨_, Generator.outcome_interfaceName base⟩

/-- A malformed declaration is reported. -/
theorem exists_refused (path : Text) (d : Declaration) (normalized : Option Text) (m : Malformed) :
    ∃ c, (refused path d normalized (.malformed m)).outcome = .ok c ∧ c.path = path ∧
      c.status = .malformed ∧ c.model = none :=
  ⟨_, rfl, rfl, rfl, rfl⟩

/-- A conversion for the file at `path`, with an interface only if its code can be written. -/
structure IsResult (path : Text) (c : Conversion) : Prop where
  path : c.path = path
  single : ∀ i ∈ c.model, ∃ code, Generator.standard.single i = .ok code

/-- A declaration with a whole tree is converted, or empty if the tree is. -/
theorem exists_finish {tree : FieldTree} (h : treeIsWhole tree = true) (known : InterfaceNames)
    (path : Text) (d : Declaration) (normalized : Text) :
    ∃ c, (finish .standard known path d normalized tree).outcome = .ok c ∧ IsResult path c ∧
      c.sourceText = some d.text ∧ c.tree = some tree ∧
      c.status = if tree.isEmpty then .empty else .converted := by
  obtain ⟨name, named⟩ := exists_chosenName known (PathName.ofText path).baseName
  obtain ⟨i, code, model, single⟩ := Generator.exists_model h .interface name known
  rw [Generator.styled_interface] at model single
  simp only [finish_eq, Logged.outcome_bind, named, ok_bind]
  by_cases empty : tree.isEmpty = true
  · rw [finishAs, if_pos empty]
    exact ⟨_, rfl, ⟨rfl, by simp⟩, rfl, rfl, (if_pos empty).symm⟩
  · rw [finishAs, if_neg empty]
    simp only [Logged.outcome_bind, Logged.outcome_liftM, model, single, ok_bind,
      Logged.outcome_records, Logged.outcome_monadPure]
    exact ⟨_, rfl, ⟨rfl, by simp [single]⟩, rfl, rfl, (if_neg empty).symm⟩

/-! ### Conversions with an interface -/

/-- A conversion with an interface, from the canonical text of a declaration to the code. -/
structure IsConverted (g : Generator) (known : InterfaceNames) (source path : Text) (c : Conversion)
    (tree : FieldTree) (name : Text) (i : Interface) : Prop where
  canonical : ∃ d normalized, (Declaration.extract source).outcome = .ok (some d) ∧
    (Declaration.normalize d.text).outcome = .ok normalized ∧
    (FieldTree.materialize normalized (some path)).outcome = .ok tree
  chosen : (chosenName g known (PathName.ofText path).baseName).outcome = .ok name
  made : g.model name tree known = .ok i
  single : g.single i = .ok c.code
  tree : c.tree = some tree
  interface : c.interfaceName = some name
  model : c.model = some i
  status : c.status = .converted

section

variable {g : Generator} {known : InterfaceNames} {source path : Text} {c : Conversion}

theorem refused_cases {d : Declaration} {normalized : Option Text} {e : ReadError}
    (h : (refused path d normalized e).outcome = .ok c) :
    c.path = path ∧ c.status = .malformed ∧ c.model = none := by
  cases e with
  | malformed m =>
    obtain ⟨c', ok, result⟩ := exists_refused path d normalized m
    cases h.symm.trans ok
    exact result
  | _ => cases h

/-- A declaration with a field tree has an interface, unless the tree is empty. -/
theorem finish_cases {d : Declaration} {normalized : Text} {tree : FieldTree}
    (found : (Declaration.extract source).outcome = .ok (some d))
    (canonical : (Declaration.normalize d.text).outcome = .ok normalized)
    (materialized : (FieldTree.materialize normalized (some path)).outcome = .ok tree)
    (h : (finish g known path d normalized tree).outcome = .ok c) :
    c.path = path ∧ (c.status = .empty ∧ c.model = none ∨
      ∃ name i, IsConverted g known source path c tree name i) := by
  rw [finish_eq, Logged.outcome_bind] at h
  obtain ⟨name, chosen, h⟩ := bind_eq_ok.1 h
  rw [finishAs] at h
  split at h
  · cases h
    exact ⟨rfl, .inl ⟨rfl, rfl⟩⟩
  · rw [Logged.outcome_bind] at h
    obtain ⟨i, made, h⟩ := bind_eq_ok.1 h
    simp only [Logged.outcome_bind, Logged.outcome_records, ok_bind] at h
    obtain ⟨code, single, h⟩ := bind_eq_ok.1 h
    cases h
    exact ⟨rfl, .inr ⟨name, i, ⟨d, normalized, found, canonical, materialized⟩, chosen, made,
      single, rfl, rfl, rfl, rfl⟩⟩

/-- A conversion has an interface, or it is not converted. -/
theorem convert_cases (h : (convert g known source path).outcome = .ok c) :
    c.path = path ∧ (c.status ≠ .converted ∧ c.model = none ∨
      ∃ tree name i, IsConverted g known source path c tree name i) := by
  rw [convert, Logged.outcome_bind] at h
  obtain ⟨found, extracted, h⟩ := bind_eq_ok.1 h
  cases found with
  | none =>
    cases h
    exact ⟨rfl, .inl ⟨by simp, rfl⟩⟩
  | some d =>
    have without {normalized : Option Text} {e : ReadError}
        (h : (refused path d normalized e).outcome = .ok c) :
        c.path = path ∧ (c.status ≠ .converted ∧ c.model = none ∨
          ∃ tree name i, IsConverted g known source path c tree name i) := by
      obtain ⟨place, status, model⟩ := refused_cases h
      exact ⟨place, .inl ⟨by simp [status], model⟩⟩
    dsimp only at h
    rw [Logged.outcome_bind, Logged.outcome_attempt, ok_bind] at h
    split at h
    · exact without h
    · exact without h
    · next normalized tree read =>
      rw [readTree, Logged.outcome_bind] at read
      obtain ⟨text, canonical, read⟩ := bind_eq_ok.1 read
      rw [Logged.outcome_bind, Logged.outcome_attempt, ok_bind] at read
      obtain ⟨rfl, materialized⟩ := Prod.mk.inj (Except.ok.inj read)
      have found := mapError_eq_ok.1 extracted
      obtain ⟨place, ⟨status, model⟩ | result⟩ := finish_cases found canonical materialized h
      · exact ⟨place, .inl ⟨by simp [status], model⟩⟩
      · exact ⟨place, .inr ⟨tree, result⟩⟩

end

end Batch

end SchemaTypings
