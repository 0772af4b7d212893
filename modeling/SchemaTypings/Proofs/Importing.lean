import SchemaTypings.Proofs.Nodes
import SchemaTypings.Proofs.Refusals

/-!
What a generated file imports. It imports the two special types under the names that settings give
them, so it has all that its interfaces need; but the names are those of the module only as long as
settings leave them, or exchange them.
-/

namespace SchemaTypings

namespace Settings

variable {s : Settings} {names : TypeNames}

/-- The name that settings give a base type in place of its own. -/
def override? (s : Settings) (base : BaseType) : Option Literal :=
  match s.value? "type_overrides" with
  | some (.object fs) => TypeNames.named? fs base
  | _ => none

theorem eq_of_checked {names' : TypeNames} (h : names.checked = .ok names') : names' = names := by
  rw [TypeNames.checked] at h
  split at h <;> cases h
  rfl

/-- A special type has the name that settings give it, else its own. -/
theorem name_of_ofSettings (read : TypeNames.ofSettings s = .ok names) {base : BaseType}
    (imported : TypeNames.isImported base = true) :
    names.name base = (s.override? base).getD (.text base.tag) := by
  have name {names' : TypeNames} {os : List (BaseType × Literal)} (given : names'.overrides = os)
      (objectId : names'.objectId = .text "ObjectId")
      (decimal128 : names'.decimal128 = .text "Decimal128")
      (listed : (os.reverse.find? fun e => e.1 = base).map (·.2) = s.override? base) :
      names'.name base = (s.override? base).getD (.text base.tag) := by
    rw [TypeNames.name, given, listed]
    cases base <;> first | exact congrArg _ objectId | exact congrArg _ decimal128 | cases imported
  rw [TypeNames.ofSettings] at read
  dsimp only at read
  split at read
  · obtain ⟨style, -, read⟩ := bind_eq_ok.1 read
    obtain ⟨es, custom, read⟩ := bind_eq_ok.1 read
    rw [get?_customEntries custom (by decide)] at read
    split at read
    · next none =>
      obtain ⟨os, listed, read⟩ := bind_eq_ok.1 read
      cases listed
      rw [eq_of_checked read]
      exact name rfl rfl rfl (by rw [override?, none]; rfl)
    · next fs object =>
      obtain ⟨os, listed, read⟩ := bind_eq_ok.1 read
      rw [eq_of_checked read]
      refine name rfl rfl rfl ?_
      rw [override?, object]
      exact (TypeNames.named?_of_mapM listed).2 base
    · obtain ⟨os, listed, read⟩ := bind_eq_ok.1 read
      cases listed
  · cases read

/-! ### Settings that name the special types -/

/-- Settings leave the special types their names. -/
def KeepsImports (s : Settings) : Prop :=
  ∀ base, TypeNames.isImported base = true → ∀ name, s.override? base = some name →
    name = .text base.tag

/-- Settings give each special type the name of the other. -/
def ExchangesImports (s : Settings) : Prop :=
  s.override? .objectId = some (.text "Decimal128") ∧
    s.override? .decimal128 = some (.text "ObjectId")

theorem objectId_ne_decimal128 : Literal.text "ObjectId" ≠ .text "Decimal128" := by
  intro same
  cases same

theorem keepsImports_iff :
    s.KeepsImports ↔
      (s.override? .objectId).getD (.text "ObjectId") = .text "ObjectId" ∧
        (s.override? .decimal128).getD (.text "Decimal128") = .text "Decimal128" := by
  have kept (base : BaseType) : (∀ name, s.override? base = some name → name = .text base.tag) ↔
      (s.override? base).getD (.text base.tag) = .text base.tag := by
    cases s.override? base <;> simp
  constructor
  · exact fun all => ⟨(kept .objectId).1 (all _ rfl), (kept .decimal128).1 (all _ rfl)⟩
  · rintro ⟨own, own'⟩ base imported
    cases base <;>
      first | exact (kept .objectId).2 own | exact (kept .decimal128).2 own' | cases imported

theorem exchangesImports_iff :
    s.ExchangesImports ↔
      (s.override? .objectId).getD (.text "ObjectId") = .text "Decimal128" ∧
        (s.override? .decimal128).getD (.text "Decimal128") = .text "ObjectId" := by
  have given {own other : Text} (different : Literal.text own ≠ .text other)
      (base : BaseType) : s.override? base = some (.text other) ↔
        (s.override? base).getD (.text own) = .text other := by
    cases s.override? base <;> simp [different]
  rw [ExchangesImports, given objectId_ne_decimal128, given objectId_ne_decimal128.symm]

end Settings

namespace Generator

variable {s : Settings} {g : Generator}

theorem importNames_of_create (created : create .typeScript s = .ok g) :
    g.importNames = [(s.override? .objectId).getD (.text "ObjectId"),
      (s.override? .decimal128).getD (.text "Decimal128")] := by
  obtain ⟨names, read, created⟩ := bind_eq_ok.1 created
  cases created
  rw [importNames, Settings.name_of_ofSettings read rfl, Settings.name_of_ofSettings read rfl]
  rfl

/-- A file imports all that the interface of a tree does. -/
theorem exists_imports_subset (created : create .typeScript s = .ok g) (es : Entries Literal)
    (context : Text) (known : InterfaceNames) (name : Text) :
    ∃ tree i, (FieldTree.ofEntries es context : Logged Error FieldTree).outcome = .ok tree ∧
      g.model name tree known = .ok i ∧ i.imports ⊆ g.importNames := by
  obtain ⟨tree, i, declared, made, -, tells⟩ :=
    Interface.exists_tells es context g.typeNames known name
  have types := isOf_of_tells tells
  have typeScript : g.language = .typeScript := by
    obtain ⟨names, read, created⟩ := bind_eq_ok.1 created
    cases created
    rfl
  refine ⟨tree, i, declared, ?_, ?_⟩
  · rw [model, typeScript]
    exact made
  · rw [Interface.imports_eq types, unionOfNames_eq, importNames, typeScript]
    intro v hv
    have gathered := (mem_of_mem_keepNew hv).resolve_left List.not_mem_nil
    exact TypeExpr.IsOf.importedIn_subset (Interface.isOf_of_mem_nodes types) gathered

/-- Files import all that interfaces of trees do. The names in their import line are those of the
special types, each once, if and only if settings leave these or exchange them. -/
theorem importNames_complete_and_sound_iff (created : create .typeScript s = .ok g) :
    (∀ (es : Entries Literal) (context : Text) (known : InterfaceNames) (name : Text), ∃ tree i,
      (FieldTree.ofEntries es context : Logged Error FieldTree).outcome = .ok tree ∧
        g.model name tree known = .ok i ∧ ∀ v ∈ i.imports, v ∈ g.importNames) ∧
    ((∀ v ∈ g.importNames, v = .text "ObjectId" ∨ v = .text "Decimal128") ∧ g.importNames.Nodup ↔
      s.KeepsImports ∨ s.ExchangesImports) := by
  refine ⟨exists_imports_subset created, ?_⟩
  rw [importNames_of_create created, Settings.keepsImports_iff, Settings.exchangesImports_iff]
  have different := Settings.objectId_ne_decimal128
  generalize (s.override? .objectId).getD (.text "ObjectId") = first
  generalize (s.override? .decimal128).getD (.text "Decimal128") = second
  simp only [List.forall_mem_cons, List.nodup_cons, List.mem_singleton]
  grind

/-- Settings with names of types. -/
def renamed (types : Entries Literal) : Settings :=
  { custom := .gathered [(.text "type_overrides", .object types)] }

theorem importNames_exchanged :
    ∃ g, create .typeScript
        (renamed [("Decimal128", .text "ObjectId"), ("ObjectId", .text "Decimal128")]) = .ok g ∧
      (∀ v ∈ g.importNames, v = .text "ObjectId" ∨ v = .text "Decimal128") ∧ g.importNames.Nodup ∧
      ∃ tree i, (FieldTree.ofEntries FieldTree.sampleEntries [] : Logged Error FieldTree).outcome =
          .ok tree ∧
        g.model "ISample" tree ⟨[]⟩ = .ok i ∧ ∀ v ∈ i.imports, v ∈ g.importNames := by
  refine ⟨_, rfl, ?_⟩
  obtain ⟨complete, sound⟩ := importNames_complete_and_sound_iff
    (s := renamed [("Decimal128", .text "ObjectId"), ("ObjectId", .text "Decimal128")]) rfl
  obtain ⟨provided, once⟩ := sound.2 (.inr ⟨rfl, rfl⟩)
  exact ⟨provided, once, complete FieldTree.sampleEntries [] ⟨[]⟩ "ISample"⟩

/-- A name for one of the special types that the module does not have is imported all the same. -/
theorem importNames_string :
    Settings.load FileTree.empty "typescript"
        [("type_overrides", .object [("ObjectId", .text "string")])] none =
      .ok (renamed [("ObjectId", .text "string")]) ∧
    ∃ g, create .typeScript (renamed [("ObjectId", .text "string")]) = .ok g ∧
      .text "string" ∈ g.importNames ∧
      ¬∀ v ∈ g.importNames, v = .text "ObjectId" ∨ v = .text "Decimal128" := by
  refine ⟨rfl, _, rfl, List.mem_cons_self, fun all => ?_⟩
  rcases all _ List.mem_cons_self with same | same <;> cases same

end Generator

end SchemaTypings
