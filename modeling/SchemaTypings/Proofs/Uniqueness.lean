import SchemaTypings.Proofs.Independence

/-!
How often an interface is declared. What a file is converted to is called by the file's base name,
put in Pascal case behind the prefix of the settings. The names of a batch are kept once for each
base name, but every file that is converted declares its interface, so two files of one base name
declare the same one.
-/

namespace SchemaTypings

namespace Batch

variable {g : Generator}

/-- The name of the interface of a base name. -/
def calledInterface (g : Generator) (base : Text) : Text :=
  (g.settings.interfacePrefix.text?.getD []) ++ base.toPascalCase

theorem eq_calledInterface {base name : Text} (h : (g.interfaceName base).outcome = .ok name) :
    name = calledInterface g base := by
  rw [Generator.interfaceName] at h
  split at h
  · next s text =>
    simp only [Logged.outcome_bind, Logged.outcome_records] at h
    rw [calledInterface, text]
    exact (Except.ok.inj h).symm
  · cases h

/-- What is converted in a batch is called by its base name, and so is the interface that it hands
to the combined file. -/
theorem called_of_run {tree : FileTree} {paths : List PathName} {b : BatchResult}
    (policy : g.settings.errorPolicy? = some .skip) (ran : (run g tree paths).outcome = .ok b)
    {c : Conversion} (hc : c ∈ b.converted) :
    c.interfaceName = some (calledInterface g (PathName.ofText c.path).baseName) ∧
      c.model.map (·.name) = c.interfaceName := by
  obtain ⟨mem, converted⟩ := List.mem_filter.1 hc
  have status : c.status = .converted := by simpa [Conversion.isConverted] using converted
  obtain ⟨names, aborted, -, collected, conversions⟩ := exists_of_run policy ran
  obtain ⟨path, inBatch, traced⟩ := (traced_convertFiles conversions).1 c mem
  obtain ⟨name, i, chosen, called, model, declares⟩ := traced.converted status
  -- The base name of the file is registered for what the generator calls it.
  have none : Collected g [] [] := by constructor <;> simp
  have registered := collected_collectNames none collected
  have uncalled : AreCalled g [] [] := ⟨by simp, by simp⟩
  have keys := (areCalled_collectNames uncalled collected).keys
  have there : (PathName.ofText path.toText).baseName ∈ names.keys := by
    apply (keys _).2
    exact List.mem_map_of_mem (List.mem_map_of_mem inBatch)
  obtain ⟨⟨base, name'⟩, entry, eq⟩ := List.mem_map.1 there
  have named := registered.named entry
  have same := outcome_chosenName (registered.found entry) named
  rw [← eq] at chosen
  have : name = name' := Except.ok.inj (chosen.symm.trans same)
  subst this
  rw [traced.place, ← eq, called, model, eq_calledInterface named]
  exact ⟨rfl, congrArg some (declares.trans (eq_calledInterface named))⟩

/-- Each interface of a batch is declared once if and only if the base names of the files that are
converted remain distinct when they are put in Pascal case once more. -/
theorem nodup_interfaceNames_iff {tree : FileTree} {paths : List PathName} {b : BatchResult}
    (policy : g.settings.errorPolicy? = some .skip) (ran : (run g tree paths).outcome = .ok b) :
    b.converted.map (fun c => c.model.map (·.name)) = b.converted.map (·.interfaceName) ∧
      ((b.converted.map (·.interfaceName)).Nodup ↔
        (b.converted.map fun c => (PathName.ofText c.path).baseName.toPascalCase).Nodup) := by
  constructor
  · apply List.map_congr_left
    intro c hc
    exact (called_of_run policy ran hc).2
  · let called (cased : Text) : Option Text :=
      some ((g.settings.interfacePrefix.text?.getD []) ++ cased)
    have injective : Function.Injective called := by
      intro s t eq
      exact List.append_cancel_left (Option.some.inj eq)
    have names : b.converted.map (·.interfaceName) =
        (b.converted.map fun c => (PathName.ofText c.path).baseName.toPascalCase).map called := by
      rw [List.map_map]
      apply List.map_congr_left
      intro c hc
      exact (called_of_run policy ran hc).1
    rw [names, List.nodup_map_iff injective]

/-- Two files of one name in different folders. -/
def twinTree : FileTree :=
  let source := (Utf8.encode? "const s = new Schema(\x7b a: String \x7d);").getD []
  (((FileTree.empty.set ["a"] .directory).set ["b"] .directory).set
    ["a", "user.js"] (.file source)).set ["b", "user.js"] (.file source)

/-- The files of that tree. -/
def twinPaths : List PathName := [PathName.ofText "a/user.js", PathName.ofText "b/user.js"]

/-- Both of them are converted to the interface `IUser`. -/
theorem exists_run_twins : ∃ b, (run .standard twinTree twinPaths).outcome = .ok b ∧
    b.converted.map (·.interfaceName) = List.replicate 2 (some (Text.ofString "IUser")) := by
  have ran : ((run .standard twinTree twinPaths).outcome.toOption.any fun b =>
      decide (b.converted.map (·.interfaceName) =
        List.replicate 2 (some (Text.ofString "IUser")))) = true := by decide +kernel
  obtain ⟨b, ok, names⟩ := exists_of_toOption_any ran
  exact ⟨b, ok, of_decide_eq_true names⟩

theorem nodup_interfaceNames_iff_twins :
    Generator.standard.settings.errorPolicy? = some .skip ∧
      ∃ b, (run .standard twinTree twinPaths).outcome = .ok b ∧
        b.converted.map (fun c => c.model.map (·.name)) = b.converted.map (·.interfaceName) ∧
          ((b.converted.map (·.interfaceName)).Nodup ↔
            (b.converted.map fun c => (PathName.ofText c.path).baseName.toPascalCase).Nodup) := by
  obtain ⟨b, ran, -⟩ := exists_run_twins
  exact ⟨rfl, b, ran, nodup_interfaceNames_iff rfl ran⟩

/-- An interface may be declared twice although the files are distinct. -/
theorem not_nodup_twins :
    ¬∀ (tree : FileTree) (paths : List PathName) (b : BatchResult), paths.Nodup →
      (run .standard tree paths).outcome = .ok b →
        (b.converted.map (·.interfaceName)).Nodup := by
  intro all
  obtain ⟨b, ran, names⟩ := exists_run_twins
  have distinct : twinPaths.Nodup := by decide +kernel
  have nodup := all twinTree twinPaths b distinct ran
  rw [names] at nodup
  exact absurd nodup (by decide)

end Batch

end SchemaTypings
