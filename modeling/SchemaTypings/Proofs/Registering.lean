import SchemaTypings.Proofs.Independence
import SchemaTypings.Proofs.PascalCase

/-!
The names of a run as a function of its files. They are the base names of the files, each where it
is first, with what the generator calls them; a file whose base name is there already only leaves a
warning. A base name is in Pascal case, and the generator puts it in Pascal case once more.
-/

namespace SchemaTypings

/-! ### Keeping the first of equal elements -/

theorem eraseDups_snoc_of_mem {α : Type} [BEq α] [LawfulBEq α] {l : List α} {a : α} (h : a ∈ l) :
    (l ++ [a]).eraseDups = l.eraseDups := by
  rw [List.eraseDups_append]
  simp [List.removeAll, h]

theorem eraseDups_snoc_of_not_mem {α : Type} [BEq α] [LawfulBEq α] {l : List α} {a : α}
    (h : a ∉ l) : (l ++ [a]).eraseDups = l.eraseDups ++ [a] := by
  rw [List.eraseDups_append]
  simp [List.removeAll, h, List.eraseDups_cons]

namespace Batch

variable {g : Generator} {called : Text → Text}

/-! ### The names -/

/-- The distinct texts among `bases` in order of their first appearance, with what they are
called. -/
def namedBy (called : Text → Text) (bases : List Text) : Entries Text :=
  bases.eraseDups.map fun base => (base, called base)

theorem keys_namedBy (bases : List Text) : (namedBy called bases).keys = bases.eraseDups := by
  rw [namedBy, Entries.keys, List.map_map]
  exact List.map_id _

theorem get?_namedBy (bases : List Text) (name : Text) :
    (namedBy called bases).get? name = if name ∈ bases then some (called name) else none := by
  have listed (l : List Text) : Entries.get? (l.map fun base => (base, called base)) name =
      if name ∈ l then some (called name) else none := by
    induction l with
    | nil => rfl
    | cons base l ih =>
      by_cases eq : base = name
      · subst eq
        simp [Entries.get?]
      · simpa [Entries.get?, eq, Ne.symm eq] using ih
  rw [namedBy, listed]
  simp only [List.mem_eraseDups]

theorem has_namedBy (bases : List Text) (name : Text) :
    (namedBy called bases).has name = true ↔ name ∈ bases := by
  rw [Entries.has, get?_namedBy]
  by_cases mem : name ∈ bases <;> simp [mem]

theorem namedBy_snoc_of_mem {bases : List Text} {base : Text} (h : base ∈ bases) :
    namedBy called (bases ++ [base]) = namedBy called bases := by
  rw [namedBy, namedBy, eraseDups_snoc_of_mem h]

theorem namedBy_snoc_of_not_mem {bases : List Text} {base : Text} (h : base ∉ bases) :
    namedBy called (bases ++ [base]) = namedBy called bases ++ [(base, called base)] := by
  rw [namedBy, namedBy, eraseDups_snoc_of_not_mem h, List.map_append]
  rfl

/-- A listed text resolves to what it is called; any other one to what the last text is called, in
order of first appearance, that equals it but for letter case. -/
theorem resolve?_namedBy (bases : List Text) (name : Text) :
    InterfaceNames.resolve? ⟨namedBy called bases⟩ name =
      (if name ∈ bases then some name
        else (bases.eraseDups.filter fun base => base.lower = name.lower).getLast?).map called := by
  rw [InterfaceNames.resolve?, get?_namedBy]
  by_cases listed : name ∈ bases
  · rw [if_pos listed, if_pos listed]
    rfl
  · rw [if_neg listed, if_neg listed]
    dsimp only
    rw [InterfaceNames.resolveFolded?, namedBy, ← List.getLast?_filter, List.filter_map,
      List.getLast?_map, Option.map_map]
    rfl

/-! ### Collecting them -/

/-- The warning about a file whose base name another file has already. -/
def takenNote (path : Text) : Record :=
  ⟨.warning, .batch,
    "Schema name '" ++ (PathName.ofText path).baseName ++ "' of " ++ path ++
      " is already taken, ignoring"⟩

/-- Whether the path at a place of `paths` has the base name of a path in front of it. -/
def isRepeat (paths : List Text) (place : Text × Nat) : Bool :=
  (baseNames (paths.take place.2)).contains (PathName.ofText place.1).baseName

/-- The paths whose base name appeared before, in order. -/
def repeats (paths : List Text) : List Text := (paths.zipIdx.filter (isRepeat paths)).map (·.1)

theorem baseNames_snoc (paths : List Text) (path : Text) :
    baseNames (paths ++ [path]) = baseNames paths ++ [(PathName.ofText path).baseName] := by
  simp [baseNames]

/-- One more file adds its base name, unless that is there. -/
theorem namedBy_baseNames_snoc (called : Text → Text) (before : List Text) (path : Text) :
    namedBy called (baseNames (before ++ [path])) =
      if (PathName.ofText path).baseName ∈ baseNames before then namedBy called (baseNames before)
      else namedBy called (baseNames before) ++
        [((PathName.ofText path).baseName, called (PathName.ofText path).baseName)] := by
  rw [baseNames_snoc]
  split
  · next taken => exact namedBy_snoc_of_mem taken
  · next new => exact namedBy_snoc_of_not_mem new

/-- The names are those of the files so far, whatever files come. -/
theorem outcome_collectNames (named : ∀ base, (g.interfaceName base).outcome = .ok (called base))
    (before paths : List Text) :
    (collectNames g (namedBy called (baseNames before)) paths).outcome =
      .ok (namedBy called (baseNames (before ++ paths))) := by
  induction paths generalizing before with
  | nil => rw [List.append_nil, collectNames]; rfl
  | cons path rest ih =>
    have step := namedBy_baseNames_snoc called before path
    have others := ih (before ++ [path])
    rw [List.append_assoc, List.singleton_append] at others
    rw [collectNames]
    by_cases taken : (PathName.ofText path).baseName ∈ baseNames before
    · rw [if_pos taken] at step
      rw [if_pos ((has_namedBy _ _).2 taken), Logged.outcome_bind, ← others, step]
      rfl
    · rw [if_neg taken] at step
      rw [if_neg (fun has => taken ((has_namedBy _ _).1 has)), Logged.outcome_bind, named,
        ok_bind, ← others, step]

/-- Where naming leaves no records, the records are the warnings about the files whose base name
appeared before. -/
theorem log_collectNames (silent : ∀ base, g.interfaceName base = Logged.pure (called base))
    (before paths : List Text) :
    (collectNames g (namedBy called (baseNames before)) paths).log =
      (((paths.zipIdx before.length).filter (isRepeat (before ++ paths))).map (·.1)).map
        takenNote := by
  induction paths generalizing before with
  | nil => rfl
  | cons path rest ih =>
    have step := namedBy_baseNames_snoc called before path
    have others := ih (before ++ [path])
    rw [List.append_assoc, List.singleton_append, List.length_append, List.length_singleton]
      at others
    have repeated : isRepeat (before ++ path :: rest) (path, before.length) = true ↔
        (PathName.ofText path).baseName ∈ baseNames before := by
      rw [isRepeat, List.take_left, List.contains_iff_mem]
    rw [collectNames, List.zipIdx_cons]
    by_cases taken : (PathName.ofText path).baseName ∈ baseNames before
    · rw [if_pos taken] at step
      rw [if_pos ((has_namedBy _ _).2 taken), List.filter_cons_of_pos (repeated.2 taken),
        List.map_cons, List.map_cons, ← others, step]
      rfl
    · rw [if_neg taken] at step
      rw [if_neg (fun has => taken ((has_namedBy _ _).1 has)),
        List.filter_cons_of_neg (fun again => taken (repeated.1 again)), ← others, step, silent]
      simp

/-- The record of how many names there are. -/
def countNote (names : InterfaceNames) : Record :=
  ⟨.debug, .batch, "Registered " ++ Text.ofNat names.size ++ " schema name(s)"⟩

theorem outcome_namesOf (named : ∀ base, (g.interfaceName base).outcome = .ok (called base))
    (paths : List Text) :
    (namesOf g paths).outcome = .ok ⟨namedBy called (baseNames paths)⟩ := by
  have collected := outcome_collectNames named [] paths
  rw [namesOf, Logged.outcome_bind]
  rw [show namedBy called (baseNames []) = [] from rfl, List.nil_append] at collected
  rw [collected]
  rfl

theorem log_namesOf (silent : ∀ base, g.interfaceName base = Logged.pure (called base))
    (paths : List Text) :
    (namesOf g paths).log =
      (repeats paths).map takenNote ++ [countNote ⟨namedBy called (baseNames paths)⟩] := by
  have named (base : Text) : (g.interfaceName base).outcome = .ok (called base) := by
    rw [silent, Logged.outcome_pure]
  have collected := outcome_collectNames named [] paths
  have records := log_collectNames silent [] paths
  rw [show namedBy called (baseNames []) = [] from rfl, List.nil_append] at collected records
  show (Logged.bind _ _).log = _
  rw [Logged.bind, collected]
  dsimp only
  rw [records]
  rfl

/-- The names of a run are the base names of its files in order of first appearance, and each file
whose base name appeared before leaves one warning. A base name resolves to what the generator calls
it; any other name to what is called the last of the names that equals it but for letter case. -/
theorem exists_namesOf (paths : List Text) :
    ∃ names, (namesOf .standard paths).outcome = .ok names ∧
      names.entries.keys = (baseNames paths).eraseDups ∧
      (namesOf .standard paths).log = (repeats paths).map takenNote ++ [countNote names] ∧
      ∃ called : Text → Text,
        (∀ base, Generator.standard.interfaceName base = Logged.pure (called base)) ∧
        ∀ name, names.resolve? name =
          (if name ∈ baseNames paths then some name
            else (names.entries.keys.filter fun base => base.lower = name.lower).getLast?).map
              called := by
  have silent := Generator.interfaceName_standard
  refine ⟨_, outcome_namesOf Generator.outcome_interfaceName paths, keys_namedBy _,
    log_namesOf silent paths, _, silent, ?_⟩
  intro name
  rw [keys_namedBy]
  exact resolve?_namedBy _ name

example : repeats ["user.js", "a/user.js", "User.model.js", "team.js"] =
    ["a/user.js", "User.model.js"] := by decide +kernel

/-! ### Base names in Pascal case once more -/

end Batch

theorem Generator.outcome_interfaceName_of_prefix {g : Generator} {initial : Text}
    (prefixed : g.settings.interfacePrefix = .text initial) (base : Text) :
    (g.interfaceName base).outcome = .ok (initial ++ base.toPascalCase) := by
  rw [interfaceName, prefixed]
  rfl

namespace Batch

open Text (merged IsCalm)

/-- A name in Pascal case is kept by Pascal case exactly if no two of its capitals are side by side.
The interface of a file is the prefix in front of the base name, in which each capital behind a
capital is small; so it is the prefix in front of the base name itself in that case only. A run has
no interface under two base names exactly if its base names remain distinct with those capitals
small. -/
theorem interfaceName_baseName {g : Generator} {initial : Text}
    (prefixed : g.settings.interfacePrefix = .text initial) :
    (∀ name : Text, name.toPascalCase.toPascalCase = name.toPascalCase ↔
        name.toPascalCase.IsChain IsCalm) ∧
      (∀ path : Text,
        (g.interfaceName (PathName.ofText path).baseName).outcome =
            .ok (initial ++ merged false (PathName.ofText path).baseName) ∧
          ((g.interfaceName (PathName.ofText path).baseName).outcome =
              .ok (initial ++ (PathName.ofText path).baseName) ↔
            (PathName.ofText path).baseName.IsChain IsCalm)) ∧
      ∀ paths : List Text, ∃ names, (namesOf g paths).outcome = .ok names ∧
        ((∀ e ∈ names.entries, ∀ f ∈ names.entries, e.2 = f.2 → e.1 = f.1) ↔
          ∀ base ∈ baseNames paths, ∀ base' ∈ baseNames paths,
            merged false base = merged false base' → base = base') := by
  have named := Generator.outcome_interfaceName_of_prefix prefixed
  have pascal (path : Text) : (PathName.ofText path).baseName.IsPascal :=
    Text.isPascal_toPascalCase _
  refine ⟨fun name => (Text.isPascal_toPascalCase name).toPascalCase_eq_self_iff, ?_, ?_⟩
  · intro path
    rw [named, (pascal path).toPascalCase_eq.symm]
    refine ⟨rfl, ?_⟩
    rw [Except.ok.injEq, List.append_cancel_left_eq]
    exact (pascal path).toPascalCase_eq_self_iff
  · intro paths
    refine ⟨_, outcome_namesOf named paths, ?_⟩
    have once {base : Text} (h : base ∈ baseNames paths) :
        base.toPascalCase = merged false base := by
      obtain ⟨path, -, rfl⟩ := List.mem_map.1 h
      exact (pascal path).toPascalCase_eq
    simp only [namedBy, List.forall_mem_map, List.mem_eraseDups, List.append_cancel_left_eq]
    constructor
    · intro distinct base hb base' hb' same
      exact distinct base hb base' hb' (by rw [once hb, once hb', same])
    · intro distinct base hb base' hb' same
      exact distinct base hb base' hb' (by rw [← once hb, ← once hb', same])

/-- Two files whose base names differ in capitals side by side. -/
def adjoiningPaths : List Text := ["a-b.js", "ab.js"]

theorem interfaceName_baseName_standard :
    Generator.standard.settings.interfacePrefix = .text "I" ∧
      baseNames adjoiningPaths = [Text.ofString "AB", Text.ofString "Ab"] ∧
      (Generator.standard.interfaceName (PathName.ofText "a-b.js").baseName).outcome =
        .ok ("I" ++ merged false (PathName.ofText "a-b.js").baseName) ∧
      ∃ names, (namesOf .standard adjoiningPaths).outcome = .ok names ∧
        ¬∀ e ∈ names.entries, ∀ f ∈ names.entries, e.2 = f.2 → e.1 = f.1 := by
  have bases : baseNames adjoiningPaths = [Text.ofString "AB", Text.ofString "Ab"] := by
    decide +kernel
  obtain ⟨-, files, runs⟩ := interfaceName_baseName Generator.interfacePrefix_standard
  obtain ⟨names, ran, distinct⟩ := runs adjoiningPaths
  refine ⟨rfl, bases, (files "a-b.js").1, names, ran, ?_⟩
  rw [distinct, bases]
  decide +kernel

/-- A base name in which two capitals stand side by side is not what the interface is called, and
another base name is called the same. -/
theorem interfaceName_baseName_adjoining :
    (PathName.ofText "a-b.js").baseName = Text.ofString "AB" ∧
      (Generator.standard.interfaceName (Text.ofString "AB")).outcome = .ok (Text.ofString "IAb") ∧
      ¬(∀ path : Text, (Generator.standard.interfaceName (PathName.ofText path).baseName).outcome =
        .ok ("I" ++ (PathName.ofText path).baseName)) ∧
      ∃ names, (namesOf .standard adjoiningPaths).outcome = .ok names ∧
        names.entries = [(Text.ofString "AB", Text.ofString "IAb"),
          (Text.ofString "Ab", Text.ofString "IAb")] := by
  have base : (PathName.ofText "a-b.js").baseName = Text.ofString "AB" := by decide +kernel
  have called : (Generator.standard.interfaceName (Text.ofString "AB")).outcome =
      .ok (Text.ofString "IAb") := by
    rw [Generator.outcome_interfaceName]
    decide +kernel
  refine ⟨base, called, fun all => ?_, ?_⟩
  · have whole := all "a-b.js"
    rw [base, called] at whole
    exact absurd whole (by decide +kernel)
  · refine ⟨_, outcome_namesOf Generator.outcome_interfaceName adjoiningPaths, ?_⟩
    decide +kernel

end Batch

end SchemaTypings
