import SchemaTypings.Catalog
import SchemaTypings.Proofs.Precedence

/-!
Settings that are refused. Overrides of any shape either give settings, and these a generator, or are
refused with an error of the kind that says so, but for a few values that are used before they are
checked: a prefix that is no text, custom settings that are no object, and names of types that are
lists or objects.
-/

namespace SchemaTypings

/-! ### Computations that return or fail in a given way -/

/-- A computation returns, or fails with an error of a given kind. -/
def Answers {α : Type} (x : Except Error α) (kind : Error → Prop) : Prop :=
  (∃ a, x = .ok a) ∨ ∃ e, x = .error e ∧ kind e

namespace Answers

variable {α β : Type} {x : Except Error α} {kind : Error → Prop} {e : Error}

@[simp] theorem ok (a : α) (kind : Error → Prop) : Answers (.ok a : Except Error α) kind :=
  .inl ⟨a, rfl⟩

@[simp] theorem error_iff : Answers (.error e : Except Error α) kind ↔ kind e := by
  simp [Answers]

/-- A sequence does if its first step does, and its second step does after that. -/
theorem bind_iff {f : α → Except Error β} :
    Answers (x >>= f) kind ↔ Answers x kind ∧ ∀ a, x = .ok a → Answers (f a) kind := by
  cases x <;> simp

theorem map_iff {f : α → β} : Answers (x.map f) kind ↔ Answers x kind := by
  cases x <;> simp [Except.map]

theorem mapError_iff {g : Error → Error} :
    Answers (x.mapError g) kind ↔ Answers x fun e => kind (g e) := by
  cases x <;> simp

theorem mapM {f : α → Except Error β} {l : List α} (each : ∀ a ∈ l, Answers (f a) kind) :
    Answers (l.mapM f) kind := by
  induction l with
  | nil => exact ok [] kind
  | cons a l ih =>
    rw [List.mapM_cons, bind_iff]
    refine ⟨each a List.mem_cons_self, fun b _ => bind_iff.2 ⟨?_, fun bs _ => ok _ kind⟩⟩
    exact ih fun a mem => each a (List.mem_cons_of_mem _ mem)

theorem exists_ok_iff : (∃ a, x = .ok a) ↔ Answers x fun _ => False := by simp [Answers]

/-- A list of steps that do not fail in the given way does if and only if each of them does. -/
theorem mapM_iff {f : α → Except Error β} (other : ∀ a e, f a = .error e → ¬kind e) {l : List α} :
    Answers (l.mapM f) kind ↔ ∀ a ∈ l, Answers (f a) kind := by
  refine ⟨fun answers => ?_, mapM⟩
  induction l with
  | nil => simp
  | cons a l ih =>
    rw [List.mapM_cons, bind_iff] at answers
    obtain ⟨first, rest⟩ := answers
    cases step : f a with
    | error e =>
      rw [step, error_iff] at first
      exact absurd first (other a e step)
    | ok b =>
      have later := ih (bind_iff.1 (rest b step)).1
      exact List.forall_mem_cons.2 ⟨step ▸ ok b kind, later⟩

end Answers

/-! ### Values as dictionaries -/

namespace Literal

/-- Whether the value is a key with a value: a list of two items of which the first is neither a
list nor an object, a text of two code points, or an object with two entries. -/
def isPair : Literal → Bool
  | .list [key, _] => TypeNames.canBeName key
  | .text [_, _] => true
  | .object [_, _] => true
  | _ => false

/-- Whether the value is an object or a list of pairs; an empty text counts as such a list. -/
def isDictionary : Literal → Bool
  | .object _ => true
  | .list items => items.all isPair
  | .text s => s.isEmpty
  | _ => false

end Literal

/-- The kind has none of the errors of values that an operation does not take. -/
structure Error.SparesShape (kind : Error → Prop) : Prop where
  notAChoice : ¬kind .notAChoice
  wrongShape : ¬kind .wrongShape
  missingPart : ¬kind .missingPart

namespace Settings

variable {kind : Error → Prop} {tree : FileTree} {overrides e : Entries Literal} {s : Settings}

theorem asPair_iff (spared : Error.SparesShape kind) (v : Literal) :
    Answers (asPair v) kind ↔ v.isPair = true := by
  have choice := spared.notAChoice
  have shape := spared.wrongShape
  cases v with
  | list items =>
    rcases items with _ | ⟨key, _ | ⟨w, _ | ⟨_, _⟩⟩⟩
    · simp [asPair, Literal.isPair, choice]
    · simp [asPair, Literal.isPair, choice]
    · cases key <;> simp [asPair, Literal.isPair, TypeNames.canBeName, shape]
    · simp [asPair, Literal.isPair, choice]
  | text s =>
    rcases s with _ | ⟨k, _ | ⟨l, _ | ⟨_, _⟩⟩⟩ <;> simp [asPair, Literal.isPair, choice]
  | object es =>
    rcases es with _ | ⟨k, _ | ⟨l, _ | ⟨_, _⟩⟩⟩ <;> simp [asPair, Literal.isPair, choice]
  | _ => simp [asPair, Literal.isPair, shape]

theorem not_kind_of_asPair (spared : Error.SparesShape kind) {v : Literal} {err : Error}
    (failed : asPair v = .error err) : ¬kind err := by
  rw [asPair.eq_def] at failed
  split at failed <;> cases failed
  all_goals first | exact spared.notAChoice | exact spared.wrongShape

theorem asDictionary_iff (spared : Error.SparesShape kind) (v : Literal) :
    Answers (asDictionary v) kind ↔ v.isDictionary = true := by
  have choice := spared.notAChoice
  have shape := spared.wrongShape
  cases v with
  | object es => simp [asDictionary, Literal.isDictionary]
  | list items =>
    rw [asDictionary, Answers.map_iff, Answers.mapM_iff fun _ _ => not_kind_of_asPair spared,
      Literal.isDictionary, List.all_eq_true]
    simp only [asPair_iff spared]
  | text s => cases s <;> simp [asDictionary, Literal.isDictionary, choice]
  | _ => simp [asDictionary, Literal.isDictionary, shape]

theorem gatheredFrom_iff (spared : Error.SparesShape kind) (v : Literal) :
    Answers (gatheredFrom v) kind ↔ (v.isTruthy = true → v.isDictionary = true) := by
  rw [gatheredFrom]
  split
  · next truthy => simp [asDictionary_iff spared, truthy]
  · next falsy => simp [falsy]

theorem ofEntries_iff (spared : Error.SparesShape kind) :
    Answers (ofEntries e) kind ↔ (others e ≠ [] →
      ((e.get? "custom").getD .null).isTruthy = true →
        ((e.get? "custom").getD .null).isDictionary = true) := by
  rw [ofEntries_eq]
  split
  · next known => simp [known]
  · next more => simp [Answers.map_iff, gatheredFrom_iff spared, more]

theorem badPrefix_iff (spared : Error.SparesShape kind) (v : Literal) :
    Answers (badPrefix v) kind ↔ (v.isTruthy = true → v.isText = true) := by
  have part := spared.missingPart
  cases v with
  | text s => simp [badPrefix, Literal.isText]
  | _ =>
    simp only [badPrefix]
    split <;> simp_all [Literal.isText]

theorem problems_iff (spared : Error.SparesShape kind) (s : Settings) :
    Answers (s.problems "typescript") kind ↔
      (s.interfacePrefix.isTruthy = true → s.interfacePrefix.isText = true) := by
  rw [problems]
  dsimp only
  rw [if_pos rfl, Answers.bind_iff, badPrefix_iff spared]
  simp

theorem refStyle?_of_problems (none : s.problems "typescript" = .ok []) :
    s.refStyle?.isSome = true := by
  rw [problems] at none
  dsimp only at none
  rw [if_pos rfl] at none
  obtain ⟨bad, -, none⟩ := bind_eq_ok.1 none
  cases known : s.refStyle? with
  | some style => rfl
  | none => simp [known] at none

/-! ### Overrides that are loaded -/

/-- The overrides give settings: where they have entries of other names, the value under `custom` is
an object, or a list of pairs, or counts as false; and the prefix of interface names is a text or
counts as false. -/
structure Loads (overrides : Entries Literal) : Prop where
  custom : (∃ key ∈ overrides.keys, key ∉ names) → ∀ v, overrides.get? "custom" = some v →
    v.isTruthy = true → v.isDictionary = true
  initial : ∀ v, overrides.get? "interface_prefix" = some v → v.isTruthy = true → v.isText = true

theorem get?_renewed (distinct : overrides.keys.Nodup) (name : Text) :
    ((defaults "typescript").update overrides).get? name =
      (overrides.get? name).or ((defaults "typescript").get? name) :=
  Entries.get?_update _ distinct name

theorem others_renewed (distinct : overrides.keys.Nodup) :
    others ((defaults "typescript").update overrides) ≠ [] ↔
      ∃ key ∈ overrides.keys, key ∉ names := by
  have all : ∀ key ∈ (defaults "typescript").keys, key ∈ names := by decide
  have there (key : Text) : key ∈ ((defaults "typescript").update overrides).keys ↔
      key ∈ overrides.keys ∨ key ∈ (defaults "typescript").keys := by
    rw [← not_iff_not, ← Entries.get?_eq_none_iff, get?_renewed distinct, Option.or_eq_none_iff,
      Entries.get?_eq_none_iff, Entries.get?_eq_none_iff, not_or]
  rw [ne_eq, others_eq_nil_iff, not_forall]
  constructor
  · rintro ⟨key, found⟩
    rw [Classical.not_imp, there] at found
    exact ⟨key, found.1.resolve_right fun mem => found.2 (all key mem), found.2⟩
  · rintro ⟨key, mem, other⟩
    exact ⟨key, fun known => other (known ((there key).2 (.inl mem)))⟩

theorem answers_ofEntries_iff (spared : Error.SparesShape kind) (distinct : overrides.keys.Nodup) :
    Answers (ofEntries ((defaults "typescript").update overrides)) kind ↔
      ((∃ key ∈ overrides.keys, key ∉ names) → ∀ v, overrides.get? "custom" = some v →
        v.isTruthy = true → v.isDictionary = true) := by
  have default : (defaults "typescript").get? "custom" = some (.object []) := rfl
  rw [ofEntries_iff spared, others_renewed distinct, get?_renewed distinct, default]
  cases overrides.get? "custom" <;> simp [Literal.isDictionary]

theorem initial_iff (distinct : overrides.keys.Nodup)
    (read : ofEntries ((defaults "typescript").update overrides) = .ok s) :
    (s.interfacePrefix.isTruthy = true → s.interfacePrefix.isText = true) ↔
      ∀ v, overrides.get? "interface_prefix" = some v → v.isTruthy = true → v.isText = true := by
  have default : (defaults "typescript").get? "interface_prefix" = some (.text "I") := rfl
  have given : s.interfacePrefix =
      (((defaults "typescript").update overrides).get? "interface_prefix").getD (.text "I") := by
    rw [eq_of_ofEntries read]
    rfl
  rw [given, get?_renewed distinct, default]
  cases overrides.get? "interface_prefix" <;> simp [Literal.isText]

/-- Loading returns or reports invalid settings for just the overrides that give settings. -/
theorem load_iff (spared : Error.SparesShape kind) (reported : ∀ m, kind (.settings m))
    (distinct : overrides.keys.Nodup) :
    Answers (load tree "typescript" overrides none) kind ↔ Loads overrides := by
  have checked {s : Settings} : Answers (do
        let problems ← s.problems "typescript"
        if problems.isEmpty then pure s else throw (Error.settings (Text.join "; " problems)))
      kind ↔ (s.interfacePrefix.isTruthy = true → s.interfacePrefix.isText = true) := by
    rw [Answers.bind_iff, problems_iff spared, and_iff_left_iff_imp]
    intro _ problems _
    split
    · exact .ok _ kind
    · exact Answers.error_iff.2 (reported _)
  rw [load, Answers.bind_iff]
  constructor
  · rintro ⟨answers, later⟩
    have custom := (answers_ofEntries_iff spared distinct).1 answers
    obtain ⟨s, read⟩ := Answers.exists_ok_iff.2
      ((answers_ofEntries_iff ⟨id, id, id⟩ distinct).2 custom)
    exact ⟨custom, (initial_iff distinct read).1 (checked.1 (later s read))⟩
  · rintro ⟨custom, named⟩
    exact ⟨(answers_ofEntries_iff spared distinct).2 custom,
      fun s read => checked.2 ((initial_iff distinct read).2 named)⟩

theorem problems_of_load {file : Option Text}
    (loaded : load tree "typescript" overrides file = .ok s) : s.problems "typescript" = .ok [] := by
  obtain ⟨t, -, loaded⟩ := bind_eq_ok.1 loaded
  obtain ⟨problems, found, loaded⟩ := bind_eq_ok.1 loaded
  split at loaded
  · next none =>
    cases loaded
    rw [found, List.isEmpty_iff.1 none]
  · cases loaded

end Settings

/-! ### Names of types -/

namespace TypeNames

/-- What an object of names of types has for a base type. -/
def named? (fs : Entries Literal) (base : BaseType) : Option Literal :=
  (fs.reverse.find? fun e => BaseType.ofTag? e.1 = some base).map (·.2)

variable {kind : Error → Prop} {names : TypeNames} {base : BaseType}

theorem checked_iff (spared : Error.SparesShape kind) (names : TypeNames) :
    Answers names.checked kind ↔
      ∀ base, isImported base = true → canBeName (names.name base) = true := by
  have both : (∀ base, isImported base = true → canBeName (names.name base) = true) ↔
      (canBeName (names.name .objectId) && canBeName (names.name .decimal128)) = true := by
    rw [Bool.and_eq_true]
    refine ⟨fun all => ⟨all _ rfl, all _ rfl⟩, fun h base imported => ?_⟩
    cases base <;> first | exact h.1 | exact h.2 | cases imported
  rw [both, checked]
  split
  · next fine => simp [fine]
  · next bad => simp [bad, spared.wrongShape]

theorem exists_mapM_of_tags {refused : Text × Literal → Error} {fs : Entries Literal}
    (known : ∀ e ∈ fs, (BaseType.ofTag? e.1).isSome = true) :
    ∃ os, (fs.mapM fun e => match BaseType.ofTag? e.1 with
      | some base => pure (base, e.2)
      | none => throw (refused e) : Except Error (List (BaseType × Literal))) = .ok os := by
  refine Answers.exists_ok_iff.2 (Answers.mapM fun e mem => ?_)
  obtain ⟨base, tagged⟩ := Option.isSome_iff_exists.1 (known e mem)
  rw [tagged]
  exact Answers.ok _ _

/-- Names of types by their tags are those of the base types. -/
theorem named?_of_mapM {refused : Text × Literal → Error} {fs : Entries Literal}
    {os : List (BaseType × Literal)}
    (read : (fs.mapM fun e => match BaseType.ofTag? e.1 with
      | some base => pure (base, e.2)
      | none => throw (refused e) : Except Error (List (BaseType × Literal))) = .ok os) :
    (∀ e ∈ fs, (BaseType.ofTag? e.1).isSome = true) ∧
      ∀ base, (os.reverse.find? fun e => e.1 = base).map (·.2) = named? fs base := by
  induction fs generalizing os with
  | nil =>
    cases read
    exact ⟨nofun, fun base => rfl⟩
  | cons f fs ih =>
    rw [List.mapM_cons, bind_eq_ok] at read
    obtain ⟨o, first, read⟩ := read
    obtain ⟨rest, later, read⟩ := bind_eq_ok.1 read
    cases read
    split at first
    · next own tagged =>
      cases first
      obtain ⟨known, same⟩ := ih later
      refine ⟨List.forall_mem_cons.2 ⟨by rw [tagged]; rfl, known⟩, fun base => ?_⟩
      have rest := same base
      rw [named?] at rest ⊢
      rw [List.reverse_cons, List.reverse_cons, List.find?_append, List.find?_append,
        Option.map_or, Option.map_or, rest]
      congr 1
      by_cases here : own = base <;> simp [tagged, here]
    · cases first

end TypeNames

namespace Settings

variable {kind : Error → Prop} {tree : FileTree} {overrides : Entries Literal} {s : Settings}

/-- The settings name types: the custom ones are an object, and what it has under `type_overrides`
is one too; and if that is of base types only, it has neither a list nor an object for one that is
imported. -/
structure NamesTypes (s : Settings) : Prop where
  custom : s.custom.dictionary?.isSome = true
  types : ∀ v, s.value? "type_overrides" = some v → ∃ fs, v = .object fs ∧
    ((∀ e ∈ fs, (BaseType.ofTag? e.1).isSome = true) → ∀ base, TypeNames.isImported base = true →
      ∀ w, TypeNames.named? fs base = some w → TypeNames.canBeName w = true)

theorem customEntries_iff (spared : Error.SparesShape kind) (s : Settings) :
    Answers s.customEntries kind ↔ s.custom.dictionary?.isSome = true := by
  rw [customEntries]
  cases s.custom with
  | gathered d => simp [Custom.dictionary?]
  | given v => cases v <;> simp [Custom.dictionary?, spared.missingPart]

theorem get?_customEntries {es : Entries Literal} {key : Text} (read : s.customEntries = .ok es)
    (custom : key ∉ names) : es.get? key = s.value? key := by
  rw [value?_other s custom]
  rw [customEntries] at read
  revert read
  cases s.custom with
  | gathered d =>
    rintro ⟨⟩
    exact Dictionary.get?_named d key
  | given v =>
    cases v with
    | object es =>
      rintro ⟨⟩
      exact (Dictionary.get?_ofEntries es key).symm
    | _ =>
      intro failed
      cases failed

theorem ofSettings_iff (spared : Error.SparesShape kind) (reported : ∀ m, kind (.generation m))
    (style : s.refStyle?.isSome = true) :
    Answers (TypeNames.ofSettings s) kind ↔ NamesTypes s := by
  obtain ⟨style, styled⟩ := Option.isSome_iff_exists.1 style
  rw [TypeNames.ofSettings]
  simp only [styled, pure_bind]
  rw [Answers.bind_iff, customEntries_iff spared]
  have types (es : Entries Literal) (read : s.customEntries = .ok es) :
      es.get? "type_overrides" = s.value? "type_overrides" :=
    get?_customEntries read (by decide)
  constructor
  · rintro ⟨custom, later⟩
    obtain ⟨es, read⟩ := Answers.exists_ok_iff.2 ((customEntries_iff ⟨id, id, id⟩ s).2 custom)
    refine ⟨custom, fun v found => ?_⟩
    have answers := later es read
    rw [types es read, found] at answers
    cases v with
    | object fs =>
      refine ⟨fs, rfl, fun known base imported w given => ?_⟩
      obtain ⟨os, listed⟩ := TypeNames.exists_mapM_of_tags known
      have named := (TypeNames.checked_iff spared _).1 ((Answers.bind_iff.1 answers).2 os listed)
        base imported
      rwa [TypeNames.name, (TypeNames.named?_of_mapM listed).2, given] at named
    | _ => exact absurd (Answers.error_iff.1 answers) spared.missingPart
  · rintro ⟨custom, named⟩
    refine ⟨custom, fun es read => ?_⟩
    rw [types es read]
    cases found : s.value? "type_overrides" with
    | none =>
      refine (TypeNames.checked_iff spared _).2 fun base imported => ?_
      cases base <;> first | rfl | cases imported
    | some v =>
      obtain ⟨fs, rfl, fine⟩ := named v found
      refine Answers.bind_iff.2 ⟨Answers.mapM fun e _ => ?_, fun os listed => ?_⟩
      · cases BaseType.ofTag? e.1 with
        | some base => exact Answers.ok _ kind
        | none => exact Answers.error_iff.2 (reported _)
      · obtain ⟨known, same⟩ := TypeNames.named?_of_mapM listed
        refine (TypeNames.checked_iff spared _).2 fun base imported => ?_
        rw [TypeNames.name, same]
        cases given : TypeNames.named? fs base with
        | none => cases base <;> first | rfl | cases imported
        | some w => exact fine known base imported w given

end Settings

/-! ### Generators for overrides -/

namespace Error

/-- Whether settings are reported as invalid, or as impossible to load or save. -/
def IsSettings (e : Error) : Prop := ∃ m, e = .settings m

/-- Whether it is reported that no generator can be made. -/
def IsCatalog (e : Error) : Prop := ∃ m, e = .catalog m

end Error

namespace Catalog

variable {tree : FileTree} {overrides : Entries Literal}

theorem create_builtIn (source : SettingsSource) :
    builtIn.create tree "typescript" source =
      (settingsFrom tree "typescript" source >>= Generator.create .typeScript).mapError fun e =>
        match e with
        | .settings m | .generation m =>
          .catalog ("Failed to create " ++ Text.ofString "typescript" ++ " generator: " ++ m)
        | e => e := by
  have known : builtIn.find "typescript" = .ok .typeScript := by decide +kernel
  have key : builtIn.keyOf "typescript" = "typescript" := by decide +kernel
  rw [create, known, key]
  rfl

/-- Overrides give settings or are refused as invalid settings if and only if those that are used
before they are checked have the shape for it; they give a generator or are refused as the settings
of one if and only if, in addition, the settings that they give name types. -/
theorem create_or_refused (tree : FileTree) (distinct : overrides.keys.Nodup) :
    (Answers (Settings.load tree "typescript" overrides none) Error.IsSettings ↔
      Settings.Loads overrides) ∧
    (Answers (builtIn.create tree "typescript" (.overrides overrides)) Error.IsCatalog ↔
      Settings.Loads overrides ∧ ∀ s, Settings.load tree "typescript" overrides none = .ok s →
        s.NamesTypes) := by
  constructor
  · exact Settings.load_iff ⟨nofun, nofun, nofun⟩ (fun m => ⟨m, rfl⟩) distinct
  · rw [create_builtIn, Answers.mapError_iff, Answers.bind_iff, settingsFrom,
      Settings.load_iff ⟨nofun, nofun, nofun⟩ (fun m => ⟨_, rfl⟩) distinct]
    refine and_congr_right fun _ => forall₂_congr fun s loaded => ?_
    have style := Settings.refStyle?_of_problems (Settings.problems_of_load loaded)
    rw [Generator.create, Answers.bind_iff,
      Settings.ofSettings_iff ⟨nofun, nofun, nofun⟩ (fun m => ⟨_, rfl⟩) style]
    exact and_iff_left fun names _ => Answers.ok _ _

/-- Overrides that rename an imported type. -/
def renamingSample : Entries Literal :=
  [("indent_size", .int 4), ("type_overrides", .object [("ObjectId", .text "string")])]

theorem create_or_refused_renaming :
    renamingSample.keys.Nodup ∧
      Answers (Settings.load FileTree.empty "typescript" renamingSample none) Error.IsSettings ∧
      Answers (builtIn.create FileTree.empty "typescript" (.overrides renamingSample))
        Error.IsCatalog := by
  have distinct : renamingSample.keys.Nodup := by decide
  obtain ⟨load, create⟩ := create_or_refused FileTree.empty distinct
  have loads : Settings.Loads renamingSample := ⟨fun _ => nofun, nofun⟩
  refine ⟨distinct, load.2 loads, create.2 ⟨loads, fun s loaded => ?_⟩⟩
  have read : Settings.load FileTree.empty "typescript" renamingSample none = .ok
      { indentSize := .int 4
        custom := .gathered
          [(.text "type_overrides", .object [("ObjectId", .text "string")])] } := rfl
  cases read.symm.trans loaded
  refine ⟨rfl, fun v found => ?_⟩
  cases found
  refine ⟨_, rfl, fun _ base imported w given => ?_⟩
  cases base with
  | objectId =>
    cases given
    rfl
  | decimal128 => cases given
  | _ => cases imported

/-- A prefix that is no text is asked whether it is an identifier. -/
theorem create_of_number :
    ¬Answers (Settings.load FileTree.empty "typescript" [("interface_prefix", .int 1)] none)
        Error.IsSettings ∧
      ¬Answers (builtIn.create FileTree.empty "typescript"
        (.overrides [("interface_prefix", .int 1)])) Error.IsCatalog := by
  have loaded : Settings.load FileTree.empty "typescript" [("interface_prefix", .int 1)] none =
    .error .missingPart := rfl
  have created : builtIn.create FileTree.empty "typescript"
      (.overrides [("interface_prefix", .int 1)]) = .error .missingPart := by
    rw [create_builtIn, settingsFrom, loaded]
    rfl
  rw [loaded, created, Answers.error_iff, Answers.error_iff]
  exact ⟨nofun, nofun⟩

end Catalog

end SchemaTypings
