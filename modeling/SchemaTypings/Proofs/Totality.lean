import SchemaTypings.Proofs.Converting
import SchemaTypings.Proofs.Escapes
import SchemaTypings.Proofs.Failures
import SchemaTypings.Proofs.Numbers
import SchemaTypings.Proofs.Registering
import SchemaTypings.Proofs.Tidying

/-!
Which sources have a conversion. All do but those with an escape that is too large or a number
without digits where they are read; a batch that skips what fails then has one conversion for each
of its files.
-/

namespace SchemaTypings

/-- A text with a number that has no digits. -/
def Text.HasDigitlessNumber (s : Text) : Prop := ∃ t, NumberLiteral.IsDigitless t ∧ t <:+: s

namespace Batch

/-- A source whose conversion fails: the search for a declaration meets an escape that is too large
in some call, or the declaration that it finds has such an escape, or a value in it is a number
without digits. -/
inductive FailsOn (source : Text) : Prop
  | search {e : LexError} (h : (Declaration.extract source).outcome = .error e)
  | escape {d : Declaration} {e : LexError}
      (found : (Declaration.extract source).outcome = .ok (some d))
      (tokens : tokenize d.text = .error e) (large : e.cause = .escapeTooLarge)
  | number {d : Declaration} (found : (Declaration.extract source).outcome = .ok (some d))
      (read : (Declaration.readRaw d.text).outcome = .error .badNumber)

/-- A source whose conversion fails holds an escape that is too large or a number without digits. -/
theorem FailsOn.reason {source : Text} (h : FailsOn source) :
    source.HasLargeEscape ∨ source.HasDigitlessNumber := by
  have searched : Declaration.Searched source (Declaration.extract source).outcome :=
    Declaration.searched_search false source
  cases h with
  | search h =>
    obtain ⟨large, start, lexed⟩ := searched.cause _ h
    exact .inl (hasLargeEscape_of_lex lexed large).of_drop
  | escape found tokens large =>
    have part := hasLargeEscape_of_lex (error?_of_tokenize tokens) large
    exact .inl (part.mono (searched.part _ found))
  | number found read =>
    rcases Declaration.cause_of_readRaw read with ⟨m, ⟨⟩⟩ | ⟨-, ts, tokens, cause⟩ | ⟨⟨⟩, -⟩
    cases cause with
    | number mem number none =>
      rw [← tokens_of_tokenize tokens] at mem
      obtain ⟨digitless, part⟩ := NumberLiteral.isDigitless_of_mem_lex mem number none
      exact .inr ⟨_, digitless, part.trans (searched.part _ found)⟩

/-! ### One source -/

theorem outcome_readTree (text path : Text) :
    (readTree text path).outcome = (Declaration.normalize text).outcome >>= fun normalized =>
      .ok (normalized, (FieldTree.materialize normalized (some path)).outcome) := by
  simp [readTree]

/-- A source on which nothing fails has a conversion. -/
theorem exists_convert {source : Text} (h : ¬FailsOn source) (known : InterfaceNames)
    (path : Text) :
    ∃ c, (convert .standard known source path).outcome = .ok c ∧ IsResult path c := by
  cases found : (Declaration.extract source).outcome with
  | error e => exact absurd (.search found) h
  | ok d =>
    cases d with
    | none =>
      let message : Text := "Schema definition not found in `" ++ path ++ "`"
      refine ⟨{ path, status := .noDeclaration, warnings := [message] }, ?_, rfl, by simp⟩
      simp [convert, found, note, message]
    | some d =>
      cases read : (Declaration.readRaw d.text).outcome with
      | error e =>
        rcases Declaration.cause_of_readRaw read with ⟨m, rfl⟩ | ⟨rfl, -⟩ | ⟨-, e, tokens, large⟩
        · obtain ⟨c, refused, place, -, model⟩ := exists_refused path d none m
          refine ⟨c, ?_, place, by simp [model]⟩
          simp [convert, found, outcome_readTree, Declaration.outcome_normalize, read, refused]
        · exact absurd (.number found read) h
        · exact absurd (.escape found tokens large) h
      | ok entries =>
        let normalized := (Literal.object (Raw.quoteFields entries)).render
        cases tree : (FieldTree.materialize normalized (some path)).outcome with
        | error e =>
          obtain ⟨m, rfl⟩ := FieldTree.malformed_of_materialize_render tree
          obtain ⟨c, refused, place, -, model⟩ := exists_refused path d (some normalized) m
          refine ⟨c, ?_, place, by simp [model]⟩
          simp [convert, found, outcome_readTree, Declaration.outcome_normalize, read, normalized,
            tree, refused]
        | ok declared =>
          obtain ⟨es, -, rfl⟩ := FieldTree.materialize_eq_ok.1 tree
          obtain ⟨c, finished, good, -⟩ :=
            exists_finish (FieldTree.isWhole_declared es) known path d normalized
          refine ⟨c, ?_, good⟩
          simp [convert, found, outcome_readTree, Declaration.outcome_normalize, read, normalized,
            tree, finished]

/-- A declaration that is refused for another reason than that it is malformed has no conversion. -/
theorem exists_convert_error {source : Text} {d : Declaration} {e : ReadError}
    (found : (Declaration.extract source).outcome = .ok (some d))
    (read : (Declaration.readRaw d.text).outcome = .error e) (other : ∀ m, e ≠ .malformed m)
    (known : InterfaceNames) (path : Text) :
    ∃ e, (convert .standard known source path).outcome = .error e := by
  refine ⟨.read e, ?_⟩
  cases e with
  | malformed m => exact absurd rfl (other m)
  | _ => simp [convert, found, outcome_readTree, Declaration.outcome_normalize, read, refused]

theorem convert_eq_error_iff (known : InterfaceNames) (source path : Text) :
    (∃ e, (convert .standard known source path).outcome = .error e) ↔ FailsOn source := by
  constructor
  · rintro ⟨e, h⟩
    refine Classical.byContradiction fun no => ?_
    obtain ⟨c, converted, -⟩ := exists_convert no known path
    rw [h] at converted
    cases converted
  · rintro (@⟨e, h⟩ | @⟨d, e, found, tokens, large⟩ | @⟨d, found, read⟩)
    · exact ⟨.lexical e, by simp [convert, h]⟩
    · refine exists_convert_error found (e := .escapeTooLarge) ?_ (by simp) known path
      simp [Declaration.readRaw, tokens, ReadError.ofLexical, large]
    · exact exists_convert_error found read (by simp) known path

/-! ### Batches -/

/-- What is wrong with a name that can be none of a file in any tree. -/
theorem cause_of_checkName {path : PathName} {e : Error} (h : FileTree.checkName path = .error e) :
    e = .unencodable ∨ e = .zeroInPath ∨ ∃ f, e = .system f := by
  simp only [FileTree.checkName] at h
  split at h
  · cases h
    exact .inl rfl
  split at h
  · cases h
    exact .inr (.inl rfl)
  split at h
  · cases h
    exact .inr (.inr ⟨_, rfl⟩)
  · cases h

/-- A file cannot be read for its name alone, or else the file system refuses. -/
theorem readText_eq_error {tree : FileTree} {path : PathName} {e : Error}
    (h : tree.readText path = .error e) :
    FileTree.checkName path = .error e ∨ ∃ f, e = .system f := by
  rw [FileTree.readText, map_eq_error, FileTree.read] at h
  rcases bind_eq_error.1 h with h | ⟨⟨place, node⟩, -, h⟩
  · rw [FileTree.look] at h
    rcases bind_eq_error.1 h with h | ⟨place, -, h⟩
    · rw [FileTree.resolve] at h
      rcases bind_eq_error.1 h with h | ⟨-, -, h⟩
      · exact .inl h
      · obtain ⟨fault, -, rfl⟩ := mapError_eq_error.1 h
        exact .inr ⟨_, rfl⟩
    · split at h
      · cases h
      · cases h
        exact .inr ⟨_, rfl⟩
  · cases node with
    | file bytes => cases h
    | directory =>
      cases h
      exact .inr ⟨_, rfl⟩

theorem readText_of_checkName {tree : FileTree} {path : PathName} {e : Error}
    (h : FileTree.checkName path = .error e) : tree.readText path = .error e := by
  rw [FileTree.readText, FileTree.read, FileTree.look, FileTree.resolve, h]
  rfl

/-- A file whose conversion fails, and with it the batch: its name can be none of a file, or the
conversion of its text fails. -/
inductive FileFailsOn (tree : FileTree) (path : PathName) : Prop
  | name {e : Error} (h : FileTree.checkName path = .error e) (other : ∀ f, e ≠ .system f)
  | text {source : Text} (h : tree.readText path = .ok (some source)) (fails : FailsOn source)

/-- A file that cannot be loaded is reported, unless its name can be no name of a file. -/
theorem convertFile_of_source {tree : FileTree} {path : PathName} {message : Text}
    (h : (Models.load tree path).outcome = .error (.source message)) (known : InterfaceNames) :
    ∃ c, (convertFile .standard known tree path).outcome = .ok c ∧ IsResult path.toText c := by
  refine ⟨{ path := path.toText, status := .unreadable, problem := some message }, ?_, rfl, by simp⟩
  simp [convertFile, h]

theorem exists_convertFile {tree : FileTree} {path : PathName} (h : ¬FileFailsOn tree path)
    (known : InterfaceNames) :
    ∃ c, (convertFile .standard known tree path).outcome = .ok c ∧ IsResult path.toText c := by
  cases read : tree.readText path with
  | ok text =>
    cases text with
    | none => exact convertFile_of_source (by simp [Models.load, Models.note, read]; rfl) known
    | some source =>
      obtain ⟨c, converted, good⟩ :=
        exists_convert (fun fails => h (.text read fails)) known path.toText
      refine ⟨c, ?_, good⟩
      simp [convertFile, Models.load, Models.note, read, converted]
  | error e =>
    by_cases system : ∃ f, e = .system f
    · obtain ⟨f, rfl⟩ := system
      exact convertFile_of_source (by simp [Models.load, Models.note, read]; rfl) known
    · have name := (readText_eq_error read).resolve_right system
      exact absurd (.name name fun f no => system ⟨f, no⟩) h

theorem exists_convertFile_error {tree : FileTree} {path : PathName} (h : FileFailsOn tree path)
    (known : InterfaceNames) :
    ∃ e, (convertFile .standard known tree path).outcome = .error e := by
  cases h with
  | @name e name other =>
    have read : tree.readText path = .error e := readText_of_checkName name
    rcases cause_of_checkName name with rfl | rfl | ⟨f, rfl⟩
    · exact ⟨_, by simp [convertFile, Models.load, Models.note, read]; rfl⟩
    · exact ⟨_, by simp [convertFile, Models.load, Models.note, read]; rfl⟩
    · exact absurd rfl (other f)
  | text read fails =>
    obtain ⟨e, failed⟩ := (convert_eq_error_iff known _ path.toText).2 fails
    exact ⟨e, by simp [convertFile, Models.load, Models.note, read, failed]⟩

/-- The conversions of files that do not fail, one for each in order. -/
theorem exists_convertFiles {tree : FileTree} {paths : List PathName}
    (h : ∀ path ∈ paths, ¬FileFailsOn tree path) (known : InterfaceNames) :
    ∃ cs, (convertFiles .standard known tree .skip paths).outcome = .ok (cs, false) ∧
      cs.map (·.path) = paths.map PathName.toText ∧
      ∀ i ∈ cs.filterMap (·.model), ∃ code, Generator.standard.single i = .ok code := by
  induction paths with
  | nil => exact ⟨[], rfl, rfl, by simp⟩
  | cons path rest ih =>
    obtain ⟨c, converted, good⟩ := exists_convertFile (h path (by simp)) known
    obtain ⟨cs, others, places, single⟩ := ih fun p hp => h p (by simp [hp])
    refine ⟨c :: cs, ?_, by rw [List.map_cons, good.path, places, List.map_cons], ?_⟩
    · simp [convertFiles, converted, others]
    · intro i hi
      obtain ⟨d, hd, model⟩ := List.mem_filterMap.1 hi
      rcases List.mem_cons.1 hd with rfl | hd
      · exact good.single i model
      · exact single i (List.mem_filterMap.2 ⟨d, hd, model⟩)

/-- A file that fails takes the batch with it. -/
theorem exists_convertFiles_error {tree : FileTree} {paths : List PathName} {path : PathName}
    (mem : path ∈ paths) (h : FileFailsOn tree path) (known : InterfaceNames) :
    ∃ e, (convertFiles .standard known tree .skip paths).outcome = .error e := by
  induction paths with
  | nil => cases mem
  | cons first rest ih =>
    cases converted : (convertFile .standard known tree first).outcome with
    | error e => exact ⟨e, by simp [convertFiles, converted]⟩
    | ok c =>
      rcases List.mem_cons.1 mem with rfl | mem
      · obtain ⟨e, failed⟩ := exists_convertFile_error h known
        rw [converted] at failed
        cases failed
      · obtain ⟨e, failed⟩ := ih mem
        exact ⟨e, by simp [convertFiles, converted, failed]⟩

/-- A template that cannot be rendered is reported as such. -/
theorem cause_of_render {store : TemplateStore} {name : Text} {context : Entries Literal}
    {e : Error} (h : store.render name context = .error e) : ∃ m, e = .template m := by
  rw [TemplateStore.render] at h
  split at h
  · cases h
    exact ⟨_, rfl⟩
  split at h
  · cases h
    exact ⟨_, rfl⟩
  split at h
  · cases h
    exact ⟨_, rfl⟩
  · obtain ⟨fault, -, rfl⟩ := mapError_eq_error.1 h
    exact ⟨_, rfl⟩

/-- A combined file of interfaces whose code can be written is at worst reported to fail. -/
theorem exists_generate {models : List Interface}
    (h : ∀ i ∈ models, ∃ code, Generator.standard.single i = .ok code) :
    ∃ g, (Generator.standard.generate models).outcome = .ok g := by
  obtain ⟨codes, written, -⟩ := exists_mapM_eq_ok (p := fun _ => True) fun i hi =>
    (h i hi).imp fun code single => ⟨single, trivial⟩
  have cause {e : Error} (failed : Generator.standard.formattedFile models = .error e) :
      ∃ m, e = .template m := by
    rw [Generator.formattedFile] at failed
    rcases bind_eq_error.1 failed with failed | ⟨code, -, failed⟩
    · rw [Generator.file, show Generator.standard.language = .typeScript from rfl] at failed
      simp only [written, ok_bind] at failed
      exact cause_of_render failed
    · have asked : Generator.standard.settings.formatOutput.isTruthy = true := rfl
      rw [if_pos asked, Generator.format_eq_laid rfl rfl rfl (by decide)] at failed
      cases failed
  rw [Generator.generate]
  cases file : Generator.standard.formattedFile models with
  | ok code => exact ⟨_, rfl⟩
  | error e =>
    obtain ⟨m, rfl⟩ := cause file
    exact ⟨_, rfl⟩

/-- A batch fails exactly if some file of it does. -/
theorem exists_run {tree : FileTree} {paths : List PathName}
    (h : ∀ path ∈ paths, ¬FileFailsOn tree path) :
    ∃ b, (run .standard tree paths).outcome = .ok b ∧
      b.conversions.map (·.path) = paths.map PathName.toText := by
  have policy : Generator.standard.settings.errorPolicy? = some .skip := rfl
  obtain ⟨names, named⟩ : ∃ names,
      (namesOf .standard (paths.map PathName.toText)).outcome = .ok names :=
    ⟨_, outcome_namesOf Generator.outcome_interfaceName _⟩
  obtain ⟨cs, converted, places, single⟩ := exists_convertFiles h names
  obtain ⟨generation, generated⟩ := exists_generate single
  refine ⟨{ conversions := cs, names, generation := some generation }, ?_, places⟩
  simp [run, policy, named, converted, generated]

/-- Conversion fails exactly on the sources that `FailsOn` describes, which hold an escape that is too
large or a number without digits. A batch that skips what fails has a result exactly if none of its
files fails so, and then one conversion for each file in order. -/
theorem convert_and_run_fail_iff (known : InterfaceNames) (source path : Text) (tree : FileTree)
    (paths : List PathName) :
    ((∃ e, (convert .standard known source path).outcome = .error e) ↔ FailsOn source) ∧
      (FailsOn source → source.HasLargeEscape ∨ source.HasDigitlessNumber) ∧
      ((∃ e, (run .standard tree paths).outcome = .error e) ↔
        ∃ path ∈ paths, FileFailsOn tree path) ∧
      ∀ b, (run .standard tree paths).outcome = .ok b →
        b.conversions.map (·.path) = paths.map PathName.toText := by
  have fails {path : PathName} (mem : path ∈ paths) (h : FileFailsOn tree path) :
      ∃ e, (run .standard tree paths).outcome = .error e := by
    have policy : Generator.standard.settings.errorPolicy? = some .skip := rfl
    obtain ⟨names, named⟩ : ∃ names,
        (namesOf .standard (paths.map PathName.toText)).outcome = .ok names :=
      ⟨_, outcome_namesOf Generator.outcome_interfaceName _⟩
    obtain ⟨e, failed⟩ := exists_convertFiles_error mem h names
    exact ⟨e, by simp [run, policy, named, failed]⟩
  refine ⟨convert_eq_error_iff known source path, FailsOn.reason, ⟨?_, ?_⟩, ?_⟩
  · rintro ⟨e, failed⟩
    refine Classical.byContradiction fun no => ?_
    obtain ⟨b, ok, -⟩ := exists_run fun path mem h => no ⟨path, mem, h⟩
    rw [failed] at ok
    cases ok
  · rintro ⟨path, mem, h⟩
    exact fails mem h
  · intro b ok
    have none : ∀ path ∈ paths, ¬FileFailsOn tree path := by
      intro path mem h
      obtain ⟨e, failed⟩ := fails mem h
      rw [ok] at failed
      cases failed
    obtain ⟨b', ok', places⟩ := exists_run none
    rw [ok] at ok'
    cases ok'
    exact places

/-- A schema whose only value is a number without digits. -/
def digitlessSource : Text := "const s = new Schema(\x7b a: 0x_ \x7d);"

/-- Whether an outcome is the failure for want of a number's value. -/
def isBadNumber {α : Type} : Except ReadError α → Bool
  | .error .badNumber => true
  | _ => false

theorem failsOn_digitlessSource : FailsOn digitlessSource := by
  have found : (Declaration.extract digitlessSource).outcome =
      .ok (some ⟨"s", digitlessSource, 0, digitlessSource.length⟩) := by decide +kernel
  have bad : isBadNumber (Declaration.readRaw digitlessSource).outcome = true := by decide +kernel
  refine .number found ?_
  dsimp only
  revert bad
  cases (Declaration.readRaw digitlessSource).outcome with
  | ok entries => simp [isBadNumber]
  | error e => cases e <;> simp [isBadNumber]

theorem convert_digitlessSource_fails :
    ∃ e, (convert .standard ⟨[]⟩ digitlessSource "a.js").outcome = .error e :=
  (convert_eq_error_iff ..).2 failsOn_digitlessSource

end Batch

end SchemaTypings
