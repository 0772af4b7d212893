import Mathlib.Data.List.Forall2
import SchemaTypings.Proofs.Aborting
import SchemaTypings.Proofs.Outcomes
import SchemaTypings.Proofs.Tidying

/-!
The combined file of a batch that skips what fails: the start of every file, then the code of each
file that was converted, in the order of the files. The interfaces are written a second time for it,
through another template, and come out as they did one by one.
-/

namespace SchemaTypings

namespace Generator

/-! ### The text of a combined file -/

/-- The line that imports the names of types. -/
def importLine (g : Generator) : Text :=
  "import \x7b " ++ Text.join ", " (g.importNames.map Literal.said) ++ " \x7d from \""
    ++ g.settings.bsonModule.said ++ "\";\n"

/-- A header comment with an empty line behind it. -/
def commentBlock (comment : Text) : Text := Template.asBlockComment comment ++ "\n\n"

/-- The code of an interface with an empty line before it. -/
def interfaceBlock (code : Text) : Text := "\n" ++ code ++ "\n"

/-- The header comments and the import line. -/
def preamble (g : Generator) : Text := g.headerComments.flatMap commentBlock ++ g.importLine

/-- A combined file before it is laid out, given the code of its interfaces. -/
def combined (g : Generator) (interfaces : List Text) : Text :=
  g.preamble ++ interfaces.flatMap interfaceBlock

/-- What a template can look up while it renders a combined file. -/
def fileContext (g : Generator) (interfaces : List Text) : Entries Literal :=
  (Template.ownName, Template.itself "ts_file") ::
    [("comments", .list (g.headerComments.map .text)), ("imports", .list g.importNames),
      ("module", g.settings.bsonModule), ("interfaces", .list (interfaces.map .text))] ++
      Template.globals

theorem render_nil (context : Entries Literal) : Template.render context [] = .ok [] := by
  rw [Template.render]

theorem render_text (context : Entries Literal) (s : Text) :
    Template.renderPiece context (.text s) = .ok s := by
  rw [Template.renderPiece]

/-- A loop over texts writes what its body writes for each of them. -/
theorem render_each {context : Entries Literal} {name : Text} {ref : Template.Ref}
    {body : List Template.Piece} {items : List Text} {f : Text → Text}
    (found : Template.find context ref = .ok (.list (items.map .text)))
    (each : ∀ s, Template.render ((name, .text s) :: context) body = .ok (f s)) :
    Template.renderPiece context (.each name ref body) = .ok (items.flatMap f) := by
  have parts : (items.map Literal.text).mapM
      (fun item => Template.render ((name, item) :: context) body) = .ok (items.map f) := by
    clear found
    induction items with
    | nil => rfl
    | cons s rest ih => simp [List.mapM_cons, each, ih]
  rw [Template.renderPiece, found]
  simp only [ok_bind, Template.itemsOf, parts, pure_eq_ok, List.flatMap]

section

variable {g : Generator} (language : g.language = .typeScript) (templates : g.templates = .builtIn)
  (interfaces : List Text)

/-- Each header comment is written as a block. -/
theorem render_comments :
    Template.renderPiece (g.fileContext interfaces) (.each "comment" (.variable "comments")
      [.value (.variable "comment") .comment, .text "\n\n"]) =
        .ok (g.headerComments.flatMap commentBlock) := by
  have found : Template.find (g.fileContext interfaces) (.variable "comments") =
      .ok (.list (g.headerComments.map .text)) := rfl
  refine render_each found fun s => ?_
  have comment : Template.renderPiece (("comment", .text s) :: g.fileContext interfaces)
      (.value (.variable "comment") .comment) = .ok (Template.asBlockComment s) := rfl
  rw [render_cons comment <| render_cons (render_text _ _) (render_nil _), List.append_nil,
    commentBlock]

include language in
/-- There is always an import line. -/
theorem render_imports :
    Template.renderPiece (g.fileContext interfaces) (.when (.variable "imports")
      [.text "import \x7b ", .value (.variable "imports") (.joined ", "), .text " \x7d from \"",
        .var "module", .text "\";\n"]) = .ok g.importLine := by
  have found : Template.find (g.fileContext interfaces) (.variable "imports") =
      .ok (.list g.importNames) := rfl
  have some : Literal.isTruthy (.list g.importNames) = true := by
    rw [importNames, language]
    rfl
  have names : Template.renderPiece (g.fileContext interfaces)
      (.value (.variable "imports") (.joined ", ")) =
        .ok (Text.join ", " (g.importNames.map Literal.said)) := by
    rw [Template.renderPiece, found]
    rfl
  have module : Template.renderPiece (g.fileContext interfaces) (.var "module") =
      .ok g.settings.bsonModule.said := rfl
  rw [Template.renderPiece, found, ok_bind, if_pos some,
    render_cons (render_text _ _) <| render_cons names <| render_cons (render_text _ _) <|
      render_cons module <| render_cons (render_text _ _) (render_nil _), importLine]
  simp only [List.append_assoc, List.append_nil]

/-- Each interface is written as a block. -/
theorem render_interfaces :
    Template.renderPiece (g.fileContext interfaces) (.each "interface" (.variable "interfaces")
      [.text "\n", .var "interface", .text "\n"]) = .ok (interfaces.flatMap interfaceBlock) := by
  have found : Template.find (g.fileContext interfaces) (.variable "interfaces") =
      .ok (.list (interfaces.map .text)) := rfl
  refine render_each found fun s => ?_
  have code : Template.renderPiece (("interface", .text s) :: g.fileContext interfaces)
      (.var "interface") = .ok s := rfl
  rw [render_cons (render_text _ _) <| render_cons code <|
    render_cons (render_text _ _) (render_nil _), interfaceBlock]
  simp only [List.append_assoc, List.append_nil]

include language templates in
/-- Interfaces that can be written one by one can be written to one file. -/
theorem file_eq {models : List Interface} (written : models.mapM g.single = .ok interfaces) :
    g.file models = .ok (g.combined interfaces) := by
  have rendered : Template.render (g.fileContext interfaces) Template.fileTemplate = .ok _ :=
    render_cons (render_comments interfaces) <| render_cons (render_imports language interfaces) <|
      render_cons (render_interfaces interfaces) (render_nil _)
  rw [file, language]
  dsimp only
  rw [written, ok_bind, templates, combined, preamble, List.append_assoc]
  rw [List.append_nil] at rendered
  exact congrArg (Except.mapError _) rendered

end

theorem created_typeScript {settings : Settings} {g : Generator}
    (created : create .typeScript settings = .ok g) :
    g.language = .typeScript ∧ g.settings = settings ∧ g.templates = .builtIn := by
  rw [create] at created
  obtain ⟨names, -, made⟩ := bind_eq_ok.1 created
  cases made
  exact ⟨rfl, rfl, rfl⟩

/-! ### What becomes of it -/

/-- A combined file in the layout that settings ask for. -/
def laidOut (g : Generator) (text : Text) : Except Error Text :=
  if g.settings.formatOutput.isTruthy then g.format text else .ok text

/-- Settings that give no indentation are no fault of a template or of a type. -/
theorem passed_of_indent {s : Settings} {memory : Option Nat} {e : Error}
    (h : s.indent memory = .error e) (message : Text) :
    e ≠ .generation message ∧ e ≠ .template message := by
  rw [Settings.indent] at h
  split at h
  · cases h
  split at h
  · next n _ =>
    rw [Settings.spaces] at h
    split at h
    · cases h
      simp
    · rcases Layout.fault_of_repeated h with rfl | rfl <;> simp
  · cases h
    simp

theorem passed_of_laidOut {g : Generator} (language : g.language = .typeScript) {text : Text}
    {e : Error} (h : g.laidOut text = .error e) (message : Text) :
    e ≠ .generation message ∧ e ≠ .template message := by
  rw [laidOut] at h
  split at h
  · rw [format, language] at h
    rcases bind_eq_error.1 h with bad | ⟨indent, -, h⟩
    · exact passed_of_indent bad message
    · rcases Layout.fault_of_format h with rfl | rfl <;> simp
  · cases h

/-- If there is a result for a combined file whose text is known, it is that text, laid out. -/
theorem generated_of_file {g : Generator} (language : g.language = .typeScript)
    {models : List Interface} {text : Text} (file : g.file models = .ok text) {made : Generation}
    (h : (g.generate models).outcome = .ok made) :
    g.laidOut text = .ok made.code ∧ made.failure = none ∧ made.schemaCount = models.length := by
  have laid : g.formattedFile models = g.laidOut text := by
    rw [formattedFile, file]
    rfl
  rw [generate, laid] at h
  cases result : g.laidOut text with
  | ok code =>
    rw [result] at h
    cases h
    exact ⟨rfl, rfl, rfl⟩
  | error e =>
    have passed := passed_of_laidOut language result
    rw [result] at h
    dsimp only at h
    split at h
    · exact absurd rfl (passed _).1
    · exact absurd rfl (passed _).2
    · cases h

end Generator

namespace Batch

variable {g : Generator}

/-! ### The conversions of a batch -/

/-- A conversion for the file at `path` which has an interface exactly if it is converted, and then
has the code of that interface. -/
structure IsWritten (g : Generator) (path : Text) (c : Conversion) : Prop where
  place : c.path = path
  single : ∀ i ∈ c.model, g.single i = .ok c.code
  status : c.model.isSome = c.isConverted

theorem IsWritten.of_status {path : Text} {c : Conversion} (place : c.path = path)
    (status : c.status ≠ .converted) (model : c.model = none) : IsWritten g path c :=
  ⟨place, by simp [model], by simp [model, Conversion.isConverted, status]⟩

theorem isWritten_convertFile {known : InterfaceNames} {tree : FileTree} {path : PathName}
    {c : Conversion} (h : (convertFile g known tree path).outcome = .ok c) :
    IsWritten g path.toText c := by
  rw [convertFile, Logged.outcome_bind] at h
  obtain ⟨loaded, -, h⟩ := bind_eq_ok.1 h
  rcases loaded with e | source
  · cases e with
    | source message =>
      cases h
      exact .of_status rfl (by simp) rfl
    | _ => cases h
  · obtain ⟨place, ⟨status, model⟩ | ⟨tree, name, i, made⟩⟩ := convert_cases h
    · exact .of_status place status model
    · refine ⟨place, ?_, ?_⟩
      · rw [made.model]
        rintro _ ⟨⟩
        exact made.single
      · simp [made.model, made.status, Conversion.isConverted]

/-- A batch that skips what fails converts its files one by one, in order. -/
theorem forall₂_convertFiles {known : InterfaceNames} {tree : FileTree} {paths : List PathName}
    {cs : List Conversion} {aborted : Bool}
    (h : (convertFiles g known tree .skip paths).outcome = .ok (cs, aborted)) :
    List.Forall₂ (fun path c => (convertFile g known tree path).outcome = .ok c) paths cs := by
  induction paths generalizing cs aborted with
  | nil =>
    cases h
    exact .nil
  | cons path rest ih =>
    rw [convertFiles, Logged.outcome_bind] at h
    obtain ⟨c, converted, h⟩ := bind_eq_ok.1 h
    rw [if_neg (by simp), Logged.outcome_bind] at h
    obtain ⟨⟨others, aborted⟩, going, h⟩ := bind_eq_ok.1 h
    cases h
    exact .cons converted (ih going)

/-- What comes of files one by one. -/
abbrev AreWritten (g : Generator) : List PathName → List Conversion → Prop :=
  List.Forall₂ fun path c => IsWritten g path.toText c

section

variable {paths : List PathName} {cs : List Conversion} (all : AreWritten g paths cs)

include all

theorem map_path_of_written : cs.map (·.path) = paths.map PathName.toText := by
  induction all with
  | nil => rfl
  | cons first _ ih => simp [first.place, ih]

/-- There are as many interfaces as there are files that were converted. -/
theorem length_models : (cs.filterMap (·.model)).length = (cs.filter (·.isConverted)).length := by
  induction all with
  | nil => rfl
  | @cons path c paths cs first _ ih =>
    have status := first.status
    cases model : c.model <;> simp [← status, model, ih]

/-- Written again, the interfaces of the conversions come out as they were. -/
theorem mapM_single : (cs.filterMap (·.model)).mapM g.single =
    .ok ((cs.filter (·.isConverted)).map (·.code)) := by
  induction all with
  | nil => rfl
  | @cons path c paths cs first _ ih =>
    have status := first.status
    cases model : c.model with
    | none =>
      have skipped : c.isConverted = false := by rw [← status, model]; rfl
      rw [List.filterMap_cons_none model, List.filter_cons_of_neg (by simp [skipped]), ih]
    | some i =>
      have converted : c.isConverted = true := by rw [← status, model]; rfl
      have code := first.single i model
      rw [List.filterMap_cons_some model, List.filter_cons_of_pos converted, List.mapM_cons, code,
        ok_bind, ih]
      rfl

end

/-- Each conversion has one of the statuses. -/
theorem sum_counts (cs : List Conversion) :
    (Status.all.map fun s => (cs.filter (·.status = s)).length).sum = cs.length := by
  induction cs with
  | nil => rfl
  | cons c cs ih =>
    simp only [Status.all, List.map_cons, List.map_nil, List.sum_cons, List.sum_nil,
      List.length_cons, List.filter_cons] at ih ⊢
    cases c.status <;> simp <;> omega

/-! ### The result of a batch -/

/-- A batch that skips what fails runs to its end, and then a file is made of its interfaces. -/
theorem exists_generation_of_run {tree : FileTree} {paths : List PathName} {b : BatchResult}
    (policy : g.settings.errorPolicy? = some .skip) (ran : (run g tree paths).outcome = .ok b) :
    b.aborted = false ∧ AreWritten g paths b.conversions ∧
      ∃ made, b.generation = some made ∧
        (g.generate (b.conversions.filterMap (·.model))).outcome = .ok made := by
  rw [run, policy] at ran
  dsimp only at ran
  rw [Logged.outcome_bind] at ran
  obtain ⟨names, -, ran⟩ := bind_eq_ok.1 ran
  rw [Logged.outcome_bind] at ran
  obtain ⟨⟨cs, aborted⟩, converted, ran⟩ := bind_eq_ok.1 ran
  obtain ⟨rfl, -⟩ := convertFiles_abort converted
  dsimp only at ran
  rw [if_neg (by simp), Logged.outcome_bind] at ran
  obtain ⟨made, generated, ran⟩ := bind_eq_ok.1 ran
  cases ran
  have all := (forall₂_convertFiles converted).imp fun _ _ => isWritten_convertFile
  exact ⟨rfl, all, made, rfl, generated⟩

/-- A batch over `paths` whose combined file is made of the code of the files that were
converted. -/
structure IsCombined (g : Generator) (paths : List PathName) (b : BatchResult) : Prop where
  places : b.conversions.map (·.path) = paths.map PathName.toText
  counts : (Status.all.map b.count).sum = paths.length
  whole : b.aborted = false
  file : g.file (b.conversions.filterMap (·.model)) = .ok (g.combined (b.converted.map (·.code)))
  generation : ∃ made, b.generation = some made ∧ made.failure = none ∧
    made.schemaCount = b.converted.length ∧
      g.laidOut (g.combined (b.converted.map (·.code))) = .ok made.code

/-- A batch that skips what fails makes one file of all that it converted. -/
theorem isCombined_of_run {settings : Settings}
    (created : Generator.create .typeScript settings = .ok g)
    (policy : settings.errorPolicy? = some .skip) {tree : FileTree} {paths : List PathName}
    {b : BatchResult} (ran : (run g tree paths).outcome = .ok b) : IsCombined g paths b := by
  obtain ⟨language, rfl, templates⟩ := Generator.created_typeScript created
  obtain ⟨whole, all, made, eq, generated⟩ := exists_generation_of_run policy ran
  have file := Generator.file_eq language templates _ (mapM_single all)
  obtain ⟨laid, succeeded, count⟩ := Generator.generated_of_file language file generated
  exact
    { places := map_path_of_written all
      counts := (sum_counts b.conversions).trans all.length_eq.symm
      whole
      file
      generation := ⟨made, eq, succeeded, count.trans (length_models all), laid⟩ }

theorem isCombined_broken :
    Generator.create .typeScript {} = .ok .standard ∧
      ({} : Settings).errorPolicy? = some .skip ∧
      ∃ b, (run .standard brokenTree brokenPaths).outcome = .ok b ∧ b.converted.length = 2 ∧
        IsCombined .standard brokenPaths b := by
  have ran : ((run .standard brokenTree brokenPaths).outcome.toOption.any fun b =>
      decide (b.converted.length = 2)) = true := by decide +kernel
  obtain ⟨b, ok, two⟩ := exists_of_toOption_any ran
  exact ⟨rfl, rfl, b, ok, of_decide_eq_true two,
    isCombined_of_run Generator.create_typeScript rfl ok⟩

end Batch

end SchemaTypings
