import SchemaTypings.Proofs.Combining
import SchemaTypings.Proofs.Equality
import SchemaTypings.Proofs.Repeating
import SchemaTypings.Proofs.SettingsEntries

/-!
Runs that are repeated. What a run writes below the directory that it reads is no model, so a second
run finds the same models there, ends with the same exit code and leaves every file as it is.
-/

namespace SchemaTypings

/-! ### Settings and generators -/

namespace Settings

theorem outputFile_of_ofEntries {es : Entries Literal} {s : Settings}
    (made : ofEntries es = .ok s) : s.outputFile = (es.get? "output_file").getD .null := by
  rw [eq_of_ofEntries made]
  rfl

/-- The output file has no default. -/
theorem outputFile_of_load {tree : FileTree} {overrides : Entries Literal} {s : Settings}
    (other : ("output_file" : Text) ∉ overrides.keys)
    (loaded : load tree "typescript" overrides none = .ok s) : s.outputFile = .null := by
  rw [load] at loaded
  obtain ⟨t, merged, loaded⟩ := bind_eq_ok.1 loaded
  obtain ⟨_, -, loaded⟩ := bind_eq_ok.1 loaded
  split at loaded
  · cases loaded
    have made : ofEntries ((defaults "typescript").update overrides) = .ok s := merged
    have absent : ((defaults "typescript").update overrides).get? "output_file" = none := by
      rw [Entries.get?_eq_none_iff]
      intro mem
      obtain ⟨e, he, named⟩ := List.mem_map.1 mem
      rcases Entries.mem_update he with he | he
      · have new : ("output_file" : Text) ∉ (defaults "typescript").keys := by decide
        exact new (named ▸ List.mem_map_of_mem he)
      · exact other (named ▸ List.mem_map_of_mem he)
    rw [outputFile_of_ofEntries made, absent]
    rfl
  · cases loaded

end Settings

/-- The built-in generator is made as that for its language. -/
theorem Catalog.created_of_builtIn {tree : FileTree} {settings : Settings} {g : Generator}
    (created : builtIn.create tree "typescript" (.settings settings) = .ok g) :
    Generator.create .typeScript settings = .ok g := by
  obtain ⟨language, found, made⟩ := bind_eq_ok.1 created
  have known : builtIn.find "typescript" = .ok .typeScript := by decide +kernel
  cases known.symm.trans found
  exact mapError_eq_ok.1 made

namespace CommandLine

open Run (RepeatsAt IsSteady)

theorem isSteady_report (c : Conversion) : IsSteady (report c) := by
  rw [report]
  split
  · refine (Run.isSteady_printMarkup _).bind fun _ => ?_
    split
    · exact Run.isSteady_print _
    · exact Run.isSteady_pure _
  · exact Run.isSteady_printMarkup _
  · exact Run.isSteady_forM _ fun w => Run.isSteady_printMarkup _

theorem isSteady_printSummary (b : BatchResult) : IsSteady (printSummary b) :=
  (Run.isSteady_lift _).bind fun _ => (Run.isSteady_print _).bind fun _ =>
    (Run.isSteady_print _).bind fun _ => Run.isSteady_printMarkup _

/-! ### What is written -/

section

variable {g : Generator} {s : Session} {place : Place}

theorem repeatsAt_writeArtifacts (typeScript : g.language = .typeScript) (base : PathName)
    (c : Conversion) (s : Session) : RepeatsAt (writeArtifacts g base c) s := by
  have json (directory stem middle : Text) (value : Literal) (s : Session) :
      RepeatsAt (writeFile ((base.child directory).child (stem ++ (middle ++ ".json")))
        (Output.jsonText value) "\n") s := by
    rw [← List.append_assoc]
    exact repeatsAt_writeFile (append_ne_up _ (by decide))
      (PathName.isModel_eq_false_of_json (PathName.name_child _ _)) _ _ s
  have declarations (stem code ending : Text) (s : Session) :
      RepeatsAt (writeFile ((base.child "typedefs").child (stem ++ g.language.extension))
        code ending) s := by
    rw [typeScript]
    exact repeatsAt_writeFile (append_ne_up _ (by decide))
      (PathName.isModel_eq_false_of_declarations (PathName.name_child _ _)) _ _ s
  have typed (i : Interface) (s : Session) : RepeatsAt (do
      writeFile ((base.child "json-clean").child
        ((PathName.ofText c.path).stem ++ ".clean.json")) (Output.jsonText i.report) "\n"
      let code ← Run.lift (g.formattedFile [i])
      writeFile ((base.child "typedefs").child
        ((PathName.ofText c.path).stem ++ g.language.extension)) code
          (← Run.lift (lineEnding g.settings))) s := by
    refine (json "json-clean" _ ".clean" _ s).bind fun _ t _ _ => ?_
    refine (Run.isSteady_lift _).bind_repeatsAt fun code t _ _ => ?_
    refine (Run.isSteady_lift _).bind_repeatsAt fun ending t _ _ => ?_
    exact declarations _ _ _ t
  have idle (s : Session) : RepeatsAt (pure () : Run Unit) s := (Run.isSteady_pure ()).repeatsAt s
  rw [writeArtifacts]
  dsimp only
  split
  · refine (json "json-raw" _ ".raw" _ s).bind fun _ t _ _ => ?_
    split
    · exact typed _ t
    · exact idle t
  · split
    · exact typed _ s
    · exact idle s

theorem repeatsAt_writeAllArtifacts (typeScript : g.language = .typeScript) (b : BatchResult)
    (s : Session) : RepeatsAt (writeAllArtifacts g b) s := by
  rw [writeAllArtifacts]
  split
  · refine (Run.repeatsAt_forM _ (fun directory s => Run.repeatsAt_makeDirectories _ s) s).bind
      fun _ t _ _ => ?_
    refine (Run.repeatsAt_forM _ (fun c s => repeatsAt_writeArtifacts typeScript _ c s) t).bind
      fun _ t _ _ => ?_
    exact ((Run.isSteady_logged _).bind fun _ => Run.isSteady_printMarkup _).repeatsAt t
  · exact (Run.isSteady_fail _).repeatsAt s

/-- The combined declarations of a directory go into it. -/
theorem outputPath_eq {settings : Settings} {tree : FileTree} {source : PathName}
    (unnamed : settings.outputFile = .null) (there : tree.look source = .ok (place, .directory)) :
    outputPath settings tree source = .ok (source.child "index.d.ts") := by
  rw [outputPath, unnamed, if_neg (by decide), Models.defaultOutput, FileTree.isFile,
    FileTree.probe, there]
  rfl

theorem repeatsAt_writeOutput {source : PathName} (unnamed : g.settings.outputFile = .null)
    (there : s.tree.look source = .ok (place, .directory)) (b : BatchResult) :
    RepeatsAt (writeOutput g source b) s := by
  rw [writeOutput]
  refine RepeatsAt.tree (fun grows => ?_) ?_
  · dsimp only
    rw [outputPath_eq unnamed there, outputPath_eq unnamed (grows.look there)]
  rw [outputPath_eq unnamed there]
  refine (Run.isSteady_lift _).bind_repeatsAt fun path t same ran => ?_
  cases ran
  refine (Run.isSteady_lift _).bind_repeatsAt fun ending t same' _ => ?_
  refine RepeatsAt.bind (fun idle r outcome ran _ => ?_) fun outcome t _ _ => ?_
  · -- The directory of the file is there, so the write repeats whatever comes of it.
    cases ran
    have made := FileTree.makeDirectories_eq_self (same' ▸ there)
    have name : (source.child "index.d.ts").name = Text.ofString "index" ++ Text.ofString ".d.ts" :=
      PathName.name_child _ _
    have other := PathName.isModel_eq_false_of_declarations name
    exact (repeats_writeFile (by decide) other idle made rfl).attempt
  · refine IsSteady.repeatsAt ?_ t
    split
    · exact (Run.isSteady_printMarkup _).bind fun _ => Run.isSteady_pure _
    · exact (Run.isSteady_printMarkup _).bind fun _ => Run.isSteady_pure _
    · exact Run.isSteady_fail _

/-! ### Whole runs -/

theorem repeatsAt_settle {source : Text} (unnamed : g.settings.outputFile = .null)
    (there : s.tree.look (PathName.ofText source) = .ok (place, .directory)) (b : BatchResult) :
    RepeatsAt (settle g source b) s := by
  rw [settle]
  refine (isSteady_printSummary b).bind_repeatsAt fun _ t same _ => ?_
  have printed (markup : Text) : RepeatsAt (do Run.printMarkup markup; pure 1 : Run Nat) t :=
    ((Run.isSteady_printMarkup _).bind fun _ => Run.isSteady_pure _).repeatsAt t
  split
  · exact printed _
  split
  · exact printed _
  · exact repeatsAt_writeOutput unnamed (same ▸ there) b

/-- The conversion of models in a directory repeats if they are read alike later. -/
theorem repeatsAt_convert {files : List PathName} {source : Text}
    (typeScript : g.language = .typeScript) (unnamed : g.settings.outputFile = .null)
    (there : s.tree.look (PathName.ofText source) = .ok (place, .directory))
    (read : ∀ {t}, s.tree.Grows t → ∀ path ∈ files, t.read path = s.tree.read path) :
    RepeatsAt (convert g files source) s := by
  rw [convert]
  refine (Run.isSteady_printMarkup _).bind_repeatsAt fun _ t same _ => ?_
  refine (Run.isSteady_logged _).bind_repeatsAt fun _ t same' _ => ?_
  rw [← same, ← same'] at there read
  refine RepeatsAt.tree (fun grows => ?_) ?_
  · dsimp only
    rw [Batch.run_eq (read grows)]
  refine (Run.isSteady_logged _).bind_repeatsAt fun b t same _ => ?_
  refine (Run.isSteady_forM _ isSteady_report).bind_repeatsAt fun _ t same' _ => ?_
  rw [← same, ← same'] at there
  dsimp only
  split
  · refine (repeatsAt_writeAllArtifacts typeScript b t).bind fun _ t grows _ => ?_
    exact repeatsAt_settle unnamed (grows.look there) b
  · exact repeatsAt_settle unnamed there b

/-- Without a name for the output file, the arguments say nothing about it. -/
theorem not_mem_overrides {o : Options} (output : o.output = none) :
    ("output_file" : Text) ∉ (overrides o).keys := by
  have others : ∀ key ∈ (overrides o).keys,
      key ∈ (["format_output", "debug", "on_error"] : List Text) := by
    rw [overrides, output]
    dsimp only
    split <;> split <;> split <;> simp [Entries.keys]
  exact fun mem => absurd (others _ mem) (by decide)

/-- So does the search for them. -/
theorem repeatsAt_convertSource {o : Options} {source : Text} (wellformed : s.tree.IsWellformed)
    (there : s.tree.look (PathName.ofText source) = .ok (place, .directory))
    (output : o.output = none) (settings : o.settingsFile = none) :
    RepeatsAt (convertSource o source) s := by
  rw [convertSource, settings]
  refine RepeatsAt.tree (fun grows => ?_) ?_
  · dsimp only
    rw [Models.collect_of_grows grows there]
    rfl
  refine (Run.isSteady_lift _).bind_repeatsAt fun settings t₁ same₁ ran => ?_
  have loaded := (Run.lift_eq_ok.1 ran).2
  refine (Run.isSteady_logged _).bind_repeatsAt fun files t₂ same₂ ran => ?_
  have found : files = Models.inDirectory s.tree (PathName.ofText source) place :=
    Except.ok.inj ((congrArg Prod.snd ran).symm.trans (Models.collect_eq there))
  dsimp only
  split
  · exact (Run.isSteady_fail _).bind_repeatsAt fun _ _ _ ran => by cases ran
  refine (Run.isSteady_lift _).bind_repeatsAt fun g t₃ same₃ ran => ?_
  obtain ⟨typeScript, rfl, -⟩ :=
    Generator.created_typeScript (Catalog.created_of_builtIn (Run.lift_eq_ok.1 ran).2)
  refine (Run.isSteady_logged _).bind_repeatsAt fun _ t same _ => ?_
  rw [← same₁, ← same₂, ← same₃, ← same] at there wellformed found
  refine repeatsAt_convert typeScript
    (Settings.outputFile_of_load (not_mem_overrides output) loaded) there ?_
  intro u grows path mem
  exact Models.read_of_grows grows wellformed there (found ▸ mem)

/-- Without a log file, nothing of the log is in the tree. -/
theorem isSteady_setUpLog {o : Options} (log : o.logFile = none) : IsSteady (setUpLog o) := by
  cases level : o.logLevel with
  | none =>
    have same : setUpLog o = Run.fail .wrongShape := by
      rw [setUpLog, level]
      rfl
    rw [same]
    exact Run.isSteady_fail _
  | some word =>
    have same : setUpLog o = (do
        let level ← Run.lift (levelOf word)
        Run.record .debug .setup ("Logging configured (level=" ++ Text.ofInt level
          ++ ", file=" ++ "None" ++ ")")) := by
      rw [setUpLog, level, log]
      rfl
    rw [same]
    exact (Run.isSteady_lift _).bind fun _ => Run.isSteady_logged _

theorem repeatsAt_runOptions {o : Options} {source : Text} (wellformed : s.tree.IsWellformed)
    (named : sourceOf? o = some source)
    (there : s.tree.look (PathName.ofText source) = .ok (place, .directory))
    (output : o.output = none) (settings : o.settingsFile = none) (log : o.logFile = none) :
    RepeatsAt (runOptions o) s := by
  rw [runOptions]
  refine (isSteady_setUpLog log).bind_repeatsAt fun _ t same _ => ?_
  rw [← same] at there wellformed
  rw [named, Option.getD_some]
  dsimp only
  split
  · exact ((Run.isSteady_complain _).bind fun _ => (Run.isSteady_printMarkup _).bind fun _ =>
      Run.isSteady_pure _).repeatsAt t
  refine (repeatsAt_convertSource wellformed there output settings).bind_attempt ?_ ?_
  · intro outcome t r end_ ran calm
    cases outcome with
    | ok code => trivial
    | error e =>
      cases message : endingMessage? e with
      | some _ => simp [Run.IsCalm, message]
      | none =>
        dsimp only at ran
        rw [message] at ran
        cases ran
        exact calm
  · intro outcome
    split
    · exact Run.isSteady_pure _
    · split
      · exact (Run.isSteady_printMarkup _).bind fun _ => Run.isSteady_pure _
      · exact Run.isSteady_fail _

end

/-- A run is repeated on the tree that it left: the same models are found, the exit code is the
same, and every file keeps its bytes. -/
theorem run_again {arguments : List Text} {o : Options} {source : Text} {tree : FileTree}
    {code : Nat} (wellformed : tree.IsWellformed) (asked : Request.ofArguments arguments = .run o)
    (named : sourceOf? o = some source)
    (directory : tree.isDirectory (PathName.ofText source) = .ok true)
    (output : o.output = none) (settings : o.settingsFile = none) (log : o.logFile = none)
    (ended : (run arguments tree).exit = .ok code) :
    Models.collect (run arguments tree).session.tree (PathName.ofText source) =
        Models.collect tree (PathName.ofText source) ∧
      (run arguments (run arguments tree).session.tree).exit = .ok code ∧
      ∀ path, (run arguments (run arguments tree).session.tree).session.tree.read path =
        (run arguments tree).session.tree.read path := by
  obtain ⟨place, there⟩ := FileTree.isDirectory_eq_true_iff.1 directory
  have started (t : FileTree) : run arguments t =
      ⟨(runOptions o { tree := t }).1, (runOptions o { tree := t }).2, false⟩ := by
    rw [run, asked]
    rfl
  rw [started tree] at ended ⊢
  cases ran : runOptions o { tree } with
  | mk t outcome =>
    rw [ran] at ended
    cases ended
    have h := repeatsAt_runOptions wellformed named there output settings log rfl ran trivial
    obtain ⟨u, again, trails⟩ := h.again (u := { tree := t.tree }) (.refl t.tree) ⟨rfl, .refl _ _⟩
    rw [started, again]
    exact ⟨Models.collect_of_grows h.grows there, rfl,
      FileTree.read_congr trails.follows.grows.keeps.home trails.follows.node?_eq⟩

/-- A directory with a model and the declarations of an earlier run. -/
def rerunTree : FileTree :=
  let source := (Utf8.encode? "const s = new Schema(\x7b a: String \x7d);").getD []
  ((FileTree.empty.set ["src"] .directory).set ["src", "a.js"] (.file source)).set
    ["src", "index.d.ts"] (.file [])

theorem run_again_sample :
    ∃ o, rerunTree.IsWellformed ∧ Request.ofArguments ["src", "--debug"] = .run o ∧
      sourceOf? o = some "src" ∧ rerunTree.isDirectory (PathName.ofText "src") = .ok true ∧
      o.output = none ∧ o.settingsFile = none ∧ o.logFile = none ∧
      (run ["src", "--debug"] rerunTree).exit = .ok 0 ∧
      Models.collect (run ["src", "--debug"] rerunTree).session.tree (PathName.ofText "src") =
        Models.collect rerunTree (PathName.ofText "src") ∧
      (run ["src", "--debug"] (run ["src", "--debug"] rerunTree).session.tree).exit = .ok 0 ∧
      ∀ path, (run ["src", "--debug"]
          (run ["src", "--debug"] rerunTree).session.tree).session.tree.read path =
        (run ["src", "--debug"] rerunTree).session.tree.read path := by
  have wellformed : rerunTree.IsWellformed := ⟨by decide +kernel, by decide +kernel⟩
  have asked : Request.ofArguments ["src", "--debug"] =
      .run { source := some "src", debug := true } := by decide +kernel
  have directory : rerunTree.isDirectory (PathName.ofText "src") = .ok true :=
    ok_of_toOption (by decide +kernel)
  have ended : (run ["src", "--debug"] rerunTree).exit = .ok 0 :=
    ok_of_toOption (by decide +kernel)
  exact ⟨_, wellformed, asked, rfl, directory, rfl, rfl, rfl, ended,
    run_again wellformed asked rfl directory rfl rfl rfl ended⟩

end CommandLine

end SchemaTypings
