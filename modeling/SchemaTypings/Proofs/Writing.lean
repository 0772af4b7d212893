import SchemaTypings.CommandLine.Run
import SchemaTypings.Proofs.Aborting
import SchemaTypings.Proofs.TreeChanges

/-!
What a run that converts model files leaves of the file tree. Reports and records change no file but
that of the log, intermediate results go below a directory of their own, and the combined
declarations go to one file, which is cut short if its device fails.
-/

namespace SchemaTypings

namespace Session

/-- Whether a place is that of the log file. -/
def IsLog (s : Session) (p : Place) : Prop :=
  ∃ path, s.logFile = some path ∧ s.tree.LeadsTo path p

/-- Whether a place is that of the log file, or in the directory `debug`. -/
def IsAside (debug : Option PathName) (s : Session) (p : Place) : Prop :=
  s.IsLog p ∨ ∃ path place, debug = some path ∧ s.tree.LeadsTo path place ∧ place <+: p

/-- `after` comes from `before` by records and printed things alone. -/
structure Logs (before after : Session) : Prop where
  logFile : after.logFile = before.logFile
  tree : before.tree.Keeps after.IsLog after.tree
  idle : before.logFile = none → after.tree = before.tree

/-- `after` has the files of `before`, but for the log and what is in the directory `debug`. -/
structure Keeps (debug : Option PathName) (before after : Session) : Prop where
  logFile : after.logFile = before.logFile
  tree : before.tree.Keeps (after.IsAside debug) after.tree

/-- A relation between the sessions before and after any number of steps. -/
structure IsFrame (R : Session → Session → Prop) : Prop where
  refl : ∀ s, R s s
  trans : ∀ {s t u}, R s t → R t u → R s u

variable {debug : Option PathName} {before after : Session}

theorem IsLog.mono {changed : Place → Prop} (logFile : after.logFile = before.logFile)
    (kept : before.tree.Keeps changed after.tree) {p : Place} (h : before.IsLog p) :
    after.IsLog p := by
  obtain ⟨path, named, there⟩ := h
  exact ⟨path, logFile.trans named, kept.leadsTo there⟩

theorem IsAside.mono {changed : Place → Prop} (logFile : after.logFile = before.logFile)
    (kept : before.tree.Keeps changed after.tree) {p : Place} (h : before.IsAside debug p) :
    after.IsAside debug p := by
  rcases h with h | ⟨path, place, named, there, below⟩
  · exact .inl (h.mono logFile kept)
  · exact .inr ⟨path, place, named, kept.leadsTo there, below⟩

theorem isFrame_logs : IsFrame Logs where
  refl _ := ⟨rfl, .refl _ _, fun _ => rfl⟩
  trans h h' :=
    { logFile := h'.logFile.trans h.logFile
      tree := (h.tree.mono fun _ => .mono h'.logFile h'.tree).trans h'.tree
      idle := fun idle => (h'.idle (h.logFile.trans idle)).trans (h.idle idle) }

theorem isFrame_keeps : IsFrame (Keeps debug) where
  refl _ := ⟨rfl, .refl _ _⟩
  trans h h' :=
    { logFile := h'.logFile.trans h.logFile
      tree := (h.tree.mono fun _ => .mono h'.logFile h'.tree).trans h'.tree }

theorem Logs.keeps (h : Logs before after) : Keeps debug before after :=
  ⟨h.logFile, h.tree.mono fun _ => .inl⟩

/-- Without intermediate results there is less that may change. -/
theorem Keeps.of_none (h : Keeps none before after) : Keeps debug before after := by
  refine ⟨h.logFile, h.tree.mono fun p hp => ?_⟩
  rcases hp with hp | ⟨path, place, named, -⟩
  · exact .inl hp
  · cases named

theorem logs_record (s : Session) (r : Record) : s.Logs (s.record r) := by
  obtain ⟨tree, printed, complaints, log, logFile⟩ := s
  cases logFile with
  | none => exact ⟨rfl, .refl _ _, fun _ => rfl⟩
  | some path =>
    rw [record]
    dsimp only
    split
    · exact ⟨rfl, .refl _ _, fun _ => rfl⟩
    split
    · next after appended =>
      obtain ⟨place, there, kept⟩ := FileTree.exists_of_append appended
      refine ⟨rfl, kept.mono ?_, nofun⟩
      rintro p rfl
      exact ⟨path, rfl, kept.leadsTo there⟩
    · exact ⟨rfl, .refl _ _, fun _ => rfl⟩

theorem logs_records (s : Session) (log : Log) : s.Logs (s.records log) := by
  induction log generalizing s with
  | nil => exact isFrame_logs.refl _
  | cons r rest ih => exact isFrame_logs.trans (s.logs_record r) (ih (s.record r))

end Session

namespace Run

variable {α β : Type} {R : Session → Session → Prop}

/-- A computation that comes to its end takes a session to one that `R` allows. -/
def Within (R : Session → Session → Prop) (x : Run α) : Prop :=
  ∀ s s' a, x s = (s', .ok a) → R s s'

/-- A sequence comes to its end if and only if both of its steps do. -/
theorem bind_eq_ok {x : Run α} {f : α → Run β} {s s' : Session} {b : β} :
    (x >>= f) s = (s', .ok b) ↔ ∃ t a, x s = (t, .ok a) ∧ f a t = (s', .ok b) := by
  rw [run_bind]
  constructor
  · intro h
    split at h
    · cases h
    · next t a first => exact ⟨t, a, first, h⟩
  · rintro ⟨t, a, first, h⟩
    rw [first]
    exact h

theorem lift_eq_ok {x : Except Error α} {s s' : Session} {a : α} :
    lift x s = (s', .ok a) ↔ s = s' ∧ x = .ok a := by
  rw [lift, Prod.mk.injEq]

theorem within_pure (frame : Session.IsFrame R) (a : α) : Within R (Pure.pure a : Run α) := by
  intro s s' b h
  cases h
  exact frame.refl _

theorem within_lift (frame : Session.IsFrame R) (x : Except Error α) : Within R (lift x) := by
  intro s s' a h
  rw [(lift_eq_ok.1 h).1]
  exact frame.refl _

theorem within_fail (e : Error) : Within R (fail e : Run α) := by
  intro s s' a h
  cases h

theorem within_bind (frame : Session.IsFrame R) {x : Run α} {f : α → Run β} (hx : Within R x)
    (hf : ∀ a, Within R (f a)) : Within R (x >>= f) := by
  intro s s' b h
  obtain ⟨t, a, first, second⟩ := bind_eq_ok.1 h
  exact frame.trans (hx _ _ _ first) (hf a _ _ _ second)

theorem within_forM (frame : Session.IsFrame R) (l : List α) {f : α → Run Unit}
    (hf : ∀ a, Within R (f a)) : Within R (l.forM f) := by
  induction l with
  | nil => exact within_pure frame _
  | cons a l ih => exact within_bind frame (hf a) fun _ => ih

theorem Within.keeps {x : Run α} {debug : Option PathName} (h : Within Session.Logs x) :
    Within (Session.Keeps debug) x :=
  fun _ _ _ ran => (h _ _ _ ran).keeps

/-! ### Reports and records -/

theorem logs_logged (x : Logged Error α) : Within Session.Logs (logged x) := by
  intro s s' a h
  obtain ⟨rfl, -⟩ := Prod.mk.inj h
  exact s.logs_records x.log

theorem logs_print (p : Printed) : Within Session.Logs (print p) := by
  intro s s' a h
  cases h
  exact ⟨rfl, .refl _ _, fun _ => rfl⟩

theorem logs_printMarkup (markup : Text) : Within Session.Logs (printMarkup markup) :=
  within_bind Session.isFrame_logs (within_lift Session.isFrame_logs _) fun _ => logs_print _

end Run

namespace CommandLine

open Session (isFrame_logs isFrame_keeps)

theorem logs_report (c : Conversion) : Run.Within Session.Logs (report c) := by
  rw [report]
  split
  · refine Run.within_bind isFrame_logs (Run.logs_printMarkup _) fun _ => ?_
    split
    · exact Run.logs_print _
    · exact Run.within_pure isFrame_logs _
  · exact Run.logs_printMarkup _
  · exact Run.within_forM isFrame_logs _ fun w => Run.logs_printMarkup _

theorem logs_printSummary (b : BatchResult) : Run.Within Session.Logs (printSummary b) := by
  rw [printSummary]
  refine Run.within_bind isFrame_logs (Run.within_lift isFrame_logs _) fun rows => ?_
  refine Run.within_bind isFrame_logs (Run.logs_print _) fun _ => ?_
  exact Run.within_bind isFrame_logs (Run.logs_print _) fun _ => Run.logs_printMarkup _

/-! ### One file -/

/-- `after` comes from `before` by opening the file at `path`, which is at `place` and then holds the
bytes `held`, if it is not the log file too. -/
structure IsWritten (path : PathName) (place : Place) (held : List Byte) (before after : Session) :
    Prop where
  there : after.tree.LeadsTo path place
  file : ¬after.IsLog place → after.tree.file? place = some held
  logFile : after.logFile = before.logFile
  kept : before.tree.Keeps (fun p => p = place ∨ after.IsLog p) after.tree

section

variable {path : PathName} {place : Place} {held : List Byte} {text ending : Text} {s s' : Session}

/-- What is printed and recorded afterwards takes nothing back. -/
theorem IsWritten.logs {t : Session} (h : IsWritten path place held s t) (logs : t.Logs s') :
    IsWritten path place held s s' where
  there := logs.tree.leadsTo h.there
  file apart := by
    rw [logs.tree.file place apart]
    exact h.file fun log => apart (log.mono logs.logFile logs.tree)
  logFile := logs.logFile.trans h.logFile
  kept := (h.kept.mono fun _ => .imp_right (.mono logs.logFile logs.tree)).trans
    (logs.tree.mono fun _ => .inr)

theorem IsWritten.of_opens {tree : FileTree} (opens : Output.Opens s.tree path place held tree)
    (logs : Session.Logs { s with tree } s') : IsWritten path place held s s' :=
  have alone : IsWritten path place held s { s with tree } :=
    ⟨opens.there, fun _ => opens.file, rfl, opens.kept.mono fun _ => .inl⟩
  alone.logs logs

/-- What a session is after a write, and what became of the write. -/
inductive Writes (path : PathName) (text ending : Text) (s s' : Session) : Except Error Unit → Prop
  /-- The file cannot be opened, and no file changes. -/
  | refused {e : Error} (kept : s.Keeps none s') : Writes path text ending s s' (.error e)
  /-- The text cannot be encoded. -/
  | emptied {e : Error} (own : ∀ f, e ≠ .system f) : Writes path text ending s s' (.error e)
  /-- The device fails, and the file holds what it stored. -/
  | broken {place : Place} {bytes : List Byte} {f : Failure}
    (encoded : Utf8.encode? (Output.written text ending) = some bytes)
    (fails : s.tree.device place bytes = some f)
    (wrote : IsWritten path place (bytes.take f.stored) s s') :
    Writes path text ending s s' (.error (.system f.error))
  /-- The file holds the encoded text. -/
  | whole {place : Place} {bytes : List Byte}
    (encoded : Utf8.encode? (Output.written text ending) = some bytes)
    (sound : s.tree.device place bytes = none) (wrote : IsWritten path place bytes s s') :
    Writes path text ending s s' (.ok ())

/-- A write is followed by its records. -/
theorem writes_writeFile (path : PathName) (text ending : Text) (s : Session) :
    Writes path text ending s (writeFile path text ending s).1
      (writeFile path text ending s).2 := by
  have logs := Session.logs_records { s with tree := (Output.write s.tree path text ending).tree }
    (Output.write s.tree path text ending).outcome.log
  have writes := Output.writes s.tree path text ending
  rw [writeFile, Run.effect]
  dsimp only
  generalize (Output.write s.tree path text ending).outcome.outcome = outcome at writes ⊢
  cases writes with
  | refused kept =>
    exact .refused ⟨logs.logFile, (kept.mono nofun).trans (logs.tree.mono fun _ => .inl)⟩
  | emptied _ own => exact .emptied own
  | broken encoded fails opens => exact .broken encoded fails (.of_opens opens logs)
  | whole encoded sound opens => exact .whole encoded sound (.of_opens opens logs)

theorem isWritten_of_writeFile {a : Unit} (ran : writeFile path text ending s = (s', .ok a)) :
    ∃ place held, IsWritten path place held s s' := by
  have writes := writes_writeFile path text ending s
  rw [ran] at writes
  cases writes with
  | whole _ _ wrote => exact ⟨_, _, wrote⟩

end

/-! ### Intermediate results -/

/-- A step up is no name of a file with an extension. -/
theorem append_ne_up (stem : Text) {suffix : Text} (long : 2 < suffix.length) :
    stem ++ suffix ≠ (".." : Text) := by
  intro same
  have short := congrArg List.length same
  rw [List.length_append] at short
  have two : (".." : Text).length = 2 := rfl
  omega

/-- A file of intermediate results is below their directory. -/
theorem keeps_writeFile {base : PathName} {directory name : Text} (hd : directory ≠ "..")
    (hn : name ≠ "..") (text ending : Text) :
    Run.Within (Session.Keeps (some base))
      (writeFile ((base.child directory).child name) text ending) := by
  intro s s' a ran
  obtain ⟨place, held, w⟩ := isWritten_of_writeFile ran
  refine ⟨w.logFile, w.kept.mono ?_⟩
  rintro p (rfl | log)
  · obtain ⟨above, there, rfl⟩ := w.there.of_child hn
    obtain ⟨top, under, rfl⟩ := there.of_child hd
    exact .inr ⟨base, top, rfl, under, by simp⟩
  · exact .inl log

theorem keeps_change_makeDirectories (debug : Option PathName) (path : PathName) :
    Run.Within (Session.Keeps debug) (Run.change fun tree => tree.makeDirectories path) := by
  intro s s' a h
  obtain ⟨rfl, -⟩ := Prod.mk.inj h
  exact ⟨rfl, (s.tree.keeps_makeDirectories path).mono nofun⟩

theorem keeps_writeArtifacts (g : Generator) (base : PathName) (c : Conversion) :
    Run.Within (Session.Keeps (some base)) (writeArtifacts g base c) := by
  have extension : 2 < g.language.extension.length := by cases g.language <;> decide
  have typed (i : Interface) : Run.Within (Session.Keeps (some base)) (do
      writeFile ((base.child "json-clean").child
        ((PathName.ofText c.path).stem ++ ".clean.json")) (Output.jsonText i.report) "\n"
      let code ← Run.lift (g.formattedFile [i])
      writeFile ((base.child "typedefs").child
        ((PathName.ofText c.path).stem ++ g.language.extension)) code
          (← Run.lift (lineEnding g.settings))) := by
    refine Run.within_bind isFrame_keeps
      (keeps_writeFile (by decide) (append_ne_up _ (by decide)) _ _) fun _ => ?_
    refine Run.within_bind isFrame_keeps (Run.within_lift isFrame_keeps _) fun code => ?_
    refine Run.within_bind isFrame_keeps (Run.within_lift isFrame_keeps _) fun ending => ?_
    exact keeps_writeFile (by decide) (append_ne_up _ extension) _ _
  rw [writeArtifacts]
  dsimp only
  split
  · refine Run.within_bind isFrame_keeps
      (keeps_writeFile (by decide) (append_ne_up _ (by decide)) _ _) fun _ => ?_
    split
    · exact typed _
    · exact Run.within_pure isFrame_keeps _
  · split
    · exact typed _
    · exact Run.within_pure isFrame_keeps _

/-- The directory of intermediate results, if settings ask for them. -/
def debugPath? (s : Settings) : Option PathName :=
  if s.debug.isTruthy then s.debugDir.text?.map PathName.ofText else none

theorem keeps_writeAllArtifacts (g : Generator) (asked : g.settings.debug.isTruthy = true)
    (b : BatchResult) :
    Run.Within (Session.Keeps (debugPath? g.settings)) (writeAllArtifacts g b) := by
  rw [debugPath?, if_pos asked, writeAllArtifacts]
  split
  · next name text =>
    rw [text]
    refine Run.within_bind isFrame_keeps (Run.within_forM isFrame_keeps _ fun directory =>
      keeps_change_makeDirectories _ _) fun _ => ?_
    refine Run.within_bind isFrame_keeps
      (Run.within_forM isFrame_keeps _ (keeps_writeArtifacts g _)) fun _ => ?_
    refine Run.within_bind isFrame_keeps (Run.logs_logged _).keeps fun _ => ?_
    exact (Run.logs_printMarkup _).keeps
  · exact Run.within_fail _

/-! ### The combined declarations -/

/-- How a run ends that converted the batch `b`: with the session `s'`, and with its combined
declarations written or not. -/
inductive Ends (g : Generator) (source : PathName) (b : BatchResult) (s s' : Session) : Bool → Prop
  /-- There is nothing to write, and no file changes but intermediate results. -/
  | nothing (failed : b.succeeded = false) (kept : s.Keeps (debugPath? g.settings) s') :
    Ends g source b s s' false
  /-- The combined declarations are in the output file, the only other one that changes. -/
  | written {t : Session} {path : PathName} {ending : Text} {place : Place} {bytes : List Byte}
    (succeeded : b.succeeded = true) (before : s.Keeps (debugPath? g.settings) t)
    (named : outputPath g.settings t.tree source = .ok path)
    (ended : g.settings.lineEnding = .text ending)
    (encoded : Utf8.encode? (Output.written b.code ending) = some bytes)
    (sound : t.tree.device place bytes = none) (wrote : IsWritten path place bytes t s')
    (kept : s.tree.Keeps (fun p => p = place ∨ s'.IsAside (debugPath? g.settings) p) s'.tree) :
    Ends g source b s s' true
  /-- The device fails once the output file is open, and the file, again the only other one that
  changes, has what was stored of the combined declarations. -/
  | broken {t : Session} {path : PathName} {ending : Text} {place : Place} {bytes : List Byte}
    {f : Failure} (succeeded : b.succeeded = true) (before : s.Keeps (debugPath? g.settings) t)
    (named : outputPath g.settings t.tree source = .ok path)
    (ended : g.settings.lineEnding = .text ending)
    (encoded : Utf8.encode? (Output.written b.code ending) = some bytes)
    (fails : t.tree.device place bytes = some f)
    (wrote : IsWritten path place (bytes.take f.stored) t s')
    (kept : s.tree.Keeps (fun p => p = place ∨ s'.IsAside (debugPath? g.settings) p) s'.tree) :
    Ends g source b s s' false
  /-- The file system refuses the output file, and no file changes but intermediate results. -/
  | refused {t : Session} {path : PathName} {ending : Text} {e : SystemError}
    (succeeded : b.succeeded = true) (before : s.Keeps (debugPath? g.settings) t)
    (named : outputPath g.settings t.tree source = .ok path)
    (ended : g.settings.lineEnding = .text ending)
    (error : (Output.write t.tree path b.code ending).outcome.outcome = .error (.system e))
    (kept : s.Keeps (debugPath? g.settings) s') : Ends g source b s s' false

/-- The exit code of a run: none of the files failed and the declarations were written, or not. -/
def exitCode (b : BatchResult) (wrote : Bool) : Nat := if wrote && b.failed.isEmpty then 0 else 1

theorem text_of_lineEnding {settings : Settings} {ending : Text}
    (h : lineEnding settings = .ok ending) : settings.lineEnding = .text ending := by
  rw [lineEnding] at h
  split at h
  · next text =>
    cases h
    exact text
  · cases h

/-- The last step of a run that has something to write. -/
theorem ends_writeOutput {g : Generator} {source : PathName} {b : BatchResult} {s t s' : Session}
    {code : Nat} (succeeded : b.succeeded = true) (before : s.Keeps (debugPath? g.settings) t)
    (ran : writeOutput g source b t = (s', .ok code)) :
    ∃ wrote, Ends g source b s s' wrote ∧ code = exitCode b wrote := by
  rw [writeOutput] at ran
  obtain ⟨_, _, here, ran⟩ := Run.bind_eq_ok.1 ran
  cases here
  obtain ⟨_, path, lifted, ran⟩ := Run.bind_eq_ok.1 ran
  obtain ⟨rfl, named⟩ := Run.lift_eq_ok.1 lifted
  obtain ⟨_, ending, lifted, ran⟩ := Run.bind_eq_ok.1 ran
  obtain ⟨rfl, ended⟩ := Run.lift_eq_ok.1 lifted
  have ended' := text_of_lineEnding ended
  obtain ⟨u, outcome, wrote, ran⟩ := Run.bind_eq_ok.1 ran
  obtain ⟨rfl, same⟩ := Prod.mk.inj wrote
  cases same
  have changes {place : Place} {held : List Byte} (wrote : IsWritten path place held t s') :
      s.tree.Keeps (fun p => p = place ∨ s'.IsAside (debugPath? g.settings) p) s'.tree := by
    have step := wrote.kept.mono fun p =>
      Or.imp_right (Or.inl : _ → s'.IsAside (debugPath? g.settings) p)
    exact (before.tree.mono fun _ aside => .inr (aside.mono wrote.logFile step)).trans step
  have error {e : SystemError} (h : (writeFile path b.code ending t).2 = .error (.system e)) :
      (Output.write t.tree path b.code ending).outcome.outcome = .error (.system e) := h
  have writes := writes_writeFile path b.code ending t
  generalize (writeFile path b.code ending t).1 = u at ran writes
  generalize (writeFile path b.code ending t).2 = outcome at ran writes error
  cases writes with
  | whole encoded sound wrote =>
    obtain ⟨_, _, printed, ran⟩ := Run.bind_eq_ok.1 ran
    cases ran
    replace wrote := wrote.logs (Run.logs_printMarkup _ _ _ _ printed)
    exact ⟨true, .written succeeded before named ended' encoded sound wrote (changes wrote),
      by simp [exitCode]⟩
  | broken encoded fails wrote =>
    obtain ⟨_, _, printed, ran⟩ := Run.bind_eq_ok.1 ran
    cases ran
    replace wrote := wrote.logs (Run.logs_printMarkup _ _ _ _ printed)
    exact ⟨false, .broken succeeded before named ended' encoded fails wrote (changes wrote),
      by simp [exitCode]⟩
  | @emptied e own =>
    cases e with
    | system f => exact absurd rfl (own f)
    | _ => cases ran
  | @refused e kept =>
    cases e with
    | system e =>
      obtain ⟨_, _, printed, ran⟩ := Run.bind_eq_ok.1 ran
      cases ran
      have kept : t.Keeps (debugPath? g.settings) s' :=
        isFrame_keeps.trans kept.of_none (Run.logs_printMarkup _ _ _ _ printed).keeps
      exact ⟨false, .refused succeeded before named ended' (error rfl)
        (isFrame_keeps.trans before kept), by simp [exitCode]⟩
    | _ => cases ran

/-- The end of a run that has converted the batch `b`. -/
def settle (g : Generator) (source : Text) (b : BatchResult) : Run Nat := do
  printSummary b
  if b.aborted then do
    let path := (b.failed.getLast?.map (·.path)).getD []
    Run.printMarkup (Markup.styled "red" "✗ Aborted:" ++ " " ++ Markup.escape path
      ++ " could not be converted, no output written")
    pure 1
  else if !b.succeeded then do
    let message := (b.generation.bind Generation.message?).getD "unknown error"
    Run.printMarkup (Markup.styled "red" "✗ Code generation failed:" ++ " "
      ++ Markup.escape message)
    pure 1
  else writeOutput g (PathName.ofText source) b

theorem ends_settle {g : Generator} {source : Text} {b : BatchResult} {s t s' : Session}
    {code : Nat} (before : s.Keeps (debugPath? g.settings) t)
    (ran : settle g source b t = (s', .ok code)) :
    ∃ wrote, Ends g (PathName.ofText source) b s s' wrote ∧ code = exitCode b wrote := by
  have printed {markup : Text} {u : Session} (before : s.Keeps (debugPath? g.settings) u)
      (none : b.succeeded = false)
      (ran : (do Run.printMarkup markup; pure 1 : Run Nat) u = (s', .ok code)) :
      ∃ wrote, Ends g (PathName.ofText source) b s s' wrote ∧ code = exitCode b wrote := by
    obtain ⟨v, _, printed, ran⟩ := Run.bind_eq_ok.1 ran
    cases ran
    have kept := isFrame_keeps.trans before (Run.logs_printMarkup _ _ _ _ printed).keeps
    exact ⟨false, .nothing none kept, rfl⟩
  rw [settle] at ran
  obtain ⟨u, _, summary, ran⟩ := Run.bind_eq_ok.1 ran
  replace before := isFrame_keeps.trans before (logs_printSummary _ _ _ _ summary).keeps
  split at ran
  · next aborted => exact printed before (by simp [BatchResult.succeeded, aborted]) ran
  split at ran
  · next failed => exact printed before (by simpa using failed) ran
  · next succeeded => exact ends_writeOutput (by simpa using succeeded) before ran

/-- How a run that converts model files ends, whatever the tree, the files and the settings are with
which it comes to an end. -/
theorem exists_ends {g : Generator} {files : List PathName} {source : Text} {s s' : Session}
    {code : Nat} (ran : convert g files source s = (s', .ok code)) :
    ∃ start b wrote, s.Logs start ∧ (Batch.run g start.tree files).outcome = .ok b ∧
      Ends g (PathName.ofText source) b s s' wrote ∧ code = exitCode b wrote := by
  rw [convert] at ran
  obtain ⟨s₁, _, printed, ran⟩ := Run.bind_eq_ok.1 ran
  obtain ⟨start, _, noted, ran⟩ := Run.bind_eq_ok.1 ran
  obtain ⟨_, _, here, ran⟩ := Run.bind_eq_ok.1 ran
  cases here
  obtain ⟨s₂, b, batch, ran⟩ := Run.bind_eq_ok.1 ran
  obtain ⟨s₃, _, reported, ran⟩ := Run.bind_eq_ok.1 ran
  have started : s.Logs start :=
    isFrame_logs.trans (Run.logs_printMarkup _ _ _ _ printed) (Run.logs_logged _ _ _ _ noted)
  have converted : s.Logs s₃ := isFrame_logs.trans started <|
    isFrame_logs.trans (Run.logs_logged _ _ _ _ batch)
      (Run.within_forM isFrame_logs _ logs_report _ _ _ reported)
  suffices h : ∃ wrote, Ends g (PathName.ofText source) b s s' wrote ∧ code = exitCode b wrote by
    obtain ⟨wrote, ends, eq⟩ := h
    exact ⟨start, b, wrote, started, congrArg Prod.snd batch, ends, eq⟩
  dsimp only at ran
  split at ran
  · next asked =>
    obtain ⟨s₄, _, artifacts, ran⟩ := Run.bind_eq_ok.1 ran
    have kept := keeps_writeAllArtifacts g asked b _ _ _ artifacts
    exact ends_settle (isFrame_keeps.trans converted.keeps kept) ran
  · exact ends_settle converted.keeps ran

/-- A session on a tree with three files. -/
def sampleSession : Session := { tree := Batch.brokenTree }

theorem exists_ends_sample :
    ∃ s', convert .standard [PathName.ofText "a.js"] "a.js" sampleSession = (s', .ok 0) ∧
      ∃ start b wrote, sampleSession.Logs start ∧
        (Batch.run .standard start.tree [PathName.ofText "a.js"]).outcome = .ok b ∧
        Ends .standard (PathName.ofText "a.js") b sampleSession s' wrote ∧
        0 = exitCode b wrote := by
  have ran : (convert .standard [PathName.ofText "a.js"] "a.js" sampleSession).2.toOption =
      some 0 := by decide +kernel
  have ended := ok_of_toOption ran
  exact ⟨_, Prod.ext rfl ended, exists_ends (Prod.ext rfl ended)⟩

/-- The place of the combined declarations of a model in the current directory. -/
def samplePlace : Place := ["index.d.ts"]

/-- A file without a declaration, and the declarations of an earlier run. -/
def rerunSample : FileTree :=
  (FileTree.empty.set ["a.js"] (.file [])).set samplePlace (.file [0x3B])

/-- A log file that is empty so far. -/
def loggedSession : Session where
  tree := rerunSample.set ["run.log"] (.file [])
  logFile := some (PathName.ofText "run.log")

/-- A device that has no space for the declarations. -/
def fullSession : Session where
  tree := { rerunSample with device := fun _ _ => some ⟨0, .noSpace⟩ }

/-- Whether a run comes to an end that passes a test. -/
def endsWith (ended : Session × Except Error Nat) (test : Session → Nat → Bool) : Bool :=
  match ended with
  | (s, .ok code) => test s code
  | _ => false

theorem exists_of_endsWith {ended : Session × Except Error Nat} {test : Session → Nat → Bool}
    (h : endsWith ended test = true) : ∃ s code, ended = (s, .ok code) ∧ test s code = true := by
  obtain ⟨s, outcome⟩ := ended
  cases outcome with
  | ok code => exact ⟨s, code, rfl, h⟩
  | error e => cases h

/-- A run changes its log file too, and a write that fails may have emptied the output file. -/
theorem exists_changed_file :
    (∃ s', convert .standard [PathName.ofText "a.js"] "a.js" loggedSession = (s', .ok 0) ∧
      debugPath? Generator.standard.settings = none ∧
      outputPath Generator.standard.settings loggedSession.tree (PathName.ofText "a.js") =
        .ok (PathName.ofText "index.d.ts") ∧
      loggedSession.tree.resolve (PathName.ofText "index.d.ts") = .ok samplePlace ∧
      ∃ place, place ≠ samplePlace ∧ s'.tree.file? place ≠ loggedSession.tree.file? place) ∧
      ∃ s', convert .standard [PathName.ofText "a.js"] "a.js" fullSession = (s', .ok 1) ∧
        s'.tree.file? samplePlace = some [] ∧
        s'.tree.file? samplePlace ≠ fullSession.tree.file? samplePlace := by
  obtain ⟨s, code, logged, test⟩ :=
    @exists_of_endsWith (convert .standard [PathName.ofText "a.js"] "a.js" loggedSession)
      (fun s code => decide (code = 0 ∧ s.tree.file? ["run.log"] ≠ some [])) (by decide +kernel)
  obtain ⟨t, code', full, test'⟩ :=
    @exists_of_endsWith (convert .standard [PathName.ofText "a.js"] "a.js" fullSession)
      (fun s code => decide (code = 1 ∧ s.tree.file? samplePlace = some [])) (by decide +kernel)
  obtain ⟨rfl, changed⟩ := of_decide_eq_true test
  obtain ⟨rfl, emptied⟩ := of_decide_eq_true test'
  refine ⟨⟨s, logged, rfl, ok_of_toOption (by decide +kernel), ok_of_toOption (by decide +kernel),
    ["run.log"], by decide, changed⟩, t, full, emptied, ?_⟩
  rw [emptied]
  decide

end CommandLine

end SchemaTypings
