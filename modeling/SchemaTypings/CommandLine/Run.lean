import SchemaTypings.Catalog
import SchemaTypings.CommandLine.Arguments
import SchemaTypings.CommandLine.Help
import SchemaTypings.CommandLine.Report

/-!
The program: from its arguments and a file tree to an exit code and the file tree after it.
-/

namespace SchemaTypings

namespace CommandLine

/-- Leaves a record about the command line. -/
def note (level : Level) (message : Text) : Run Unit := Run.record level .commandLine message

/-- Writes text to a file, each line feed as `ending`. -/
def writeFile (path : PathName) (text ending : Text) : Run Unit :=
  Run.effect fun tree => Output.write tree path text ending

/-- The line ending of written declarations. -/
def lineEnding (s : Settings) : Except Error Text :=
  match s.lineEnding with
  | .text ending => .ok ending
  | _ => .error .wrongShape

/-- Writes the intermediate results of one file below the directory `base`. -/
def writeArtifacts (g : Generator) (base : PathName) (c : Conversion) : Run Unit := do
  let stem := (PathName.ofText c.path).stem
  let place (directory suffix : Text) : PathName := (base.child directory).child (stem ++ suffix)
  match c.tree with
  | some tree => writeFile (place "json-raw" ".raw.json") (Output.jsonText tree.report) "\n"
  | none => pure ()
  match c.model with
  | some model => do
    writeFile (place "json-clean" ".clean.json") (Output.jsonText model.report) "\n"
    let code ← Run.lift (g.formattedFile [model])
    writeFile (place "typedefs" g.language.extension) code (← Run.lift (lineEnding g.settings))
  | none => pure ()

/-- Writes the intermediate results of a batch. -/
def writeAllArtifacts (g : Generator) (b : BatchResult) : Run Unit := do
  match g.settings.debugDir with
  | .text name => do
    let base := PathName.ofText name
    Output.debugDirectories.forM fun directory =>
      Run.change fun tree => tree.makeDirectories (base.child directory)
    b.conversions.forM (writeArtifacts g base)
    note .info ("Debug artifacts written to " ++ name)
    Run.printMarkup (Markup.styled "dim" ("Debug artifacts written to " ++ Markup.escape name))
  | _ => Run.fail .wrongShape

/-- Where the combined declarations go. -/
def outputPath (s : Settings) (tree : FileTree) (source : PathName) : Except Error PathName :=
  if s.outputFile.isTruthy then
    match s.outputFile with
    | .text name => .ok (PathName.ofText name)
    | _ => .error .wrongShape
  else Models.defaultOutput tree source

/-- Writes the combined declarations of a batch and tells the exit code. -/
def writeOutput (g : Generator) (source : PathName) (b : BatchResult) : Run Nat := do
  let path ← Run.lift (outputPath g.settings (← Run.tree) source)
  let shown := Markup.escape path.toText
  match ← (writeFile path b.code (← Run.lift (lineEnding g.settings))).attempt with
  | .ok () => do
    Run.printMarkup (Markup.styled "green" "✓" ++ " Type definitions written to "
      ++ Markup.styled "cyan" shown)
    pure (if b.failed.isEmpty then 0 else 1)
  | .error (.system e) => do
    Run.printMarkup (Markup.styled "red" ("✗ Failed to write to " ++ shown ++ ":") ++ " "
      ++ Markup.escape e.message)
    pure 1
  | .error e => Run.fail e

/-- Converts model files and writes the combined declarations; tells the exit code. -/
def convert (g : Generator) (files : List PathName) (source : Text) : Run Nat := do
  Run.printMarkup ("📄 Converting " ++ Text.ofNat files.length ++ " model file(s) from "
    ++ Markup.escape source)
  note .info ("Starting batch of " ++ Text.ofNat files.length ++ " file(s)")
  let tree ← Run.tree
  let batch ← Run.logged (Batch.run g tree files)
  batch.conversions.forM report
  if g.settings.debug.isTruthy then writeAllArtifacts g batch
  printSummary batch
  if batch.aborted then do
    let path := (batch.failed.getLast?.map (·.path)).getD []
    Run.printMarkup (Markup.styled "red" "✗ Aborted:" ++ " " ++ Markup.escape path
      ++ " could not be converted, no output written")
    pure 1
  else if !batch.succeeded then do
    let message := (batch.generation.bind Generation.message?).getD "unknown error"
    Run.printMarkup (Markup.styled "red" "✗ Code generation failed:" ++ " "
      ++ Markup.escape message)
    pure 1
  else writeOutput g (PathName.ofText source) batch

/-- The settings that the arguments give over those of a file. -/
def overrides (o : Options) : Entries Literal :=
  let output : Entries Literal :=
    match o.output with
    | some name => if name.isEmpty then [] else [("output_file", .text name)]
    | none => []
  let format : Entries Literal := if o.unformatted then [("format_output", .bool false)] else []
  let debug : Entries Literal := if o.debug then [("debug", .bool true)] else []
  let policy : Entries Literal :=
    match o.errorPolicy with
    | some word => [("on_error", .text word)]
    | none => []
  output ++ format ++ debug ++ policy

/-- Finds the model files of a source and converts them. -/
def convertSource (o : Options) (source : Text) : Run Nat := do
  let tree ← Run.tree
  let settings ← Run.lift (Settings.load tree "typescript" (overrides o) o.settingsFile)
  let files ← Run.logged (Models.collect tree (PathName.ofText source))
  if files.isEmpty then Run.fail (.noModels source)
  let g ← Run.lift (Catalog.builtIn.create tree "typescript" (.settings settings))
  note .debug "CLIHandler initialized"
  convert g files source

/-- The text of an error that a run ends with in good order; other errors are passed on. -/
def endingMessage? (e : Error) : Option Text :=
  match e with
  | .settings m => some ("Configuration error: " ++ m)
  | .missingSource _ | .noModels _ | .catalog _ => e.message?
  | .system ⟨.notFound, _⟩ => e.message?
  | _ => none

/-- Sets up the log as the arguments ask, which must name a level. -/
def setUpLog (o : Options) : Run Unit := do
  let tree ← Run.tree
  match o.logLevel with
  | none => Run.fail .wrongShape
  | some word => do
    let level ← Run.lift (levelOf word)
    let name := o.logFile.getD []
    if !name.isEmpty then Run.keepLog (tree.absolute (PathName.ofText name))
    Run.record .debug .setup ("Logging configured (level=" ++ Text.ofInt level
      ++ ", file=" ++ o.logFile.getD "None" ++ ")")

/-- The source that the arguments name: the switch counts before the plain argument. -/
def sourceOf? (o : Options) : Option Text :=
  match o.sourceSwitch with
  | some source => if source.isEmpty then o.source else some source
  | none => o.source

/-- Does what the options ask for and tells the exit code. -/
def runOptions (o : Options) : Run Nat := do
  setUpLog o
  let source := (sourceOf? o).getD []
  if source.isEmpty then do
    Run.complain usage
    Run.printMarkup (errorMark ++ "no source given, pass a model file or directory")
    pure 1
  else
    match ← (convertSource o source).attempt with
    | .ok code => pure code
    | .error e =>
      match endingMessage? e with
      | some message => do
        Run.printMarkup (errorMark ++ message)
        pure 1
      | none => Run.fail e

/-- How a run ends. -/
structure Finish where
  session : Session
  exit : Except Error Nat
  /-- Whether the arguments alone ended the run. -/
  atArguments : Bool

/-- What remains of a computation on a file tree. -/
def finish (x : Run Nat) (tree : FileTree) (atArguments : Bool) : Finish :=
  let (session, exit) := x { tree }
  ⟨session, exit, atArguments⟩

/-- The program with its arguments on a file tree. -/
def run (arguments : List Text) (tree : FileTree) : Finish :=
  match Request.ofArguments arguments with
  | .run options => finish (runOptions options) tree false
  | .help => finish (do Run.print (.line helpText); pure 0) tree true
  | .version => finish (do Run.print (.line versionText); pure 0) tree true
  | .refused problem =>
    finish (do
      Run.complain usage
      Run.complain (programName ++ ": error: " ++ problem)
      pure 2) tree true

end CommandLine

end SchemaTypings
