import SchemaTypings.Catalog
import SchemaTypings.Declaration.Extract
import SchemaTypings.Declaration.Reader
import SchemaTypings.Field.Materialize
import SchemaTypings.Files.Models

/-!
Conversions: of one source, and of a batch of model files. References need the names of all schemas
of a run, so a batch first collects the names and then converts file after file.
-/

namespace SchemaTypings

/-- How the conversion of a file ends. -/
inductive Status
  | converted
  | noDeclaration
  | empty
  | malformed
  | unreadable
deriving DecidableEq, Repr

/-- The name of a status. -/
def Status.label : Status → Text
  | .converted => "converted"
  | .noDeclaration => "no_declaration"
  | .empty => "empty"
  | .malformed => "malformed"
  | .unreadable => "unreadable"

/-- The statuses in order. -/
def Status.all : List Status := [.converted, .noDeclaration, .empty, .malformed, .unreadable]

/-- Whether a file with the status failed. -/
def Status.isFailure (s : Status) : Bool := s = .malformed || s = .unreadable

/-- What came of one file. -/
structure Conversion where
  path : Text
  status : Status
  interfaceName : Option Text := none
  code : Text := []
  sourceText : Option Text := none
  normalized : Option Text := none
  tree : Option FieldTree := none
  model : Option Interface := none
  warnings : List Text := []
  problem : Option Text := none

/-- What came of a batch, file by file. -/
structure BatchResult where
  conversions : List Conversion
  names : InterfaceNames
  generation : Option Generation := none
  aborted : Bool := false

namespace Batch

/-- Leaves a record about the batch. -/
def note (level : Level) (message : Text) : Logged Error Unit := Logged.record level .batch message

/-- The names of the files at the given paths, put behind the names `known`; of files with one base
name the first counts. -/
def collectNames (g : Generator) (known : Entries Text) : List Text → Logged Error (Entries Text)
  | [] => pure known
  | path :: rest => do
    let base := (PathName.ofText path).baseName
    if known.has base then do
      note .warning ("Schema name '" ++ base ++ "' of " ++ path ++ " is already taken, ignoring")
      collectNames g known rest
    else do
      let name ← g.interfaceName base
      collectNames g (known ++ [(base, name)]) rest

/-- The interface names of a run over the files at the given paths. -/
def namesOf (g : Generator) (paths : List Text) : Logged Error InterfaceNames := do
  let entries ← collectNames g [] paths
  note .debug ("Registered " ++ Text.ofNat entries.length ++ " schema name(s)")
  pure ⟨entries⟩

/-- The canonical text and the field tree of a declaration. The text is there even if it has no
tree. -/
def readTree (text path : Text) : Logged ReadError (Text × Except ReadError FieldTree) := do
  let normalized ← Declaration.normalize text
  let tree ← (FieldTree.materialize normalized (some path)).attempt
  pure (normalized, tree)

/-- A declaration that cannot be read. -/
def refused (path : Text) (d : Declaration) (normalized : Option Text) (e : ReadError) :
    Logged Error Conversion :=
  match e with
  | .malformed m => do
    let located := match m.path with
      | some p => if p.isEmpty then m.withPath path else m
      | none => m.withPath path
    let text := match normalized with
      | some t => if t.isEmpty then d.text else t
      | none => d.text
    note .error ("Malformed schema declaration: " ++ located.described ++ "\n" ++ text)
    pure { path, status := .malformed, sourceText := some d.text, normalized,
           problem := some located.described }
  | e => Logged.fail (.read e)

/-- A declaration with its field tree. -/
def finish (g : Generator) (known : InterfaceNames) (path : Text) (d : Declaration)
    (normalized : Text) (tree : FieldTree) : Logged Error Conversion := do
  let base := (PathName.ofText path).baseName
  let name ← match known.resolve? base with
    | some name => if name.isEmpty then g.interfaceName base else Logged.pure name
    | none => g.interfaceName base
  if tree.isEmpty then do
    note .info ("Schema in " ++ path ++ " has no convertible fields, skipping")
    pure { path, status := .empty, interfaceName := some name, sourceText := some d.text,
           normalized := some normalized, tree := some tree,
           warnings := Generator.treeWarnings name tree }
  else do
    let model ← g.model name tree known
    let warnings := Generator.treeWarnings name tree ++ g.modelWarnings model
    Logged.records (warnings.map fun w => ⟨.warning, .batch, path ++ ": " ++ w⟩)
    let code ← g.single model
    pure { path, status := .converted, interfaceName := some name, code,
           sourceText := some d.text, normalized := some normalized, tree := some tree,
           model := some model, warnings }

/-- The conversion of the first schema declaration of a source. -/
def convert (g : Generator) (known : InterfaceNames) (source path : Text) :
    Logged Error Conversion := do
  match ← (Declaration.extract source).mapError Error.lexical with
  | none => do
    let message : Text := "Schema definition not found in `" ++ path ++ "`"
    note .warning message
    pure { path, status := .noDeclaration, warnings := [message] }
  | some d => do
    match ← (readTree d.text path).attempt with
    | .error e => refused path d none e
    | .ok (normalized, .error e) => refused path d (some normalized) e
    | .ok (normalized, .ok tree) => finish g known path d normalized tree

/-- The conversion of a model file. -/
def convertFile (g : Generator) (known : InterfaceNames) (tree : FileTree) (path : PathName) :
    Logged Error Conversion := do
  match ← (Models.load tree path).attempt with
  | .error e =>
    match e with
    | .source message =>
      pure { path := path.toText, status := .unreadable, problem := some message }
    | e => Logged.fail e
  | .ok source => convert g known source path.toText

/-- The conversions of files in order, and whether the policy broke off after one that failed. -/
def convertFiles (g : Generator) (known : InterfaceNames) (tree : FileTree)
    (policy : Settings.ErrorPolicy) : List PathName → Logged Error (List Conversion × Bool)
  | [] => pure ([], false)
  | path :: rest => do
    let conversion ← convertFile g known tree path
    if conversion.status.isFailure ∧ policy = .abort then do
      note .error ("Aborting batch at " ++ path.toText)
      pure ([conversion], true)
    else do
      let (others, aborted) ← convertFiles g known tree policy rest
      pure (conversion :: others, aborted)

/-- A batch of model files. -/
def run (g : Generator) (tree : FileTree) (paths : List PathName) : Logged Error BatchResult := do
  match g.settings.errorPolicy? with
  | none => Logged.fail .notAChoice
  | some policy => do
    let names ← namesOf g (paths.map PathName.toText)
    let (conversions, aborted) ← convertFiles g names tree policy paths
    if aborted then pure { conversions, names, aborted }
    else do
      let generation ← g.generate (conversions.filterMap (·.model))
      pure { conversions, names, generation := some generation }

end Batch

namespace Conversion

def isConverted (c : Conversion) : Bool := c.status = .converted

def isFailed (c : Conversion) : Bool := c.status.isFailure

end Conversion

namespace BatchResult

/-- The combined code; empty if there is none. -/
def code (b : BatchResult) : Text :=
  match b.generation with
  | some g => if g.succeeded then g.code else []
  | none => []

def converted (b : BatchResult) : List Conversion := b.conversions.filter (·.isConverted)

def failed (b : BatchResult) : List Conversion := b.conversions.filter (·.isFailed)

/-- Whether there is a combined file. -/
def succeeded (b : BatchResult) : Bool := !b.aborted && b.generation.any (·.succeeded)

/-- The number of files with a status. -/
def count (b : BatchResult) (s : Status) : Nat := (b.conversions.filter (·.status = s)).length

end BatchResult

end SchemaTypings
