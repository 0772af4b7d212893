import SchemaTypings.Interface.Name
import SchemaTypings.Interface.Printer
import SchemaTypings.Json.Printer
import SchemaTypings.Layout
import SchemaTypings.Log
import SchemaTypings.Template

/-!
Generators: what turns field trees into code of an output language under given settings. Besides
TypeScript there is a plain language, which writes nothing but the names of interfaces.
-/

namespace SchemaTypings

/-- The output languages. -/
inductive Language
  | typeScript
  | plain
deriving DecidableEq, Repr

/-- The name of a language. -/
def Language.name : Language → Text
  | .typeScript => "typescript"
  | .plain => "plain"

/-- The extension of files in a language. -/
def Language.extension : Language → Text
  | .typeScript => ".d.ts"
  | .plain => ".txt"

/-- A generator for a language, with its settings and templates. -/
structure Generator where
  language : Language
  settings : Settings
  typeNames : TypeNames
  templates : TemplateStore
  /-- The length of the longest indentation for which memory has room, if there is a limit. -/
  memory : Option Nat := none

/-- What became of a combined file. -/
structure Generation where
  code : Text
  schemaCount : Nat
  formatted : Literal
  failure : Option Error

namespace Generator

/-- The generator for a language under the given settings. -/
def create (language : Language) (settings : Settings) : Except Error Generator :=
  match language with
  | .typeScript => do
    pure { language, settings, typeNames := ← TypeNames.ofSettings settings, templates := .builtIn }
  | .plain => .ok { language, settings, typeNames := {}, templates := .builtIn }

/-- The name of the interface of a schema. -/
def interfaceName (g : Generator) (base : Text) : Logged Error Text := do
  let initial ← match g.settings.interfacePrefix with
    | .text s => Logged.pure s
    | _ => Logged.fail .wrongShape
  let name := initial ++ base.toPascalCase
  Logged.records ((InterfaceName.problems name).map fun problem =>
    ⟨.warning, .interfaces, "Interface name for '" ++ base ++ "': " ++ problem⟩)
  pure name

/-- The interface of a schema. -/
def model (g : Generator) (name : Text) (tree : FieldTree) (known : InterfaceNames) :
    Except Error Interface :=
  match g.language with
  | .typeScript => Interface.ofTree g.typeNames known name tree
  | .plain => .ok ⟨name, []⟩

/-- A property as the template of an interface takes it. -/
def propertyData (g : Generator) (p : Property TypeExpr) : Except Error Literal := do
  let type ← p.type.render g.typeNames.unresolved
  pure (.object
    [("name", .text p.name.asKey), ("type", .text type), ("optional", .bool p.optional)])

/-- The code of one interface. -/
def single (g : Generator) (i : Interface) : Except Error Text :=
  match g.language with
  | .typeScript => do
    let fields ← i.fields.mapM g.propertyData
    let indent ← g.settings.indent g.memory
    g.templates.render "ts_interface"
      [("interface_name", .text i.name), ("fields", .list fields), ("indent", .text indent)]
  | .plain => .ok i.name

/-- The signature of generated files. -/
def signature : Text :=
  "Automatically generated by mongoose-ts\n\nDo not edit by hand, re-run mongoose-ts instead."

/-- The comments at the start of a file. -/
def headerComments (g : Generator) : List Text :=
  let s := g.settings
  if !s.addComments.isTruthy then []
  else if s.formatOutput.isTruthy then
    let options : Literal := .object [("indent", s.indentSize), ("use_tabs", s.useTabs)]
    [signature, "@mongoose-ts: formatted with options " ++ options.jsonLine]
  else [signature, "@mongoose-ts: generated with --no-format flag"]

/-- The names that a file imports: always those of both special types. -/
def importNames (g : Generator) : List Literal :=
  match g.language with
  | .typeScript => [g.typeNames.name .objectId, g.typeNames.name .decimal128]
  | .plain => []

/-- The code of a file with several interfaces. -/
def file (g : Generator) (models : List Interface) : Except Error Text :=
  match g.language with
  | .typeScript => do
    let interfaces ← models.mapM g.single
    g.templates.render "ts_file"
      [("comments", .list (g.headerComments.map .text)), ("imports", .list g.importNames),
        ("module", g.settings.bsonModule), ("interfaces", .list (interfaces.map .text))]
  | .plain => .ok (Text.join "\n" (models.map (·.name)))

/-- Code in the layout of the language. -/
def format (g : Generator) (code : Text) : Except Error Text :=
  match g.language with
  | .typeScript => do Layout.format g.memory (← g.settings.indent g.memory) code
  | .plain => .ok (Layout.tidy code)

/-- What is odd about a field tree. -/
def treeWarnings (name : Text) (tree : FieldTree) : List Text :=
  let whole : List Text := if tree.isEmpty then ["Schema '" ++ name ++ "' has no fields"] else []
  whole ++ tree.filterMap fun field =>
    match field.kind, field.child with
    | .nested, .fields [] => some ("Nested field " ++ name ++ "." ++ field.name ++ " has no fields")
    | _, _ => none

/-- What is odd about an interface. -/
def modelWarnings (g : Generator) (i : Interface) : List Text :=
  match g.language with
  | .typeScript => i.hints
  | .plain => []

/-- The code of a file, in the layout of the language if settings ask for it. -/
def formattedFile (g : Generator) (models : List Interface) : Except Error Text := do
  let code ← g.file models
  if g.settings.formatOutput.isTruthy then g.format code else pure code

/-- A combined file. A template that fails, or settings that do not work, are reported in it; other
failures are passed on. -/
def generate (g : Generator) (models : List Interface) : Logged Error Generation :=
  match g.formattedFile models with
  | .ok code => pure ⟨code, models.length, g.settings.formatOutput, none⟩
  | .error e =>
    match e with
    | .generation m | .template m => do
      Logged.record .error .generation ("Code generation failed: " ++ m)
      pure ⟨[], models.length, g.settings.formatOutput, some e⟩
    | _ => Logged.fail e

end Generator

/-- Whether there is a file. -/
def Generation.succeeded (g : Generation) : Bool := g.failure.isNone

/-- Why there is no file. -/
def Generation.message? (g : Generation) : Option Text :=
  (g.failure.bind Error.message?).map fun m => "Code generation failed: " ++ m

end SchemaTypings
