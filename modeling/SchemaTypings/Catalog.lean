import SchemaTypings.Generator
import SchemaTypings.Settings.Store

/-!
Catalogs of output languages: names and aliases, without regard to letter case, and generators made
for them.
-/

namespace SchemaTypings

/-- Output languages by name, and other names for these. -/
structure Catalog (α : Type := Language) where
  languages : Entries α
  aliases : Entries Text

/-- Where the settings of a new generator come from. -/
inductive SettingsSource
  | defaults
  | settings (s : Settings)
  | overrides (entries : Entries Literal)
  | file (name : Text)
  | other (v : Literal)

namespace Catalog

variable {α : Type}

/-- The catalog without a language. -/
def empty : Catalog α := ⟨[], []⟩

/-- The catalog with one more language, if what is offered is one. -/
def register (c : Catalog α) (name : Text) (offered : Option α) (aliases : List Text) :
    Except Error (Catalog α) :=
  match offered with
  | none => .error (.catalog "Generator class must inherit from CodeGenerator")
  | some language =>
    let key := name.lower
    .ok ⟨c.languages.put key language,
      aliases.foldl (fun acc a => acc.put (Text.lower a) key) c.aliases⟩

/-- The catalog of the built-in languages. -/
def builtIn : Catalog := ⟨[("typescript", .typeScript)], [("ts", "typescript")]⟩

/-- The names of the languages, sorted. -/
def names (c : Catalog α) : List Text := c.languages.keys.mergeSort Text.le

/-- The name under which a language or an alias is filed. -/
def keyOf (c : Catalog α) (name : Text) : Text := (c.aliases.get? name.lower).getD name.lower

/-- The language of a name or an alias. -/
def find (c : Catalog α) (name : Text) : Except Error α :=
  match c.languages.get? (c.keyOf name) with
  | some language => .ok language
  | none =>
    .error (.catalog ("No generator registered for language: " ++ name ++ ". Available: "
      ++ Text.join ", " c.names))

/-- The settings that a source gives for a language. -/
def settingsFrom (tree : FileTree) (key : Text) : SettingsSource → Except Error Settings
  | .defaults => Settings.load tree key [] none
  | .settings s => .ok s
  | .overrides entries => Settings.load tree key entries none
  | .file name => Settings.load tree key [] (some name)
  | .other v =>
    .error (.catalog ("Invalid config type: <class '" ++ Template.typeName v ++ "'>"))

/-- A generator for a language, by name or alias. -/
def create (c : Catalog) (tree : FileTree) (name : Text) (source : SettingsSource) :
    Except Error Generator := do
  let language ← c.find name
  let made := do Generator.create language (← settingsFrom tree (c.keyOf name) source)
  made.mapError fun e =>
    match e with
    | .settings m | .generation m =>
      .catalog ("Failed to create " ++ name ++ " generator: " ++ m)
    | e => e

end Catalog

end SchemaTypings
