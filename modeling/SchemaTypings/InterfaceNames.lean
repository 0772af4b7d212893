import SchemaTypings.Entries
import SchemaTypings.Text.Case
import SchemaTypings.Text.Quoted

/-!
The interfaces of a run: the base name of every schema with the name of its interface. A name
resolves exactly, or else without regard to letter case.
-/

namespace SchemaTypings

/-- Base names with their interface names, in order and at most once. -/
structure InterfaceNames where
  entries : Entries Text

namespace InterfaceNames

/-- The interface names of a list of pairs; of a repeated base name the last counts. -/
def ofList (pairs : List (Text × Text)) : InterfaceNames := ⟨Entries.ofList pairs⟩

/-- The interface name of the last base name that equals `name` in lower case. -/
def resolveFolded? (names : InterfaceNames) (name : Text) : Option Text :=
  (names.entries.reverse.find? fun e => Text.lower e.1 = Text.lower name).map (·.2)

/-- The interface name that a schema name stands for. -/
def resolve? (names : InterfaceNames) (name : Text) : Option Text :=
  match names.entries.get? name with
  | some interface => some interface
  | none => names.resolveFolded? name

/-- Whether a schema name stands for an interface. -/
def contains (names : InterfaceNames) (name : Text) : Bool := (names.resolve? name).isSome

def size (names : InterfaceNames) : Nat := names.entries.length

/-- The names as messages show them. -/
def shown (names : InterfaceNames) : Text :=
  "SchemaNameRegistry(\x7b"
    ++ Text.join ", " (names.entries.map fun e => e.1.shown ++ ": " ++ e.2.shown) ++ "\x7d)"

end InterfaceNames

end SchemaTypings
