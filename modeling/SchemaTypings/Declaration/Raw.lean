import SchemaTypings.Literal

/-!
What a declaration says before types are told from plain values: literal values in which bare names
may stand. `quoteFields` settles the names: where a type belongs, built-in types become tags.
-/

namespace SchemaTypings

/-- A value as it is written, in which a path of bare names may stand for a type or a constant. -/
inductive Raw
  | bare (path : Text)
  | null
  | bool (b : Bool)
  | int (i : Int)
  | float (x : Binary64)
  | text (s : Text)
  | list (items : List Raw)
  | object (entries : List (Text × Raw))

/-- The tags of the built-in type names. -/
def typeTags : List (Text × Text) :=
  [("String", "string"), ("Number", "number"), ("Boolean", "boolean"), ("Date", "Date"),
    ("ObjectId", "ObjectId"), ("Decimal128", "Decimal128"), ("Mixed", "Mixed")]

/-- Whether entries describe one field by its options: they have a `type`, which is not itself a
field described so. -/
def Literal.isOptions (entries : List (Text × Literal)) : Bool :=
  match Entries.get? entries "type" with
  | none => false
  | some (.object inner) => !(Entries.has inner "type")
  | some _ => true

namespace Raw

/-- The same for entries as they are written. -/
def isOptions (entries : List (Text × Raw)) : Bool :=
  match Entries.get? entries "type" with
  | none => false
  | some (.object inner) => !(Entries.has inner "type")
  | some _ => true

/-- Whether the option of a field is itself a type. -/
def isTypeKey (key : Text) : Bool := key = "type" || key = "of"

/-- The last name of a path. -/
def lastName (path : Text) : Text := (Text.splitOn '.' path).getLastD []

/-- The tag of a type given by a path of names; a path of other names stays. -/
def typeOfPath (path : Text) : Text := (Entries.get? typeTags (lastName path)).getD path

/-- The tag of a type given by a string; the empty string means a string. -/
def typeOfText (s : Text) : Text :=
  if s.isEmpty then "string" else (Entries.get? typeTags s).getD s

mutual

/-- The value where a plain value belongs: names stay as they are. -/
def quoteOption : Raw → Literal
  | .bare path => .text path
  | .null => .null
  | .bool b => .bool b
  | .int i => .int i
  | .float x => .float x
  | .text s => .text s
  | .list items => .list (quoteOptionItems items)
  | .object entries => .object (quoteOptionEntries entries)

def quoteOptionItems : List Raw → List Literal
  | [] => []
  | v :: rest => quoteOption v :: quoteOptionItems rest

def quoteOptionEntries : List (Text × Raw) → List (Text × Literal)
  | [] => []
  | (k, v) :: rest => (k, quoteOption v) :: quoteOptionEntries rest

end

mutual

/-- The value where a type belongs. -/
def quoteType : Raw → Literal
  | .bare path => .text (typeOfPath path)
  | .null => .null
  | .bool b => .bool b
  | .int i => .int i
  | .float x => .float x
  | .text s => .text (typeOfText s)
  | .list items => .list (quoteTypeItems items)
  | .object entries =>
    .object (if isOptions entries then quoteOptions entries else quoteFields entries)

def quoteTypeItems : List Raw → List Literal
  | [] => []
  | v :: rest => quoteType v :: quoteTypeItems rest

/-- The options of one field: of them, only types are quoted as types. -/
def quoteOptions : List (Text × Raw) → List (Text × Literal)
  | [] => []
  | (k, v) :: rest => (k, if isTypeKey k then quoteType v else quoteOption v) :: quoteOptions rest

/-- Fields: every value is a type. -/
def quoteFields : List (Text × Raw) → List (Text × Literal)
  | [] => []
  | (k, v) :: rest => (k, quoteType v) :: quoteFields rest

end

end Raw

end SchemaTypings
