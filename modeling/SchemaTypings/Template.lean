import SchemaTypings.Files.Tree
import SchemaTypings.Literal.Display
import SchemaTypings.Text.Blank
import SchemaTypings.Text.Word

/-!
Templates: text with values, conditions and loops over a context. The two built-in templates are
given by their parts; a template from outside is text with values in double braces.
-/

namespace SchemaTypings

namespace Template

/-- What a template looks up: a constant, a variable, or an entry of one. A negation of nothing
stands where no value does. -/
inductive Ref
  | truth (b : Bool)
  | nothing
  | negation
  | variable (name : Text)
  | entry (name key : Text)
deriving DecidableEq, Repr

/-- How a value is written: as it is, as a comment, or item by item. -/
inductive Form
  | plain
  | comment
  | joined (separator : Text)
deriving DecidableEq, Repr

/-- A part of a template. -/
inductive Piece
  | text (s : Text)
  | value (ref : Ref) (form : Form)
  | when (ref : Ref) (body : List Piece)
  | each (name : Text) (ref : Ref) (body : List Piece)

/-- Why a template cannot be rendered. -/
inductive Fault
  | unexpected (what : Text)
  | undefined (name : Text)
  | noEntry (owner key : Text)
  | notIterable (owner : Text)
deriving DecidableEq, Repr

/-- The text of a fault. -/
def Fault.message : Fault → Text
  | .unexpected what => "unexpected " ++ what.shown
  | .undefined name => name.shown ++ " is undefined"
  | .noEntry owner key => owner.shown ++ " has no attribute " ++ key.shown
  | .notIterable owner => owner.shown ++ " object is not iterable"

/-- The name of a value's type in messages. -/
def typeName : Literal → Text
  | .null => "NoneType"
  | .bool _ => "bool"
  | .int _ => "int"
  | .float _ => "float"
  | .text _ => "str"
  | .list _ => "list"
  | .object _ => "dict"

/-- A value as the owner of an entry that it lacks. -/
def ownerName : Literal → Text
  | .null => "None"
  | v => typeName v ++ " object"

/-- The value that a part looks up. -/
def find (context : Entries Literal) : Ref → Except Fault Literal
  | .truth b => .ok (.bool b)
  | .nothing => .ok .null
  | .negation => .error (.unexpected "end of print statement")
  | .variable name =>
    match context.get? name with
    | some v => .ok v
    | none => .error (.undefined name)
  | .entry name key =>
    match context.get? name with
    | none => .error (.undefined name)
    | some (.object entries) =>
      match Entries.get? entries key with
      | some v => .ok v
      | none => .error (.noEntry (ownerName (.object entries)) key)
    | some v => .error (.noEntry (ownerName v) key)

/-- The items that a loop runs over. -/
def itemsOf : Literal → Except Fault (List Literal)
  | .list items => .ok items
  | .object entries => .ok (entries.map fun e => .text e.1)
  | .text s => .ok (s.map fun c => .text [c])
  | v => .error (.notIterable (typeName v))

/-- `s` as a comment: on one line, or with a star before each of its lines. -/
def asBlockComment (s : Text) : Text :=
  match Text.lines s with
  | [line] => "/** " ++ line ++ " */"
  | lines =>
    "/**\n" ++ Text.join "\n" (lines.map fun line => Text.stripRight (" * " ++ line)) ++ "\n */"

/-- A value in a form. -/
def inForm (v : Literal) : Form → Except Fault Text
  | .plain => .ok v.said
  | .comment => .ok (asBlockComment v.said)
  | .joined separator => (itemsOf v).map fun items => Text.join separator (items.map Literal.said)

mutual

/-- A part rendered in a context. -/
def renderPiece (context : Entries Literal) : Piece → Except Fault Text
  | .text s => .ok s
  | .value ref form => do inForm (← find context ref) form
  | .when ref body => do
    if (← find context ref).isTruthy then render context body else pure []
  | .each name ref body => do
    let parts ← (← itemsOf (← find context ref)).mapM fun item =>
      render ((name, item) :: context) body
    pure parts.flatten

/-- The parts rendered in a context, one after another. -/
def render (context : Entries Literal) : List Piece → Except Fault Text
  | [] => .ok []
  | piece :: rest => do
    let head ← renderPiece context piece
    let tail ← render context rest
    pure (head ++ tail)

end

/-- A part that writes a variable as it is. -/
def Piece.var (name : Text) : Piece := .value (.variable name) .plain

/-- The template of one interface. -/
def interfaceTemplate : List Piece :=
  [.text "export interface ", .var "interface_name", .text " \x7b",
    .each "field" (.variable "fields")
      [.text "\n", .var "indent", .value (.entry "field" "name") .plain,
        .when (.entry "field" "optional") [.text "?"],
        .text ": ", .value (.entry "field" "type") .plain, .text ";"],
    .text "\n\x7d"]

/-- The template of a declaration file: header comments, the import line, then each interface after
an empty line. -/
def fileTemplate : List Piece :=
  [.each "comment" (.variable "comments") [.value (.variable "comment") .comment, .text "\n\n"],
    .when (.variable "imports")
      [.text "import \x7b ", .value (.variable "imports") (.joined ", "), .text " \x7d from \"",
        .var "module", .text "\";\n"],
    .each "interface" (.variable "interfaces") [.text "\n", .var "interface", .text "\n"]]

/-- What a name stands for: three names, with a small or a capital letter, are constants, and one
is an operator. -/
def Ref.ofName (name : Text) : Ref :=
  if name = "true" || name = "True" then .truth true
  else if name = "false" || name = "False" then .truth false
  else if name = "none" || name = "None" then .nothing
  else if name = "not" then .negation
  else .variable name

/-- What every template can look up under names that its context leaves free. -/
def globals : Entries Literal :=
  [("range", .text "<class 'range'>"), ("dict", .text "<class 'dict'>"),
    ("cycler", .text "<class 'jinja2.utils.Cycler'>"),
    ("joiner", .text "<class 'jinja2.utils.Joiner'>"),
    ("namespace", .text "<class 'jinja2.utils.Namespace'>")]

/-- The name under which a template looks up itself. -/
def ownName : Text := "self"

/-- What a template of a name finds under the name for itself. -/
def itself (name : Text) : Literal := .text ("<TemplateReference " ++ name.shown ++ ">")

/-- The value in double braces at the start of a text, after the opening ones, and what follows the
closing ones. -/
def hole? (s : Text) : Option (Piece × Text) := do
  let skip : Text → Text := fun s => s.dropWhile CodePoint.isBlank
  let s := skip s
  let name := s.takeWhile fun c => c.isWord
  if name.isEmpty || name.head?.any CodePoint.isAsciiDigit then none
  let rest := skip (s.drop name.length)
  let filtered : Bool := rest.head? = some ('|' : CodePoint)
  let (form, rest) ← if filtered then
      let rest := skip (rest.drop 1)
      let word := rest.takeWhile fun c => c.isWord
      if word = "comment" then some (Form.comment, skip (rest.drop word.length)) else none
    else some (Form.plain, rest)
  if rest.take 2 = "\x7d\x7d" then some (.value (Ref.ofName name) form, rest.drop 2) else none

/-- The parts of a text with values in double braces. Braces that hold no value stay as they are. -/
def scan : Nat → Text → List Piece
  | 0, s => [.text s]
  | fuel + 1, s =>
    match Text.find? "\x7b\x7b" s with
    | none => [.text s]
    | some n =>
      match hole? (s.drop (n + 2)) with
      | some (piece, rest) => .text (s.take n) :: piece :: scan fuel rest
      | none => .text (s.take (n + 2)) :: scan fuel (s.drop (n + 2))

/-- Why a part is none of a template, whatever its context. -/
def Piece.flaw? : Piece → Option Fault
  | .value .negation .comment => some (.unexpected "|")
  | .value .negation _ => some (.unexpected "end of print statement")
  | _ => none

/-- The template that a text spells. One line feed at its end does not count. -/
def ofText (s : Text) : List Piece :=
  let s := s.unifyLineEnds
  let s := if s.getLast? = some ('\n' : CodePoint) then s.dropLast else s
  scan s.length s

end Template

/-- Templates by name. Those from files count over those added. -/
structure TemplateStore where
  files : Entries (List Template.Piece)
  added : Entries (List Template.Piece)

namespace TemplateStore

/-- The built-in templates. -/
def builtIn : TemplateStore :=
  ⟨[], [("ts_interface", Template.interfaceTemplate), ("ts_file", Template.fileTemplate)]⟩

/-- The built-in templates, with the templates of a directory over them if there is one. -/
def inDirectory (tree : FileTree) (directory : PathName) : Except Error TemplateStore := do
  match ← tree.probe directory with
  | some (place, .directory) =>
    let files := (tree.below place).filterMap fun (place, node) =>
      match node with
      | .file bytes =>
        (Utf8.decode? bytes).map fun text => (Text.join "/" place, Template.ofText text)
      | .directory => none
    pure { builtIn with files }
  | _ => pure builtIn

/-- The store with the template of a text. -/
def add (store : TemplateStore) (name content : Text) : TemplateStore :=
  { store with added := store.added.put name (Template.ofText content) }

/-- Whether there is a template of a name. -/
def has (store : TemplateStore) (name : Text) : Bool :=
  store.files.has name || store.added.has name

/-- The name under which a file is stored; a name that climbs out of the directory has none. -/
def fileName? (name : Text) : Option Text :=
  let parts := PathName.partsOf name
  if parts.contains ".." then none else some (Text.join "/" parts)

/-- The template of a name. -/
def get? (store : TemplateStore) (name : Text) : Option (List Template.Piece) :=
  match (fileName? name).bind store.files.get? with
  | some template => some template
  | none => store.added.get? name

/-- A template rendered in a context. -/
def render (store : TemplateStore) (name : Text) (context : Entries Literal) : Except Error Text :=
  let failed (reason : Text) : Error :=
    .template ("Failed to render template " ++ name ++ ": " ++ reason)
  match store.get? name with
  | none => .error (failed name)
  | some template =>
    match template.findSome? Template.Piece.flaw? with
    | some flaw => .error (failed flaw.message)
    | none =>
      if context.has Template.ownName then
        .error (failed "Template.render() got multiple values for argument 'self'")
      else
        let context := (Template.ownName, Template.itself name) :: context ++ Template.globals
        (Template.render context template).mapError fun fault => failed fault.message

end TemplateStore

end SchemaTypings
