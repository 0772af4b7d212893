import SchemaTypings.Dictionary
import SchemaTypings.Error
import SchemaTypings.Literal.Display
import SchemaTypings.Text.Identifier

/-!
Settings of a run. Their values come from outside and may be of any shape, so each is a literal
value until it is used; `problems` says what is wrong with them.
-/

namespace SchemaTypings

/-- Custom settings: a value as it was given, or what was gathered from several places. -/
inductive Custom
  | given (v : Literal)
  | gathered (d : Dictionary)

/-- The settings of a run. -/
structure Settings where
  outputFile : Literal := .null
  indentSize : Literal := .int 2
  useTabs : Literal := .bool false
  lineEnding : Literal := .text "\n"
  formatOutput : Literal := .bool true
  addComments : Literal := .bool true
  interfacePrefix : Literal := .text "I"
  bsonModule : Literal := .text "bson"
  refStyle : Literal := .text "interface"
  unresolvedType : Literal := .text "unknown"
  onError : Literal := .text "skip"
  debug : Literal := .bool false
  debugDir : Literal := .text ".mongoose-ts"
  custom : Custom := .given (.object [])

namespace Settings

/-- The settings under their names, in order, without the custom ones. -/
def entries (s : Settings) : Entries Literal :=
  [("output_file", s.outputFile), ("indent_size", s.indentSize), ("use_tabs", s.useTabs),
    ("line_ending", s.lineEnding), ("format_output", s.formatOutput),
    ("add_comments", s.addComments), ("interface_prefix", s.interfacePrefix),
    ("bson_module", s.bsonModule), ("ref_style", s.refStyle),
    ("unresolved_type", s.unresolvedType), ("on_error", s.onError), ("debug", s.debug),
    ("debug_dir", s.debugDir)]

/-- The names of the settings, the one for custom settings included. -/
def names : List Text := (({} : Settings).entries.map (·.1)) ++ [("custom" : Text)]

/-- The settings that entries give; what they do not give has its default, and entries of other
names do not count. -/
def ofKnown (e : Entries Literal) : Settings :=
  let get (name : Text) (default : Literal) : Literal := (e.get? name).getD default
  { outputFile := get "output_file" .null
    indentSize := get "indent_size" (.int 2)
    useTabs := get "use_tabs" (.bool false)
    lineEnding := get "line_ending" (.text "\n")
    formatOutput := get "format_output" (.bool true)
    addComments := get "add_comments" (.bool true)
    interfacePrefix := get "interface_prefix" (.text "I")
    bsonModule := get "bson_module" (.text "bson")
    refStyle := get "ref_style" (.text "interface")
    unresolvedType := get "unresolved_type" (.text "unknown")
    onError := get "on_error" (.text "skip")
    debug := get "debug" (.bool false)
    debugDir := get "debug_dir" (.text ".mongoose-ts")
    custom := .given (get "custom" (.object [])) }

/-- The settings that entries give, of which every one must have the name of a setting. -/
def ofNamed (e : Entries Literal) : Except Error Settings :=
  if e.all fun entry => names.contains entry.1 then .ok (ofKnown e) else .error .wrongShape

/-- A key and a value as one item of a list: two items, or a text of two code points. -/
def asPair : Literal → Except Error (Literal × Literal)
  | .list [.list _, _] | .list [.object _, _] => .error .wrongShape
  | .list [key, value] => .ok (key, value)
  | .list _ => .error .notAChoice
  | .text [k, v] => .ok (.text [k], .text [v])
  | .text _ => .error .notAChoice
  | .object [(k, _), (l, _)] => .ok (.text k, .text l)
  | .object _ => .error .notAChoice
  | _ => .error .wrongShape

/-- A value as a dictionary: an object, or a list of pairs. -/
def asDictionary : Literal → Except Error Dictionary
  | .object entries => .ok (Dictionary.ofEntries entries)
  | .list items => (items.mapM asPair).map Dictionary.ofList
  | .text [] => .ok []
  | .text _ => .error .notAChoice
  | _ => .error .wrongShape

/-- Custom settings as a dictionary. -/
def customDictionary (s : Settings) : Except Error Dictionary :=
  match s.custom with
  | .given v => asDictionary v
  | .gathered d => .ok d

/-- The custom settings that have names, by name. -/
def customEntries (s : Settings) : Except Error (Entries Literal) :=
  match s.custom with
  | .given (.object entries) => .ok entries
  | .given _ => .error .missingPart
  | .gathered d => .ok d.named

/-- The settings that entries give, where entries of other names are custom settings: they count
after those under `custom`. -/
def ofEntries (e : Entries Literal) : Except Error Settings := do
  let known := ofKnown e
  let other := e.filter fun entry => !(names.contains entry.1)
  if other.isEmpty then pure known
  else
    let custom := (e.get? "custom").getD .null
    let existing ← if custom.isTruthy then asDictionary custom else pure []
    pure { known with custom := .gathered (existing.update (Dictionary.ofEntries other)) }

/-- The default settings of an output language, as entries. -/
def defaults (language : Text) : Entries Literal :=
  if language = "typescript" then
    [("indent_size", .int 2), ("use_tabs", .bool false), ("format_output", .bool true),
      ("add_comments", .bool true), ("interface_prefix", .text "I"), ("bson_module", .text "bson"),
      ("ref_style", .text "interface"), ("unresolved_type", .text "unknown"),
      ("on_error", .text "skip"), ("custom", .object [])]
  else [("custom", .object [])]

/-- The way in which a field with a reference is typed. -/
inductive RefStyle
  | interface
  | union
  | id
deriving DecidableEq, Repr

/-- The name of a reference style. -/
def RefStyle.label : RefStyle → Text
  | .interface => "interface"
  | .union => "union"
  | .id => "id"

/-- The reference style of a name. -/
def RefStyle.ofLabel? (label : Text) : Option RefStyle :=
  [RefStyle.interface, .union, .id].find? (·.label = label)

/-- What a run does after a file fails. -/
inductive ErrorPolicy
  | skip
  | abort
deriving DecidableEq, Repr

/-- The error policy of a name. -/
def ErrorPolicy.ofLabel? (label : Text) : Option ErrorPolicy :=
  if label = "skip" then some .skip else if label = "abort" then some .abort else none

/-- The reference style of the settings. -/
def refStyle? (s : Settings) : Option RefStyle := s.refStyle.text?.bind RefStyle.ofLabel?

/-- The error policy of the settings. -/
def errorPolicy? (s : Settings) : Option ErrorPolicy := s.onError.text?.bind ErrorPolicy.ofLabel?

/-- A text of `n` spaces; none if `n` is negative. A number beyond the sizes of texts, of which one
more is negative, is no count. -/
def spaces (memory : Option Nat) (n : Int) : Except Error Text :=
  if (Text.longest : Int) < n || n < -Text.longest - 1 then .error .tooLarge
  else Text.repeated memory " " n.toNat

/-- One level of indentation. -/
def indent (s : Settings) (memory : Option Nat := none) : Except Error Text :=
  if s.useTabs.isTruthy then .ok "\t"
  else
    match s.indentSize.integer? with
    | some n => spaces memory n
    | none => .error .wrongShape

/-- Whether a prefix of interface names is refused. -/
def badPrefix : Literal → Except Error Bool
  | .text s => .ok (!s.isEmpty && !s.isIdentifier)
  | v => if v.isTruthy then .error .missingPart else .ok false

/-- What is wrong with the settings for an output language. -/
def problems (s : Settings) (language : Text) : Except Error (List Text) := do
  let refs : List Text :=
    if s.refStyle?.isSome then [] else ["Invalid ref_style: " ++ s.refStyle.said]
  let policy : List Text :=
    if s.errorPolicy?.isSome then [] else ["Invalid on_error: " ++ s.onError.said]
  let ending : List Text :=
    match s.lineEnding with
    | .text e => if e = "\n" ∨ e = "\r\n" then [] else ["Invalid line_ending: " ++ e.shown]
    | v => ["Invalid line_ending: " ++ v.shown]
  let indent : List Text :=
    if s.indentSize.integer?.any (0 ≤ ·) then [] else ["Invalid indent_size: " ++ s.indentSize.said]
  let common := refs ++ policy ++ ending ++ indent
  if language = "typescript" then
    let initial : List Text :=
      if ← badPrefix s.interfacePrefix then ["Invalid interface_prefix: " ++ s.interfacePrefix.said]
      else []
    let placeholder : List Text :=
      if s.unresolvedType.isTruthy then [] else ["unresolved_type must not be empty"]
    let module : List Text :=
      if s.bsonModule.isTruthy then [] else ["bson_module must not be empty"]
    pure (common ++ initial ++ placeholder ++ module)
  else pure common

end Settings

end SchemaTypings
