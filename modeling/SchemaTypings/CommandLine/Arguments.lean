import SchemaTypings.CommandLine.Switch
import SchemaTypings.Text.Blank
import SchemaTypings.Text.Case
import SchemaTypings.Text.Digit
import SchemaTypings.Text.Quoted

/-!
The arguments of the command line. A long name may be shortened as far as it stays unambiguous,
short switches may share one dash, and what a switch takes may be part of the same argument, behind
an equals sign or right behind a short name. After two dashes alone nothing is a switch, and two
dashes are never what a switch takes.
-/

namespace SchemaTypings

namespace CommandLine

/-- What the arguments ask for. -/
structure Options where
  source : Option Text := none
  sourceSwitch : Option Text := none
  output : Option Text := none
  settingsFile : Option Text := none
  unformatted : Bool := false
  errorPolicy : Option Text := none
  debug : Bool := false
  /-- The word for the least level to show; none if what was given is no word. -/
  logLevel : Option Text := some "WARNING"
  logFile : Option Text := none
deriving DecidableEq, Repr

/-- What becomes of the arguments. -/
inductive Request
  | run (options : Options)
  | help
  | version
  | refused (complaint : Text)
deriving DecidableEq, Repr

/-- An argument: a plain word, the two dashes that end the switches, or what looks like a switch,
called by a name and maybe with a text attached to it. -/
inductive Word
  | plain (s : Text)
  | dashes
  | switch (s : Switch) (name : Text) (attached : Option Text)
  | unknown (s : Text)
deriving DecidableEq, Repr

/-- A decimal digit or more of them, and nothing else, but for one line feed at the end. -/
def isDigits (s : Text) : Bool :=
  let s := if s.getLast? = some ('\n' : CodePoint) then s.dropLast else s
  !s.isEmpty && s.all CodePoint.isDecimal

/-- Whether an argument is a negative number, which is no switch. -/
def isNegative (s : Text) : Bool :=
  match s with
  | [] => false
  | c :: rest =>
    c = '-' && (isDigits rest ||
      match rest.dropWhile CodePoint.isDecimal with
      | d :: fraction => d = '.' && isDigits fraction
      | [] => false)

/-- A text in front of its first equals sign and behind it. -/
def splitEquals (s : Text) : Text × Option Text :=
  let name := s.takeWhile fun c : CodePoint => c ≠ '='
  match s.drop name.length with
  | [] => (name, none)
  | _ :: text => (name, some text)

/-- The switches that an argument with two dashes may mean. -/
def longMatches (s : Text) : List Word :=
  let (start, attached) := splitEquals s
  (Switch.byName.filter fun e => Text.startsWith e.1 start).map fun e =>
    .switch e.2 e.1 attached

/-- The switches that an argument with one dash may mean: a short one with the rest attached, or any
one that starts with the argument. -/
def shortMatches (s : Text) : List Word :=
  Switch.byName.filterMap fun e =>
    if e.1 = s.take 2 then some (.switch e.2 e.1 (some (s.drop 2)))
    else if Text.startsWith e.1 s then some (.switch e.2 e.1 none)
    else none

/-- The name by which a word calls its switch. -/
def Word.name : Word → Text
  | .switch _ name _ => name
  | .plain s | .unknown s => s
  | .dashes => "--"

/-- What an argument that starts with a dash means, if nothing has its name exactly. -/
def abbreviated (s : Text) : Except Text Word :=
  let found := if Text.startsWith s "--" then longMatches s else shortMatches s
  match found with
  | [word] => .ok word
  | [] =>
    if isNegative s || s.contains (' ' : CodePoint) then .ok (.plain s) else .ok (.unknown s)
  | _ =>
    .error ("ambiguous option: " ++ s ++ " could match " ++ Text.join ", " (found.map Word.name))

/-- What an argument means before the two dashes. -/
def wordOf (s : Text) : Except Text Word :=
  if !Text.startsWith s "-" then .ok (.plain s)
  else
    match Switch.named? s with
    | some switch => .ok (.switch switch s none)
    | none =>
      if s.length = 1 then .ok (.plain s)
      else
        match splitEquals s with
        | (name, some attached) =>
          match Switch.named? name with
          | some switch => .ok (.switch switch name (some attached))
          | none => abbreviated s
        | (_, none) => abbreviated s

/-- The words of all arguments. -/
def wordsOf : List Text → Except Text (List Word)
  | [] => .ok []
  | s :: rest =>
    if s = "--" then .ok (.dashes :: rest.map .plain)
    else do
      let word ← wordOf s
      let words ← wordsOf rest
      pure (word :: words)

/-- A switch that the arguments hold, with what it takes. -/
structure Given where
  switch : Switch
  operand : Option Text
deriving DecidableEq, Repr

/-- The switches of one argument, and the arguments after it. -/
structure Group where
  given : List Given
  rest : List Word
deriving DecidableEq, Repr

/-- A complaint about a switch. -/
def complaint (s : Switch) (problem : Text) : Text := "argument " ++ s.called ++ ": " ++ problem

/-- A complaint about a text attached to a switch that takes nothing. -/
def ignored (s : Switch) (text : Text) : Text :=
  complaint s ("ignored explicit argument " ++ text.shown)

/-- A switch with the next argument, if it takes one. -/
def withNext (s : Switch) (rest : List Word) : Except Text Group :=
  match s.operand, rest with
  | .nothing, _ => .ok { given := [⟨s, none⟩], rest }
  | _, .plain v :: rest => .ok { given := [⟨s, some v⟩], rest }
  | _, _ => .error (complaint s "expected one argument")

/-- The group with one more switch in front. -/
def Group.behind (s : Switch) (g : Group) : Group := { g with given := ⟨s, none⟩ :: g.given }

/-- A switch with the text attached to it: what it takes, or more short switches. -/
def withAttached (rest : List Word) (s : Switch) (text : Text) : Except Text Group :=
  if s.operand ≠ .nothing then
    .ok { given := [⟨s, if text = "--" then none else some text⟩], rest }
  else
    match text with
    | [] => .error (ignored s [])
    | c :: tail =>
      match Switch.named? ['-', c], tail with
      | none, _ => .error (ignored s (c :: tail))
      | some next, [] => (withNext next rest).map (Group.behind s)
      | some next, d :: more => (withAttached rest next (d :: more)).map (Group.behind s)

/-- The choice that a word makes, if it is one of `words`; of levels the letter case is free. -/
def chosen (s : Switch) (words : List Text) (word : Text) : Except Text Text :=
  let word := if s.meaning = .logLevel then word.upper else word
  if words.contains word then .ok word
  else
    .error (complaint s ("invalid choice: " ++ word.shown ++ " (choose from "
      ++ Text.join ", " (words.map Text.shown) ++ ")"))

/-- What a switch takes, if it may be that. -/
def Given.checked (g : Given) : Except Text (Option Text) :=
  match g.switch.operand, g.operand with
  | .choice words, some word => (chosen g.switch words word).map some
  | _, operand => .ok operand

/-- The request after one more switch: one for help or the version is final. -/
def Options.give (o : Options) (g : Given) : Request :=
  match g.checked with
  | .error problem => .refused problem
  | .ok word =>
    match g.switch.meaning with
    | .help => .help
    | .version => .version
    | .source => .run { o with sourceSwitch := word }
    | .output => .run { o with output := word }
    | .settingsFile => .run { o with settingsFile := word }
    | .unformatted => .run { o with unformatted := true }
    | .errorPolicy => .run { o with errorPolicy := word }
    | .debug => .run { o with debug := true }
    | .logLevel => .run { o with logLevel := word }
    | .logFile => .run { o with logFile := word }

/-- The request after several switches. -/
def Options.giveAll (o : Options) : List Given → Request
  | [] => .run o
  | g :: rest =>
    match o.give g with
    | .run o => o.giveAll rest
    | request => request

/-- The group of a switch, called by `name`, with what may be attached to it. -/
def groupOf (s : Switch) (name : Text) (attached : Option Text) (rest : List Word) :
    Except Text Group :=
  match attached with
  | none => withNext s rest
  | some text =>
    if s.operand = .nothing && Text.startsWith name "--" then .error (ignored s text)
    else withAttached rest s text

theorem length_withNext {s : Switch} {rest : List Word} {g : Group} (h : withNext s rest = .ok g) :
    g.rest.length ≤ rest.length := by
  unfold withNext at h
  split at h <;> cases h <;> simp

theorem length_behind {x : Except Text Group} {s : Switch} {n : Nat}
    (hx : ∀ g, x = .ok g → g.rest.length ≤ n) {g : Group} (h : x.map (Group.behind s) = .ok g) :
    g.rest.length ≤ n := by
  cases x with
  | error e => cases h
  | ok g' => cases h; exact hx g' rfl

theorem length_withAttached (rest : List Word) (s : Switch) (text : Text) :
    ∀ g, withAttached rest s text = .ok g → g.rest.length ≤ rest.length := by
  fun_induction withAttached rest s text with
  | case1 => intro g h; cases h; simp
  | case2 => intro g h; cases h
  | case3 => intro g h; cases h
  | case4 => intro g h; exact length_behind (fun _ => length_withNext) h
  | case5 => rename_i ih; intro g h; exact length_behind ih h

theorem length_groupOf {s : Switch} {name : Text} {attached : Option Text} {rest : List Word}
    {g : Group} (h : groupOf s name attached rest = .ok g) : g.rest.length ≤ rest.length := by
  unfold groupOf at h
  split at h
  · exact length_withNext h
  · split at h
    · cases h
    · exact length_withAttached _ _ _ g h

/-- The words without two dashes in front. -/
def skipDashes : List Word → List Word
  | .dashes :: rest => rest
  | words => words

theorem length_skipDashes (words : List Word) : (skipDashes words).length ≤ words.length := by
  unfold skipDashes
  split <;> simp

/-- What the words ask for beyond `o`. The first plain word is the source, once `taken` it is; what
is left over is in `extras`. -/
def ofWords (o : Options) (taken : Bool) (extras : List Text) (words : List Word) : Request :=
  match words with
  | [] =>
    if extras.isEmpty then .run o
    else .refused ("unrecognized arguments: " ++ Text.join " " extras)
  | .plain s :: rest =>
    if taken then ofWords o true (extras ++ [s]) rest
    else ofWords { o with source := some s } true extras (skipDashes rest)
  | .dashes :: rest =>
    if taken then ofWords o true (extras ++ [("--" : Text)]) rest else ofWords o false extras rest
  | .unknown s :: rest => ofWords o taken (extras ++ [s]) rest
  | .switch s name attached :: rest =>
    match _h : groupOf s name attached rest with
    | .error problem => .refused problem
    | .ok group =>
      match o.giveAll group.given with
      | .run o => ofWords o taken extras group.rest
      | request => request
termination_by words.length
decreasing_by
  · simp
  · have := length_skipDashes rest
    simp only [List.length_cons]
    omega
  · simp
  · simp
  · simp
  · have := length_groupOf _h
    simp only [List.length_cons]
    omega

/-- What the arguments ask for. -/
def Request.ofArguments (arguments : List Text) : Request :=
  match wordsOf arguments with
  | .error problem => .refused problem
  | .ok words => ofWords {} false [] words

end CommandLine

end SchemaTypings
