import SchemaTypings.Console.Colour
import SchemaTypings.Entries
import SchemaTypings.Text.Case

/-!
Styles of printed text: attributes that are on or off, a colour, a background and a link. A style
has one canonical text, whatever the order and the short names that it is written with.
-/

namespace SchemaTypings

/-- A style. An attribute that it does not set stays as it is. -/
structure Style where
  attributes : Entries Bool := []
  colour : Option Text := none
  background : Option Text := none
  link : Option Text := none
deriving DecidableEq, Repr

namespace Style

/-- The attributes in order, each with its short names. -/
def attributeNames : List (Text × List Text) :=
  [("bold", ["b"]), ("dim", ["d"]), ("italic", ["i"]), ("underline", ["u"]), ("blink", []),
    ("blink2", []), ("reverse", ["r"]), ("conceal", ["c"]), ("strike", ["s"]),
    ("underline2", ["uu"]), ("frame", []), ("encircle", []), ("overline", ["o"])]

/-- The attribute of a word. -/
def attributeOf? (word : Text) : Option Text :=
  (attributeNames.find? fun a => a.1 = word || a.2.contains word).map (·.1)

/-- The style with an attribute on or off. -/
def put (s : Style) (name : Text) (on : Bool) : Style :=
  { s with attributes := s.attributes.put name on }

/-- The style with what words add to it; none if they make no style. -/
def ofWords (s : Style) : List Text → Except Error (Option Style)
  | [] => .ok (some s)
  | word :: rest =>
    let key := word.lower
    if key = "on" then
      match rest with
      | [] => .ok none
      | colour :: rest =>
        match Colour.check colour.lower with
        | .ok true => ofWords { s with background := some colour.lower } rest
        | .ok false => .ok none
        | .error e => .error e
    else if key = "not" then
      match rest with
      | [] => .ok none
      | word :: rest =>
        match attributeOf? word with
        | some name => ofWords (s.put name false) rest
        | none => .ok none
    else if key = "link" then
      match rest with
      | [] => .ok none
      | link :: rest => ofWords { s with link := some link } rest
    else
      match attributeOf? key with
      | some name => ofWords (s.put name true) rest
      | none =>
        match Colour.check key with
        | .ok true => ofWords { s with colour := some key } rest
        | .ok false => .ok none
        | .error e => .error e

/-- The style that a text makes. -/
def ofText (s : Text) : Except Error (Option Style) :=
  if s.strip = "none" then .ok (some {}) else ofWords {} s.words

/-- The canonical text of a style. -/
def toText (s : Style) : Text :=
  let attributes : List Text := attributeNames.filterMap fun a =>
    (s.attributes.get? a.1).map fun on => if on then a.1 else "not " ++ a.1
  let words := attributes ++ s.colour.toList
    ++ (s.background.map fun c => ("on " : Text) ++ c).toList
    ++ (s.link.map fun l => ("link " : Text) ++ l).toList
  if words.isEmpty then "none" else Text.join " " words

/-- The canonical text of the style that `s` makes; `s` in lower case if it makes none. -/
def normal (s : Text) : Except Error Text := do
  match ← ofText s with
  | some style => pure style.toText
  | none => pure (Text.lower s.strip)

end Style

end SchemaTypings
