import SchemaTypings.Console.Handler
import SchemaTypings.Console.Shortcode
import SchemaTypings.Console.Style

/-!
Console markup: text with styles in square brackets. `shown` is what remains of it on a console
without styles; `escape` makes a text that shows as itself. A tag is closed by any writing of its
style, and one whose name starts with an at sign must have a handler when it is closed.
-/

namespace SchemaTypings

namespace Markup

/-- Whether `c` can start the inside of a tag. -/
def startsTag (c : CodePoint) : Bool := c.isAsciiLower || c = '#' || c = '/' || c = '@'

/-- The inside of the tag that `s` starts with, which the next closing bracket ends, unless another
opening bracket comes before it. -/
def tag? (s : Text) : Option Text :=
  match s with
  | o :: c :: rest =>
    if o = '[' && startsTag c then
      let inside := rest.takeWhile fun d : CodePoint => d ≠ '[' && d ≠ ']'
      if (rest.drop inside.length).head? = some (']' : CodePoint) then some (c :: inside) else none
    else none
  | _ => none

/-- A part of markup. -/
inductive Piece
  | text (s : Text)
  | opens (name : Text) (parameters : Option Text)
  | closes (name : Text)
deriving DecidableEq, Repr

/-- The piece that the inside of a tag stands for. -/
def ofTag (inside : Text) : Piece :=
  let name := inside.takeWhile fun c : CodePoint => c ≠ '='
  if Text.startsWith name "/" then .closes (name.drop 1)
  else
    match inside.drop name.length with
    | [] => .opens name none
    | _ :: parameters => .opens name (some parameters)

/-- The backslashes at the start of a text. -/
def slashes (s : Text) : Text := s.takeWhile fun c : CodePoint => c = '\\'

/-- The pieces of markup, where `plain` is the text since the last tag, in reverse. Of backslashes
before a tag each pair stands for one; one left over makes the tag plain text. -/
def pieces (plain : Text) (s : Text) : List Piece :=
  match s with
  | [] => if plain.isEmpty then [] else [.text plain.reverse]
  | c :: rest =>
    let before : List Piece := if plain.isEmpty then [] else [.text plain.reverse]
    let width := (slashes (c :: rest)).length
    match tag? ((c :: rest).drop width) with
    | some inside =>
      let pairs : List Piece :=
        if width / 2 = 0 then [] else [.text (Text.times (width / 2) '\\')]
      let tag : Piece :=
        if width % 2 = 1 then .text ("[" ++ inside ++ "]") else ofTag inside
      before ++ pairs ++ tag :: pieces [] (rest.drop (width + inside.length + 1))
    | none =>
      let width := max width 1
      pieces (((c :: rest).take width).reverse ++ plain) (rest.drop (width - 1))
termination_by s.length
decreasing_by all_goals simp only [List.length_cons, List.length_drop]; omega

/-- An open tag: the canonical name of its style, and its parameters. -/
structure Tag where
  name : Text
  parameters : Option Text
deriving DecidableEq, Repr

/-- Whether a tag may be closed. -/
def Tag.isSound (t : Tag) : Bool :=
  match t.parameters with
  | some p => !(Text.startsWith t.name "@") || p.isEmpty || Handler.isValid p
  | none => true

/-- The last open tag of a name, and the others. -/
def pop? (name : Text) : List Tag → Option (Tag × List Tag)
  | [] => none
  | tag :: outer =>
    if tag.name = name then some (tag, outer)
    else (pop? name outer).map fun (found, others) => (found, tag :: others)

/-- The open tags after one is closed: the last one of a name, or the very last one. -/
def close (name : Text) (tags : List Tag) : Except Error (List Tag) := do
  let popped ←
    if name.strip.isEmpty then pure (tags.head?.map fun t => (t, tags.tail))
    else pure (pop? (← Style.normal name.strip) tags)
  match popped with
  | some (tag, others) => if tag.isSound then pure others else throw .markup
  | none => throw .markup

/-- What remains of the pieces on a console, inside the open tags. -/
def showPieces (tags : List Tag) : List Piece → Except Error Text
  | [] => .ok []
  | .text s :: rest => do
    let s := Shortcode.replace (Text.replace "\\[" "[" s)
    pure (s ++ (← showPieces tags rest))
  | .opens name parameters :: rest => do
    showPieces (⟨← Style.normal name, parameters⟩ :: tags) rest
  | .closes name :: rest => do
    showPieces (← close name tags) rest

/-- Controls that a console never prints: bell, backspace, vertical tab, form feed, return. -/
def isDropped (c : CodePoint) : Bool := c.val = 7 || c.val = 8 || (11 ≤ c.val && c.val ≤ 13)

/-- What a console shows of markup. -/
def shown (s : Text) : Except Error Text := do
  let text ← if s.contains ('[' : CodePoint) then showPieces [] (pieces [] s)
    else pure (Shortcode.replace s)
  pure (text.filter (!isDropped ·))

/-- `s` with every tag in it made plain text, the backslashes before a tag doubled. -/
def escapeTags (s : Text) : Text :=
  match s with
  | [] => []
  | c :: rest =>
    let width := (slashes (c :: rest)).length
    match tag? ((c :: rest).drop width) with
    | some inside =>
      Text.times (2 * width + 1) '\\' ++ "[" ++ inside ++ "]"
        ++ escapeTags (rest.drop (width + inside.length + 1))
    | none =>
      let width := max width 1
      (c :: rest).take width ++ escapeTags (rest.drop (width - 1))
termination_by s.length
decreasing_by all_goals simp only [List.length_cons, List.length_drop]; omega

/-- Markup that shows as `s`. A single backslash at the end is doubled, so that it does not escape
a tag that follows. -/
def escape (s : Text) : Text :=
  let escaped := escapeTags s
  if (slashes escaped.reverse).length = 1 then escaped ++ "\\" else escaped

/-- `inner` in a style. -/
def styled (style inner : Text) : Text := "[" ++ style ++ "]" ++ inner ++ "[/" ++ style ++ "]"

end Markup

end SchemaTypings
