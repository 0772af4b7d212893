import SchemaTypings.Console.Flag
import SchemaTypings.Text.Case

/-!
Shortcodes: names between two colons that stand for a picture in printed text, such as `:100:`. A
name may ask for a tone of skin, and it may end in the style that the picture is wanted in.
-/

namespace SchemaTypings

namespace Shortcode

/-- The tones of skin by the end of a name, and the marks for them. -/
def tones : List (Text × CodePoint) :=
  [("_light_skin_tone", '🏻'), ("_medium-light_skin_tone", '🏼'), ("_medium_skin_tone", '🏽'),
    ("_medium-dark_skin_tone", '🏾'), ("_dark_skin_tone", '🏿')]

/-- The mark that asks for a picture in colour. -/
def inColour : CodePoint := '\uFE0F'

/-- A picture in a tone of skin. The mark stands behind the first sign, in place of one for
colour. -/
def inTone (tone : CodePoint) (picture : Text) : Text :=
  match picture with
  | first :: second :: rest =>
    if second = inColour then first :: tone :: rest else first :: tone :: second :: rest
  | picture => picture ++ [tone]

/-- The picture of a name that ends in a tone of skin. -/
def toned? (name : Text) : Option Text := do
  let (ending, tone) ← tones.find? fun t => name.endsWith t.1
  let plain := name.take (name.length - ending.length)
  if Pictures.toned.contains plain then
    pure (inTone tone (← Pictures.all.get? plain))
  else none

/-- The picture of a name in lower case. -/
def named? (name : Text) : Option Text :=
  ((Pictures.all.get? name).or (Flag.named? name)).or (toned? name)

/-- The ends of a name that ask for a picture in colour or in text style. -/
def variants : List (Text × CodePoint) := [("-emoji", inColour), ("-text", '\uFE0E')]

/-- A name without the style at its end, and what the style adds to the picture. -/
def splitVariant (name : Text) : Text × Text :=
  match variants.find? fun v => name.endsWith v.1 with
  | some (ending, mark) => (name.take (name.length - ending.length), [mark])
  | none => (name, [])

/-- The picture of a name, in any letter case. -/
def picture? (name : Text) : Option Text :=
  let (plain, mark) := splitVariant name
  (named? plain.lower).map (· ++ mark)

/-- The name at the start of a text that a colon ends; it holds no blank. -/
def name? (s : Text) : Option Text :=
  let name := s.takeWhile fun c : CodePoint => c ≠ ':' && !c.isBlank
  if (s.drop name.length).head? = some (':' : CodePoint) then some name else none

/-- `s` with its shortcodes as pictures. -/
def replace (s : Text) : Text :=
  match s with
  | [] => []
  | c :: rest =>
    if c = ':' then
      match name? rest with
      | some name =>
        (picture? name).getD (c :: name ++ [c]) ++ replace (rest.drop (name.length + 1))
      | none => c :: replace rest
    else c :: replace rest
termination_by s.length
decreasing_by all_goals simp only [List.length_cons, List.length_drop]; omega

end Shortcode

end SchemaTypings
