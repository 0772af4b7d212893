import SchemaTypings.Text.Printable

/-!
Two quoted forms of a text. `quoted` is the double-quoted form of generated code and of JSON, which
escapes no more than it has to. `shown` is the form of messages, in which every code point that is
not printable is escaped.
-/

namespace SchemaTypings

/-- A hexadecimal digit in lower case. -/
def hexDigit (n : Nat) : CodePoint := ((Nat.digitChar (n % 16) : Char) : CodePoint)

/-- The lowest `width` hexadecimal digits of `n`. -/
def hexDigits : Nat → Nat → Text
  | 0, _ => []
  | width + 1, n => hexDigits width (n / 16) ++ [hexDigit n]

namespace CodePoint

/-- How `c` is written between double quotes. -/
def inDoubleQuotes (c : CodePoint) : Text :=
  if c = '"' then ['\\', '"'].map ofChar
  else if c = '\\' then ['\\', '\\'].map ofChar
  else if c = '\n' then ['\\', 'n'].map ofChar
  else if c = '\r' then ['\\', 'r'].map ofChar
  else if c = '\t' then ['\\', 't'].map ofChar
  else if c.val = 0x08 then ['\\', 'b'].map ofChar
  else if c.val = 0x0C then ['\\', 'f'].map ofChar
  else if c.val < 0x20 then ['\\', 'u'].map ofChar ++ hexDigits 4 c.val
  else [c]

/-- How `c` is written in a message between two marks `mark`. -/
def inMarks (mark c : CodePoint) : Text :=
  if c = mark ∨ c = '\\' then [('\\' : CodePoint), c]
  else if c = '\n' then ['\\', 'n'].map ofChar
  else if c = '\r' then ['\\', 'r'].map ofChar
  else if c = '\t' then ['\\', 't'].map ofChar
  else if c.isPrintable then [c]
  else if c.val < 0x100 then ['\\', 'x'].map ofChar ++ hexDigits 2 c.val
  else if c.val < 0x10000 then ['\\', 'u'].map ofChar ++ hexDigits 4 c.val
  else ['\\', 'U'].map ofChar ++ hexDigits 8 c.val

end CodePoint

namespace Text

/-- `s` in double quotes: quotes, backslashes and controls below U+0020 are escaped. -/
def quoted (s : Text) : Text :=
  [('"' : CodePoint)] ++ s.flatMap CodePoint.inDoubleQuotes ++ [('"' : CodePoint)]

/-- The mark around a shown text: an apostrophe, or a double quote if that saves escapes. -/
def mark (s : Text) : CodePoint :=
  if s.contains ('\'' : CodePoint) && !s.contains ('"' : CodePoint) then '"' else '\''

/-- `s` as messages show it. -/
def shown (s : Text) : Text :=
  [s.mark] ++ s.flatMap (CodePoint.inMarks s.mark) ++ [s.mark]

end Text

end SchemaTypings
