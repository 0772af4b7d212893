import SchemaTypings.Text.CodePoint
import SchemaTypings.Text.Edges

/-!
Blanks: the code points that separate tokens and words.
-/

namespace SchemaTypings

/-- The white space of Unicode, with the four separator controls U+001C to U+001F. -/
def blankEdges : Edges :=
  [9, 14, 28, 33, 133, 134, 160, 161, 5760, 5761, 8192, 8203, 8232, 8234, 8239, 8240, 8287, 8288,
   12288, 12289]

/-- Whether `c` is white space. -/
def CodePoint.isBlank (c : CodePoint) : Bool := blankEdges.contains c.val

/-- White space around a number: every blank but the four separator controls. -/
def CodePoint.isBlankAtNumber (c : CodePoint) : Bool := c.isBlank && !(c.isBetween '\x1c' '\x1f')

namespace Text

/-- `s` without the blanks at either end. -/
def strip (s : Text) : Text := trim CodePoint.isBlank s

/-- `s` without the blanks at its end. -/
def stripRight (s : Text) : Text := trimRight CodePoint.isBlank s

/-- The words of `s`: its longest pieces without a blank. -/
def words (s : Text) : List Text := (splitWhere CodePoint.isBlank s).filter (· ≠ [])

end Text

end SchemaTypings
