import SchemaTypings.Text.Word
import SchemaTypings.Token

/-!
Regular-expression literals: their extent, up to the last flag. A slash inside a character class
does not close one.
-/

namespace SchemaTypings

/-- The width of a regular expression, read from the offset `here` inside it on. -/
def regexEnd (inClass : Bool) (here : Nat) (s : Text) : Except LexError Nat :=
  match s with
  | [] => .error ⟨.unterminatedRegex, 0⟩
  | c :: rest =>
    if c = '\n' then .error ⟨.unterminatedRegex, 0⟩
    else if c = '\\' then regexEnd inClass (here + 2) (rest.drop 1)
    else if c = '[' then regexEnd true (here + 1) rest
    else if c = ']' then regexEnd false (here + 1) rest
    else if c = '/' ∧ inClass = false then .ok (here + 1 + (rest.takeWhile CodePoint.isWord).length)
    else regexEnd inClass (here + 1) rest
termination_by s.length
decreasing_by all_goals simp only [List.length_cons, List.length_drop]; omega

end SchemaTypings
