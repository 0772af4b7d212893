import SchemaTypings.Error
import SchemaTypings.Text.Blank

/-!
Layout of generated code: no blanks at line ends, at most one empty line in a row, and in the
stricter form an indentation by brace depth and one line feed at the end.
-/

namespace SchemaTypings

namespace Layout

/-- The lines without blanks at their ends, where `blank` tells whether the line before was empty;
of a run of empty lines one stays. -/
def squeeze (blank : Bool) : List Text → List Text
  | [] => []
  | line :: rest =>
    let stripped := line.stripRight
    if stripped.isEmpty then
      if blank then squeeze true rest else [] :: squeeze true rest
    else stripped :: squeeze false rest

/-- The lines of `code`, tidied. -/
def tidyLines (code : Text) : List Text := squeeze false code.lines

/-- `code` without blanks at line ends and with at most one empty line in a row. -/
def tidy (code : Text) : Text := Text.join "\n" (tidyLines code)

/-- What follows the quote that closes a string, in which a backslash keeps what follows it. -/
def afterString? : Text → Option Text
  | [] => none
  | c :: rest =>
    if c = '"' then some rest
    else if c = '\\' then
      match rest with
      | [] => none
      | _ :: more => afterString? more
    else afterString? rest

theorem length_afterString? {s rest : Text} (h : afterString? s = some rest) :
    rest.length ≤ s.length := by
  fun_induction afterString? s <;> simp_all <;> omega

/-- A line with every string in it emptied. -/
def bare (s : Text) : Text :=
  match s with
  | [] => []
  | c :: rest =>
    if c = '"' then
      match _h : afterString? rest with
      | some tail => '"' :: '"' :: bare tail
      | none => c :: bare rest
    else c :: bare rest
termination_by s.length
decreasing_by
  · have := length_afterString? _h
    simp; omega
  · simp
  · simp

/-- The lines indented by brace depth; `depth` braces are open before the first of them. It fails
where memory has no room for an indentation. -/
def indentLines (memory : Option Nat) (indent : Text) (depth : Nat) :
    List Text → Except Error (List Text)
  | [] => .ok []
  | line :: rest => do
    let stripped := line.strip
    if stripped.isEmpty then pure ([] :: (← indentLines memory indent depth rest))
    else
      let code := bare stripped
      let opened := code.count ('\x7b' : CodePoint)
      let closed := code.count ('\x7d' : CodePoint)
      let level := if Text.startsWith code "\x7d" then depth - 1 else depth
      let star : Text := if Text.startsWith stripped "*" then " " else ""
      let start ← Text.repeated memory indent level
      let others ← indentLines memory indent (depth + opened - closed) rest
      pure ((start ++ star ++ stripped) :: others)

/-- `code` indented by brace depth, tidy, and with one line feed at its end. -/
def format (memory : Option Nat) (indent : Text) (code : Text) : Except Error Text := do
  let lines ← indentLines memory indent 0 (tidyLines code)
  pure (Text.trim (· = '\n') (Text.join "\n" lines) ++ "\n")

end Layout

end SchemaTypings
