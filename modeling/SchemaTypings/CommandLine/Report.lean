import SchemaTypings.Batch
import SchemaTypings.CommandLine.Session

/-!
What a run prints about a batch: the warnings or the error of each file, and a summary.
-/

namespace SchemaTypings

namespace CommandLine

/-- The mark in front of an error. -/
def errorMark : Text := Markup.styled "red" "✗ Error:" ++ " "

/-- The text that a file failed with: its canonical text, or else the declaration as written. -/
def failedText (c : Conversion) : Text :=
  match c.normalized with
  | some text => if text.isEmpty then c.sourceText.getD [] else text
  | none => c.sourceText.getD []

/-- Prints the warnings or the error of one file. -/
def report (c : Conversion) : Run Unit := do
  match c.status with
  | .malformed => do
    Run.printMarkup (errorMark ++ Markup.escape (c.problem.getD []))
    if !(failedText c).isEmpty then Run.print (.framed "Failed declaration" (failedText c))
  | .unreadable => Run.printMarkup (errorMark ++ Markup.escape (c.problem.getD []))
  | _ => c.warnings.forM fun w =>
    Run.printMarkup (Markup.styled "yellow" ("⚠️  " ++ Markup.escape w))

/-- The style of a status in the summary. -/
def statusStyle : Status → Text
  | .converted => "green"
  | .noDeclaration | .empty => "yellow"
  | .malformed | .unreadable => "red"

/-- The row of one file in the summary. -/
def summaryRow (c : Conversion) : Except Error (List Text) := do
  let path ← Markup.shown (Markup.escape c.path)
  let status ← Markup.shown (Markup.styled (statusStyle c.status) c.status.label)
  let interface ← Markup.shown <| match c.interfaceName with
    | some name => if name.isEmpty then "-" else name
    | none => "-"
  pure [path, status, interface]

/-- Prints the table of all files and how many of them were converted. -/
def printSummary (b : BatchResult) : Run Unit := do
  let rows ← Run.lift (b.conversions.mapM summaryRow)
  Run.print (.line [])
  Run.print (.table "📊 Conversion Summary" ["File", "Status", "Interface"] rows)
  Run.printMarkup ("Converted " ++ Text.ofNat (b.count .converted) ++ " of "
    ++ Text.ofNat b.conversions.length ++ " file(s), " ++ Text.ofNat b.failed.length ++ " failed")

end CommandLine

end SchemaTypings
