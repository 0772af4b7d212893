import SchemaTypings.Console.Table

/-!
What a run prints: lines of text, text in a frame, and tables. How wide the console is, whoever
shows them must say.
-/

namespace SchemaTypings

/-- A thing that is printed. -/
inductive Printed
  | line (s : Text)
  | framed (title body : Text)
  | table (title : Text) (header : List Text) (rows : List (List Text))
deriving DecidableEq, Repr

/-- The lines of a printed thing on a console of `width` cells, without frames and rules. -/
def Printed.lines (width : Nat) : Printed → List Text
  | .line s => (Text.lines s).flatMap (Wrap.lines width)
  | .framed title body => title :: (Text.lines body).map fun l => "  " ++ l
  | .table title header rows => title :: Table.lines width (header :: rows)

end SchemaTypings
