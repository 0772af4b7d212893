import SchemaTypings.Text.CodePoint

/-!
Lines and columns. Both count from one, and a line feed belongs to the line that it ends.
-/

namespace SchemaTypings

/-- A place in a text as people name it. -/
structure Position where
  line : Nat
  column : Nat
deriving DecidableEq, Repr

/-- The place of the offset `offset` in `s`. -/
def Text.positionAt (s : Text) (offset : Nat) : Position :=
  go s offset ⟨1, 1⟩
where
  go : Text → Nat → Position → Position
  | _, 0, here => here
  | [], n + 1, here => ⟨here.line, here.column + (n + 1)⟩
  | c :: rest, n + 1, here =>
    go rest n (if c = '\n' then ⟨here.line + 1, 1⟩ else ⟨here.line, here.column + 1⟩)

end SchemaTypings
