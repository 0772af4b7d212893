import SchemaTypings.Console.Wrap

/-!
Tables on a console: how wide the columns are, and the lines that the rows become. If a table is too
wide, its widest columns are narrowed first.
-/

namespace SchemaTypings

namespace Table

/-- Whether `c` ends a line where the width of a cell is measured. -/
def endsLine (c : CodePoint) : Bool :=
  (10 ≤ c.val && c.val ≤ 13) || (28 ≤ c.val && c.val ≤ 30) || c.val = 0x85 || c.val = 0x2028 ||
    c.val = 0x2029

/-- The blanks on both sides of a cell. -/
def padding : Nat := 2

/-- The cells of the widest line of a text. -/
def measure (s : Text) : Nat := ((Text.splitWhere endsLine s).map Text.cells).foldl max 0

/-- The widths of the columns that the rows ask for. -/
def wanted : List (List Text) → List Nat
  | [] => []
  | [row] => row.map fun s => measure s + padding
  | row :: rest => List.zipWith max (row.map fun s => measure s + padding) (wanted rest)

/-- `n` divided by `d` and rounded, a half to the even neighbour. -/
def roundedQuotient (n d : Nat) : Nat :=
  let q := n / d
  if 2 * (n % d) < d then q
  else if d < 2 * (n % d) then q + 1
  else q + q % 2

/-- The widths after `total` cells are taken from those that are equal to `widest`, of which there
are `count`, in equal shares but from none more than `most`. -/
def narrowed (widest most total count : Nat) : List Nat → List Nat
  | [] => []
  | w :: rest =>
    if w = widest && 0 < count then
      let share := min most (roundedQuotient total count)
      (w - share) :: narrowed widest most (total - share) (count - 1) rest
    else w :: narrowed widest most total count rest

@[simp] theorem length_narrowed (widest most total count : Nat) (widths : List Nat) :
    (narrowed widest most total count widths).length = widths.length := by
  induction widths generalizing total count with
  | nil => rfl
  | cons w rest ih => rw [narrowed]; split <;> simp [ih]

/-- The cells that columns take together. -/
def total (widths : List Nat) : Nat := widths.foldl (· + ·) 0

/-- The widths after columns are narrowed until they fit into `width` cells: the widest ones down to
the next widest, and so on. -/
def fitted (width : Nat) : Nat → List Nat → List Nat
  | 0, widths => widths
  | fuel + 1, widths =>
    let excess := total widths - width
    let widest := widths.foldl max 0
    let second := (widths.filter (· ≠ widest)).foldl max 0
    if excess = 0 || widest = second then widths
    else
      fitted width fuel
        (narrowed widest (min excess (widest - second)) excess (widths.count widest) widths)

@[simp] theorem length_fitted (width fuel : Nat) (widths : List Nat) :
    (fitted width fuel widths).length = widths.length := by
  induction fuel generalizing widths with
  | zero => rfl
  | succ fuel ih => simp only [fitted]; split <;> simp [ih]

/-- The widths of the columns on a console of `width` cells, of which one between columns and one at
each side are taken. -/
def columnWidths (width : Nat) (rows : List (List Text)) : List Nat :=
  let widths := wanted rows
  fitted (width - (widths.length + 1)) (total widths) widths

/-- The lines of a row: those of its cells side by side, from the top. -/
def rowLines (widths : List Nat) (row : List Text) : List Text :=
  let cells := List.zipWith (fun w s => Wrap.cellLines (w - padding) s) widths row
  let height := (cells.map List.length).foldl max 0
  (List.range height).map fun i =>
    "  " ++ Text.join "  " (cells.map fun lines => (lines[i]?).getD [])

/-- The lines of a table. -/
def lines (width : Nat) (rows : List (List Text)) : List Text :=
  rows.flatMap (rowLines (columnWidths width rows))

end Table

end SchemaTypings
