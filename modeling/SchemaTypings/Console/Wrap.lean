import SchemaTypings.Console.Cells
import SchemaTypings.Text.Blank

/-!
Wrapping: a line that is too wide for its place goes on below, at a blank if that is possible. A
word that is wider than the place starts a line; it is either folded where the line is full, or cut
there with an ellipsis.
-/

namespace SchemaTypings

namespace Wrap

/-- `s` with its tabs as blanks, up to the next multiple of eight cells behind `column`. -/
def expandTabs (column : Nat) : Text → Text
  | [] => []
  | c :: rest =>
    if c = '\t' then
      let width := 8 - column % 8
      Text.times width ' ' ++ expandTabs (column + width) rest
    else c :: expandTabs (column + c.cells) rest

/-- The words of a line, each with the blanks behind it, the first also with those before it. -/
def words (s : Text) : List Text :=
  match s with
  | [] => []
  | c :: rest =>
    let before := (c :: rest).takeWhile CodePoint.isBlank
    let word := ((c :: rest).drop before.length).takeWhile fun d => !d.isBlank
    if word.isEmpty then []
    else
      let behind := ((c :: rest).drop (before.length + word.length)).takeWhile CodePoint.isBlank
      let whole := before ++ word ++ behind
      whole :: words (rest.drop (whole.length - 1))
termination_by s.length
decreasing_by simp only [List.length_cons, List.length_drop]; omega

/-- `s` in pieces of at most `width` cells, where the first piece goes on behind `piece`. -/
def chop (width : Nat) (piece : Text) : Text → List Text
  | [] => [piece]
  | c :: rest =>
    if width < piece.cells + c.cells then piece :: chop width [c] rest
    else chop width (piece ++ [c]) rest

/-- The pieces are the whole text, in order. -/
theorem flatten_chop (width : Nat) (piece s : Text) :
    (chop width piece s).flatten = piece ++ s := by
  induction s generalizing piece with
  | nil => simp [chop]
  | cons c rest ih => rw [chop]; split <;> simp [ih]

/-- The lines so far, the last one first, and the cells of the last line that are taken. -/
structure Page where
  lines : List Text
  taken : Nat

/-- The page with `s` at its end. -/
def Page.add (p : Page) (s : Text) : Page :=
  match p.lines with
  | [] => ⟨[s], s.cells⟩
  | line :: above => ⟨(line ++ s) :: above, p.taken + s.cells⟩

/-- The page with `s` on a line of its own. -/
def Page.addLine (p : Page) (s : Text) : Page := ⟨s :: p.lines, s.cells⟩

/-- The page with one more word, which is folded if it must and may be. -/
def Page.addWord (fold : Bool) (width : Nat) (p : Page) (word : Text) : Page :=
  let cells := word.stripRight.cells
  if p.taken + cells ≤ width then p.add word
  else if fold && width < cells then (chop width [] word).foldl Page.addLine p
  else p.addLine word

/-- The lines that a line becomes in `width` cells; a blank one is one line. -/
def broken (fold : Bool) (width : Nat) (s : Text) : List Text :=
  let page := (words (expandTabs 0 s)).foldl (Page.addWord fold width) ⟨[], 0⟩
  if page.lines.isEmpty then [[]] else page.lines.reverse

/-- The lines that a line becomes on a console. -/
def lines (width : Nat) (s : Text) : List Text := broken true width s

/-- `s` without the blanks at its end that are beyond `width` code points. -/
def trimmed (width : Nat) (s : Text) : Text :=
  let blanks := s.length - s.stripRight.length
  s.take (s.length - min blanks (s.length - width))

/-- The longest beginning of `s` in at most `width` cells, filled up with a blank. -/
def cut (width : Nat) (s : Text) : Text :=
  let kept := ((chop width [] s).head?).getD []
  kept ++ Text.times (width - kept.cells) ' '

/-- `s` cut to `width` cells with an ellipsis, if it has more. -/
def cropped (width : Nat) (s : Text) : Text :=
  let s := trimmed width s
  if s.cells ≤ width then s else cut (width - 1) s ++ "…"

/-- The lines that a text becomes in a cell of a table. -/
def cellLines (width : Nat) (s : Text) : List Text :=
  (Text.lines s).flatMap fun line => (broken false width line).map (cropped width)

end Wrap

end SchemaTypings
