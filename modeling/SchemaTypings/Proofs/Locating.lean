import SchemaTypings.Proofs.Converting
import SchemaTypings.Proofs.Extraction
import SchemaTypings.Proofs.Positions

/-!
The places that batches report. The place of a malformed declaration is counted from the start of
its text and named as one of its file; where it is, and where it is not, the same place in the file.
-/

namespace SchemaTypings

/-! ### Counting on -/

namespace Text

variable {s t : Text} {n : Nat}

/-- The count over a text goes on over what is behind it. -/
theorem positionAt_go_append (s t : Text) (n : Nat) (here : Position) :
    positionAt.go (s ++ t) (s.length + n) here =
      positionAt.go t n (positionAt.go s s.length here) := by
  induction s generalizing here with
  | nil => rw [List.nil_append, List.length_nil, Nat.zero_add]; cases t <;> rfl
  | cons c s ih =>
    rw [List.cons_append, List.length_cons, Nat.succ_add, positionAt.go, positionAt.go, ih]

/-- What stands behind an offset does not matter to its place. -/
theorem positionAt_go_of_le (h : n ≤ s.length) (t : Text) (here : Position) :
    positionAt.go (s ++ t) n here = positionAt.go s n here := by
  induction s generalizing n here with
  | nil =>
    obtain rfl : n = 0 := Nat.le_zero.1 h
    cases t <;> rfl
  | cons c s ih =>
    cases n with
    | zero => rfl
    | succ n => exact ih (Nat.le_of_succ_le_succ h) _

/-- From the place `here` on, each line feed starts a line, and the columns of `here` count up to
the first of them. -/
theorem positionAt_go_eq (s : Text) (n : Nat) (here : Position) :
    positionAt.go s n here = ⟨here.line + (s.take n).count ('\n' : CodePoint),
      if ('\n' : CodePoint) ∈ s.take n then (s.positionAt n).column else here.column + n⟩ := by
  induction s generalizing n here with
  | nil => cases n <;> rfl
  | cons c s ih =>
    cases n with
    | zero => rfl
    | succ n =>
      rw [positionAt, positionAt.go, positionAt.go, ih, List.take_succ_cons]
      by_cases feed : c = '\n'
      · rw [if_pos feed, if_pos feed, ih, feed, List.count_cons_self, if_pos List.mem_cons_self,
          Nat.add_right_comm, Nat.add_assoc]
      · have notEnd : ('\n' : CodePoint) ≠ c := Ne.symm feed
        rw [if_neg feed, if_neg feed, ih, List.count_cons_of_ne feed, Nat.add_right_comm,
          Nat.add_assoc _ n 1]
        by_cases later : ('\n' : CodePoint) ∈ s.take n
        · rw [if_pos later, if_pos later, if_pos (List.mem_cons_of_mem c later)]
        · rw [if_neg later, if_neg (by simp [notEnd, later])]

/-- A place in a part of a text is the same place in the whole exactly if no line ends in front of
the part and, unless nothing stands there, one ends in the part before the place. -/
theorem positionAt_part_iff (h : n ≤ s.length) (front behind : Text) :
    s.positionAt n = (front ++ (s ++ behind)).positionAt (front.length + n) ↔
      ('\n' : CodePoint) ∉ front ∧ (front = [] ∨ ('\n' : CodePoint) ∈ s.take n) := by
  have whole : (front ++ (s ++ behind)).positionAt (front.length + n) =
      positionAt.go s n (front.positionAt front.length) := by
    rw [positionAt, positionAt_go_append, positionAt_go_of_le h]
    rfl
  have start := positionAt_go_eq front front.length ⟨1, 1⟩
  rw [List.take_length, ← positionAt] at start
  rw [whole, start, positionAt, positionAt_go_eq, positionAt_go_eq s n, Position.mk.injEq]
  by_cases feed : ('\n' : CodePoint) ∈ front
  · have some : 0 < front.count ('\n' : CodePoint) := List.count_pos_iff.2 feed
    exact iff_of_false (fun same => by dsimp only at same; omega) fun none => none.1 feed
  · rw [List.count_eq_zero_of_not_mem feed, if_neg feed, ← List.length_eq_zero_iff]
    by_cases later : ('\n' : CodePoint) ∈ s.take n
    · simp [feed, later]
    · simp only [feed, later, if_false, not_false_eq_true, true_and, or_false]
      omega

end Text

namespace Position

/-- A line that ends before an offset is not the line of the offset. -/
theorem length_le_of_marks {s : Text} {before before' after after' : List Text}
    {line line' : Text} (offset : Nat) (split : Text.lines s = before ++ line :: after)
    (split' : Text.lines s = before' ++ line' :: after')
    (within : offset ≤ (before.map fun l => l.length + 1).sum + line.length)
    (beyond : (before'.map fun l => l.length + 1).sum ≤ offset) :
    before'.length ≤ before.length := by
  refine Nat.le_of_not_lt fun longer => ?_
  have upTo : before ++ [line] <+: Text.lines s :=
    ⟨after, by rw [split, List.append_assoc, List.singleton_append]⟩
  have upTo' : before' <+: Text.lines s := ⟨line' :: after', split'.symm⟩
  obtain ⟨more, rfl⟩ := List.prefix_of_prefix_length_le upTo upTo' (by simpa using longer)
  simp only [List.map_append, List.map_cons, List.map_nil, List.sum_append, List.sum_cons,
    List.sum_nil] at beyond
  omega

/-- An offset has one place. -/
theorem Marks.unique {place place' : Position} {s : Text} {offset : Nat}
    (h : place.Marks s offset) (h' : place'.Marks s offset) : place = place' := by
  obtain ⟨before, line, after, split, row, first, last, sum⟩ := h
  obtain ⟨before', line', after', split', row', first', last', sum'⟩ := h'
  have size : before.length = before'.length :=
    Nat.le_antisymm (length_le_of_marks offset split' split (by omega) (by omega))
      (length_le_of_marks offset split split' (by omega) (by omega))
  obtain ⟨rfl, -⟩ := List.append_inj (split.symm.trans split') size
  obtain ⟨l, c⟩ := place
  obtain ⟨l', c'⟩ := place'
  dsimp only at row row' first first' sum sum'
  rw [Position.mk.injEq, row, row']
  exact ⟨rfl, by omega⟩

theorem marks_iff {place : Position} {s : Text} {offset : Nat} (h : offset ≤ s.length) :
    place.Marks s offset ↔ place = s.positionAt offset :=
  ⟨fun marks => marks.unique (Text.marks_positionAt h), fun eq => eq ▸ Text.marks_positionAt h⟩

end Position

/-! ### Malformed declarations -/

namespace Batch

variable {g : Generator} {known : InterfaceNames} {source path : Text} {d : Declaration}
variable {m : Malformed}

/-- A declaration without canonical text makes its file malformed, for the reason that it has. -/
theorem outcome_convert_of_normalize (path : Text)
    (found : (Declaration.extract source).outcome = .ok (some d))
    (refused : (Declaration.normalize d.text).outcome = .error (.malformed m))
    (unplaced : m.path = none) :
    (convert g known source path).outcome =
      .ok { path, status := .malformed, sourceText := some d.text,
            problem := some (m.withPath path).described } := by
  have read : (readTree d.text path).outcome = .error (.malformed m) := by
    rw [readTree, Logged.outcome_bind, refused, error_bind]
  rw [convert, Logged.outcome_bind, Logged.outcome_mapError, found, mapError_ok, ok_bind]
  dsimp only
  rw [Logged.outcome_bind, Logged.outcome_attempt, read, ok_bind]
  dsimp only
  rw [Batch.refused, unplaced]
  rfl

/-- A declaration that has no canonical text is reported with its file, and with the place of the
failure in the text of the declaration. That is the place of the failure in the file exactly if the
declaration starts on the first line and, unless it starts the file, fails behind its own first
line. -/
theorem reported_place_iff (known : InterfaceNames) (path : Text)
    (found : (Declaration.extract source).outcome = .ok (some d))
    (refused : (Declaration.normalize d.text).outcome = .error (.malformed m)) :
    ∃ c offset place, (convert g known source path).outcome = .ok c ∧ c.status = .malformed ∧
      m.pos = some offset ∧ (m.withPath path).PointsAt d.text offset place ∧
      c.problem = some (m.withPath path).described ∧
      (place.Marks source (d.start + offset) ↔
        ('\n' : CodePoint) ∉ source.take d.start ∧
          (d.start = 0 ∨ ('\n' : CodePoint) ∈ d.text.take offset)) := by
  have read : (Declaration.read d.text).outcome = .error (.malformed m) := by
    rw [Declaration.normalize, Logged.outcome_bind] at refused
    rcases bind_eq_error.1 refused with h | ⟨_, _, h⟩
    · exact h
    · cases h
  obtain ⟨unplaced, offset, place, points, moved⟩ := Malformed.exists_pointsAt (.inl read)
  obtain ⟨parts⟩ := Declaration.exists_parts found
  have whole : source = parts.front ++ (d.text ++ parts.behind) := by
    rw [parts.text, List.append_assoc, List.append_assoc]
    exact parts.whole
  have front : source.take d.start = parts.front := by
    rw [parts.start]
    exact (congrArg (List.take _) whole).trans List.take_left
  have inside : d.start + offset ≤ source.length := by
    have := points.inside
    rw [parts.start, parts.length_source]
    omega
  have same : source.positionAt (d.start + offset) =
      (parts.front ++ (d.text ++ parts.behind)).positionAt (parts.front.length + offset) := by
    rw [← whole, parts.start]
  refine ⟨_, offset, place, outcome_convert_of_normalize path found refused unplaced, rfl,
    points.pos, (moved path).1, rfl, ?_⟩
  rw [Position.marks_iff inside, (Position.marks_iff points.inside).1 points.marks, same,
    Text.positionAt_part_iff points.inside, front, parts.start, List.length_eq_zero_iff]

/-- A declaration behind a statement, which lacks a value on its second line. -/
def lateSource : Text := "f(); const s = new Schema(\x7b\n  a: \x7d);"

/-- The declaration in that source. -/
def late : Declaration := ⟨"s", "const s = new Schema(\x7b\n  a: \x7d);", 5, 36⟩

/-- What is wrong with it. -/
def lateFault : Malformed :=
  ⟨.declaration, "Expected a value", none, some late.text, some 28⟩

theorem reported_place_late : (Declaration.extract lateSource).outcome = .ok (some late) ∧
    (Declaration.normalize late.text).outcome = .error (.malformed lateFault) ∧
    ∃ c offset place, (convert .standard ⟨[]⟩ lateSource "a.js").outcome = .ok c ∧
      c.status = .malformed ∧ lateFault.pos = some offset ∧
      (lateFault.withPath "a.js").PointsAt late.text offset place ∧
      c.problem = some (lateFault.withPath "a.js").described ∧
      (place.Marks lateSource (late.start + offset) ↔
        ('\n' : CodePoint) ∉ lateSource.take late.start ∧
          (late.start = 0 ∨ ('\n' : CodePoint) ∈ late.text.take offset)) := by
  have found : (Declaration.extract lateSource).outcome = .ok (some late) := by decide +kernel
  have refused : (Declaration.normalize late.text).outcome = .error (.malformed lateFault) := by
    decide +kernel
  exact ⟨found, refused, reported_place_iff ⟨[]⟩ "a.js" found refused⟩

/-- The same behind an empty line, with the fault on its first line. -/
def shiftedSource : Text := "\nconst s = new Schema(\x7b a: \x7d);"

/-- The declaration in that source. -/
def shifted : Declaration := ⟨"s", "const s = new Schema(\x7b a: \x7d);", 1, 30⟩

/-- What is wrong with it. -/
def shiftedFault : Malformed :=
  ⟨.declaration, "Expected a value", none, some shifted.text, some 26⟩

/-- The message of a malformed file does not name the place of the failure in the file. -/
theorem not_reported_place_shifted :
    (Declaration.extract shiftedSource).outcome = .ok (some shifted) ∧
      (Declaration.normalize shifted.text).outcome = .error (.malformed shiftedFault) ∧
      shiftedFault.pos = some 26 ∧
      ¬∀ (c : Conversion) (place : Position),
        (convert .standard ⟨[]⟩ shiftedSource "a.js").outcome = .ok c →
        place.Marks shiftedSource (shifted.start + 26) →
          c.problem = some ("a.js" ++ ":" ++ Text.ofNat place.line ++ ":" ++
            Text.ofNat place.column ++ ": " ++ shiftedFault.message) := by
  have found : (Declaration.extract shiftedSource).outcome = .ok (some shifted) := by
    decide +kernel
  have refused : (Declaration.normalize shifted.text).outcome =
      .error (.malformed shiftedFault) := by
    decide +kernel
  refine ⟨found, refused, rfl, fun all => ?_⟩
  have place : (⟨2, 27⟩ : Position).Marks shiftedSource (shifted.start + 26) :=
    (Position.marks_iff (by decide)).2 (by decide +kernel)
  have named := all _ _ (outcome_convert_of_normalize "a.js" found refused rfl) place
  exact absurd named (by decide +kernel)

end Batch

end SchemaTypings
