import SchemaTypings.Proofs.Escapes
import SchemaTypings.Proofs.Failures
import SchemaTypings.Proofs.Grammar
import SchemaTypings.Proofs.JoinedLines
import SchemaTypings.Proofs.Spans

/-!
Where an error points. Each offset in a text is a column of one of its lines, and an error of a
reader is at the offset of a token, or at that of what no token could be read from.
-/

namespace SchemaTypings

/-! ### Lines and columns -/

/-- The place is that of the offset `offset` in `s`: in front of it stand the lines before its line,
each with its line feed, and the columns before its column. A line has one column for each code
point, and one for its end. -/
def Position.Marks (place : Position) (s : Text) (offset : Nat) : Prop :=
  ∃ before line after, Text.lines s = before ++ line :: after ∧ place.line = before.length + 1 ∧
    1 ≤ place.column ∧ place.column ≤ line.length + 1 ∧
    offset = (before.map fun l => l.length + 1).sum + (place.column - 1)

namespace Text

/-- From the place `here` at the start of `s` on, the count reaches the line and the column of the
offset; the first line is counted from the column of `here` on. -/
theorem exists_go_eq {s : Text} {n : Nat} (h : n ≤ s.length) (here : Position) :
    ∃ before line after k, lines s = before ++ line :: after ∧ k ≤ line.length ∧
      n = (before.map fun l => l.length + 1).sum + k ∧
      positionAt.go s n here =
        ⟨here.line + before.length, (if before = [] then here.column else 1) + k⟩ := by
  induction s generalizing n here with
  | nil =>
    obtain rfl : n = 0 := Nat.le_zero.1 h
    exact ⟨[], [], [], 0, rfl, Nat.le_refl 0, rfl, rfl⟩
  | cons c s ih =>
    cases n with
    | zero =>
      cases pieces : lines (c :: s) with
      | nil => exact absurd pieces (lines_ne_nil _)
      | cons line after => exact ⟨[], line, after, 0, rfl, Nat.zero_le _, rfl, rfl⟩
    | succ n =>
      have inside : n ≤ s.length := Nat.le_of_succ_le_succ h
      rw [positionAt.go]
      by_cases feed : c = '\n'
      · obtain ⟨before, line, after, k, split, bound, sum, reached⟩ := ih inside ⟨here.line + 1, 1⟩
        refine ⟨[] :: before, line, after, k, ?_, bound, ?_, ?_⟩
        · rw [feed, lines, splitOn_cons_self, ← lines, split]
          rfl
        · rw [List.map_cons, List.sum_cons, List.length_nil]
          omega
        · rw [if_pos feed, reached, List.length_cons, if_neg (List.cons_ne_nil [] before), ite_self,
            Nat.add_assoc, Nat.add_comm 1]
      · obtain ⟨first, others, split, split'⟩ := exists_splitOn_cons feed s
        obtain ⟨before, line, after, k, cut, bound, sum, reached⟩ :=
          ih inside ⟨here.line, here.column + 1⟩
        rw [lines, split] at cut
        rw [if_neg feed, reached, lines, split']
        cases before with
        | nil =>
          cases cut
          refine ⟨[], c :: first, others, k + 1, rfl, Nat.succ_le_succ bound, ?_, ?_⟩
          · rw [sum, Nat.add_assoc]
          · rw [if_pos rfl, if_pos rfl, Nat.add_assoc, Nat.add_comm 1]
        | cons b before =>
          cases cut
          refine ⟨(c :: first) :: before, line, after, k, rfl, bound, ?_, rfl⟩
          rw [sum, List.map_cons, List.map_cons, List.sum_cons, List.sum_cons, List.length_cons]
          omega

theorem marks_positionAt {s : Text} {offset : Nat} (h : offset ≤ s.length) :
    (s.positionAt offset).Marks s offset := by
  obtain ⟨before, line, after, k, split, bound, sum, reached⟩ := exists_go_eq h ⟨1, 1⟩
  have place : s.positionAt offset = ⟨before.length + 1, k + 1⟩ := by
    rw [positionAt, reached, ite_self, Nat.add_comm 1, Nat.add_comm 1]
  rw [place]
  exact ⟨before, line, after, split, rfl, Nat.le_add_left 1 k, Nat.succ_le_succ bound, sum⟩

end Text

example : Text.positionAt "ab\n\nc" 5 = ⟨3, 2⟩ := by decide

/-! ### Where no token could be read -/

/-- What is left from the offset `here` on ends at the offset `bound` at the latest. If nothing is
left, the last mark may have been passed over with one that is not there. -/
def Text.EndsBy (bound here : Nat) (s : Text) : Prop := s ≠ [] → here + s.length ≤ bound

namespace Text.EndsBy

variable {bound here : Nat} {c : CodePoint} {rest : Text}

theorem lt (h : EndsBy bound here (c :: rest)) : here < bound := by
  have le := h (List.cons_ne_nil c rest)
  rw [List.length_cons] at le
  omega

theorem pass {n : Nat} (h : EndsBy bound here (c :: rest)) :
    EndsBy bound (here + 1 + n) (rest.drop n) := by
  intro some
  have le := h (List.cons_ne_nil c rest)
  have inside : n < rest.length := Nat.lt_of_not_le fun far => some (List.drop_eq_nil_iff.2 far)
  rw [List.length_cons] at le
  rw [List.length_drop]
  omega

theorem step (h : EndsBy bound here (c :: rest)) : EndsBy bound (here + 1) rest := h.pass (n := 0)

theorem earlier {s : Text} {here' : Nat} (h : EndsBy bound here s) (le : here' ≤ here) :
    EndsBy bound here' s :=
  fun some => (Nat.add_le_add_right le _).trans (h some)

/-- A width that is passed over counts the code point in front. -/
theorem width (h : EndsBy bound here (c :: rest)) (w : Nat) :
    EndsBy bound (here + w) (rest.drop (w - 1)) :=
  h.pass.earlier (by omega)

end Text.EndsBy

open Text

variable {e : LexError} {bound here : Nat} {s : Text}

theorem pos_lt_of_stringBody {quote : CodePoint} (h : stringBody quote here s = .error e)
    (ends : EndsBy bound here s) (some : 0 < bound) : e.pos < bound := by
  fun_induction stringBody quote here s
  case case1 | case3 | case8 =>
    cases h
    exact some
  case case2 => cases h
  case case6 | case7 =>
    cases h
    exact ends.lt
  case case4 ih => exact ih (map_eq_error.1 h) ends.pass
  case case5 ih => exact ih h ends.pass
  case case9 ih => exact ih (map_eq_error.1 h) ends.step

/-- The parts of a template start inside of it. -/
theorem TemplatePart.starts_of_step {part next : TemplatePart} {outer more : List TemplatePart}
    {passed : Nat} {c : CodePoint} (h : part.step outer here c s = .goes next more passed)
    (ends : EndsBy bound here (c :: s)) (starts : ∀ p ∈ part :: outer, p.unterminated.pos < bound) :
    ∀ p ∈ next :: more, p.unterminated.pos < bound := by
  have around := (List.forall_mem_cons.1 starts).2
  unfold step at h
  split at h
  · cases outer with
    | nil => cases h
    | cons part' outer =>
      cases h
      exact around
  cases part with
  | template start =>
    dsimp only at h
    split at h
    · cases h
      exact starts
    split at h
    · next dollar =>
      -- The expression starts at the brace, which is there.
      obtain ⟨rest, rfl⟩ := List.head?_eq_some_iff.1 dollar.2
      cases h
      exact List.forall_mem_cons.2 ⟨ends.step.lt, starts⟩
    · cases h
      exact starts
  | expression start depth =>
    -- A brace changes the depth of an expression, but not where it starts.
    have same (depth' : Nat) :
        ∀ p ∈ TemplatePart.expression start depth' :: outer, p.unterminated.pos < bound :=
      List.forall_mem_cons.2 (List.forall_mem_cons.1 starts)
    dsimp only at h
    split at h
    · split at h
      · cases h
      · cases h
        exact starts
    split at h
    · cases h
      exact List.forall_mem_cons.2 ⟨ends.lt, starts⟩
    split at h
    · cases h
      exact same _
    split at h
    · cases h
      exact same _
    · cases h
      exact starts

/-- A template fails where one of its parts starts, or in a string inside of it. -/
theorem pos_lt_of_templateEnd {part : TemplatePart} {outer : List TemplatePart}
    (h : templateEnd part outer here s = .error e) (ends : EndsBy bound here s)
    (starts : ∀ p ∈ part :: outer, p.unterminated.pos < bound) : e.pos < bound := by
  fun_induction templateEnd part outer here s
  case case1 =>
    cases h
    exact starts _ List.mem_cons_self
  case case2 => cases h
  case case3 does ih => exact ih h ends.pass (TemplatePart.starts_of_step does ends starts)
  case case4 rest _ fails =>
    cases h
    obtain ⟨quote, error, body, rfl⟩ := TemplatePart.exists_of_step_fails fails
    show error.pos + _ < bound
    have inside : EndsBy (1 + rest.length) 1 rest := fun _ => Nat.le_refl _
    have early := pos_lt_of_stringBody body inside (by omega)
    have whole := ends (List.cons_ne_nil _ rest)
    rw [List.length_cons] at whole
    omega

/-- What cannot be read at the start of a text fails inside of it. -/
theorem pos_lt_of_read {r : Bool} {c : CodePoint} (h : Lexeme.read r c s = .error e) :
    e.pos < 1 + s.length := by
  have inside : EndsBy (1 + s.length) 1 s := fun _ => Nat.le_refl _
  have some : 0 < 1 + s.length := by omega
  cases Lexeme.fails_of_read h with
  | comment => exact some
  | string body => exact pos_lt_of_stringBody body inside some
  | template body => exact pos_lt_of_templateEnd body inside (List.forall_mem_singleton.2 some)
  | regex body =>
    rw [eq_of_regexEnd body]
    exact some

theorem pos_lt_of_lex {r : Bool} (h : (lex r here s).error? = some e) (ends : EndsBy bound here s) :
    e.pos < bound := by
  fun_induction lex r here s
  case case1 => cases h
  case case2 rest error read =>
    cases h
    show error.pos + _ < bound
    have early := pos_lt_of_read read
    have whole := ends (List.cons_ne_nil _ rest)
    rw [List.length_cons] at whole
    omega
  case case3 ih => exact ih h (ends.width _)
  case case4 ih => exact ih h (ends.width _)

/-- A source without tokens fails at one of its code points. -/
theorem pos_lt_of_tokenize (h : tokenize s = .error e) : e.pos < s.length := by
  apply pos_lt_of_lex (error?_of_tokenize h)
  exact fun _ => Nat.le_of_eq (Nat.zero_add _)

/-! ### Where a token is missed -/

theorem IsRow.pos_le {p : Nat} {ts : List Token} (h : IsRow p s ts) :
    ∀ t ∈ ts, t.pos ≤ p + s.length := by
  induction h with
  | ending ending => simp [Token.eof]
  | @token p gap text s t ts padding notEnd some written pos stop rest ih =>
    rw [List.length_append, List.length_append]
    refine List.forall_mem_cons.2 ⟨by omega, fun u hu => ?_⟩
    have le := ih u hu
    omega

/-- A failure of a reader on the tokens of a source is at an offset of the source or at its end. -/
theorem Cause.exists_pos {source : Text} {ts : List Token} {m : Malformed}
    (h : Cause source ts (.malformed m)) (tokens : tokenize source = .ok ts) :
    m.text = some source ∧ m.path = none ∧ ∃ pos, m.pos = some pos ∧ pos ≤ source.length := by
  cases h with
  | @malformed _ t seen text pos path =>
    refine ⟨text, path, t.pos, pos, ?_⟩
    rcases List.mem_cons.1 seen with rfl | mem
    · exact Nat.zero_le _
    · have le := (isRow_of_tokenize tokens).pos_le t mem
      rwa [Nat.zero_add] at le

/-- The same where the source has no tokens. -/
theorem exists_pos_of_ofLexical {stage : Stage} {source : Text} {m : Malformed}
    (tokens : tokenize source = .error e) (h : ReadError.ofLexical stage source e = .malformed m) :
    m.text = some source ∧ m.path = none ∧ ∃ pos, m.pos = some pos ∧ pos ≤ source.length := by
  unfold ReadError.ofLexical at h
  split at h
  · cases h
  · cases h
    exact ⟨rfl, rfl, e.pos, rfl, (pos_lt_of_tokenize tokens).le⟩

namespace Malformed

/-- The error is about `source`, at the offset `offset`, and its message names the place of that. -/
structure PointsAt (m : Malformed) (source : Text) (offset : Nat) (place : Position) : Prop where
  text : m.text = some source
  pos : m.pos = some offset
  inside : offset ≤ source.length
  marks : place.Marks source offset
  described : m.described = m.file ++ ":" ++ Text.ofNat place.line ++ ":" ++
    Text.ofNat place.column ++ ": " ++ m.message

theorem pointsAt {m : Malformed} {source : Text} {offset : Nat} (text : m.text = some source)
    (pos : m.pos = some offset) (inside : offset ≤ source.length) :
    m.PointsAt source offset (source.positionAt offset) where
  text := text
  pos := pos
  inside := inside
  marks := marks_positionAt inside
  described := by rw [described, location, text, pos]

/-- A text that cannot be read as a declaration or as a literal is refused at one of its offsets or
at its end, and the message names the line and the column of that. In another file the error is the
same one at the same place. -/
theorem exists_pointsAt {source : Text} {m : Malformed}
    (h : (Declaration.read source).outcome = .error (.malformed m) ∨
      Literal.parse source = .error (.malformed m)) :
    m.path = none ∧ ∃ offset place, m.PointsAt source offset place ∧
      ∀ path, (m.withPath path).PointsAt source offset place ∧
        (m.withPath path).path = some path ∧ (m.withPath path).message = m.message ∧
        (m.withPath path).stage = m.stage := by
  have found : m.text = some source ∧ m.path = none ∧
      ∃ pos, m.pos = some pos ∧ pos ≤ source.length := by
    rcases h with h | h
    · have raw : (Declaration.readRaw source).outcome = .error (.malformed m) := by
        rw [Declaration.read, Logged.outcome_bind] at h
        rcases bind_eq_error.1 h with h | ⟨_, _, h⟩
        · exact h
        · cases h
      rw [Declaration.readRaw] at raw
      split at raw
      · next tokens => exact exists_pos_of_ofLexical tokens (Except.error.inj raw)
      · next tokens => exact (Declaration.cause_of_ofTokens raw).exists_pos tokens
    · rw [Literal.parse] at h
      split at h
      · next tokens => exact exists_pos_of_ofLexical tokens (Except.error.inj h)
      · next tokens => exact (LiteralText.cause_of_ofTokens h).exists_pos tokens
  obtain ⟨text, path, offset, pos, inside⟩ := found
  refine ⟨path, offset, source.positionAt offset, pointsAt text pos inside, fun path => ?_⟩
  exact ⟨pointsAt text pos inside, rfl, rfl, rfl⟩

/-- A literal that lacks a value on its second line. -/
def gappedText : Text := "\x7b\n  a: \x7d"

theorem exists_pointsAt_gapped :
    ∃ m, Literal.parse gappedText = .error (.malformed m) ∧
      m.described = Text.ofString "<source>:2:6: Expected a literal value, found '\x7d'" ∧
      m.path = none ∧ ∃ offset place, m.PointsAt gappedText offset place ∧
        ∀ path, (m.withPath path).PointsAt gappedText offset place ∧
          (m.withPath path).path = some path ∧ (m.withPath path).message = m.message ∧
          (m.withPath path).stage = m.stage := by
  have refused : Literal.parse gappedText = .error (.malformed ⟨.literal,
      "Expected a literal value, found '\x7d'", none, some gappedText, some 7⟩) := by
    have tokens : tokenize gappedText = .ok [⟨.opens .curly, "\x7b", 0, 1⟩, ⟨.name, "a", 4, 5⟩,
        ⟨.colon, ":", 5, 6⟩, ⟨.closes .curly, "\x7d", 7, 8⟩, Token.eof 8] := by decide +kernel
    rw [Literal.parse, tokens]
    rfl
  exact ⟨_, refused, by decide +kernel, exists_pointsAt (.inr refused)⟩

end Malformed

end SchemaTypings
