import SchemaTypings.Declaration.Reader
import SchemaTypings.Proofs.Cutting
import SchemaTypings.Proofs.Headers
import SchemaTypings.Proofs.Numbers

/-!
What the tokens of a source span. A source that has tokens is a row of gaps and tokens, and ends
with a gap: each token is written where it stands, and each gap is made of blanks and comments.
-/

namespace SchemaTypings

/-! ### Parts that are found -/

namespace Text

theorem not_infix_of_find? {part s : Text} (some : part ≠ []) (h : find? part s = none) :
    ¬part <:+: s := by
  induction s with
  | nil => exact fun inside => some (List.infix_nil.1 inside)
  | cons c s ih =>
    rw [find?] at h
    split at h
    · cases h
    · next other =>
      intro inside
      rcases List.infix_cons_iff.1 inside with here | inside
      · exact other (List.isPrefixOf_iff_prefix.2 here)
      · exact ih (Option.map_eq_none_iff.1 h) inside

end Text

/-! ### Gaps -/

namespace Text

/-- A comment with its end. -/
inductive IsComment : Text → Prop
  | line {body : Text} (h : ¬("\n" : Text) <:+: body) : IsComment ("//" ++ (body ++ "\n"))
  | block {body : Text} (h : ¬("*/" : Text) <:+: body) : IsComment ("/*" ++ (body ++ "*/"))

/-- Blanks and comments. -/
inductive IsPadding : Text → Prop
  | nil : IsPadding []
  | blank {c : CodePoint} {s : Text} (blank : c.isBlank = true) (rest : IsPadding s) :
      IsPadding (c :: s)
  | comment {a s : Text} (comment : IsComment a) (rest : IsPadding s) : IsPadding (a ++ s)

/-- Blanks and comments, of which the last may lack its line feed. -/
inductive IsEnding : Text → Prop
  | whole {s : Text} (padding : IsPadding s) : IsEnding s
  | line {s body : Text} (padding : IsPadding s) (h : ¬("\n" : Text) <:+: body) :
      IsEnding (s ++ ("//" ++ body))

/-- One blank or one comment. -/
inductive IsPad : Text → Prop
  | blank {c : CodePoint} (blank : c.isBlank = true) : IsPad [c]
  | comment {a : Text} (comment : IsComment a) : IsPad a

theorem IsPad.cons {a s : Text} (h : IsPad a) (rest : IsPadding s) : IsPadding (a ++ s) := by
  cases h with
  | blank blank => exact .blank blank rest
  | comment comment => exact .comment comment rest

theorem IsPad.ending {a s : Text} (h : IsPad a) (rest : IsEnding s) : IsEnding (a ++ s) := by
  cases rest with
  | whole padding => exact .whole (h.cons padding)
  | line padding body =>
    rw [← List.append_assoc]
    exact .line (h.cons padding) body

end Text

/-! ### Runs without blanks and marks -/

namespace CodePoint

/-- A code point that may stand behind others in a name, a number or an operator: no blank, and no
mark, which is a token by itself. -/
def IsSolid (c : CodePoint) : Prop := c.isBlank = false ∧ Lexeme.mark? c = none

instance (c : CodePoint) : Decidable c.IsSolid := inferInstanceAs (Decidable (_ ∧ _))

/-- What is no blank and has a property that no mark has may stand there. -/
theorem isSolid_of {p : CodePoint → Bool} (none : ∀ m ∈ Lexeme.marks, p m.1 = false)
    {c : CodePoint} (notBlank : c.isBlank = false) (h : p c = true) : c.IsSolid := by
  refine ⟨notBlank, Option.eq_none_iff_forall_ne_some.2 fun kind mark => ?_⟩
  rw [none _ (Lexeme.mem_marks_of_mark? mark)] at h
  cases h

theorem isSolid_of_isNamePart {c : CodePoint} (h : c.isNamePart = true) : c.IsSolid := by
  refine isSolid_of (by decide) (Bool.eq_false_iff.2 fun blank => ?_) h
  rw [not_isNamePart_of_isBlank blank] at h
  cases h

theorem isSolid_of_isWord {c : CodePoint} (h : c.isWord = true) : c.IsSolid :=
  isSolid_of_isNamePart (by rw [isNamePart, h, Bool.true_or])

theorem isSolid_of_isDecimal {c : CodePoint} (h : c.isDecimal = true) : c.IsSolid :=
  isSolid_of (by decide) (decimalFacts h).notBlank h

end CodePoint

namespace Text

/-- The text has `n` code points at its start of which none is a blank or a mark. -/
def IsSolid (n : Nat) (s : Text) : Prop := n ≤ s.length ∧ ∀ c ∈ s.take n, c.IsSolid

theorem isSolid_zero (s : Text) : IsSolid 0 s := ⟨Nat.zero_le _, by simp⟩

theorem IsSolid.cons {n : Nat} {c : CodePoint} {s : Text} (first : c.IsSolid)
    (rest : IsSolid n s) : IsSolid (1 + n) (c :: s) := by
  rw [Nat.add_comm]
  refine ⟨Nat.succ_le_succ rest.1, ?_⟩
  rw [List.take_succ_cons, List.forall_mem_cons]
  exact ⟨first, rest.2⟩

theorem IsSolid.add {m n : Nat} {s : Text} (first : IsSolid m s) (rest : IsSolid n (s.drop m)) :
    IsSolid (m + n) s := by
  have bound := rest.1
  rw [List.length_drop] at bound
  refine ⟨by have := first.1; omega, ?_⟩
  rw [List.take_add, List.forall_mem_append]
  exact ⟨first.2, rest.2⟩

theorem isSolid_takeWhile {p : CodePoint → Bool} (solid : ∀ c, p c = true → c.IsSolid)
    (s : Text) : IsSolid (s.takeWhile p).length s := by
  obtain ⟨run, rest, split, same, all⟩ := exists_takeWhile p s
  rw [same]
  subst split
  refine ⟨by simp, ?_⟩
  rw [List.take_left]
  exact fun c mem => solid c (all c mem)

theorem isSolid_runWidth {first more : CodePoint → Bool} (start : ∀ c, first c = true → c.IsSolid)
    (solid : ∀ c, more c = true → c.IsSolid) (s : Text) : IsSolid (runWidth first more s) s := by
  cases s with
  | nil => exact isSolid_zero _
  | cons c rest =>
    rw [runWidth]
    split
    · next run => exact (isSolid_takeWhile solid rest).cons (start c run)
    · exact isSolid_zero _

/-- A run without marks does not reach one. -/
theorem IsSolid.le_length {n : Nat} {d : CodePoint} {s y : Text} (h : IsSolid n (s ++ d :: y))
    (apart : ¬d.IsSolid) : n ≤ s.length := by
  by_contra long
  refine apart (h.2 d (List.mem_take_iff_getElem.2 ⟨s.length, ?_, by simp⟩))
  have bound := h.1
  omega

/-- A part without blanks and marks that the text starts with. -/
theorem isSolid_of_prefix {part s : Text} (h : part <+: s) (solid : ∀ c ∈ part, c.IsSolid) :
    IsSolid part.length s := by
  obtain ⟨rest, rfl⟩ := h
  exact ⟨by simp, by rwa [List.take_left]⟩

end Text

/-! ### Plain lexemes -/



namespace NumberLiteral

open Text

theorem isSolid_of_isDigitOrBar {c : CodePoint} (h : isDigitOrBar c = true) : c.IsSolid := by
  rw [isDigitOrBar, Bool.or_eq_true] at h
  rcases h with digit | bar
  · exact CodePoint.isSolid_of_isDecimal digit
  · rw [of_decide_eq_true bar]
    decide

/-- The marks of the bases and the digits behind them are letters, digits and the underscore. -/
theorem isSolid_of_isBaseDigit {mark : CodePoint} {isDigit : CodePoint → Bool}
    (base : isBaseDigit? mark = some isDigit) :
    mark.IsSolid ∧ ∀ c, isDigit c = true → c.IsSolid := by
  suffices facts : mark.IsSolid ∧ (∀ m ∈ Lexeme.marks, isDigit m.1 = false) ∧
      ∀ c, isDigit c = true → c.isBlank = false from
    ⟨facts.1, fun c h => CodePoint.isSolid_of facts.2.1 (facts.2.2 c h) h⟩
  have printed {c : CodePoint} {low high : Char} (hl : 48 ≤ low.toNat) (hh : high.toNat < 127)
      (h : c.isBetween low high = true) : c.isBlank = false := by
    have far : ∀ n ∈ blankEdges.members, n < 48 ∨ 127 ≤ n := by decide
    refine Bool.eq_false_iff.2 fun blank => ?_
    have := far _ (Edges.mem_members (by decide) blank)
    simp only [CodePoint.isBetween, Bool.and_eq_true, decide_eq_true_eq] at h
    omega
  have bar : CodePoint.isBlank '_' = false := by decide
  unfold isBaseDigit? at base
  split at base
  · next marks =>
    cases base
    refine ⟨by rcases marks with rfl | rfl <;> decide, by decide, fun c h => ?_⟩
    simp only [Bool.or_eq_true, decide_eq_true_eq] at h
    rcases h with ((digit | lower) | upper) | rfl
    · exact printed (by decide) (by decide) digit
    · exact printed (by decide) (by decide) lower
    · exact printed (by decide) (by decide) upper
    · exact bar
  split at base
  · next marks =>
    cases base
    refine ⟨by rcases marks with rfl | rfl <;> decide, by decide, fun c h => ?_⟩
    simp only [Bool.or_eq_true, decide_eq_true_eq] at h
    rcases h with (rfl | rfl) | rfl <;> decide
  split at base
  · next marks =>
    cases base
    refine ⟨by rcases marks with rfl | rfl <;> decide, by decide, fun c h => ?_⟩
    simp only [Bool.or_eq_true, decide_eq_true_eq] at h
    rcases h with digit | rfl
    · exact printed (by decide) (by decide) digit
    · exact bar
  · cases base

theorem isSolid_basedWidth (s : Text) : IsSolid (basedWidth s) s := by
  unfold basedWidth
  split
  · next z mark rest =>
    split
    · next zero =>
      split
      · next isDigit base =>
        dsimp only
        split
        · exact isSolid_zero _
        · obtain ⟨first, digit⟩ := isSolid_of_isBaseDigit base
          have two := ((isSolid_takeWhile digit rest).cons first).cons (c := z)
            (by rw [zero]; decide)
          rwa [← Nat.add_assoc, Nat.add_comm] at two
      · exact isSolid_zero _
    · exact isSolid_zero _
  · exact isSolid_zero _

theorem isSolid_fractionWidth (s : Text) : IsSolid (fractionWidth s) s :=
  isSolid_runWidth (fun c point => by rw [of_decide_eq_true point]; decide)
    (fun _ => isSolid_of_isDigitOrBar) s

theorem isSolid_mantissaWidth (s : Text) : IsSolid (mantissaWidth s) s := by
  unfold mantissaWidth
  dsimp only
  split
  · have digits : IsSolid (digitsWidth s) s :=
      isSolid_runWidth (fun _ => CodePoint.isSolid_of_isDecimal) (fun _ => isSolid_of_isDigitOrBar) s
    exact digits.add (isSolid_fractionWidth _)
  split
  · exact isSolid_fractionWidth s
  · exact isSolid_zero s

theorem isSolid_exponentWidth (s : Text) : IsSolid (exponentWidth s) s := by
  cases s with
  | nil => exact isSolid_zero _
  | cons mark rest =>
    by_cases marks : mark = 'e' ∨ mark = 'E'
    · obtain ⟨sign, tail, rfl, signs, width⟩ := exists_sign marks rest
      rw [width]
      split
      · exact isSolid_zero _
      · have first : CodePoint.IsSolid mark := by
          rcases marks with rfl | rfl <;> decide
        have signed : IsSolid sign.length (sign ++ tail) := by
          refine isSolid_of_prefix (List.prefix_append ..) ?_
          rcases signs with rfl | rfl | rfl <;> decide
        have digits := isSolid_takeWhile (fun c => CodePoint.isSolid_of_isDecimal (c := c)) tail
        rw [Nat.add_assoc]
        exact (signed.add (by rwa [List.drop_left])).cons first
    · simp only [exponentWidth, if_neg marks]
      exact isSolid_zero _

/-- No blank and no mark is part of a number. -/
theorem isSolid_width (s : Text) : IsSolid (width s) s := by
  rw [width]
  split
  · exact isSolid_basedWidth s
  dsimp only
  split
  · exact isSolid_zero s
  have number := (isSolid_mantissaWidth s).add (isSolid_exponentWidth _)
  refine number.add ?_
  split
  · next c rest behind =>
    rw [behind]
    split
    · next suffix => exact (isSolid_zero rest).cons (by rw [suffix]; decide)
    · exact isSolid_zero _
  · exact isSolid_zero _

end NumberLiteral

namespace Lexeme

open Text

theorem isSolid_nameWidth (s : Text) : IsSolid (nameWidth s) s :=
  isSolid_runWidth
    (fun _ start => CodePoint.isSolid_of_isNamePart (CodePoint.isNamePart_of_isNameStart start))
    (fun _ => CodePoint.isSolid_of_isNamePart) s

/-- A plain lexeme is a token that is written as its value: a single code point, or several of which
none is a blank or a mark. -/
theorem exists_plain (c : CodePoint) (rest : Text) :
    ∃ k w, plain c rest = .token k ((c :: rest).take w) w ∧
      (w = 1 ∨ IsSolid w (c :: rest)) ∧
      k ≠ .string ∧ k ≠ .template ∧ k ≠ .regex ∧ k ≠ .eof := by
  unfold plain
  dsimp only
  split
  · exact ⟨_, _, rfl, .inr (NumberLiteral.isSolid_width _), by simp⟩
  split
  · exact ⟨_, _, rfl, .inr (isSolid_nameWidth _), by simp⟩
  split
  · next kind mark =>
    exact ⟨kind, 1, rfl, .inl rfl, (kind_of_mark? mark).2.2⟩
  split
  · next op found =>
    have solid : ∀ op ∈ operators, ∀ c ∈ op, c.IsSolid := by decide
    have starts : op <+: c :: rest :=
      List.isPrefixOf_iff_prefix.1 (by simpa using List.find?_some found)
    have value : (c :: rest).take op.length = op := (List.prefix_iff_eq_take.1 starts).symm
    refine ⟨.operator, op.length, by rw [value], .inr ?_, by simp⟩
    exact isSolid_of_prefix starts (solid op (List.mem_of_find?_eq_some found))
  · refine ⟨_, 1, rfl, .inl rfl, ?_⟩
    split <;> simp

end Lexeme

/-! ### Literals in quotes and regular expressions -/

/-- From the offset `here` in it, a literal goes on up to the offset `w`, behind the mark `quote`
with `flags`. -/
def Text.EndsAt (quote : CodePoint) (flags : Text) (here w : Nat) (s : Text) : Prop :=
  ∃ body rest, s = body ++ quote :: (flags ++ rest) ∧ w = here + body.length + 1 + flags.length

/-- What is passed over does not matter to where a literal ends. -/
theorem Text.EndsAt.pass {quote c : CodePoint} {flags : Text} {here n w : Nat} {rest : Text}
    (h : EndsAt quote flags (here + 1 + n) w (rest.drop n)) :
    EndsAt quote flags here w (c :: rest) := by
  obtain ⟨body, more, split, rfl⟩ := h
  -- A quote stands behind what is passed over, so that all of that is there.
  have size := congrArg List.length split
  rw [List.length_drop, List.length_append, List.length_cons] at size
  refine ⟨c :: (rest.take n ++ body), more, ?_, ?_⟩
  · rw [List.cons_append, List.append_assoc, ← split, List.take_append_drop]
  · rw [List.length_cons, List.length_append, List.length_take_of_le (by omega)]
    omega

open Text

/-- A string ends with the quote that it starts with. -/
theorem endsAt_of_stringBody {quote : CodePoint} {here w : Nat} {s v : Text}
    (h : stringBody quote here s = .ok (v, w)) : Text.EndsAt quote [] here w s := by
  fun_induction stringBody quote here s generalizing v w
  case case1 | case3 | case6 | case7 | case8 => cases h
  case case2 rest =>
    cases h
    exact ⟨[], rest, rfl, rfl⟩
  case case4 ih =>
    obtain ⟨⟨a, b⟩, read, eq⟩ := map_eq_ok.1 h
    cases eq
    exact (ih read).pass
  case case5 ih => exact (ih h).pass
  case case9 ih =>
    obtain ⟨⟨a, b⟩, read, eq⟩ := map_eq_ok.1 h
    cases eq
    exact (ih read).pass (n := 0)

/-- What is outermost in a template stays the template. -/
theorem TemplatePart.last_of_step {part next : TemplatePart} {outer more : List TemplatePart}
    {here passed : Nat} {c : CodePoint} {s : Text}
    (h : part.step outer here c s = .goes next more passed)
    (last : ∃ n, (part :: outer).getLast? = some (.template n)) :
    ∃ n, (next :: more).getLast? = some (.template n) := by
  unfold step at h
  split at h
  · cases outer with
    | nil => cases h
    | cons part' outer =>
      cases h
      simpa using last
  cases part with
  | template start =>
    dsimp only at h
    repeat' split at h
    all_goals
      cases h
      simpa using last
  | expression start depth =>
    -- An expression is not outermost, and so its depth does not matter.
    cases outer with
    | nil => simp at last
    | cons part' outer =>
      dsimp only at h
      repeat' split at h
      all_goals
        cases h <;> simpa using last

/-- A template ends with a backtick, as what is open in the end is the template itself. -/
theorem endsAt_of_templateEnd {part : TemplatePart} {outer : List TemplatePart} {here w : Nat}
    {s : Text} (h : templateEnd part outer here s = .ok w)
    (last : ∃ n, (part :: outer).getLast? = some (.template n)) : Text.EndsAt '`' [] here w s := by
  fun_induction templateEnd part outer here s
  case case1 | case4 => cases h
  case case2 rest ends =>
    obtain ⟨close, rfl⟩ := TemplatePart.step_eq_ends_iff.1 ends
    obtain ⟨n, last⟩ := last
    cases last
    cases h
    exact ⟨[], rest, by rw [of_decide_eq_true close]; rfl, rfl⟩
  case case3 does ih => exact (ih h (TemplatePart.last_of_step does last)).pass

/-- A regular expression ends with a slash and flags. -/
theorem endsAt_of_regexEnd {inClass : Bool} {here w : Nat} {s : Text}
    (h : regexEnd inClass here s = .ok w) :
    ∃ flags, (∀ c ∈ flags, c.isWord = true) ∧ Text.EndsAt '/' flags here w s := by
  fun_induction regexEnd inClass here s
  case case1 | case2 => cases h
  case case3 ih =>
    obtain ⟨flags, words, ends⟩ := ih h
    exact ⟨flags, words, ends.pass⟩
  case case6 rest _ _ _ _ slash =>
    cases h
    obtain ⟨flags, more, rfl, run, words⟩ := exists_takeWhile CodePoint.isWord rest
    exact ⟨flags, words, [], more, by rw [slash.1]; rfl, by rw [run]; rfl⟩
  case case4 ih | case5 ih | case7 ih =>
    obtain ⟨flags, words, ends⟩ := ih h
    exact ⟨flags, words, ends.pass (n := 0)⟩

/-- A regular expression is a part of the text. -/
theorem le_of_regexEnd {inClass : Bool} {here w : Nat} {s : Text}
    (h : regexEnd inClass here s = .ok w) : w ≤ here + s.length := by
  obtain ⟨flags, -, body, rest, rfl, rfl⟩ := endsAt_of_regexEnd h
  simp only [List.length_append, List.length_cons]
  omega

/-! ### One lexeme -/

/-- How a token is written: a string between equal quotes, a template between backticks, all else as
its value. -/
def TokenKind.IsWritten (kind : TokenKind) (value text : Text) : Prop :=
  match kind with
  | .string => ∃ (quote : CodePoint) (body : Text), (quote = '"' ∨ quote = '\'') ∧
      text = quote :: (body ++ [quote])
  | .template => text = ('`' : CodePoint) :: (value ++ [('`' : CodePoint)])
  | _ => text = value

namespace Lexeme

variable {r : Bool} {c : CodePoint} {rest : Text} {w : Nat}

theorem lineWidth_slashes (s : Text) : lineWidth ("//" ++ s) = 2 + lineWidth s := by
  have line : ('\n' : CodePoint) ≠ '/' := by decide
  have found : Text.find? "\n" ("//" ++ s) = ((Text.find? "\n" s).map (· + 1)).map (· + 1) := by
    simp [Text.find?, Text.ofString, List.isPrefixOf, line]
  rw [lineWidth, lineWidth, found]
  cases Text.find? "\n" s with
  | some n => simp only [Option.map_some]; omega
  | none => simp [Text.ofString]; omega

/-- What is skipped is a blank or a comment; only at the end a comment may lack its line feed. -/
theorem exists_pad_of_read (h : read r c rest = .ok (.skip w)) :
    ∃ a b, c :: rest = a ++ b ∧ a.length = w ∧
      (IsPad a ∨ b = [] ∧ ∃ body, a = "//" ++ body ∧ ¬("\n" : Text) <:+: body) := by
  generalize made : Lexeme.skip w = l at h
  cases reads_of_read h with
  | blank blank =>
    cases made
    exact ⟨[c], rest, rfl, rfl, .inl (.blank blank)⟩
  | line comment =>
    cases made
    obtain ⟨s, split⟩ := List.isPrefixOf_iff_prefix.1 comment
    rw [← split, lineWidth_slashes]
    cases found : Text.find? "\n" s with
    | some n =>
      obtain ⟨body, more, rfl, rfl, none⟩ := exists_of_find? (by simp [Text.ofString]) found
      refine ⟨"//" ++ (body ++ "\n"), more, by simp, ?_, .inl (.comment (.line none))⟩
      simp only [lineWidth, found, List.length_append]
      rfl
    | none =>
      have body := not_infix_of_find? (by simp [Text.ofString]) found
      refine ⟨"//" ++ s, [], by simp, ?_, .inr ⟨rfl, s, rfl, body⟩⟩
      simp only [lineWidth, found, List.length_append]
      rfl
  | block comment close =>
    cases made
    obtain ⟨s, split⟩ := List.isPrefixOf_iff_prefix.1 comment
    have behind : rest.drop 1 = s := (congrArg (List.drop 2) split).symm
    rw [behind] at close
    obtain ⟨body, more, rfl, rfl, none⟩ := exists_of_find? (by simp [Text.ofString]) close
    refine ⟨"/*" ++ (body ++ "*/"), more, by simp [← split], ?_, .inl (.comment (.block none))⟩
    simp [Text.ofString]
  | string | template | regex => cases made
  | plain =>
    obtain ⟨k, w, eq, -⟩ := exists_plain c rest
    rw [eq] at made
    cases made

/-- A token is written at the start of the text. -/
theorem exists_written_of_read {k : TokenKind} {v : Text} (h : read r c rest = .ok (.token k v w)) :
    ∃ a b, c :: rest = a ++ b ∧ a.length = w ∧ k.IsWritten v a ∧ k ≠ .eof := by
  generalize made : Lexeme.token k v w = l at h
  cases reads_of_read h with
  | blank | line | block => cases made
  | string quote body =>
    cases made
    obtain ⟨inside, more, rfl, rfl⟩ := endsAt_of_stringBody body
    refine ⟨c :: (inside ++ [c]), more, by simp, ?_, ⟨c, inside, quote, rfl⟩, by simp⟩
    simp only [List.length_cons, List.length_append, List.length_nil]
    omega
  | template quote body =>
    cases made
    obtain ⟨inside, more, rfl, rfl⟩ := endsAt_of_templateEnd body ⟨0, rfl⟩
    have value : (inside ++ ('`' : CodePoint) :: more).take (1 + inside.length + 1 - 2) = inside := by
      rw [show 1 + inside.length + 1 - 2 = inside.length by omega, List.take_left]
    refine ⟨c :: (inside ++ [c]), more, by simp [quote], ?_, ?_, by simp⟩
    · simp only [List.length_cons, List.length_append, List.length_nil]
      omega
    · rw [TokenKind.IsWritten, quote]
      exact congrArg (fun v => ('`' : CodePoint) :: (v ++ [('`' : CodePoint)])) value.symm
  | regex slash noComment body =>
    cases made
    have bound := le_of_regexEnd body
    refine ⟨_, _, (List.take_append_drop w _).symm, List.length_take_of_le ?_, rfl, by simp⟩
    rw [List.length_cons]
    omega
  | plain =>
    obtain ⟨k', w', eq, solid, notString, notTemplate, -, notEnd⟩ := exists_plain c rest
    rw [eq] at made
    cases made
    have bound : w ≤ (c :: rest).length := by
      rcases solid with rfl | solid
      · exact Nat.le_add_left 1 _
      · exact solid.1
    refine ⟨_, _, (List.take_append_drop w _).symm, List.length_take_of_le bound, ?_, notEnd⟩
    unfold TokenKind.IsWritten
    split
    · exact absurd rfl notString
    · exact absurd rfl notTemplate
    · rfl

/-- A lexeme is a part of the text. -/
theorem width_le {l : Lexeme} (h : read r c rest = .ok l) : l.width ≤ rest.length + 1 := by
  have part {a b : Text} (split : c :: rest = a ++ b) (width : a.length = l.width) :
      l.width ≤ rest.length + 1 := by
    rw [← List.length_cons (a := c), split, List.length_append, width]
    exact Nat.le_add_right ..
  cases l with
  | skip w =>
    obtain ⟨a, b, split, width, -⟩ := exists_pad_of_read h
    exact part split width
  | token k v w =>
    obtain ⟨a, b, split, width, -⟩ := exists_written_of_read h
    exact part split width

end Lexeme

/-! ### Rows of gaps and tokens -/

/-- From the offset `p` on, a text is a row of gaps and the given tokens. -/
inductive IsRow : Nat → Text → List Token → Prop
  | ending {p : Nat} {s : Text} (ending : s.IsEnding) : IsRow p s [Token.eof (p + s.length)]
  | token {p : Nat} {gap text s : Text} {t : Token} {ts : List Token} (padding : gap.IsPadding)
      (notEnd : t.kind ≠ .eof) (some : text ≠ []) (written : t.kind.IsWritten t.value text)
      (pos : t.pos = p + gap.length) (stop : t.stop = t.pos + text.length)
      (rest : IsRow t.stop s ts) : IsRow p (gap ++ (text ++ s)) (t :: ts)

namespace IsRow

variable {p : Nat} {s : Text} {ts : List Token}

theorem pad {a : Text} (pad : a.IsPad) (h : IsRow (p + a.length) s ts) : IsRow p (a ++ s) ts := by
  cases h with
  | ending ending =>
    have all := IsRow.ending (p := p) (pad.ending ending)
    rwa [List.length_append, ← Nat.add_assoc] at all
  | token padding notEnd some written pos stop rest =>
    rw [← List.append_assoc]
    refine .token (pad.cons padding) notEnd some written ?_ stop rest
    rw [pos, List.length_append, Nat.add_assoc]

/-- The tokens of a text make it such a row. -/
theorem of_lex {r : Bool} (h : (lex r p s).error? = none) :
    IsRow p s (lex r p s).tokens := by
  have behind {c : CodePoint} {rest a b : Text} {l : Lexeme} {r : Bool}
      (read : Lexeme.read r c rest = .ok l) (split : c :: rest = a ++ b)
      (width : a.length = l.width) : rest.drop (l.width - 1) = b := by
    have pos := Lexeme.width_pos read
    cases a with
    | nil => simp at width; omega
    | cons d a =>
      obtain ⟨rfl, rfl⟩ := List.cons.inj split
      rw [← width, List.length_cons, Nat.add_sub_cancel]
      exact List.drop_left
  fun_induction lex r p s
  case case1 p => exact .ending (.whole .nil)
  case case2 => cases h
  case case3 r p c rest w read ih =>
    obtain ⟨a, b, split, width, pad⟩ := Lexeme.exists_pad_of_read read
    have left : rest.drop (w - 1) = b := behind read split width
    have row := ih h
    rw [left] at row ⊢
    rw [split]
    rcases pad with pad | ⟨rfl, body, rfl, line⟩
    · rw [← width] at row ⊢
      exact row.pad pad
    · rw [lex_nil, List.append_nil, ← width]
      exact .ending (.line .nil line)
  case case4 r p c rest k v w read token more ih =>
    obtain ⟨a, b, split, width, written, notEnd⟩ := Lexeme.exists_written_of_read read
    have pos := Lexeme.width_pos read
    have left : rest.drop (w - 1) = b := behind read split width
    rw [split, ← left]
    refine .token .nil notEnd ?_ written rfl ?_ (ih h)
    · rintro rfl
      simp [Lexeme.width] at width pos
      omega
    · rw [width]

/-- Before the mark of the end there is no other. -/
theorem exists_front (h : IsRow p s ts) :
    ∃ front, ts = front ++ [Token.eof (p + s.length)] ∧ ∀ t ∈ front, t.kind ≠ .eof := by
  induction h with
  | ending ending => exact ⟨[], rfl, by simp⟩
  | token padding notEnd some written pos stop rest ih =>
    obtain ⟨front, split, all⟩ := ih
    refine ⟨_ :: front, ?_, List.forall_mem_cons.2 ⟨notEnd, all⟩⟩
    rw [split, stop, pos, List.cons_append]
    simp only [List.length_append, Nat.add_assoc]

/-- The text between two offsets is what stands there. -/
theorem slice_eq {source before text rest : Text} {n m : Nat} (split : source = before ++ (text ++ rest))
    (start : n = before.length) (stop : m = n + text.length) :
    Declaration.slice source n m = text := by
  subst split start stop
  rw [Declaration.slice, List.drop_left, Nat.add_sub_cancel_left, List.take_left]

variable {before : Text}

/-- Each token is written where it stands. -/
theorem written (h : IsRow p s ts) (place : p = before.length) : ∀ t ∈ ts, t.kind ≠ .eof →
    t.pos < t.stop ∧ t.stop ≤ (before ++ s).length ∧
      t.kind.IsWritten t.value (Declaration.slice (before ++ s) t.pos t.stop) := by
  induction h generalizing before with
  | ending ending => simp [Token.eof]
  | @token p gap text s t ts padding notEnd some written pos stop rest ih =>
    have whole : before ++ (gap ++ (text ++ s)) = before ++ gap ++ text ++ s := by simp
    have next : t.stop = (before ++ gap ++ text).length := by
      rw [stop, pos, place, List.length_append, List.length_append]
    rw [whole]
    refine List.forall_mem_cons.2 ⟨fun _ => ⟨?_, ?_, ?_⟩, ih next⟩
    · have := List.length_pos_iff.2 some
      omega
    · rw [next]
      exact (List.prefix_append _ s).length_le
    · rw [slice_eq (List.append_assoc ..) (by rw [pos, place, List.length_append]) stop]
      exact written

/-- In front of each token stands padding, from the end of the token before it on. -/
theorem padded (h : IsRow p s ts) (place : p = before.length) :
    ∀ gap ∈ (p :: ts.map (·.stop)).zip ts,
      if gap.2.kind = .eof then (Declaration.slice (before ++ s) gap.1 gap.2.pos).IsEnding
      else (Declaration.slice (before ++ s) gap.1 gap.2.pos).IsPadding := by
  induction h generalizing before with
  | @ending p s ending =>
    simp only [List.map_cons, List.zip_cons_cons, List.map_nil, List.zip_nil_right,
      List.forall_mem_singleton]
    have gap : Declaration.slice (before ++ s) p (p + s.length) = s :=
      slice_eq (by rw [List.append_nil]) place rfl
    simpa only [Token.eof, if_true, gap] using ending
  | @token p gap text s t ts padding notEnd some written pos stop rest ih =>
    have whole : before ++ (gap ++ (text ++ s)) = before ++ gap ++ text ++ s := by simp
    have next : t.stop = (before ++ gap ++ text).length := by
      rw [stop, pos, place, List.length_append, List.length_append]
    rw [List.map_cons, List.zip_cons_cons]
    refine List.forall_mem_cons.2 ⟨?_, whole ▸ ih next⟩
    rw [slice_eq rfl place pos, if_neg notEnd]
    exact padding

end IsRow

theorem isRow_of_tokenize {source : Text} {ts : List Token} (h : tokenize source = .ok ts) :
    IsRow 0 source ts := by
  have row : IsRow 0 source (lex true 0 source).tokens :=
    .of_lex (by rw [lex_of_tokenize h])
  rwa [tokens_of_tokenize h] at row

/-- Of the tokens of a source the last one marks the end, and no other. -/
theorem exists_front_of_tokenize {source : Text} {ts : List Token} (h : tokenize source = .ok ts) :
    ∃ front, ts = front ++ [Token.eof source.length] ∧ ∀ t ∈ front, t.kind ≠ .eof := by
  have ends := (isRow_of_tokenize h).exists_front
  rwa [Nat.zero_add] at ends

/-- The tokens cover the source, up to blanks and comments. A gap is the end of the token before it
and the token behind it. -/
structure Covers (source : Text) (ts : List Token) : Prop where
  ends : ∃ front, ts = front ++ [Token.eof source.length] ∧ ∀ t ∈ front, t.kind ≠ .eof
  inside : ∀ t ∈ ts, t.kind ≠ .eof → t.pos < t.stop ∧ t.stop ≤ source.length
  ordered : ts.Pairwise fun t u => t.pos < u.pos ∧ t.stop ≤ u.pos
  written : ∀ t ∈ ts, t.kind ≠ .eof →
    t.kind.IsWritten t.value (Declaration.slice source t.pos t.stop)
  padded : ∀ gap ∈ (0 :: ts.map (·.stop)).zip ts,
    if gap.2.kind = .eof then (Declaration.slice source gap.1 gap.2.pos).IsEnding
    else (Declaration.slice source gap.1 gap.2.pos).IsPadding

/-- The tokens of a source that has tokens cover it. -/
theorem covers_of_tokenize {source : Text} {ts : List Token} (h : tokenize source = .ok ts) :
    Covers source ts := by
  have lexed := lex_of_tokenize h
  have row := isRow_of_tokenize h
  have order := pairwise_lex true 0 source
  rw [lexed] at order
  have written : ∀ t ∈ ts, t.kind ≠ .eof → t.pos < t.stop ∧ t.stop ≤ source.length ∧
      t.kind.IsWritten t.value (Declaration.slice source t.pos t.stop) :=
    row.written List.length_nil.symm
  obtain ⟨front, split, notEnd⟩ := exists_front_of_tokenize h
  refine ⟨⟨front, split, notEnd⟩, fun t mem end_ => ?_, ?_, fun t mem end_ => ?_, ?_⟩
  · exact ⟨(written t mem end_).1, (written t mem end_).2.1⟩
  · -- Only the last token is empty, and no other stands behind it.
    have apart {t u : Token} (mem : t ∈ front) (apart : t.stop ≤ u.pos) :
        t.pos < u.pos ∧ t.stop ≤ u.pos := by
      have some := (written t (by simp [split, mem]) (notEnd t mem)).1
      omega
    rw [split, List.pairwise_append] at order ⊢
    obtain ⟨inFront, last, behind⟩ := order
    refine ⟨inFront.imp_of_mem fun mem _ => apart mem, List.pairwise_singleton _ _, ?_⟩
    exact fun t mem u mem' => apart mem (behind t mem u mem')
  · exact (written t mem end_).2.2
  · exact row.padded List.length_nil.symm

/-- A source with comments, of which the last has no line feed, a string and a template. -/
def commentedSource : Text := "a = /* b */ 'c' //\n`d`//"

theorem covers_of_tokenize_commented :
    tokenize commentedSource =
        .ok [⟨.name, "a", 0, 1⟩, ⟨.operator, "=", 2, 3⟩, ⟨.string, "c", 12, 15⟩,
          ⟨.template, "d", 19, 22⟩, Token.eof 24] ∧
      Covers commentedSource
        [⟨.name, "a", 0, 1⟩, ⟨.operator, "=", 2, 3⟩, ⟨.string, "c", 12, 15⟩,
          ⟨.template, "d", 19, 22⟩, Token.eof 24] := by
  have tokens : tokenize commentedSource =
      .ok [⟨.name, "a", 0, 1⟩, ⟨.operator, "=", 2, 3⟩, ⟨.string, "c", 12, 15⟩,
        ⟨.template, "d", 19, 22⟩, Token.eof 24] := by decide +kernel
  exact ⟨tokens, covers_of_tokenize tokens⟩

end SchemaTypings
