import SchemaTypings.Proofs.Spans

/-!
Texts that no lexeme enters. A lexeme of several code points has no blank and no mark in it, or it
is a literal or a comment, and these end with quotes, slashes and line feeds. What starts with a
blank or a mark, and has nothing in it that ends a literal or a comment, starts with a lexeme.
-/

namespace SchemaTypings

/-! ### What a lexeme ends with -/

/-- What a literal or a comment ends with: a quote, a slash, which may have flags, or a line feed. -/
def CodePoint.EndsLiteral (c : CodePoint) : Prop :=
  c = '"' ∨ c = '\'' ∨ c = '`' ∨ c = '/' ∨ c = '\n'

instance (c : CodePoint) : Decidable c.EndsLiteral :=
  inferInstanceAs (Decidable (_ ∨ _ ∨ _ ∨ _ ∨ _))

/-- A lexeme of several code points has no blank and no mark, or ends a literal or a comment, or is a
comment up to the end. -/
theorem Lexeme.solid_or_ends {r : Bool} {c : CodePoint} {rest : Text} {l : Lexeme}
    (h : read r c rest = .ok l) :
    l.width = rest.length + 1 ∨ l.width = 1 ∨ Text.IsSolid l.width (c :: rest) ∨
      ∃ d flags, CodePoint.EndsLiteral d ∧ (∀ f ∈ flags, CodePoint.isWord f = true) ∧
        Text.EndsAt d flags 0 l.width (c :: rest) := by
  cases l with
  | skip w =>
    obtain ⟨a, b, split, rfl, pad | ⟨rfl, -⟩⟩ := exists_pad_of_read h
    · rw [split]
      cases pad with
      | blank => exact .inr (.inl rfl)
      | comment comment =>
        refine .inr (.inr (.inr ?_))
        cases comment with
        | @line body =>
          exact ⟨'\n', [], by decide, nofun, "//" ++ body, b, by simp [Text.ofString],
            by simp [width, Text.ofString]⟩
        | @block body =>
          exact ⟨'/', [], by decide, nofun, "/*" ++ (body ++ "*"), b, by simp [Text.ofString],
            by simp [width, Text.ofString]⟩
    · left
      have size := congrArg List.length split
      rw [List.append_nil, List.length_cons] at size
      exact size.symm
  | token k v w =>
    refine .inr ?_
    generalize made : Lexeme.token k v w = l at h ⊢
    cases reads_of_read h with
    | blank | line | block => cases made
    | string quote body =>
      have ends := (endsAt_of_stringBody body).pass (c := c) (n := 0)
      exact .inr (.inr ⟨c, [], quote.imp_right .inl, nofun, ends⟩)
    | template quote body =>
      have ends := (endsAt_of_templateEnd body ⟨0, rfl⟩).pass (c := c) (n := 0)
      exact .inr (.inr ⟨'`', [], by decide, nofun, ends⟩)
    | regex slash noComment body =>
      obtain ⟨flags, words, ends⟩ := endsAt_of_regexEnd body
      exact .inr (.inr ⟨'/', flags, by decide, words, ends.pass (n := 0)⟩)
    | plain =>
      obtain ⟨k', w', eq, solid, -⟩ := exists_plain c rest
      rw [eq]
      exact solid.imp_right .inl

/-! ### Texts that no lexeme enters -/

/-- The text starts with a blank or a mark, and no literal and no comment ends in it. -/
structure Text.Divides (y : Text) : Prop where
  starts : ∃ c rest, y = c :: rest ∧ ¬c.IsSolid
  apart : ∀ c ∈ y, ¬c.EndsLiteral

section

variable {y z : Text} {r : Bool}

/-- A lexeme that ends in such a text starts there. -/
theorem Lexeme.width_le_of_divides {c : CodePoint} {s : Text} {l : Lexeme} (divides : y.Divides)
    (some : z ≠ []) (h : read r c (s ++ (y ++ z)) = .ok l)
    (inside : l.width ≤ (s ++ y).length + 1) : l.width ≤ s.length + 1 := by
  by_contra enters
  have behind := List.length_pos_iff.2 some
  rw [List.length_append] at inside
  obtain ⟨b, more, rfl, apart⟩ := divides.starts
  rcases solid_or_ends h with whole | one | solid | ⟨d, flags, literal, words, body, rest, split, width⟩
  · rw [whole, List.length_append, List.length_append] at inside
    omega
  · omega
  · exact enters (Text.IsSolid.le_length (s := c :: s) solid apart)
  -- The code point `n` places behind the mark that ends the literal is a flag.
  have flag {n : Nat} (before : n < flags.length) :
      (c :: (s ++ (b :: more ++ z)))[body.length + 1 + n]? = flags[n]? := by
    rw [split, List.append_cons, List.getElem?_append_right (by simp), List.length_append,
      List.length_singleton, Nat.add_sub_cancel_left, List.getElem?_append_left before]
  by_cases front : body.length ≤ s.length
  · -- The text would start with a flag.
    have place : flags[s.length - body.length]? = .some b := by
      rw [← flag (by omega), show body.length + 1 + (s.length - body.length) = s.length + 1 by omega]
      simp
    exact apart (CodePoint.isSolid_of_isWord (words b (List.mem_of_getElem? place)))
  · -- The mark would stand in the text.
    have place : (c :: (s ++ (b :: more ++ z)))[body.length]? = .some d := by
      rw [split]
      simp
    rw [← List.cons_append, List.getElem?_append_right (by rw [List.length_cons]; omega),
      List.getElem?_append_left (by rw [List.length_cons]; omega)] at place
    exact divides.apart d (List.mem_of_getElem? place) literal

/-- The tokens of two parts are those of the first and those of the second, if no lexeme enters the
second. -/
theorem LexesBefore.exists_split {s : Text} {ts : List Token} (divides : y.Divides) (some : z ≠ [])
    (h : LexesBefore z r (s ++ y) ts) :
    ∃ us vs, ts = us ++ vs.map (·.later s.length) ∧ LexesBefore (y ++ z) r s us ∧
      LexesBefore z (slashAfter r us) y vs := by
  generalize whole : s ++ y = u at h
  induction h generalizing s with
  | nil r =>
    obtain ⟨c, rest, rfl, -⟩ := divides.starts
    exact absurd whole (by simp)
  | @skip r c u w ts read inside rest ih =>
    cases s with
    | nil =>
      rw [List.nil_append] at whole
      subst whole
      exact ⟨[], _, by simp, .nil r, .skip read inside rest⟩
    | cons d s =>
      rw [List.cons_append] at whole
      obtain ⟨rfl, rfl⟩ := List.cons.inj whole
      rw [List.append_assoc] at read
      have within := Lexeme.width_le_of_divides divides some read inside
      have pos := width_pos read rfl
      simp only [Lexeme.width] at within pos
      obtain ⟨us, vs, rfl, front, back⟩ := ih (List.drop_append_of_le_length (by omega)).symm
      have place : (s.drop (w - 1)).length + w = (d :: s).length := by
        rw [List.length_drop, List.length_cons]
        omega
      refine ⟨us.map (·.later w), vs, ?_, .skip read within front, ?_⟩
      · rw [List.map_append, Token.map_later_later, place]
      · rwa [slashAfter_later]
  | @token r c u k v w ts read inside rest ih =>
    cases s with
    | nil =>
      rw [List.nil_append] at whole
      subst whole
      exact ⟨[], _, by simp, .nil r, .token read inside rest⟩
    | cons d s =>
      rw [List.cons_append] at whole
      obtain ⟨rfl, rfl⟩ := List.cons.inj whole
      rw [List.append_assoc] at read
      have within := Lexeme.width_le_of_divides divides some read inside
      have pos := width_pos read rfl
      simp only [Lexeme.width] at within pos
      obtain ⟨us, vs, rfl, front, back⟩ := ih (List.drop_append_of_le_length (by omega)).symm
      have place : (s.drop (w - 1)).length + w = (d :: s).length := by
        rw [List.length_drop, List.length_cons]
        omega
      refine ⟨⟨k, v, 0, w⟩ :: us.map (·.later w), vs, ?_, .token read within front, ?_⟩
      · rw [List.map_append, Token.map_later_later, place, List.cons_append]
      · rwa [slashAfter_cons]

end

end SchemaTypings
