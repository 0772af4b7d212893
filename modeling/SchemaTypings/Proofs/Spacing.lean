import SchemaTypings.Proofs.Grammar
import SchemaTypings.Proofs.HeaderTokens
import SchemaTypings.Proofs.LexedParts

/-!
Blanks between tokens. Blanks that are put in where a token starts or ends, at the end of the source
too, change no token, and so they do not change what literal text is read as; unless they make the
lexer refuse the source.
-/

namespace SchemaTypings

/-! ### What a token is, wherever it stands -/

/-- The kind and the value of a token. -/
def Token.content (t : Token) : TokenKind × Text := (t.kind, t.value)

theorem Token.map_content_later (ts : List Token) (n : Nat) :
    (ts.map (·.later n)).map Token.content = ts.map Token.content := by
  simp [Function.comp_def, Token.content]

theorem content_lex (r : Bool) (p q : Nat) (s : Text) :
    (lex r p s).tokens.map Token.content = (lex r q s).tokens.map Token.content := by
  have start (p : Nat) : (lex r p s).tokens.map Token.content =
      (lex r 0 s).tokens.map Token.content := by
    rw [← Nat.zero_add p, lex_later, Token.map_content_later]
  rw [start p, start q]

/-- Blanks at the start of a text only move its tokens. -/
theorem lex_gap {gap : Text} (isGap : gap.IsGap) (r : Bool) (p : Nat) (s : Text) :
    lex r p (gap ++ s) = lex r (p + gap.length) s := by
  rw [Lexes.gap isGap r p s trivial]
  rfl

namespace Text.IsGap

variable {gap : Text} (isGap : gap.IsGap)

include isGap

theorem separates : gap.Separates := fun c mem => .inl (isGap c (List.mem_of_mem_head? mem))

theorem separates_append (some : gap ≠ []) (s : Text) : (gap ++ s).Separates := by
  cases gap with
  | nil => exact absurd rfl some
  | cons c gap => exact isGap.separates

end Text.IsGap

/-! ### Blanks at the end -/

/-- A text has the same tokens with blanks behind it, whatever it ends with. -/
theorem content_lex_append_gap {gap : Text} (isGap : gap.IsGap) {r : Bool} {p : Nat} {s : Text}
    (ok : (lex r p s).error? = none) (ok' : (lex r p (s ++ gap)).error? = none) :
    (lex r p (s ++ gap)).tokens.map Token.content = (lex r p s).tokens.map Token.content := by
  have alone (r : Bool) (p q : Nat) {t : Text} (h : t.IsGap) :
      (lex r p t).tokens.map Token.content = (lex r q []).tokens.map Token.content := by
    have moved := lex_gap h r p []
    rw [List.append_nil] at moved
    rw [moved, content_lex]
  fun_induction lex r p s
  case case1 r p => simpa using alone r p p isGap
  case case2 => cases ok
  case case3 r p c rest w read ih =>
    have pos : w - 1 + 1 = w := LexesBefore.width_pos read rfl
    have inside : w ≤ rest.length + 1 := Lexeme.width_le read
    rw [List.cons_append] at ok' ⊢
    cases read' : Lexeme.read r c (rest ++ gap) with
    | error e =>
      rw [lex_error read'] at ok'
      cases ok'
    | ok l =>
      rw [← List.append_nil rest] at read
      rcases Lexeme.read_apart read inside isGap.separates read' with rfl | ⟨-, whole, w', rfl, long⟩
      · rw [lex_skip read', List.drop_append_of_le_length (by omega)] at ok' ⊢
        exact ih ok ok'
      · -- The blanks behind a comment at the end are skipped with it or behind it.
        cases whole
        have behind : (rest ++ gap).drop (w' - 1) = gap.drop (w' - 1 - rest.length) := by
          rw [List.drop_append, List.drop_eq_nil_of_le (by omega), List.nil_append]
        have none : rest.drop (rest.length + 1 - 1) = [] := by simp
        rw [lex_skip read', behind, none]
        exact alone r _ _ fun c mem => isGap c (List.mem_of_mem_drop mem)
  case case4 r p c rest k v w read token more ih =>
    have pos : w - 1 + 1 = w := LexesBefore.width_pos read rfl
    have inside : w ≤ rest.length + 1 := Lexeme.width_le read
    rw [List.cons_append] at ok' ⊢
    cases read' : Lexeme.read r c (rest ++ gap) with
    | error e =>
      rw [lex_error read'] at ok'
      cases ok'
    | ok l =>
      rw [← List.append_nil rest] at read
      rcases Lexeme.read_apart read inside isGap.separates read' with rfl | ⟨-, whole, -⟩
      · rw [lex_token read', List.drop_append_of_le_length (by omega)] at ok' ⊢
        rw [Lexed.tokens_behind, List.map_append, ih ok ok']
        rfl
      · cases whole

/-! ### What literal text is read as -/

/-- Tokens of one content are the same but for their places. -/
def AreAlike (us ts : List Token) : Prop := us.map Token.content = ts.map Token.content

namespace AreAlike

variable {t : Token} {us ts ts' : List Token}

theorem exists_cons (h : AreAlike us (t :: ts)) :
    ∃ u rest, us = u :: rest ∧ u.kind = t.kind ∧ u.value = t.value ∧ AreAlike rest ts := by
  obtain ⟨u, rest, rfl, content, alike⟩ := List.map_eq_cons_iff.1 h
  exact ⟨u, rest, rfl, congrArg Prod.fst content, congrArg Prod.snd content, alike⟩

theorem exists_singleton (h : AreAlike us [t]) : ∃ u, us = [u] ∧ u.kind = t.kind ∧
    u.value = t.value := by
  obtain ⟨u, rest, rfl, kind, value, alike⟩ := h.exists_cons
  exact ⟨u, by rw [List.map_eq_nil_iff.1 alike], kind, value⟩

theorem exists_append (h : AreAlike us (ts ++ ts')) :
    ∃ a b, us = a ++ b ∧ AreAlike a ts ∧ AreAlike b ts' := by
  rw [AreAlike, List.map_append] at h
  exact List.map_eq_append_iff.1 h

theorem kind_first (h : AreAlike us ts) : (Token.first us).kind = (Token.first ts).kind := by
  cases ts with
  | nil => rw [List.map_eq_nil_iff.1 h]
  | cons t ts =>
    obtain ⟨u, rest, rfl, kind, -⟩ := h.exists_cons
    exact kind

end AreAlike

namespace LiteralText

theorem isKey_congr {k l : Token} (kind : l.kind = k.kind) : isKey l = isKey k := by
  rw [isKey, isKey, kind]

mutual

/-- A derivation looks at kinds and values only. -/
theorem Denotes.congr {ts us : List Token} {v : Literal} (same : AreAlike us ts) :
    Denotes ts v → Denotes us v
  | .word name h => by
    obtain ⟨u, rfl, kind, value⟩ := same.exists_singleton
    exact .word (kind.trans name) (value ▸ h)
  | .text string => by
    obtain ⟨u, rfl, kind, value⟩ := same.exists_singleton
    exact value ▸ .text (kind.trans string)
  | .number number h => by
    obtain ⟨u, rfl, kind, value⟩ := same.exists_singleton
    exact .number (kind.trans number) (value ▸ h)
  | .negative minus number h => by
    obtain ⟨m, rest, rfl, kind, value, same⟩ := same.exists_cons
    obtain ⟨u, rfl, kind', value'⟩ := same.exists_singleton
    exact .negative ⟨kind.trans minus.1, value.trans minus.2⟩ (kind'.trans number) (value' ▸ h)
  | .list opens items => by
    obtain ⟨l, rest, rfl, kind, -, same⟩ := same.exists_cons
    exact .list (kind.trans opens) (items.congr same)
  | .object opens members => by
    obtain ⟨l, rest, rfl, kind, -, same⟩ := same.exists_cons
    exact .object (kind.trans opens) (members.congr same)

theorem DenotesItems.congr {ts us : List Token} {vs : List Literal} (same : AreAlike us ts) :
    DenotesItems ts vs → DenotesItems us vs
  | .close closes => by
    obtain ⟨r, rfl, kind, -⟩ := same.exists_singleton
    exact .close (kind.trans closes)
  | .last value closes => by
    obtain ⟨a, b, rfl, first, last⟩ := same.exists_append
    obtain ⟨r, rfl, kind, -⟩ := last.exists_singleton
    exact .last (value.congr first) (kind.trans closes)
  | .more value comma items => by
    obtain ⟨a, b, rfl, first, more⟩ := same.exists_append
    obtain ⟨c, rest, rfl, kind, -, last⟩ := more.exists_cons
    exact .more (value.congr first) (kind.trans comma) (items.congr last)

theorem DenotesMembers.congr {ts us : List Token} {es : List (Text × Literal)}
    (same : AreAlike us ts) : DenotesMembers ts es → DenotesMembers us es
  | .close closes => by
    obtain ⟨r, rfl, kind, -⟩ := same.exists_singleton
    exact .close (kind.trans closes)
  | .last key colon value closes => by
    obtain ⟨k, rest, rfl, kind, text, same⟩ := same.exists_cons
    obtain ⟨c, rest, rfl, kind', -, same⟩ := same.exists_cons
    obtain ⟨a, b, rfl, first, last⟩ := same.exists_append
    obtain ⟨r, rfl, kind'', -⟩ := last.exists_singleton
    exact text ▸ .last (isKey_congr kind ▸ key) (kind'.trans colon) (value.congr first)
      (kind''.trans closes)
  | .more key colon value comma members => by
    obtain ⟨k, rest, rfl, kind, text, same⟩ := same.exists_cons
    obtain ⟨c, rest, rfl, kind', -, same⟩ := same.exists_cons
    obtain ⟨a, b, rfl, first, more⟩ := same.exists_append
    obtain ⟨d, rest, rfl, kind'', -, last⟩ := more.exists_cons
    exact text ▸ .more (isKey_congr kind ▸ key) (kind'.trans colon) (value.congr first)
      (kind''.trans comma) (members.congr last)

end

theorem Ends.congr {rest rest' : List Token} (same : AreAlike rest' rest) (h : Ends rest) :
    Ends rest' := by
  rcases h with eof | ⟨t, more, rfl, semicolon, eof⟩
  · exact .inl (same.kind_first.trans eof)
  · obtain ⟨u, more', rfl, kind, -, alike⟩ := same.exists_cons
    exact .inr ⟨u, more', rfl, kind.trans semicolon, alike.kind_first.trans eof⟩

/-- Tokens that denote a value are read as that value if they end behind it. -/
theorem ofTokens_of_ends {text : Text} {us rest : List Token} {v : Literal} (h : Denotes us v)
    (ends : Ends rest) : ofTokens text (us ++ rest) = .ok v := by
  have read := (accepts text (2 * (us ++ rest).length + 2)).value rest h (by simp; omega)
  rw [ofTokens, read]
  rcases ends with eof | ⟨t, more, rfl, semicolon, eof⟩
  · cases rest with
    | nil => rfl
    | cons t more =>
      have kind : t.kind = .eof := eof
      simp [kind, Token.first]
  · simp [semicolon, eof]

theorem ofTokens_congr {text text' : Text} {ts us : List Token} (same : AreAlike us ts) {v : Literal}
    (h : ofTokens text ts = .ok v) : ofTokens text' us = .ok v := by
  obtain ⟨as, rest, rfl, denotes, ends⟩ := exists_of_ofTokens h
  obtain ⟨a, b, rfl, first, last⟩ := same.exists_append
  exact ofTokens_of_ends (denotes.congr first) (ends.congr last)

end LiteralText

/-- What literal text is read as depends on kinds and values only. -/
theorem Literal.toOption_parse_congr {text text' : Text} {ts us : List Token}
    (h : tokenize text = .ok ts) (h' : tokenize text' = .ok us) (same : AreAlike us ts) :
    (Literal.parse text').toOption = (Literal.parse text).toOption := by
  rw [Literal.parse, Literal.parse, h, h']
  dsimp only
  cases read : LiteralText.ofTokens text ts with
  | ok v => rw [LiteralText.ofTokens_congr same read]
  | error e =>
    cases read' : LiteralText.ofTokens text' us with
    | ok v =>
      rw [LiteralText.ofTokens_congr same.symm read'] at read
      cases read
    | error e' => rfl

/-! ### Blanks at the edge of a token -/

/-- The source with more text put in at the offset `p`. -/
def Text.inserted (source : Text) (p : Nat) (more : Text) : Text :=
  source.take p ++ (more ++ source.drop p)

/-- Where a token starts or ends, the source splits into what is read as the tokens before and a
rest, unless it ends there. -/
theorem exists_split_of_edge {source : Text} {ts : List Token} (h : tokenize source = .ok ts)
    {t : Token} (mem : t ∈ ts) {p : Nat} (edge : p = t.pos ∨ p = t.stop) :
    ∃ s x, source = s ++ x ∧ s.length = p ∧ (x = [] ∨ ∃ us, LexesBefore x true s us) := by
  have lexed := lex_of_tokenize h
  by_cases eof : t.kind = .eof
  · obtain ⟨front, split, notEnd⟩ := exists_front_of_tokenize h
    rw [split, List.mem_append, List.mem_singleton] at mem
    rcases mem with inFront | rfl
    · exact absurd eof (notEnd t inFront)
    · have place : p = source.length := edge.elim id id
      exact ⟨source, [], (List.append_nil _).symm, place.symm, .inl rfl⟩
  · obtain ⟨before, after, split⟩ := List.append_of_mem mem
    have tokens : (lex true 0 source).tokens = before ++ t :: after := by rw [lexed, split]
    obtain ⟨s, c, rest, us, w, rfl, pos, -, front, read, stop, -⟩ :=
      exists_before_of_lex tokens eof
    rw [Nat.zero_add] at pos
    rcases edge with rfl | rfl
    · exact ⟨s, c :: rest, rfl, pos.symm, .inr ⟨us, front⟩⟩
    · have positive : w - 1 + 1 = w := LexesBefore.width_pos read rfl
      have inside : w ≤ rest.length + 1 := Lexeme.width_le read
      have size : (rest.take (w - 1)).length = w - 1 := List.length_take_of_le (by omega)
      have whole : rest = rest.take (w - 1) ++ rest.drop (w - 1) :=
        (List.take_append_drop ..).symm
      generalize rest.take (w - 1) = a at size whole
      generalize rest.drop (w - 1) = x at whole
      subst whole
      refine ⟨s ++ c :: a, x, by simp, ?_, .inr ⟨_, front.append (.single read (by omega))⟩⟩
      rw [List.length_append, List.length_cons, stop, pos]
      omega

theorem alike_of_inserted {source gap : Text} {ts us : List Token} {t : Token} {p : Nat}
    (h : tokenize source = .ok ts) (mem : t ∈ ts) (edge : p = t.pos ∨ p = t.stop)
    (isGap : gap.IsGap) (h' : tokenize (source.inserted p gap) = .ok us) : AreAlike us ts := by
  obtain ⟨s, x, rfl, rfl, split⟩ := exists_split_of_edge h mem edge
  have lexed := lex_of_tokenize h
  have lexed' := lex_of_tokenize h'
  rw [Text.inserted, List.take_left, List.drop_left] at lexed'
  by_cases ending : x = []
  · subst ending
    rw [List.append_nil] at lexed lexed'
    have same := content_lex_append_gap isGap (r := true) (p := 0) (s := s) (by rw [lexed])
      (by rw [lexed'])
    rwa [lexed, lexed'] at same
  obtain ⟨vs, before⟩ := split.resolve_left ending
  by_cases empty : gap = []
  · subst empty
    rw [List.nil_append, lexed] at lexed'
    cases lexed'
    rfl
  · have apart := before.apart ending (isGap.separates_append empty x) (p := 0) (by rw [lexed'])
    have read := before.lex_eq 0
    have read' := apart.lex_eq 0
    rw [lexed] at read
    rw [lexed', lex_gap isGap] at read'
    have tokens : ts = _ := congrArg Lexed.tokens read
    have tokens' : us = _ := congrArg Lexed.tokens read'
    rw [AreAlike, tokens, tokens', Lexed.tokens_behind, Lexed.tokens_behind, List.map_append,
      List.map_append, content_lex]

/-- Blanks where a token starts or ends change neither the kinds and values of the tokens nor what
literal text is read as. -/
theorem content_inserted {source gap : Text} {ts us : List Token} {t : Token} {p : Nat}
    (h : tokenize source = .ok ts) (mem : t ∈ ts) (edge : p = t.pos ∨ p = t.stop)
    (isGap : gap.IsGap) (h' : tokenize (source.inserted p gap) = .ok us) :
    us.map (fun u => (u.kind, u.value)) = ts.map (fun u => (u.kind, u.value)) ∧
      (Literal.parse (source.inserted p gap)).toOption = (Literal.parse source).toOption := by
  have alike := alike_of_inserted h mem edge isGap h'
  exact ⟨alike, Literal.toOption_parse_congr h h' alike⟩

/-- The sign of a number may stand apart from its digits. -/
theorem content_inserted_commented :
    tokenize "-1//" = .ok [⟨.operator, "-", 0, 1⟩, ⟨.number, "1", 1, 2⟩, Token.eof 4] ∧
      tokenize (Text.inserted "-1//" 1 " \n") =
        .ok [⟨.operator, "-", 0, 1⟩, ⟨.number, "1", 3, 4⟩, Token.eof 6] ∧
      Text.IsGap " \n" ∧
      (Literal.parse (Text.inserted "-1//" 1 " \n")).toOption = (Literal.parse "-1//").toOption := by
  have tokens : tokenize "-1//" =
      .ok [⟨.operator, "-", 0, 1⟩, ⟨.number, "1", 1, 2⟩, Token.eof 4] := by decide +kernel
  have tokens' : tokenize (Text.inserted "-1//" 1 " \n") =
      .ok [⟨.operator, "-", 0, 1⟩, ⟨.number, "1", 3, 4⟩, Token.eof 6] := by decide +kernel
  have gap : Text.IsGap " \n" := by unfold Text.IsGap; decide
  have edge : (1 : Nat) = (⟨.number, "1", 1, 2⟩ : Token).pos := rfl
  exact ⟨tokens, tokens', gap,
    (content_inserted tokens (by simp) (.inl edge) gap tokens').2⟩

end SchemaTypings
