import SchemaTypings.Proofs.Extraction

/-!
Where a declaration starts among the tokens and comments of its source. The header of a declaration
is looked for among code points, so that it may stand where no token starts: in a comment, inside a
literal, or in a name behind a dollar sign.
-/

namespace SchemaTypings

/-- The offset `n` of a source lies in a comment: the lexer passes over it with what is no blank. -/
def InComment (source : Text) (n : Nat) : Prop :=
  ∃ s c rest us w, source = s ++ c :: rest ∧ LexesBefore (c :: rest) true s us ∧
    Lexeme.read (slashAfter true us) c rest = .ok (.skip w) ∧ c.isBlank = false ∧
    s.length ≤ n ∧ n < s.length + w

/-! ### What an offset belongs to -/

/-- The tokens of a part end within the part. -/
theorem LexesBefore.bounds {x s : Text} {r : Bool} {us : List Token} (h : LexesBefore x r s us) :
    ∀ t ∈ us, t.pos < t.stop ∧ t.stop ≤ s.length := by
  induction h with
  | nil r => simp
  | @skip r c s w ts read inside _ ih =>
    have pos : w - 1 + 1 = w := width_pos read rfl
    intro t mem
    obtain ⟨u, mem', rfl⟩ := List.mem_map.1 mem
    have bound := ih u mem'
    rw [List.length_drop] at bound
    simp only [Token.pos_later, Token.stop_later, List.length_cons]
    omega
  | @token r c s k v w ts read inside _ ih =>
    have pos : w - 1 + 1 = w := width_pos read rfl
    intro t mem
    rcases List.mem_cons.1 mem with rfl | mem
    · simp only [List.length_cons]
      omega
    · obtain ⟨u, mem', rfl⟩ := List.mem_map.1 mem
      have bound := ih u mem'
      rw [List.length_drop] at bound
      simp only [Token.pos_later, Token.stop_later, List.length_cons]
      omega

/-- One lexeme is a part by itself. -/
theorem LexesBefore.exists_lexeme {r : Bool} {c : CodePoint} {s x : Text} {l : Lexeme}
    (read : Lexeme.read r c (s ++ x) = .ok l) (whole : l.width = s.length + 1) :
    ∃ us, LexesBefore x r (c :: s) us := by
  cases l with
  | skip w =>
    have rest : LexesBefore x r (s.drop (w - 1)) [] := by
      simp only [Lexeme.width] at whole
      rw [List.drop_eq_nil_of_le (by omega)]
      exact .nil r
    exact ⟨_, .skip read (Nat.le_of_eq whole) rest⟩
  | token k v w => exact ⟨_, .single read whole⟩

section

variable {source : Text} {ts : List Token} {n : Nat}

/-- The lexeme that an offset belongs to, from a place in front of the offset on. -/
theorem exists_lexeme_behind {s u : Text} {us : List Token} (whole : source = s ++ u)
    (front : LexesBefore u true s us) (error : (lex true 0 source).error? = none)
    (low : s.length ≤ n) (high : n < source.length) :
    ∃ s c rest us l, source = s ++ c :: rest ∧ LexesBefore (c :: rest) true s us ∧
      Lexeme.read (slashAfter true us) c rest = .ok l ∧ s.length ≤ n ∧ n < s.length + l.width := by
  induction hu : u.length using Nat.strongRecOn generalizing s u us with
  | ind k ih =>
    cases u with
    | nil =>
      rw [whole, List.append_nil] at high
      omega
    | cons c rest =>
      cases read : Lexeme.read (slashAfter true us) c rest with
      | error e =>
        rw [whole, front.lex_eq 0, lex_error read] at error
        cases error
      | ok l =>
        by_cases here : n < s.length + l.width
        · exact ⟨s, c, rest, us, l, whole, front, read, low, here⟩
        · -- The offset lies behind the lexeme, which is a part of the text then.
          have pos := Lexeme.width_pos read
          have size : source.length = s.length + (rest.length + 1) := by
            rw [whole, List.length_append, List.length_cons]
          have split : rest = rest.take (l.width - 1) ++ rest.drop (l.width - 1) :=
            (List.take_append_drop ..).symm
          have length : (rest.take (l.width - 1)).length = l.width - 1 :=
            List.length_take_of_le (by omega)
          rw [List.length_cons] at hu
          generalize rest.take (l.width - 1) = a at split length
          generalize rest.drop (l.width - 1) = x at split
          subst split
          obtain ⟨us', lexeme⟩ := LexesBefore.exists_lexeme read (by omega)
          have next : (s ++ c :: a).length = s.length + l.width := by
            rw [List.length_append, List.length_cons]
            omega
          rw [List.length_append] at hu
          refine ih x.length (by omega) (s := s ++ c :: a) ?_ (front.append lexeme) (by omega) rfl
          rw [whole, List.append_assoc, List.cons_append]

theorem exists_lexeme_at (error : (lex true 0 source).error? = none) (high : n < source.length) :
    ∃ s c rest us l, source = s ++ c :: rest ∧ LexesBefore (c :: rest) true s us ∧
      Lexeme.read (slashAfter true us) c rest = .ok l ∧ s.length ≤ n ∧ n < s.length + l.width :=
  exists_lexeme_behind (s := []) rfl (.nil true) error (Nat.zero_le n) high

/-- A lexeme that is read as a token is one of the tokens. -/
theorem mem_lex_of_read {s rest : Text} {c : CodePoint} {us : List Token} {k : TokenKind} {v : Text}
    {w : Nat} (whole : source = s ++ c :: rest) (front : LexesBefore (c :: rest) true s us)
    (read : Lexeme.read (slashAfter true us) c rest = .ok (.token k v w)) :
    (⟨k, v, s.length, s.length + w⟩ : Token) ∈ (lex true 0 source).tokens := by
  rw [whole, front.lex_eq 0, lex_token read, Nat.zero_add]
  simp

/-- No token starts in a comment. -/
theorem InComment.pos_ne (h : InComment source n) {t : Token}
    (mem : t ∈ (lex true 0 source).tokens) : t.pos ≠ n := by
  obtain ⟨s, c, rest, us, w, rfl, front, read, -, low, high⟩ := h
  rw [front.lex_eq 0, lex_skip read, Nat.zero_add, Lexed.tokens_behind, List.mem_append] at mem
  rcases mem with mem | mem
  · obtain ⟨u, mem', rfl⟩ := List.mem_map.1 mem
    have bound := front.bounds u mem'
    rw [Token.later_zero]
    omega
  · have behind := pos_of_mem_lex mem
    omega

end

/-! ### Letters inside tokens -/

/-- Whether a token of the kind is taken as it is written: a string, a template, a number or a
regular expression. -/
def TokenKind.isLiteral : TokenKind → Bool
  | .string | .template | .number | .regex => true
  | _ => false

/-- A word that starts inside a token starts in a literal, or in a name behind a dollar sign. -/
theorem Lexeme.isLiteral_or_name_of_read {r : Bool} {c d e : CodePoint} {rest v : Text}
    {k : TokenKind} {w m : Nat} (read : Lexeme.read r c rest = .ok (.token k v w))
    (inside : m + 1 < w) (before : (c :: rest)[m]? = some e) (apart : e.isWord = false)
    (here : (c :: rest)[m + 1]? = some d) (starts : d.isNameStart = true) :
    k.isLiteral = true ∨ k = .name ∧ e = '$' := by
  by_cases quoted : k = .string ∨ k = .template ∨ k = .regex
  · rcases quoted with rfl | rfl | rfl <;> exact .inl rfl
  simp only [not_or] at quoted
  have plain := Lexeme.plain_of_read read quoted
  unfold Lexeme.plain at plain
  dsimp only at plain
  split at plain
  · cases plain
    exact .inl rfl
  split at plain
  · next name =>
    cases plain
    refine .inr ⟨rfl, ?_⟩
    obtain ⟨a, run, tail, eq, width, start, part, -⟩ := Text.exists_run name
    rw [nameWidth, width] at inside
    rw [eq] at before
    have whole : ∀ b ∈ a :: run, b.isNamePart = true :=
      List.forall_mem_cons.2 ⟨CodePoint.isNamePart_of_isNameStart start, part⟩
    have mem : e ∈ a :: run := by
      rw [← List.cons_append, List.getElem?_append_left (by simp; omega)] at before
      exact List.mem_of_getElem? before
    have word := whole e mem
    rw [CodePoint.isNamePart, apart, Bool.false_or] at word
    exact of_decide_eq_true word
  split at plain
  · cases plain
    omega
  split at plain
  · next op found =>
    cases plain
    have letters : ∀ op ∈ operators, op.all (fun a => !a.isNameStart) = true := by decide
    have part : v.isPrefixOf (c :: rest) = true :=
      List.find?_some (p := fun op : Text => op.isPrefixOf (c :: rest)) found
    obtain ⟨tail, whole⟩ := List.isPrefixOf_iff_prefix.1 part
    rw [← whole, List.getElem?_append_left inside] at here
    have letter := List.all_eq_true.1 (letters v (List.mem_of_find?_eq_some found)) d
      (List.mem_of_getElem? here)
    rw [starts] at letter
    cases letter
  · cases plain
    omega

/-! ### Where a declaration starts -/

theorem IsOpening.exists_cons {name opening : Text} (h : IsOpening name opening) :
    ∃ c rest, opening = c :: rest ∧ c.isNameStart = true := by
  obtain ⟨isHeader, -⟩ := h
  cases isHeader with
  | plain h =>
    obtain ⟨declares, -⟩ := h
    simp only [List.mem_cons, List.not_mem_nil, or_false] at declares
    rcases declares with rfl | rfl | rfl <;> exact ⟨_, _, rfl, by decide⟩
  | exported => exact ⟨_, _, rfl, by decide⟩

namespace Declaration

section

variable {source : Text} {d : Declaration}

theorem Parts.getElem?_start (parts : Parts source d) {c : CodePoint} {rest : Text}
    (opening : parts.opening = c :: rest) : source[d.start]? = some c := by
  obtain ⟨front, _, call, ending, behind, rfl, _, _, _, _, _, start, _⟩ := parts
  dsimp only at opening
  subst opening
  rw [start, List.getElem?_append_right (Nat.le_refl _), Nat.sub_self]
  rfl

/-- The header of a declaration does not go on with a word. -/
theorem Parts.exists_before (parts : Parts source d) (some : 0 < d.start) :
    ∃ e, source[d.start - 1]? = .some e ∧ e.isWord = false := by
  obtain ⟨front, opening, call, ending, behind, rfl, apart, _, _, _, _, start, _⟩ := parts
  rw [start] at some ⊢
  have none : front ≠ [] := List.length_pos_iff.1 some
  refine ⟨front.getLast none, ?_, ?_⟩
  · rw [List.getElem?_append_left (Nat.sub_lt some Nat.one_pos), ← List.getLast?_eq_getElem?,
      List.getLast?_eq_getLast_of_ne_nil none]
  · rw [List.getLast?_eq_getLast_of_ne_nil none] at apart
    exact apart

end

/-- A declaration starts at a token of its source unless a comment, a literal or a name with a
dollar sign in front of the declaring keyword covers its start. -/
theorem exists_pos_eq_start_iff {source : Text} {ts : List Token} {d : Declaration}
    (tokens : tokenize source = .ok ts) (h : (extract source).outcome = .ok (some d)) :
    (∃ t ∈ ts, t.pos = d.start) ↔ ¬InComment source d.start ∧
      ∀ t ∈ ts, t.pos < d.start → d.start < t.stop → t.kind.isLiteral = false ∧
        ¬(t.kind = .name ∧ source[d.start - 1]? = some ('$' : CodePoint)) := by
  have error : (lex true 0 source).error? = none := by rw [lex_of_tokenize tokens]
  obtain rfl := tokens_of_tokenize tokens
  constructor
  · rintro ⟨t, mem, start⟩
    refine ⟨fun comment => comment.pos_ne mem start, fun u mem' low high => ?_⟩
    -- Two tokens do not overlap.
    exfalso
    have width := pos_le_stop_of_mem_lex mem
    rcases apart_of_mem_lex mem mem' with rfl | order
    · omega
    · omega
  · rintro ⟨comment, others⟩
    obtain ⟨parts⟩ := exists_parts h
    obtain ⟨a, more, opening, start⟩ := parts.isOpening.exists_cons
    have here : source[d.start]? = some a := parts.getElem?_start opening
    have high : d.start < source.length := (List.getElem?_eq_some_iff.1 here).1
    obtain ⟨s, c, rest, us, l, whole, front, read, low, within⟩ := exists_lexeme_at error high
    have place (m : Nat) : (c :: rest)[m]? = source[s.length + m]? := by
      rw [whole, List.getElem?_append_right (Nat.le_add_right ..), Nat.add_sub_cancel_left]
    cases l with
    | skip w =>
      by_cases blank : c.isBlank = true
      · rw [Lexeme.read, if_pos blank] at read
        cases read
        have first : s.length = d.start := by
          simp only [Lexeme.width] at within
          omega
        have same := place 0
        rw [Nat.add_zero, first, here] at same
        cases same
        rw [(CodePoint.facts_of_isNameStart start).1] at blank
        cases blank
      · exact absurd ⟨s, c, rest, us, w, whole, front, read, Bool.eq_false_iff.2 blank, low, within⟩
          comment
    | token k v w =>
      have mem := mem_lex_of_read whole front read
      obtain first | behind := Nat.eq_or_lt_of_le low
      · exact ⟨_, mem, first⟩
      · -- A word that starts inside the token is excluded.
        obtain ⟨literal, name⟩ := others _ mem behind within
        obtain ⟨e, before, apart⟩ := parts.exists_before (Nat.zero_lt_of_lt behind)
        obtain ⟨m, eq⟩ := Nat.exists_eq_add_of_lt behind
        rw [eq, Nat.add_assoc, ← place] at here
        rw [eq, Nat.add_sub_cancel] at before name
        rw [before] at name
        rw [← place] at before
        have inside : m + 1 < w := by
          simp only [Lexeme.width] at within
          omega
        rcases Lexeme.isLiteral_or_name_of_read read inside before apart here start with yes | yes
        · rw [literal] at yes
          cases yes
        · exact absurd ⟨yes.1, congrArg some yes.2⟩ name

/-- A source without comments, and its tokens. -/
def plainSource : Text := "f; let s = Schema(\x7b\x7d);"

def plainTokens : List Token :=
  [⟨.name, "f", 0, 1⟩, ⟨.semicolon, ";", 1, 2⟩, ⟨.name, "let", 3, 6⟩, ⟨.name, "s", 7, 8⟩,
    ⟨.operator, "=", 9, 10⟩, ⟨.name, "Schema", 11, 17⟩, ⟨.opens .round, "(", 17, 18⟩,
    ⟨.opens .curly, "\x7b", 18, 19⟩, ⟨.closes .curly, "\x7d", 19, 20⟩,
    ⟨.closes .round, ")", 20, 21⟩, ⟨.semicolon, ";", 21, 22⟩, Token.eof 22]

/-- The declaration in that source. -/
def plainDeclaration : Declaration := ⟨"s", "let s = Schema(\x7b\x7d);", 3, 22⟩

theorem exists_pos_eq_start_plain : tokenize plainSource = .ok plainTokens ∧
    (extract plainSource).outcome = .ok (some plainDeclaration) ∧
    ((∃ t ∈ plainTokens, t.pos = 3) ↔ ¬InComment plainSource 3 ∧
      ∀ t ∈ plainTokens, t.pos < 3 → 3 < t.stop → t.kind.isLiteral = false ∧
        ¬(t.kind = .name ∧ plainSource[2]? = some ('$' : CodePoint))) := by
  have tokens : tokenize plainSource = .ok plainTokens := by decide +kernel
  have found : (extract plainSource).outcome = .ok (some plainDeclaration) := by decide +kernel
  exact ⟨tokens, found, exists_pos_eq_start_iff tokens found⟩

/-- The source holds a declaration that starts where none of its tokens does. -/
def StartsAtNoToken (source : Text) : Prop :=
  ∃ ts d, tokenize source = .ok ts ∧ (extract source).outcome = .ok (some d) ∧
    ∀ t ∈ ts, t.pos ≠ d.start

/-- A declaration is taken from a comment, from a string, and from behind a dollar sign. -/
theorem startsAtNoToken_hidden :
    StartsAtNoToken "// const s = new Schema(\x7b a: String \x7d);" ∧
      StartsAtNoToken "'const s = new Schema(\x7b\x7d);'" ∧
      StartsAtNoToken "$const s = new Schema(\x7b\x7d);" := by
  refine ⟨⟨[Token.eof 39], ⟨"s", "const s = new Schema(\x7b a: String \x7d);", 3, 39⟩, ?_, ?_, ?_⟩,
    ⟨[⟨.string, "const s = new Schema(\x7b\x7d);", 0, 27⟩, Token.eof 27],
      ⟨"s", "const s = new Schema(\x7b\x7d);", 1, 26⟩, ?_, ?_, ?_⟩,
    ⟨[⟨.name, "$const", 0, 6⟩, ⟨.name, "s", 7, 8⟩, ⟨.operator, "=", 9, 10⟩, ⟨.name, "new", 11, 14⟩,
      ⟨.name, "Schema", 15, 21⟩, ⟨.opens .round, "(", 21, 22⟩, ⟨.opens .curly, "\x7b", 22, 23⟩,
      ⟨.closes .curly, "\x7d", 23, 24⟩, ⟨.closes .round, ")", 24, 25⟩, ⟨.semicolon, ";", 25, 26⟩,
      Token.eof 26], ⟨"s", "const s = new Schema(\x7b\x7d);", 1, 26⟩, ?_, ?_, ?_⟩⟩
  all_goals decide +kernel

end Declaration

end SchemaTypings
