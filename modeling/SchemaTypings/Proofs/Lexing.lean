import SchemaTypings.Proofs.Outcomes
import SchemaTypings.Token.Lexer

/-!
Lexing in pieces: what one lexeme adds to the tokens of a source, how tokens move with their source,
and what it means that a text is read as certain tokens wherever it stands. The pieces here are
blanks, marks, names, strings in double quotes and the minus sign.
-/

namespace SchemaTypings

/-! ### Tokens behind more text -/

/-- The same token behind `n` more code points. -/
def Token.later (t : Token) (n : Nat) : Token := { t with pos := t.pos + n, stop := t.stop + n }

namespace Token

@[simp] theorem kind_later (t : Token) (n : Nat) : (t.later n).kind = t.kind := rfl

@[simp] theorem value_later (t : Token) (n : Nat) : (t.later n).value = t.value := rfl

@[simp] theorem pos_later (t : Token) (n : Nat) : (t.later n).pos = t.pos + n := rfl

@[simp] theorem stop_later (t : Token) (n : Nat) : (t.later n).stop = t.stop + n := rfl

@[simp] theorem allowsRegex_later (t : Token) (n : Nat) :
    (t.later n).allowsRegex = t.allowsRegex := rfl

@[simp] theorem isOperator_later (t : Token) (n : Nat) (op : Text) :
    (t.later n).isOperator op = t.isOperator op := rfl

@[simp] theorem later_later (t : Token) (m n : Nat) : (t.later m).later n = t.later (m + n) := by
  simp [later, Nat.add_assoc]

@[simp] theorem later_zero (t : Token) : t.later 0 = t := rfl

theorem map_later_later (ts : List Token) (m n : Nat) :
    (ts.map (·.later m)).map (·.later n) = ts.map (·.later (m + n)) := by
  simp [Function.comp_def]

end Token

namespace Lexed

/-- What was lexed with the tokens `ts` in front. -/
def behind (l : Lexed) (ts : List Token) : Lexed := ⟨ts ++ l.tokens, l.error?⟩

@[simp] theorem tokens_behind (l : Lexed) (ts : List Token) :
    (l.behind ts).tokens = ts ++ l.tokens := rfl

@[simp] theorem error?_behind (l : Lexed) (ts : List Token) :
    (l.behind ts).error? = l.error? := rfl

@[simp] theorem behind_nil (l : Lexed) : l.behind [] = l := rfl

@[simp] theorem behind_behind (l : Lexed) (ts us : List Token) :
    (l.behind us).behind ts = l.behind (ts ++ us) := by simp [behind]

end Lexed

/-! ### One lexeme -/

section

variable {r : Bool} {p w : Nat} {c : CodePoint} {rest : Text}

@[simp] theorem lex_nil : lex r p [] = ⟨[Token.eof p], none⟩ := by rw [lex]

theorem lex_skip (h : Lexeme.read r c rest = .ok (.skip w)) :
    lex r p (c :: rest) = lex r (p + w) (rest.drop (w - 1)) := by
  rw [lex, h]

theorem lex_token {k : TokenKind} {v : Text} (h : Lexeme.read r c rest = .ok (.token k v w)) :
    lex r p (c :: rest) =
      (lex (Token.allowsRegex ⟨k, v, p, p + w⟩) (p + w) (rest.drop (w - 1))).behind
        [⟨k, v, p, p + w⟩] := by
  rw [lex, h]
  rfl

theorem lex_error {e : LexError} (h : Lexeme.read r c rest = .error e) :
    lex r p (c :: rest) = ⟨[], some (e.later p)⟩ := by
  rw [lex, h]

/-- Every token but the last one is read where it stands in the text. -/
theorem exists_read_of_mem_lex {s : Text} {t : Token} (h : t ∈ (lex r p s).tokens)
    (eof : t.kind ≠ .eof) : ∃ r c rest w, c :: rest <:+ s ∧
      Lexeme.read r c rest = .ok (.token t.kind t.value w) := by
  fun_induction lex r p s
  case case1 =>
    rw [List.mem_singleton.1 h] at eof
    exact absurd rfl eof
  case case2 => cases h
  case case3 ih =>
    obtain ⟨r, c, rest, w, place, read⟩ := ih h
    exact ⟨r, c, rest, w, place.trans ((List.drop_suffix ..).trans (List.suffix_cons ..)), read⟩
  case case4 read _ _ ih =>
    rcases List.mem_cons.1 h with rfl | h
    · exact ⟨_, _, _, _, List.suffix_refl _, read⟩
    · obtain ⟨r, c, rest, w, place, read⟩ := ih h
      exact ⟨r, c, rest, w, place.trans ((List.drop_suffix ..).trans (List.suffix_cons ..)), read⟩

/-- No comment starts the text. -/
def Text.NoComment (s : Text) : Prop := s.startsWith "//" = false ∧ s.startsWith "/*" = false

/-- What stands at the start of the text `c :: rest`, in one way for each kind of lexeme. -/
inductive Lexeme.Reads (r : Bool) (c : CodePoint) (rest : Text) : Lexeme → Prop
  | blank (blank : c.isBlank = true) : Reads r c rest (.skip 1)
  | line (comment : Text.startsWith (c :: rest) "//" = true) :
      Reads r c rest (.skip (lineWidth (c :: rest)))
  | block {n : Nat} (comment : Text.startsWith (c :: rest) "/*" = true)
      (close : Text.find? "*/" (rest.drop 1) = some n) : Reads r c rest (.skip (n + 4))
  | string {v : Text} {w : Nat} (quote : c = '"' ∨ c = '\'')
      (body : stringBody c 1 rest = .ok (v, w)) : Reads r c rest (.token .string v w)
  | template {w : Nat} (quote : c = '`') (body : templateEnd (.template 0) [] 1 rest = .ok w) :
      Reads r c rest (.token .template (rest.take (w - 2)) w)
  | regex {w : Nat} (slash : c = '/' ∧ r = true) (noComment : Text.NoComment (c :: rest))
      (body : regexEnd false 1 rest = .ok w) :
      Reads r c rest (.token .regex ((c :: rest).take w) w)
  | plain (notBlank : c.isBlank = false) (notQuote : ¬(c = '"' ∨ c = '\'')) (notTemplate : c ≠ '`')
      (notRegex : ¬(c = '/' ∧ r = true)) (noComment : Text.NoComment (c :: rest)) :
      Reads r c rest (plain c rest)

/-- Why nothing can be read at the start of the text `c :: rest`. -/
inductive Lexeme.Fails (c : CodePoint) (rest : Text) : LexError → Prop
  | comment : Fails c rest ⟨.unterminatedComment, 0⟩
  | string {e : LexError} (body : stringBody c 1 rest = .error e) : Fails c rest e
  | template {e : LexError} (body : templateEnd (.template 0) [] 1 rest = .error e) : Fails c rest e
  | regex {e : LexError} (body : regexEnd false 1 rest = .error e) : Fails c rest e

theorem Lexeme.fails_of_read {e : LexError} (h : read r c rest = .error e) : Fails c rest e := by
  unfold read at h
  dsimp only at h
  split at h
  · cases h
  split at h
  · cases h
  split at h
  · split at h <;> cases h
    exact .comment
  split at h
  · exact .string (map_eq_error.1 h)
  split at h
  · exact .template (map_eq_error.1 h)
  split at h
  · exact .regex (map_eq_error.1 h)
  · cases h

/-- Only a slash starts a comment. -/
theorem Lexeme.noComment (h : c ≠ '/') : Text.NoComment (c :: rest) := by
  have slash : ∀ d : CodePoint, Text.startsWith (c :: rest) ['/', d] = false := by
    intro d
    simp [Text.startsWith, List.isPrefixOf, Ne.symm h]
  exact ⟨slash '/', slash '*'⟩

theorem Lexeme.reads_of_read {l : Lexeme} (h : read r c rest = .ok l) : Reads r c rest l := by
  unfold read at h
  dsimp only at h
  split at h
  · next blank =>
    cases h
    exact .blank blank
  next notBlank =>
  split at h
  · next comment =>
    cases h
    exact .line comment
  next notLine =>
  split at h
  · next comment =>
    split at h <;> cases h
    next close => exact .block comment close
  next notBlock =>
  have noComment : Text.NoComment (c :: rest) :=
    ⟨Bool.eq_false_iff.2 notLine, Bool.eq_false_iff.2 notBlock⟩
  split at h
  · next quote =>
    obtain ⟨⟨v, w⟩, body, rfl⟩ := map_eq_ok.1 h
    exact .string quote body
  next notQuote =>
  split at h
  · next quote =>
    obtain ⟨w, body, rfl⟩ := map_eq_ok.1 h
    exact .template quote body
  next notTemplate =>
  split at h
  · next slash =>
    obtain ⟨w, body, rfl⟩ := map_eq_ok.1 h
    exact .regex slash noComment body
  · next notRegex =>
    cases h
    exact .plain (Bool.eq_false_iff.2 notBlank) notQuote notTemplate notRegex noComment

theorem Lexeme.read_quoted (quote : c = '"' ∨ c = '\'') :
    read r c rest = (stringBody c 1 rest).map fun (value, width) => .token .string value width := by
  have start : ¬c.isBlank = true ∧ c ≠ '/' := by rcases quote with rfl | rfl <;> decide
  obtain ⟨line, block⟩ : Text.NoComment (c :: rest) := noComment start.2
  rw [read, if_neg start.1, if_neg (Bool.eq_false_iff.1 line), if_neg (Bool.eq_false_iff.1 block),
    if_pos quote]

theorem Lexeme.read_backtick :
    read r '`' rest = (templateEnd (.template 0) [] 1 rest).map fun width =>
      .token .template (rest.take (width - 2)) width := by
  obtain ⟨line, block⟩ : Text.NoComment ('`' :: rest) := noComment (by decide)
  rw [read, if_neg (by decide), if_neg (Bool.eq_false_iff.1 line), if_neg (Bool.eq_false_iff.1 block),
    if_neg (by decide), if_pos rfl]

theorem Lexeme.Reads.read_eq {l : Lexeme} (h : Reads r c rest l) : read r c rest = .ok l := by
  have slash : ¬CodePoint.isBlank '/' = true := by decide
  cases h with
  | blank blank => rw [read, if_pos blank]
  | line comment =>
    obtain ⟨more, split⟩ := List.isPrefixOf_iff_prefix.1 comment
    have first : '/' = c := (List.cons.inj split).1
    rw [read, if_neg (first ▸ slash), if_pos comment]
  | block comment close =>
    obtain ⟨more, split⟩ := List.isPrefixOf_iff_prefix.1 comment
    have first : '/' = c := (List.cons.inj split).1
    have line : ¬Text.startsWith (c :: rest) "//" = true := by
      intro line
      have same := List.prefix_of_prefix_length_le (List.isPrefixOf_iff_prefix.1 line)
        (List.isPrefixOf_iff_prefix.1 comment) (Nat.le_refl 2)
      exact absurd same (by decide)
    rw [read, if_neg (first ▸ slash), if_neg line, if_pos comment, close]
  | string quote body => rw [read_quoted quote, body]; rfl
  | template quote body => rw [quote, read_backtick, body]; rfl
  | regex regex noComment body =>
    obtain ⟨rfl, rfl⟩ := regex
    obtain ⟨line, block⟩ := noComment
    rw [read, if_neg slash, if_neg (Bool.eq_false_iff.1 line), if_neg (Bool.eq_false_iff.1 block),
      if_neg (by decide), if_neg (by decide), if_pos ⟨rfl, rfl⟩, body]
    rfl
  | plain notBlank notQuote notTemplate notRegex noComment =>
    obtain ⟨line, block⟩ := noComment
    rw [read, if_neg (Bool.eq_false_iff.1 notBlank), if_neg (Bool.eq_false_iff.1 line),
      if_neg (Bool.eq_false_iff.1 block), if_neg notQuote, if_neg notTemplate, if_neg notRegex]

/-- What is neither in quotes nor a regular expression is plain. -/
theorem Lexeme.plain_of_read {k : TokenKind} {v : Text}
    (h : Lexeme.read r c rest = .ok (.token k v w))
    (bare : k ≠ .string ∧ k ≠ .template ∧ k ≠ .regex) : Lexeme.plain c rest = .token k v w := by
  generalize made : Lexeme.token k v w = l at h ⊢
  cases reads_of_read h with
  | plain => rfl
  | _ =>
    cases made <;> simp at bare

/-- The marks that are tokens by themselves, with their kinds. -/
def Lexeme.marks : List (CodePoint × TokenKind) :=
  [('\x7b', .opens .curly), ('\x7d', .closes .curly), ('[', .opens .square),
    (']', .closes .square), ('(', .opens .round), (')', .closes .round), (',', .comma),
    (':', .colon), (';', .semicolon)]

theorem Lexeme.mem_marks_of_mark? {c : CodePoint} {k : TokenKind} (h : mark? c = some k) :
    (c, k) ∈ marks := by
  have next {d : CodePoint} {kind : TokenKind} {others : Option TokenKind}
      {rest : List (CodePoint × TokenKind)} (later : others = some k → (c, k) ∈ rest)
      (h : (if c = d then some kind else others) = some k) : (c, k) ∈ (d, kind) :: rest := by
    split at h
    · next eq =>
      cases h
      rw [eq]
      exact List.mem_cons_self
    · exact List.mem_cons_of_mem _ (later h)
  refine next (next (next (next (next (next (next (next (next ?_)))))))) h
  intro none
  cases none

/-- A mark is no name, no number and no literal. -/
theorem Lexeme.kind_of_mark? {c : CodePoint} {k : TokenKind} (h : mark? c = some k) :
    k ≠ .name ∧ k ≠ .number ∧ k ≠ .string ∧ k ≠ .template ∧ k ≠ .regex ∧ k ≠ .eof := by
  have all : ∀ m ∈ marks, m.2 ≠ .name ∧ m.2 ≠ .number ∧ m.2 ≠ .string ∧ m.2 ≠ .template ∧
      m.2 ≠ .regex ∧ m.2 ≠ .eof := by decide
  exact all _ (mem_marks_of_mark? h)

theorem Lexeme.ne_nil_of_plain {v : Text} (h : Lexeme.plain c rest = .token .name v w) :
    v ≠ [] := by
  unfold Lexeme.plain at h
  dsimp only at h
  split at h
  · cases h
  split at h
  · next some =>
    cases h
    simpa using some
  split at h
  · next mark =>
    cases h
    exact absurd rfl (kind_of_mark? mark).1
  split at h
  · cases h
  · injection h with kind
    split at kind <;> cases kind

/-- No name is empty. -/
theorem ne_nil_of_mem_lex {s : Text} {t : Token} (h : t ∈ (lex r p s).tokens)
    (name : t.kind = .name) : t.value ≠ [] := by
  obtain ⟨r, c, rest, w, -, read⟩ := exists_read_of_mem_lex h (by simp [name])
  rw [name] at read
  exact Lexeme.ne_nil_of_plain (Lexeme.plain_of_read read (by decide))

theorem error?_of_tokenize {s : Text} {e : LexError} (h : tokenize s = .error e) :
    (lex true 0 s).error? = some e := by
  rw [tokenize] at h
  split at h
  · next lexed =>
    cases h
    rw [lexed]
  · cases h

theorem lex_of_tokenize {s : Text} {ts : List Token} (h : tokenize s = .ok ts) :
    lex true 0 s = ⟨ts, none⟩ := by
  rw [tokenize] at h
  split at h
  · cases h
  · next lexed =>
    cases h
    exact lexed

theorem tokens_of_tokenize {s : Text} {ts : List Token} (h : tokenize s = .ok ts) :
    (lex true 0 s).tokens = ts := by
  rw [lex_of_tokenize h]

/-- A lexeme that starts with none of the marks of comments and quotes is plain. -/
theorem Lexeme.read_plain (hb : c.isBlank = false)
    (hq : c ≠ '/' ∧ c ≠ '"' ∧ c ≠ '\'' ∧ c ≠ '`') : read r c rest = .ok (plain c rest) := by
  obtain ⟨slash, double, single, backtick⟩ := hq
  exact (Reads.plain hb (by simp [double, single]) backtick (fun no => slash no.1)
    (noComment slash)).read_eq

end

/-! ### Texts that are read alike everywhere -/

/-- Whether a slash behind the tokens `ts` starts a regular expression, where it does before them if
`r` is true. -/
def slashAfter (r : Bool) (ts : List Token) : Bool := (ts.getLast?.map Token.allowsRegex).getD r

@[simp] theorem slashAfter_nil (r : Bool) : slashAfter r [] = r := rfl

theorem slashAfter_append (r : Bool) (ts us : List Token) (n : Nat) :
    slashAfter r (ts ++ us.map (·.later n)) = slashAfter (slashAfter r ts) us := by
  simp only [slashAfter, List.getLast?_append, List.getLast?_map]
  cases us.getLast? <;> simp

/-- In front of every text of `after`, the text `s` is read as the tokens `ts`, wherever it stands;
the tokens are given as they are at the start of a source. -/
def Lexes (s : Text) (ts : List Token) (after : Text → Prop) : Prop :=
  ∀ (r : Bool) (p : Nat) (rest : Text), after rest →
    lex r p (s ++ rest) =
      (lex (slashAfter r ts) (p + s.length) rest).behind (ts.map (·.later p))

namespace Lexes

variable {s s' : Text} {ts ts' : List Token} {after after' : Text → Prop}

theorem nil : Lexes [] [] after := fun _ _ _ _ => rfl

theorem mono (h : Lexes s ts after) (hw : ∀ rest, after' rest → after rest) :
    Lexes s ts after' :=
  fun r p rest hr => h r p rest (hw rest hr)

/-- Two texts in a row are read as the tokens of both. -/
theorem append (h : Lexes s ts after) (h' : Lexes s' ts' after')
    (hw : ∀ rest, after' rest → after (s' ++ rest)) :
    Lexes (s ++ s') (ts ++ ts'.map (·.later s.length)) after' := by
  intro r p rest hr
  rw [List.append_assoc, h r p _ (hw rest hr), h' _ _ rest hr, slashAfter_append]
  simp [Function.comp_def, Nat.add_assoc, Nat.add_comm p]

/-- A text that is read as certain tokens has these, and the end. -/
theorem lex_eq (h : Lexes s ts after) (ha : after []) (r : Bool) (p : Nat) :
    lex r p s = ⟨ts.map (·.later p) ++ [Token.eof (p + s.length)], none⟩ := by
  have read := h r p [] ha
  rw [List.append_nil, lex_nil] at read
  exact read

theorem tokenize_eq (h : Lexes s ts after) (ha : after []) :
    tokenize s = .ok (ts ++ [Token.eof s.length]) := by
  rw [tokenize, h.lex_eq ha true 0]
  simp

theorem skip {c : CodePoint}
    (h : ∀ r rest, after rest → Lexeme.read r c (s ++ rest) = .ok (.skip (s.length + 1))) :
    Lexes (c :: s) [] after := by
  intro r p rest hr
  rw [List.cons_append, lex_skip (h r rest hr)]
  simp

theorem token {c : CodePoint} {k : TokenKind} {v : Text}
    (h : ∀ r rest, after rest → Lexeme.read r c (s ++ rest) = .ok (.token k v (s.length + 1))) :
    Lexes (c :: s) [⟨k, v, 0, s.length + 1⟩] after := by
  intro r p rest hr
  rw [List.cons_append, lex_token (h r rest hr)]
  simp [slashAfter, Token.later, Token.allowsRegex, Nat.add_comm]

end Lexes

/-! ### Blanks and marks -/

theorem Lexes.blank {c : CodePoint} (h : c.isBlank = true) : Lexes [c] [] fun _ => True :=
  .skip fun r rest _ => by simp [Lexeme.read, h]

theorem NumberLiteral.width_eq_zero {c : CodePoint} (hd : c.isDecimal = false) (hp : c ≠ '.')
    (rest : Text) : NumberLiteral.width (c :: rest) = 0 := by
  have hz : c ≠ '0' := by
    rintro rfl
    exact absurd hd (by decide)
  have hb : basedWidth (c :: rest) = 0 := by
    unfold basedWidth
    split
    · next h => cases h; rw [if_neg hz]
    · rfl
  simp [width, hb, mantissaWidth, digitsWidth, fractionWidth, Text.runWidth, hd, hp]

/-- What is neither a number nor a name is a mark or an operator. -/
theorem Lexeme.plain_mark {c : CodePoint} {k : TokenKind} (hd : c.isDecimal = false)
    (hp : c ≠ '.') (hn : c.isNameStart = false) (h : mark? c = some k) (rest : Text) :
    plain c rest = .token k [c] 1 := by
  simp [plain, NumberLiteral.width_eq_zero hd hp, nameWidth_eq_zero hn, h]

theorem Lexeme.facts_of_mark? {c : CodePoint} {k : TokenKind} (h : mark? c = some k) :
    c.isBlank = false ∧ (c ≠ '/' ∧ c ≠ '"' ∧ c ≠ '\'' ∧ c ≠ '`') ∧ c.isDecimal = false ∧ c ≠ '.' ∧
      c.isNameStart = false := by
  have all : ∀ m ∈ marks, m.1.isBlank = false ∧
      (m.1 ≠ '/' ∧ m.1 ≠ '"' ∧ m.1 ≠ '\'' ∧ m.1 ≠ '`') ∧ m.1.isDecimal = false ∧ m.1 ≠ '.' ∧
        m.1.isNameStart = false := by decide
  exact all _ (mem_marks_of_mark? h)

/-- A mark is a token by itself, whatever follows it. -/
theorem Lexeme.read_mark {c : CodePoint} {k : TokenKind} (h : mark? c = some k) (r : Bool)
    (rest : Text) : read r c rest = .ok (.token k [c] 1) := by
  obtain ⟨hb, hq, hd, hp, hn⟩ := facts_of_mark? h
  rw [read_plain hb hq, plain_mark hd hp hn h]

theorem Lexes.mark {c : CodePoint} {k : TokenKind} (h : Lexeme.mark? c = some k) :
    Lexes [c] [⟨k, [c], 0, 1⟩] fun _ => True :=
  .token fun r rest _ => by simpa using Lexeme.read_mark h r rest

/-! ### Names -/

/-- Nothing at the start of the text goes on with a name or a number. -/
def Text.Stops (s : Text) : Prop :=
  ∀ c ∈ s.head?, c.isNamePart = false ∧ c.isDecimal = false ∧ c ≠ '.'

/-- No name goes on at the start of the text. -/
def Text.EndsName (s : Text) : Prop := ∀ c ∈ s.head?, c.isNamePart = false

namespace Text

theorem endsName_cons {c : CodePoint} {rest : Text} (h : c.isNamePart = false) :
    EndsName (c :: rest) := by simpa [EndsName] using h

theorem stops_nil : Stops [] := by simp [Stops]

theorem stops_cons {c : CodePoint} {rest : Text}
    (h : c.isNamePart = false ∧ c.isDecimal = false ∧ c ≠ '.') : Stops (c :: rest) := by
  simpa [Stops] using h

theorem exists_takeWhile (p : CodePoint → Bool) (s : Text) :
    ∃ run rest, s = run ++ rest ∧ s.takeWhile p = run ∧ ∀ c ∈ run, p c = true :=
  ⟨_, s.dropWhile p, List.takeWhile_append_dropWhile.symm, rfl,
    List.all_eq_true.1 List.all_takeWhile⟩

/-- Behind what no part of is the text that is looked for, it is found. -/
theorem exists_of_find? {part s : Text} {n : Nat} (some : part ≠ []) (h : find? part s = .some n) :
    ∃ a b, s = a ++ (part ++ b) ∧ a.length = n ∧ ¬part <:+: a := by
  induction s generalizing n with
  | nil =>
    rw [find?, if_neg (by simpa using some)] at h
    cases h
  | cons c s ih =>
    rw [find?] at h
    split at h
    · next found =>
      cases h
      obtain ⟨b, split⟩ := List.isPrefixOf_iff_prefix.1 found
      exact ⟨[], b, split.symm, rfl, fun inside => some (List.infix_nil.1 inside)⟩
    · next other =>
      obtain ⟨m, found, rfl⟩ := Option.map_eq_some_iff.1 h
      obtain ⟨a, b, rfl, rfl, none⟩ := ih found
      refine ⟨c :: a, b, rfl, rfl, fun inside => ?_⟩
      rcases List.infix_cons_iff.1 inside with here | inside
      · exact other (List.isPrefixOf_iff_prefix.2 (here.trans (List.prefix_append (c :: a) _)))
      · exact none inside

theorem exists_run {first more : CodePoint → Bool} {s : Text} (some : runWidth first more s ≠ 0) :
    ∃ c run rest, s = c :: (run ++ rest) ∧ runWidth first more s = run.length + 1 ∧
      first c = true ∧ (∀ d ∈ run, more d = true) ∧ (run ++ rest).takeWhile more = run := by
  cases s with
  | nil => exact absurd rfl some
  | cons c s =>
    rw [runWidth] at some ⊢
    split at some
    · next start =>
      obtain ⟨run, rest, rfl, same, all⟩ := exists_takeWhile more s
      refine ⟨c, run, rest, rfl, ?_, start, all, same⟩
      rw [if_pos start, same, Nat.add_comm]
    · exact absurd rfl some

/-- The part of `s` up to where it stops is taken whole. -/
theorem takeWhile_stops {p : CodePoint → Bool} {s rest : Text} (hs : s.all p = true)
    (hr : ∀ c ∈ rest.head?, p c = false) : (s ++ rest).takeWhile p = s := by
  rw [List.takeWhile_append_of_pos (by simpa using hs)]
  cases rest with
  | nil => simp
  | cons c rest => simp [hr c rfl]

/-- What follows that part is left. -/
theorem dropWhile_stops {p : CodePoint → Bool} {s rest : Text} (hs : s.all p = true)
    (hr : ∀ c ∈ rest.head?, p c = false) : (s ++ rest).dropWhile p = rest := by
  rw [List.dropWhile_append_of_pos (by simpa using hs)]
  cases rest with
  | nil => simp
  | cons c rest => simp [hr c rfl]

end Text

namespace CodePoint

theorem isAsciiLower_iff {c : CodePoint} :
    c.isAsciiLower = true ↔ 97 ≤ c.val ∧ c.val ≤ 122 := by
  show (decide (97 ≤ c.val) && decide (c.val ≤ 122)) = true ↔ _
  rw [Bool.and_eq_true, decide_eq_true_eq, decide_eq_true_eq]

theorem isAsciiUpper_iff {c : CodePoint} : c.isAsciiUpper = true ↔ 65 ≤ c.val ∧ c.val ≤ 90 := by
  show (decide (65 ≤ c.val) && decide (c.val ≤ 90)) = true ↔ _
  rw [Bool.and_eq_true, decide_eq_true_eq, decide_eq_true_eq]

theorem isAsciiDigit_iff {c : CodePoint} : c.isAsciiDigit = true ↔ 48 ≤ c.val ∧ c.val ≤ 57 := by
  show (decide (48 ≤ c.val) && decide (c.val ≤ 57)) = true ↔ _
  rw [Bool.and_eq_true, decide_eq_true_eq, decide_eq_true_eq]

theorem val_lt_of_isNameStart {c : CodePoint} (h : c.isNameStart = true) : c.val < 128 := by
  simp only [isNameStart, isAsciiLetter, Bool.or_eq_true, isAsciiLower_iff, isAsciiUpper_iff,
    decide_eq_true_eq] at h
  rcases h with ((h | h) | rfl) | rfl
  · omega
  · omega
  · decide
  · decide

theorem isNamePart_of_isNameStart {c : CodePoint} (h : c.isNameStart = true) :
    c.isNamePart = true := by
  have all : ∀ n : Fin 128, CodePoint.isNameStart ⟨n, by omega⟩ = true →
      CodePoint.isNamePart ⟨n, by omega⟩ = true := by decide +kernel
  exact all ⟨c.val, val_lt_of_isNameStart h⟩ h

/-- A name starts with nothing that starts another lexeme. -/
theorem facts_of_isNameStart {c : CodePoint} (h : c.isNameStart = true) :
    c.isBlank = false ∧ (c ≠ '/' ∧ c ≠ '"' ∧ c ≠ '\'' ∧ c ≠ '`') ∧
      c.isDecimal = false ∧ c ≠ '.' := by
  have all : ∀ n : Fin 128, CodePoint.isNameStart ⟨n, by omega⟩ = true →
      blankEdges.contains n = false ∧ decimalEdges.contains n = false := by decide
  obtain ⟨hb, hd⟩ := all ⟨c.val, val_lt_of_isNameStart h⟩ h
  refine ⟨hb, ⟨?_, ?_, ?_, ?_⟩, hd, ?_⟩ <;> rintro rfl <;> exact absurd h (by decide)

end CodePoint

theorem Lexeme.read_name {c : CodePoint} {s rest : Text} (hc : c.isNameStart = true)
    (hs : s.all CodePoint.isNamePart = true) (hr : rest.EndsName) (r : Bool) :
    read r c (s ++ rest) = .ok (.token .name (c :: s) (s.length + 1)) := by
  obtain ⟨hb, hq, hd, hp⟩ := CodePoint.facts_of_isNameStart hc
  have hw : (s ++ rest).takeWhile CodePoint.isNamePart = s :=
    Text.takeWhile_stops hs hr
  have width : nameWidth (c :: (s ++ rest)) = s.length + 1 := by
    simp [nameWidth, Text.runWidth, hc, hw, Nat.add_comm]
  rw [read_plain hb hq]
  simp [plain, NumberLiteral.width_eq_zero hd hp, width]

theorem Lexes.nameEnd {s : Text} (h : s.isName = true) :
    Lexes s [⟨.name, s, 0, s.length⟩] Text.EndsName := by
  cases s with
  | nil => simp [Text.isName] at h
  | cons c s =>
    simp only [Text.isName, Bool.and_eq_true] at h
    exact .token fun r rest hr => Lexeme.read_name h.1 h.2 hr r

theorem Lexes.name {s : Text} (h : s.isName = true) :
    Lexes s [⟨.name, s, 0, s.length⟩] Text.Stops :=
  (Lexes.nameEnd h).mono fun _ hr d hd => (hr d hd).1

/-! ### Strings in double quotes -/

@[simp] theorem length_hexDigits (width n : Nat) : (hexDigits width n).length = width := by
  induction width generalizing n with
  | zero => rfl
  | succ width ih => simp [hexDigits, ih]

/-- A control below U+0020 is read back from its four hexadecimal digits. -/
theorem Escape.read_control {c : CodePoint} (h : c.val < 0x20) (rest : Text) :
    Escape.read ('u' :: (hexDigits 4 c.val ++ rest)) = .char c 5 := by
  have value : ∀ n < 0x20, Numeral.integer? 16 (hexDigits 4 n) = some (n : Int) := by
    decide +kernel
  have heads : ∀ n < 0x20, (hexDigits 4 n).head? = some ('0' : CodePoint) := by decide +kernel
  have head : (hexDigits 4 c.val ++ rest).head? ≠ some ('\x7b' : CodePoint) := by
    rw [List.head?_append, heads _ h, Option.some_or]
    decide
  have digits : (hexDigits 4 c.val ++ rest).take 4 = hexDigits 4 c.val :=
    List.take_left' (length_hexDigits 4 c.val)
  have small : ¬((c.val : Int) < -bound ∨ bound ≤ (c.val : Int)) := by
    simp only [bound]
    omega
  have nonneg : ¬(c.val : Int) < 0 := by omega
  have fixed : form 'u' (hexDigits 4 c.val ++ rest) = .fixed 4 := by
    rw [form, if_neg fun braced => head braced.2, show digitCount? 'u' = some 4 from rfl]
    exact if_pos (by simp)
  rw [Escape.read, fixed]
  dsimp only
  rw [digits, ofHex, value _ h]
  simp only [if_neg small, if_neg nonneg, Int.toNat_natCast, CodePoint.ofNat?, dif_pos c.val_lt]

/-- After a backslash, all but three code points stand for one by themselves. -/
theorem Escape.read_simple {c : CodePoint} (h : c ≠ 'u' ∧ c ≠ 'x' ∧ c ≠ '\n') (rest : Text) :
    Escape.read (c :: rest) = .char (simple c) 1 := by
  have letter : form c rest = .letter := by simp [form, digitCount?, h]
  simp [Escape.read, letter, h]

section

variable {here : Nat} {rest : Text}

theorem stringBody_close :
    stringBody '"' here (('"' : CodePoint) :: rest) = .ok ([], here + 1) := by
  rw [stringBody, if_pos rfl]

theorem stringBody_plain {c : CodePoint} (h : c ≠ '"' ∧ c ≠ '\n' ∧ c ≠ '\\') :
    stringBody '"' here (c :: rest) =
      (stringBody '"' (here + 1) rest).map fun (value, width) => (c :: value, width) := by
  rw [stringBody, if_neg h.1, if_neg h.2.1, if_neg h.2.2]

theorem stringBody_escape {d : CodePoint} {n : Nat} (h : Escape.read rest = .char d n) :
    stringBody '"' here (('\\' : CodePoint) :: rest) =
      (stringBody '"' (here + 1 + n) (rest.drop n)).map
        fun (value, width) => (d :: value, width) := by
  rw [stringBody, if_neg (by decide), if_neg (by decide), if_pos rfl, h]

end

/-- Between double quotes, a code point is written by a letter or a mark that stands for it, by its
number, or as itself. -/
theorem CodePoint.inDoubleQuotes_cases (c : CodePoint) :
    (∃ d ∈ Text.ofString "\"\\nrtbf", c = Escape.simple d ∧ c.inDoubleQuotes = [('\\' : CodePoint), d]) ∨
      (c.val < 0x20 ∧ c.inDoubleQuotes = ('\\' : CodePoint) :: 'u' :: hexDigits 4 c.val) ∨
      (0x20 ≤ c.val ∧ (c ≠ '"' ∧ c ≠ '\n' ∧ c ≠ '\\') ∧ c.inDoubleQuotes = [c]) := by
  by_cases quote : c = '"'
  · exact .inl ⟨'"', by decide, quote, by rw [inDoubleQuotes, if_pos quote]; rfl⟩
  by_cases stroke : c = '\\'
  · exact .inl ⟨'\\', by decide, stroke, by rw [inDoubleQuotes, if_neg quote, if_pos stroke]; rfl⟩
  by_cases feed : c = '\n'
  · exact .inl ⟨'n', by decide, feed, by subst feed; rfl⟩
  by_cases turn : c = '\r'
  · exact .inl ⟨'r', by decide, turn, by subst turn; rfl⟩
  by_cases tab : c = '\t'
  · exact .inl ⟨'t', by decide, tab, by subst tab; rfl⟩
  by_cases back : c = '\x08'
  · exact .inl ⟨'b', by decide, back, by subst back; rfl⟩
  by_cases page : c = '\x0c'
  · exact .inl ⟨'f', by decide, page, by subst page; rfl⟩
  have back : c.val ≠ 0x08 := fun h => back (ext_val h)
  have page : c.val ≠ 0x0C := fun h => page (ext_val h)
  have other : c.inDoubleQuotes =
      if c.val < 0x20 then ('\\' : CodePoint) :: 'u' :: hexDigits 4 c.val else [c] := by
    rw [inDoubleQuotes, if_neg quote, if_neg stroke, if_neg feed, if_neg turn, if_neg tab,
      if_neg back, if_neg page]
    rfl
  rw [other]
  by_cases low : c.val < 0x20
  · exact .inr (.inl ⟨low, if_pos low⟩)
  · exact .inr (.inr ⟨by omega, ⟨quote, feed, stroke⟩, if_neg low⟩)

/-- Reading a string undoes the escape of a code point. -/
theorem stringBody_inDoubleQuotes (c : CodePoint) (here : Nat) (rest : Text) :
    stringBody '"' here (c.inDoubleQuotes ++ rest) =
      (stringBody '"' (here + c.inDoubleQuotes.length) rest).map
        fun (value, width) => (c :: value, width) := by
  rcases c.inDoubleQuotes_cases with ⟨d, hd, rfl, eq⟩ | ⟨low, eq⟩ | ⟨-, other, eq⟩
  · have plain : ∀ d ∈ Text.ofString "\"\\nrtbf", d ≠ 'u' ∧ d ≠ 'x' ∧ d ≠ '\n' := by decide
    rw [eq]
    exact stringBody_escape (Escape.read_simple (plain d hd) rest)
  · have escape : stringBody '"' here ('\\' :: 'u' :: (hexDigits 4 c.val ++ rest)) = _ :=
      stringBody_escape (Escape.read_control low rest)
    simpa [eq, Nat.add_assoc] using escape
  · rw [eq]
    exact stringBody_plain other

theorem stringBody_quoted (s : Text) (here : Nat) (rest : Text) :
    stringBody '"' here (s.flatMap CodePoint.inDoubleQuotes ++ ('"' : CodePoint) :: rest) =
      .ok (s, here + (s.flatMap CodePoint.inDoubleQuotes).length + 1) := by
  induction s generalizing here with
  | nil => exact stringBody_close
  | cons c s ih =>
    rw [List.flatMap_cons, List.append_assoc, stringBody_inDoubleQuotes, ih]
    simp [Except.map, Nat.add_assoc]

/-- A quoted text is a string token with that text as its value. -/
theorem Lexes.quoted (s : Text) :
    Lexes s.quoted [⟨.string, s, 0, s.quoted.length⟩] fun _ => True := by
  let body : Text := s.flatMap CodePoint.inDoubleQuotes ++ [('"' : CodePoint)]
  have h : Lexes ('"' :: body) [⟨.string, s, 0, body.length + 1⟩] fun _ => True := by
    refine .token fun r rest _ => ?_
    rw [Lexeme.read_quoted (.inl rfl), List.append_assoc, List.singleton_append, stringBody_quoted]
    simp [body, Except.map, Nat.add_comm]
  exact h

/-! ### Operators of one code point -/

/-- What starts no other lexeme is an operator by itself, if no longer operator starts there. -/
theorem Lexes.operator {c : CodePoint}
    (h : c.isBlank = false ∧ c.isDecimal = false ∧ c.isNameStart = false)
    (hq : c ≠ '/' ∧ c ≠ '"' ∧ c ≠ '\'' ∧ c ≠ '`') (hp : c ≠ '.') (hm : Lexeme.mark? c = none) :
    Lexes [c] [⟨.operator, [c], 0, 1⟩] fun rest =>
      (Lexeme.operators.find? (·.isPrefixOf (c :: rest))) = none := by
  refine .token fun r rest hr => ?_
  obtain ⟨hb, hd, hn⟩ := h
  rw [List.nil_append, Lexeme.read_plain hb hq]
  simp [Lexeme.plain, NumberLiteral.width_eq_zero hd hp, Lexeme.nameWidth_eq_zero hn, hm, hr, hp]

/-- A minus sign is an operator by itself before all but itself and the equals sign. -/
theorem Lexes.minus :
    Lexes ['-'] [⟨.operator, ['-'], 0, 1⟩] fun rest => ∀ c ∈ rest.head?, c ≠ '-' ∧ c ≠ '=' := by
  refine (Lexes.operator (c := '-') (by decide) (by decide) (by decide) (by decide)).mono ?_
  intro rest hr
  cases rest with
  | nil => decide
  | cons c rest =>
    obtain ⟨h1, h2⟩ := hr c rfl
    simp [Lexeme.operators, Text.ofString, List.isPrefixOf, Ne.symm h1, Ne.symm h2]

end SchemaTypings
