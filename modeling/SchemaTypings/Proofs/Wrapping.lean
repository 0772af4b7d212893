import SchemaTypings.Proofs.Arguments
import SchemaTypings.Proofs.Generics
import SchemaTypings.Proofs.LexedParts

/-!
Object literals in calls. A text that is one object literal is read as the declaration whose call
has the text as its first argument, whatever header and generic arguments stand in front of the call
and whatever options and other text follow the literal.
-/

namespace SchemaTypings

namespace Declaration

/-- The tokens `ts` of a text are one object literal with the given entries, which the reader reads
up to the end of the text. -/
structure ReadsWhole (text : Text) (ts : List Token) (entries : Entries Raw) : Prop where
  tokens : tokenize text = .ok ts
  opens : (Token.first ts).kind = .opens .curly
  read : ∃ rest, (readEntries text (3 * ts.length + 3) [] ts.tail).outcome = .ok (entries, rest) ∧
    (Token.first rest).kind = .eof

namespace ReadsWhole

variable {text : Text} {ts : List Token} {entries : Entries Raw}

/-- The text by itself is a declaration with these entries. -/
theorem readRaw_eq (h : ReadsWhole text ts entries) : (readRaw text).outcome = .ok entries := by
  obtain ⟨rest, read, -⟩ := h.read
  rw [readRaw, h.tokens]
  exact outcome_ofTokens (if_pos h.opens) read

/-- The tokens are those of the two braces, those between them, and the end. -/
theorem exists_run (h : ReadsWhole text ts entries) : ∃ o run brace e,
    ts = o :: run ++ [brace, e] ∧ o.kind = .opens .curly ∧ brace.kind = .closes .curly ∧
      e.kind = .eof ∧ (readEntries text (3 * ts.length + 3) [] (run ++ [brace, e])).outcome =
        .ok (entries, [e]) := by
  obtain ⟨front, split, others⟩ := exists_front_of_tokenize h.tokens
  obtain ⟨rest, read, ends⟩ := h.read
  obtain ⟨run, brace, eq, curly⟩ := exists_brace_of_readEntries read
  have opens := h.opens
  cases ts with
  | nil => cases opens
  | cons o more =>
    rw [List.tail_cons] at eq read
    have whole : (o :: run ++ [brace]) ++ rest = front ++ [Token.eof text.length] := by
      rw [← split, eq]
      simp
    -- What is left starts with a token at the end, which is the last one.
    rcases List.eq_nil_or_concat rest with rfl | ⟨init, e, rfl⟩
    · rw [List.append_nil] at whole
      obtain rfl : brace = Token.eof text.length := by
        simpa using (List.append_inj' whole rfl).2
      cases curly
    · rw [List.concat_eq_append, ← List.append_assoc] at whole
      obtain ⟨rfl, last⟩ := List.append_inj' whole rfl
      cases init with
      | nil =>
        refine ⟨o, run, brace, e, ?_, opens, curly, ends, eq ▸ read⟩
        rw [eq]
        simp
      | cons t init => exact absurd ends (others t (by simp))

/-- The text splits at the closing brace into a part with the tokens in front of it and the rest. -/
theorem exists_parts (h : ReadsWhole text ts entries) : ∃ o run brace e front rest,
    text = front ++ ('\x7d' : CodePoint) :: rest ∧ ts = o :: run ++ [brace, e] ∧
      o.kind = .opens .curly ∧ brace.kind = .closes .curly ∧ e.kind = .eof ∧
      LexesBefore (('\x7d' : CodePoint) :: rest) true front (o :: run) ∧
      (∀ t ∈ run, t.stop ≤ front.length) ∧
      (readEntries text (3 * ts.length + 3) [] (run ++ [brace, e])).outcome =
        .ok (entries, [e]) := by
  obtain ⟨o, run, brace, e, split, opens, curly, ends, read⟩ := h.exists_run
  have lexed := tokens_of_tokenize h.tokens
  have order := pairwise_lex true 0 text
  rw [lexed, split, List.pairwise_append] at order
  rw [split] at lexed
  obtain ⟨front, c, rest, us, w, rfl, pos, eq, before, first, -⟩ :=
    exists_before_of_lex lexed (by simp [curly])
  rw [curly] at first
  obtain ⟨mark, -⟩ := Lexeme.mark_of_read first (.inr rfl)
  obtain rfl := Lexeme.eq_brace_of_mark?.2 mark
  rw [List.map_congr_left fun t _ => Token.later_zero t, List.map_id'] at eq
  rw [Nat.zero_add] at pos
  refine ⟨o, run, brace, e, front, rest, rfl, split, opens, curly, ends, eq ▸ before, ?_, read⟩
  intro t mem
  exact pos ▸ order.2.2 t (List.mem_cons_of_mem o mem) brace (List.mem_cons_self ..)

end ReadsWhole

/-! ### The literal in a call -/

section

variable {name header arguments text behind : Text} {ts : List Token} {entries : Entries Raw}

/-- The source that declares a schema with an argument behind a header and generic arguments, and
with the text `behind` after the argument. -/
def wrapped (header arguments text behind : Text) : Text :=
  header ++ (arguments ++ ("(" ++ (text ++ behind)))

/-- Behind the bracket of a call, a part in front of a brace has the tokens that it has at the start
of a source. -/
theorem exists_tokens_call {opening front rest rest' : Text} {hs vs us : List Token}
    (lexes : Lexes opening hs fun rest => rest.head? = some ('(' : CodePoint))
    (before : LexesBefore (('\x7d' : CodePoint) :: rest) true front vs)
    (tokens : tokenize (opening ++ ('(' : CodePoint) ::
      (front ++ ('\x7d' : CodePoint) :: rest')) = .ok us) :
    ∃ l c more, us = hs ++ l :: (vs.map (·.later (opening.length + 1)) ++ c :: more) ∧
      l.kind = .opens .round ∧ c.kind = .closes .curly := by
  let inner : Text := front ++ ('\x7d' : CodePoint) :: rest'
  have paren (r : Bool) : lex r opening.length (('(' : CodePoint) :: inner) =
      (lex true (opening.length + 1) inner).behind
        [⟨.opens .round, ['('], opening.length, opening.length + 1⟩] :=
    lex_token (Lexeme.read_mark (c := '(') rfl r _)
  have whole := lexes true 0 (('(' : CodePoint) :: inner) rfl
  rw [lex_of_tokenize tokens, Nat.zero_add, paren] at whole
  have ok : (lex true (opening.length + 1) inner).error? = none :=
    (congrArg Lexed.error? whole).symm
  have separates : Text.Separates (('\x7d' : CodePoint) :: rest') := by
    rintro _ ⟨⟩
    exact .inr rfl
  have again := (before.apart (List.cons_ne_nil _ _) separates ok).lex_eq (opening.length + 1)
  rw [lex_brace, Lexed.behind_behind] at again
  have eq := congrArg Lexed.tokens whole
  rw [again] at eq
  simp only [Lexed.tokens_behind, Token.later_zero, List.map_id', List.append_assoc,
    List.singleton_append] at eq
  exact ⟨_, _, _, eq, rfl, rfl⟩

/-- Where the text is the first argument of a call it is read as it is by itself. -/
theorem ReadsWhole.readRaw_wrapped (h : ReadsWhole text ts entries)
    (isHeader : IsHeader name header) (plain : ∀ c ∈ header, c ≠ ':')
    (skipped : Generics.AreSkipped arguments) {us : List Token}
    (tokens : tokenize (wrapped header arguments text behind) = .ok us) :
    (readRaw (wrapped header arguments text behind)).outcome = .ok entries := by
  obtain ⟨o, run, brace, e, front, rest, split, rfl, opens, curly, ends, before, inside, read⟩ :=
    h.exists_parts
  obtain ⟨hs, lexes, find⟩ := findSchemaObject_call isHeader plain skipped
  have place : wrapped header arguments text behind = (header ++ arguments) ++ ('(' : CodePoint) ::
      (front ++ ('\x7d' : CodePoint) :: (rest ++ behind)) := by
    simp [wrapped, Text.ofString, split]
  obtain ⟨l, c, more, rfl, round, closes⟩ := exists_tokens_call lexes before (place ▸ tokens)
  let n := (header ++ arguments).length + 1
  have moved : Moved text (wrapped header arguments text behind) n run [brace, e] (c :: more) := {
    slices := by
      intro t _ u mem
      have whole : wrapped header arguments text behind =
          (header ++ arguments ++ "(") ++ (text ++ behind) := by
        simp [wrapped]
      have width : (header ++ arguments ++ "(").length = n := List.length_append
      have short := inside u mem
      have size := congrArg List.length split
      rw [List.length_append] at size
      rw [whole, slice_within (by omega) (by omega), width, Nat.add_sub_cancel, Nat.add_sub_cancel]
    closes := ⟨.curly, curly⟩
    alike := closes.trans curly.symm
    isOver := by
      intro vs suffix
      rcases List.suffix_cons_iff.1 suffix with rfl | suffix
      · exact .inr ends
      · rw [List.suffix_nil.1 suffix]
        exact .inr rfl }
  have found := find (wrapped header arguments text behind) l
    ((o :: run).map (·.later n) ++ c :: more) round opens
  rw [readRaw, tokens]
  refine outcome_ofTokens found (readEntries_moved moved curly ?_ (List.suffix_refl run) read)
  simp only [List.length_append, List.length_cons, List.length_map, List.length_nil]
  omega

/-- A text that is one object literal has the same canonical text as a declaration with it as its
argument, with options behind it or without. A header without a colon has no type annotation. -/
theorem normalize_wrapped (isHeader : IsHeader name header) (plain : ∀ c ∈ header, c ≠ ':')
    (isArguments : Generics.IsArguments arguments) (h : ReadsWhole text ts entries) :
    ∃ normal, (normalize text).outcome = .ok normal ∧
      (∀ us, tokenize (wrapped header arguments text ");") = .ok us →
        (normalize (wrapped header arguments text ");")).outcome = .ok normal) ∧
      ∀ options us, tokenize (wrapped header arguments text (", " ++ (options ++ ");"))) = .ok us →
        (normalize (wrapped header arguments text (", " ++ (options ++ ");")))).outcome =
          .ok normal := by
  have canonical {source : Text} (read : (readRaw source).outcome = .ok entries) :
      (normalize source).outcome = .ok (Literal.object (Raw.quoteFields entries)).render := by
    rw [outcome_normalize, read, ok_bind]
  refine ⟨_, canonical h.readRaw_eq, fun us tokens => ?_, fun options us tokens => ?_⟩
  · exact canonical (h.readRaw_wrapped isHeader plain isArguments.areSkipped tokens)
  · exact canonical (h.readRaw_wrapped isHeader plain isArguments.areSkipped tokens)

end

/-- A header, generic arguments whose last three brackets are one token, and a literal with an
opaque value. -/
def genericHeader : Text := "export const s = new mongoose.Schema"

def genericArguments : Text := "<Doc<A.B, Schema<D>>>"

def opaqueLiteral : Text := "\x7b a: f(1) + 2 \x7d"

theorem isGap_empty : Text.IsGap "" := fun _ mem => nomatch mem

theorem isGap_space : Text.IsGap " " :=
  show ∀ c ∈ (" " : Text), c.isBlank = true by decide

theorem isHeader_generic : IsHeader "s" genericHeader := by
  have built : Header.IsConstructor
      ("new" ++ (" " ++ ("mongoose" ++ ("" ++ ("." ++ ("" ++ "Schema")))))) :=
    .new (by decide) isGap_space (.qualified (by decide) isGap_empty isGap_empty .schema)
  have declaration : Header.IsDeclaration "s" ("const" ++ (" " ++ ("s" ++ ((" " ++ "=") ++
      (" " ++ (("new" ++ (" " ++ ("mongoose" ++ ("" ++ ("." ++ ("" ++ "Schema")))))) ++ "")))))) :=
    .mk (by decide) (by decide) isGap_space (by decide) (.bare isGap_space) isGap_space built
      isGap_empty
  exact IsHeader.exported (by decide) isGap_space declaration

theorem isArguments_generic : Generics.IsArguments genericArguments := by
  have path : Generics.IsPath ("A" ++ ("" ++ ("." ++ ("" ++ "B")))) :=
    .dotted (by decide) isGap_empty isGap_empty (.name (by decide))
  have inner : Generics.AreTypes ("" ++ ("D" ++ "")) :=
    .one isGap_empty (.plain (.name (by decide))) isGap_empty
  have last : Generics.IsType ("Schema" ++ ("" ++ ("<" ++ ("" ++ ("D" ++ "") ++ ">")))) :=
    .applied (.name (by decide)) isGap_empty inner
  have outer : Generics.IsType ("Doc" ++ ("" ++ ("<" ++ (_ ++ ">")))) :=
    .applied (.name (by decide)) isGap_empty
      (.more isGap_empty (.plain path) isGap_empty (.one isGap_space last isGap_empty))
  exact Generics.IsArguments.given (.one isGap_empty outer isGap_empty) isGap_empty

theorem readsWhole_opaque : ReadsWhole opaqueLiteral
    [⟨.opens .curly, "\x7b", 0, 1⟩, ⟨.name, "a", 2, 3⟩, ⟨.colon, ":", 3, 4⟩, ⟨.name, "f", 5, 6⟩,
      ⟨.opens .round, "(", 6, 7⟩, ⟨.number, "1", 7, 8⟩, ⟨.closes .round, ")", 8, 9⟩,
      ⟨.operator, "+", 10, 11⟩, ⟨.number, "2", 12, 13⟩, ⟨.closes .curly, "\x7d", 14, 15⟩,
      Token.eof 15] [("a", .text "f(1) + 2")] where
  tokens := by decide +kernel
  opens := rfl
  read := ⟨[Token.eof 15], rfl, rfl⟩

theorem normalize_wrapped_generic : ∃ ts entries normal, IsHeader "s" genericHeader ∧
    (∀ c ∈ genericHeader, c ≠ ':') ∧ Generics.IsArguments genericArguments ∧
    ReadsWhole opaqueLiteral ts entries ∧ (normalize opaqueLiteral).outcome = .ok normal ∧
    (normalize (wrapped genericHeader genericArguments opaqueLiteral ");")).outcome = .ok normal ∧
    (normalize (wrapped genericHeader genericArguments opaqueLiteral
      (", " ++ ("\x7b x: 1 \x7d" ++ ");")))).outcome = .ok normal := by
  have plain : ∀ c ∈ genericHeader, c ≠ ':' := by decide +kernel
  obtain ⟨normal, alone, closed, optional⟩ :=
    normalize_wrapped isHeader_generic plain isArguments_generic readsWhole_opaque
  have tokens : (tokenize (wrapped genericHeader genericArguments opaqueLiteral
      ");")).toOption.isSome = true ∧ (tokenize (wrapped genericHeader genericArguments opaqueLiteral
        (", " ++ ("\x7b x: 1 \x7d" ++ ");")))).toOption.isSome = true := by decide +kernel
  obtain ⟨us, here⟩ := Option.isSome_iff_exists.1 tokens.1
  obtain ⟨vs, there⟩ := Option.isSome_iff_exists.1 tokens.2
  exact ⟨_, _, normal, isHeader_generic, plain, isArguments_generic, readsWhole_opaque, alone,
    closed us (ok_of_toOption here), optional _ vs (ok_of_toOption there)⟩

end Declaration

end SchemaTypings
