import SchemaTypings.Proofs.DividingTexts
import SchemaTypings.Proofs.Wrapping

/-!
Generic arguments of any shape: names, dots, commas, bars, strings, and brackets of all four kinds
in pairs. They are skipped twice. The search among the tokens counts the angle brackets of every
operator, of which one may close several lists; the search among the code points counts those in
strings too, and gives up at a brace or a semicolon.
-/

namespace SchemaTypings

namespace Generics

/-! ### The grammar -/

/-- A string literal: it starts with a quote and is one token, whatever follows it. -/
structure IsString (s : Text) : Prop where
  starts : ∃ quote body, s = quote :: body ∧ CodePoint.IsQuote quote
  exists_lexes : ∃ value, Lexes s [⟨.string, value, 0, s.length⟩] fun _ => True

/-- The brackets that may be nested. -/
def pairs : List (CodePoint × CodePoint) := [('<', '>'), ('\x7b', '\x7d'), ('[', ']'), ('(', ')')]

/-- A sequence of names, dots, commas, bars, strings and groups in brackets, with blanks between
them. -/
inductive AreParts : Text → Prop
  | nil : AreParts []
  | blank {c : CodePoint} {s : Text} (isBlank : c.isBlank = true) (rest : AreParts s) :
      AreParts (c :: s)
  | name {name s : Text} (isName : name.isName = true) (ends : s.EndsName) (rest : AreParts s) :
      AreParts (name ++ s)
  | mark {c : CodePoint} {s : Text} (isMark : c ∈ (".,|" : Text)) (rest : AreParts s) :
      AreParts (c :: s)
  | string {q s : Text} (isString : IsString q) (rest : AreParts s) : AreParts (q ++ s)
  | group {l r : CodePoint} {inner s : Text} (pair : (l, r) ∈ pairs) (within : AreParts inner)
      (rest : AreParts s) : AreParts (l :: (inner ++ r :: s))

/-- A quoted text is a string literal. -/
theorem isString_quoted (s : Text) : IsString s.quoted :=
  ⟨⟨'"', _, rfl, .inl rfl⟩, s, .quoted s⟩

/-! ### The angle brackets that are open -/

/-- The text closes `depth` lists, and the last of them with its last code point. Only angle
brackets count. -/
inductive Closes : Nat → Text → Prop
  | last : Closes 1 ['>']
  | blank {depth : Nat} {c : CodePoint} {s : Text} (isBlank : c.isBlank = true)
      (rest : Closes depth s) : Closes depth (c :: s)
  | name {depth : Nat} {name s : Text} (isName : name.isName = true) (ends : s.EndsName)
      (rest : Closes depth s) : Closes depth (name ++ s)
  | mark {depth : Nat} {c : CodePoint} {s : Text} (isMark : c ∈ (".,|()[]\x7b\x7d" : Text))
      (rest : Closes depth s) : Closes depth (c :: s)
  | string {depth : Nat} {q s : Text} (isString : IsString q) (rest : Closes depth s) :
      Closes depth (q ++ s)
  | opens {depth : Nat} {s : Text} (rest : Closes (depth + 2) s) : Closes (depth + 1) ('<' :: s)
  | closes {depth : Nat} {s : Text} (rest : Closes (depth + 1) s) : Closes (depth + 2) ('>' :: s)

theorem Closes.exists_eq_succ {depth : Nat} {s : Text} (h : Closes depth s) :
    ∃ n, depth = n + 1 := by
  induction h with
  | last => exact ⟨0, rfl⟩
  | blank _ _ ih | name _ _ _ ih | mark _ _ ih | string _ _ ih => exact ih
  | @opens depth | @closes depth => exact ⟨_, rfl⟩

/-- Parts leave as many lists open as there were. -/
theorem AreParts.closes {g s : Text} {depth : Nat} (h : AreParts g) (rest : Closes (depth + 1) s) (ends : s.EndsName) :
    Closes (depth + 1) (g ++ s) := by
  induction h generalizing depth s with
  | nil => exact rest
  | blank isBlank _ ih => exact .blank isBlank (ih rest ends)
  | @name name more isName ends' _ ih =>
    rw [List.append_assoc]
    refine .name isName ?_ (ih rest ends)
    cases more with
    | nil => exact ends
    | cons c more => exact ends'
  | mark isMark _ ih =>
    have all : ∀ c ∈ (".,|" : Text), c ∈ (".,|()[]\x7b\x7d" : Text) := by decide
    exact .mark (all _ isMark) (ih rest ends)
  | string isString _ ih =>
    rw [List.append_assoc]
    exact .string isString (ih rest ends)
  | @group l r inner more pair _ _ within behind =>
    have whole : l :: (inner ++ r :: more) ++ s = l :: (inner ++ r :: (more ++ s)) := by simp
    have others : ∀ p ∈ pairs, ¬(p.1 = '<' ∧ p.2 = '>') →
        p.1 ∈ (".,|()[]\x7b\x7d" : Text) ∧ p.2 ∈ (".,|()[]\x7b\x7d" : Text) := by decide
    have right : ∀ p ∈ pairs, p.2.isNamePart = false := by decide
    have endsInner : Text.EndsName (r :: (more ++ s)) := Text.endsName_cons (right _ pair)
    rw [whole]
    by_cases angle : l = '<' ∧ r = '>'
    · obtain ⟨rfl, rfl⟩ := angle
      exact .opens (within (.closes (behind rest ends)) endsInner)
    · obtain ⟨left, right⟩ := others _ pair angle
      exact .mark left (within (.mark right (behind rest ends)) endsInner)

/-! ### One operator -/

/-- What operators are made of: no blank, no quote, no mark, and nothing that starts a name. -/
def IsOperatorPart (c : CodePoint) : Prop :=
  c.isBlank = false ∧ c.isNameStart = false ∧ ¬(c = '"' ∨ c = '\'') ∧ Lexeme.mark? c = none

instance (c : CodePoint) : Decidable (IsOperatorPart c) :=
  inferInstanceAs (Decidable (_ ∧ _ ∧ ¬(_ ∨ _) ∧ _))

theorem isOperatorPart_of_mem {op : Text} (mem : op ∈ Lexeme.operators) :
    ∀ c ∈ op, IsOperatorPart c := by
  have all : ∀ op ∈ Lexeme.operators, ∀ c ∈ op, IsOperatorPart c := by decide
  exact all op mem

/-- The text closes `depth` lists, or none is open and the text has ended. -/
def ClosesRest (depth : Nat) (s : Text) : Prop := depth = 0 ∧ s = [] ∨ Closes depth s

section

variable {depth : Nat} {c : CodePoint} {s op rest : Text}

/-- One such code point is a mark, or opens or closes a list. -/
theorem Closes.exists_behind (h : Closes depth (c :: s)) (part : IsOperatorPart c) :
    (c = '.' ∨ c = '|' ∨ c = '<' ∨ c = '>') ∧
      ∃ level, ClosesRest level s ∧
        level + [c].count ('>' : CodePoint) = depth + [c].count ('<' : CodePoint) := by
  obtain ⟨notBlank, notName, notQuote, notMark⟩ := part
  generalize whole : c :: s = text at h
  cases h with
  | last =>
    cases whole
    exact ⟨by simp, 0, .inl ⟨rfl, rfl⟩, by decide⟩
  | blank isBlank _ =>
    cases whole
    rw [notBlank] at isBlank
    cases isBlank
  | @name _ name more isName _ _ =>
    cases name with
    | nil => cases isName
    | cons d name =>
      cases whole
      rw [Text.isName, notName] at isName
      cases isName
  | mark isMark rest =>
    cases whole
    have all : ∀ c ∈ (".,|()[]\x7b\x7d" : Text), Lexeme.mark? c = none → (c = '.' ∨ c = '|') ∧
        [c].count ('>' : CodePoint) = 0 ∧ [c].count ('<' : CodePoint) = 0 := by decide
    obtain ⟨cases', closing, opening⟩ := all c isMark notMark
    exact ⟨by tauto, depth, .inr rest, by rw [closing, opening]⟩
  | string isString _ =>
    obtain ⟨quote, body, rfl, isQuote⟩ := isString.starts
    cases whole
    exact absurd isQuote notQuote
  | @opens depth _ rest =>
    cases whole
    exact ⟨by simp, depth + 2, .inr rest, by simp⟩
  | @closes depth _ rest =>
    cases whole
    exact ⟨by simp, depth + 1, .inr rest, by simp⟩

/-- An operator in front of a call ends before the call, and what follows it closes the lists that
are open behind it. -/
theorem ClosesRest.exists_behind (h : ClosesRest depth s)
    (paren : rest.head? = some ('(' : CodePoint)) (starts : op <+: s ++ rest)
    (parts : ∀ c ∈ op, IsOperatorPart c) :
    ∃ behind level, s = op ++ behind ∧ ClosesRest level behind ∧
      level + op.count ('>' : CodePoint) = depth + op.count ('<' : CodePoint) := by
  induction op generalizing depth s with
  | nil => exact ⟨s, depth, rfl, h, rfl⟩
  | cons c op ih =>
    rw [List.forall_mem_cons] at parts
    cases s with
    | nil =>
      obtain ⟨rest, rfl⟩ := List.head?_eq_some_iff.1 paren
      obtain ⟨more, split⟩ := starts
      obtain ⟨rfl, -⟩ := List.cons.inj split
      exact absurd parts.1.2.2.2 (by decide)
    | cons d s =>
      obtain ⟨rfl, within⟩ := List.cons_prefix_cons.1 starts
      obtain ⟨-, no⟩ | closes := h
      · cases no
      obtain ⟨-, level, closes, count⟩ := closes.exists_behind parts.1
      obtain ⟨behind, level', rfl, closes, count'⟩ := ih closes within parts.2
      refine ⟨behind, level', rfl, closes, ?_⟩
      rw [← List.singleton_append, List.count_append, List.count_append]
      omega

/-- No digit follows a dot. -/
theorem ClosesRest.not_isDecimal (h : ClosesRest depth s)
    (paren : rest.head? = some ('(' : CodePoint)) :
    ∀ c ∈ (s ++ rest).head?, CodePoint.isDecimal c = false := by
  obtain ⟨-, rfl⟩ | closes := h
  · obtain ⟨rest, rfl⟩ := List.head?_eq_some_iff.1 paren
    rintro _ ⟨⟩
    decide
  cases closes with
  | last | opens | closes =>
    rintro _ ⟨⟩
    decide
  | blank isBlank _ =>
    rintro _ ⟨⟩
    exact (CodePoint.stops_of_isBlank isBlank).2.1
  | @name _ name more isName _ _ =>
    cases name with
    | nil => cases isName
    | cons c name =>
      rw [Text.isName, Bool.and_eq_true] at isName
      rintro _ ⟨⟩
      exact (CodePoint.facts_of_isNameStart isName.1).2.2.1
  | mark isMark _ =>
    have all : ∀ c ∈ (".,|()[]\x7b\x7d" : Text), CodePoint.isDecimal c = false := by decide
    rintro _ ⟨⟩
    exact all _ isMark
  | string isString _ =>
    obtain ⟨quote, body, rfl, rfl | rfl⟩ := isString.starts <;> rintro _ ⟨⟩ <;> decide

/-- No operator reaches into a call that follows. -/
theorem Closes.find?_append (h : Closes depth s) (paren : rest.head? = some ('(' : CodePoint)) :
    Lexeme.operators.find? (·.isPrefixOf (s ++ rest)) =
      Lexeme.operators.find? (·.isPrefixOf s) := by
  refine List.find?_congr fun op mem => ?_
  rw [Bool.eq_iff_iff, List.isPrefixOf_iff_prefix, List.isPrefixOf_iff_prefix]
  constructor
  · intro starts
    obtain ⟨behind, -, split, -⟩ :=
      ClosesRest.exists_behind (.inr h) paren starts (isOperatorPart_of_mem mem)
    exact ⟨behind, split.symm⟩
  · intro starts
    exact starts.trans (List.prefix_append s rest)

/-- What is read there does not depend on the call. -/
theorem Closes.read_append (h : Closes depth (c :: s)) (part : IsOperatorPart c) (r : Bool)
    (paren : rest.head? = some ('(' : CodePoint)) :
    Lexeme.read r c (s ++ rest) =
      .ok (match Lexeme.operators.find? (·.isPrefixOf (c :: s)) with
        | some op => .token .operator op op.length
        | none => .token (if c = '.' then .dot else .operator) [c] 1) := by
  obtain ⟨first, level, closes, -⟩ := h.exists_behind part
  have notQuoted : c ≠ '/' ∧ c ≠ '"' ∧ c ≠ '\'' ∧ c ≠ '`' := by
    rcases first with rfl | rfl | rfl | rfl <;> decide
  have number : NumberLiteral.width (c :: (s ++ rest)) = 0 := by
    by_cases dot : c = '.'
    · subst dot
      exact NumberLiteral.width_dot (closes.not_isDecimal paren)
    · refine NumberLiteral.width_eq_zero ?_ dot _
      rcases first with rfl | rfl | rfl | rfl <;> decide
  have found := h.find?_append paren
  rw [List.cons_append] at found
  rw [Lexeme.read_plain part.1 notQuoted, Lexeme.plain]
  simp only [number, Lexeme.nameWidth_eq_zero part.2.1, part.2.2.2, found]
  rfl

/-- The text `behind` follows, with a call behind it. -/
def Follows (behind : Text) (more : Text) : Prop :=
  ∃ rest : Text, more = behind ++ rest ∧ rest.head? = some ('(' : CodePoint)

/-- The text starts with an operator or a dot, which is one token. -/
theorem Closes.exists_operator (h : Closes depth (c :: s)) (part : IsOperatorPart c) :
    ∃ op behind level kind, c :: s = op ++ behind ∧ op ≠ [] ∧ ClosesRest level behind ∧
      level + op.count ('>' : CodePoint) = depth + op.count ('<' : CodePoint) ∧
      (kind = .operator ∨ kind = .dot ∧ level = depth) ∧
      Lexes op [⟨kind, op, 0, op.length⟩] (Follows behind) := by
  cases found : Lexeme.operators.find? (·.isPrefixOf (c :: s)) with
  | some op =>
    have mem := List.mem_of_find?_eq_some found
    have here : op.isPrefixOf (c :: s) = true :=
      List.find?_some (p := fun op : Text => op.isPrefixOf (c :: s)) found
    have starts : op <+: (c :: s) ++ "(" :=
      (List.isPrefixOf_iff_prefix.1 here).trans (List.prefix_append ..)
    obtain ⟨behind, level, split, closes, count⟩ :=
      ClosesRest.exists_behind (.inr h) rfl starts (isOperatorPart_of_mem mem)
    have some : op ≠ [] := by
      have all : ∀ op ∈ Lexeme.operators, op ≠ [] := by decide
      exact all op mem
    refine ⟨op, behind, level, .operator, split, some, closes, count, .inl rfl, ?_⟩
    obtain ⟨d, tail, rfl⟩ := List.exists_cons_of_ne_nil some
    rw [List.cons_append] at split
    obtain ⟨rfl, rfl⟩ := List.cons.inj split
    refine .token fun r more follows => ?_
    obtain ⟨rest, rfl, paren⟩ := follows
    rw [← List.append_assoc, h.read_append part r paren, found]
    rfl
  | none =>
    obtain ⟨-, level, closes, count⟩ := h.exists_behind part
    refine ⟨[c], s, level, if c = '.' then .dot else .operator, rfl, List.cons_ne_nil c [], closes,
      count, ?_, .token fun r more follows => ?_⟩
    · by_cases dot : c = '.'
      · subst dot
        exact .inr ⟨rfl, by simpa using count⟩
      · exact .inl (if_neg dot)
    · obtain ⟨rest, rfl, paren⟩ := follows
      rw [List.nil_append, h.read_append part r paren, found]
      rfl

end

/-! ### The search among the tokens -/

section

open Declaration

variable {depth : Nat} {s : Text}

/-- In front of a call the text is read as tokens behind which the search ends if `depth` lists are
open. -/
def IsSkippedFrom (depth : Nat) (s : Text) : Prop :=
  ∃ ts, Lexes s ts (fun rest => rest.head? = some ('(' : CodePoint)) ∧
    ∀ (source : Text) (k : Nat) (rest : List Token),
      afterGenerics source depth (ts.map (·.later k) ++ rest) = .ok rest

/-- What is passed over may stand in front. -/
theorem IsSkippedFrom.behind {front : Text} {after : Text → Prop} (h : IsSkippedFrom (depth + 1) s)
    (crosses : Crosses front 0 after)
    (ends : ∀ rest : Text, rest.head? = some ('(' : CodePoint) → after (s ++ rest)) :
    IsSkippedFrom (depth + 1) (front ++ s) := by
  obtain ⟨ts, lexes, skips⟩ := h
  obtain ⟨us, lexes', passes⟩ := crosses
  refine ⟨_, lexes'.append lexes ends, fun source k rest => ?_⟩
  rw [List.map_append, Token.map_later_later, List.append_assoc, passes]
  exact skips source _ rest

theorem IsString.crosses {q : Text} (h : IsString q) : Crosses q 0 fun _ => True := by
  obtain ⟨value, lexes⟩ := h.exists_lexes
  exact ⟨_, lexes, passes_plain (by simp)⟩

theorem crosses_mark {c : CodePoint} {kind : TokenKind} (h : Lexeme.mark? c = some kind) :
    Crosses [c] 0 fun _ => True := by
  have all : ∀ m ∈ Lexeme.marks, m.2 ≠ .eof ∧ m.2 ≠ .operator := by decide
  have plain := all _ (Lexeme.mem_marks_of_mark? h)
  exact ⟨_, .mark h, passes_plain (by simpa using plain)⟩

/-- An operator changes how many lists are open by its angle brackets; the search ends behind the
one that closes the last. -/
theorem afterGenerics_operator {t : Token} {level : Nat} (operator : t.kind = .operator)
    (count : level + t.value.count ('>' : CodePoint) = depth + t.value.count ('<' : CodePoint))
    (source : Text) (rest : List Token) :
    afterGenerics source depth (t :: rest) =
      if level = 0 then .ok rest else afterGenerics source level rest := by
  have change : (depth : Int) + t.value.count ('<' : CodePoint) -
      t.value.count ('>' : CodePoint) = level := by omega
  rw [afterGenerics, if_neg (by simp [operator]), if_pos operator]
  dsimp only
  rw [change]
  by_cases zero : level = 0
  · rw [if_pos zero, if_pos (by omega)]
  · rw [if_neg zero, if_neg (by omega)]

/-- An operator or a dot may stand in front of what closes the lists that are open behind it. -/
theorem IsSkippedFrom.of_operator {op behind : Text} {kind : TokenKind} {level : Nat}
    (lexes : Lexes op [⟨kind, op, 0, op.length⟩] (Follows behind))
    (kinds : kind = .operator ∨ kind = .dot ∧ level = depth + 1)
    (count : level + op.count ('>' : CodePoint) = depth + 1 + op.count ('<' : CodePoint))
    (rest : level = 0 ∧ behind = [] ∨ 0 < level ∧ IsSkippedFrom level behind) :
    IsSkippedFrom (depth + 1) (op ++ behind) := by
  have follows (more : Text) (paren : more.head? = some ('(' : CodePoint)) :
      Follows behind (behind ++ more) := ⟨more, rfl, paren⟩
  have step (k : Nat) (operator : kind = .operator) (source : Text) (ts : List Token) :=
    afterGenerics_operator (t := Token.later ⟨kind, op, 0, op.length⟩ k) operator count source ts
  obtain ⟨rfl, rfl⟩ | ⟨pos, skipped⟩ := rest
  · obtain operator | ⟨-, no⟩ := kinds
    · exact ⟨_, lexes.append .nil follows, fun source k rest => step k operator source _⟩
    · cases no
  · obtain operator | ⟨rfl, rfl⟩ := kinds
    · obtain ⟨ts, lexes', skips⟩ := skipped
      refine ⟨_, lexes.append lexes' follows, fun source k rest => ?_⟩
      rw [List.map_append, Token.map_later_later, List.append_assoc]
      exact (step k operator source _).trans ((if_neg (by omega)).trans (skips source _ rest))
    · exact skipped.behind ⟨_, lexes, passes_plain (by simp)⟩ follows

/-- A text that closes the lists that are open is skipped. -/
theorem Closes.isSkippedFrom (h : Closes (depth + 1) s) : IsSkippedFrom (depth + 1) s := by
  -- An operator may take several brackets, so the induction is on the length of the text.
  induction size : s.length using Nat.strongRecOn generalizing depth s with
  | ind n ih =>
    subst size
    have go {level : Nat} {more : Text} (rest : Closes (level + 1) more)
        (short : more.length < s.length) : IsSkippedFrom (level + 1) more := ih _ short rest rfl
    have operator {c : CodePoint} {more : Text} (split : s = c :: more) (part : IsOperatorPart c) :
        IsSkippedFrom (depth + 1) s := by
      subst split
      obtain ⟨op, behind, level, kind, split, some, closes, count, kinds, lexes⟩ :=
        h.exists_operator part
      have short : behind.length < (c :: more).length := by
        have := List.length_pos_of_ne_nil some
        rw [split, List.length_append]
        omega
      rw [split]
      refine .of_operator lexes kinds count (closes.imp_right fun closes => ?_)
      obtain ⟨level, rfl⟩ := closes.exists_eq_succ
      exact ⟨Nat.succ_pos level, go closes short⟩
    cases h with
    | last => exact operator (c := '>') rfl (by decide)
    | opens => exact operator (c := '<') rfl (by decide)
    | closes => exact operator (c := '>') rfl (by decide)
    | @blank _ c more isBlank rest =>
      have isGap : Text.IsGap [c] := by simpa [Text.IsGap] using isBlank
      exact (go rest (Nat.lt_succ_self _)).behind (.gap isGap) fun _ _ => trivial
    | @name _ name more isName ends rest =>
      have some : 0 < name.length := List.length_pos_of_ne_nil (by rintro rfl; cases isName)
      refine (go rest ?_).behind (.name isName) fun behind paren => ?_
      · rw [List.length_append]
        omega
      · cases more with
        | nil =>
          obtain ⟨behind, rfl⟩ := List.head?_eq_some_iff.1 paren
          exact Text.endsName_cons (by decide)
        | cons c more => exact ends
    | @mark _ c more isMark rest =>
      cases kind : Lexeme.mark? c with
      | some => exact (go rest (Nat.lt_succ_self _)).behind (crosses_mark kind) fun _ _ => trivial
      | none =>
        have all : ∀ c ∈ (".,|()[]\x7b\x7d" : Text), Lexeme.mark? c = none → IsOperatorPart c := by
          decide
        exact operator rfl (all c isMark kind)
    | @string _ q more isString rest =>
      have some : 0 < q.length := by
        obtain ⟨quote, body, rfl, -⟩ := isString.starts
        exact Nat.succ_pos _
      refine (go rest ?_).behind isString.crosses fun _ _ => trivial
      rw [List.length_append]
      omega

/-- Parts in angle brackets are skipped unless they start with another bracket, which is one token
with the first. -/
theorem AreParts.areSkipped {g : Text} (h : AreParts g)
    (apart : g.head? ≠ some ('<' : CodePoint)) : AreSkipped ("<" ++ (g ++ ">")) := by
  have closes : Closes 1 (g ++ ">") := h.closes .last (Text.endsName_cons (c := '>') (by decide))
  obtain ⟨ts, lexes, skips⟩ := closes.isSkippedFrom
  have other (rest : Text) : ∀ c ∈ (g ++ ">" ++ rest).head?, c ≠ '<' ∧ c ≠ '=' := by
    cases g with
    | nil =>
      rintro _ ⟨⟩
      decide
    | cons c g =>
      rintro _ ⟨⟩
      refine ⟨fun less => apart (congrArg some less), ?_⟩
      rintro rfl
      exact absurd (closes.exists_behind (by decide)).1 (by decide)
  refine ⟨fun rest _ => ⟨'<', g ++ ">" ++ rest, rfl, .inr rfl⟩, _,
    lexes_less.append lexes fun rest _ => other rest, fun source k t rest _ => ?_⟩
  rw [skipGenerics]
  refine (if_pos rfl).trans ?_
  have first := afterGenerics_angle (t := Token.later ⟨.operator, "<", 0, 1⟩ k) rfl rfl source 0
  rw [Int.natCast_zero] at first
  rw [List.map_append, List.map_singleton, List.singleton_append, List.cons_append, first,
    Token.map_later_later]
  exact skips source _ _

end

/-! ### The search among the code points -/

section

open Declaration

variable {g s : Text}

/-- The text has no semicolon and no brace, and its angle brackets are in pairs, those in strings
included. -/
structure IsMatched (g : Text) : Prop where
  plain : ∀ c ∈ g, ¬(c = ';' ∨ c = '\x7b' ∨ c = '\x7d')
  inside : ∀ p, p <+: g → p.count ('>' : CodePoint) ≤ p.count ('<' : CodePoint)
  total : g.count ('>' : CodePoint) = g.count ('<' : CodePoint)

instance (g : Text) : Decidable (IsMatched g) :=
  decidable_of_iff ((∀ c ∈ g, ¬(c = ';' ∨ c = '\x7b' ∨ c = '\x7d')) ∧
      (∀ p ∈ g.inits, p.count ('>' : CodePoint) ≤ p.count ('<' : CodePoint)) ∧
      g.count ('>' : CodePoint) = g.count ('<' : CodePoint))
    ⟨fun ⟨plain, inside, total⟩ =>
        ⟨plain, fun p starts => inside p ((List.mem_inits p g).2 starts), total⟩,
      fun h => ⟨h.plain, fun p mem => h.inside p ((List.mem_inits p g).1 mem), h.total⟩⟩

theorem IsMatched.of_isAngled (h : IsAngled g) : IsMatched g := by
  have apart : ('<' : CodePoint) ≠ '>' := by decide
  induction h with
  | nil => exact ⟨nofun, fun p starts => by rw [List.prefix_nil.1 starts]; exact Nat.le_refl 0, rfl⟩
  | @plain c s mark stop _ ih =>
    refine ⟨List.forall_mem_cons.2 ⟨stop, ih.plain⟩, fun p starts => ?_, ?_⟩
    · rcases List.prefix_cons_iff.1 starts with rfl | ⟨q, rfl, behind⟩
      · exact Nat.le_refl 0
      · rw [List.count_cons_of_ne mark.2, List.count_cons_of_ne mark.1]
        exact ih.inside q behind
    · rw [List.count_cons_of_ne mark.2, List.count_cons_of_ne mark.1, ih.total]
  | @group inner s _ _ within behind =>
    refine ⟨?_, fun p begins => ?_, ?_⟩
    · rw [List.forall_mem_cons, List.forall_mem_append, List.forall_mem_cons]
      exact ⟨by decide, within.plain, by decide, behind.plain⟩
    · rcases List.prefix_cons_iff.1 begins with rfl | ⟨q, rfl, others⟩
      · exact Nat.le_refl 0
      rw [List.count_cons_self, List.count_cons_of_ne apart]
      -- The prefix ends between the brackets of the group or behind them.
      rcases List.prefix_or_prefix_of_prefix others (List.prefix_append inner _) with starts | ⟨t, rfl⟩
      · exact Nat.le_succ_of_le (within.inside q starts)
      rw [List.prefix_append_right_inj] at others
      rw [List.count_append, List.count_append, within.total]
      rcases List.prefix_cons_iff.1 others with rfl | ⟨t, rfl, starts⟩
      · exact Nat.le_succ _
      · have closed := behind.inside t starts
        rw [List.count_cons_self, List.count_cons_of_ne apart.symm]
        omega
    · have inner := within.total
      have others := behind.total
      simp only [List.count_cons_self, List.count_cons_of_ne apart, List.count_cons_of_ne apart.symm,
        List.count_append]
      omega

/-- The search passes over a text that closes no more lists than are open. -/
theorem afterArguments?_append {depth level : Nat}
    (plain : ∀ c ∈ g, ¬(c = ';' ∨ c = '\x7b' ∨ c = '\x7d'))
    (inside : ∀ p, p <+: g → p.count ('>' : CodePoint) ≤ depth + p.count ('<' : CodePoint))
    (total : level + g.count ('>' : CodePoint) = depth + g.count ('<' : CodePoint)) (s : Text) :
    afterArguments? (depth + 1) (g ++ s) = afterArguments? (level + 1) s := by
  have apart : ('<' : CodePoint) ≠ '>' := by decide
  induction g generalizing depth with
  | nil =>
    obtain rfl : level = depth := total
    rfl
  | cons c g ih =>
    rw [List.forall_mem_cons] at plain
    have behind (p : Text) (starts : p <+: g) :=
      inside (c :: p) (List.cons_prefix_cons.2 ⟨rfl, starts⟩)
    rw [List.cons_append]
    by_cases opens : c = '<'
    · subst opens
      simp only [List.count_cons_self, List.count_cons_of_ne apart] at behind total
      rw [afterArguments?_open]
      refine ih plain.2 (fun p starts => ?_) (by omega)
      have := behind p starts
      omega
    by_cases closes : c = '>'
    · subst closes
      simp only [List.count_cons_self, List.count_cons_of_ne apart.symm] at behind total
      cases depth with
      | zero => exact absurd (behind [] List.nil_prefix) (by simp)
      | succ depth =>
        rw [afterArguments?_close]
        refine ih plain.2 (fun p starts => ?_) (by omega)
        have := behind p starts
        omega
    · simp only [List.count_cons_of_ne opens, List.count_cons_of_ne closes] at behind total
      rw [afterArguments?_plain ⟨opens, closes⟩ plain.1]
      exact ih plain.2 behind total

theorem IsMatched.isAngled (h : IsMatched g) : IsAngled g := by
  -- The search in front of a call ends behind the text, and so has passed over brackets in pairs.
  have passed : afterArguments? 1 (g ++ ">(") = some ("(" : Text) := by
    have inside (p : Text) (starts : p <+: g) :
        p.count ('>' : CodePoint) ≤ 0 + p.count ('<' : CodePoint) := by
      rw [Nat.zero_add]
      exact h.inside p starts
    have total : 0 + g.count ('>' : CodePoint) = 0 + g.count ('<' : CodePoint) := by rw [h.total]
    exact (afterArguments?_append h.plain inside total ">(").trans rfl
  obtain ⟨inner, behind, split, isAngled, last⟩ := exists_of_afterArguments? passed
  obtain ⟨gap, isGap, blanks, -⟩ := Header.exists_of_skipBlanks behind
  rw [if_pos rfl] at last
  rw [last] at blanks
  subst blanks
  have split : (g ++ ">") ++ "(" = (inner ++ ('>' : CodePoint) :: gap) ++ "(" := by
    simpa [Text.ofString] using split
  have split := List.append_cancel_right split
  rcases List.eq_nil_or_concat gap with rfl | ⟨gap, c, rfl⟩
  · rwa [List.append_cancel_right split]
  · have split : g ++ ">" = (inner ++ ('>' : CodePoint) :: gap) ++ [c] := by simpa using split
    obtain rfl : ('>' : CodePoint) = c := List.head_eq_of_cons_eq (List.append_inj' split rfl).2
    exact absurd (isGap '>' (by simp)) (by decide)

theorem isMatched_iff : IsMatched g ↔ IsAngled g := ⟨IsMatched.isAngled, .of_isAngled⟩

end

end Generics

namespace Declaration

open Generics

/-! ### Declarations with such arguments -/

/-- The source that declares a schema with generic arguments. -/
def applied (arguments : Text) : Text :=
  "const s = new Schema<" ++ (arguments ++ ">(\x7b a: String \x7d);")

section

variable {g : Text}

theorem isHeader_plain : IsHeader "s" "const s = new Schema" := by
  have read : Header.read? "const s = new Schema(" = some (("s" : Text), ("(" : Text)) := by
    decide +kernel
  obtain ⟨header, isHeader, split, -⟩ := Header.exists_of_read? read
  have eq : header ++ "(" = ("const s = new Schema" : Text) ++ "(" := split.symm
  rwa [List.append_cancel_right eq] at isHeader

theorem applied_eq (g : Text) :
    applied g = wrapped "const s = new Schema" ("<" ++ (g ++ ">")) "\x7b a: String \x7d" ");" := by
  simp [applied, wrapped, Text.ofString]

/-- The object literal by itself. -/
theorem readsWhole_plain : ReadsWhole "\x7b a: String \x7d"
    [⟨.opens .curly, "\x7b", 0, 1⟩, ⟨.name, "a", 2, 3⟩, ⟨.colon, ":", 3, 4⟩,
      ⟨.name, "String", 5, 11⟩, ⟨.closes .curly, "\x7d", 12, 13⟩, Token.eof 13]
    [("a", .bare "String")] where
  tokens := by decide +kernel
  opens := rfl
  read := ⟨[Token.eof 13], rfl, rfl⟩

/-- The call in front of the end of the source. -/
theorem callBefore_plain : Nonempty (CallBefore ";" "(\x7b a: String \x7d)") := by
  let whole := lex true 0 (('(' : CodePoint) :: "\x7b a: String \x7d);")
  have walk : walkCall whole.error? [] false whole.tokens = .closed 15 := by decide +kernel
  obtain ⟨call, behind, split, within, stop⟩ := exists_call_of_walkCall walk
  have size : ("(\x7b a: String \x7d)" : Text).length = call.length := by
    rw [Nat.zero_add] at stop
    exact stop
  have split : ("(\x7b a: String \x7d)" : Text) ++ ";" = call ++ behind := split
  obtain ⟨rfl, rfl⟩ := List.append_inj split size
  exact within

/-- What is skipped does not change what is read. -/
theorem normalize_applied (skipped : AreSkipped ("<" ++ (g ++ ">"))) :
    (normalize (applied g)).outcome = .ok "\x7b a: \"string\" \x7d" := by
  have plain : ∀ c ∈ ("const s = new Schema" : Text), c ≠ ':' := by decide
  obtain ⟨ts, lexes, -⟩ := findSchemaObject_call isHeader_plain plain skipped
  have tokens : ∃ us, tokenize (applied g) = .ok us := by
    have ends (r : Bool) (p : Nat) : (lex r p "(\x7b a: String \x7d);").error? = none := by
      have here : (lex r 0 "(\x7b a: String \x7d);").error? = none := by
        cases r <;> decide +kernel
      rw [← Nat.zero_add p, lex_later, here]
      rfl
    have read := lexes true 0 "(\x7b a: String \x7d);" rfl
    have whole : applied g =
        ("const s = new Schema" ++ ("<" ++ (g ++ ">"))) ++ "(\x7b a: String \x7d);" := by
      simp [applied, Text.ofString]
    rw [whole, tokenize, read, Lexed.behind, ends]
    exact ⟨_, rfl⟩
  obtain ⟨us, tokens⟩ := tokens
  rw [applied_eq] at tokens ⊢
  rw [outcome_normalize, readsWhole_plain.readRaw_wrapped isHeader_plain plain skipped tokens]
  decide +kernel

/-- What the search passes over belongs to the declaration. -/
theorem extract_applied (isAngled : IsAngled g) : (extract (applied g)).outcome =
    .ok (some ⟨"s", applied g, 0, (applied g).length⟩) := by
  obtain ⟨within⟩ := callBefore_plain
  have arguments : IsArguments ("<" ++ (g ++ ">")) := .some isAngled (fun _ mem => nomatch mem)
  have isEnding : IsEnding (([] : Text) ++ ";") := .semicolon fun _ mem => nomatch mem
  have within : CallBefore (([] ++ (";" : Text)) ++ []) "(\x7b a: String \x7d)" := within
  have found := extract_append (.mk isHeader_plain arguments) within isEnding
  have whole : applied g = ("const s = new Schema" ++ ("<" ++ (g ++ ">"))) ++
      ("(\x7b a: String \x7d)" ++ (([] : Text) ++ ";")) := by
    simp [applied, Text.ofString]
  rw [whole]
  exact found

/-- The call behind the arguments. -/
def plainCall : Text := "(\x7b a: String \x7d)"

theorem divides_plainCall : plainCall.Divides where
  starts := ⟨'(', _, rfl, by decide⟩
  apart := by decide

/-- The tokens of that call. -/
def plainCallTokens : List Token :=
  [⟨.opens .round, "(", 0, 1⟩, ⟨.opens .curly, "\x7b", 1, 2⟩, ⟨.name, "a", 3, 4⟩,
    ⟨.colon, ":", 4, 5⟩, ⟨.name, "String", 6, 12⟩, ⟨.closes .curly, "\x7d", 13, 14⟩,
    ⟨.closes .round, ")", 14, 15⟩]

theorem tokens_of_plainCall {r : Bool} {ts : List Token} (h : LexesBefore ";" r plainCall ts) :
    ts = plainCallTokens := by
  have read (r r' : Bool) : lex r 0 (plainCall ++ ";") =
      (lex r' plainCall.length ";").behind plainCallTokens := by
    cases r <;> cases r' <;> decide +kernel
  exact h.eq_of_lex (read r _)

/-- No call ends with a call inside it: behind the inner one, the outer one is still open. -/
theorem CallBefore.ne_append {call s : Text} (c : CallBefore ";" call) (some : s ≠ []) :
    call ≠ s ++ plainCall := by
  rintro rfl
  obtain ⟨us, vs, tokens, front, back⟩ :=
    LexesBefore.exists_split divides_plainCall (List.cons_ne_nil _ _) c.lexed
  obtain rfl := tokens_of_plainCall back
  obtain ⟨paren, s, rfl⟩ := List.exists_cons_of_ne_nil some
  obtain rfl : paren = '(' := Option.some.inj c.starts
  -- The first token is the bracket, which stands in front of the inner call.
  have first : us ≠ [] := by
    rintro rfl
    generalize none : ([] : List Token) = us at front
    cases front with
    | skip read _ _ => cases (Lexeme.read_mark (c := '(') rfl true _).symm.trans read
    | token => cases none
  have whole := (Nested.single c.isCall.opened c.isCall.within c.isCall.closed rfl).depth_eq
  have open_ := c.isCall.within.depth_pos c.isCall.opened tokens first (List.cons_ne_nil _ _)
  rw [tokens, Token.depth_append] at whole
  have inner : Token.depth (plainCallTokens.map (·.later (('(' : CodePoint) :: s).length)) = 0 := rfl
  omega

/-- The only call that stands behind a bracket and blanks, up to the semicolon behind `plainCall`, is
that one. -/
theorem CallBefore.ne_behind {call ending gap : Text} (c : CallBefore ending call)
    (isEnding : IsEnding ending) (isGap : gap.IsGap) (s : Text) :
    s ++ ('>' : CodePoint) :: (plainCall ++ ";") ≠ gap ++ (call ++ ending) := by
  intro same
  obtain ⟨call', starts⟩ := List.head?_eq_some_iff.1 c.starts
  rcases List.append_eq_append_iff.1 same with ⟨others, rfl, eq⟩ | ⟨front, rfl, eq⟩
  · -- The bracket is no blank, and no call starts with it.
    cases others with
    | nil =>
      rw [List.nil_append, starts] at eq
      cases eq
    | cons d others =>
      obtain rfl : ('>' : CodePoint) = d := (List.cons.inj eq).1
      exact absurd (isGap '>' (by simp)) (by decide)
  · have shape : call ++ ending = ((front ++ [('>' : CodePoint)]) ++ plainCall) ++ ";" := by
      rw [eq]
      simp
    have close : ((front ++ [('>' : CodePoint)]) ++ plainCall).getLast? = some (')' : CodePoint) := by
      have some : plainCall ≠ [] := List.cons_ne_nil _ _
      rw [List.getLast?_append_of_ne_nil _ some]
      rfl
    obtain rfl := eq_of_append_ending isEnding c.getLast?_eq shape close
    obtain rfl := List.append_cancel_left shape
    exact c.ne_append (by simp) rfl

/-- The arguments of a declaration that is the whole source are what the search passes over. -/
theorem isAngled_of_extract (found : (extract (applied g)).outcome =
    .ok (some ⟨"s", applied g, 0, (applied g).length⟩)) : IsAngled g := by
  have tail : (">(\x7b a: String \x7d);" : Text) = ('>' : CodePoint) :: (plainCall ++ ";") := rfl
  have whole : applied g = "const s = new Schema" ++ ("<" ++ (g ++ ">(\x7b a: String \x7d);")) := by
    simp [applied, Text.ofString]
  have opens : Header.Opens ("<" ++ (g ++ ">(\x7b a: String \x7d);")) := ⟨_, _, rfl, .inr rfl⟩
  have read := Header.read?_append isHeader_plain opens
  rw [← whole] at read
  obtain ⟨call, ending, skip, ⟨within⟩, isEnding⟩ := exists_call_of_extract found read
  have skip : afterArguments? 1 (g ++ ">(\x7b a: String \x7d);") = some (call ++ ending) := skip
  obtain ⟨inner, behind, split, isAngled, last⟩ := exists_of_afterArguments? skip
  obtain ⟨gap, isGap, blanks, -⟩ := Header.exists_of_skipBlanks behind
  rw [if_pos rfl] at last
  rw [last] at blanks
  rw [tail] at split
  rcases List.append_eq_append_iff.1 split with ⟨more, rfl, eq⟩ | ⟨more, rfl, eq⟩
  · -- A longer list would end with a bracket of the call.
    cases more with
    | nil => rwa [List.append_nil] at isAngled
    | cons d more =>
      have mem : ('>' : CodePoint) ∈ plainCall ++ ";" := by
        rw [(List.cons.inj eq).2]
        simp
      exact absurd mem (by decide)
  · cases more with
    | nil => rwa [List.append_nil]
    | cons d more =>
      have behind := (List.cons.inj eq).2.symm.trans blanks
      exact absurd behind (within.ne_behind isEnding isGap more)

end

/-- Names, dots, commas, bars, strings and groups in brackets between angle brackets do not change
what the reader reads, unless they start with another angle bracket. The declaration is found, and
is the whole source, exactly if nothing in them, strings included, is a brace or a semicolon and
their angle brackets match. -/
theorem reads_applied (g : Text) :
    (AreParts g → g.head? ≠ some ('<' : CodePoint) →
      (normalize (applied g)).outcome = .ok "\x7b a: \"string\" \x7d") ∧
    ((extract (applied g)).outcome = .ok (some ⟨"s", applied g, 0, (applied g).length⟩) ↔
      IsMatched g) := by
  refine ⟨fun parts apart => normalize_applied (parts.areSkipped apart), ?_⟩
  rw [isMatched_iff]
  exact ⟨isAngled_of_extract, extract_applied⟩

/-- A union of a type and a string in a nested list, and a list in square brackets. -/
def unionArguments : Text := "Doc<A | \"<>\">, [C.D]"

theorem areParts_union : AreParts unionArguments := by
  have string : AreParts (Text.quoted "<>" ++ []) := .string (isString_quoted "<>") .nil
  have bar : AreParts ((" | " : Text) ++ Text.quoted "<>") :=
    .blank (by decide) (.mark (by decide) (.blank (by decide) string))
  have union : AreParts (("A" : Text) ++ " | \"<>\"") :=
    .name (by decide) (Text.endsName_cons (by decide)) bar
  have last : AreParts (("D" : Text) ++ []) := .name (by decide) (by simp [Text.EndsName]) .nil
  have path : AreParts (("C" : Text) ++ ".D") :=
    .name (by decide) (Text.endsName_cons (by decide)) (.mark (by decide) last)
  have list := AreParts.group (l := '[') (r := ']') (by decide) path .nil
  have behind : AreParts ", [C.D]" := .mark (by decide) (.blank (by decide) list)
  have nested := AreParts.group (l := '<') (r := '>') (by decide) union behind
  have whole : AreParts (("Doc" : Text) ++ "<A | \"<>\">, [C.D]") :=
    .name (by decide) (Text.endsName_cons (by decide)) nested
  exact whole

theorem isMatched_union : IsMatched unionArguments := by decide

theorem reads_applied_union : AreParts unionArguments ∧
    unionArguments.head? ≠ some ('<' : CodePoint) ∧
    (normalize (applied unionArguments)).outcome = .ok "\x7b a: \"string\" \x7d" ∧
    IsMatched unionArguments ∧ (extract (applied unionArguments)).outcome =
      .ok (some ⟨"s", applied unionArguments, 0, (applied unionArguments).length⟩) := by
  have apart : unionArguments.head? ≠ some ('<' : CodePoint) := by decide
  obtain ⟨normal, found⟩ := reads_applied unionArguments
  exact ⟨areParts_union, apart, normal areParts_union apart, isMatched_union,
    found.2 isMatched_union⟩

/-- An object type in a nested list. -/
def bracedArguments : Text := "Model<\x7b\x7d>"

/-- A string that is an angle bracket. -/
def angledString : Text := Text.quoted ">"

/-- A list in place of a type, so that two angle brackets stand in a row. -/
def doubledArguments : Text := "<A>"

/-- The first two declarations are not found, and the last one has no object literal that is
read. -/
theorem not_reads_applied : AreParts bracedArguments ∧ AreParts angledString ∧
    AreParts doubledArguments ∧ (extract (applied bracedArguments)).outcome = .ok none ∧
    (extract (applied angledString)).outcome = .ok none ∧
    (normalize (applied doubledArguments)).outcome = .error (.malformed
      ⟨.declaration, "No Schema(\x7b...\x7d) object literal found", none,
        some (applied doubledArguments), some 41⟩) := by
  have none : AreParts [] := .nil
  have braces := AreParts.group (l := '\x7b') (r := '\x7d') (by decide) none none
  have nested := AreParts.group (l := '<') (r := '>') (by decide) braces none
  have braced : AreParts (("Model" : Text) ++ "<\x7b\x7d>") :=
    .name (by decide) (Text.endsName_cons (by decide)) nested
  have name : AreParts (("A" : Text) ++ []) := .name (by decide) (by simp [Text.EndsName]) none
  have doubled := AreParts.group (l := '<') (r := '>') (by decide) name none
  have string : AreParts (Text.quoted ">" ++ []) := .string (isString_quoted ">") none
  exact ⟨braced, string, doubled, by decide +kernel, by decide +kernel, by decide +kernel⟩

end Declaration

end SchemaTypings
