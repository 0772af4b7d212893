import SchemaTypings.Proofs.Headers
import SchemaTypings.Proofs.ReaderSteps

/-!
The tokens of a header without a type annotation: the search for a call with an object literal
passes over them up to the word `Schema` in front of the call, or in front of its generic arguments.
-/

namespace SchemaTypings

/-! ### Texts of a header -/

theorem Lexes.gap {gap : Text} (h : gap.IsGap) : Lexes gap [] fun _ => True := by
  induction gap with
  | nil => exact .nil
  | cons c gap ih =>
    rw [Text.IsGap, List.forall_mem_cons] at h
    exact (Lexes.blank h.1).append (ih h.2) fun _ _ => trivial

/-- The text starts with a blank or a name. -/
def Text.StartsWord (s : Text) : Prop :=
  ∃ c rest, s = c :: rest ∧ (c.isBlank = true ∨ c.isNameStart = true)

theorem Text.StartsWord.append {s : Text} (h : s.StartsWord) (rest : Text) :
    (s ++ rest).StartsWord := by
  obtain ⟨c, s, rfl, starts⟩ := h
  exact ⟨c, s ++ rest, rfl, starts⟩

theorem Text.startsWord_name {name : Text} (isName : name.isName = true) : name.StartsWord := by
  cases name with
  | nil => cases isName
  | cons c name =>
    rw [Text.isName, Bool.and_eq_true] at isName
    exact ⟨c, name, rfl, .inr isName.1⟩

theorem Text.StartsWord.gap {gap s : Text} (h : s.StartsWord) (isGap : gap.IsGap) :
    (gap ++ s).StartsWord := by
  cases gap with
  | nil => exact h
  | cons c gap => exact ⟨c, gap ++ s, rfl, .inl (isGap c (List.mem_cons_self ..))⟩

theorem CodePoint.stops_of_isBlank {c : CodePoint} (h : c.isBlank = true) :
    c.isNamePart = false ∧ c.isDecimal = false ∧ c ≠ '.' := by
  refine ⟨not_isNamePart_of_isBlank h, ?_, ?_⟩
  · refine Bool.eq_false_iff.2 fun decimal => ?_
    rw [(decimalFacts decimal).notBlank] at h
    cases h
  · rintro rfl
    exact absurd h (by decide)

/-- A dot starts a number only before a digit. -/
theorem NumberLiteral.width_dot {rest : Text} (h : ∀ c ∈ rest.head?, c.isDecimal = false) :
    NumberLiteral.width ('.' :: rest) = 0 := by
  have zero : ('.' : CodePoint) ≠ '0' := by decide
  have decimal : CodePoint.isDecimal '.' = false := by decide
  have mantissa : mantissaWidth ('.' :: rest) = 0 := by
    have whole : digitsWidth ('.' :: rest) = 0 := by simp [digitsWidth, Text.runWidth, decimal]
    have noDigit : rest.head?.any CodePoint.isDecimal = false := by cases rest <;> simp_all
    simp [mantissaWidth, whole, noDigit]
  cases rest <;> simp [width, basedWidth, mantissa, zero]

theorem Lexes.dot : Lexes ['.'] [⟨.dot, ['.'], 0, 1⟩] Text.StartsWord := by
  refine .token fun r rest starts => ?_
  obtain ⟨c, rest, rfl, h⟩ := starts
  have notDecimal : c.isDecimal = false ∧ c ≠ '.' := by
    rcases h with blank | name
    · exact (CodePoint.stops_of_isBlank blank).2
    · exact (CodePoint.facts_of_isNameStart name).2.2
  have start : CodePoint.isNameStart '.' = false := by decide
  have width : NumberLiteral.width ('.' :: c :: rest) = 0 :=
    NumberLiteral.width_dot (by rintro _ ⟨⟩; exact notDecimal.1)
  have operator : Lexeme.operators.find? (·.isPrefixOf ('.' :: c :: rest)) = none := by
    simp [Lexeme.operators, Text.ofString, List.isPrefixOf, Ne.symm notDecimal.2]
  have mark : Lexeme.mark? '.' = none := by decide
  rw [List.nil_append, Lexeme.read_plain (by decide) (by decide)]
  simp [Lexeme.plain, width, Lexeme.nameWidth_eq_zero start, mark, operator]

theorem Lexes.equals : Lexes ['='] [⟨.operator, ['='], 0, 1⟩] Text.StartsWord := by
  refine (Lexes.operator (c := '=') (by decide) (by decide) (by decide) (by decide)).mono ?_
  rintro _ ⟨c, rest, rfl, h⟩
  have other : c ≠ '=' ∧ c ≠ '>' := by
    rcases h with h | h <;> constructor <;> rintro rfl <;> exact absurd h (by decide)
  simp [Lexeme.operators, Text.ofString, List.isPrefixOf, Ne.symm other.1, Ne.symm other.2]

/-! ### Tokens of a header -/

/-- A token that neither opens a bracket nor starts generic arguments. -/
def Token.PassesBy (t : Token) : Prop :=
  t.kind ≠ .eof ∧ (∀ b, t.kind ≠ .opens b) ∧ t.isOperator "<" = false

/-- In front of a call or of generic arguments the text is read as tokens the last of which is the
word `Schema`. -/
def LexesToSchema (s : Text) : Prop :=
  ∃ (ts : List Token) (t : Token),
    Lexes s (ts ++ [t]) Header.Opens ∧
      (∀ u ∈ ts, u.PassesBy) ∧ t.kind = .name ∧ t.value = "Schema"

/-- More tokens may stand in front. -/
theorem LexesToSchema.prepend {s s' : Text} {us : List Token} {after : Text → Prop}
    (h : LexesToSchema s) (front : Lexes s' us after) (pass : ∀ u ∈ us, u.PassesBy)
    (hw : ∀ rest, after (s ++ rest)) : LexesToSchema (s' ++ s) := by
  obtain ⟨ts, t, lexes, others, kind, value⟩ := h
  refine ⟨us ++ ts.map (·.later s'.length), t.later s'.length, ?_, ?_, kind, value⟩
  · have both := front.append lexes fun rest _ => hw rest
    rw [List.map_append, ← List.append_assoc] at both
    exact both
  · intro u mem
    rcases List.mem_append.1 mem with mem | mem
    · exact pass u mem
    · obtain ⟨v, mem', rfl⟩ := List.mem_map.1 mem
      exact others v mem'

theorem LexesToSchema.gap {gap s : Text} (h : LexesToSchema s) (isGap : gap.IsGap) :
    LexesToSchema (gap ++ s) :=
  h.prepend (.gap isGap) (by simp) fun _ => trivial

theorem LexesToSchema.name {name s : Text} (h : LexesToSchema s) (isName : name.isName = true)
    (ends : ∀ rest, (s ++ rest).EndsName) : LexesToSchema (name ++ s) :=
  h.prepend (.nameEnd isName) (by simp [Token.PassesBy, Token.isOperator]) ends

namespace Header

theorem lexesToSchema_path {path gap : Text} (h : IsPath path) (isGap : gap.IsGap) :
    LexesToSchema (path ++ gap) := by
  induction h with
  | schema =>
    have word : Lexes "Schema" [⟨.name, "Schema", 0, 6⟩] Text.EndsName := .nameEnd (by decide)
    refine ⟨[], ⟨.name, "Schema", 0, 6⟩, ?_, by simp, rfl, rfl⟩
    exact word.append (Lexes.gap isGap |>.mono fun _ _ => trivial) fun _ opens =>
      opens.endsName isGap
  | @qualified name before after path isName isBefore isAfter rest ih =>
    simp only [List.append_assoc]
    have dotted : LexesToSchema ("." ++ (after ++ (path ++ gap))) := by
      refine (ih.gap isAfter).prepend .dot (by simp [Token.PassesBy, Token.isOperator]) fun more => ?_
      obtain ⟨c, tail, rfl, start⟩ := rest.exists_cons
      rw [List.append_assoc]
      exact Text.StartsWord.gap ⟨c, _, rfl, .inr start⟩ isAfter
    refine (dotted.gap isBefore).name isName fun more => ?_
    rw [List.append_assoc]
    exact (Text.endsName_cons (by decide)).gap isBefore

theorem lexesToSchema_constructor {built gap : Text} (h : IsConstructor built) (isGap : gap.IsGap) :
    LexesToSchema (built ++ gap) := by
  cases h with
  | bare h => exact lexesToSchema_path h isGap
  | @new before path some isBefore h =>
    simp only [List.append_assoc]
    refine ((lexesToSchema_path h isGap).gap isBefore).name (by decide) fun more => ?_
    rw [List.append_assoc]
    exact Text.endsName_gap some isBefore _

theorem IsConstructor.startsWord {built : Text} (h : IsConstructor built) (s : Text) :
    (built ++ s).StartsWord := by
  cases h with
  | bare h =>
    obtain ⟨c, rest, rfl, start⟩ := h.exists_cons
    exact ⟨c, rest ++ s, rfl, .inr start⟩
  | new _ _ _ => exact ⟨'n', _, rfl, .inr (by decide)⟩

/-- A declaration without a colon has no annotation. -/
theorem lexesToSchema_declaration {name declaration : Text} (h : IsDeclaration name declaration)
    (plain : ∀ c ∈ declaration, c ≠ ':') : LexesToSchema declaration := by
  obtain ⟨declares, some, apart, isName, assigned, before, builds, after⟩ := h
  next keyword gap equals gap' built gap'' =>
  cases assigned with
  | @annotated gap type isGap _ _ =>
    refine absurd rfl (plain ':' ?_)
    simp [Text.ofString]
  | @bare gap₁ isGap =>
    have value := (lexesToSchema_constructor builds after).gap before
    have assigned : LexesToSchema ("=" ++ (gap' ++ (built ++ gap''))) := by
      refine value.prepend .equals (by simp [Token.PassesBy, Token.isOperator]; decide) fun more => ?_
      rw [List.append_assoc, List.append_assoc]
      exact (builds.startsWord _).gap before
    simp only [List.append_assoc]
    have named := (assigned.gap isGap).name isName fun more => by
      rw [List.append_assoc]
      exact (Text.endsName_cons (by decide)).gap isGap
    have keywordIsName : keyword.isName = true := by
      simp only [List.mem_cons, List.not_mem_nil, or_false] at declares
      rcases declares with rfl | rfl | rfl <;> decide
    refine (named.gap apart).name keywordIsName fun more => ?_
    rw [List.append_assoc]
    exact Text.endsName_gap some apart _

end Header

theorem lexesToSchema_header {name header : Text} (h : IsHeader name header)
    (plain : ∀ c ∈ header, c ≠ ':') : LexesToSchema header := by
  cases h with
  | plain h => exact Header.lexesToSchema_declaration h plain
  | @exported gap s some apart h =>
    have declaration : LexesToSchema s :=
      Header.lexesToSchema_declaration h fun c mem => plain c (by simp [mem])
    refine (declaration.gap apart).name (by decide) fun more => ?_
    rw [List.append_assoc]
    exact Text.endsName_gap some apart _

/-- An opening with neither a colon nor an angle bracket is a plain header. -/
theorem lexesToSchema_opening {name opening : Text} (h : IsOpening name opening)
    (plain : ∀ c ∈ opening, c ≠ ':' ∧ c ≠ '<') : LexesToSchema opening := by
  obtain ⟨isHeader, isArguments⟩ := h
  cases isArguments with
  | some _ _ => exact absurd rfl (plain '<' (by simp)).2
  | none =>
    rw [List.append_nil] at plain ⊢
    exact lexesToSchema_header isHeader fun c mem => (plain c mem).1

/-! ### The search behind a header -/

namespace Declaration

variable {source : Text}

/-- The search passes over tokens that pass by, up to a name. -/
theorem findCall_header {ts : List Token} {t : Token} (rest : List Token)
    (pass : ∀ u ∈ ts, u.PassesBy) (name : t.kind = .name) :
    findCall source (ts ++ t :: rest) = findCall source (t :: rest) := by
  induction ts with
  | nil => rfl
  | cons u ts ih =>
    rw [List.forall_mem_cons] at pass
    have ih := ih pass.2
    cases ts with
    | nil =>
      rw [List.cons_append, List.nil_append,
        findCall_past pass.1.1 (by simp [name, Token.isOperator])]
    | cons v ts =>
      have next : v.PassesBy := pass.2 v (List.mem_cons_self ..)
      rw [List.cons_append, List.cons_append, findCall_past pass.1.1 ⟨next.2.1 .round, next.2.2⟩]
      exact ih

theorem findSchemaObject_past {ts : List Token} {t : Token} (rest : List Token)
    (pass : ∀ u ∈ ts, u.PassesBy) (name : t.kind = .name) :
    findSchemaObject source (ts ++ t :: rest) = findCall source (t :: rest) := by
  have first : (Token.first (ts ++ t :: rest)).kind ≠ .opens .curly := by
    cases ts with
    | nil =>
      show t.kind ≠ _
      rw [name]
      simp
    | cons u ts => exact (pass u (List.mem_cons_self ..)).2.1 .curly
  rw [findSchemaObject, if_neg first]
  exact findCall_header rest pass name

end Declaration

end SchemaTypings
