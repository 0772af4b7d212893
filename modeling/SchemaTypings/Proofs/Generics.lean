import SchemaTypings.Proofs.HeaderTokens

/-!
Generic arguments of a call: types in angle brackets, each a path of names that may have generic
arguments itself. The brackets that close several lists at once are one token, so the search counts
them; it ends behind the bracket that closes the outermost list.
-/

namespace SchemaTypings

namespace Generics

/-! ### The grammar -/

/-- Names with dots between them. -/
inductive IsPath : Text → Prop
  | name {name : Text} (isName : name.isName = true) : IsPath name
  | dotted {name gap gap' path : Text} (isName : name.isName = true) (before : gap.IsGap)
      (after : gap'.IsGap) (rest : IsPath path) :
      IsPath (name ++ (gap ++ ("." ++ (gap' ++ path))))

mutual

/-- A path of names, perhaps with generic arguments. -/
inductive IsType : Text → Prop
  | plain {path : Text} (h : IsPath path) : IsType path
  | applied {path gap types : Text} (h : IsPath path) (isGap : gap.IsGap)
      (arguments : AreTypes types) : IsType (path ++ (gap ++ ("<" ++ (types ++ ">"))))

/-- Types with commas between them. -/
inductive AreTypes : Text → Prop
  | one {gap type gap' : Text} (before : gap.IsGap) (h : IsType type) (after : gap'.IsGap) :
      AreTypes (gap ++ (type ++ gap'))
  | more {gap type gap' types : Text} (before : gap.IsGap) (h : IsType type)
      (after : gap'.IsGap) (rest : AreTypes types) :
      AreTypes (gap ++ (type ++ (gap' ++ ("," ++ types))))

end

theorem IsPath.startsWord {path : Text} (h : IsPath path) : path.StartsWord := by
  cases h with
  | name isName => exact Text.startsWord_name isName
  | dotted isName _ _ _ => exact (Text.startsWord_name isName).append _

theorem IsType.startsWord {type : Text} (h : IsType type) : type.StartsWord := by
  cases h with
  | plain h => exact h.startsWord
  | applied h _ _ => exact h.startsWord.append _

theorem AreTypes.startsWord {types : Text} (h : AreTypes types) : types.StartsWord := by
  cases h with
  | one before h _ => exact (h.startsWord.append _).gap before
  | more before h _ _ => exact (h.startsWord.append _).gap before

/-! ### Brackets -/

/-- What follows the closing brackets is no part of an operator that starts with them. -/
def EndsAngles (s : Text) : Prop := ∀ c ∈ s.head?, c ≠ '>' ∧ c ≠ '='

theorem endsAngles_blank {c : CodePoint} (h : c.isBlank = true) (s : Text) :
    EndsAngles (c :: s) := by
  rintro _ ⟨⟩
  constructor <;> rintro rfl <;> exact absurd h (by decide)

theorem EndsAngles.gap {gap s : Text} (h : EndsAngles s) (isGap : gap.IsGap) :
    EndsAngles (gap ++ s) := by
  cases gap with
  | nil => exact h
  | cons c gap => exact endsAngles_blank (isGap c (List.mem_cons_self ..)) _

/-- The tokens of `n` closing brackets, of which three or two are one token. -/
def closers : Nat → List Token
  | 0 => []
  | 1 => [⟨.operator, ">", 0, 1⟩]
  | 2 => [⟨.operator, ">>", 0, 2⟩]
  | n + 3 => ⟨.operator, ">>>", 0, 3⟩ :: (closers n).map (·.later 3)

/-- An opening bracket is an operator by itself before all but itself and the equals sign. -/
theorem lexes_less :
    Lexes "<" [⟨.operator, "<", 0, 1⟩] fun rest => ∀ c ∈ rest.head?, c ≠ '<' ∧ c ≠ '=' := by
  refine (Lexes.operator (c := '<') (by decide) (by decide) (by decide) (by decide)).mono ?_
  intro rest other
  cases rest with
  | nil => decide
  | cons c rest =>
    obtain ⟨less, equals⟩ := other c rfl
    simp [Lexeme.operators, Text.ofString, List.isPrefixOf, Ne.symm less, Ne.symm equals]

/-- So it is in front of a list. -/
theorem lexes_angle : Lexes "<" [⟨.operator, "<", 0, 1⟩] Text.StartsWord := by
  refine lexes_less.mono ?_
  rintro _ ⟨c, rest, rfl, h⟩ _ ⟨⟩
  rcases h with h | h <;> constructor <;> rintro rfl <;> exact absurd h (by decide)

/-- An operator of closing brackets is read whole if no longer one starts there. -/
theorem lexes_operator {s : Text} {after : Text → Prop}
    (found : ∀ rest, after rest →
      Lexeme.operators.find? (·.isPrefixOf (('>' : CodePoint) :: (s ++ rest))) =
        some (('>' : CodePoint) :: s)) :
    Lexes (('>' : CodePoint) :: s) [⟨.operator, ('>' : CodePoint) :: s, 0, s.length + 1⟩]
      after := by
  refine .token fun r rest ends => ?_
  have decimal : CodePoint.isDecimal '>' = false := by decide
  have start : CodePoint.isNameStart '>' = false := by decide
  have mark : Lexeme.mark? '>' = none := by decide
  rw [Lexeme.read_plain (by decide) (by decide), Lexeme.plain]
  simp [NumberLiteral.width_eq_zero decimal (by decide), Lexeme.nameWidth_eq_zero start, mark,
    found rest ends]

theorem lexes_closers (n : Nat) : Lexes (Text.times n '>') (closers n) EndsAngles := by
  have equals : ('=' : CodePoint) ≠ '>' := by decide
  induction n using closers.induct with
  | case1 => exact .nil
  | case2 =>
    refine (Lexes.operator (c := '>') (by decide) (by decide) (by decide) (by decide)).mono ?_
    intro rest ends
    cases rest with
    | nil => decide
    | cons c rest =>
      obtain ⟨angle, equals⟩ := ends c rfl
      simp [Lexeme.operators, Text.ofString, List.isPrefixOf, Ne.symm angle, Ne.symm equals]
  | case3 =>
    refine lexes_operator fun rest ends => ?_
    cases rest with
    | nil => decide
    | cons c rest =>
      obtain ⟨angle, equals'⟩ := ends c rfl
      simp [Lexeme.operators, Text.ofString, List.isPrefixOf, Ne.symm angle, Ne.symm equals',
        equals]
  | case4 n ih =>
    have three : Lexes ">>>" _ fun _ => True := lexes_operator (s := ">>") fun rest _ => by
      simp [Lexeme.operators, Text.ofString, List.isPrefixOf, equals]
    exact three.append ih fun _ _ => trivial

/-! ### The search for the end -/

section

open Declaration

/-- The search passes over the tokens, wherever they stand, with `n` more lists open behind them. -/
def Passes (ts : List Token) (n : Nat) : Prop :=
  ∀ (source : Text) (depth k : Nat) (rest : List Token),
    afterGenerics source (depth + 1 : Nat) (ts.map (·.later k) ++ rest) =
      afterGenerics source (depth + 1 + n : Nat) rest

theorem Passes.append {ts us : List Token} {m n : Nat} (ht : Passes ts m) (hu : Passes us n)
    (k : Nat) : Passes (ts ++ us.map (·.later k)) (m + n) := by
  intro source depth p rest
  rw [List.map_append, Token.map_later_later, List.append_assoc, ht, Nat.add_right_comm, hu]
  congr 2
  omega

theorem passes_plain {ts : List Token} (h : ∀ t ∈ ts, t.kind ≠ .eof ∧ t.kind ≠ .operator) :
    Passes ts 0 := by
  induction ts with
  | nil => exact fun _ _ _ _ => rfl
  | cons t ts ih =>
    rw [List.forall_mem_cons] at h
    intro source depth k rest
    rw [List.map_cons, List.cons_append, afterGenerics, if_neg (by exact h.1.1),
      if_neg (by exact h.1.2), ih h.2]

theorem afterGenerics_angle {t : Token} (operator : t.kind = .operator) (value : t.value = "<")
    (source : Text) (depth : Nat) (rest : List Token) :
    afterGenerics source depth (t :: rest) = afterGenerics source (depth + 1 : Nat) rest := by
  have opening : ("<" : Text).count ('<' : CodePoint) = 1 := by decide
  have closing : ("<" : Text).count ('>' : CodePoint) = 0 := by decide
  rw [afterGenerics, if_neg (by simp [operator]), if_pos operator]
  dsimp only
  rw [value, opening, closing, if_neg (by omega)]
  congr 1

theorem passes_angle : Passes [⟨.operator, "<", 0, 1⟩] 1 := fun source depth _ rest =>
  afterGenerics_angle rfl rfl source (depth + 1) rest

/-- A token closes as many lists as it has brackets; the search ends where none is left open. -/
theorem afterGenerics_closing {t : Token} {m : Nat} (operator : t.kind = .operator)
    (value : t.value = Text.times m '>') (source : Text) (depth : Nat) (rest : List Token) :
    afterGenerics source (depth + m : Nat) (t :: rest) =
      if depth = 0 then .ok rest else afterGenerics source depth rest := by
  have opening : (Text.times m '>').count ('<' : CodePoint) = 0 :=
    List.count_eq_zero.2 fun mem => absurd (List.eq_of_mem_replicate mem) (by decide)
  have closing : (Text.times m '>').count ('>' : CodePoint) = m := List.count_replicate_self
  rw [afterGenerics, if_neg (by simp [operator]), if_pos operator]
  dsimp only
  rw [value, opening, closing]
  have level : ((depth + m : Nat) : Int) + (0 : Nat) - m = depth := by omega
  rw [level]
  by_cases zero : depth = 0
  · rw [if_pos zero, if_pos (by omega)]
  · rw [if_neg zero, if_neg (by omega)]

/-- The search ends at the closing bracket of the outermost list. -/
theorem afterGenerics_closers {n : Nat} (some : n ≠ 0) (source : Text) (depth k : Nat)
    (rest : List Token) :
    afterGenerics source (depth + n : Nat) ((closers n).map (·.later k) ++ rest) =
      if depth = 0 then .ok rest else afterGenerics source depth rest := by
  induction n using closers.induct generalizing depth k with
  | case1 => exact absurd rfl some
  | case2 => exact afterGenerics_closing rfl rfl source depth rest
  | case3 => exact afterGenerics_closing rfl rfl source depth rest
  | case4 n ih =>
    have place : depth + (n + 3) = depth + n + 3 := by omega
    rw [closers, List.map_cons, Token.map_later_later, List.cons_append, place,
      afterGenerics_closing rfl rfl]
    cases n with
    | zero => rfl
    | succ n => rw [if_neg (by omega), ih (by omega)]

end

/-! ### Texts that are passed over -/

/-- In front of every text of `after` the text is read as tokens over which the search passes, with
`n` more lists open behind them. -/
def Crosses (s : Text) (n : Nat) (after : Text → Prop) : Prop :=
  ∃ ts, Lexes s ts after ∧ Passes ts n

namespace Crosses

variable {s s' : Text} {m n : Nat} {after after' : Text → Prop}

theorem mono (h : Crosses s n after) (hw : ∀ rest, after' rest → after rest) :
    Crosses s n after' := by
  obtain ⟨ts, lexes, passes⟩ := h
  exact ⟨ts, lexes.mono hw, passes⟩

theorem append (h : Crosses s m after) (h' : Crosses s' n after')
    (hw : ∀ rest, after' rest → after (s' ++ rest)) : Crosses (s ++ s') (m + n) after' := by
  obtain ⟨ts, lexes, passes⟩ := h
  obtain ⟨us, lexes', passes'⟩ := h'
  exact ⟨_, lexes.append lexes' hw, passes.append passes' s.length⟩

theorem gap {gap : Text} (isGap : gap.IsGap) : Crosses gap 0 fun _ => True :=
  ⟨[], .gap isGap, passes_plain (by simp)⟩

/-- Blanks may stand in front. -/
theorem behindGap {gap : Text} (h : Crosses s n after) (isGap : gap.IsGap) :
    Crosses (gap ++ s) n after := by
  have both := (Crosses.gap isGap).append h fun _ _ => trivial
  rwa [Nat.zero_add] at both

theorem name {name : Text} (isName : name.isName = true) : Crosses name 0 Text.EndsName :=
  ⟨_, .nameEnd isName, passes_plain (by simp)⟩

theorem dot : Crosses "." 0 Text.StartsWord := ⟨_, .dot, passes_plain (by simp)⟩

theorem comma : Crosses "," 0 fun _ => True :=
  ⟨_, .mark (c := ',') rfl, passes_plain (by simp)⟩

theorem angle : Crosses "<" 1 Text.StartsWord := ⟨_, lexes_angle, passes_angle⟩

end Crosses

theorem IsPath.crosses {path : Text} (h : IsPath path) : Crosses path 0 Text.EndsName := by
  induction h with
  | name isName => exact .name isName
  | @dotted name gap gap' path isName before after rest ih =>
    have dotted := Crosses.dot.append (ih.behindGap after) fun more _ => by
      rw [List.append_assoc]
      exact (rest.startsWord.append more).gap after
    refine (Crosses.name isName).append (dotted.behindGap before) fun more _ => ?_
    rw [List.append_assoc]
    exact (Text.endsName_cons (c := '.') (by decide)).gap before

/-! ### Types -/

/-- The text ends with `m` closing brackets, which may be one token with those that follow, and what
stands in front of them is passed over, with `n` more lists open behind it. -/
def Closing (s : Text) (n m : Nat) : Prop :=
  ∃ body, s = body ++ Text.times m '>' ∧ Crosses body n Text.EndsName

namespace Closing

variable {s front : Text} {n m k : Nat}

theorem of_crosses (h : Crosses s n Text.EndsName) : Closing s n 0 :=
  ⟨s, (List.append_nil s).symm, h⟩

/-- What precedes the closing brackets starts with a word if the whole text does. -/
theorem startsWord {body : Text} (h : (body ++ Text.times m '>').StartsWord) (s : Text) :
    (body ++ s).StartsWord := by
  obtain ⟨c, rest, eq, starts⟩ := h
  cases body with
  | nil =>
    have mem : c ∈ Text.times m '>' := by
      rw [List.nil_append] at eq
      simp [eq]
    rw [List.eq_of_mem_replicate mem] at starts
    exact absurd starts (by decide)
  | cons d body =>
    obtain ⟨rfl, -⟩ := List.cons.inj eq
    exact ⟨d, body ++ s, rfl, starts⟩

theorem prepend (h : Closing s n m) (starts : s.StartsWord)
    (crosses : Crosses front k Text.StartsWord) : Closing (front ++ s) (k + n) m := by
  obtain ⟨body, rfl, crosses'⟩ := h
  exact ⟨front ++ body, (List.append_assoc ..).symm,
    crosses.append crosses' fun rest _ => startsWord starts rest⟩

theorem close (h : Closing s n m) : Closing (s ++ ">") n (m + 1) := by
  obtain ⟨body, rfl, crosses⟩ := h
  refine ⟨body, ?_, crosses⟩
  rw [List.append_assoc, Text.times, Text.times, List.replicate_succ']
  rfl

/-- If no list is open behind the brackets, the whole text is passed over in front of what does not
go on with them. -/
theorem crosses (h : Closing s n n) : Crosses s 0 fun rest => rest.EndsName ∧ EndsAngles rest := by
  obtain ⟨body, rfl, ts, lexes, passes⟩ := h
  have brackets : Lexes (Text.times n '>') (closers n) fun rest =>
      rest.EndsName ∧ EndsAngles rest :=
    (lexes_closers n).mono fun _ ends => ends.2
  refine ⟨_, lexes.append brackets fun rest ends => ?_, fun source depth k rest => ?_⟩
  · cases n with
    | zero => exact ends.1
    | succ n => exact Text.endsName_cons (c := '>') (by decide)
  · rw [List.map_append, Token.map_later_later, List.append_assoc, passes]
    by_cases zero : n = 0
    · subst zero
      rfl
    · rw [afterGenerics_closers zero, if_neg (by omega)]

theorem gap (h : Closing s n n) {gap : Text} (isGap : gap.IsGap) : ∃ m, Closing (s ++ gap) m m := by
  cases gap with
  | nil => exact ⟨n, by rwa [List.append_nil]⟩
  | cons c gap =>
    have both := h.crosses.append (.gap isGap) fun rest _ =>
      ⟨Text.endsName_gap (List.cons_ne_nil c gap) isGap rest,
        endsAngles_blank (isGap c (List.mem_cons_self ..)) (gap ++ rest)⟩
    exact ⟨0, .of_crosses (both.mono fun _ _ => trivial)⟩

end Closing

mutual

theorem IsType.exists_closing {type : Text} : IsType type → ∃ n, Closing type n n
  | .plain h => ⟨0, .of_crosses h.crosses⟩
  | @IsType.applied path gap types h isGap arguments => by
    obtain ⟨n, closing⟩ := arguments.exists_closing
    have opened := h.crosses.append (Crosses.angle.behindGap isGap) fun rest _ => by
      rw [List.append_assoc]
      exact (Text.endsName_cons (c := '<') (by decide)).gap isGap
    have all := closing.close.prepend (arguments.startsWord.append _) opened
    simp only [List.append_assoc, Nat.zero_add, Nat.add_comm 1] at all
    exact ⟨n + 1, all⟩

theorem AreTypes.exists_closing {types : Text} : AreTypes types → ∃ n, Closing types n n
  | @AreTypes.one gap type gap' before h after => by
    obtain ⟨n, closing⟩ := h.exists_closing
    obtain ⟨m, closing⟩ := closing.gap after
    have all := closing.prepend (h.startsWord.append _)
      ((Crosses.gap before).mono fun _ _ => trivial)
    rw [Nat.zero_add] at all
    exact ⟨m, all⟩
  | @AreTypes.more gap type gap' types before h after rest => by
    obtain ⟨n, closing⟩ := h.exists_closing
    obtain ⟨m, closing'⟩ := rest.exists_closing
    have ended := closing.crosses.append (Crosses.comma.behindGap after) fun more _ => by
      rw [List.append_assoc]
      exact ⟨(Text.endsName_cons (c := ',') (by decide)).gap after,
        EndsAngles.gap (by rintro _ ⟨⟩; decide) after⟩
    have list := closing'.prepend rest.startsWord (ended.mono fun _ _ => trivial)
    simp only [List.append_assoc] at list
    have all := list.prepend (h.startsWord.append _) ((Crosses.gap before).mono fun _ _ => trivial)
    simp only [Nat.zero_add] at all
    exact ⟨m, all⟩

end

/-! ### Generic arguments -/

/-- The text of generic arguments and blanks behind them, or nothing. -/
inductive IsArguments : Text → Prop
  | omitted : IsArguments []
  | given {types gap : Text} (h : AreTypes types) (isGap : gap.IsGap) :
      IsArguments ("<" ++ (types ++ (">" ++ gap)))

theorem IsArguments.opens {arguments rest : Text} (h : IsArguments arguments)
    (paren : rest.head? = some ('(' : CodePoint)) : Header.Opens (arguments ++ rest) := by
  cases h with
  | omitted =>
    obtain ⟨rest, rfl⟩ := List.head?_eq_some_iff.1 paren
    exact ⟨_, rest, rfl, .inl rfl⟩
  | given _ _ => exact ⟨_, _, rfl, .inr rfl⟩

/-- In front of a call they are read as tokens that the search skips. -/
theorem IsArguments.exists_lexes {arguments : Text} (h : IsArguments arguments) :
    ∃ ts, Lexes arguments ts (fun rest => rest.head? = some ('(' : CodePoint)) ∧
      ∀ (source : Text) (k : Nat) (t : Token) (rest : List Token), t.kind = .opens .round →
        Declaration.skipGenerics source (ts.map (·.later k) ++ t :: rest) = .ok (t :: rest) := by
  cases h with
  | omitted =>
    refine ⟨[], .nil, fun source k t rest round => ?_⟩
    rw [Declaration.skipGenerics]
    exact if_neg (by simp [Token.first, Token.isOperator, round])
  | @given types gap h isGap =>
    obtain ⟨n, closing⟩ := h.exists_closing
    obtain ⟨body, eq, ts, lexes, passes⟩ := closing.close
    have starts : (body ++ Text.times (n + 1) '>').StartsWord := eq ▸ h.startsWord.append _
    have blanks : Lexes gap [] fun rest => rest.head? = some ('(' : CodePoint) :=
      (Lexes.gap isGap).mono fun _ _ => trivial
    have closed := (lexes_closers (n + 1)).append blanks fun rest paren => by
      obtain ⟨rest, rfl⟩ := List.head?_eq_some_iff.1 paren
      exact EndsAngles.gap (by rintro _ ⟨⟩; decide) isGap
    have all := lexes_angle.append (lexes.append closed fun rest _ =>
      Text.endsName_cons (c := '>') (by decide)) fun rest _ => by
        rw [List.append_assoc]
        exact Closing.startsWord starts _
    rw [← List.append_assoc body, ← eq, List.append_assoc] at all
    refine ⟨_, all, fun source k t rest _ => ?_⟩
    rw [Declaration.skipGenerics]
    refine (if_pos rfl).trans ?_
    simp only [List.map_cons, List.map_append, List.map_nil, List.append_nil,
      Token.map_later_later, List.cons_append, List.append_assoc]
    have first := afterGenerics_angle (t := Token.later ⟨.operator, "<", 0, 1⟩ k) rfl rfl source 0
    rw [Int.natCast_zero] at first
    rw [first, List.nil_append, passes, show 0 + 1 + n = 0 + (n + 1) by omega,
      afterGenerics_closers (Nat.succ_ne_zero n), if_pos rfl]

/-- Where a call follows, a header may end at the text, and the text is read as tokens that the
search skips. -/
structure AreSkipped (arguments : Text) : Prop where
  opens : ∀ rest : Text, rest.head? = some ('(' : CodePoint) → Header.Opens (arguments ++ rest)
  exists_lexes : ∃ ts, Lexes arguments ts (fun rest => rest.head? = some ('(' : CodePoint)) ∧
    ∀ (source : Text) (k : Nat) (t : Token) (rest : List Token), t.kind = .opens .round →
      Declaration.skipGenerics source (ts.map (·.later k) ++ t :: rest) = .ok (t :: rest)

theorem IsArguments.areSkipped {arguments : Text} (h : IsArguments arguments) :
    AreSkipped arguments := ⟨fun _ => h.opens, h.exists_lexes⟩

end Generics

/-! ### The search behind a header -/

open Declaration in
/-- Behind a header without a type annotation and arguments that are skipped the search ends at the
object literal that opens the call. -/
theorem findSchemaObject_call {name header arguments : Text} (isHeader : IsHeader name header)
    (plain : ∀ c ∈ header, c ≠ ':') (skipped : Generics.AreSkipped arguments) :
    ∃ ts : List Token,
      Lexes (header ++ arguments) ts (fun rest => rest.head? = some ('(' : CodePoint)) ∧
      ∀ (source : Text) (t : Token) (rest : List Token), t.kind = .opens .round →
        (Token.first rest).kind = .opens .curly →
          findSchemaObject source (ts ++ t :: rest) = .ok rest := by
  obtain ⟨ts, schema, lexes, pass, name, value⟩ := lexesToSchema_header isHeader plain
  obtain ⟨us, lexes', skip⟩ := skipped.exists_lexes
  refine ⟨_, lexes.append lexes' fun rest paren => skipped.opens rest paren, ?_⟩
  intro source t rest round curly
  rw [List.append_assoc, List.append_assoc, List.singleton_append,
    findSchemaObject_past _ pass name, findCall_word ⟨name, value⟩, skip source _ t rest round]
  exact (if_pos round).trans (if_pos curly)

end SchemaTypings
