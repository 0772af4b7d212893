import SchemaTypings.Proofs.Extraction
import SchemaTypings.Proofs.Spans

/-!
Lexing from the middle of a source. Of the tokens before, lexing knows no more than whether a slash
may start a regular expression behind them; so it can start again at each token but a division, and
finds the tokens from there on.
-/

namespace SchemaTypings

/-! ### Slashes -/

namespace Lexeme

variable {r : Bool} {c : CodePoint} {rest v : Text} {k : TokenKind} {w : Nat}

/-- Only at a slash it matters whether one may start a regular expression. -/
theorem read_congr (h : c ≠ '/') (r r' : Bool) : read r c rest = read r' c rest := by
  simp only [read, h, false_and]

theorem kind_of_plain_slash (h : plain '/' rest = .token k v w) : k = .operator := by
  have number : NumberLiteral.width (('/' : CodePoint) :: rest) = 0 :=
    NumberLiteral.width_eq_zero (by decide) (by decide) rest
  have name : nameWidth (('/' : CodePoint) :: rest) = 0 := nameWidth_eq_zero (by decide) rest
  have mark : mark? '/' = none := by decide
  unfold plain at h
  dsimp only at h
  rw [number, name, mark, if_neg (not_not_intro rfl), if_neg (not_not_intro rfl)] at h
  dsimp only at h
  split at h <;> cases h
  · rfl
  · exact if_neg (by decide)

/-- A slash that is a token starts a regular expression where one may start, and is an operator
elsewhere. -/
theorem kind_of_read_slash (h : read r '/' rest = .ok (.token k v w)) :
    k = if r then .regex else .operator := by
  generalize made : Lexeme.token k v w = l at h
  cases reads_of_read h with
  | blank | line | block => cases made
  | string quote => exact absurd quote (by decide)
  | template quote => exact absurd quote (by decide)
  | regex slash =>
    cases made
    exact (if_pos slash.2).symm
  | plain _ _ _ notRegex =>
    rw [if_neg fun regex => notRegex ⟨rfl, regex⟩]
    exact kind_of_plain_slash made.symm

/-- What is a token somewhere is the same token where a regular expression may start, unless it is
an operator that starts with a slash. -/
theorem read_true_iff (h : read r c rest = .ok (.token k v w)) :
    read true c rest = .ok (.token k v w) ↔ ¬(k = .operator ∧ c = '/') := by
  by_cases slash : c = '/'
  · subst slash
    cases r with
    | true => simp [h, kind_of_read_slash h]
    | false =>
      obtain rfl : k = .operator := kind_of_read_slash h
      refine iff_of_false (fun regex => ?_) (by simp)
      cases kind_of_read_slash regex
  · simp [read_congr slash true r, h, slash]

end Lexeme

/-! ### Starting at a token -/

/-- What marks the end is the last token, and stands at the end. -/
theorem eq_of_eof {source : Text} {before after : List Token} {t : Token}
    (h : tokenize source = .ok (before ++ t :: after)) (eof : t.kind = .eof) :
    t = Token.eof source.length ∧ after = [] := by
  obtain ⟨front, split, notEnd⟩ := exists_front_of_tokenize h
  rcases List.eq_nil_or_concat after with rfl | ⟨more, u, rfl⟩
  · exact ⟨(List.cons.inj (List.append_inj' split rfl).2).1, rfl⟩
  · rw [List.concat_eq_append, ← List.cons_append, ← List.append_assoc] at split
    have mem : t ∈ front := by
      rw [← (List.append_inj' split rfl).1]
      simp
    exact absurd eof (notEnd t mem)

/-- The token is a slash that divides, alone or in front of an equals sign. -/
def Token.IsDivision (t : Token) (source : Text) : Prop :=
  t.kind = .operator ∧ (Declaration.slice source t.pos t.stop).head? = some ('/' : CodePoint)

theorem isDivision_iff {s rest : Text} {c : CodePoint} {t : Token} {w : Nat}
    (pos : t.pos = s.length) (stop : t.stop = t.pos + w) (some : 1 ≤ w) :
    t.IsDivision (s ++ c :: rest) ↔ t.kind = .operator ∧ c = '/' := by
  obtain ⟨n, rfl⟩ := Nat.exists_eq_add_of_le' some
  have start : (Declaration.slice (s ++ c :: rest) t.pos t.stop).head? = Option.some c := by
    rw [Declaration.slice, stop, Nat.add_sub_cancel_left, pos, List.drop_left, List.take_succ_cons,
      List.head?_cons]
  rw [Token.IsDivision, start, Option.some_inj]

/-- Lexing from a token of a source on gives that token and those behind it, as they are in the
source, exactly if the token is no division. -/
theorem lexFrom_pos_iff {source : Text} {before after : List Token} {t : Token}
    (h : tokenize source = .ok (before ++ t :: after)) :
    lexFrom source t.pos = ⟨t :: after, none⟩ ↔ ¬t.IsDivision source := by
  by_cases eof : t.kind = .eof
  · obtain ⟨rfl, rfl⟩ := eq_of_eof h eof
    have left : lexFrom source source.length = ⟨[Token.eof source.length], none⟩ := by
      rw [lexFrom, Nat.min_self, List.drop_length, lex_nil]
    refine iff_of_true left fun division => ?_
    cases division.1
  · have lexed := lex_of_tokenize h
    have tokens : (lex true 0 source).tokens = before ++ t :: after := by rw [lexed]
    obtain ⟨s, c, rest, us, w, rfl, pos, -, -, read, stop, behind⟩ :=
      exists_before_of_lex tokens eof
    rw [Nat.zero_add] at pos
    rw [isDivision_iff pos stop (Lexeme.width_pos read), ← Lexeme.read_true_iff read, pos,
      Declaration.lexFrom_append]
    constructor
    · intro same
      have first : (lex true s.length (c :: rest)).tokens = [] ++ t :: after := by rw [same]; rfl
      obtain ⟨s', c', rest', us', w', split, pos', none, -, read', stop', -⟩ :=
        exists_before_of_lex first eof
      -- No token stands before it, so it is read at the very start.
      obtain rfl := List.map_eq_nil_iff.1 none.symm
      obtain rfl : s' = [] := List.length_eq_zero_iff.1 (by omega)
      obtain ⟨rfl, rfl⟩ := List.cons.inj split
      obtain rfl : w' = w := by omega
      exact read'
    · intro read
      have token : (⟨t.kind, t.value, s.length, s.length + w⟩ : Token) = t := by
        rw [← pos, ← stop]
      rw [lex_token read, token, ← pos, ← stop, behind, lexed]
      rfl

/-- A source with a division and a regular expression, which holds a quote. -/
def dividedSource : Text := "a /= b(/'/g) / 2"

theorem lexFrom_pos_divided :
    tokenize dividedSource = .ok ([⟨.name, "a", 0, 1⟩, ⟨.operator, "/=", 2, 4⟩, ⟨.name, "b", 5, 6⟩,
        ⟨.opens .round, "(", 6, 7⟩] ++ ⟨.regex, "/'/g", 7, 11⟩ :: [⟨.closes .round, ")", 11, 12⟩,
          ⟨.operator, "/", 13, 14⟩, ⟨.number, "2", 15, 16⟩, Token.eof 16]) ∧
      (lexFrom dividedSource 7 = ⟨⟨.regex, "/'/g", 7, 11⟩ :: [⟨.closes .round, ")", 11, 12⟩,
          ⟨.operator, "/", 13, 14⟩, ⟨.number, "2", 15, 16⟩, Token.eof 16], none⟩ ↔
        ¬Token.IsDivision ⟨.regex, "/'/g", 7, 11⟩ dividedSource) := by
  have tokens : tokenize dividedSource = .ok ([⟨.name, "a", 0, 1⟩, ⟨.operator, "/=", 2, 4⟩,
      ⟨.name, "b", 5, 6⟩, ⟨.opens .round, "(", 6, 7⟩] ++ ⟨.regex, "/'/g", 7, 11⟩ ::
        [⟨.closes .round, ")", 11, 12⟩, ⟨.operator, "/", 13, 14⟩, ⟨.number, "2", 15, 16⟩,
          Token.eof 16]) := by decide +kernel
  exact ⟨tokens, lexFrom_pos_iff tokens⟩

end SchemaTypings
