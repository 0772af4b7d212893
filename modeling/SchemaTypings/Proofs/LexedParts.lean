import SchemaTypings.Proofs.Spans

/-!
Lexing a part of a text and more. A lexeme that ends within the part is the one that is read with
another text behind the part too, if a lexeme is read there at all and that text starts with a blank
or a closing brace. It is not always read: near its end an escape may take in code points from
behind the literal that it stands in. But then the quote of that literal is among its digits.
-/

namespace SchemaTypings

/-- What is found in a text is found there with more text behind it. -/
theorem Text.find?_append {part s : Text} {n : Nat} (some : part ≠ [])
    (h : find? part s = .some n) (y : Text) : find? part (s ++ y) = .some n := by
  obtain ⟨a, b, rfl, rfl, -⟩ := exists_of_find? some h
  rw [← List.append_nil (a ++ (part ++ b))] at h
  exact find?_inside h (by simp only [List.length_append]; omega) y

/-! ### Escapes that take in a quote -/

namespace Numeral

/-- The code point stands in no number of the base. -/
structure IsForeign (base : Nat) (c : CodePoint) : Prop where
  notBlank : c.isBlankAtNumber = false
  notSign : c ≠ '-' ∧ c ≠ '+'
  notBar : c ≠ '_'
  notMarker : ∀ letter ∈ marker? base, c ≠ letter ∧ c.val + 32 ≠ letter.val
  notZero : c.decimalValue? ≠ some 0
  value : c.digitValue? = none

variable {base : Nat} {c : CodePoint} {s : Text}

theorem mem_trim {p : CodePoint → Bool} (h : p c = false) (mem : c ∈ s) : c ∈ s.trim p := by
  have drop {t : Text} (mem : c ∈ t) : c ∈ t.dropWhile p := by
    rw [← List.takeWhile_append_dropWhile (p := p) (l := t), List.mem_append] at mem
    refine mem.resolve_left fun taken => ?_
    rw [List.all_eq_true.1 List.all_takeWhile c taken] at h
    cases h
  rw [Text.trim, Text.trimRight, List.mem_reverse]
  exact drop (List.mem_reverse.2 (drop mem))

theorem mem_splitWhere {p : CodePoint → Bool} (h : p c = false) (mem : c ∈ s) :
    c ∈ (Text.splitWhere p s).flatten := by
  induction s with
  | nil => cases mem
  | cons d s ih =>
    rw [Text.splitWhere]
    split
    · next none => exact absurd none (Text.splitWhere_ne_nil p s)
    · next piece pieces rest =>
      rw [rest] at ih
      split
      · next separator =>
        have ne : c ≠ d := by
          rintro rfl
          rw [h] at separator
          cases separator
        simpa using ih ((List.mem_cons.1 mem).resolve_left ne)
      · rcases List.mem_cons.1 mem with rfl | mem
        · simp
        · have there := ih mem
          simp only [List.flatten_cons, List.mem_append, List.cons_append, List.mem_cons] at there ⊢
          exact .inr there

namespace IsForeign

variable (h : IsForeign base c)

include h

theorem mem_sign (mem : c ∈ s) : c ∈ (sign s).2 := by
  unfold sign
  split
  · exact mem
  · split
    · next minus => exact (List.mem_cons.1 mem).resolve_left fun eq => h.notSign.1 (eq.trans minus)
    · split
      · next plus => exact (List.mem_cons.1 mem).resolve_left fun eq => h.notSign.2 (eq.trans plus)
      · exact mem

theorem mem_dropMarker (mem : c ∈ s) : c ∈ dropMarker base s := by
  unfold dropMarker
  split
  · next letter z d rest marker =>
    split
    · next marked =>
      have mem : c ∈ rest := by
        have other : c ≠ z := fun eq => h.notZero (eq ▸ marked.1)
        refine (List.mem_cons.1 ((List.mem_cons.1 mem).resolve_left other)).resolve_left ?_
        rintro rfl
        exact marked.2.elim (h.notMarker letter marker).1 (h.notMarker letter marker).2
      split
      · next e more =>
        split
        · next bar => exact (List.mem_cons.1 mem).resolve_left fun eq => h.notBar (eq.trans bar)
        · exact mem
      · cases mem
    · exact mem
  · exact mem

theorem digits?_eq_none (mem : c ∈ s) : digits? base s = none := by
  have digits (t : Text) (mem : c ∈ t) :
      t.mapM (fun c : CodePoint => c.digitValue?.filter (· < base)) = none := by
    induction t with
    | nil => cases mem
    | cons d t ih =>
      rw [List.mapM_cons, Option.bind_eq_bind, Option.bind_eq_none_iff]
      intro n value
      rcases List.mem_cons.1 mem with rfl | mem
      · rw [h.value] at value
        cases value
      · rw [ih mem]
        rfl
  rw [digits?]
  split
  · rfl
  · exact digits _ (mem_splitWhere (by simpa using h.notBar) mem)

/-- A text with such a code point is no number. -/
theorem integer?_eq_none (mem : c ∈ s) : integer? base s = none := by
  have body := h.mem_sign (mem_trim h.notBlank mem)
  have digits := h.digits?_eq_none (h.mem_dropMarker body)
  simp only [integer?, Option.bind_eq_bind, Option.bind_eq_none_iff]
  intro ds some
  rw [digits] at some
  cases some

end IsForeign

end Numeral

/-- The marks that strings stand between. -/
def CodePoint.IsQuote (c : CodePoint) : Prop := c = '"' ∨ c = '\''

theorem Numeral.IsForeign.of_isQuote {c : CodePoint} (h : c.IsQuote) : IsForeign 16 c := by
  have marker : ∀ letter ∈ Numeral.marker? 16, letter = 'x' := by decide
  rcases h with rfl | rfl
  · refine ⟨by decide, by decide, by decide, fun letter mem => ?_, by decide, by decide⟩
    rw [marker letter mem]
    decide
  · refine ⟨by decide, by decide, by decide, fun letter mem => ?_, by decide, by decide⟩
    rw [marker letter mem]
    decide

namespace Escape

variable {quote : CodePoint} {s : Text} {n : Nat}

/-- What is an escape in front of a quote is the same escape before more text, or it takes in the
quote and is none. -/
theorem read_apart (isQuote : quote.IsQuote) (h : (read s).width? = some n)
    (closed : quote ∈ s.drop n) (y : Text) :
    read (s ++ y) = read s ∨ ∃ digits, read (s ++ y) = .invalid digits := by
  have pos := width?_pos h
  cases s with
  | nil => cases h
  | cons c t =>
    have mem : quote ∈ t := by
      refine List.mem_of_mem_drop (i := n - 1) ?_
      rwa [← List.drop_succ_cons (a := c), Nat.sub_add_cancel pos]
    have some := List.length_pos_of_mem mem
    rcases form_append (List.ne_nil_of_mem mem) y with same | ⟨m, -, fixed, -, few⟩
    · left
      rw [List.cons_append, read, read, same]
      cases shape : form c t with
      | letter => rfl
      | fixed m =>
        dsimp only
        rw [List.take_append_of_le_length (of_form_eq_fixed shape).2]
      | braced =>
        rw [read, shape] at h
        dsimp only at h ⊢
        cases found : Text.find? "\x7d" (t.drop 1) with
        | none =>
          rw [found] at h
          cases h
        | some m =>
          have some : ("\x7d" : Text) ≠ [] := by simp [Text.ofString]
          obtain ⟨a, b, split, rfl, -⟩ := Text.exists_of_find? some found
          have bound : a.length ≤ (t.drop 1).length := by
            rw [split, List.length_append]
            exact Nat.le_add_right ..
          rw [List.drop_append_of_le_length (by omega), Text.find?_append some found y]
          dsimp only
          rw [List.take_append_of_le_length bound]
    · -- Where there were too few digits, more text behind them makes an escape with the quote.
      right
      have there : quote ∈ (t ++ y).take m := by
        rw [List.take_append, List.mem_append]
        exact .inl (by rwa [List.take_of_length_le (Nat.le_of_lt few)])
      refine ⟨(t ++ y).take m, ?_⟩
      rw [List.cons_append, read, fixed]
      dsimp only
      rw [ofHex, (Numeral.IsForeign.of_isQuote isQuote).integer?_eq_none there]

end Escape

/-! ### Literals in quotes and regular expressions -/

section

variable {s y : Text}

/-- A string that goes on with more text behind it is the same, or is refused for an escape that
takes in its quote. -/
theorem stringBody_apart {quote : CodePoint} (isQuote : quote.IsQuote) {here : Nat}
    {a a' : Text × Nat} (h : stringBody quote here s = .ok a)
    (h' : stringBody quote here (s ++ y) = .ok a') : a' = a := by
  -- Behind an escape in the string stands the quote, and so all of the escape is there.
  have escape {here n : Nat} {rest : Text} {a : Text × Nat}
      (width : (Escape.read rest).width? = some n)
      (body : stringBody quote here (rest.drop n) = .ok a) :
      (rest ++ y).drop n = rest.drop n ++ y ∧ (Escape.read (rest ++ y) = Escape.read rest ∨
        ∃ digits, Escape.read (rest ++ y) = .invalid digits) := by
    obtain ⟨inside, more, split, -⟩ := endsAt_of_stringBody body
    have mem : quote ∈ rest.drop n := by simp [split]
    have some := List.length_pos_of_mem mem
    rw [List.length_drop] at some
    exact ⟨List.drop_append_of_le_length (by omega), Escape.read_apart isQuote width mem y⟩
  fun_induction stringBody quote here s generalizing a a'
  case case1 | case3 | case6 | case7 | case8 => cases h
  case case2 =>
    rw [List.cons_append, stringBody, if_pos rfl, h] at h'
    cases h'
    rfl
  case case4 read open_ line ih =>
    obtain ⟨b, body, rfl⟩ := map_eq_ok.1 h
    obtain ⟨drop, same | ⟨digits, invalid⟩⟩ := escape (by rw [read]; rfl) body
    · rw [List.cons_append, stringBody, if_neg open_, if_neg line, if_pos rfl, same, read] at h'
      obtain ⟨b', body', rfl⟩ := map_eq_ok.1 h'
      rw [drop] at body'
      rw [ih body body']
    · rw [List.cons_append, stringBody, if_neg open_, if_neg line, if_pos rfl, invalid] at h'
      cases h'
  case case5 read open_ line ih =>
    obtain ⟨drop, same | ⟨digits, invalid⟩⟩ := escape (by rw [read]; rfl) h
    · rw [List.cons_append, stringBody, if_neg open_, if_neg line, if_pos rfl, same, read] at h'
      dsimp only at h'
      rw [drop] at h'
      exact ih h h'
    · rw [List.cons_append, stringBody, if_neg open_, if_neg line, if_pos rfl, invalid] at h'
      cases h'
  case case9 open_ line plain ih =>
    obtain ⟨b, body, rfl⟩ := map_eq_ok.1 h
    rw [List.cons_append, stringBody, if_neg open_, if_neg line, if_neg plain] at h'
    obtain ⟨b', body', rfl⟩ := map_eq_ok.1 h'
    rw [ih body body']

/-- What goes on with no name, word or number. -/
def Text.Separates (y : Text) : Prop := ∀ c ∈ y.head?, c.isBlank = true ∨ c = '\x7d'

theorem regexEnd_append {inClass : Bool} {here w : Nat} (separates : y.Separates)
    (h : regexEnd inClass here s = .ok w) : regexEnd inClass here (s ++ y) = .ok w := by
  have flags : ∀ c ∈ y.head?, CodePoint.isWord c = false := by
    intro c mem
    rcases separates c mem with blank | rfl
    · refine Bool.eq_false_iff.2 fun word => ?_
      rw [(CodePoint.isSolid_of_isWord word).1] at blank
      cases blank
    · decide
  fun_induction regexEnd inClass here s
  case case1 | case2 => cases h
  case case3 rest line ih =>
    have some := lt_of_regexEnd h
    have bound := le_of_regexEnd h
    rw [List.length_drop] at bound
    rw [List.cons_append, regexEnd, if_neg line, if_pos rfl,
      List.drop_append_of_le_length (by omega)]
    exact ih h
  case case4 line escape ih =>
    rw [List.cons_append, regexEnd, if_neg line, if_neg escape, if_pos rfl]
    exact ih h
  case case5 line escape opens ih =>
    rw [List.cons_append, regexEnd, if_neg line, if_neg escape, if_neg opens, if_pos rfl]
    exact ih h
  case case6 rest line escape opens closes last =>
    have inside : ((rest ++ []).takeWhile CodePoint.isWord).length ≤ rest.length := by
      rw [List.append_nil]
      exact (List.takeWhile_prefix _).length_le
    have run := Text.takeWhile_inside flags inside
    rw [List.append_nil] at run
    rw [List.cons_append, regexEnd, if_neg line, if_neg escape, if_neg opens, if_neg closes,
      if_pos last, run, h]
  case case7 line escape opens closes last ih =>
    rw [List.cons_append, regexEnd, if_neg line, if_neg escape, if_neg opens, if_neg closes,
      if_neg last]
    exact ih h

theorem templateEnd_apart {part : TemplatePart} {outer : List TemplatePart} {here w w' : Nat}
    (h : templateEnd part outer here s = .ok w)
    (h' : templateEnd part outer here (s ++ y) = .ok w') : w' = w := by
  fun_induction templateEnd part outer here s
  case case1 | case4 => cases h
  case case2 ends =>
    rw [List.cons_append, templateEnd,
      TemplatePart.step_eq_ends_iff.2 (TemplatePart.step_eq_ends_iff.1 ends)] at h'
    exact Except.ok.inj (h'.symm.trans h)
  case case3 part outer here c rest next more passed does ih =>
    rw [List.cons_append, templateEnd] at h'
    have some : (rest.drop passed).length ≠ 0 := by
      intro none
      rw [List.length_eq_zero_iff.1 none, templateEnd] at h
      cases h
    rw [List.length_drop] at some
    have head : (rest ++ y).head? = rest.head? := by
      cases rest with
      | nil => simp at some
      | cons d rest => rfl
    have same : part.step outer here c (rest ++ y) = .goes next more passed := by
      rcases TemplatePart.step_again head does with same | ⟨a, quote, body, rfl, step⟩
      · exact same
      rw [step] at h' ⊢
      cases body' : stringBody c 1 (rest ++ y) with
      | error e =>
        rw [body'] at h'
        cases h'
      | ok a' => rw [stringBody_apart quote body body']
    rw [same] at h'
    dsimp only at h'
    rw [List.drop_append_of_le_length (by omega)] at h'
    exact ih h h'

end

/-! ### Lexemes -/

/-- A part that starts the text in front of a separator starts the text by itself. -/
theorem Text.Separates.isPrefixOf_append {part y : Text} (h : y.Separates)
    (solid : ∀ c ∈ part, c.isBlank = false ∧ c ≠ '\x7d') (s : Text) :
    part.isPrefixOf (s ++ y) = part.isPrefixOf s := by
  induction part generalizing s with
  | nil => rfl
  | cons c part ih =>
    obtain ⟨⟨notBlank, notBrace⟩, rest⟩ := List.forall_mem_cons.1 solid
    cases s with
    | nil =>
      cases y with
      | nil => rfl
      | cons d y =>
        have ne : c ≠ d := by
          rintro rfl
          rcases h c rfl with blank | brace
          · rw [notBlank] at blank
            cases blank
          · exact notBrace brace
        simp [List.isPrefixOf, ne]
    | cons d s => simp [List.isPrefixOf, ih rest]

namespace Lexeme

variable {r : Bool} {c : CodePoint} {s x y : Text} {l l' : Lexeme}

theorem plain_append (separates : y.Separates) : plain c (s ++ y) = plain c s := by
  cases y with
  | nil => rw [List.append_nil]
  | cons d y =>
    -- The lexeme ends in front of the separator, and so it is the one of the part.
    have apart : ¬d.IsSolid := by
      rintro ⟨notBlank, notMark⟩
      rcases separates d rfl with blank | rfl
      · rw [notBlank] at blank
        cases blank
      · cases notMark
    obtain ⟨k, w, eq, solid, -⟩ := exists_plain c (s ++ d :: y)
    have short : w ≤ s.length + 1 := by
      rcases solid with rfl | solid
      · exact Nat.le_add_left 1 _
      · exact Text.IsSolid.le_length (s := c :: s) solid apart
    have same := plain_inside (s := s) (x := d :: y) (y := []) nofun c (by rw [eq]; exact short)
    rw [← same, List.append_nil]

theorem noComment_append (separates : y.Separates) (h : Text.NoComment (c :: s)) :
    Text.NoComment (c :: (s ++ y)) :=
  ⟨(separates.isPrefixOf_append (by decide) (c :: s)).trans h.1,
    (separates.isPrefixOf_append (by decide) (c :: s)).trans h.2⟩

theorem startsWith_append {part : Text} (h : Text.startsWith (c :: s) part = true) :
    Text.startsWith (c :: (s ++ y)) part = true :=
  List.isPrefixOf_iff_prefix.2 ((List.isPrefixOf_iff_prefix.1 h).trans
    (List.prefix_append (c :: s) y))

/-- A lexeme that is read in the text by itself is read with more text behind it, if any is: all but
a comment that ends with the text. -/
theorem read_append (h : read r c s = .ok l) (separates : y.Separates)
    (h' : read r c (s ++ y) = .ok l') :
    l' = l ∨ Text.startsWith (c :: s) "//" = true ∧ Text.find? "\n" (c :: s) = none := by
  have same {k : Lexeme} (reads : Reads r c (s ++ y) k) : l' = k :=
    Except.ok.inj (h'.symm.trans reads.read_eq)
  cases reads_of_read h with
  | blank blank => exact .inl (same (.blank blank))
  | line comment =>
    cases found : Text.find? "\n" (c :: s) with
    | none => exact .inr ⟨comment, rfl⟩
    | some n =>
      have there := Text.find?_append (by simp [Text.ofString]) found y
      rw [List.cons_append] at there
      left
      rw [same (.line (startsWith_append comment)), lineWidth, lineWidth, found, there]
  | block comment close =>
    have some : 1 ≤ s.length :=
      Nat.le_of_succ_le_succ (List.isPrefixOf_iff_prefix.1 comment).length_le
    refine .inl (same (.block (startsWith_append comment) ?_))
    rw [List.drop_append_of_le_length some]
    exact Text.find?_append (by simp [Text.ofString]) close y
  | string quote body =>
    rw [read_quoted quote] at h'
    obtain ⟨a', body', rfl⟩ := map_eq_ok.1 h'
    rw [stringBody_apart quote body body']
    exact .inl rfl
  | template quote body =>
    rw [quote, read_backtick] at h'
    obtain ⟨w', body', rfl⟩ := map_eq_ok.1 h'
    obtain ⟨inside, more, rfl, rfl⟩ := endsAt_of_templateEnd body ⟨0, rfl⟩
    rw [templateEnd_apart body body', List.take_append_of_le_length]
    · exact .inl rfl
    · simp only [List.length_append, List.length_cons, List.length_nil]
      omega
  | @regex w slash noComment body =>
    have bound : w ≤ (c :: s).length := by
      rw [List.length_cons, Nat.add_comm]
      exact le_of_regexEnd body
    left
    rw [same (.regex slash (noComment_append separates noComment) (regexEnd_append separates body)),
      ← List.cons_append, List.take_append_of_le_length bound]
  | plain notBlank notQuote notTemplate notRegex noComment =>
    left
    rw [same (.plain notBlank notQuote notTemplate notRegex (noComment_append separates noComment)),
      plain_append separates]

/-- A lexeme of a part is read there whatever follows the part, if any is: all but a comment that
ends with the whole text. -/
theorem read_apart (h : read r c (s ++ x) = .ok l) (inside : l.width ≤ s.length + 1)
    (separates : y.Separates) (h' : read r c (s ++ y) = .ok l') :
    l' = l ∨ x = [] ∧ l = .skip (s.length + 1) ∧ ∃ w, l' = .skip w ∧ s.length + 1 ≤ w := by
  have alone := read_inside h inside (.nil x)
  rw [List.append_nil] at alone
  rcases read_append alone separates h' with same | ⟨comment, none⟩
  · exact .inl same
  right
  have read_line (z : Text) : read r c (s ++ z) = .ok (.skip (lineWidth (c :: s ++ z))) :=
    (Reads.line (startsWith_append comment)).read_eq
  -- There is no line feed within the part, so that the comment goes on up to its end.
  have wide (z : Text) : (c :: s).length ≤ lineWidth (c :: s ++ z) ∧
      (lineWidth (c :: s ++ z) ≤ (c :: s).length → z = []) := by
    unfold lineWidth
    split
    · next n found =>
      have far : ¬n + 1 ≤ (c :: s).length := by
        intro near
        have here := Text.find?_inside found near []
        rw [List.append_nil, none] at here
        cases here
      exact ⟨by omega, fun near => absurd near far⟩
    · rw [List.length_append]
      exact ⟨Nat.le_add_right .., fun short => List.length_eq_zero_iff.1 (by omega)⟩
  rw [read_line] at h h'
  cases h
  have whole : lineWidth (c :: s ++ x) = s.length + 1 := Nat.le_antisymm inside (wide x).1
  exact ⟨(wide x).2 inside, by rw [whole], _, (Except.ok.inj h').symm, (wide y).1⟩

end Lexeme

/-! ### Parts -/

/-- A part is read as the same tokens in front of a separator as in front of other text, if what is
there then has tokens. -/
theorem LexesBefore.apart {x y s : Text} {r : Bool} {us : List Token} (h : LexesBefore x r s us)
    (some : x ≠ []) (separates : y.Separates) {p : Nat}
    (ok : (lex r p (s ++ y)).error? = none) : LexesBefore y r s us := by
  induction h generalizing p with
  | nil r => exact .nil r
  | @skip r c s w ts read inside _ ih =>
    have pos : w - 1 + 1 = w := width_pos read rfl
    rw [List.cons_append] at ok
    cases read' : Lexeme.read r c (s ++ y) with
    | error e =>
      rw [lex_error read'] at ok
      cases ok
    | ok l =>
      rcases Lexeme.read_apart read inside separates read' with rfl | ⟨none, -⟩
      · rw [lex_skip read', List.drop_append_of_le_length (by omega)] at ok
        exact .skip read' inside (ih ok)
      · exact absurd none some
  | @token r c s k v w ts read inside _ ih =>
    have pos : w - 1 + 1 = w := width_pos read rfl
    rw [List.cons_append] at ok
    cases read' : Lexeme.read r c (s ++ y) with
    | error e =>
      rw [lex_error read'] at ok
      cases ok
    | ok l =>
      rcases Lexeme.read_apart read inside separates read' with rfl | ⟨none, -⟩
      · rw [lex_token read', Lexed.error?_behind, List.drop_append_of_le_length (by omega)] at ok
        exact .token read' inside (ih ok)
      · exact absurd none some

end SchemaTypings
