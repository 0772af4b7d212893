import SchemaTypings.Proofs.Lexing
import SchemaTypings.Proofs.Outcomes

/-!
Lexing a part of a text. What is read within a part of a text is read there whatever follows the
part, as long as what follows goes on with no lexeme and cuts no escape short: it may be nothing,
or a closing brace with some text behind it.
-/

namespace SchemaTypings

/-! ### Parts of a text -/

namespace Text

/-- The text with a closing brace and the text `x` behind it. -/
def closed (s x : Text) : Text := s ++ ('\x7d' : CodePoint) :: x

variable {s x y : Text}

/-- A run that ends within the part ends there too if what follows does not go on with it. -/
theorem takeWhile_inside {p : CodePoint → Bool} (stop : ∀ c ∈ y.head?, p c = false)
    (inside : ((s ++ x).takeWhile p).length ≤ s.length) :
    (s ++ y).takeWhile p = (s ++ x).takeWhile p := by
  induction s with
  | nil =>
    rw [List.nil_append] at inside ⊢
    rw [List.nil_append, List.length_eq_zero_iff.1 (Nat.le_zero.1 inside)]
    cases y with
    | nil => rfl
    | cons c y => simp [stop c rfl]
  | cons c s ih =>
    rw [List.cons_append, List.takeWhile_cons] at inside ⊢
    rw [List.cons_append, List.takeWhile_cons]
    by_cases go : p c = true
    · rw [if_pos go] at inside ⊢
      rw [if_pos go, ih (by simpa using inside)]
    · rw [if_neg go, if_neg go]

theorem runWidth_inside {first more : CodePoint → Bool} (start : ∀ c ∈ y.head?, first c = false)
    (stop : ∀ c ∈ y.head?, more c = false)
    (inside : runWidth first more (s ++ x) ≤ s.length) :
    runWidth first more (s ++ y) = runWidth first more (s ++ x) := by
  cases s with
  | nil =>
    rw [List.nil_append] at inside ⊢
    rw [List.nil_append, Nat.le_zero.1 inside]
    cases y with
    | nil => rfl
    | cons c y => simp [runWidth, start c rfl]
  | cons c rest =>
    simp only [List.cons_append, runWidth, List.length_cons] at inside ⊢
    split
    · next run =>
      rw [if_pos run] at inside
      rw [takeWhile_inside (x := x) stop (by omega)]
    · rfl

/-- A part that is found inside the text is found there whatever follows. -/
theorem find?_inside {part : Text} {n : Nat} (h : find? part (s ++ x) = some n)
    (inside : n + part.length ≤ s.length) (y : Text) : find? part (s ++ y) = some n := by
  induction s generalizing n with
  | nil =>
    rw [List.length_nil] at inside
    have empty : part = [] := List.length_eq_zero_iff.1 (by omega)
    have start : n = 0 := by omega
    subst empty start
    cases y <;> rfl
  | cons c s ih =>
    have same (z : Text) : part.isPrefixOf (c :: (s ++ z)) = part.isPrefixOf (c :: s) := by
      have short : part.length ≤ (c :: s).length := by omega
      rw [Bool.eq_iff_iff, List.isPrefixOf_iff_prefix, List.isPrefixOf_iff_prefix]
      refine ⟨fun h => ?_, fun h => h.trans (List.prefix_append (c :: s) z)⟩
      exact List.prefix_of_prefix_length_le h (List.prefix_append (c :: s) z) short
    simp only [List.cons_append, find?, same] at h ⊢
    split at h
    · next found => rw [if_pos found, h]
    · next other =>
      obtain ⟨m, found, rfl⟩ := Option.map_eq_some_iff.1 h
      rw [List.length_cons] at inside
      rw [if_neg other, ih found (by omega)]
      rfl

/-- A part without braces starts the text if and only if it does so before a brace or the end. -/
theorem isPrefixOf_inside {part : Text} (h : part.all (· ≠ '\x7d') = true)
    (stop : ∀ c ∈ y.head?, c = '\x7d') (s : Text) :
    part.isPrefixOf (s ++ y) = part.isPrefixOf s := by
  induction part generalizing s with
  | nil => rfl
  | cons c part ih =>
    simp only [List.all_cons, Bool.and_eq_true, decide_eq_true_eq] at h
    cases s with
    | nil =>
      cases y with
      | nil => rfl
      | cons d y => simp [List.isPrefixOf, stop d rfl, h.1]
    | cons d s => simp [List.isPrefixOf, ih h.2]

end Text

/-! ### Numbers -/

namespace NumberLiteral

variable {s x y : Text} (stop : ∀ c ∈ y.head?, c = '\x7d')

include stop

theorem basedWidth_inside (inside : basedWidth (s ++ x) ≤ s.length) :
    basedWidth (s ++ y) = basedWidth (s ++ x) := by
  have base {mark : CodePoint} {isDigit : CodePoint → Bool} (h : isBaseDigit? mark = some isDigit) :
      isDigit '\x7d' = false := by
    unfold isBaseDigit? at h
    repeat' split at h
    all_goals cases h
    all_goals decide +revert
  have wide (t : Text) (z mark : CodePoint) : basedWidth (z :: mark :: t) = 0 ∨
      2 < basedWidth (z :: mark :: t) := by
    simp only [basedWidth]
    split
    · split
      · next isDigit _ =>
        cases run : t.takeWhile isDigit with
        | nil => exact .inl rfl
        | cons d run => exact .inr (by simp)
      · exact .inl rfl
    · exact .inl rfl
  match s with
  | [] =>
    rw [List.nil_append] at inside ⊢
    rw [List.nil_append, Nat.le_zero.1 inside]
    have zero : ('\x7d' : CodePoint) ≠ '0' := by decide
    match y, stop with
    | [], _ => rfl
    | [c], _ => rfl
    | c :: d :: y, stop => simp only [basedWidth, stop c rfl, if_neg zero]
  | [z] =>
    have none : basedWidth (z :: x) = 0 := by
      cases x with
      | nil => rfl
      | cons d x =>
        rcases wide x z d with none | some
        · exact none
        · exact absurd inside (by simp only [List.singleton_append, List.length_singleton]; omega)
    have mark : isBaseDigit? '\x7d' = Option.none := by decide
    rw [List.singleton_append, List.singleton_append, none]
    cases y with
    | nil => rfl
    | cons c y => simp [basedWidth, stop c rfl, mark]
  | z :: mark :: rest =>
    simp only [List.cons_append, basedWidth] at inside ⊢
    split
    · next zero =>
      rw [if_pos zero] at inside
      cases digits : isBaseDigit? mark with
      | none => rfl
      | some isDigit =>
        simp only [digits] at inside ⊢
        have run : ((rest ++ x).takeWhile isDigit).length ≤ rest.length := by
          simp only [List.length_cons] at inside
          split at inside
          · next empty => simp [List.isEmpty_iff.1 empty]
          · omega
        rw [Text.takeWhile_inside (fun c mem => stop c mem ▸ base digits) run]
    · rfl

theorem digitsWidth_inside (inside : digitsWidth (s ++ x) ≤ s.length) :
    digitsWidth (s ++ y) = digitsWidth (s ++ x) := by
  have decimal : CodePoint.isDecimal '\x7d' = false := by decide
  have bar : isDigitOrBar '\x7d' = false := by decide
  exact Text.runWidth_inside (fun c mem => stop c mem ▸ decimal) (fun c mem => stop c mem ▸ bar)
    inside

theorem fractionWidth_inside (inside : fractionWidth (s ++ x) ≤ s.length) :
    fractionWidth (s ++ y) = fractionWidth (s ++ x) := by
  have point : decide (('\x7d' : CodePoint) = '.') = false := by decide
  have bar : isDigitOrBar '\x7d' = false := by decide
  exact Text.runWidth_inside (fun c mem => stop c mem ▸ point) (fun c mem => stop c mem ▸ bar)
    inside

omit stop in
/-- A point behind which a digit stands is no fraction by itself. -/
theorem fractionWidth_ne_one {c d : CodePoint} (digit : d.isDecimal = true) (rest : Text) :
    fractionWidth (c :: d :: rest) ≠ 1 := by
  have more : isDigitOrBar d = true := by rw [isDigitOrBar, digit, Bool.true_or]
  simp only [fractionWidth, Text.runWidth, List.takeWhile_cons, more, if_true, List.length_cons]
  split <;> omega

theorem mantissaWidth_inside (inside : mantissaWidth (s ++ x) ≤ s.length) :
    mantissaWidth (s ++ y) = mantissaWidth (s ++ x) := by
  by_cases whole : digitsWidth (s ++ x) = 0
  · have none : digitsWidth (s ++ y) = 0 := by
      rw [← whole]
      exact digitsWidth_inside stop (by omega)
    simp only [mantissaWidth, whole, none, ne_eq, not_true_eq_false, if_false] at inside ⊢
    have decimal : CodePoint.isDecimal '\x7d' = false := by decide
    have noDigit : y.head?.any CodePoint.isDecimal = false := by
      cases y with
      | nil => rfl
      | cons d y => simp [stop d rfl, decimal]
    rcases s with _ | ⟨c, _ | ⟨d, rest⟩⟩
    · have noPoint : fractionWidth ([] ++ y) = 0 := by
        rw [fractionWidth_inside (s := []) (x := []) stop (Nat.le_refl 0)]
        rfl
      rw [noPoint, ite_self, Nat.le_zero.1 inside]
    · simp only [List.singleton_append, List.tail_cons, noDigit] at inside ⊢
      cases x with
      | nil => rfl
      | cons d x =>
        by_cases digit : d.isDecimal = true
        · have wide := fractionWidth_ne_one (c := c) digit x
          simp [digit] at inside ⊢
          omega
        · simp [digit]
    · have head (z : Text) : (c :: d :: rest ++ z).tail.head?.any CodePoint.isDecimal =
          d.isDecimal := rfl
      rw [head] at inside
      rw [head, head]
      by_cases digit : d.isDecimal = true
      · rw [if_pos digit] at inside
        rw [if_pos digit, if_pos digit]
        exact fractionWidth_inside (s := c :: d :: rest) stop inside
      · rw [if_neg digit, if_neg digit]
  · simp only [mantissaWidth, ne_eq, if_pos whole] at inside ⊢
    have bound : digitsWidth (s ++ x) ≤ s.length := by omega
    rw [digitsWidth_inside stop bound, if_pos whole]
    rw [List.drop_append_of_le_length bound] at inside ⊢
    rw [List.drop_append_of_le_length bound, fractionWidth_inside stop]
    rw [List.length_drop]
    omega

theorem exponentWidth_inside (inside : exponentWidth (s ++ x) ≤ s.length) :
    exponentWidth (s ++ y) = exponentWidth (s ++ x) := by
  have decimal : CodePoint.isDecimal '\x7d' = false := by decide
  have mark : ¬(('\x7d' : CodePoint) = 'e' ∨ ('\x7d' : CodePoint) = 'E') := by decide
  have sign : ¬(('\x7d' : CodePoint) = '+' ∨ ('\x7d' : CodePoint) = '-') := by decide
  have run {t : Text} (inside : ((t ++ x).takeWhile CodePoint.isDecimal).length ≤ t.length) :
      (t ++ y).takeWhile CodePoint.isDecimal = (t ++ x).takeWhile CodePoint.isDecimal :=
    Text.takeWhile_inside (fun c mem => stop c mem ▸ decimal) inside
  cases s with
  | nil =>
    rw [List.nil_append] at inside ⊢
    rw [List.nil_append, Nat.le_zero.1 inside]
    cases y with
    | nil => rfl
    | cons c y => simp only [exponentWidth, stop c rfl, if_neg mark]
  | cons c rest =>
    simp only [List.cons_append, exponentWidth, List.length_cons] at inside ⊢
    by_cases exponent : c = 'e' ∨ c = 'E'
    · rw [if_pos exponent] at inside
      rw [if_pos exponent, if_pos exponent]
      cases rest with
      | nil =>
        rw [List.nil_append] at inside ⊢
        rw [List.nil_append]
        have here {n : Nat} (h : (if ((x.drop n).takeWhile CodePoint.isDecimal).length = 0 then 0
            else 1 + n + ((x.drop n).takeWhile CodePoint.isDecimal).length) ≤ ([] : Text).length + 1) :
            (if ((x.drop n).takeWhile CodePoint.isDecimal).length = 0 then 0
              else 1 + n + ((x.drop n).takeWhile CodePoint.isDecimal).length) = 0 := by
          rw [List.length_nil] at h
          split at h
          · next none => exact if_pos none
          · omega
        rw [here inside]
        cases y with
        | nil => rfl
        | cons d y => simp [stop d rfl, decimal]
      | cons d rest =>
        dsimp only [List.cons_append] at inside ⊢
        have same (n : Nat) (hn : n ≤ 1) (h : (if (((d :: (rest ++ x)).drop n).takeWhile
            CodePoint.isDecimal).length = 0 then 0 else 1 + n +
              (((d :: (rest ++ x)).drop n).takeWhile CodePoint.isDecimal).length) ≤
                (d :: rest).length + 1) :
            ((d :: (rest ++ y)).drop n).takeWhile CodePoint.isDecimal =
              ((d :: (rest ++ x)).drop n).takeWhile CodePoint.isDecimal := by
          have bound : n ≤ (d :: rest).length := by
            rw [List.length_cons]
            omega
          have drop (z : Text) : (d :: (rest ++ z)).drop n = (d :: rest).drop n ++ z :=
            List.drop_append_of_le_length bound
          rw [drop] at h
          rw [drop, drop]
          apply run
          rw [List.length_drop]
          split at h <;> omega
        have small : (if d = '+' ∨ d = '-' then 1 else 0) ≤ 1 := by split <;> omega
        simp only [same _ small inside]
    · rw [if_neg exponent, if_neg exponent]

/-- A number that ends within the part is as wide there. -/
theorem width_inside (inside : width (s ++ x) ≤ s.length) : width (s ++ y) = width (s ++ x) := by
  have letter : ('\x7d' : CodePoint) ≠ 'n' := by decide
  rw [width] at inside
  rw [width, width]
  have based : basedWidth (s ++ y) = basedWidth (s ++ x) := by
    apply basedWidth_inside stop
    split at inside
    · exact inside
    · next zero => omega
  rw [based]
  split
  · rfl
  next zero =>
  rw [if_neg zero] at inside
  dsimp only at inside ⊢
  have mantissa : mantissaWidth (s ++ x) ≤ s.length := by
    split at inside <;> omega
  rw [mantissaWidth_inside stop mantissa]
  split
  · rfl
  next some =>
  rw [if_neg some] at inside
  generalize mantissaWidth (s ++ x) = m at mantissa inside ⊢
  have drop {n : Nat} (h : n ≤ s.length) (z : Text) : (s ++ z).drop n = s.drop n ++ z :=
    List.drop_append_of_le_length h
  rw [drop mantissa] at inside
  rw [drop mantissa, drop mantissa]
  have exponent : exponentWidth (s.drop m ++ x) ≤ (s.drop m).length := by
    rw [List.length_drop]
    omega
  rw [exponentWidth_inside stop exponent]
  rw [List.length_drop] at exponent
  generalize exponentWidth (s.drop m ++ x) = e at exponent inside ⊢
  rw [drop (by omega)] at inside
  rw [drop (by omega), drop (by omega)]
  have size : (s.drop (m + e)).length = s.length - (m + e) := List.length_drop
  cases left : s.drop (m + e) with
  | nil =>
    rw [left] at size inside
    rw [List.length_nil] at size
    rw [List.nil_append] at inside ⊢
    rw [List.nil_append]
    have plain : ∀ c ∈ x.head?, c ≠ 'n' := by
      cases x with
      | nil => simp
      | cons c x =>
        rintro _ ⟨⟩ rfl
        dsimp only at inside
        rw [if_pos rfl] at inside
        omega
    cases x with
    | nil =>
      cases y with
      | nil => rfl
      | cons d y => simp [stop d rfl, letter]
    | cons c x =>
      cases y with
      | nil => simp [plain c rfl]
      | cons d y => simp [plain c rfl, stop d rfl, letter]
  | cons c t => rfl

end NumberLiteral

/-! ### Plain lexemes -/

namespace Lexeme

/-- How far a lexeme goes. -/
def width : Lexeme → Nat
  | .skip width => width
  | .token _ _ width => width

section

variable {s x y : Text} (stop : ∀ c ∈ y.head?, c = '\x7d')

include stop

theorem nameWidth_inside (inside : nameWidth (s ++ x) ≤ s.length) :
    nameWidth (s ++ y) = nameWidth (s ++ x) := by
  have part : CodePoint.isNamePart '\x7d' = false := by decide
  have start : CodePoint.isNameStart '\x7d' = false := by decide
  exact Text.runWidth_inside (fun c mem => stop c mem ▸ start) (fun c mem => stop c mem ▸ part)
    inside

theorem operators_inside
    (inside : ∀ op, operators.find? (·.isPrefixOf (s ++ x)) = some op → op.length ≤ s.length) :
    operators.find? (·.isPrefixOf (s ++ y)) = operators.find? (·.isPrefixOf (s ++ x)) := by
  have plain : ∀ op ∈ operators, op.all (· ≠ '\x7d') = true := by decide
  have same : ∀ op ∈ operators, op.isPrefixOf (s ++ y) = op.isPrefixOf s :=
    fun op mem => Text.isPrefixOf_inside (plain op mem) stop s
  have longer {op : Text} (h : op.isPrefixOf s = true) : op.isPrefixOf (s ++ x) = true := by
    rw [List.isPrefixOf_iff_prefix] at h ⊢
    exact h.trans (List.prefix_append s x)
  cases found : operators.find? (·.isPrefixOf (s ++ x)) with
  | none =>
    rw [List.find?_eq_none] at found ⊢
    intro op mem starts
    rw [same op mem] at starts
    exact found op mem (longer starts)
  | some op =>
    have short := inside op found
    obtain ⟨starts, before, after, list, earlier⟩ := List.find?_eq_some_iff_append.1 found
    refine List.find?_eq_some_iff_append.2 ⟨?_, before, after, list, fun other mem => ?_⟩
    · rw [same op (by simp [list])]
      rw [List.isPrefixOf_iff_prefix] at starts ⊢
      exact List.prefix_of_prefix_length_le starts (List.prefix_append s x) short
    · have no := earlier other mem
      rw [same other (by simp [list, mem])]
      cases starts : other.isPrefixOf s with
      | false => rfl
      | true => rw [longer starts] at no; cases no

/-- A plain lexeme that ends within the part is read alike whatever follows the part. -/
theorem plain_inside (c : CodePoint) (inside : (plain c (s ++ x)).width ≤ s.length + 1) :
    plain c (s ++ y) = plain c (s ++ x) := by
  have take {w : Nat} (bound : w ≤ (c :: s).length) :
      (c :: (s ++ y)).take w = (c :: (s ++ x)).take w := by
    have same (z : Text) : (c :: (s ++ z)).take w = (c :: s).take w :=
      List.take_append_of_le_length bound
    rw [same, same]
  have number (h : NumberLiteral.width (c :: (s ++ x)) ≤ s.length + 1) :
      NumberLiteral.width (c :: (s ++ y)) = NumberLiteral.width (c :: (s ++ x)) :=
    NumberLiteral.width_inside (s := c :: s) stop h
  have name (h : nameWidth (c :: (s ++ x)) ≤ s.length + 1) :
      nameWidth (c :: (s ++ y)) = nameWidth (c :: (s ++ x)) :=
    nameWidth_inside (s := c :: s) stop h
  have operator (h : ∀ op, operators.find? (·.isPrefixOf (c :: (s ++ x))) = some op →
      op.length ≤ s.length + 1) : operators.find? (·.isPrefixOf (c :: (s ++ y))) =
        operators.find? (·.isPrefixOf (c :: (s ++ x))) :=
    operators_inside (s := c :: s) stop h
  simp only [plain] at inside ⊢
  by_cases isNumber : NumberLiteral.width (c :: (s ++ x)) = 0
  · rw [if_neg (not_not_intro isNumber)] at inside ⊢
    rw [number (by omega), if_neg (not_not_intro isNumber)]
    by_cases isName : nameWidth (c :: (s ++ x)) = 0
    · rw [if_neg (not_not_intro isName)] at inside ⊢
      rw [name (by omega), if_neg (not_not_intro isName)]
      cases mark : mark? c with
      | some kind => rfl
      | none =>
        dsimp only
        rw [operator fun op found => ?_]
        rw [mark] at inside
        dsimp only at inside
        rw [found] at inside
        exact inside
    · rw [if_pos isName] at inside ⊢
      have inside : nameWidth (c :: (s ++ x)) ≤ s.length + 1 := inside
      rw [name inside, if_pos isName, take inside]
  · rw [if_pos isNumber] at inside ⊢
    have inside : NumberLiteral.width (c :: (s ++ x)) ≤ s.length + 1 := inside
    rw [number inside, if_pos isNumber, take inside]

end

end Lexeme

/-! ### Escapes -/

namespace Escape

/-- How many code points belong to an escape that stands for something. -/
def width? : Escape → Option Nat
  | .char _ width => some width
  | .nothing width => some width
  | _ => none

theorem width?_ofHex {digits : Text} {width n : Nat} (h : (ofHex digits width).width? = some n) :
    n = width := by
  unfold ofHex at h
  repeat' split at h
  all_goals cases h
  rfl

theorem width?_pos {s : Text} {n : Nat} (h : (read s).width? = some n) : 1 ≤ n := by
  unfold read at h
  repeat' split at h
  all_goals first
    | cases h; done
    | cases h; omega
    | have := width?_ofHex h; omega

/-- An escape that ends within the part ends there whatever follows, if it has the same form. -/
theorem read_inside {c : CodePoint} {s x y : Text} {n : Nat}
    (h : (read (c :: (s ++ x))).width? = some n) (inside : n ≤ s.length)
    (same : form c (s ++ y) = form c (s ++ x)) : read (c :: (s ++ y)) = read (c :: (s ++ x)) := by
  have pos := width?_pos h
  rw [read] at h
  rw [read, read, same]
  cases shape : form c (s ++ x) with
  | letter => rfl
  | fixed m =>
    rw [shape] at h
    have width : n = m + 1 := width?_ofHex h
    dsimp only
    rw [List.take_append_of_le_length (by omega), List.take_append_of_le_length (by omega)]
  | braced =>
    rw [shape] at h
    dsimp only at h ⊢
    rw [List.drop_append_of_le_length (by omega)] at h ⊢
    rw [List.drop_append_of_le_length (by omega)]
    cases found : Text.find? "\x7d" (s.drop 1 ++ x) with
    | none =>
      rw [found] at h
      cases h
    | some m =>
      rw [found] at h
      have width : n = m + 3 := width?_ofHex h
      have size : (s.drop 1).length = s.length - 1 := List.length_drop
      have mark : ("\x7d" : Text).length = 1 := rfl
      rw [Text.find?_inside found (by omega) y]
      dsimp only
      rw [List.take_append_of_le_length (by omega), List.take_append_of_le_length (by omega)]

/-- An escape that ends within the part has all of its digits there. -/
theorem form_inside {c : CodePoint} {s x : Text} {n : Nat}
    (h : (read (c :: (s ++ x))).width? = some n) (inside : n ≤ s.length) :
    form c (s ++ x) = form c s := by
  have pos := width?_pos h
  have some : s ≠ [] := List.length_pos_iff.1 (by omega)
  rcases form_append some x with same | ⟨m, -, fixed, -, few⟩
  · exact same
  · rw [read, fixed] at h
    have width : n = m + 1 := width?_ofHex h
    omega

end Escape

/-- Behind a part of a text `y` may stand in the place of `x`: it goes on with no lexeme, and an
escape that ends within the part ends there all the same. -/
structure Text.Replaces (x y : Text) : Prop where
  ends : x = [] → y = []
  stop : ∀ c ∈ y.head?, c = '\x7d'
  escape : ∀ {s : Text} {n : Nat}, (Escape.read (s ++ x)).width? = some n → n < s.length →
    Escape.read (s ++ y) = Escape.read (s ++ x)

namespace Text.Replaces

open Escape

variable {x y : Text}

/-- Nothing may stand in the place of any text. -/
theorem nil (x : Text) : Replaces x [] where
  ends _ := rfl
  stop := nofun
  escape {s n} h inside := by
    cases s with
    | nil => simp at inside
    | cons c rest =>
      have inside : n ≤ rest.length := Nat.le_of_lt_succ inside
      refine read_inside h inside ?_
      rw [List.append_nil, form_inside h inside]

/-- Behind a closing brace any text may stand in the place of one that is long enough for each
escape. -/
theorem closed (hx : 2 ≤ x.length) (y : Text) :
    Replaces (('\x7d' : CodePoint) :: x) (('\x7d' : CodePoint) :: y) where
  ends := nofun
  stop := by
    rintro _ ⟨⟩
    rfl
  escape {s n} h inside := by
    cases s with
    | nil => simp at inside
    | cons c rest =>
      have inside : n ≤ rest.length := Nat.le_of_lt_succ inside
      have pos := width?_pos h
      have some : rest ≠ [] := List.length_pos_iff.1 (by omega)
      have formed := form_inside h inside
      refine read_inside h inside ?_
      rcases form_append some (('\x7d' : CodePoint) :: y) with same | ⟨m, letter, -, digits, -⟩
      · rw [same, formed]
      · -- Only at the very end of the text are there so few code points left.
        have few := lt_of_form_eq_letter (formed.trans letter) digits
        have most := digitCount?_le digits
        rw [List.length_append, List.length_cons] at few
        omega

end Text.Replaces

/-! ### Literals in quotes and regular expressions -/

theorem lt_of_stringBody {quote : CodePoint} {here w : Nat} {s v : Text}
    (h : stringBody quote here s = .ok (v, w)) : here < w := by
  fun_induction stringBody quote here s generalizing v w
  case case2 =>
    cases h
    omega
  case case1 | case3 | case6 | case7 | case8 => cases h
  case case4 ih =>
    obtain ⟨⟨a, b⟩, body, eq⟩ := map_eq_ok.1 h
    cases eq
    have := ih body
    omega
  case case5 ih =>
    have := ih h
    omega
  case case9 ih =>
    obtain ⟨⟨a, b⟩, body, eq⟩ := map_eq_ok.1 h
    cases eq
    have := ih body
    omega

section

variable {s x y : Text}

theorem stringBody_inside {quote : CodePoint} {here w : Nat} {v : Text}
    (h : stringBody quote here (s ++ x) = .ok (v, w)) (inside : w ≤ here + s.length)
    (replaces : Text.Replaces x y) : stringBody quote here (s ++ y) = .ok (v, w) := by
  induction hn : s.length using Nat.strongRecOn generalizing here s v w with
  | ind n ih =>
    have later := lt_of_stringBody h
    cases s with
    | nil =>
      rw [List.length_nil] at inside
      omega
    | cons c rest =>
      rw [List.length_cons] at inside hn
      rw [List.cons_append, stringBody] at h ⊢
      split at h
      · next close => rw [if_pos close, h]
      next open_ =>
      rw [if_neg open_]
      split at h
      · cases h
      next line =>
      rw [if_neg line]
      split at h
      · next backslash =>
        rw [if_pos backslash]
        cases read : Escape.read (rest ++ x) with
        | char d m =>
          rw [read] at h
          obtain ⟨⟨value, width⟩, body, eq⟩ := map_eq_ok.1 h
          cases eq
          have after := lt_of_stringBody body
          have width? : (Escape.read (rest ++ x)).width? = some m := by rw [read]; rfl
          rw [replaces.escape width? (by omega), read]
          dsimp only
          rw [List.drop_append_of_le_length (by omega)] at body ⊢
          rw [ih (rest.drop m).length (by rw [List.length_drop]; omega) body
            (by rw [List.length_drop]; omega) rfl]
          rfl
        | nothing m =>
          rw [read] at h
          have after := lt_of_stringBody h
          have width? : (Escape.read (rest ++ x)).width? = some m := by rw [read]; rfl
          rw [replaces.escape width? (by omega), read]
          dsimp only at h ⊢
          rw [List.drop_append_of_le_length (by omega)] at h ⊢
          exact ih (rest.drop m).length (by rw [List.length_drop]; omega) h
            (by rw [List.length_drop]; omega) rfl
        | _ =>
          rw [read] at h
          cases h
      · next plain =>
        rw [if_neg plain]
        obtain ⟨⟨value, width⟩, body, eq⟩ := map_eq_ok.1 h
        cases eq
        rw [ih rest.length (by omega) body (by omega) rfl]
        rfl

theorem lt_of_regexEnd {inClass : Bool} {here w : Nat} {s : Text}
    (h : regexEnd inClass here s = .ok w) : here < w := by
  fun_induction regexEnd inClass here s
  case case1 | case2 => cases h
  case case6 =>
    cases h
    omega
  case case3 ih | case4 ih | case5 ih | case7 ih =>
    have := ih h
    omega

theorem regexEnd_inside {inClass : Bool} {here w : Nat}
    (h : regexEnd inClass here (s ++ x) = .ok w) (inside : w ≤ here + s.length)
    (stop : ∀ c ∈ y.head?, c = '\x7d') : regexEnd inClass here (s ++ y) = .ok w := by
  have brace : CodePoint.isWord '\x7d' = false := by decide
  induction hn : s.length using Nat.strongRecOn generalizing inClass here s with
  | ind n ih =>
    have later := lt_of_regexEnd h
    cases s with
    | nil =>
      rw [List.length_nil] at inside
      omega
    | cons c rest =>
      rw [List.length_cons] at inside hn
      rw [List.cons_append, regexEnd] at h ⊢
      split at h
      · cases h
      next line =>
      rw [if_neg line]
      split at h
      · next backslash =>
        have after := lt_of_regexEnd h
        rw [if_pos backslash]
        rw [List.drop_append_of_le_length (by omega)] at h ⊢
        exact ih (rest.drop 1).length (by rw [List.length_drop]; omega) h
          (by rw [List.length_drop]; omega) rfl
      next plain =>
      rw [if_neg plain]
      split at h
      · next opens =>
        rw [if_pos opens]
        exact ih rest.length (by omega) h (by omega) rfl
      next notOpens =>
      rw [if_neg notOpens]
      split at h
      · next closes =>
        rw [if_pos closes]
        exact ih rest.length (by omega) h (by omega) rfl
      next notCloses =>
      rw [if_neg notCloses]
      split at h
      · next slash =>
        have width : here + 1 + ((rest ++ x).takeWhile CodePoint.isWord).length = w :=
          Except.ok.inj h
        rw [if_pos slash, ← h,
          Text.takeWhile_inside (x := x) (fun c mem => stop c mem ▸ brace) (by omega)]
      · next other =>
        rw [if_neg other]
        exact ih rest.length (by omega) h (by omega) rfl

variable {part : TemplatePart} {outer : List TemplatePart} {here w : Nat}

theorem lt_of_templateEnd (h : templateEnd part outer here s = .ok w) : here < w := by
  fun_induction templateEnd part outer here s
  case case1 | case4 => cases h
  case case2 =>
    cases h
    omega
  case case3 ih =>
    have := ih h
    omega

theorem templateEnd_inside (h : templateEnd part outer here (s ++ x) = .ok w)
    (inside : w ≤ here + s.length) (replaces : Text.Replaces x y) :
    templateEnd part outer here (s ++ y) = .ok w := by
  induction hn : s.length using Nat.strongRecOn generalizing part outer here s with
  | ind n ih =>
    have later := lt_of_templateEnd h
    cases s with
    | nil =>
      rw [List.length_nil] at inside
      omega
    | cons c rest =>
      rw [List.length_cons] at inside hn
      rw [List.cons_append, templateEnd] at h ⊢
      cases does : part.step outer here c (rest ++ x) with
      | fails e =>
        rw [does] at h
        cases h
      | ends =>
        rw [does] at h
        rw [TemplatePart.step_eq_ends_iff.2 (TemplatePart.step_eq_ends_iff.1 does)]
        exact h
      | goes next more passed =>
        rw [does] at h
        have after := lt_of_templateEnd h
        have same : part.step outer here c (rest ++ y) = .goes next more passed := by
          have head : (rest ++ y).head? = (rest ++ x).head? := by
            cases rest with
            | nil =>
              rw [List.length_nil] at inside
              omega
            | cons d rest => rfl
          rcases TemplatePart.step_again head does with same | ⟨⟨v, m⟩, -, body, rfl, step⟩
          · exact same
          · rw [step, stringBody_inside body (by dsimp only at after; omega) replaces]
        rw [same]
        dsimp only at h ⊢
        rw [List.drop_append_of_le_length (by omega)] at h ⊢
        exact ih (rest.drop passed).length (by rw [List.length_drop]; omega) h
          (by rw [List.length_drop]; omega) rfl

end

/-! ### One lexeme -/

namespace Lexeme

theorem width_plain (c : CodePoint) (rest : Text) : 1 ≤ (plain c rest).width := by
  unfold plain
  dsimp only
  split
  · next number => exact Nat.one_le_iff_ne_zero.2 number
  split
  · next name => exact Nat.one_le_iff_ne_zero.2 name
  split
  · exact Nat.le_refl 1
  split
  · next op found =>
    have wide : ∀ op ∈ operators, 1 ≤ op.length := by decide
    exact wide op (List.mem_of_find?_eq_some found)
  · exact Nat.le_refl 1

/-- No lexeme is empty. -/
theorem width_pos {r : Bool} {c : CodePoint} {rest : Text} {l : Lexeme}
    (h : read r c rest = .ok l) : 1 ≤ l.width := by
  cases reads_of_read h with
  | blank => exact Nat.le_refl 1
  | line =>
    unfold width lineWidth
    dsimp only
    split
    · omega
    · rw [List.length_cons]
      omega
  | block => exact Nat.le_add_left 1 _
  | string _ body => exact Nat.le_of_lt (lt_of_stringBody body)
  | template _ body => exact Nat.le_of_lt (lt_of_templateEnd body)
  | regex _ _ body => exact Nat.le_of_lt (lt_of_regexEnd body)
  | plain => exact width_plain c rest

theorem two_le_lineWidth {s : Text} (h : Text.startsWith s "//" = true) : 2 ≤ lineWidth s := by
  match s, h with
  | [c], h => simp [Text.startsWith, Text.ofString, List.isPrefixOf] at h
  | c :: d :: s, h =>
    have slashes : '/' = c ∧ '/' = d := by
      simpa [Text.startsWith, Text.ofString, List.isPrefixOf] using h
    obtain ⟨rfl, rfl⟩ := slashes
    have line : ('\n' : CodePoint) ≠ '/' := by decide
    unfold lineWidth
    split
    · next n found =>
      simp [Text.find?, Text.ofString, List.isPrefixOf, line] at found
      omega
    · simp

/-- A line comment that ends within the part ends there whatever follows the part. -/
theorem lineWidth_inside {s x y : Text} (inside : lineWidth (s ++ x) ≤ s.length)
    (ends : x = [] → y = []) : lineWidth (s ++ y) = lineWidth (s ++ x) := by
  unfold lineWidth at inside
  split at inside
  · next n found =>
    unfold lineWidth
    rw [Text.find?_inside found inside y, found]
  · rw [List.length_append] at inside
    have none : x = [] := List.length_eq_zero_iff.1 (by omega)
    rw [none, ends none]

/-- A part without braces that starts the text up to a brace starts it whatever follows. -/
theorem startsWith_inside {c : CodePoint} {part s x y : Text} (stop : ∀ d ∈ y.head?, d = '\x7d')
    (h : part.all (· ≠ '\x7d') = true) (starts : Text.startsWith (c :: (s ++ y)) part = true) :
    Text.startsWith (c :: (s ++ x)) part = true := by
  have alone : part.isPrefixOf (c :: s) = true := by
    rw [← Text.isPrefixOf_inside h stop]
    exact starts
  rw [Text.startsWith, List.isPrefixOf_iff_prefix]
  exact (List.isPrefixOf_iff_prefix.1 alone).trans (List.prefix_append (c :: s) x)

theorem startsWith_of_le {c : CodePoint} {part s x y : Text}
    (starts : Text.startsWith (c :: (s ++ x)) part = true) (inside : part.length ≤ s.length + 1) :
    Text.startsWith (c :: (s ++ y)) part = true := by
  rw [Text.startsWith, List.isPrefixOf_iff_prefix] at starts ⊢
  have alone := List.prefix_of_prefix_length_le starts (List.prefix_append (c :: s) x) inside
  exact alone.trans (List.prefix_append (c :: s) y)

theorem noComment_inside {c : CodePoint} {s x y : Text} (stop : ∀ d ∈ y.head?, d = '\x7d')
    (h : Text.NoComment (c :: (s ++ x))) : Text.NoComment (c :: (s ++ y)) := by
  have line : ("//" : Text).all (· ≠ '\x7d') = true := by decide
  have block : ("/*" : Text).all (· ≠ '\x7d') = true := by decide
  constructor <;> refine Bool.eq_false_iff.2 fun starts => ?_
  · exact Bool.eq_false_iff.1 h.1 (startsWith_inside stop line starts)
  · exact Bool.eq_false_iff.1 h.2 (startsWith_inside stop block starts)

/-- A lexeme that ends within the part is read alike whatever follows the part. -/
theorem read_inside {r : Bool} {c : CodePoint} {s x y : Text} {l : Lexeme}
    (h : read r c (s ++ x) = .ok l) (inside : l.width ≤ s.length + 1)
    (replaces : Text.Replaces x y) : read r c (s ++ y) = .ok l := by
  refine Reads.read_eq ?_
  cases reads_of_read h with
  | blank blank => exact .blank blank
  | line comment =>
    have wide : 2 ≤ lineWidth (c :: s ++ x) := two_le_lineWidth comment
    have line := Reads.line (r := r) (startsWith_of_le (y := y) comment (Nat.le_trans wide inside))
    have same : lineWidth (c :: s ++ y) = lineWidth (c :: s ++ x) :=
      lineWidth_inside inside replaces.ends
    rw [List.cons_append, List.cons_append] at same
    rwa [same] at line
  | @block n comment close =>
    have inside : n + 4 ≤ s.length + 1 := inside
    have two : ("*/" : Text).length = 2 := rfl
    rw [List.drop_append_of_le_length (by omega)] at close
    refine .block (startsWith_of_le comment (by change 2 ≤ _; omega)) ?_
    rw [List.drop_append_of_le_length (by omega)]
    exact Text.find?_inside close (by rw [two, List.length_drop]; omega) y
  | @string v w quote body =>
    have inside : w ≤ s.length + 1 := inside
    exact .string quote (stringBody_inside body (by omega) replaces)
  | @template w quote body =>
    have inside : w ≤ s.length + 1 := inside
    have template := Reads.template (r := r) quote (templateEnd_inside body (by omega) replaces)
    rw [List.take_append_of_le_length (by omega)] at template ⊢
    exact template
  | @regex w slash noComment body =>
    have inside : w ≤ (c :: s).length := inside
    have take (z : Text) : (c :: (s ++ z)).take w = (c :: s).take w :=
      List.take_append_of_le_length inside
    rw [List.length_cons] at inside
    have regex := Reads.regex slash (noComment_inside replaces.stop noComment)
      (regexEnd_inside body (by omega) replaces.stop)
    rwa [take, ← take x] at regex
  | plain notBlank notQuote notTemplate notRegex noComment =>
    rw [← plain_inside replaces.stop c inside]
    exact .plain notBlank notQuote notTemplate notRegex (noComment_inside replaces.stop noComment)

end Lexeme

end SchemaTypings
