import SchemaTypings.Proofs.Numbers

/-!
Decimals as text: digits, and a fraction and an exponent if there are any. Numbers are written so,
the lexer takes such a text whole, and it has a value.
-/

namespace SchemaTypings

/-! ### Decimals -/

/-- A decimal without a sign: whole digits, digits after a point if there is one, and an exponent of
a sign and digits if there is one. -/
structure Decimal where
  whole : Text
  fraction : Option Text := none
  exponent : Option (Bool × Text) := none
  whole_digits : whole.IsDigits
  fraction_digits : ∀ f ∈ fraction, f.IsDigits := by simp
  exponent_digits : ∀ e ∈ exponent, e.2.IsDigits := by simp

namespace Decimal

/-- The point and the digits after it. -/
def fractionText (d : Decimal) : Text :=
  match d.fraction with
  | some f => '.' :: f
  | none => []

/-- The exponent with its mark and its sign. -/
def exponentText (d : Decimal) : Text :=
  match d.exponent with
  | some (down, e) => 'e' :: (if down then '-' else '+') :: e
  | none => []

/-- The decimal as text. -/
def text (d : Decimal) : Text := d.whole ++ (d.fractionText ++ d.exponentText)

/-- A decimal ends in a digit. -/
theorem getLast?_text (d : Decimal) : ∀ c ∈ d.text.getLast?, c.isAsciiDigit = true := by
  have last : ∃ s ds, Text.IsDigits ds ∧ d.text = s ++ ds := by
    unfold text exponentText
    split
    · next down e he =>
      refine ⟨d.whole ++ (d.fractionText ++ ['e', if down then '-' else '+'].map CodePoint.ofChar),
        e, d.exponent_digits _ he, ?_⟩
      cases down <;> simp
    · unfold fractionText
      split
      · next f hf => exact ⟨d.whole ++ [('.' : CodePoint)], f, d.fraction_digits f hf, by simp⟩
      · exact ⟨[], d.whole, d.whole_digits, by simp⟩
  obtain ⟨s, ds, h, eq⟩ := last
  rw [eq]
  exact h.getLast?

/-- A decimal starts with a digit. -/
theorem exists_text_eq (d : Decimal) :
    ∃ c s, c.isAsciiDigit = true ∧ (∀ c ∈ s, c.isAsciiDigit = true) ∧ d.whole = c :: s ∧
      d.text = c :: (s ++ (d.fractionText ++ d.exponentText)) := by
  obtain ⟨ne, all⟩ := d.whole_digits
  cases hw : d.whole with
  | nil => exact absurd hw ne
  | cons c s =>
    rw [hw] at all
    exact ⟨c, s, all c (by simp), fun c hc => all c (by simp [hc]), rfl, by simp [text, hw]⟩

/-! ### The extent of a decimal -/

theorem isBaseDigit?_eq_none_iff {c : CodePoint} :
    NumberLiteral.isBaseDigit? c = none ↔
      c ≠ 'x' ∧ c ≠ 'X' ∧ c ≠ 'b' ∧ c ≠ 'B' ∧ c ≠ 'o' ∧ c ≠ 'O' := by
  unfold NumberLiteral.isBaseDigit?
  split
  · next h => simp; grind
  split
  · next h => simp; grind
  split
  · next h => simp; grind
  · simp_all

theorem isDigitOrBar_of_isAsciiDigit {c : CodePoint} (h : c.isAsciiDigit = true) :
    NumberLiteral.isDigitOrBar c = true := by
  simp [NumberLiteral.isDigitOrBar, (CodePoint.digitFacts h).decimal]

/-- What stops a name is none of the code points that a name may go on with. -/
theorem ne_of_isNamePart {c d : CodePoint} (hc : c.isNamePart = false) (hd : d.isNamePart = true) :
    c ≠ d := by
  rintro rfl
  rw [hc] at hd
  cases hd

section

variable (d : Decimal) {rest : Text}

/-- The exponent, or what stops the decimal, goes on with no digits and is no point. -/
theorem head?_exponentText (hr : rest.Stops) :
    ∀ c ∈ (d.exponentText ++ rest).head?,
      NumberLiteral.isDigitOrBar c = false ∧ c ≠ '.' ∧ NumberLiteral.isBaseDigit? c = none := by
  intro c hc
  unfold exponentText at hc
  split at hc
  · cases hc
    decide
  · obtain ⟨hn, hd, hp⟩ := hr c hc
    have other (e : Char) (he : CodePoint.isNamePart e = true := by decide) : c ≠ e :=
      ne_of_isNamePart hn he
    refine ⟨by simp [NumberLiteral.isDigitOrBar, hd, other '_'], hp, isBaseDigit?_eq_none_iff.2 ?_⟩
    exact ⟨other 'x', other 'X', other 'b', other 'B', other 'o', other 'O'⟩

/-- What follows the whole digits neither goes on with them nor marks another base. -/
theorem head?_fractionText (hr : rest.Stops) :
    ∀ c ∈ (d.fractionText ++ (d.exponentText ++ rest)).head?,
      NumberLiteral.isDigitOrBar c = false ∧ NumberLiteral.isBaseDigit? c = none := by
  intro c hc
  unfold fractionText at hc
  split at hc
  · cases hc
    decide
  · obtain ⟨hd, -, hb⟩ := d.head?_exponentText hr c hc
    exact ⟨hd, hb⟩

/-- The second code point of a decimal, or what follows its only one, marks no other base. -/
theorem second_text (hr : rest.Stops) :
    ∀ c ∈ (d.text ++ rest).tail.head?, NumberLiteral.isBaseDigit? c = none := by
  obtain ⟨c, s, -, hs, -, eq⟩ := d.exists_text_eq
  intro m hm
  rw [eq, List.cons_append, List.tail_cons, List.append_assoc, List.append_assoc] at hm
  cases s with
  | nil => exact (d.head?_fractionText hr m hm).2
  | cons e s =>
    cases hm
    exact isBaseDigit?_eq_none_iff.2 (CodePoint.digitFacts (hs m (by simp))).noBase

theorem basedWidth_text (hr : rest.Stops) : NumberLiteral.basedWidth (d.text ++ rest) = 0 := by
  have second := d.second_text hr
  revert second
  match d.text ++ rest with
  | [] | [_] => intro; rfl
  | z :: mark :: tail =>
    intro second
    simp [NumberLiteral.basedWidth, second mark rfl]

theorem fractionWidth_text (hr : rest.Stops) :
    NumberLiteral.fractionWidth (d.fractionText ++ (d.exponentText ++ rest)) =
      d.fractionText.length := by
  cases hf : d.fraction with
  | some f =>
    have digits : (f ++ (d.exponentText ++ rest)).takeWhile NumberLiteral.isDigitOrBar = f :=
      Text.takeWhile_stops
        (List.all_eq_true.2 fun e he =>
          isDigitOrBar_of_isAsciiDigit ((d.fraction_digits f hf).2 e he))
        fun e he => (d.head?_exponentText hr e he).1
    simp [fractionText, hf, NumberLiteral.fractionWidth, Text.runWidth, digits, Nat.add_comm]
  | none =>
    have point := d.head?_exponentText hr
    simp only [fractionText, hf, List.nil_append]
    revert point
    cases d.exponentText ++ rest with
    | nil => intro; rfl
    | cons e tail =>
      intro point
      simp [NumberLiteral.fractionWidth, Text.runWidth, (point e rfl).2.1]

theorem mantissaWidth_text (hr : rest.Stops) :
    NumberLiteral.mantissaWidth (d.text ++ rest) = (d.whole ++ d.fractionText).length := by
  obtain ⟨c, s, hc, hs, whole, eq⟩ := d.exists_text_eq
  have taken : (s ++ (d.fractionText ++ (d.exponentText ++ rest))).takeWhile
      NumberLiteral.isDigitOrBar = s :=
    Text.takeWhile_stops (List.all_eq_true.2 fun e he => isDigitOrBar_of_isAsciiDigit (hs e he))
      fun e he => (d.head?_fractionText hr e he).1
  have text : d.text ++ rest = c :: (s ++ (d.fractionText ++ (d.exponentText ++ rest))) := by
    simp [eq]
  have digits : NumberLiteral.digitsWidth (d.text ++ rest) = s.length + 1 := by
    simp [text, NumberLiteral.digitsWidth, Text.runWidth, (CodePoint.digitFacts hc).decimal, taken,
      Nat.add_comm]
  have behind : (d.text ++ rest).drop (s.length + 1) =
      d.fractionText ++ (d.exponentText ++ rest) := by
    rw [text, List.drop_succ_cons, List.drop_left]
  rw [NumberLiteral.mantissaWidth, digits, if_pos (Nat.succ_ne_zero _), behind,
    d.fractionWidth_text hr, whole, List.length_append, List.length_cons]

theorem exponentWidth_text (hr : rest.Stops) :
    NumberLiteral.exponentWidth (d.exponentText ++ rest) = d.exponentText.length := by
  unfold exponentText
  split
  · next down e he =>
    obtain ⟨ne, all⟩ := d.exponent_digits _ he
    have digits : (e ++ rest).takeWhile CodePoint.isDecimal = e :=
      Text.takeWhile_stops
        (List.all_eq_true.2 fun f hf => (CodePoint.digitFacts (all f hf)).decimal)
        fun f hf => (hr f hf).2.1
    have sign : (if down then ('-' : CodePoint) else '+') = '+' ∨
        (if down then ('-' : CodePoint) else '+') = '-' := by cases down <;> simp
    simp only [List.cons_append, NumberLiteral.exponentWidth, if_pos sign, List.drop_succ_cons,
      List.drop_zero, digits]
    simp [ne]
    omega
  · cases rest with
    | nil => rfl
    | cons c rest =>
      have hn := (hr c rfl).1
      simp [NumberLiteral.exponentWidth, ne_of_isNamePart hn (d := 'e') (by decide),
        ne_of_isNamePart hn (d := 'E') (by decide)]

/-- A decimal is one number, as long as nothing behind it goes on with it. -/
theorem width_text (hr : rest.Stops) : NumberLiteral.width (d.text ++ rest) = d.text.length := by
  have whole : d.text ++ rest = (d.whole ++ d.fractionText) ++ (d.exponentText ++ rest) := by
    simp [text]
  have total : d.text.length = (d.whole ++ d.fractionText).length + d.exponentText.length := by
    simp [text, Nat.add_assoc]
  have exponent : (d.text ++ rest).drop (d.whole ++ d.fractionText).length =
      d.exponentText ++ rest := by rw [whole, List.drop_left]
  have behind : (d.text ++ rest).drop d.text.length = rest := List.drop_left
  have positive : (d.whole ++ d.fractionText).length ≠ 0 := by simp [d.whole_digits.1]
  have suffix : ∀ c ∈ rest.head?, c ≠ 'n' := fun c hc => ne_of_isNamePart (hr c hc).1 (by decide)
  simp only [NumberLiteral.width, d.basedWidth_text hr, d.mantissaWidth_text hr, exponent,
    d.exponentWidth_text hr, ← total, behind, if_neg positive, ne_eq, not_true_eq_false, if_false]
  cases rest with
  | nil => rfl
  | cons c rest => simp [suffix c rfl]

end

/-! ### The value of a decimal -/

variable (d : Decimal)

/-- A decimal is a number as a token may have it. -/
def numeric : Numeric where
  whole := d.whole
  point := d.fractionText
  exponent := d.exponentText
  whole_digits c h := (CodePoint.digitFacts (d.whole_digits.2 c h)).decimal
  point_digits := by
    unfold fractionText
    split
    · next f hf =>
      exact .inr ⟨f, rfl, fun c h =>
        (CodePoint.digitFacts ((d.fraction_digits f hf).2 c h)).decimal⟩
    · exact .inl rfl
  exponent_digits := by
    unfold exponentText
    split
    · next down e he =>
      have digits := d.exponent_digits _ he
      refine .inr ⟨'e', if down then "-" else "+", e, ?_, .inl rfl, ?_, digits.1, fun c h =>
        (CodePoint.digitFacts (digits.2 c h)).decimal⟩
      · cases down <;> rfl
      · cases down <;> simp
    · exact .inl rfl
  some_digit := .inl d.whole_digits.1

theorem text_numeric : d.numeric.text = d.text := rfl

/-- A decimal has neither underscores nor a suffix. -/
theorem bare_text : Text.trimRight (· = 'n') (d.text.filter (· ≠ '_')) = d.text := by
  have kept : d.text.filter (fun c : CodePoint => c ≠ '_') = d.text :=
    List.filter_eq_self.2 fun c hc => by simpa using d.numeric.ne_of_mem hc '_' (by decide)
  rw [kept]
  exact Text.trimRight_eq fun c hc => by
    simpa using (CodePoint.digitFacts (d.getLast?_text c hc)).notSuffix

/-- Every decimal has a value. -/
theorem value?_isSome : (NumberLiteral.value? d.text).isSome = true :=
  d.numeric.value?_isSome d.bare_text

/-- Digits alone denote an integer. -/
theorem value?_whole (hf : d.fraction = none) (he : d.exponent = none) :
    NumberLiteral.value? d.text = some (.int d.whole.digitsValue) := by
  have whole : d.text = d.whole := by simp [text, fractionText, exponentText, hf, he]
  have plain : (d.whole.any fun c => c = '.' || c = 'e' || c = 'E') = false := by
    refine List.any_eq_false.2 fun c hc => ?_
    have facts := CodePoint.digitFacts (d.whole_digits.2 c hc)
    simp [facts.notPoint, facts.notExponent]
  have unmarked := d.numeric.markedBase?_text
  have trimmed := d.numeric.trim_text
  have unsigned := d.numeric.sign_text
  rw [text_numeric] at unmarked trimmed unsigned
  simp only [NumberLiteral.value?, d.bare_text, unmarked, Numeral.integer?, trimmed, unsigned]
  rw [whole, plain]
  simp [Numeral.dropMarker, Numeral.marker?, Numeral.digits?_of_isDigits d.whole_digits,
    Text.digitsValue]

/-- The digits of the decimal, with no point between them. -/
def digits : Text := d.whole ++ d.fraction.getD []

/-- The exponent of the decimal; zero if it has none. -/
def power : Int :=
  match d.exponent with
  | some (down, e) => if down then -(e.digitsValue : Int) else e.digitsValue
  | none => 0

/-- The power of ten that the last digit stands for. -/
def scale : Int := d.power - (d.fraction.getD []).length

theorem run?_of_isDigits {s : Text} (h : s.IsDigits) :
    Binary64.run? s = some (s.map fun c => c.val - 48) := by
  have some : s.isEmpty = false := by simp [h.1]
  rw [Binary64.run?, some, if_neg (by decide), Numeral.digits?_of_isDigits h]

/-- A decimal stands for its digits at their power of ten. -/
theorem magnitude?_text : Binary64.magnitude? false d.text =
    some (Binary64.ofDecimal false d.digits.digitsValue d.scale) := by
  have fraction : Binary64.run? (d.fractionText.drop 1) =
      some ((d.fraction.getD []).map fun c => c.val - 48) := by
    unfold fractionText
    cases hf : d.fraction with
    | none => rfl
    | some f => exact run?_of_isDigits (d.fraction_digits f hf)
  have digit : d.whole ≠ [] := d.whole_digits.1
  have value : Numeral.value 10 (d.whole.map (fun c => c.val - 48) ++
      (d.fraction.getD []).map fun c => c.val - 48) = d.digits.digitsValue := by
    rw [digits, Text.digitsValue, List.map_append]
  rw [← text_numeric, d.numeric.magnitude?_text]
  simp only [numeric, run?_of_isDigits d.whole_digits, fraction]
  cases he : d.exponent with
  | none => simp [exponentText, he, digit, value, scale, power]
  | some e =>
    obtain ⟨down, e⟩ := e
    have digits := Numeral.digits?_of_isDigits (d.exponent_digits _ he)
    cases down <;> simp [exponentText, he, Numeral.sign, digits, digit, value, scale, power,
      Text.digitsValue]

/-- A decimal with a point or an exponent denotes a floating-point number. -/
theorem value?_float (h : d.fraction ≠ none ∨ d.exponent ≠ none) : NumberLiteral.value? d.text =
    some (.float (Binary64.ofDecimal false d.digits.digitsValue d.scale)) := by
  have marked : (d.text.any fun c => c = '.' || c = 'e' || c = 'E') = true := by
    rcases h with h | h
    · obtain ⟨f, hf⟩ := Option.ne_none_iff_exists'.1 h
      simp [text, fractionText, hf]
    · obtain ⟨e, he⟩ := Option.ne_none_iff_exists'.1 h
      simp [text, exponentText, he]
  have unmarked := d.numeric.markedBase?_text
  have trimmed := d.numeric.trim_text
  have unsigned := d.numeric.sign_text
  rw [text_numeric] at unmarked trimmed unsigned
  simp only [NumberLiteral.value?, d.bare_text, unmarked, if_pos marked, Binary64.read?, trimmed,
    unsigned, d.magnitude?_text]
  rfl

end Decimal

/-- A decimal is read as one number token. -/
theorem Lexes.decimal (d : Decimal) :
    Lexes d.text [⟨.number, d.text, 0, d.text.length⟩] Text.Stops := by
  obtain ⟨c, s, hc, -, -, eq⟩ := d.exists_text_eq
  have facts := CodePoint.digitFacts hc
  have width {rest : Text} (hr : rest.Stops) := d.width_text hr
  rw [eq] at width ⊢
  generalize s ++ (d.fractionText ++ d.exponentText) = more at width ⊢
  refine .token fun r rest hr => ?_
  have whole : NumberLiteral.width (c :: (more ++ rest)) = more.length + 1 := width hr
  rw [Lexeme.read_plain facts.notBlank facts.notMark]
  simp [Lexeme.plain, whole]

/-! ### Numbers as decimals -/

/-- The decimal of a natural number. -/
def Decimal.ofNat (n : Nat) : Decimal where
  whole := Text.ofNat n
  whole_digits := Text.isDigits_ofNat n

@[simp] theorem Decimal.text_ofNat (n : Nat) : (Decimal.ofNat n).text = Text.ofNat n := by
  simp [text, ofNat, fractionText, exponentText]

/-- The digits of a number are read back as it. -/
theorem NumberLiteral.value?_ofNat (n : Nat) : value? (Text.ofNat n) = some (.int n) := by
  have h := (Decimal.ofNat n).value?_whole rfl rfl
  rw [Decimal.text_ofNat] at h
  rw [h]
  exact congrArg (fun m : Nat => some (Literal.int m)) (Text.digitsValue_ofNat n)

/-! ### Floating-point numbers as decimals -/

namespace Text

/-- Digits with a zero in front if there is only one. -/
def twoDigits (s : Text) : Text := if s.length < 2 then "0" ++ s else s

theorem IsDigits.twoDigits {s : Text} (hs : s.IsDigits) : s.twoDigits.IsDigits := by
  rw [Text.twoDigits]
  split
  · exact .cons (by decide) hs.2
  · exact hs

theorem digitsValue_twoDigits (s : Text) : s.twoDigits.digitsValue = s.digitsValue := by
  rw [twoDigits]
  split
  · have zero : Text.digitsValue "0" = 0 := by decide
    rw [digitsValue_append, zero, Nat.zero_mul, Nat.zero_add]
  · rfl

end Text

namespace Decimal

section

variable {s : Text} (hs : s.IsDigits)

/-- Digits with `n` zeros behind them, and a point and a zero behind these. -/
def padded (n : Nat) : Decimal where
  whole := s ++ Text.times n '0'
  fraction := some ['0']
  whole_digits := hs.append (Text.isAsciiDigit_times n)
  fraction_digits := by
    rintro _ ⟨⟩
    exact ⟨by simp, by simp; decide⟩

/-- Digits with a point behind the first `n` of them. -/
def pointed (n : Nat) (first : 0 < n) (left : n < s.length) : Decimal where
  whole := s.take n
  fraction := some (s.drop n)
  whole_digits := ⟨by simp [hs.1]; omega, fun c hc => hs.2 c (List.mem_of_mem_take hc)⟩
  fraction_digits := by
    rintro _ ⟨⟩
    exact ⟨by simpa using left, fun c hc => hs.2 c (List.mem_of_mem_drop hc)⟩

/-- Digits behind a zero, a point and `n` zeros. -/
def below (n : Nat) : Decimal where
  whole := ['0']
  fraction := some (Text.times n '0' ++ s)
  whole_digits := ⟨by simp, by simp; decide⟩
  fraction_digits := by
    rintro _ ⟨⟩
    refine ⟨by simp [hs.1], fun c hc => ?_⟩
    rcases List.mem_append.1 hc with hc | hc
    · exact Text.isAsciiDigit_times n c hc
    · exact hs.2 c hc

/-- Digits with a point behind the first of them, if there are more, and an exponent. -/
def scientific (down : Bool) {e : Text} (he : e.IsDigits) : Decimal where
  whole := s.take 1
  fraction := if s.length = 1 then none else some (s.drop 1)
  exponent := some (down, e)
  whole_digits := ⟨by simp [hs.1], fun c hc => hs.2 c (List.mem_of_mem_take hc)⟩
  fraction_digits := by
    intro f hf
    split at hf
    · cases hf
    · next h =>
      cases hf
      have : s.length ≠ 0 := by simpa using hs.1
      have left : s.drop 1 ≠ [] := by
        rw [ne_eq, List.drop_eq_nil_iff]
        omega
      exact ⟨left, fun c hc => hs.2 c (List.mem_of_mem_drop hc)⟩
  exponent_digits := by
    rintro _ ⟨⟩
    exact he

end

end Decimal

namespace Binary64

/-- A decimal that shows `c · 10^k`, maybe with more zeros, and is no integer to a reader. -/
structure Shows (c : Nat) (k : Int) (d : Decimal) : Prop where
  marked : d.fraction ≠ none ∨ d.exponent ≠ none
  zeros : ∃ j : Nat, d.digits.digitsValue = c * 10 ^ j ∧ d.scale = k - j

section

variable {s : Text} (digits : s.IsDigits)

theorem shows_padded (k : Nat) : Shows s.digitsValue k (.padded digits k) where
  marked := .inl (by simp [Decimal.padded])
  zeros := by
    refine ⟨k + 1, ?_, ?_⟩
    · have whole : (Decimal.padded digits k).digits = s ++ Text.times (k + 1) '0' := by
        simp [Decimal.digits, Decimal.padded, Text.times, List.replicate_succ']
      rw [whole, Text.digitsValue_append, Text.digitsValue_times, Text.times,
        List.length_replicate, Nat.add_zero]
    · show (0 : Int) - (1 : Nat) = k - (k + 1 : Nat)
      omega

theorem shows_pointed {n : Nat} (first : 0 < n) (left : n < s.length) :
    Shows s.digitsValue (n - s.length) (.pointed digits n first left) where
  marked := .inl (by simp [Decimal.pointed])
  zeros := by
    refine ⟨0, by simp [Decimal.digits, Decimal.pointed], ?_⟩
    simp [Decimal.scale, Decimal.power, Decimal.pointed]
    omega

theorem shows_below (n : Nat) :
    Shows s.digitsValue (-n - s.length) (.below digits n) where
  marked := .inl (by simp [Decimal.below])
  zeros := by
    refine ⟨0, ?_, by simp [Decimal.scale, Decimal.power, Decimal.below, Text.times]; omega⟩
    have whole : (Decimal.below digits n).digits = Text.times (n + 1) '0' ++ s := by
      simp [Decimal.digits, Decimal.below, Text.times, List.replicate_succ]
    rw [whole, Text.digitsValue_append, Text.digitsValue_times]
    simp

theorem shows_scientific (down : Bool) {e : Text} (he : e.IsDigits) :
    Shows s.digitsValue ((if down then -(e.digitsValue : Int) else e.digitsValue) - (s.length - 1))
      (.scientific digits down he) where
  marked := .inr (by simp [Decimal.scientific])
  zeros := by
    have some : s.length ≠ 0 := by simpa using digits.1
    refine ⟨0, ?_, ?_⟩
    · have whole : (Decimal.scientific digits down he).digits = s := by
        by_cases single : s.length = 1
        · have all : s.take 1 = s := List.take_of_length_le (by omega)
          simp [Decimal.digits, Decimal.scientific, single, all]
        · simp only [Decimal.digits, Decimal.scientific, if_neg single, Option.getD_some]
          exact List.take_append_drop 1 s
      rw [whole, Nat.pow_zero, Nat.mul_one]
    · by_cases single : s.length = 1
      · simp [Decimal.scale, Decimal.power, Decimal.scientific, single]
      · simp [Decimal.scale, Decimal.power, Decimal.scientific, single]
        omega

end

/-- Every layout of a floating-point number is a decimal that shows it. -/
theorem exists_layout_eq (c : Nat) (k : Int) :
    ∃ d : Decimal, layout c k = d.text ∧ Shows c k d := by
  have digits := Text.isDigits_ofNat c
  have value := Text.digitsValue_ofNat c
  have some : (Text.ofNat c).length ≠ 0 := by simpa using digits.1
  simp only [layout]
  generalize Text.ofNat c = s at *
  subst value
  generalize htop : k + s.length - 1 = top
  split
  · split
    · next up =>
      obtain ⟨n, rfl⟩ := Int.eq_ofNat_of_zero_le up
      exact ⟨.padded digits n, by simp [Decimal.text, Decimal.fractionText, Decimal.exponentText,
        Decimal.padded, Text.ofString], shows_padded digits n⟩
    split
    · next down inside =>
      have left : top.toNat + 1 < s.length := by omega
      have place : k = (top.toNat + 1 : Nat) - s.length := by omega
      rw [place]
      exact ⟨.pointed digits (top.toNat + 1) (Nat.succ_pos _) left, by simp [Decimal.text,
        Decimal.fractionText, Decimal.exponentText, Decimal.pointed, Text.ofString],
        shows_pointed digits (Nat.succ_pos _) left⟩
    · next down outside =>
      have place : k = -((-top - 1).toNat : Int) - s.length := by omega
      generalize (-top - 1).toNat = n at *
      rw [place]
      exact ⟨.below digits n, by simp [Decimal.text, Decimal.fractionText, Decimal.exponentText,
        Decimal.below, Text.ofString], shows_below digits n⟩
  · have size := Text.isDigits_ofNat top.natAbs
    have sizeValue := Text.digitsValue_ofNat top.natAbs
    generalize Text.ofNat top.natAbs = e at *
    have atLeast := size.twoDigits
    have place : k = (if top < 0 then -(e.twoDigits.digitsValue : Int) else
        e.twoDigits.digitsValue) - (s.length - 1) := by
      rw [Text.digitsValue_twoDigits, sizeValue]
      split <;> omega
    rw [place]
    have shows := shows_scientific digits (top < 0) atLeast
    refine ⟨.scientific digits (top < 0) atLeast, ?_, by simpa using shows⟩
    by_cases single : s.length = 1 <;> by_cases down : top < 0 <;>
      simp [Decimal.text, Decimal.fractionText, Decimal.exponentText, Decimal.scientific,
        Text.ofString, Text.twoDigits, single, down]

end Binary64

end SchemaTypings
