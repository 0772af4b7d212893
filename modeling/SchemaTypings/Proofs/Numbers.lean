import SchemaTypings.Proofs.Digits
import SchemaTypings.Proofs.Outcomes

/-!
The values of number tokens. A number token has a value unless it is the mark of a base with nothing
but underscores behind it.
-/

namespace SchemaTypings

/-! ### Numbers in base ten -/

/-- A number in base ten as a token may have it, but for underscores: digits of any script, a point
and digits after it if there is a point, and an exponent if there is one. Either side of the point
may have no digits. -/
structure Numeric where
  whole : Text
  point : Text
  exponent : Text
  whole_digits : ∀ c ∈ whole, c.isDecimal = true
  point_digits : point = [] ∨ ∃ ds, point = ('.' : CodePoint) :: ds ∧ ∀ c ∈ ds, c.isDecimal = true
  exponent_digits : exponent = [] ∨ ∃ (mark : CodePoint) (sign ds : Text),
    exponent = mark :: (sign ++ ds) ∧ (mark = 'e' ∨ mark = 'E') ∧
      (sign = [] ∨ sign = "-" ∨ sign = "+") ∧ ds ≠ [] ∧ ∀ c ∈ ds, c.isDecimal = true
  some_digit : whole ≠ [] ∨ point.drop 1 ≠ []

namespace Numeric

/-- The text of the number. -/
def text (d : Numeric) : Text := d.whole ++ (d.point ++ d.exponent)

variable (d : Numeric)

theorem cases_of_mem {c : CodePoint} (h : c ∈ d.text) :
    c.isDecimal = true ∨ c = '.' ∨ (c = 'e' ∨ c = 'E') ∨ c = '-' ∨ c = '+' := by
  simp only [text, List.mem_append] at h
  rcases h with h | h | h
  · exact .inl (d.whole_digits c h)
  · rcases d.point_digits with no | ⟨ds, eq, digits⟩
    · simp [no] at h
    · rw [eq] at h
      rcases List.mem_cons.1 h with rfl | h
      · exact .inr (.inl rfl)
      · exact .inl (digits c h)
  · rcases d.exponent_digits with no | ⟨mark, sign, ds, eq, marks, signs, -, digits⟩
    · simp [no] at h
    · rw [eq] at h
      rcases List.mem_cons.1 h with rfl | h
      · exact .inr (.inr (.inl marks))
      rcases List.mem_append.1 h with h | h
      · rcases signs with rfl | rfl | rfl
        · cases h
        · exact .inr (.inr (.inr (.inl (List.mem_singleton.1 h))))
        · exact .inr (.inr (.inr (.inr (List.mem_singleton.1 h))))
      · exact .inl (digits c h)

theorem notBlank_of_mem {c : CodePoint} (h : c ∈ d.text) : c.isBlankAtNumber = false := by
  have notBlank : c.isBlank = false := by
    rcases d.cases_of_mem h with h | rfl | (rfl | rfl) | rfl | rfl
    · exact (CodePoint.decimalFacts h).notBlank
    all_goals decide
  simp [CodePoint.isBlankAtNumber, notBlank]

theorem ne_of_mem {c : CodePoint} (h : c ∈ d.text) (e : Char)
    (other : (e.toNat < 128 ∧ (e.toNat < 48 ∨ 58 ≤ e.toNat)) ∧
      e ≠ '.' ∧ e ≠ 'e' ∧ e ≠ 'E' ∧ e ≠ '-' ∧ e ≠ '+') : c ≠ e := by
  rcases d.cases_of_mem h with h | rfl | (rfl | rfl) | rfl | rfl
  · exact CodePoint.ne_of_isDecimal h e other.1
  all_goals
    intro eq
    have same := CodePoint.ofChar_inj.1 eq
    simp [← same] at other

/-- A number starts with a digit or with its point. -/
theorem exists_text_eq : ∃ c s, d.text = c :: s ∧ (c.isDecimal = true ∨ c = '.') := by
  cases hw : d.whole with
  | cons c w => exact ⟨c, _, by rw [text, hw]; rfl, .inl (d.whole_digits c (by simp [hw]))⟩
  | nil =>
    rcases d.point_digits with no | ⟨ds, eq, -⟩
    · have some := d.some_digit
      simp [hw, no] at some
    · exact ⟨'.', _, by rw [text, hw, eq]; rfl, .inr rfl⟩

theorem trim_text : d.text.trim CodePoint.isBlankAtNumber = d.text :=
  Text.trim_eq (fun _ h => d.notBlank_of_mem (List.mem_of_mem_head? h))
    fun _ h => d.notBlank_of_mem (List.mem_of_getLast? h)

theorem sign_text : Numeral.sign d.text = (false, d.text) := by
  obtain ⟨c, s, eq, first⟩ := d.exists_text_eq
  have unsigned : c ≠ '-' ∧ c ≠ '+' := by
    rcases first with h | rfl
    · exact ⟨CodePoint.ne_of_isDecimal h '-' (by decide),
        CodePoint.ne_of_isDecimal h '+' (by decide)⟩
    · decide
  simp [eq, Numeral.sign, unsigned]

theorem markedBase?_text : NumberLiteral.markedBase? d.text = none := by
  have mark : ∀ c ∈ d.text, (c ≠ 'x' ∧ c ≠ 'X') ∧ (c ≠ 'b' ∧ c ≠ 'B') ∧ c ≠ 'o' ∧ c ≠ 'O' :=
    fun c h => ⟨⟨d.ne_of_mem h 'x' (by decide), d.ne_of_mem h 'X' (by decide)⟩,
      ⟨d.ne_of_mem h 'b' (by decide), d.ne_of_mem h 'B' (by decide)⟩,
      d.ne_of_mem h 'o' (by decide), d.ne_of_mem h 'O' (by decide)⟩
  match eq : d.text with
  | [] | [_] => rfl
  | z :: m :: tail =>
    have other := mark m (by simp [eq])
    simp [NumberLiteral.markedBase?, other]

theorem all_unmarked : (d.whole ++ d.point).all (fun c => !(c = 'e' || c = 'E')) = true := by
  have digit {c : CodePoint} (h : c.isDecimal = true) : (!(c = 'e' || c = 'E')) = true := by
    simp [CodePoint.ne_of_isDecimal h 'e' (by decide), CodePoint.ne_of_isDecimal h 'E' (by decide)]
  refine List.all_eq_true.2 fun c hc => ?_
  rcases List.mem_append.1 hc with hc | hc
  · exact digit (d.whole_digits c hc)
  · rcases d.point_digits with no | ⟨ds, eq, digits⟩
    · simp [no] at hc
    · rw [eq] at hc
      rcases List.mem_cons.1 hc with rfl | hc
      · decide
      · exact digit (digits c hc)

theorem run?_isSome {s : Text} (h : ∀ c ∈ s, c.isDecimal = true) :
    ∃ ds, Binary64.run? s = some ds ∧ (s ≠ [] → ds ≠ []) := by
  cases s with
  | nil => exact ⟨[], rfl, by simp⟩
  | cons c s =>
    obtain ⟨ds, found, some⟩ := Numeral.exists_digits? 10 (List.cons_ne_nil c s) fun c hc =>
      ⟨CodePoint.ne_of_isDecimal (h c hc) '_' (by decide), (CodePoint.decimalFacts (h c hc)).value⟩
    exact ⟨ds, by simp [Binary64.run?, found], fun _ => some⟩

/-- The parts of a number are read apart. -/
theorem magnitude?_text : Binary64.magnitude? false d.text = (do
    let exponent ← match d.exponent with
      | [] => some 0
      | _ :: tail => (Numeral.digits? 10 (Numeral.sign tail).2).map fun ds =>
        if (Numeral.sign tail).1 then -(Numeral.value 10 ds : Int) else Numeral.value 10 ds
    let whole ← Binary64.run? d.whole
    let fraction ← Binary64.run? (d.point.drop 1)
    if whole.isEmpty && fraction.isEmpty then none
    else some (Binary64.ofDecimal false (Numeral.value 10 (whole ++ fraction))
      (exponent - fraction.length))) := by
  have split : d.text = (d.whole ++ d.point) ++ d.exponent := by simp [text]
  have marked : ∀ c ∈ d.exponent.head?, (!(c = 'e' || c = 'E')) = false := by
    rcases d.exponent_digits with no | ⟨mark, sign, ds, eq, marks, -⟩
    · simp [no]
    · rcases marks with rfl | rfl <;> simp [eq]
  have unpointed : d.whole.all (fun c => !decide (c = '.')) = true :=
    List.all_eq_true.2 fun c hc => by
      simp [CodePoint.ne_of_isDecimal (d.whole_digits c hc) '.' (by decide)]
  have pointed : ∀ c ∈ d.point.head?, (!decide (c = '.')) = false := by
    rcases d.point_digits with no | ⟨ds, eq, -⟩
    · simp [no]
    · simp [eq]
  unfold Binary64.magnitude?
  simp only [split, Text.takeWhile_stops d.all_unmarked marked,
    Text.dropWhile_stops d.all_unmarked marked, Text.takeWhile_stops unpointed pointed,
    Text.dropWhile_stops unpointed pointed]
  cases d.exponent <;> rfl

/-- A number has all the parts that a floating-point number takes. -/
theorem magnitude?_isSome : (Binary64.magnitude? false d.text).isSome = true := by
  obtain ⟨whole, hw, someWhole⟩ := run?_isSome d.whole_digits
  obtain ⟨fraction, hf, someFraction⟩ : ∃ fs, Binary64.run? (d.point.drop 1) = some fs ∧
      (d.point.drop 1 ≠ [] → fs ≠ []) := by
    rcases d.point_digits with no | ⟨ds, eq, digits⟩
    · exact ⟨[], by simp [no, Binary64.run?], by simp [no]⟩
    · simpa [eq] using run?_isSome digits
  have digit : ¬(whole = [] ∧ fraction = []) := fun no => d.some_digit.elim
    (fun h => someWhole h no.1) fun h => someFraction h no.2
  rw [magnitude?_text, hw, hf]
  rcases d.exponent_digits with no | ⟨mark, sign, ds, eq, -, signs, some, digits⟩
  · simpa [no] using digit
  · obtain ⟨e, he, -⟩ := Numeral.exists_digits? 10 some fun c hc =>
      ⟨CodePoint.ne_of_isDecimal (digits c hc) '_' (by decide),
        (CodePoint.decimalFacts (digits c hc)).value⟩
    have signed : ∃ down, Numeral.sign (sign ++ ds) = (down, ds) := by
      rcases signs with rfl | rfl | rfl
      · cases ds with
        | nil => exact absurd rfl some
        | cons c ds =>
          have plus := CodePoint.ne_of_isDecimal (digits c (by simp)) '+' (by decide)
          have minus := CodePoint.ne_of_isDecimal (digits c (by simp)) '-' (by decide)
          exact ⟨false, by simp [Numeral.sign, plus, minus]⟩
      · exact ⟨true, rfl⟩
      · exact ⟨false, rfl⟩
    obtain ⟨down, signed⟩ := signed
    simpa [eq, signed, he] using digit

/-- A text that is such a number without its underscores and its suffix has a value. -/
theorem value?_isSome {s : Text}
    (h : Text.trimRight (· = 'n') (s.filter (· ≠ '_')) = d.text) :
    (NumberLiteral.value? s).isSome = true := by
  simp only [NumberLiteral.value?, h, d.markedBase?_text]
  split
  · rw [Option.isSome_map, Binary64.read?, d.trim_text, d.sign_text]
    exact d.magnitude?_isSome
  · next plain =>
    have whole : d.point = [] ∧ d.exponent = [] := by
      constructor
      · rcases d.point_digits with no | ⟨ds, eq, -⟩
        · exact no
        · simp [text, eq] at plain
      · rcases d.exponent_digits with no | ⟨mark, sign, ds, eq, marks, -⟩
        · exact no
        · rcases marks with rfl | rfl <;> simp [text, eq] at plain
    have some : d.whole ≠ [] := by simpa [whole.1] using d.some_digit
    have same : d.text = d.whole := by simp [text, whole]
    obtain ⟨ds, found, -⟩ := Numeral.exists_digits? 10 some fun c hc =>
      ⟨CodePoint.ne_of_isDecimal (d.whole_digits c hc) '_' (by decide),
        (CodePoint.decimalFacts (d.whole_digits c hc)).value⟩
    rw [Option.isSome_map, Numeral.integer?, d.trim_text, d.sign_text, same]
    simp [Numeral.dropMarker, Numeral.marker?, found]

end Numeric

/-! ### Number tokens in base ten -/

namespace NumberLiteral

variable {s : Text}

/-- A text without its underscores. -/
def unbarred (s : Text) : Text := s.filter fun c : CodePoint => c ≠ '_'

@[simp] theorem unbarred_nil : unbarred [] = [] := rfl

@[simp] theorem unbarred_append (s t : Text) : unbarred (s ++ t) = unbarred s ++ unbarred t :=
  List.filter_append ..

theorem unbarred_cons {c : CodePoint} (h : c ≠ '_') (s : Text) :
    unbarred (c :: s) = c :: unbarred s :=
  List.filter_cons_of_pos (by simpa using h)

/-- A run of digits and underscores has only digits left without the underscores. -/
theorem isDecimal_of_mem_filter {t : Text} (h : ∀ c ∈ t, isDigitOrBar c = true) :
    ∀ c ∈ unbarred t, c.isDecimal = true := by
  intro c hc
  obtain ⟨mem, bar⟩ := List.mem_filter.1 hc
  have digit := h c mem
  simp only [isDigitOrBar, Bool.or_eq_true, decide_eq_true_eq] at digit
  exact digit.resolve_right (by simpa using bar)

theorem filter_of_isDecimal {t : Text} (h : ∀ c ∈ t, c.isDecimal = true) :
    unbarred t = t :=
  List.filter_eq_self.2 fun c hc => by
    simpa using CodePoint.ne_of_isDecimal (h c hc) '_' (by decide)

theorem unbarred_digits (some : digitsWidth s ≠ 0) :
    (∀ c ∈ unbarred (s.take (digitsWidth s)), c.isDecimal = true) ∧
      unbarred (s.take (digitsWidth s)) ≠ [] := by
  obtain ⟨c, run, rest, rfl, width, digit, all, -⟩ := Text.exists_run some
  have bar := CodePoint.ne_of_isDecimal digit '_' (by decide)
  rw [digitsWidth, width, List.take_succ_cons, List.take_left, unbarred_cons bar]
  exact ⟨List.forall_mem_cons.2 ⟨digit, isDecimal_of_mem_filter all⟩, List.cons_ne_nil _ _⟩

theorem unbarred_fraction (some : fractionWidth s ≠ 0) :
    ∃ digits, unbarred (s.take (fractionWidth s)) = ('.' : CodePoint) :: digits ∧
      (∀ c ∈ digits, c.isDecimal = true) ∧
      (s.tail.head?.any CodePoint.isDecimal = true → digits ≠ []) := by
  obtain ⟨c, run, rest, rfl, width, point, all, same⟩ := Text.exists_run some
  obtain rfl := of_decide_eq_true point
  refine ⟨unbarred run, ?_, isDecimal_of_mem_filter all, fun first none => ?_⟩
  · rw [fractionWidth, width, List.take_succ_cons, List.take_left, unbarred_cons (by decide)]
  · -- The digit behind the point is one of the run.
    cases tail : run ++ rest with
    | nil => simp [tail] at first
    | cons d more =>
      have digit : d.isDecimal = true := by simpa [tail] using first
      have mem : d ∈ unbarred run := by
        refine List.mem_filter.2 ⟨?_, by simpa using CodePoint.ne_of_isDecimal digit '_' (by decide)⟩
        rw [← same, tail, List.takeWhile_cons_of_pos (by rw [isDigitOrBar, digit, Bool.true_or])]
        exact List.mem_cons_self
      rw [none] at mem
      cases mem

/-- The mantissa of a number is its whole digits and its point. -/
theorem exists_mantissa (h : mantissaWidth s ≠ 0) :
    ∃ whole point : Text, unbarred (s.take (mantissaWidth s)) = whole ++ point ∧
      (∀ c ∈ whole, c.isDecimal = true) ∧
      (point = [] ∨ ∃ ds, point = ('.' : CodePoint) :: ds ∧ ∀ c ∈ ds, c.isDecimal = true) ∧
      (whole ≠ [] ∨ point.drop 1 ≠ []) := by
  unfold mantissaWidth at h ⊢
  dsimp only at h ⊢
  split at h
  · next whole =>
    obtain ⟨digits, some⟩ := unbarred_digits whole
    rw [if_pos whole]
    refine ⟨_, unbarred ((s.drop (digitsWidth s)).take (fractionWidth (s.drop (digitsWidth s)))),
      by rw [List.take_add, unbarred_append], digits, ?_, .inl some⟩
    by_cases none : fractionWidth (s.drop (digitsWidth s)) = 0
    · rw [none]
      exact .inl rfl
    · obtain ⟨ds, eq, decimals, -⟩ := unbarred_fraction none
      exact .inr ⟨ds, eq, decimals⟩
  next noWhole =>
  split at h
  · next first =>
    obtain ⟨ds, eq, decimals, some⟩ := unbarred_fraction h
    rw [if_neg noWhole, if_pos first]
    exact ⟨[], _, (List.nil_append _).symm, nofun, .inr ⟨ds, eq, decimals⟩,
      .inr (by rw [eq]; exact some first)⟩
  · exact absurd rfl h

/-- Behind the mark of an exponent there may be a sign, and the digits start behind it. -/
theorem exists_sign {mark : CodePoint} (marks : mark = 'e' ∨ mark = 'E') (rest : Text) :
    ∃ sign tail : Text, rest = sign ++ tail ∧ (sign = [] ∨ sign = "-" ∨ sign = "+") ∧
      exponentWidth (mark :: rest) = if (tail.takeWhile CodePoint.isDecimal).length = 0 then 0
        else 1 + sign.length + (tail.takeWhile CodePoint.isDecimal).length := by
  cases rest with
  | nil => exact ⟨[], [], rfl, .inl rfl, by simp [exponentWidth]⟩
  | cons d rest =>
    by_cases plus : d = '+'
    · subst plus
      exact ⟨"+", rest, rfl, .inr (.inr rfl), by simp [exponentWidth, marks]; rfl⟩
    by_cases minus : d = '-'
    · subst minus
      exact ⟨"-", rest, rfl, .inr (.inl rfl), by simp [exponentWidth, marks]; rfl⟩
    · exact ⟨[], d :: rest, rfl, .inl rfl, by simp [exponentWidth, marks, plus, minus]⟩

/-- The exponent of a number, if it has one, is a mark, a sign and digits. -/
theorem exists_exponent (s : Text) :
    ∃ exponent : Text, unbarred (s.take (exponentWidth s)) = exponent ∧
      (exponent = [] ∨ ∃ (mark : CodePoint) (sign ds : Text),
        exponent = mark :: (sign ++ ds) ∧ (mark = 'e' ∨ mark = 'E') ∧
          (sign = [] ∨ sign = "-" ∨ sign = "+") ∧ ds ≠ [] ∧ ∀ c ∈ ds, c.isDecimal = true) := by
  refine ⟨_, rfl, ?_⟩
  by_cases none : exponentWidth s = 0
  · exact .inl (by rw [none]; rfl)
  cases s with
  | nil => exact absurd rfl none
  | cons mark rest =>
    by_cases marks : mark = 'e' ∨ mark = 'E'
    · obtain ⟨sign, tail, rfl, signs, width⟩ := exists_sign marks rest
      obtain ⟨ds, tail, rfl, taken, digits⟩ := Text.exists_takeWhile CodePoint.isDecimal tail
      rw [taken] at width
      have some : ds.length ≠ 0 := fun no => none (by rw [width, if_pos no])
      have bar : mark ≠ '_' := by rcases marks with rfl | rfl <;> decide
      have kept : unbarred ds = ds := filter_of_isDecimal digits
      have sign_kept : unbarred sign = sign := by rcases signs with rfl | rfl | rfl <;> rfl
      have whole : (mark :: (sign ++ (ds ++ tail))).take (1 + sign.length + ds.length) =
          mark :: (sign ++ ds) := by
        rw [Nat.add_assoc, Nat.add_comm 1, List.take_succ_cons, ← List.append_assoc,
          List.take_left' (by simp)]
      refine .inr ⟨mark, sign, ds, ?_, marks, signs, fun no => some (by simp [no]), digits⟩
      rw [width, if_neg some, whole, unbarred_cons bar, unbarred_append, kept, sign_kept]
    · exact absurd (by simp [exponentWidth, marks]) none

/-- The text of a number token in base ten is such a number without its underscores and suffix. -/
theorem exists_numeric (h : width s ≠ 0) (based : basedWidth s = 0) :
    ∃ d : Numeric, Text.trimRight (· = 'n') (unbarred (s.take (width s))) = d.text := by
  have some : mantissaWidth s ≠ 0 := fun no => h (by simp [width, based, no])
  obtain ⟨whole, point, mantissa, whole_digits, point_digits, some_digit⟩ := exists_mantissa some
  obtain ⟨exponent, eq, exponent_digits⟩ := exists_exponent (s.drop (mantissaWidth s))
  let d : Numeric :=
    ⟨whole, point, exponent, whole_digits, point_digits, exponent_digits, some_digit⟩
  obtain ⟨n, total, suffix⟩ : ∃ n, width s =
      mantissaWidth s + (exponentWidth (s.drop (mantissaWidth s)) + n) ∧
      ∃ k, unbarred (((s.drop (mantissaWidth s)).drop
        (exponentWidth (s.drop (mantissaWidth s)))).take n) =
          List.replicate k ('n' : CodePoint) := by
    simp only [width, based, ne_eq, not_true_eq_false, if_false, some, List.drop_drop]
    refine ⟨_, Nat.add_assoc .., ?_⟩
    split
    · next c tail found =>
      rw [found]
      split
      · next hc => exact ⟨1, by rw [hc]; rfl⟩
      · exact ⟨0, rfl⟩
    · exact ⟨0, rfl⟩
  obtain ⟨k, suffix⟩ := suffix
  have parts : unbarred (s.take (width s)) = d.text ++ List.replicate k ('n' : CodePoint) := by
    rw [total, List.take_add, List.take_add, unbarred_append, unbarred_append, mantissa, eq, suffix]
    simp [d, Numeric.text]
  have last : ∀ c ∈ d.text.getLast?, decide (c = 'n') = false := fun c hc => by
    simpa using d.ne_of_mem (List.mem_of_getLast? hc) 'n' (by decide)
  refine ⟨d, ?_⟩
  rw [parts, Text.trimRight, List.reverse_append, List.reverse_replicate,
    List.dropWhile_append_of_pos (by simp)]
  exact Text.trimRight_eq last

/-! ### Number tokens in other bases -/

/-- What a digit of a number in another base is, and what it is not. -/
structure BaseDigit (base : Nat) (c : CodePoint) : Prop where
  notSuffix : c ≠ 'n'
  notBlank : c.isBlankAtNumber = false
  notSign : c ≠ '-' ∧ c ≠ '+'
  notMarker : ∀ letter ∈ Numeral.marker? base, c ≠ letter ∧ c.val + 32 ≠ letter.val
  value : (c.digitValue?.any (· < base)) = true

instance (base : Nat) (c : CodePoint) : Decidable (BaseDigit base c) :=
  decidable_of_iff (c ≠ 'n' ∧ c.isBlankAtNumber = false ∧ (c ≠ '-' ∧ c ≠ '+') ∧
      (∀ letter ∈ Numeral.marker? base, c ≠ letter ∧ c.val + 32 ≠ letter.val) ∧
      (c.digitValue?.any (· < base)) = true)
    ⟨fun h => ⟨h.1, h.2.1, h.2.2.1, h.2.2.2.1, h.2.2.2.2⟩,
      fun h => ⟨h.notSuffix, h.notBlank, h.notSign, h.notMarker, h.value⟩⟩

/-- A mark has a base, in which each digit that may follow it has a value. -/
theorem exists_base {mark : CodePoint} {isDigit : CodePoint → Bool}
    (h : isBaseDigit? mark = some isDigit) :
    ∃ base, (∀ t, markedBase? (('0' : CodePoint) :: mark :: t) = some base) ∧
      ∀ c, isDigit c = true → c = '_' ∨ BaseDigit base c := by
  have digits (base : Nat) (isDigit : CodePoint → Bool)
      (small : ∀ c, isDigit c = true → c.val < 128)
      (all : ∀ n : Fin 128, isDigit ⟨n, by omega⟩ = true →
        (⟨n, by omega⟩ : CodePoint) = '_' ∨ BaseDigit base ⟨n, by omega⟩) :
      ∀ c, isDigit c = true → c = '_' ∨ BaseDigit base c :=
    fun c hc => all ⟨c.val, small c hc⟩ hc
  have between {c : CodePoint} {low high : Char} (hc : c.isBetween low high = true)
      (hh : high.toNat < 128) : c.val < 128 := by
    simp only [CodePoint.isBetween, Bool.and_eq_true, decide_eq_true_eq] at hc
    omega
  unfold isBaseDigit? at h
  split at h
  · next marks =>
    cases h
    refine ⟨16, fun t => by simp [markedBase?, marks],
      digits 16 _ (fun c hc => ?_) (by decide +kernel)⟩
    simp only [Bool.or_eq_true, decide_eq_true_eq] at hc
    rcases hc with ((hc | hc) | hc) | rfl
    · exact between hc (by decide)
    · exact between hc (by decide)
    · exact between hc (by decide)
    · decide
  · next marks =>
    split at h
    · next marks' =>
      cases h
      refine ⟨2, fun t => by simp [markedBase?, marks, marks'],
        digits 2 _ (fun c hc => ?_) (by decide +kernel)⟩
      simp only [Bool.or_eq_true, decide_eq_true_eq] at hc
      rcases hc with (rfl | rfl) | rfl <;> decide
    · next marks' =>
      split at h
      · next marks'' =>
        cases h
        refine ⟨8, fun t => by simp [markedBase?, marks, marks', marks''],
          digits 8 _ (fun c hc => ?_) (by decide +kernel)⟩
        simp only [Bool.or_eq_true, decide_eq_true_eq] at hc
        rcases hc with hc | rfl
        · exact between hc (by decide)
        · decide
      · cases h

/-- Digits in a base denote a number. -/
theorem integer?_isSome {base : Nat} {s : Text} (hs : s ≠ []) (bars : ∀ c ∈ s, c ≠ '_')
    (h : ∀ c ∈ s, BaseDigit base c) : (Numeral.integer? base s).isSome = true := by
  have trimmed : s.trim CodePoint.isBlankAtNumber = s :=
    Text.trim_eq (fun c hc => (h c (List.mem_of_mem_head? hc)).notBlank)
      fun c hc => (h c (List.mem_of_getLast? hc)).notBlank
  have unsigned : Numeral.sign s = (false, s) := by
    cases s with
    | nil => rfl
    | cons c s => simp [Numeral.sign, (h c (by simp)).notSign]
  have unmarked : Numeral.dropMarker base s = s := by
    unfold Numeral.dropMarker
    split
    · next letter z c rest marker =>
      have other := (h c (by simp)).notMarker letter marker
      simp [other]
    · rfl
  obtain ⟨ds, found, -⟩ := Numeral.exists_digits? base hs fun c hc => by
    obtain ⟨v, eq, small⟩ := (Option.any_eq_true _ _).1 (h c hc).value
    exact ⟨bars c hc, v, eq, by simpa using small⟩
  simp [Numeral.integer?, trimmed, unsigned, unmarked, found]

/-- The mark of a base with nothing but underscores behind it. -/
def IsDigitless (s : Text) : Prop :=
  ∃ (mark : CodePoint) (bars : Text), s = ('0' : CodePoint) :: mark :: bars ∧
    (isBaseDigit? mark).isSome = true ∧ bars ≠ [] ∧ ∀ c ∈ bars, c = '_'

/-- The value of a marked number is that of its digits in the marked base. -/
theorem value?_marked {mark : CodePoint} {base : Nat} {digits : Text}
    (marks : (isBaseDigit? mark).isSome = true)
    (based : ∀ t, markedBase? (('0' : CodePoint) :: mark :: t) = some base)
    (h : ∀ c ∈ unbarred digits, BaseDigit base c) :
    value? (('0' : CodePoint) :: mark :: digits) =
      (Numeral.integer? base (unbarred digits)).map .int := by
  have bar : mark ≠ '_' := by rintro rfl; cases marks
  have suffix : mark ≠ 'n' := by rintro rfl; cases marks
  have kept : unbarred (('0' : CodePoint) :: mark :: digits) =
      ('0' : CodePoint) :: mark :: unbarred digits := by
    rw [unbarred_cons (by decide), unbarred_cons bar]
  have bare : Text.trimRight (fun c : CodePoint => c = 'n')
      ((('0' : CodePoint) :: mark :: digits).filter fun c : CodePoint => c ≠ '_') =
        ('0' : CodePoint) :: mark :: unbarred digits := by
    refine Eq.trans (congrArg (Text.trimRight _) kept) (Text.trimRight_eq fun c hc => ?_)
    rcases List.mem_cons.1 (List.mem_of_getLast? hc) with rfl | hc
    · decide
    rcases List.mem_cons.1 hc with rfl | hc
    · simpa using suffix
    · simpa using (h c hc).notSuffix
  simp only [value?, bare, based]
  rfl

theorem value?_of_isDigitless {t : Text} (h : IsDigitless t) : value? t = none := by
  obtain ⟨mark, bars, rfl, marks, -, all⟩ := h
  obtain ⟨isDigit, digit⟩ := Option.isSome_iff_exists.1 marks
  obtain ⟨base, based, -⟩ := exists_base digit
  have none : unbarred bars = [] := List.filter_eq_nil_iff.2 fun c hc => by simpa using all c hc
  rw [value?_marked marks based (by simp [none]), none]
  simp [Numeral.integer?, Text.trim, Text.trimRight, Numeral.sign, Numeral.dropMarker,
    Numeral.digits?, Text.splitOn, Text.splitWhere]

/-- A number token in another base is its mark and digits, or underscores. -/
theorem exists_based (h : basedWidth s ≠ 0) :
    ∃ mark isDigit digits, isBaseDigit? mark = some isDigit ∧ digits ≠ [] ∧
      (∀ c ∈ digits, isDigit c = true) ∧
      s.take (basedWidth s) = ('0' : CodePoint) :: mark :: digits := by
  match s with
  | [] | [_] => exact absurd rfl h
  | z :: mark :: rest =>
    by_cases zero : z = '0'
    · subst zero
      cases digit : isBaseDigit? mark with
      | none => exact absurd (by simp [basedWidth, digit]) h
      | some isDigit =>
        obtain ⟨digits, tail, rfl, taken, all⟩ := Text.exists_takeWhile isDigit rest
        have width : basedWidth (('0' : CodePoint) :: mark :: (digits ++ tail)) =
            if digits.isEmpty then 0 else digits.length + 2 := by
          simp only [basedWidth, if_true, digit, taken]
        have some : digits ≠ [] := fun no => h (by rw [width, no]; rfl)
        refine ⟨mark, isDigit, digits, digit, some, all, ?_⟩
        rw [width, if_neg (by simpa using some)]
        simp
    · exact absurd (by simp [basedWidth, zero]) h

/-- A number token has no value exactly if it has no digits. -/
theorem value?_eq_none_iff (h : width s ≠ 0) :
    value? (s.take (width s)) = none ↔ IsDigitless (s.take (width s)) := by
  refine ⟨fun none => ?_, value?_of_isDigitless⟩
  by_cases unbased : basedWidth s = 0
  · obtain ⟨d, eq⟩ := exists_numeric h unbased
    have some := d.value?_isSome eq
    rw [none] at some
    cases some
  · have width : width s = basedWidth s := by rw [NumberLiteral.width, if_pos unbased]
    obtain ⟨mark, isDigit, digits, digit, some, all, eq⟩ := exists_based unbased
    rw [width, eq] at none ⊢
    obtain ⟨base, based, cases⟩ := exists_base digit
    have marks : (isBaseDigit? mark).isSome = true := by rw [digit]; rfl
    have kept {c : CodePoint} (hc : c ∈ unbarred digits) : c ∈ digits ∧ c ≠ '_' := by
      simpa [unbarred] using hc
    have baseDigits : ∀ c ∈ unbarred digits, BaseDigit base c := fun c hc =>
      (cases c (all c (kept hc).1)).resolve_left (kept hc).2
    rw [value?_marked marks based baseDigits, Option.map_eq_none_iff] at none
    have bars : unbarred digits = [] := by
      refine Decidable.byContradiction fun some => ?_
      have found := integer?_isSome some (fun c hc => (kept hc).2) baseDigits
      rw [none] at found
      cases found
    refine ⟨mark, digits, rfl, marks, some, fun c hc => ?_⟩
    simpa using List.filter_eq_nil_iff.1 bars c hc

/-- A number token is as wide as the number where it starts. -/
theorem width_of_read {r : Bool} {c : CodePoint} {rest v : Text} {w : Nat}
    (h : Lexeme.read r c rest = .ok (.token .number v w)) :
    width (c :: rest) ≠ 0 ∧ v = (c :: rest).take (width (c :: rest)) := by
  have plain := Lexeme.plain_of_read h (by decide)
  unfold Lexeme.plain at plain
  dsimp only at plain
  split at plain
  · next some =>
    cases plain
    exact ⟨some, rfl⟩
  split at plain
  · cases plain
  split at plain
  · next mark =>
    cases plain
    exact absurd rfl (Lexeme.kind_of_mark? mark).2.1
  split at plain
  · cases plain
  · injection plain with kind
    split at kind <;> cases kind

/-- A number token without a value has no digits. -/
theorem isDigitless_of_mem_lex {r : Bool} {p : Nat} {t : Token} (h : t ∈ (lex r p s).tokens)
    (number : t.kind = .number) (none : value? t.value = none) :
    IsDigitless t.value ∧ t.value <:+: s := by
  obtain ⟨r, c, rest, w, place, read⟩ := exists_read_of_mem_lex h (by simp [number])
  rw [number] at read
  obtain ⟨some, eq⟩ := width_of_read read
  rw [eq] at none ⊢
  exact ⟨(value?_eq_none_iff some).1 none, (List.take_prefix ..).isInfix.trans place.isInfix⟩

end NumberLiteral

end SchemaTypings
