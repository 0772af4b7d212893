import Mathlib.Algebra.Group.Nat.Defs
import Mathlib.Data.List.Induction
import SchemaTypings.Proofs.Lexing
import SchemaTypings.Proofs.Outcomes

/-!
Escapes with a number that is far beyond all code points. They are the only text at which the lexer
gives up with an error of another kind than that of malformed text.
-/

namespace SchemaTypings

/-! ### The size of a number -/

namespace Numeral

theorem value_lt {base : Nat} {ds : List Nat} (h : ∀ d ∈ ds, d < base) :
    value base ds < base ^ ds.length := by
  induction ds using List.reverseRecOn with
  | nil => simp
  | append_singleton ds d ih =>
    have smaller := ih fun e he => h e (by simp [he])
    have digit := h d (by simp)
    rw [value_append_singleton, List.length_append, List.length_singleton, Nat.pow_succ]
    calc value base ds * base + d < value base ds * base + base := by omega
      _ = (value base ds + 1) * base := by rw [Nat.add_mul, Nat.one_mul]
      _ ≤ base ^ ds.length * base := Nat.mul_le_mul_right _ smaller

/-- The pieces of a text hold no more than the text. -/
theorem length_flatten_splitWhere (p : CodePoint → Bool) (s : Text) :
    (Text.splitWhere p s).flatten.length ≤ s.length := by
  induction s with
  | nil => simp [Text.splitWhere]
  | cons c s ih =>
    rw [Text.splitWhere]
    split
    · simp
    · next piece pieces eq =>
      rw [eq] at ih
      split
      · simpa using Nat.le_succ_of_le ih
      · simpa using ih

theorem bounds_of_digits? {base : Nat} {s : Text} {ds : List Nat} (h : digits? base s = some ds) :
    ds.length ≤ s.length ∧ ∀ d ∈ ds, d < base := by
  have values : ∀ (t : Text) (ds : List Nat),
      t.mapM (fun c : CodePoint => c.digitValue?.filter (· < base)) = some ds →
        ds.length = t.length ∧ ∀ d ∈ ds, d < base := by
    intro t
    induction t with
    | nil =>
      intro ds h
      cases h
      simp
    | cons c t ih =>
      intro ds h
      simp only [List.mapM_cons, Option.bind_eq_bind, Option.bind_eq_some_iff] at h
      obtain ⟨d, hd, es, hes, eq⟩ := h
      cases eq
      obtain ⟨length, small⟩ := ih es hes
      have digit := (Option.filter_eq_some_iff.1 hd).2
      exact ⟨by simp [length], by simpa using ⟨by simpa using digit, small⟩⟩
  simp only [digits?] at h
  split at h
  · cases h
  · obtain ⟨length, small⟩ := values _ ds h
    exact ⟨length ▸ length_flatten_splitWhere _ s, small⟩

theorem length_sign_le (s : Text) : (sign s).2.length ≤ s.length := by
  unfold sign
  split
  · simp
  · split
    · simp
    · split <;> simp

theorem length_dropMarker_le (base : Nat) (s : Text) : (dropMarker base s).length ≤ s.length := by
  unfold dropMarker
  split
  · split
    · split
      · split
        · simp only [List.length_cons]
          omega
        · simp
      · simp
    · simp
  · simp

theorem length_trim_le (p : CodePoint → Bool) (s : Text) : (s.trim p).length ≤ s.length := by
  rw [Text.trim, Text.trimRight, List.length_reverse]
  have right := (List.dropWhile_sublist (p := p) (l := (s.dropWhile p).reverse)).length_le
  have left := (List.dropWhile_sublist (p := p) (l := s)).length_le
  rw [List.length_reverse] at right
  omega

/-- A number is smaller than the power of the base by the length of its text. -/
theorem natAbs_lt_of_integer? {base : Nat} (hb : 0 < base) {s : Text} {n : Int}
    (h : integer? base s = some n) : n.natAbs < base ^ s.length := by
  simp only [integer?, Option.bind_eq_bind, Option.bind_eq_some_iff] at h
  obtain ⟨ds, digits, eq⟩ := h
  obtain ⟨short, small⟩ := bounds_of_digits? digits
  have length : ds.length ≤ s.length :=
    calc ds.length ≤ _ := short
      _ ≤ _ := length_dropMarker_le ..
      _ ≤ _ := length_sign_le _
      _ ≤ s.length := length_trim_le ..
  have bound := Nat.lt_of_lt_of_le (value_lt small) (Nat.pow_le_pow_right hb length)
  split at eq <;> cases eq <;> omega

end Numeral

/-! ### Escapes that are too large -/

namespace Escape

/-- Whether hexadecimal digits denote a number far beyond all code points. -/
def IsLarge (digits : Text) : Prop :=
  ∃ n, Numeral.integer? 16 digits = some n ∧ (n < -bound ∨ bound ≤ n)

theorem ofHex_eq_tooLarge {digits : Text} {width : Nat} :
    ofHex digits width = .tooLarge ↔ IsLarge digits := by
  unfold ofHex IsLarge
  cases h : Numeral.integer? 16 digits with
  | none => simp
  | some n =>
    dsimp only
    split
    · next large => simpa using large
    · next small =>
      have no : ¬∃ m, some n = some m ∧ (m < -bound ∨ bound ≤ m) := by
        rintro ⟨m, eq, large⟩
        cases eq
        exact small large
      refine ⟨fun eq => ?_, fun large => absurd large no⟩
      split at eq
      · cases eq
      · split at eq <;> cases eq

/-- A few digits are never too large. -/
theorem not_isLarge {digits : Text} (h : digits.length ≤ 4) : ¬IsLarge digits := by
  rintro ⟨n, eq, large⟩
  have small := Numeral.natAbs_lt_of_integer? (by decide) eq
  have most : (16 : Nat) ^ digits.length ≤ 16 ^ 4 := Nat.pow_le_pow_right (by decide) h
  have size : bound = 2147483648 := rfl
  omega

end Escape

/-- A text with an escape whose digits are in braces and too large. -/
def Text.HasLargeEscape (s : Text) : Prop :=
  ∃ digits, Escape.IsLarge digits ∧ ("\\u\x7b" : Text) ++ (digits ++ ("\x7d" : Text)) <:+: s

namespace Text

theorem HasLargeEscape.mono {s t : Text} (h : s.HasLargeEscape) (hs : s <:+: t) :
    t.HasLargeEscape := by
  obtain ⟨digits, large, part⟩ := h
  exact ⟨digits, large, part.trans hs⟩

end Text

/-- The digits of an escape that is too large are in braces. -/
theorem Escape.hasLargeEscape_of_read {s : Text} (h : Escape.read s = .tooLarge) :
    Text.HasLargeEscape (('\\' : CodePoint) :: s) := by
  cases s with
  | nil => cases h
  | cons c rest =>
    rw [read] at h
    cases shape : form c rest with
    | letter =>
      rw [shape] at h
      dsimp only at h
      split at h <;> cases h
    | fixed n =>
      rw [shape] at h
      have few := digitCount?_le (of_form_eq_fixed shape).1
      exact absurd (ofHex_eq_tooLarge.1 h) (not_isLarge (by rw [List.length_take]; omega))
    | braced =>
      rw [shape] at h
      obtain ⟨rfl, brace⟩ := form_eq_braced_iff.1 shape
      obtain ⟨rest, rfl⟩ := List.head?_eq_some_iff.1 brace
      dsimp only at h
      split at h
      · cases h
      · next n found =>
        rw [List.drop_one, List.tail_cons] at h found
        obtain ⟨digits, after, rfl, rfl, -⟩ :=
          Text.exists_of_find? (by simp [Text.ofString]) found
        rw [List.take_left] at h
        refine ⟨digits, ofHex_eq_tooLarge.1 h, [], after, ?_⟩
        rw [List.nil_append, List.append_assoc, List.append_assoc]
        rfl

/-! ### Errors of the lexer -/

namespace Text.HasLargeEscape

variable {s : Text}

theorem cons (h : s.HasLargeEscape) (c : CodePoint) : HasLargeEscape (c :: s) :=
  h.mono (List.suffix_cons c s).isInfix

theorem of_drop {n : Nat} (h : HasLargeEscape (s.drop n)) : s.HasLargeEscape :=
  h.mono (List.drop_suffix n s).isInfix

end Text.HasLargeEscape

section

variable {e : LexError} {s : Text}

theorem hasLargeEscape_of_stringBody {quote : CodePoint} {here : Nat}
    (h : stringBody quote here s = .error e) (large : e.cause = .escapeTooLarge) :
    s.HasLargeEscape := by
  fun_induction stringBody quote here s
  case case1 | case3 | case6 | case8 =>
    cases h
    cases large
  case case2 => cases h
  case case4 ih => exact ((ih (map_eq_error.1 h)).of_drop).cons _
  case case5 ih => exact ((ih h).of_drop).cons _
  case case7 read _ _ => exact Escape.hasLargeEscape_of_read read
  case case9 ih => exact (ih (map_eq_error.1 h)).cons _

theorem hasLargeEscape_of_templateEnd {part : TemplatePart} {outer : List TemplatePart} {here : Nat}
    (h : templateEnd part outer here s = .error e) (large : e.cause = .escapeTooLarge) :
    s.HasLargeEscape := by
  fun_induction templateEnd part outer here s
  case case1 part _ _ =>
    cases h
    cases part <;> cases large
  case case2 => cases h
  case case3 ih => exact ((ih h).of_drop).cons _
  case case4 fails =>
    cases h
    obtain ⟨quote, error, body, rfl⟩ := TemplatePart.exists_of_step_fails fails
    exact (hasLargeEscape_of_stringBody body large).cons _

theorem eq_of_regexEnd {inClass : Bool} {here : Nat} (h : regexEnd inClass here s = .error e) :
    e = ⟨.unterminatedRegex, 0⟩ := by
  fun_induction regexEnd inClass here s
  case case1 | case2 =>
    cases h
    rfl
  case case6 => cases h
  case case3 ih | case4 ih | case5 ih | case7 ih => exact ih h

/-- The lexer fails at an escape that is too large only where there is one. -/
theorem hasLargeEscape_of_read {r : Bool} {c : CodePoint} (h : Lexeme.read r c s = .error e)
    (large : e.cause = .escapeTooLarge) : Text.HasLargeEscape (c :: s) := by
  cases Lexeme.fails_of_read h with
  | comment => cases large
  | string body => exact (hasLargeEscape_of_stringBody body large).cons c
  | template body => exact (hasLargeEscape_of_templateEnd body large).cons c
  | regex body =>
    rw [eq_of_regexEnd body] at large
    cases large

theorem hasLargeEscape_of_lex {r : Bool} {p : Nat} (h : (lex r p s).error? = some e)
    (large : e.cause = .escapeTooLarge) : s.HasLargeEscape := by
  fun_induction lex r p s
  case case1 => cases h
  case case2 read =>
    cases h
    exact hasLargeEscape_of_read read large
  case case3 ih => exact ((ih h).of_drop).cons _
  case case4 ih => exact ((ih h).of_drop).cons _

end

end SchemaTypings
