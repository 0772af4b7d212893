import Mathlib.Data.List.Chain
import SchemaTypings.Proofs.JoinedLines

/-!
What the case styles make of a name. Whatever the name is, its words come out as runs of small
letters and digits, with exactly one separator between neighbours in the styles that have one, and a
name that is in such a style already stays as it is. In Pascal case it can name an interface.
-/

namespace SchemaTypings

/-! ### The letters and digits of ASCII -/

namespace CodePoint

variable {c d : CodePoint}

theorem val_asciiLower (c : CodePoint) :
    c.asciiLower.val = if 65 ≤ c.val ∧ c.val ≤ 90 then c.val + 32 else c.val := by
  simp only [← isAsciiUpper_iff, asciiLower]
  split <;> rfl

theorem val_asciiUpper (c : CodePoint) :
    c.asciiUpper.val = if 97 ≤ c.val ∧ c.val ≤ 122 then c.val - 32 else c.val := by
  simp only [← isAsciiLower_iff, asciiUpper]
  split <;> rfl

theorem asciiLower_of_not_upper (h : c.isAsciiUpper = false) : c.asciiLower = c := by
  rw [asciiLower, dif_neg (by simp [h])]

theorem asciiUpper_of_upper_or_digit (h : c.isAsciiUpper = true ∨ c.isAsciiDigit = true) :
    c.asciiUpper = c := by
  rw [isAsciiUpper_iff, isAsciiDigit_iff] at h
  rw [asciiUpper, if_neg]
  rw [isAsciiLower_iff]
  omega

theorem not_digit_of_upper (h : c.isAsciiUpper = true) : c.isAsciiDigit = false := by
  rw [isAsciiUpper_iff] at h
  rw [← Bool.not_eq_true, isAsciiDigit_iff]
  omega

@[simp] theorem asciiUpper_asciiLower (c : CodePoint) : c.asciiLower.asciiUpper = c.asciiUpper := by
  apply ext_val
  have lower := val_asciiLower c
  rw [val_asciiUpper, val_asciiUpper]
  split at lower <;> split <;> split <;> omega

@[simp] theorem asciiLower_asciiLower (c : CodePoint) : c.asciiLower.asciiLower = c.asciiLower := by
  apply ext_val
  have lower := val_asciiLower c
  rw [val_asciiLower c.asciiLower]
  split at lower <;> split <;> omega

theorem asciiLower_eq_self_iff : c.asciiLower = c ↔ c.isAsciiUpper = false := by
  refine ⟨fun same => ?_, asciiLower_of_not_upper⟩
  have val := val_asciiLower c
  rw [same] at val
  rw [← Bool.not_eq_true, isAsciiUpper_iff]
  split at val <;> omega

/-- A small letter or a digit, such as the words of a name are made of. -/
def IsSmall (c : CodePoint) : Prop := c.isAsciiLower = true ∨ c.isAsciiDigit = true

/-- A letter or a digit. -/
def IsPlain (c : CodePoint) : Prop := c.isAsciiLetter = true ∨ c.isAsciiDigit = true

instance (c : CodePoint) : Decidable c.IsSmall := inferInstanceAs (Decidable (_ ∨ _))

instance (c : CodePoint) : Decidable c.IsPlain := inferInstanceAs (Decidable (_ ∨ _))

theorem isSmall_iff : c.IsSmall ↔ 97 ≤ c.val ∧ c.val ≤ 122 ∨ 48 ≤ c.val ∧ c.val ≤ 57 := by
  rw [IsSmall, isAsciiLower_iff, isAsciiDigit_iff]

theorem isPlain_iff : c.IsPlain ↔
    97 ≤ c.val ∧ c.val ≤ 122 ∨ 65 ≤ c.val ∧ c.val ≤ 90 ∨ 48 ≤ c.val ∧ c.val ≤ 57 := by
  rw [IsPlain, isAsciiLetter, Bool.or_eq_true, isAsciiLower_iff, isAsciiUpper_iff, isAsciiDigit_iff,
    or_assoc]

theorem IsSmall.isPlain (h : c.IsSmall) : c.IsPlain := by
  rw [isPlain_iff]
  rw [isSmall_iff] at h
  omega

theorem IsPlain.isSmall_or_upper (h : c.IsPlain) : c.IsSmall ∨ c.isAsciiUpper = true := by
  rw [isPlain_iff] at h
  rw [isSmall_iff, isAsciiUpper_iff]
  omega

theorem IsPlain.notBar (h : c.IsPlain) : c ≠ '_' := by
  rintro rfl
  exact absurd (isPlain_iff.1 h) (by decide)

theorem IsPlain.notHyphen (h : c.IsPlain) : c ≠ '-' := by
  rintro rfl
  exact absurd (isPlain_iff.1 h) (by decide)

theorem IsSmall.not_upper (h : c.IsSmall) : c.isAsciiUpper = false := by
  rw [← Bool.not_eq_true, isAsciiUpper_iff]
  rw [isSmall_iff] at h
  omega

theorem IsPlain.asciiLower (h : c.IsPlain) : c.asciiLower.IsSmall := by
  have val := val_asciiLower c
  rw [isPlain_iff] at h
  rw [isSmall_iff]
  split at val <;> omega

theorem IsPlain.asciiUpper (h : c.IsPlain) : c.asciiUpper.IsPlain := by
  have val := val_asciiUpper c
  rw [isPlain_iff] at h ⊢
  split at val <;> omega

/-- The capital form of a small letter is a capital, and that of a digit is the digit. -/
theorem IsSmall.asciiUpper (h : c.IsSmall) :
    c.asciiUpper.isAsciiUpper = true ∨ c.asciiUpper.isAsciiDigit = true := by
  have val := val_asciiUpper c
  rw [isSmall_iff] at h
  rw [isAsciiUpper_iff, isAsciiDigit_iff]
  split at val <;> omega

/-- Small forms tell bars and other code points apart. -/
theorem asciiLower_eq_bar_iff : c.asciiLower = '_' ↔ c = '_' := by
  constructor
  · intro h
    have val := val_asciiLower c
    have bar : (ofChar '_').val = 95 := rfl
    rw [h, bar] at val
    apply ext_val
    rw [bar]
    split at val <;> omega
  · rintro rfl
    rfl

end CodePoint

namespace Text

/-! ### Cleaned names -/

/-- Letters, digits and separators, with no separator at either end. -/
structure IsClean (s : Text) : Prop where
  parts : ∀ c ∈ s, c.IsPlain ∨ c = '_' ∨ c = '-'
  some : s ≠ []
  first : ∀ c ∈ s.head?, c.IsPlain
  last : ∀ c ∈ s.getLast?, c.IsPlain

theorem isClean_clean (s : Text) : (clean s).IsClean := by
  rw [clean]
  split
  · constructor <;> decide
  · next some =>
    have parts : ∀ c ∈ trim (fun c => c = '_' || c = '-') (s.map fun c : CodePoint =>
        if c.isAsciiLetter || c.isAsciiDigit || c = '_' || c = '-' then c else '_'),
        c.IsPlain ∨ c = '_' ∨ c = '-' := by
      intro c hc
      obtain ⟨d, -, rfl⟩ := List.mem_map.1 (mem_of_mem_trim hc)
      split
      · next kept =>
        simp only [Bool.or_eq_true, decide_eq_true_eq, or_assoc] at kept
        rw [CodePoint.IsPlain, or_assoc]
        exact kept
      · exact .inr (.inl rfl)
    have plain {c : CodePoint} (hc : c.IsPlain ∨ c = '_' ∨ c = '-')
        (inner : (c = '_' || c = '-') = false) : c.IsPlain := by
      simpa using hc.resolve_right (by simpa using inner)
    refine ⟨parts, by simpa using some, ?_, ?_⟩
    · intro c hc
      exact plain (parts c (List.mem_of_head? hc)) (head?_trim _ _ c hc)
    · intro c hc
      exact plain (parts c (List.mem_of_getLast? hc)) (getLast?_trimRight _ _ c hc)

/-- A cleaned name stays as it is. -/
theorem IsClean.clean_eq {s : Text} (h : s.IsClean) : clean s = s := by
  have kept : s.map (fun c : CodePoint =>
      if c.isAsciiLetter || c.isAsciiDigit || c = '_' || c = '-' then c else '_') = s := by
    rw [List.map_congr_left, List.map_id]
    intro c hc
    rw [if_pos]
    · rfl
    · simpa [or_assoc, CodePoint.IsPlain] using h.parts c hc
  have inner {c : CodePoint} (plain : c.IsPlain) : (c = '_' || c = '-') = false := by
    simp [plain.notBar, plain.notHyphen]
  have ends : trim (fun c => c = '_' || c = '-') s = s :=
    trim_eq (fun c hc => inner (h.first c hc)) fun c hc => inner (h.last c hc)
  rw [clean, kept, ends, if_neg (by simpa using h.some)]

/-! ### Bars -/

/-- Not both of two neighbours are bars. -/
def IsApart (c d : CodePoint) : Prop := ¬(c = '_' ∧ d = '_')

/-- Words with one bar between neighbours: no bar at either end, and no two side by side. -/
structure IsTight (s : Text) : Prop where
  some : s ≠ []
  first : ∀ c ∈ s.head?, c ≠ '_'
  last : ∀ c ∈ s.getLast?, c ≠ '_'
  apart : s.IsChain IsApart

@[simp] theorem head?_separateCapitals (s : Text) : (separateCapitals s).head? = s.head? := by
  fun_induction separateCapitals s <;> simp_all

@[simp] theorem getLast?_separateCapitals (s : Text) :
    (separateCapitals s).getLast? = s.getLast? := by
  fun_induction separateCapitals s <;> simp_all [List.getLast?_cons]

@[simp] theorem head?_squeezeBars (s : Text) : (squeezeBars s).head? = s.head? := by
  fun_induction squeezeBars s <;> simp_all

@[simp] theorem getLast?_squeezeBars (s : Text) : (squeezeBars s).getLast? = s.getLast? := by
  fun_induction squeezeBars s <;> simp_all [List.getLast?_cons]

theorem isChain_squeezeBars (s : Text) : (squeezeBars s).IsChain IsApart := by
  fun_induction squeezeBars s with
  | case1 => exact .nil
  | case2 c => exact .singleton c
  | case3 c d rest bars ih => exact ih
  | case4 c d rest apart ih =>
    rw [List.isChain_cons]
    refine ⟨?_, ih⟩
    intro e he
    rw [head?_squeezeBars] at he
    cases he
    exact apart

theorem squeezeBars_eq_self {s : Text} (h : s.IsChain IsApart) : squeezeBars s = s := by
  fun_induction squeezeBars s with
  | case1 | case2 => rfl
  | case3 c d rest bars =>
    rw [List.isChain_cons_cons] at h
    exact absurd bars h.1
  | case4 c d rest apart ih =>
    rw [List.isChain_cons_cons] at h
    rw [ih h.2]

theorem separateCapitals_eq_self {s : Text} (h : ∀ c ∈ s, CodePoint.isAsciiUpper c = false) :
    separateCapitals s = s := by
  fun_induction separateCapitals s with
  | case1 | case2 => rfl
  | case3 c d rest step =>
    have capital := (Bool.and_eq_true_iff.1 step).2
    rw [h d (by simp)] at capital
    cases capital
  | case4 c d rest step ih => rw [ih fun e he => h e (List.mem_cons_of_mem c he)]

/-- A name in small letters, with bars in the place of hyphens and in front of capitals. -/
def spread (s : Text) : Text :=
  (separateCapitals (replaceOne '-' '_' s)).map CodePoint.asciiLower

theorem isSmall_or_bar_of_mem_spread {s : Text}
    (parts : ∀ c ∈ s, CodePoint.IsPlain c ∨ c = '_' ∨ c = '-') {c : CodePoint}
    (h : c ∈ spread s) : c.IsSmall ∨ c = '_' := by
  obtain ⟨d, hd, rfl⟩ := List.mem_map.1 h
  rcases mem_separateCapitals hd with hd | rfl
  · obtain ⟨e, he, rfl⟩ := List.mem_map.1 hd
    split
    · exact .inr rfl
    · next other =>
      rcases parts e he with plain | rfl | rfl
      · exact .inl plain.asciiLower
      · exact .inr rfl
      · exact absurd rfl other
  · exact .inr rfl

/-- The ends of a cleaned name are no bars when it is spread. -/
theorem spread_ends {s : Text} (h : s.IsClean) :
    (∀ c ∈ (spread s).head?, c ≠ '_') ∧ ∀ c ∈ (spread s).getLast?, c ≠ '_' := by
  have inner {c : CodePoint} (plain : c.IsPlain) :
      (if c = '-' then '_' else c : CodePoint).asciiLower ≠ '_' := by
    rw [if_neg plain.notHyphen, ne_eq, CodePoint.asciiLower_eq_bar_iff]
    exact plain.notBar
  constructor
  · intro c hc
    rw [spread, List.head?_map, head?_separateCapitals, replaceOne, List.head?_map] at hc
    obtain ⟨d, hd, rfl⟩ := Option.map_eq_some_iff.1 hc
    obtain ⟨e, he, rfl⟩ := Option.map_eq_some_iff.1 hd
    exact inner (h.first e he)
  · intro c hc
    rw [spread, List.getLast?_map, getLast?_separateCapitals, replaceOne, List.getLast?_map] at hc
    obtain ⟨d, hd, rfl⟩ := Option.map_eq_some_iff.1 hc
    obtain ⟨e, he, rfl⟩ := Option.map_eq_some_iff.1 hd
    exact inner (h.last e he)

/-- Nothing is left to trim once the bars of a cleaned name are squeezed. -/
theorem barred_eq {s : Text} (h : s.IsClean) : barred s = squeezeBars (spread s) := by
  obtain ⟨first, last⟩ := spread_ends h
  apply trim_eq
  · intro c hc
    exact decide_eq_false (first c (by rwa [spread, ← head?_squeezeBars]))
  · intro c hc
    exact decide_eq_false (last c (by rwa [spread, ← getLast?_squeezeBars]))

theorem isTight_barred {s : Text} (h : s.IsClean) : (barred s).IsTight := by
  obtain ⟨first, last⟩ := spread_ends h
  rw [barred_eq h]
  refine ⟨?_, by simpa using first, by simpa using last, isChain_squeezeBars _⟩
  intro empty
  have none := head?_squeezeBars (spread s)
  rw [empty, spread, List.head?_map, head?_separateCapitals, replaceOne, List.head?_map] at none
  exact h.some (by simpa using none)

/-- Small letters and digits in words, with one bar between neighbours. -/
structure IsSnake (s : Text) : Prop extends s.IsTight where
  small : ∀ c ∈ s, c.IsSmall ∨ c = '_'

theorem isSnake_toSnakeCase (s : Text) : s.toSnakeCase.IsSnake := by
  have cleaned := isClean_clean s
  refine ⟨isTight_barred cleaned, ?_⟩
  intro c hc
  rw [toSnakeCase, barred_eq cleaned] at hc
  exact isSmall_or_bar_of_mem_spread cleaned.parts (mem_of_mem_squeezeBars hc)

/-! ### Names that are in a case style already -/

namespace IsSnake

variable {s : Text}

theorem isClean (h : s.IsSnake) : s.IsClean where
  parts c hc := (h.small c hc).imp CodePoint.IsSmall.isPlain .inl
  some := h.some
  first c hc := ((h.small c (List.mem_of_head? hc)).resolve_right (h.first c hc)).isPlain
  last c hc := ((h.small c (List.mem_of_getLast? hc)).resolve_right (h.last c hc)).isPlain

theorem replaceOne_hyphen (h : s.IsSnake) : replaceOne '-' '_' s = s := by
  apply replaceOne_eq_self
  intro c hc
  rcases h.small c hc with small | rfl
  · exact small.isPlain.notHyphen
  · decide

theorem not_upper (h : s.IsSnake) : ∀ c ∈ s, CodePoint.isAsciiUpper c = false := by
  intro c hc
  rcases h.small c hc with small | rfl
  · exact small.not_upper
  · decide

/-- A name in snake case stays as it is. -/
theorem toSnakeCase_eq (h : s.IsSnake) : s.toSnakeCase = s := by
  have lower : s.map CodePoint.asciiLower = s := by
    rw [List.map_congr_left fun c hc => CodePoint.asciiLower_of_not_upper (h.not_upper c hc),
      List.map_id']
  have spreads : spread s = s := by
    rw [spread, h.replaceOne_hyphen, separateCapitals_eq_self h.not_upper, lower]
  rw [toSnakeCase, h.isClean.clean_eq, Text.barred_eq h.isClean, spreads,
    squeezeBars_eq_self h.apart]

/-! In kebab case each bar of the name in snake case is a hyphen. -/

theorem isClean_hyphened (h : s.IsSnake) : (replaceOne '_' '-' s).IsClean where
  parts c hc := by
    obtain ⟨d, hd, rfl⟩ := List.mem_map.1 hc
    split
    · exact .inr (.inr rfl)
    · next other => exact .inl ((h.small d hd).resolve_right other).isPlain
  some := by simpa [replaceOne] using h.some
  first c hc := by
    rw [replaceOne, List.head?_map] at hc
    obtain ⟨d, hd, rfl⟩ := Option.map_eq_some_iff.1 hc
    rw [if_neg (h.first d hd)]
    exact h.isClean.first d hd
  last c hc := by
    rw [replaceOne, List.getLast?_map] at hc
    obtain ⟨d, hd, rfl⟩ := Option.map_eq_some_iff.1 hc
    rw [if_neg (h.last d hd)]
    exact h.isClean.last d hd

theorem toSnakeCase_hyphened (h : s.IsSnake) : (replaceOne '_' '-' s).toSnakeCase = s := by
  have back : replaceOne '-' '_' (replaceOne '_' '-' s) = replaceOne '-' '_' s := by
    rw [replaceOne, replaceOne, replaceOne, List.map_map]
    apply List.map_congr_left
    intro c _
    by_cases bar : c = '_'
    · subst bar
      rfl
    · simp [bar]
  have same : barred (replaceOne '_' '-' s) = barred s := by
    rw [barred, back, ← barred]
  have itself := h.toSnakeCase_eq
  rw [toSnakeCase, h.isClean.clean_eq] at itself
  rw [toSnakeCase, h.isClean_hyphened.clean_eq, same, itself]

end IsSnake

/-! ### Words -/

/-- A run of small letters and digits. -/
def IsCaseWord (word : Text) : Prop := word ≠ [] ∧ ∀ c ∈ word, CodePoint.IsSmall c

/-- Behind the first bar of a text whose bars are apart, none of the pieces is empty; the first
piece is empty only if the text starts with a bar. -/
theorem exists_pieces {s : Text} (some : s ≠ []) (last : ∀ c ∈ s.getLast?, c ≠ '_')
    (apart : s.IsChain IsApart) : ∃ first others, splitOn '_' s = first :: others ∧
      (first = [] → s.head? = Option.some ('_' : CodePoint)) ∧ ∀ piece ∈ others, piece ≠ [] := by
  induction s with
  | nil => exact absurd rfl some
  | cons c s ih =>
    cases s with
    | nil =>
      have other : c ≠ '_' := last c rfl
      exact ⟨[c], [], by simp [splitOn, splitWhere, other], by simp, by simp⟩
    | cons d rest =>
      rw [List.isChain_cons_cons] at apart
      obtain ⟨first, others, split, head, pieces⟩ :=
        ih (List.cons_ne_nil d rest) (by simpa [List.getLast?_cons] using last) apart.2
      rw [splitOn] at split
      rw [splitOn, splitWhere, split]
      dsimp only
      split
      · next bar =>
        have word : first ≠ [] := by
          intro empty
          have bar' : d = '_' := by simpa using head empty
          exact apart.1 ⟨of_decide_eq_true bar, bar'⟩
        refine ⟨[], first :: others, rfl, fun _ => ?_, ?_⟩
        · rw [List.head?_cons, of_decide_eq_true bar]
        · exact List.forall_mem_cons.2 ⟨word, pieces⟩
      · exact ⟨c :: first, others, rfl, by simp, pieces⟩

namespace IsSnake

variable {s : Text}

theorem isCaseWord (h : s.IsSnake) {word : Text} (hw : word ∈ splitOn '_' s) : word.IsCaseWord := by
  constructor
  · rintro rfl
    obtain ⟨first, others, split, head, pieces⟩ := exists_pieces h.some h.last h.apart
    rw [split] at hw
    rcases List.mem_cons.1 hw with empty | hw
    · exact h.first '_' (head empty.symm) rfl
    · exact pieces [] hw rfl
  · intro c hc
    obtain ⟨mem, other⟩ := mem_of_mem_splitWhere hw hc
    exact (h.small c mem).resolve_right (by simpa using other)

end IsSnake

end Text

end SchemaTypings
