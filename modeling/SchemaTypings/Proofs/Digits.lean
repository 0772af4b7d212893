import Mathlib.Algebra.Group.Nat.Defs
import Mathlib.Data.List.Induction
import SchemaTypings.Proofs.Lexing

/-!
Digits: those of ASCII, which numbers are written with, and the decimal digits of all scripts, which
number tokens may have. A run of digits denotes a number.
-/

namespace SchemaTypings

/-! ### Digits -/

namespace CodePoint

/-- What holds of the ten digits holds of every digit. -/
theorem forall_isAsciiDigit {p : CodePoint → Prop}
    (all : ∀ n : Fin 10, p ⟨48 + n, by omega⟩) {c : CodePoint} (h : c.isAsciiDigit = true) :
    p c := by
  obtain ⟨low, high⟩ := isAsciiDigit_iff.1 h
  have hc := all ⟨c.val - 48, by omega⟩
  have back : (⟨48 + (c.val - 48), by omega⟩ : CodePoint) = c := ext_val (by simp; omega)
  simpa only [back] using hc

/-- What a digit is, and what it is not. -/
structure DigitFacts (c : CodePoint) : Prop where
  decimal : c.isDecimal = true
  namePart : c.isNamePart = true
  notBlank : c.isBlank = false
  notNameStart : c.isNameStart = false
  notMark : c ≠ '/' ∧ c ≠ '"' ∧ c ≠ '\'' ∧ c ≠ '`'
  notSign : c ≠ '-' ∧ c ≠ '+' ∧ c ≠ '='
  notBar : c ≠ '_'
  notPoint : c ≠ '.'
  notExponent : c ≠ 'e' ∧ c ≠ 'E'
  notSuffix : c ≠ 'n'
  noBase : c ≠ 'x' ∧ c ≠ 'X' ∧ c ≠ 'b' ∧ c ≠ 'B' ∧ c ≠ 'o' ∧ c ≠ 'O'

theorem digitFacts {c : CodePoint} (h : c.isAsciiDigit = true) : DigitFacts c := by
  refine forall_isAsciiDigit (p := DigitFacts) (fun n => ?_) h
  have all : ∀ n : Fin 10,
      CodePoint.isDecimal ⟨48 + n, by omega⟩ = true ∧
        CodePoint.isNamePart ⟨48 + n, by omega⟩ = true ∧
        CodePoint.isBlank ⟨48 + n, by omega⟩ = false ∧
        CodePoint.isNameStart ⟨48 + n, by omega⟩ = false := by decide +kernel
  have other (d : Char) (hd : d.toNat < 48 ∨ 58 ≤ d.toNat := by decide) :
      (⟨48 + n, by omega⟩ : CodePoint) ≠ d := by
    intro h
    have hv : 48 + n.val = d.toNat := congrArg CodePoint.val h
    omega
  obtain ⟨h1, h2, h3, h4⟩ := all n
  exact ⟨h1, h2, h3, h4, ⟨other _, other _, other _, other _⟩, ⟨other _, other _, other _⟩,
    other _, other _, ⟨other _, other _⟩, other _,
    ⟨other _, other _, other _, other _, other _, other _⟩⟩

theorem digitValue?_of_isAsciiDigit {c : CodePoint} (h : c.isAsciiDigit = true) :
    c.digitValue? = some (c.val - 48) := by
  refine forall_isAsciiDigit (p := fun c => c.digitValue? = some (c.val - 48)) ?_ h
  decide +kernel

end CodePoint

namespace Text

/-- One or more digits. -/
def IsDigits (s : Text) : Prop := s ≠ [] ∧ ∀ c ∈ s, c.isAsciiDigit = true

theorem IsDigits.append {s t : Text} (hs : s.IsDigits) (ht : ∀ c ∈ t, c.isAsciiDigit = true) :
    (s ++ t).IsDigits := by
  refine ⟨by simp [hs.1], fun c hc => ?_⟩
  rcases List.mem_append.1 hc with hc | hc
  · exact hs.2 c hc
  · exact ht c hc

theorem IsDigits.cons {c : CodePoint} {t : Text} (h : c.isAsciiDigit = true)
    (ht : ∀ c ∈ t, c.isAsciiDigit = true) : IsDigits (c :: t) :=
  ⟨by simp, by simpa [h] using ht⟩

theorem isAsciiDigit_times (n : Nat) : ∀ c ∈ times n '0', c.isAsciiDigit = true := by
  intro c hc
  rw [List.eq_of_mem_replicate hc]
  decide

theorem isAsciiDigit_ofNat (n : Nat) : ∀ c ∈ ofNat n, c.isAsciiDigit = true := by
  intro c hc
  obtain ⟨d, hd, rfl⟩ := List.mem_map.1 hc
  have h := Nat.isDigit_of_mem_toDigits (by decide) (by decide) hd
  have bounds : 48 ≤ d.toNat ∧ d.toNat ≤ 57 := by
    simpa [Char.isDigit, UInt32.le_iff_toNat_le] using h
  exact CodePoint.isAsciiDigit_iff.2 bounds

theorem isDigits_ofNat (n : Nat) : (ofNat n).IsDigits :=
  ⟨by simp [ofNat, Nat.toDigits_ne_nil], isAsciiDigit_ofNat n⟩

end Text

/-- The number that the digits of `s` denote. -/
def Text.digitsValue (s : Text) : Nat := Numeral.value 10 (s.map fun c => c.val - 48)

theorem Text.digitsValue_ofNat (n : Nat) : (Text.ofNat n).digitsValue = n := by
  induction n using Nat.strongRecOn with
  | ind n ih =>
    have digit (d : Nat) (hd : d < 10) : (CodePoint.ofChar d.digitChar).val - 48 = d :=
      Nat.toNat_digitChar_sub_48_of_lt_ten hd
    by_cases h : n < 10
    · rw [ofNat, Nat.toDigits_of_lt_base h]
      simpa [digitsValue, Numeral.value] using digit n h
    · have split : Nat.toDigits 10 n = Nat.toDigits 10 (n / 10) ++ [(n % 10).digitChar] :=
        Nat.toDigits_of_base_le (by decide) (by omega)
      have smaller := ih (n / 10) (by omega)
      rw [digitsValue, ofNat] at smaller
      rw [digitsValue, ofNat, split, List.map_append, List.map_append, List.map_singleton,
        List.map_singleton, Numeral.value_append_singleton, smaller, digit _ (by omega)]
      omega

theorem Numeral.value_append (base : Nat) (a b : List Nat) :
    value base (a ++ b) = value base a * base ^ b.length + value base b := by
  induction b using List.reverseRecOn with
  | nil => simp
  | append_singleton b d ih =>
    rw [← List.append_assoc, value_append_singleton, value_append_singleton, ih,
      List.length_append, List.length_singleton, Nat.pow_succ, Nat.add_mul, Nat.mul_assoc,
      Nat.add_assoc]

theorem Text.digitsValue_append (s t : Text) :
    (s ++ t).digitsValue = s.digitsValue * 10 ^ t.length + t.digitsValue := by
  rw [digitsValue, List.map_append, Numeral.value_append, List.length_map, digitsValue, digitsValue]

theorem Text.digitsValue_times (n : Nat) : (times n '0').digitsValue = 0 := by
  induction n with
  | zero => rfl
  | succ n ih =>
    have zero : Text.digitsValue ['0'] = 0 := by decide
    rw [times, List.replicate_succ, ← List.singleton_append, digitsValue_append, zero, ← times, ih]
    simp

/-! ### Decimal digits of all scripts -/

namespace Edges

/-- The numbers in a set whose edges come in pairs. -/
def members : Edges → List Nat
  | low :: high :: rest => List.range' low (high - low) ++ members rest
  | _ => []

theorem mem_members {n : Nat} : ∀ {e : Edges}, e.length % 2 = 0 → e.contains n = true →
    n ∈ e.members
  | [], _, h => by simp at h
  | [_], even, _ => by simp at even
  | low :: high :: rest, even, h => by
    simp only [contains] at h
    split at h
    · cases h
    · split at h
      · exact List.mem_append_left _ (List.mem_range'_1.2 (by omega))
      · refine List.mem_append_right _ (mem_members ?_ (by simpa using h))
        simp only [List.length_cons] at even
        omega

end Edges

namespace CodePoint

/-- Where a decimal digit stands, and what its value is. -/
structure DecimalFacts (c : CodePoint) : Prop where
  ascii : c.isAsciiDigit = true ∨ 128 ≤ c.val
  notBlank : c.isBlank = false
  value : ∃ v, c.digitValue? = some v ∧ v < 10

theorem decimalFacts {c : CodePoint} (h : c.isDecimal = true) : DecimalFacts c where
  ascii := by
    have all : ∀ n : Fin 128, decimalEdges.contains n = true → 48 ≤ n.val ∧ n.val < 58 := by
      decide +kernel
    rcases Nat.lt_or_ge c.val 128 with small | large
    · have between := all ⟨c.val, small⟩ h
      exact .inl (isAsciiDigit_iff.2 ⟨between.1, Nat.le_of_lt_succ between.2⟩)
    · exact .inr large
  notBlank := by
    have none : ∀ n ∈ blankEdges.members, decimalEdges.contains n = false := by decide +kernel
    refine Bool.eq_false_iff.2 fun blank => ?_
    have other := none _ (Edges.mem_members (by decide) blank)
    rw [isDecimal, other] at h
    cases h
  value := by
    have letters : ∀ n : Fin 128, 65 ≤ n.val → decimalEdges.contains n = false := by
      decide +kernel
    have low : c.isAsciiLower = false ∧ c.isAsciiUpper = false := by
      have noLetter (first last : Char) (hf : 65 ≤ first.toNat) (hl : last.toNat < 128) :
          c.isBetween first last = false := by
        refine Bool.eq_false_iff.2 fun between => ?_
        simp only [isBetween, Bool.and_eq_true, decide_eq_true_eq] at between
        have other := letters ⟨c.val, by omega⟩ (by simp only; omega)
        rw [isDecimal, other] at h
        cases h
      exact ⟨noLetter _ _ (by decide) (by decide), noLetter _ _ (by decide) (by decide)⟩
    have first : (decimalEdges.takeWhile (· ≤ c.val)).getLast? ≠ none := by
      have le : 48 ≤ c.val := by
        refine Nat.le_of_not_lt fun lt => ?_
        rw [isDecimal, decimalEdges, Edges.contains_of_lt _ lt] at h
        cases h
      rw [decimalEdges, List.takeWhile_cons_of_pos (by simpa using le)]
      simp
    obtain ⟨n, hn⟩ := Option.ne_none_iff_exists'.1 first
    refine ⟨(c.val - n) % 10, ?_, Nat.mod_lt _ (by decide)⟩
    rw [isDecimal] at h
    simp [digitValue?, low, decimalValue?, h, hn]

/-- A decimal digit is none of the other code points of ASCII. -/
theorem ne_of_isDecimal {c : CodePoint} (h : c.isDecimal = true) (d : Char)
    (other : d.toNat < 128 ∧ (d.toNat < 48 ∨ 58 ≤ d.toNat)) : c ≠ d := by
  rintro rfl
  rcases (decimalFacts h).ascii with ascii | large
  · have between := isAsciiDigit_iff.1 ascii
    simp only [val_ofChar] at between
    omega
  · simp only [val_ofChar] at large
    omega

end CodePoint

/-! ### Runs of digits -/

/-- A text without the separator is one piece. -/
theorem Text.splitOn_eq_singleton {d : CodePoint} {s : Text} (h : ∀ c ∈ s, c ≠ d) :
    s.splitOn d = [s] := by
  induction s with
  | nil => rfl
  | cons c s ih =>
    have rest : splitWhere (fun c => decide (c = d)) s = [s] := ih fun c hc => h c (by simp [hc])
    simp [splitOn, splitWhere, rest, h c (by simp)]

namespace Numeral

/-- Digits below the base are one group, with one value each. -/
theorem exists_digits? (base : Nat) {s : Text} (hs : s ≠ [])
    (h : ∀ c ∈ s, c ≠ '_' ∧ ∃ v, c.digitValue? = some v ∧ v < base) :
    ∃ ds, digits? base s = some ds ∧ ds ≠ [] := by
  have values : ∀ t : Text, (∀ c ∈ t, ∃ v, c.digitValue? = some v ∧ v < base) →
      ∃ ds, t.mapM (fun c : CodePoint => c.digitValue?.filter (· < base)) = some ds ∧
        ds.length = t.length := by
    intro t ht
    induction t with
    | nil => exact ⟨[], rfl, rfl⟩
    | cons c t ih =>
      obtain ⟨v, hv, small⟩ := ht c (by simp)
      obtain ⟨ds, rest, same⟩ := ih fun c hc => ht c (by simp [hc])
      exact ⟨v :: ds, by simp [hv, Option.filter_some, small, rest], by simp [same]⟩
  obtain ⟨ds, found, same⟩ := values s fun c hc => (h c hc).2
  have alone : s.splitOn '_' = [s] := Text.splitOn_eq_singleton fun c hc => (h c hc).1
  refine ⟨ds, by simp [digits?, alone, hs, found], fun no => hs ?_⟩
  rw [no] at same
  exact List.length_eq_zero_iff.1 same.symm

/-- The values of the digits of ASCII are those of their code points. -/
theorem digits?_of_isDigits {s : Text} (h : s.IsDigits) :
    digits? 10 s = some (s.map fun c => c.val - 48) := by
  have alone : s.splitOn '_' = [s] :=
    Text.splitOn_eq_singleton fun c hc => (CodePoint.digitFacts (h.2 c hc)).notBar
  have values : s.mapM (fun c : CodePoint => c.digitValue?.filter (· < 10)) =
      some (s.map fun c => c.val - 48) := by
    have all := h.2
    clear h alone
    induction s with
    | nil => rfl
    | cons c s ih =>
      have hc := all c (by simp)
      have small := CodePoint.isAsciiDigit_iff.1 hc
      have head : c.digitValue?.filter (· < 10) = some (c.val - 48) := by
        rw [CodePoint.digitValue?_of_isAsciiDigit hc, Option.filter_some, if_pos (by simp; omega)]
      simp [head, ih fun d hd => all d (by simp [hd])]
  simp [digits?, alone, h.1, values]

end Numeral

/-! ### The ends of a text -/

namespace Text

variable {p : CodePoint → Bool} {s : Text}

theorem trimRight_eq (h : ∀ c ∈ s.getLast?, p c = false) : trimRight p s = s := by
  rw [← List.head?_reverse] at h
  rw [trimRight]
  cases hr : s.reverse with
  | nil => simpa using hr
  | cons c rest =>
    rw [hr] at h
    rw [List.dropWhile_cons_of_neg (by simp [h c rfl]), ← hr, List.reverse_reverse]

theorem trim_eq (hd : ∀ c ∈ s.head?, p c = false) (hl : ∀ c ∈ s.getLast?, p c = false) :
    trim p s = s := by
  cases s with
  | nil => rfl
  | cons c rest =>
    rw [trim, List.dropWhile_cons_of_neg (by simp [hd c rfl]), trimRight_eq hl]

theorem IsDigits.getLast? {s ds : Text} (h : ds.IsDigits) :
    ∀ c ∈ (s ++ ds).getLast?, c.isAsciiDigit = true := by
  intro c hc
  rw [List.getLast?_append] at hc
  cases hl : ds.getLast? with
  | none => exact absurd (List.getLast?_eq_none_iff.1 hl) h.1
  | some d =>
    rw [hl, Option.some_or, Option.mem_some_iff] at hc
    exact hc ▸ h.2 d (List.mem_of_getLast? hl)

end Text

end SchemaTypings
