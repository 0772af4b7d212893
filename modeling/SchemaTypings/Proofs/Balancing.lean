import SchemaTypings.Layout
import SchemaTypings.Proofs.Lines

/-!
Braces in the code of types. Outside strings, the code of a type opens and closes as many braces,
but for what stands in the comments of types that did not resolve.
-/

namespace SchemaTypings

/-! ### Braces outside strings -/

/-- Whether `c` neither starts a string nor counts as a brace. -/
def CodePoint.isQuiet (c : CodePoint) : Bool := !List.contains ("\"\x7b\x7d" : Text) c

/-- Code points with a property that no mark has are no marks. -/
theorem Text.all_not_contains {p : CodePoint → Bool} {s marks : Text} (h : s.all p = true)
    (none : ∀ d ∈ marks, p d = false) : s.all (fun c => !List.contains marks c) = true := by
  refine List.all_eq_true.2 fun c hc => ?_
  rw [Bool.not_eq_true', ← Bool.not_eq_true, List.contains_iff_mem]
  intro mem
  have holds := List.all_eq_true.1 h c hc
  rw [none c mem] at holds
  cases holds

/-- Between double quotes a code point is a backslash with one behind it and then plain ones, or
plain ones only. -/
theorem CodePoint.inDoubleQuotes_shape (c : CodePoint) :
    (∃ (d : CodePoint) (rest : Text), c.inDoubleQuotes = ('\\' : CodePoint) :: d :: rest ∧
      ∀ e ∈ rest, e ≠ '"' ∧ e ≠ '\\') ∨ ∀ e ∈ c.inDoubleQuotes, e ≠ '"' ∧ e ≠ '\\' := by
  rcases c.inDoubleQuotes_cases with ⟨d, -, -, eq⟩ | ⟨low, eq⟩ | ⟨-, other, eq⟩
  · exact .inl ⟨d, [], eq, by simp⟩
  · have digits : ∀ n < 0x20, ∀ d ∈ hexDigits 4 n, d ≠ '"' ∧ d ≠ '\\' := by decide +kernel
    exact .inl ⟨'u', hexDigits 4 c.val, eq, digits c.val low⟩
  · exact .inr (by simpa [eq] using ⟨other.1, other.2.2⟩)

namespace Layout

/-- How many braces a line opens outside its strings. -/
def opened (line : Text) : Nat := (bare line).count ('\x7b' : CodePoint)

/-- How many braces a line closes outside its strings. -/
def closed (line : Text) : Nat := (bare line).count ('\x7d' : CodePoint)

/-- Whatever stands behind the text, no string goes on from it, and it opens `n` braces and closes
`m`. -/
structure Counts (s : Text) (n m : Nat) : Prop where
  apart : ∀ rest, bare (s ++ rest) = bare s ++ bare rest
  opened : Layout.opened s = n
  closed : Layout.closed s = m

theorem bare_cons {c : CodePoint} (h : c ≠ '"') (rest : Text) :
    bare (c :: rest) = c :: bare rest := by rw [bare, if_neg h]

theorem bare_append_of_not_mem {s : Text} (h : ('"' : CodePoint) ∉ s) (rest : Text) :
    bare (s ++ rest) = s ++ bare rest := by
  induction s with
  | nil => rfl
  | cons c s ih =>
    rw [List.mem_cons, not_or] at h
    rw [List.cons_append, bare_cons (Ne.symm h.1), ih h.2, List.cons_append]

theorem bare_eq_self {s : Text} (h : ('"' : CodePoint) ∉ s) : bare s = s := by
  have whole := bare_append_of_not_mem h []
  rwa [List.append_nil, show bare [] = [] by rw [bare], List.append_nil] at whole

namespace Counts

variable {s t : Text} {n m n' m' : Nat}

theorem append (hs : Counts s n m) (ht : Counts t n' m') : Counts (s ++ t) (n + n') (m + m') where
  apart rest := by rw [List.append_assoc, hs.apart, ht.apart, hs.apart, List.append_assoc]
  opened := by rw [Layout.opened, hs.apart, List.count_append, ← hs.opened, ← ht.opened]; rfl
  closed := by rw [Layout.closed, hs.apart, List.count_append, ← hs.closed, ← ht.closed]; rfl

/-- A text without a quote has the braces that it shows. -/
theorem of_not_mem (h : ('"' : CodePoint) ∉ s) :
    Counts s (s.count ('\x7b' : CodePoint)) (s.count ('\x7d' : CodePoint)) where
  apart rest := by rw [bare_append_of_not_mem h, bare_eq_self h]
  opened := by rw [Layout.opened, bare_eq_self h]
  closed := by rw [Layout.closed, bare_eq_self h]

/-- A text in which nothing counts. -/
theorem of_quiet (h : s.all CodePoint.isQuiet = true) : Counts s 0 0 := by
  have out {c : CodePoint} (loud : c.isQuiet = false) : c ∉ s := fun mem => by
    rw [List.all_eq_true.1 h c mem] at loud
    cases loud
  have counts : Counts s _ _ := .of_not_mem (out (by decide))
  rwa [List.count_eq_zero.2 (out (by decide)), List.count_eq_zero.2 (out (by decide))] at counts

end Counts

theorem afterString?_cons {c : CodePoint} (quote : c ≠ '"') (stroke : c ≠ '\\') (rest : Text) :
    afterString? (c :: rest) = afterString? rest := by
  rw [afterString?.eq_def]
  dsimp only
  rw [if_neg quote, if_neg stroke]

theorem afterString?_append {s : Text} (h : ∀ c ∈ s, c ≠ '"' ∧ c ≠ '\\') (rest : Text) :
    afterString? (s ++ rest) = afterString? rest := by
  induction s with
  | nil => rfl
  | cons c s ih =>
    rw [List.forall_mem_cons] at h
    rw [List.cons_append, afterString?_cons h.1.1 h.1.2, ih h.2]

theorem afterString?_inDoubleQuotes (c : CodePoint) (rest : Text) :
    afterString? (c.inDoubleQuotes ++ rest) = afterString? rest := by
  have stroke (d : CodePoint) (rest : Text) :
      afterString? (('\\' : CodePoint) :: d :: rest) = afterString? rest := by
    rw [afterString?, if_neg (by decide), if_pos rfl]
  rcases c.inDoubleQuotes_shape with ⟨d, tail, eq, plain⟩ | plain
  · rw [eq, List.cons_append, List.cons_append, stroke, afterString?_append plain]
  · exact afterString?_append plain rest

/-- A quoted text is a string by itself. -/
theorem bare_quoted_append (s rest : Text) : bare (s.quoted ++ rest) = "\"\"" ++ bare rest := by
  have string : afterString? (s.flatMap CodePoint.inDoubleQuotes ++ (('"' : CodePoint) :: rest)) =
      some rest := by
    induction s with
    | nil =>
      rw [List.flatMap_nil, List.nil_append, afterString?.eq_def]
      dsimp only
      rw [if_pos rfl]
    | cons c s ih => rw [List.flatMap_cons, List.append_assoc, afterString?_inDoubleQuotes, ih]
  rw [Text.quoted, List.append_assoc, List.append_assoc, List.singleton_append,
    List.singleton_append, bare, if_pos rfl]
  split
  · next tail eq =>
    cases string.symm.trans eq
    rfl
  · next none => exact absurd (string.symm.trans none) (by simp)

theorem counts_quoted (s : Text) : Counts s.quoted 0 0 := by
  have alone : bare s.quoted = "\"\"" := by
    have whole := bare_quoted_append s []
    rwa [List.append_nil, show bare [] = [] by rw [bare], List.append_nil] at whole
  exact
    { apart := fun rest => by rw [bare_quoted_append, alone]
      opened := by rw [opened, alone]; rfl
      closed := by rw [closed, alone]; rfl }

/-! ### Balanced texts -/

/-- Whatever stands behind the text, it closes as many braces as it opens. -/
def IsBalanced (s : Text) : Prop := ∃ n, Counts s n n

end Layout

namespace Layout.IsBalanced

variable {s t : Text}

theorem nil : IsBalanced [] := ⟨0, .of_not_mem (by simp)⟩

theorem append (hs : IsBalanced s) (ht : IsBalanced t) : IsBalanced (s ++ t) := by
  obtain ⟨n, hs⟩ := hs
  obtain ⟨m, ht⟩ := ht
  exact ⟨n + m, hs.append ht⟩

theorem of_quiet (h : s.all CodePoint.isQuiet = true) : IsBalanced s := ⟨0, .of_quiet h⟩

theorem quoted (s : Text) : IsBalanced s.quoted := ⟨0, counts_quoted s⟩

theorem join {separator : Text} (h : IsBalanced separator) {texts : List Text}
    (all : ∀ s ∈ texts, IsBalanced s) : IsBalanced (Text.join separator texts) := by
  induction texts with
  | nil => exact nil
  | cons s rest ih =>
    rw [List.forall_mem_cons] at all
    cases rest with
    | nil => simpa [Text.join] using all.1
    | cons t rest =>
      rw [Text.join_cons_cons]
      exact all.1.append (h.append (ih all.2))

/-- Braces around a balanced text. -/
theorem braced (h : IsBalanced s) : IsBalanced ("\x7b " ++ s ++ " \x7d") := by
  obtain ⟨n, counts⟩ := h
  have first : Counts (Text.ofString "\x7b ") 1 0 :=
    Counts.of_not_mem (s := Text.ofString "\x7b ") (by decide)
  have last : Counts (Text.ofString " \x7d") 0 1 :=
    Counts.of_not_mem (s := Text.ofString " \x7d") (by decide)
  have whole := (first.append counts).append last
  rw [Nat.add_zero, Nat.zero_add, Nat.add_comm] at whole
  exact ⟨n + 1, whole⟩

theorem empty : IsBalanced "\x7b\x7d" :=
  ⟨1, Counts.of_not_mem (s := Text.ofString "\x7b\x7d") (by decide)⟩

end Layout.IsBalanced

/-! ### Numbers and names -/

/-- Whether `c` may stand in a number: a digit, a mark, or a letter of what is not finite. -/
def CodePoint.isOfNumber (c : CodePoint) : Bool :=
  c.isBetween '0' '9' || List.contains (".e+-infa" : Text) c

theorem Text.IsDigits.all_isOfNumber {s : Text} (h : s.IsDigits) :
    s.all CodePoint.isOfNumber = true := by
  refine List.all_eq_true.2 fun c hc => ?_
  rw [CodePoint.isOfNumber, Bool.or_eq_true]
  exact .inl (h.2 c hc)

theorem Decimal.all_isOfNumber_text (d : Decimal) :
    d.text.all CodePoint.isOfNumber = true := by
  have fraction : d.fractionText.all CodePoint.isOfNumber = true := by
    rw [fractionText]
    split
    · next f h => rw [List.all_cons, (d.fraction_digits f h).all_isOfNumber]; decide
    · rfl
  have exponent : d.exponentText.all CodePoint.isOfNumber = true := by
    rw [exponentText]
    split
    · next down e h =>
      rw [List.all_cons, List.all_cons, (d.exponent_digits _ h).all_isOfNumber]
      cases down <;> decide
    · rfl
  rw [text, List.all_append, List.all_append, d.whole_digits.all_isOfNumber, fraction, exponent]
  rfl

theorem Text.all_isOfNumber_ofInt (i : Int) : (Text.ofInt i).all CodePoint.isOfNumber = true := by
  have whole (n : Nat) : (Text.ofNat n).all CodePoint.isOfNumber = true := by
    rw [← Decimal.text_ofNat]
    exact (Decimal.ofNat n).all_isOfNumber_text
  cases i with
  | ofNat n => exact whole n
  | negSucc n => rw [ofInt, List.all_cons, whole]; decide

theorem Binary64.all_isOfNumber_shown (x : Binary64) :
    x.shown.all CodePoint.isOfNumber = true := by
  cases x with
  | finite negative m e h =>
    obtain ⟨d, -, shown⟩ := exists_shown negative h
    rw [shown]
    cases negative
    · exact d.all_isOfNumber_text
    · rw [if_pos rfl, List.all_append, d.all_isOfNumber_text]; decide
  | infinite negative => cases negative <;> decide
  | nan => decide

open Layout

theorem Text.all_isQuiet_of {p : CodePoint → Bool} {s : Text} (h : s.all p = true)
    (none : ∀ d ∈ ofString "\"\x7b\x7d", p d = false) : s.all CodePoint.isQuiet = true :=
  all_not_contains h none

/-- A value of an enumeration is a text or shows a number. -/
theorem Literal.asType_cases {v : Literal} (h : v.IsEnumerable) :
    (∃ s, v = .text s) ∨ v.asType.all CodePoint.isOfNumber = true := by
  cases v with
  | text s => exact .inl ⟨s, rfl⟩
  | int i =>
    rw [asType, shown]
    · exact .inr (Text.all_isOfNumber_ofInt i)
    · intro _ other
      cases other
  | float x =>
    rw [asType, shown]
    · exact .inr x.all_isOfNumber_shown
    · intro _ other
      cases other
  | _ => cases h

theorem Literal.isBalanced_asType {v : Literal} (h : v.IsEnumerable) : IsBalanced v.asType := by
  rcases asType_cases h with ⟨s, rfl⟩ | number
  · exact .quoted s
  · exact .of_quiet (Text.all_isQuiet_of number (by decide))

theorem CodePoint.isNamePart_eq_false_of_loud :
    ∀ d ∈ Text.ofString "\"\x7b\x7d", d.isNamePart = false := by decide +kernel

theorem Text.IsInterfaceName.all_isQuiet {name : Text} (h : name.IsInterfaceName) :
    name.all CodePoint.isQuiet = true := by
  obtain ⟨word, rfl, parts⟩ := h
  refine all_isQuiet_of ?_ CodePoint.isNamePart_eq_false_of_loud
  refine List.all_eq_true.2 fun c hc => ?_
  rcases List.mem_cons.1 hc with rfl | hc
  · decide +kernel
  · exact (parts c hc).isNamePart

theorem Text.isBalanced_asKey {key : Text} (h : key.isNameAndFeed = false) :
    IsBalanced key.asKey := by
  rw [asKey, passesAsName_eq, h, Bool.or_false]
  split
  · next isName =>
    refine .of_quiet (all_isQuiet_of ?_ CodePoint.isNamePart_eq_false_of_loud)
    cases key with
    | nil => cases isName
    | cons c key =>
      rw [Text.isName, Bool.and_eq_true] at isName
      rw [List.all_cons, CodePoint.isNamePart_of_isNameStart isName.1, isName.2]
      rfl
  · exact .quoted key

/-- A comment has no loud code point that its text has not. -/
theorem Text.isBalanced_asComment {s : Text} (h : s.all CodePoint.isQuiet = true) :
    IsBalanced s.asComment := by
  refine .of_quiet (List.all_eq_true.2 fun c hc => ?_)
  have marks : ∀ d ∈ Text.ofString "*\\/", d.isQuiet = true := by decide
  rcases Text.mem_of_mem_replace hc with hc | hc
  · exact marks c hc
  · by_cases space : c ∈ ofString " "
    · rw [List.mem_singleton.1 space]
      decide
    · obtain ⟨word, hw, hc⟩ := (mem_join space _).1 hc
      exact List.all_eq_true.1 h c (mem_of_mem_splitWhere (List.mem_filter.1 hw).1 hc).1

/-! ### The code of types -/

namespace TypeExpr

theorem isBalanced_propertyText {key type : Text} (plain : key.isNameAndFeed = false)
    (optional : Bool) (h : IsBalanced type) : IsBalanced (propertyText key optional type) := by
  have mark : IsBalanced (Text.ofString (if optional then "?" else "")) :=
    .of_quiet (by cases optional <;> decide)
  have colon : IsBalanced (Text.ofString ": ") := .of_quiet (by decide)
  have close : IsBalanced (Text.ofString ";") := .of_quiet (by decide)
  exact ((((Text.isBalanced_asKey plain).append mark).append colon).append h).append close

/-- The names in the type that did not resolve have neither braces nor double quotes. -/
def IsQuiet (t : TypeExpr) : Prop :=
  ∀ (u : TypeExpr) (s : Text), u.OccursIn t → u.kind = .unresolved → u.name = .text s →
    s.all CodePoint.isQuiet = true

/-- The code of a type is balanced if its comments are quiet. -/
theorem IsMapped.isBalanced_code {t : TypeExpr} (h : t.IsMapped Literal.IsEnumerable)
    (quiet : t.IsQuiet) : IsBalanced t.code := by
  have mark {s : Text} (h : s.all CodePoint.isQuiet = true) : IsBalanced s := .of_quiet h
  have base (base : BaseType) : IsBalanced (ofBase base).code := by
    rw [code_ofBase]
    cases base <;> exact mark (by decide)
  induction h with
  | base b => exact base b
  | interface spelled =>
    rw [code_ofInterface]
    exact mark spelled.all_isQuiet
  | choice b spelled =>
    rw [code_eq (render_ofChoice b _)]
    exact (base b).append ((mark (by decide)).append (mark spelled.all_isQuiet))
  | target s hints =>
    rw [code_ofTarget]
    have inside := Text.isBalanced_asComment (quiet _ s .self rfl rfl)
    exact ((mark (by decide)).append inside).append (mark (by decide))
  | literals some all =>
    rw [code_ofLiterals]
    refine .join (mark (by decide)) fun s hs => ?_
    obtain ⟨v, hv, rfl⟩ := List.mem_map.1 hs
    exact Literal.isBalanced_asType (all v hv)
  | @array element mapped ih =>
    have inside := ih fun u s occurs => quiet u s (.element rfl occurs)
    rw [code_eq (render_arrayOf mapped.prints)]
    refine .append ?_ (mark (by decide))
    split
    · exact ((mark (by decide)).append inside).append (mark (by decide))
    · exact inside
  | object names types ih =>
    rw [code_eq (render_objectOf fun p hp => (types p hp).prints)]
    split
    · exact .empty
    · refine .braced (.join (mark (by decide)) fun s hs => ?_)
      obtain ⟨p, hp, rfl⟩ := List.mem_map.1 hs
      exact isBalanced_propertyText (names p hp) p.optional
        (ih p hp fun u s occurs => quiet u s (.field hp occurs))

end TypeExpr

end SchemaTypings
