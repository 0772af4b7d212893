import SchemaTypings.Number.Integer
import SchemaTypings.Token

/-!
String literals: their extent and their value. Each escape stands for one code point on its own, so
that a pair of surrogate escapes stays a pair.
-/

namespace SchemaTypings

/-- What the code points after a backslash stand for, and how many belong to the escape. -/
inductive Escape
  | char (c : CodePoint) (width : Nat)
  | nothing (width : Nat)
  | invalid (digits : Text)
  | tooLarge
  | unclosed
deriving DecidableEq, Repr

namespace Escape

/-- The largest number that is read as a code point or refused as none. -/
def bound : Int := 0x80000000

/-- The escape of `width` code points whose number has the given hexadecimal digits. -/
def ofHex (digits : Text) (width : Nat) : Escape :=
  match Numeral.integer? 16 digits with
  | none => .invalid digits
  | some n =>
    if n < -bound ∨ bound ≤ n then .tooLarge
    else if n < 0 then .invalid digits
    else
      match CodePoint.ofNat? n.toNat with
      | none => .invalid digits
      | some c => .char c width

/-- The control that a letter stands for, or else the code point itself. -/
def simple (c : CodePoint) : CodePoint :=
  if c = 'n' then '\n'
  else if c = 't' then '\t'
  else if c = 'r' then '\r'
  else if c = 'b' then '\x08'
  else if c = 'f' then '\x0c'
  else if c = 'v' then '\x0b'
  else if c = '0' then '\x00'
  else c

/-- How an escape is written: with digits in braces, with a fixed number of digits, or with none. -/
inductive Form
  | braced
  | fixed (digits : Nat)
  | letter
deriving DecidableEq, Repr

/-- How many digits stand behind the letter of an escape when they are not in braces. -/
def digitCount? (c : CodePoint) : Option Nat :=
  if c = 'u' then some 4 else if c = 'x' then some 2 else none

/-- The form of the escape that starts with `c`. Where too few code points are left for its digits,
it has none. -/
def form (c : CodePoint) (rest : Text) : Form :=
  if c = 'u' ∧ rest.head? = some ('\x7b' : CodePoint) then .braced
  else
    match digitCount? c with
    | some n => if n ≤ rest.length then .fixed n else .letter
    | none => .letter

/-- The escape at the start of the text after a backslash. -/
def read : Text → Escape
  | [] => .unclosed
  | c :: rest =>
    match form c rest with
    | .braced =>
      match Text.find? "\x7d" (rest.drop 1) with
      | none => .unclosed
      | some n => ofHex ((rest.drop 1).take n) (n + 3)
    | .fixed n => ofHex (rest.take n) (n + 1)
    | .letter => if c = '\n' then .nothing 1 else .char (simple c) 1

section

variable {c : CodePoint} {s : Text} {n : Nat}

theorem digitCount?_le (h : digitCount? c = some n) : n ≤ 4 := by
  unfold digitCount? at h
  repeat' split at h
  all_goals cases h
  all_goals decide

theorem form_eq_braced_iff :
    form c s = .braced ↔ c = 'u' ∧ s.head? = some ('\x7b' : CodePoint) := by
  unfold form
  repeat' split
  all_goals simp_all

theorem of_form_eq_fixed (h : form c s = .fixed n) : digitCount? c = some n ∧ n ≤ s.length := by
  unfold form at h
  split at h
  · cases h
  cases digits : digitCount? c with
  | none =>
    rw [digits] at h
    cases h
  | some m =>
    rw [digits] at h
    dsimp only at h
    split at h <;> cases h
    next enough => exact ⟨rfl, enough⟩

theorem lt_of_form_eq_letter (h : form c s = .letter) (digits : digitCount? c = some n) :
    s.length < n := by
  unfold form at h
  rw [digits] at h
  dsimp only at h
  split at h
  · cases h
  split at h <;> cases h
  next few => exact Nat.lt_of_not_le few

/-- More text does not change the form of an escape, unless its digits were missing. -/
theorem form_append (some : s ≠ []) (t : Text) :
    form c (s ++ t) = form c s ∨
      ∃ m, form c s = .letter ∧ form c (s ++ t) = .fixed m ∧ digitCount? c = .some m ∧ s.length < m := by
  have head : (s ++ t).head? = s.head? := by
    cases s with
    | nil => exact absurd rfl some
    | cons d s => rfl
  unfold form
  rw [head]
  split
  · exact .inl rfl
  cases digits : digitCount? c with
  | none => exact .inl rfl
  | some m =>
    dsimp only
    by_cases enough : m ≤ s.length
    · have more : m ≤ (s ++ t).length := by
        rw [List.length_append]
        exact Nat.le_add_right_of_le enough
      rw [if_pos enough, if_pos more]
      exact .inl rfl
    · rw [if_neg enough]
      split
      · exact .inr ⟨m, rfl, rfl, rfl, Nat.lt_of_not_le enough⟩
      · exact .inl rfl

end

end Escape

/-- The value of a string literal and its width, from the offset `here` inside it on. -/
def stringBody (quote : CodePoint) (here : Nat) (s : Text) : Except LexError (Text × Nat) :=
  match s with
  | [] => .error ⟨.unterminatedString, 0⟩
  | c :: rest =>
    if c = quote then .ok ([], here + 1)
    else if c = '\n' then .error ⟨.unterminatedString, 0⟩
    else if c = '\\' then
      match Escape.read rest with
      | .char d n =>
        (stringBody quote (here + 1 + n) (rest.drop n)).map
          fun (value, width) => (d :: value, width)
      | .nothing n => stringBody quote (here + 1 + n) (rest.drop n)
      | .invalid digits => .error ⟨.invalidEscape digits, here⟩
      | .tooLarge => .error ⟨.escapeTooLarge, here⟩
      | .unclosed => .error ⟨.unterminatedString, 0⟩
    else (stringBody quote (here + 1) rest).map fun (value, width) => (c :: value, width)
termination_by s.length
decreasing_by all_goals simp only [List.length_cons, List.length_drop]; omega

end SchemaTypings
