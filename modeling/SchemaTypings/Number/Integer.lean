import SchemaTypings.Text.Blank
import SchemaTypings.Text.Digit

/-!
Integers as text. A numeral is a run of digits in which single underscores may stand between two
digits; blanks may surround it and a sign may lead it.
-/

namespace SchemaTypings

namespace Numeral

/-- The digits of a run below `base`, in which single underscores may stand between two digits. -/
def digits? (base : Nat) (s : Text) : Option (List Nat) :=
  let groups := s.splitOn '_'
  if groups.any (·.isEmpty) then none
  else groups.flatten.mapM fun c => c.digitValue?.filter (· < base)

/-- The number that digits denote, the highest first. -/
def value (base : Nat) (digits : List Nat) : Nat := digits.foldl (fun n d => n * base + d) 0

/-- A sign, true for minus, and what follows it. -/
def sign : Text → Bool × Text
  | [] => (false, [])
  | c :: rest =>
    if c = '-' then (true, rest) else if c = '+' then (false, rest) else (false, c :: rest)

/-- The letter after the leading zero that marks a base. -/
def marker? : Nat → Option CodePoint
  | 2 => some 'b'
  | 8 => some 'o'
  | 16 => some 'x'
  | _ => none

/-- `s` without the mark of `base`, such as `0x`, and one underscore after it. The zero of the mark
may be of any script. -/
def dropMarker (base : Nat) (s : Text) : Text :=
  match marker? base, s with
  | some letter, z :: c :: rest =>
    if z.decimalValue? = some 0 ∧ (c = letter ∨ c.val + 32 = letter.val) then
      match rest with
      | d :: more => if d = '_' then more else rest
      | [] => []
    else s
  | _, _ => s

/-- The integer that a text denotes in a base; the mark of the base may lead its digits. The digits
have no limit here, while a runtime may refuse more than 4300 decimal ones. -/
def integer? (base : Nat) (s : Text) : Option Int := do
  let (negative, body) := sign (s.trim CodePoint.isBlankAtNumber)
  let n := value base (← digits? base (dropMarker base body))
  pure (if negative then -(n : Int) else n)

@[simp] theorem value_nil (base : Nat) : value base [] = 0 := rfl

theorem value_append_singleton (base : Nat) (digits : List Nat) (d : Nat) :
    value base (digits ++ [d]) = value base digits * base + d := by
  simp [value]

end Numeral

end SchemaTypings
