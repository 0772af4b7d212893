import SchemaTypings.Literal
import SchemaTypings.Token

/-!
Number literals: their extent and their value.
-/

namespace SchemaTypings

namespace NumberLiteral

/-- The marks of the bases other than ten, each with the digits that may follow. -/
def isBaseDigit? (mark : CodePoint) : Option (CodePoint → Bool) :=
  if mark = 'x' ∨ mark = 'X' then
    some fun c => c.isAsciiDigit || c.isBetween 'a' 'f' || c.isBetween 'A' 'F' || c = '_'
  else if mark = 'b' ∨ mark = 'B' then some fun c => c = '0' || c = '1' || c = '_'
  else if mark = 'o' ∨ mark = 'O' then some fun c => c.isBetween '0' '7' || c = '_'
  else none

/-- The width of a number in another base at the start of `s`, such as `0xFF`; zero if none. -/
def basedWidth (s : Text) : Nat :=
  match s with
  | z :: mark :: rest =>
    if z = '0' then
      match isBaseDigit? mark with
      | some isDigit =>
        let digits := rest.takeWhile isDigit
        if digits.isEmpty then 0 else digits.length + 2
      | none => 0
    else 0
  | _ => 0

/-- A digit or an underscore. -/
def isDigitOrBar (c : CodePoint) : Bool := c.isDecimal || c = '_'

/-- The width of the digits at the start of a text; zero if none. -/
def digitsWidth (s : Text) : Nat := Text.runWidth CodePoint.isDecimal isDigitOrBar s

/-- The width of the point at the start of a text and of the digits behind it; zero if none. -/
def fractionWidth (s : Text) : Nat := Text.runWidth (· = '.') isDigitOrBar s

/-- The width of the digits and the point at the start of `s`; zero if there is no digit. -/
def mantissaWidth (s : Text) : Nat :=
  let whole := digitsWidth s
  if whole ≠ 0 then whole + fractionWidth (s.drop whole)
  else if s.tail.head?.any CodePoint.isDecimal then fractionWidth s
  else 0

/-- The width of an exponent at the start of `s`; zero if none. -/
def exponentWidth (s : Text) : Nat :=
  match s with
  | [] => 0
  | c :: rest =>
    if c = 'e' ∨ c = 'E' then
      let sign : Nat := match rest with
        | d :: _ => if d = '+' ∨ d = '-' then 1 else 0
        | [] => 0
      let digits := ((rest.drop sign).takeWhile CodePoint.isDecimal).length
      if digits = 0 then 0 else 1 + sign + digits
    else 0

/-- The width of the number at the start of `s`; zero if none. -/
def width (s : Text) : Nat :=
  if basedWidth s ≠ 0 then basedWidth s
  else
    let mantissa := mantissaWidth s
    if mantissa = 0 then 0
    else
      let exponent := exponentWidth (s.drop mantissa)
      let suffix : Nat := match s.drop (mantissa + exponent) with
        | c :: _ => if c = 'n' then 1 else 0
        | [] => 0
      mantissa + exponent + suffix

/-- The base that the two code points at the start of a number mark. -/
def markedBase? : Text → Option Nat
  | z :: mark :: _ =>
    if z ≠ '0' then none
    else if mark = 'x' ∨ mark = 'X' then some 16
    else if mark = 'b' ∨ mark = 'B' then some 2
    else if mark = 'o' ∨ mark = 'O' then some 8
    else none
  | _ => none

/-- The value of a number's text. Underscores and a final `n` do not count. -/
def value? (s : Text) : Option Literal :=
  let text := Text.trimRight (· = 'n') (s.filter (· ≠ '_'))
  match markedBase? text with
  | some base => (Numeral.integer? base (text.drop 2)).map .int
  | none =>
    if text.any fun c => c = '.' || c = 'e' || c = 'E' then (Binary64.read? text).map .float
    else (Numeral.integer? 10 text).map .int

end NumberLiteral

/-- The number of the opposite sign; anything else stays. -/
def Literal.negated : Literal → Literal
  | .int i => .int (-i)
  | .float x => .float x.neg
  | v => v

end SchemaTypings
