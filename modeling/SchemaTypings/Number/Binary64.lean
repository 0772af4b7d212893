import SchemaTypings.Number.Integer

/-!
Binary floating-point numbers of 64 bits: a sign and a magnitude `m · 2^e` in lowest exponent, the
infinities, and one value that is no number. Reading a decimal rounds it to the nearest number, and
a tie goes to the even mantissa.
-/

namespace SchemaTypings

/-- The finite magnitudes `m · 2^e`, each in one way: `m` has 53 bits unless `e` is the lowest. -/
def Binary64.Canonical (m : Nat) (e : Int) : Prop :=
  m < Nat.pow 2 53 ∧ -1074 ≤ e ∧ e ≤ 971 ∧ (e = -1074 ∨ Nat.pow 2 52 ≤ m)

instance (m : Nat) (e : Int) : Decidable (Binary64.Canonical m e) := by
  unfold Binary64.Canonical; infer_instance

/-- A floating-point number of 64 bits. -/
inductive Binary64
  | finite (negative : Bool) (mantissa : Nat) (exponent : Int)
      (canonical : Binary64.Canonical mantissa exponent)
  | infinite (negative : Bool)
  | nan
deriving DecidableEq

namespace Binary64

/-- The number of a sign, a mantissa and an exponent; what is too large is infinite. -/
def ofParts (negative : Bool) (m : Nat) (e : Int) : Binary64 :=
  if h : Canonical m e then .finite negative m e h else .infinite negative

/-- `n / d` rounded to an integer, a tie to the even one. -/
def roundQuotient (n d : Nat) : Nat :=
  let q := n / d
  let r := n % d
  if 2 * r < d then q else if d < 2 * r then q + 1 else if q % 2 = 0 then q else q + 1

/-- Numerator and denominator of `n / d` in units of `2^e`. -/
def inUnits (n d : Nat) (e : Int) : Nat × Nat :=
  if 0 ≤ e then (n, d * Nat.pow 2 e.toNat) else (n * Nat.pow 2 (-e).toNat, d)

/-- The exponent at which the whole part of `n / d` has 53 bits, and no less than the lowest one. -/
def exponentOf (n d : Nat) : Int :=
  let guess : Int := (Nat.log2 n : Int) - Nat.log2 d - 52
  let (p, q) := inUnits n d guess
  max (-1074) (if p / q < Nat.pow 2 52 then guess - 1 else guess)

/-- The number nearest to `± n / d`, a tie to the even mantissa. -/
def ofRatio (negative : Bool) (n d : Nat) : Binary64 :=
  if n = 0 then ofParts negative 0 (-1074)
  else
    let e := exponentOf n d
    let (p, q) := inUnits n d e
    let m := roundQuotient p q
    if m = Nat.pow 2 53 then ofParts negative (Nat.pow 2 52) (e + 1) else ofParts negative m e

/-- The number nearest to `± n · 10^k`. Magnitudes far outside the range are not computed. -/
def ofDecimal (negative : Bool) (n : Nat) (k : Int) : Binary64 :=
  let top : Int := k + (Nat.toDigits 10 n).length
  if n = 0 ∨ top < -400 then ofRatio negative 0 1
  else if 400 < top then .infinite negative
  else if 0 ≤ k then ofRatio negative (n * Nat.pow 10 k.toNat) 1
  else ofRatio negative n (Nat.pow 10 (-k).toNat)

/-- The number of the opposite sign. -/
def neg : Binary64 → Binary64
  | .finite s m e h => .finite (!s) m e h
  | .infinite s => .infinite (!s)
  | .nan => .nan

/-- Equality of values: the two zeros are equal, and what is no number equals nothing. -/
def sameValue : Binary64 → Binary64 → Bool
  | .finite s m e _, .finite t n f _ => (m = 0 && n = 0) || (s = t && m = n && e = f)
  | .infinite s, .infinite t => s = t
  | _, _ => false

/-- Equality of values with an integer. -/
def isInteger (x : Binary64) (i : Int) : Bool :=
  match x with
  | .finite s m e _ =>
    let n : Int := if s then -(m : Int) else m
    if 0 ≤ e then n * (Nat.pow 2 e.toNat : Nat) = i else n = i * (Nat.pow 2 (-e).toNat : Nat)
  | _ => false

/-- Whether the number differs from zero. -/
def isNonzero : Binary64 → Bool
  | .finite _ m _ _ => m ≠ 0
  | _ => true

/-- A fraction's digits: a run of digits, or nothing. -/
def run? (s : Text) : Option (List Nat) := if s.isEmpty then some [] else Numeral.digits? 10 s

/-- A decimal without a sign: whole digits, a point and digits after it, of which one part may be
missing, and an exponent after `e` or `E`. -/
def magnitude? (negative : Bool) (s : Text) : Option Binary64 := do
  let isMark : CodePoint → Bool := fun c => c = 'e' || c = 'E'
  let mantissa := s.takeWhile (!isMark ·)
  let exponent ← match s.dropWhile (!isMark ·) with
    | [] => some 0
    | _ :: tail =>
      let (down, digits) := Numeral.sign tail
      (Numeral.digits? 10 digits).map fun ds =>
        let n : Int := Numeral.value 10 ds
        if down then -n else n
  let isPoint : CodePoint → Bool := fun c => c = '.'
  let whole ← run? (mantissa.takeWhile (!isPoint ·))
  let fraction ← run? ((mantissa.dropWhile (!isPoint ·)).drop 1)
  if whole.isEmpty && fraction.isEmpty then none
  else some (ofDecimal negative (Numeral.value 10 (whole ++ fraction)) (exponent - fraction.length))

/-- The number that a decimal text denotes. -/
def read? (s : Text) : Option Binary64 :=
  let (negative, body) := Numeral.sign (s.trim CodePoint.isBlankAtNumber)
  magnitude? negative body

end Binary64

end SchemaTypings
