import SchemaTypings.Number.Binary64

/-!
Floating-point numbers as text: the fewest digits that read back as the same number, and of those
the nearest to it. Small and large magnitudes are written with an exponent.
-/

namespace SchemaTypings

namespace Binary64

/-- The exact magnitude `m · 2^e` as a quotient. -/
def ratio (m : Nat) (e : Int) : Nat × Nat :=
  if 0 ≤ e then (m * Nat.pow 2 e.toNat, 1) else (m, Nat.pow 2 (-e).toNat)

/-- The decimals next to `n / d` on the grid of step `10^k`: the one at or below it, the step
above that, and twice the distance of `n / d` from the lower one against the step. -/
def neighbours (n d : Nat) (k : Int) : Nat × Nat × Ordering :=
  let (p, q) := if 0 ≤ k then (n, d * Nat.pow 10 k.toNat) else (n * Nat.pow 10 (-k).toNat, d)
  (p / q, p / q + 1, compare (2 * (p % q)) q)

/-- The decimal on the grid of step `10^k` that reads back as `x`, the nearer if two do, and the
even one if both are as near. -/
def onGrid? (x : Binary64) (n d : Nat) (k : Int) : Option Nat :=
  let (low, high, order) := neighbours n d k
  let back := fun c => decide (ofDecimal false c k = x)
  match back low, back high with
  | false, false => none
  | true, false => some low
  | false, true => some high
  | true, true =>
    match order with
    | .lt => some low
    | .gt => some high
    | .eq => some (if low % 2 = 0 then low else high)

/-- The first grid at or below step `10^k`, and at most `tries` steps down, that holds a decimal
reading back as `x`. -/
def search? (x : Binary64) (n d : Nat) (k : Int) : Nat → Option (Nat × Int)
  | 0 => none
  | tries + 1 =>
    match onGrid? x n d k with
    | some c => some (c, k)
    | none => search? x n d (k - 1) tries

/-- `c · 10^k` without the zeros at the end of `c`, each of which `fuel` pays for. -/
def dropZeros : Nat → Nat → Int → Nat × Int
  | 0, c, k => (c, k)
  | fuel + 1, c, k => if c ≠ 0 ∧ c % 10 = 0 then dropZeros fuel (c / 10) (k + 1) else (c, k)

/-- Digits and exponent of the shortest decimal that reads back as `m · 2^e`. If the search found
none, the decimal would be the exact value. -/
def shortest (m : Nat) (e : Int) : Nat × Int :=
  let (n, d) := ratio m e
  let start : Int := (Nat.toDigits 10 (n / d)).length - (Nat.toDigits 10 (d / n)).length + 1
  match search? (ofParts false m e) n d start 24 with
  | some (c, k) => dropZeros (Nat.toDigits 10 c).length c k
  | none => if 0 ≤ e then (n, 0) else (m * Nat.pow 5 (-e).toNat, e)

/-- The layout of a decimal: positional from `10^-4` to below `10^16`, with a point always; else one
digit before the point, and an exponent of a sign and at least two digits. -/
def layout (c : Nat) (k : Int) : Text :=
  let digits := Text.ofNat c
  let top : Int := k + digits.length - 1
  if -4 ≤ top ∧ top < 16 then
    if 0 ≤ k then digits ++ Text.times k.toNat '0' ++ ".0"
    else if 0 ≤ top then
      digits.take (top.toNat + 1) ++ "." ++ digits.drop (top.toNat + 1)
    else "0." ++ Text.times (-top - 1).toNat '0' ++ digits
  else
    let fraction : Text := if digits.length = 1 then [] else "." ++ digits.drop 1
    let size := Text.ofNat top.natAbs
    digits.take 1 ++ fraction ++ "e" ++ (if top < 0 then "-" else "+")
      ++ (if size.length < 2 then "0" ++ size else size)

/-- `x` as text, the shortest that reads back. -/
def shown : Binary64 → Text
  | .finite negative m e _ =>
    let body : Text := if m = 0 then "0.0" else
      let (c, k) := shortest m e
      layout c k
    if negative then "-" ++ body else body
  | .infinite negative => if negative then "-inf" else "inf"
  | .nan => "nan"

/-- The number that `shown` writes as `s`: a decimal, an infinity, or what is no number. -/
def ofShown? (s : Text) : Option Binary64 :=
  if s = "inf" then some (.infinite false)
  else if s = "-inf" then some (.infinite true)
  else if s = "nan" then some .nan
  else read? s

end Binary64

end SchemaTypings
