import SchemaTypings.Literal
import SchemaTypings.Text.Position

/-!
Literal values from JSON text. A pair of surrogate escapes is one code point, a repeated key keeps
its first place and its last value, and the words for numbers beyond JSON are read too.
-/

namespace SchemaTypings

namespace Json

/-- Why a text is no JSON text. -/
inductive Fault
  | byteOrderMark
  | value
  | propertyName
  | colon
  | comma
  | openString
  | control
  | escape
  | codeEscape
  | extra
deriving DecidableEq, Repr

/-- The words for a fault. -/
def Fault.message : Fault → Text
  | .byteOrderMark => "Unexpected UTF-8 BOM (decode using utf-8-sig)"
  | .value => "Expecting value"
  | .propertyName => "Expecting property name enclosed in double quotes"
  | .colon => "Expecting ':' delimiter"
  | .comma => "Expecting ',' delimiter"
  | .openString => "Unterminated string starting at"
  | .control => "Invalid control character at"
  | .escape => "Invalid \\escape"
  | .codeEscape => "Invalid \\uXXXX escape"
  | .extra => "Extra data"

/-- A fault with the number of code points that are left where it lies. -/
structure Failure where
  fault : Fault
  left : Nat
deriving DecidableEq, Repr

/-- The words for a failure and its place in the text. -/
def Failure.described (f : Failure) (text : Text) : Text :=
  let offset := text.length - f.left
  let place := text.positionAt offset
  f.fault.message ++ ": line " ++ Text.ofNat place.line ++ " column " ++ Text.ofNat place.column ++
    " (char " ++ Text.ofNat offset ++ ")"

/-- The blanks of JSON. -/
def isBlank (c : CodePoint) : Bool := c = ' ' || c = '\t' || c = '\n' || c = '\r'

def skipBlanks (s : Text) : Text := s.dropWhile isBlank

/-- The value of a hexadecimal digit in ASCII. -/
def hexValue? (c : CodePoint) : Option Nat :=
  if c.isAsciiDigit then some (c.val - '0'.toNat)
  else if c.isBetween 'a' 'f' then some (c.val - 'a'.toNat + 10)
  else if c.isBetween 'A' 'F' then some (c.val - 'A'.toNat + 10)
  else none

/-- The number of the four hexadecimal digits at the start of a text. -/
def hexQuad? : Text → Option Nat
  | a :: b :: c :: d :: _ => do
    let digits ← [a, b, c, d].mapM hexValue?
    pure (Numeral.value 16 digits)
  | _ => none

/-- The code point of an escape letter. -/
def simpleEscape? (c : CodePoint) : Option CodePoint :=
  if c = '"' ∨ c = '\\' ∨ c = '/' then some c
  else if c = 'b' then CodePoint.ofNat? 0x08
  else if c = 'f' then CodePoint.ofNat? 0x0C
  else if c = 'n' then some '\n'
  else if c = 'r' then some '\r'
  else if c = 't' then some '\t'
  else none

/-- A string's code points after its opening quote, and the text after its closing quote; `opened`
code points are left from the opening quote on. -/
def stringBody (opened : Nat) (s : Text) : Except Failure (Text × Text) :=
  match s with
  | [] => .error ⟨.openString, opened⟩
  | c :: rest =>
    if c = '"' then .ok ([], rest)
    else if c.val < 0x20 then .error ⟨.control, s.length⟩
    else if c = '\\' then
      match rest with
      | [] => .error ⟨.openString, opened⟩
      | e :: tail =>
        if e = 'u' then
          -- The digits of a code are not the last of the text.
          match if 4 < tail.length then hexQuad? tail else none with
          | none => .error ⟨.codeEscape, rest.length⟩
          | some n =>
            let after := tail.drop 4
            let low? : Option Nat :=
              if 0xD800 ≤ n ∧ n ≤ 0xDBFF ∧ 6 < after.length ∧ after.take 2 = "\\u" then
                (hexQuad? (after.drop 2)).filter fun m => decide (0xDC00 ≤ m ∧ m ≤ 0xDFFF)
              else none
            match low? with
            | some m => do
              let (body, rest) ← stringBody opened (after.drop 6)
              let joined := CodePoint.ofNat? (0x10000 + (n - 0xD800) * 0x400 + (m - 0xDC00))
              pure (joined.toList ++ body, rest)
            | none => do
              let (body, rest) ← stringBody opened after
              pure ((CodePoint.ofNat? n).toList ++ body, rest)
        else
          match simpleEscape? e with
          | none => .error ⟨.escape, s.length⟩
          | some d => (stringBody opened tail).map fun (body, rest) => (d :: body, rest)
    else (stringBody opened rest).map fun (body, rest) => (c :: body, rest)
termination_by s.length
decreasing_by all_goals simp_all +zetaDelta only [List.length_cons, List.length_drop]; omega

/-- A number at the start of a text, and what follows it. -/
def number? (s : Text) : Option (Literal × Text) := do
  let (negative, body) := match s with
    | c :: rest => if c = '-' then (true, rest) else (false, s)
    | [] => (false, [])
  let whole := body.takeWhile CodePoint.isAsciiDigit
  let whole := if whole.head? = some '0' then whole.take 1 else whole
  if whole.isEmpty then none
  let tail := body.drop whole.length
  let fraction : Text := match tail with
    | c :: rest =>
      let digits := rest.takeWhile CodePoint.isAsciiDigit
      if c = '.' ∧ !digits.isEmpty then c :: digits else []
    | [] => []
  let tail := tail.drop fraction.length
  let exponent : Text := match tail with
    | c :: rest =>
      if c = 'e' ∨ c = 'E' then
        let sign := (rest.take 1).filter fun d : CodePoint => d = '+' || d = '-'
        let digits := (rest.drop sign.length).takeWhile CodePoint.isAsciiDigit
        if digits.isEmpty then [] else c :: sign ++ digits
      else []
    | [] => []
  let tail := tail.drop exponent.length
  if fraction.isEmpty && exponent.isEmpty then
    let n : Int ← Numeral.integer? 10 whole
    pure (.int (if negative then -n else n), tail)
  else
    let x ← Binary64.magnitude? negative (whole ++ fraction ++ exponent)
    pure (.float x, tail)

/-- A word that stands for a value. -/
def words : List (Text × Literal) :=
  [("null", .null), ("true", .bool true), ("false", .bool false), ("NaN", .float .nan),
    ("Infinity", .float (.infinite false)), ("-Infinity", .float (.infinite true))]

mutual

/-- A value at the start of a text, and what follows it. -/
def value : Nat → Text → Except Failure (Literal × Text)
  | 0, s => .error ⟨.value, s.length⟩
  | fuel + 1, s =>
    match s with
    | [] => .error ⟨.value, 0⟩
    | c :: rest =>
      if c = '"' then (stringBody s.length rest).map fun (body, rest) => (.text body, rest)
      else if c = '[' then
        match skipBlanks rest with
        | d :: more =>
          if d = ']' then .ok (.list [], more)
          else (items fuel (d :: more)).map fun (items, rest) => (.list items, rest)
        | [] => .error ⟨.value, 0⟩
      else if c = '\x7b' then
        match skipBlanks rest with
        | d :: more =>
          if d = '\x7d' then .ok (.object [], more)
          else (members fuel (d :: more)).map fun (ms, rest) => (.object (Entries.ofList ms), rest)
        | [] => .error ⟨.propertyName, 0⟩
      else
        match words.find? fun w => w.1.isPrefixOf s with
        | some w => .ok (w.2, s.drop w.1.length)
        | none =>
          match number? s with
          | some number => .ok number
          | none => .error ⟨.value, s.length⟩

/-- The items of a list up to its closing bracket. -/
def items : Nat → Text → Except Failure (List Literal × Text)
  | 0, s => .error ⟨.value, s.length⟩
  | fuel + 1, s =>
    match value fuel s with
    | .error f => .error f
    | .ok (v, rest) =>
      match skipBlanks rest with
      | c :: more =>
        if c = ']' then .ok ([v], more)
        else if c = ',' then (items fuel (skipBlanks more)).map fun (vs, rest) => (v :: vs, rest)
        else .error ⟨.comma, (c :: more).length⟩
      | [] => .error ⟨.comma, 0⟩

/-- The members of an object up to its closing brace. -/
def members : Nat → Text → Except Failure (List (Text × Literal) × Text)
  | 0, s => .error ⟨.value, s.length⟩
  | fuel + 1, s =>
    match s with
    | [] => .error ⟨.propertyName, 0⟩
    | q :: start =>
      if q ≠ '"' then .error ⟨.propertyName, s.length⟩
      else
        match stringBody s.length start with
        | .error f => .error f
        | .ok (key, rest) =>
          match skipBlanks rest with
          | [] => .error ⟨.colon, 0⟩
          | c :: more =>
            if c ≠ ':' then .error ⟨.colon, (c :: more).length⟩
            else
              match value fuel (skipBlanks more) with
              | .error f => .error f
              | .ok (v, rest) =>
                match skipBlanks rest with
                | [] => .error ⟨.comma, 0⟩
                | d :: more =>
                  if d = '\x7d' then .ok ([(key, v)], more)
                  else if d = ',' then
                    (members fuel (skipBlanks more)).map fun (ms, rest) => ((key, v) :: ms, rest)
                  else .error ⟨.comma, (d :: more).length⟩

end

/-- The value of a JSON text. -/
def read (s : Text) : Except Failure Literal :=
  if s.head?.any (·.val = 0xFEFF) then .error ⟨.byteOrderMark, s.length⟩
  else
    match value (2 * s.length + 2) (skipBlanks s) with
    | .error f => .error f
    | .ok (v, rest) =>
      let behind := skipBlanks rest
      if behind.isEmpty then .ok v else .error ⟨.extra, behind.length⟩

end Json

end SchemaTypings
