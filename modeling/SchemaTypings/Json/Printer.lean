import SchemaTypings.Literal
import SchemaTypings.Text.Quoted

/-!
Literal values as JSON text, on one line or indented. Numbers beyond JSON keep the usual words for
them. One-line text may be asked to be pure ASCII.
-/

namespace SchemaTypings

namespace CodePoint

/-- How `c` is written between double quotes in pure ASCII: above the first plane it is a pair of
surrogates. -/
def inAsciiQuotes (c : CodePoint) : Text :=
  if c.val < 0x7F then c.inDoubleQuotes
  else if c.val < 0x10000 then ("\\u" : Text) ++ hexDigits 4 c.val
  else
    let n := c.val - 0x10000
    ("\\u" : Text) ++ hexDigits 4 (0xD800 + n / 0x400) ++ "\\u" ++ hexDigits 4 (0xDC00 + n % 0x400)

end CodePoint

/-- `s` in double quotes and pure ASCII. -/
def Text.asciiQuoted (s : Text) : Text :=
  ("\"" : Text) ++ s.flatMap CodePoint.inAsciiQuotes ++ "\""

/-- A number in JSON text. -/
def Binary64.json : Binary64 → Text
  | .infinite false => "Infinity"
  | .infinite true => "-Infinity"
  | .nan => "NaN"
  | x => x.shown

namespace Literal

mutual

/-- The value as JSON text on one line and in pure ASCII. -/
def jsonLine : Literal → Text
  | .null => "null"
  | .bool b => if b then "true" else "false"
  | .int i => Text.ofInt i
  | .float x => x.json
  | .text s => s.asciiQuoted
  | .list items => "[" ++ Text.join ", " (jsonLineList items) ++ "]"
  | .object entries => "\x7b" ++ Text.join ", " (jsonLineEntries entries) ++ "\x7d"

def jsonLineList : List Literal → List Text
  | [] => []
  | v :: rest => v.jsonLine :: jsonLineList rest

def jsonLineEntries : List (Text × Literal) → List Text
  | [] => []
  | (k, v) :: rest => (k.asciiQuoted ++ ": " ++ v.jsonLine) :: jsonLineEntries rest

end

/-- A line break and `depth` levels of two spaces. -/
def jsonBreak (depth : Nat) : Text := ('\n' : CodePoint) :: Text.times (2 * depth) ' '

mutual

/-- The value as indented JSON text, inside `depth` levels. -/
def jsonBlock (depth : Nat) : Literal → Text
  | .null => "null"
  | .bool b => if b then "true" else "false"
  | .int i => Text.ofInt i
  | .float x => x.json
  | .text s => s.quoted
  | .list [] => "[]"
  | .list (v :: rest) =>
    "[" ++ jsonBreak (depth + 1)
      ++ Text.join ("," ++ jsonBreak (depth + 1)) (jsonBlockList (depth + 1) (v :: rest))
      ++ jsonBreak depth ++ "]"
  | .object [] => "\x7b\x7d"
  | .object (e :: rest) =>
    "\x7b" ++ jsonBreak (depth + 1)
      ++ Text.join ("," ++ jsonBreak (depth + 1)) (jsonBlockEntries (depth + 1) (e :: rest))
      ++ jsonBreak depth ++ "\x7d"

def jsonBlockList (depth : Nat) : List Literal → List Text
  | [] => []
  | v :: rest => v.jsonBlock depth :: jsonBlockList depth rest

def jsonBlockEntries (depth : Nat) : List (Text × Literal) → List Text
  | [] => []
  | (k, v) :: rest => (k.quoted ++ ": " ++ v.jsonBlock depth) :: jsonBlockEntries depth rest

end

/-- The value as JSON text, two spaces a level. -/
def json (v : Literal) : Text := v.jsonBlock 0

/-- A value without parts as the key of a JSON object. -/
def jsonKey : Literal → Text
  | .text s => s
  | v => v.json

/-- A dictionary as an object; keys that are written alike are all there. -/
def ofDictionary (d : List (Literal × Literal)) : Literal :=
  .object (d.map fun e => (e.1.jsonKey, e.2))

end Literal

end SchemaTypings
