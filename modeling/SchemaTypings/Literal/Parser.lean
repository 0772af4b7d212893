import SchemaTypings.Malformed
import SchemaTypings.Token.Lexer

/-!
Literal text, read strictly: objects, lists, strings, numbers and four words. Keys may be bare, a
comma may follow the last entry, and of entries with one key the last one counts, in its own place.
-/

namespace SchemaTypings

/-- What a strict reader misses at a token. -/
inductive ParseCause
  | expected (kind : TokenKind)
  | trailingContent
  | expectedNumber
  | expectedValue
  | expectedKey
  | expectedCommaOr (bracket : Bracket)
deriving DecidableEq, Repr

/-- The text of a cause. -/
def ParseCause.message : ParseCause → Text
  | .expected kind => "Expected '" ++ kind.called ++ "'"
  | .trailingContent => "Unexpected trailing content"
  | .expectedNumber => "Expected a number after '-'"
  | .expectedValue => "Expected a literal value"
  | .expectedKey => "Expected a property name"
  | .expectedCommaOr bracket => "Expected ',' or '" ++ bracket.closing ++ "'"

/-- The value of a word, if it stands for one. -/
def keyword? (word : Text) : Option Literal :=
  if word = "true" then some (.bool true)
  else if word = "false" then some (.bool false)
  else if word = "null" ∨ word = "undefined" then some .null
  else none

namespace LiteralText

/-- The error of `cause` at the first of the tokens. -/
def refuse {α : Type} (text : Text) (cause : ParseCause) (ts : List Token) : Except ReadError α :=
  let t := Token.first ts
  let found : Text := if t.kind = .eof then "end of input" else t.value.shown
  .error (.malformed
    ⟨.literal, cause.message ++ ", found " ++ found, none, some text, some t.pos⟩)

/-- The value of a number token. -/
def number (t : Token) : Except ReadError Literal :=
  match NumberLiteral.value? t.value with
  | some v => .ok v
  | none => .error .badNumber

/-- Whether a token can be a key. -/
def isKey (t : Token) : Bool := t.kind = .name || t.kind = .string || t.kind = .number

mutual

/-- The value at the start of the tokens, and the tokens after it. -/
def value (text : Text) : Nat → List Token → Except ReadError (Literal × List Token)
  | 0, ts => refuse text .expectedValue ts
  | _ + 1, [] => refuse text .expectedValue []
  | fuel + 1, t :: rest =>
    match t.kind with
    | .opens .curly => do
      let (entries, rest) ← members text fuel [] rest
      pure (.object entries, rest)
    | .opens .square => do
      let (items, rest) ← items text fuel rest
      pure (.list items, rest)
    | .string => pure (.text t.value, rest)
    | .number => do pure (← number t, rest)
    | .operator =>
      if t.value = "-" then
        match rest with
        | n :: more =>
          if n.kind = .number then do pure ((← number n).negated, more)
          else refuse text .expectedNumber rest
        | [] => refuse text .expectedNumber rest
      else refuse text .expectedValue (t :: rest)
    | .name =>
      match keyword? t.value with
      | some v => pure (v, rest)
      | none => refuse text .expectedValue (t :: rest)
    | _ => refuse text .expectedValue (t :: rest)

/-- The entries up to the closing brace, put behind the entries `before`. -/
def members (text : Text) : Nat → Entries Literal → List Token →
    Except ReadError (Entries Literal × List Token)
  | 0, _, ts => refuse text .expectedKey ts
  | _ + 1, _, [] => refuse text .expectedKey []
  | fuel + 1, before, t :: rest =>
    if t.kind = .closes .curly then pure (before, rest)
    else if !isKey t then refuse text .expectedKey (t :: rest)
    else
      match rest with
      | [] => refuse text (.expected .colon) []
      | c :: more =>
        if c.kind ≠ .colon then refuse text (.expected .colon) rest
        else do
          let (v, rest) ← value text fuel more
          let entries := before.move t.value v
          match rest with
          | [] => refuse text (.expectedCommaOr .curly) []
          | d :: more =>
            if d.kind = .comma then members text fuel entries more
            else if d.kind = .closes .curly then pure (entries, more)
            else refuse text (.expectedCommaOr .curly) rest

/-- The items up to the closing bracket. -/
def items (text : Text) : Nat → List Token → Except ReadError (List Literal × List Token)
  | 0, ts => refuse text .expectedValue ts
  | _ + 1, [] => refuse text .expectedValue []
  | fuel + 1, t :: rest =>
    if t.kind = .closes .square then pure ([], rest)
    else do
      let (v, rest) ← value text fuel (t :: rest)
      match rest with
      | [] => refuse text (.expectedCommaOr .square) []
      | d :: more =>
        if d.kind = .comma then do
          let (vs, rest) ← items text fuel more
          pure (v :: vs, rest)
        else if d.kind = .closes .square then pure ([v], more)
        else refuse text (.expectedCommaOr .square) rest

end

/-- The one value that the tokens of `text` denote; a semicolon may follow it. -/
def ofTokens (text : Text) (ts : List Token) : Except ReadError Literal := do
  let (v, rest) ← value text (2 * ts.length + 2) ts
  let rest := match rest with
    | t :: more => if t.kind = .semicolon then more else rest
    | [] => []
  if (Token.first rest).kind = .eof then pure v else refuse text .trailingContent rest

end LiteralText

/-- The value that literal text denotes. -/
def Literal.parse (text : Text) : Except ReadError Literal :=
  match tokenize text with
  | .error e => .error (.ofLexical .literal text e)
  | .ok ts => LiteralText.ofTokens text ts

end SchemaTypings
