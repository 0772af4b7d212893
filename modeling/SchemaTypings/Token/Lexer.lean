import SchemaTypings.Text.Blank
import SchemaTypings.Token.NumberLiteral
import SchemaTypings.Token.RegexLiteral
import SchemaTypings.Token.TemplateLiteral

/-!
The tokens of a source. Blanks and comments separate tokens; the last token marks the end. When some
token cannot be read, the tokens before it remain, with the error.
-/

namespace SchemaTypings

/-- What stands at the start of a text: something to skip, or a token. -/
inductive Lexeme
  | skip (width : Nat)
  | token (kind : TokenKind) (value : Text) (width : Nat)
deriving DecidableEq, Repr

namespace Lexeme

/-- The operators of several code points, longest first. -/
def operators : List Text :=
  ["...", "===", "!==", "**=", "<<=", ">>=", ">>>",
    "=>", "==", "!=", "<=", ">=", "&&", "||", "??", "?.",
    "++", "--", "+=", "-=", "*=", "/=", "%=", "&=", "|=", "^=", "**", "<<", ">>"]

/-- The kind of a mark that is a token by itself. -/
def mark? (c : CodePoint) : Option TokenKind :=
  if c = '\x7b' then some (.opens .curly)
  else if c = '\x7d' then some (.closes .curly)
  else if c = '[' then some (.opens .square)
  else if c = ']' then some (.closes .square)
  else if c = '(' then some (.opens .round)
  else if c = ')' then some (.closes .round)
  else if c = ',' then some .comma
  else if c = ':' then some .colon
  else if c = ';' then some .semicolon
  else none

/-- The width of a comment up to and with its line feed, or up to the end. -/
def lineWidth (s : Text) : Nat :=
  match Text.find? "\n" s with
  | some n => n + 1
  | none => s.length

/-- The width of the name at the start of a text; zero if none. -/
def nameWidth (s : Text) : Nat := Text.runWidth CodePoint.isNameStart CodePoint.isNamePart s

theorem nameWidth_eq_zero {c : CodePoint} (h : c.isNameStart = false) (rest : Text) :
    nameWidth (c :: rest) = 0 := by simp [nameWidth, Text.runWidth, h]

/-- A token that is neither a literal in quotes nor a regular expression. -/
def plain (c : CodePoint) (rest : Text) : Lexeme :=
  let s := c :: rest
  if NumberLiteral.width s ≠ 0 then
    .token .number (s.take (NumberLiteral.width s)) (NumberLiteral.width s)
  else if nameWidth s ≠ 0 then .token .name (s.take (nameWidth s)) (nameWidth s)
  else
    match mark? c with
    | some kind => .token kind [c] 1
    | none =>
      match operators.find? (·.isPrefixOf s) with
      | some op => .token .operator op op.length
      | none => .token (if c = '.' then .dot else .operator) [c] 1

/-- What stands at the start of the text `c :: rest`. -/
def read (regexAllowed : Bool) (c : CodePoint) (rest : Text) : Except LexError Lexeme :=
  let s := c :: rest
  if c.isBlank then .ok (.skip 1)
  else if Text.startsWith s "//" then .ok (.skip (lineWidth s))
  else if Text.startsWith s "/*" then
    match Text.find? "*/" (rest.drop 1) with
    | some n => .ok (.skip (n + 4))
    | none => .error ⟨.unterminatedComment, 0⟩
  else if c = '"' ∨ c = '\'' then
    (stringBody c 1 rest).map fun (value, width) => .token .string value width
  else if c = '`' then
    (templateEnd (.template 0) [] 1 rest).map fun width =>
      .token .template (rest.take (width - 2)) width
  else if c = '/' ∧ regexAllowed then
    (regexEnd false 1 rest).map fun width => .token .regex (s.take width) width
  else .ok (plain c rest)

end Lexeme

/-- The tokens of a source and the error that ended them early, if any. -/
structure Lexed where
  tokens : List Token
  error? : Option LexError
deriving DecidableEq, Repr

/-- The tokens of the text `s` that starts at the offset `pos`. -/
def lex (regexAllowed : Bool) (pos : Nat) (s : Text) : Lexed :=
  match s with
  | [] => ⟨[Token.eof pos], none⟩
  | c :: rest =>
    match Lexeme.read regexAllowed c rest with
    | .error e => ⟨[], some (e.later pos)⟩
    | .ok (.skip width) => lex regexAllowed (pos + width) (rest.drop (width - 1))
    | .ok (.token kind value width) =>
      let token : Token := ⟨kind, value, pos, pos + width⟩
      let more := lex token.allowsRegex (pos + width) (rest.drop (width - 1))
      ⟨token :: more.tokens, more.error?⟩
termination_by s.length
decreasing_by all_goals simp only [List.length_cons, List.length_drop]; omega

/-- The tokens of a source from the offset `start` on. -/
def lexFrom (source : Text) (start : Nat) : Lexed :=
  lex true (min start source.length) (source.drop start)

/-- All tokens of a source. -/
def tokenize (source : Text) : Except LexError (List Token) :=
  match lex true 0 source with
  | ⟨_, some e⟩ => .error e
  | ⟨tokens, none⟩ => .ok tokens

end SchemaTypings
