import SchemaTypings.Text.Quoted

/-!
Tokens of model source: just enough structure to walk object literals, array literals and the call
around them. Whatever has no kind of its own is an operator.
-/

namespace SchemaTypings

/-- The three kinds of bracket. -/
inductive Bracket
  | round
  | square
  | curly
deriving DecidableEq, Repr

/-- The opening mark of a bracket. -/
def Bracket.opening : Bracket → Text
  | .round => "("
  | .square => "["
  | .curly => "\x7b"

/-- The closing mark of a bracket. -/
def Bracket.closing : Bracket → Text
  | .round => ")"
  | .square => "]"
  | .curly => "\x7d"

/-- The kinds of token. -/
inductive TokenKind
  | name
  | string
  | template
  | number
  | regex
  | opens (bracket : Bracket)
  | closes (bracket : Bracket)
  | comma
  | colon
  | semicolon
  | dot
  | operator
  | eof
deriving DecidableEq, Repr

/-- The kind as messages call it: a mark is called by itself. -/
def TokenKind.called : TokenKind → Text
  | .name => "ident"
  | .string => "string"
  | .template => "template"
  | .number => "number"
  | .regex => "regex"
  | .opens b => b.opening
  | .closes b => b.closing
  | .comma => ","
  | .colon => ":"
  | .semicolon => ";"
  | .dot => "."
  | .operator => "operator"
  | .eof => "eof"

/-- A token: its kind, its value, and the offsets of its first code point and of the end. -/
structure Token where
  kind : TokenKind
  value : Text
  pos : Nat
  stop : Nat
deriving DecidableEq, Repr

namespace Token

/-- The token at the end of a source of `size` code points. -/
def eof (size : Nat) : Token := ⟨.eof, [], size, size⟩

/-- Whether the token is the operator `op`. -/
def isOperator (t : Token) (op : Text) : Bool := t.kind = .operator && t.value = op

/-- The token as messages call it: by its value, or by its kind if that is empty. -/
def called (t : Token) : Text := if t.value.isEmpty then t.kind.called else t.value

/-- Whether a slash after the token starts a regular expression: it does after what cannot end an
expression. -/
def allowsRegex (t : Token) : Bool :=
  match t.kind with
  | .opens _ | .comma | .colon | .semicolon => true
  | .operator => t.value ≠ "++" && t.value ≠ "--"
  | _ => false

/-- The first token of a list, whose last one marks the end of the source. -/
def first : List Token → Token
  | [] => eof 0
  | t :: _ => t

end Token

/-- Why a source has no tokens from some offset on. -/
inductive LexCause
  | unterminatedComment
  | unterminatedString
  | unterminatedTemplate
  | unterminatedExpression
  | unterminatedRegex
  | invalidEscape (digits : Text)
  | escapeTooLarge
deriving DecidableEq, Repr

/-- A cause with the offset at which the failing token or escape starts. -/
structure LexError where
  cause : LexCause
  pos : Nat
deriving DecidableEq, Repr

/-- The error of the same source behind `n` more code points. -/
def LexError.later (e : LexError) (n : Nat) : LexError := ⟨e.cause, e.pos + n⟩

/-- The text of a lexical error. -/
def LexCause.message : LexCause → Text
  | .unterminatedComment => "Unterminated block comment"
  | .unterminatedString => "Unterminated string literal"
  | .unterminatedTemplate => "Unterminated template literal"
  | .unterminatedExpression => "Unterminated template expression"
  | .unterminatedRegex => "Unterminated regular expression literal"
  | .invalidEscape digits => "Invalid escape sequence: " ++ Text.shown digits
  | .escapeTooLarge => "Escape sequence out of range"

end SchemaTypings
