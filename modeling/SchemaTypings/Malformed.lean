import SchemaTypings.Text.Position
import SchemaTypings.Token

/-!
Errors about a text that cannot be read as a value. They carry the text and the failing offset, and
their message names file, line and column.
-/

namespace SchemaTypings

/-- Which reading failed: of a declaration as it is written, or of literal text. -/
inductive Stage
  | declaration
  | literal
deriving DecidableEq, Repr

/-- A text that cannot be read. -/
structure Malformed where
  stage : Stage
  message : Text
  path : Option Text
  text : Option Text
  pos : Option Nat
deriving DecidableEq, Repr

namespace Malformed

/-- The file of the text, or a word for a text without one. -/
def file (m : Malformed) : Text :=
  match m.path with
  | none => "<source>"
  | some path => if path.isEmpty then "<source>" else path

/-- File, line and column of the failure, as far as they are known. -/
def location (m : Malformed) : Text :=
  match m.text, m.pos with
  | some text, some pos =>
    let place := Text.positionAt text pos
    m.file ++ ":" ++ Text.ofNat place.line ++ ":" ++ Text.ofNat place.column
  | _, _ => m.file

/-- The message behind its location. -/
def described (m : Malformed) : Text := m.location ++ ": " ++ m.message

/-- The same error in another file. -/
def withPath (m : Malformed) (path : Text) : Malformed := { m with path := some path }

end Malformed

/-- Why a text has no value: it is malformed, or one of its numbers or escapes has no value. -/
inductive ReadError
  | malformed (m : Malformed)
  | badNumber
  | escapeTooLarge
deriving DecidableEq, Repr

/-- The error of a text that has no tokens. -/
def ReadError.ofLexical (stage : Stage) (text : Text) (e : LexError) : ReadError :=
  match e.cause with
  | .escapeTooLarge => .escapeTooLarge
  | cause => .malformed ⟨stage, cause.message, none, some text, some e.pos⟩

end SchemaTypings
