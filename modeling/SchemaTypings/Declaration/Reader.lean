import SchemaTypings.Declaration.Raw
import SchemaTypings.Literal.Printer
import SchemaTypings.Log
import SchemaTypings.Malformed
import SchemaTypings.Token.Lexer

/-!
Declarations, read leniently: the object literal of a schema, whose values may be any expression.
Nothing is evaluated; an expression that is no literal becomes a string of its source text. A reader
takes the tokens that are left and returns what it read and the tokens after it.
-/

namespace SchemaTypings

/-- What the lenient reader misses at a token. -/
inductive ReadCause
  | expectedColon (found : Text)
  | noSchemaObject
  | unterminatedGenerics
  | expectedValue
  | unbalancedExpression
  | unbalancedBrackets
  | expectedColonAfter (key : Text)
  | unexpectedToken (found : Text)
  | expectedCommaInObject
  | expectedCommaInArray
  | expectedCloseOfSchema
deriving DecidableEq, Repr

/-- The text of a cause. -/
def ReadCause.message : ReadCause → Text
  | .expectedColon found => "Expected ':', got " ++ found.shown
  | .noSchemaObject => "No Schema(\x7b...\x7d) object literal found"
  | .unterminatedGenerics => "Unterminated generic argument list"
  | .expectedValue => "Expected a value"
  | .unbalancedExpression => "Unbalanced brackets in expression"
  | .unbalancedBrackets => "Unbalanced brackets"
  | .expectedColonAfter key => "Expected ':' after key '" ++ key ++ "'"
  | .unexpectedToken found => "Unexpected token " ++ found.shown ++ " in object literal"
  | .expectedCommaInObject => "Expected ',' or '\x7d' in object literal"
  | .expectedCommaInArray => "Expected ',' or ']' in array literal"
  | .expectedCloseOfSchema => "Expected ')' after nested Schema(\x7b...\x7d)"

/-- Whether a token of the kind ends a value at its own depth. -/
def TokenKind.isDelimiter : TokenKind → Bool
  | .comma | .semicolon | .eof | .closes _ => true
  | _ => false

namespace Declaration

/-- The error of `cause` at the token `t`. -/
def errorAt (source : Text) (cause : ReadCause) (t : Token) : ReadError :=
  .malformed ⟨.declaration, cause.message, none, some source, some t.pos⟩

/-- The source text from a token's start to another's end. -/
def slice (source : Text) (start stop : Nat) : Text := (source.drop start).take (stop - start)

/-- The tokens behind the angle brackets that are open `depth` deep. -/
def afterGenerics (source : Text) (depth : Int) : List Token → Except ReadError (List Token)
  | [] => .error (errorAt source .unterminatedGenerics (Token.first []))
  | t :: rest =>
    if t.kind = .eof then .error (errorAt source .unterminatedGenerics t)
    else if t.kind = .operator then
      let depth : Int := depth + t.value.count ('<' : CodePoint) - t.value.count ('>' : CodePoint)
      if depth ≤ 0 then .ok rest else afterGenerics source depth rest
    else afterGenerics source depth rest

/-- The tokens behind a list of generic arguments, if one starts here. -/
def skipGenerics (source : Text) (ts : List Token) : Except ReadError (List Token) :=
  if (Token.first ts).isOperator "<" then afterGenerics source 0 ts else .ok ts

theorem length_afterGenerics {source : Text} {depth : Int} {ts rest : List Token}
    (h : afterGenerics source depth ts = .ok rest) : rest.length ≤ ts.length := by
  induction ts generalizing depth with
  | nil => simp [afterGenerics] at h
  | cons t more ih =>
    simp only [afterGenerics] at h
    split at h
    · simp at h
    · split at h
      · split at h
        · cases h; simp
        · exact Nat.le_succ_of_le (ih h)
      · exact Nat.le_succ_of_le (ih h)

theorem length_skipGenerics {source : Text} {ts rest : List Token}
    (h : skipGenerics source ts = .ok rest) : rest.length ≤ ts.length := by
  unfold skipGenerics at h
  split at h
  · exact length_afterGenerics h
  · cases h; exact Nat.le_refl _

/-- The tokens from the object literal on that is the first argument of the next schema call. -/
def findCall (source : Text) (ts : List Token) : Except ReadError (List Token) :=
  match ts with
  | [] => .error (errorAt source .noSchemaObject (Token.first []))
  | t :: rest =>
    if t.kind = .eof then .error (errorAt source .noSchemaObject t)
    else if t.kind = .name ∧ t.value = "Schema" then
      match _h : skipGenerics source rest with
      | .error e => .error e
      | .ok [] => .error (errorAt source .noSchemaObject (Token.first []))
      | .ok (p :: inner) =>
        if p.kind = .opens .round then
          if (Token.first inner).kind = .opens .curly then .ok inner else findCall source inner
        else findCall source (p :: inner)
    else findCall source rest
termination_by ts.length
decreasing_by
  · have := length_skipGenerics _h
    simp only [List.length_cons] at this ⊢
    omega
  · have := length_skipGenerics _h
    simp only [List.length_cons] at this ⊢
    omega
  · simp

/-- The tokens from the schema's object literal on, which may stand alone. -/
def findSchemaObject (source : Text) (ts : List Token) : Except ReadError (List Token) :=
  if (Token.first ts).kind = .opens .curly then .ok ts else findCall source ts

/-- The tokens from the first delimiter on that stands no deeper than the first token, where
`depth` brackets are open, and the last token before it. -/
def toDelimiter (source : Text) (depth : Nat) (last : Option Token) :
    List Token → Except ReadError (Option Token × List Token)
  | [] => .ok (last, [])
  | t :: rest =>
    if t.kind = .eof then
      if depth = 0 then .ok (last, t :: rest)
      else .error (errorAt source .unbalancedExpression t)
    else if depth = 0 ∧ t.kind.isDelimiter then .ok (last, t :: rest)
    else
      match t.kind with
      | .opens _ => toDelimiter source (depth + 1) (some t) rest
      | .closes _ => toDelimiter source (depth - 1) (some t) rest
      | _ => toDelimiter source depth (some t) rest

/-- An expression that is not interpreted, as its source text. -/
def readOpaque (source : Text) (ts : List Token) : Except ReadError (Text × List Token) := do
  let (last, rest) ← toDelimiter source 0 none ts
  match last with
  | none => .error (errorAt source .expectedValue (Token.first ts))
  | some t => pure (slice source (Token.first ts).pos t.stop, rest)

/-- The closing bracket at which the count of open brackets first returns to zero, and the tokens
after it. A search starts at a bracket that opens, so that the count is not zero when one closes. -/
def closer? (depth : Nat) : List Token → Option (Token × List Token)
  | [] => none
  | t :: rest =>
    match t.kind with
    | .opens _ => closer? (depth + 1) rest
    | .closes _ => if depth = 1 then some (t, rest) else closer? (depth - 1) rest
    | _ => closer? depth rest

/-- The bracket that closes the one at the start of the tokens, and the tokens after it. -/
def findCloser (source : Text) (ts : List Token) : Except ReadError (Token × List Token) :=
  match closer? 0 ts with
  | some found => .ok found
  | none => .error (errorAt source .unbalancedBrackets (Token.first ts))

/-- A path of names after its first name `path`, and the tokens after it. -/
def namePath (path : Text) : List Token → Text × List Token
  | d :: n :: rest =>
    if d.kind = .dot ∧ n.kind = .name then namePath (path ++ "." ++ n.value) rest
    else (path, d :: n :: rest)
  | ts => (path, ts)

/-- The last name of a path of names at the start of the tokens. -/
def lastOfPath : List Token → Option Text
  | [] => none
  | n :: rest =>
    if n.kind = .name then
      match rest with
      | d :: more => if d.kind = .dot then some ((lastOfPath more).getD n.value) else some n.value
      | [] => some n.value
    else none

/-- The value of a single name that stands for one. -/
def word? (path : Text) : Option Raw :=
  if path = "true" then some (.bool true)
  else if path = "false" then some (.bool false)
  else if path = "null" ∨ path = "undefined" then some .null
  else none

/-- The raw value of a number. -/
def rawNumber : Literal → Raw
  | .int i => .int i
  | .float x => .float x
  | _ => .null

/-- The value of a number token. -/
def number (t : Token) : Except ReadError Literal :=
  match NumberLiteral.value? t.value with
  | some v => .ok v
  | none => .error .badNumber

/-- What a value becomes by what follows it: an assertion of its type leaves it, and anything else
that does not end it makes the whole expression opaque. -/
def finish (source : Text) (start : List Token) (v : Raw) (ts : List Token) :
    Except ReadError (Raw × List Token) :=
  let t := Token.first ts
  if t.kind.isDelimiter then .ok (v, ts)
  else if t.kind = .name ∧ (t.value = "as" ∨ t.value = "satisfies") then do
    let (_, rest) ← toDelimiter source 0 none ts
    pure (v, rest)
  else if t.isOperator "!" ∧ (Token.first ts.tail).kind.isDelimiter then .ok (v, ts.tail)
  else do
    let (text, rest) ← readOpaque source start
    pure (.text text, rest)

/-- A name in the place of a value: a word, a path of names, or the start of an expression. -/
def readName (source : Text) (ts : List Token) : Except ReadError (Raw × List Token) :=
  let (path, rest) := namePath (Token.first ts).value ts.tail
  if (Token.first rest).kind.isDelimiter then .ok ((word? path).getD (.bare path), rest)
  else do
    let (text, rest) ← readOpaque source ts
    pure (.text text, rest)

/-- Leaves a record of the reader. -/
def note (level : Level) (message : Text) : Logged ReadError Unit :=
  Logged.record level .reading message

mutual

/-- The value at the start of the tokens. -/
def readValue (source : Text) : Nat → List Token → Logged ReadError (Raw × List Token)
  | 0, ts => Logged.fail (errorAt source .expectedValue (Token.first ts))
  | _ + 1, [] => Logged.fail (errorAt source .expectedValue (Token.first []))
  | fuel + 1, t :: rest =>
    match t.kind with
    | .opens .curly => do
      let (entries, more) ← readEntries source fuel [] rest
      finish source (t :: rest) (.object entries) more
    | .opens .square => do
      let (items, more) ← readItems source fuel rest
      finish source (t :: rest) (.list items) more
    | .string => finish source (t :: rest) (.text t.value) rest
    | .number => do
      let v ← number t
      finish source (t :: rest) (rawNumber v) rest
    | .name =>
      if t.value = "new" ∧ lastOfPath rest = some "Schema" then do
        let (v, more) ← readNestedSchema source fuel (t :: rest)
        finish source (t :: rest) v more
      else readName source (t :: rest)
    | _ =>
      if t.isOperator "-" ∧ (Token.first rest).kind = .number then do
        let v ← number (Token.first rest)
        finish source (t :: rest) (rawNumber v.negated) rest.tail
      else do
        let (text, more) ← readOpaque source (t :: rest)
        pure (.text text, more)

/-- The schema that a `new` at the start of the tokens builds: the object literal it is given. -/
def readNestedSchema (source : Text) : Nat → List Token → Logged ReadError (Raw × List Token)
  | 0, ts => Logged.fail (errorAt source .expectedValue (Token.first ts))
  | fuel + 1, ts => do
    let object ← findSchemaObject source ts
    let (entries, rest) ← readEntries source fuel [] object.tail
    let rest ← if (Token.first rest).kind = .comma then
        (do let (_, rest) ← toDelimiter source 0 none rest.tail; pure rest)
      else pure rest
    if (Token.first rest).kind = .closes .round then pure (.object entries, rest.tail)
    else Logged.fail (errorAt source .expectedCloseOfSchema (Token.first ts))

/-- The entries of an object literal up to its closing brace, behind the entries `before`. -/
def readEntries (source : Text) : Nat → Entries Raw → List Token →
    Logged ReadError (Entries Raw × List Token)
  | 0, _, ts => Logged.fail (errorAt source .expectedValue (Token.first ts))
  | _ + 1, _, [] => Logged.fail (errorAt source (.unexpectedToken "eof") (Token.first []))
  | fuel + 1, before, t :: rest =>
    if t.kind = .closes .curly then pure (before, rest)
    else do
      let (entries, after) ← readEntry source fuel before (t :: rest)
      if (Token.first after).kind = .comma then readEntries source fuel entries after.tail
      else if (Token.first after).kind = .closes .curly then pure (entries, after.tail)
      else Logged.fail (errorAt source .expectedCommaInObject (Token.first after))

/-- One entry of an object literal, put behind the entries `before`. Spreads, computed keys and
methods declare no field. -/
def readEntry (source : Text) : Nat → Entries Raw → List Token →
    Logged ReadError (Entries Raw × List Token)
  | 0, _, ts => Logged.fail (errorAt source .expectedValue (Token.first ts))
  | _ + 1, _, [] => Logged.fail (errorAt source (.unexpectedToken "eof") (Token.first []))
  | fuel + 1, before, t :: rest =>
    if t.isOperator "..." then do
      let (spread, after) ← readOpaque source rest
      note .warning ("Ignoring object spread '..." ++ spread ++ "' in schema declaration")
      pure (before, after)
    else if t.kind = .opens .square then do
      let (close, after) ← findCloser source (t :: rest)
      let colon := Token.first after
      if colon.kind ≠ .colon then
        Logged.fail (errorAt source (.expectedColon colon.called) colon)
      else do
        let (_, after) ← readValue source fuel after.tail
        note .warning ("Ignoring computed key " ++ slice source t.pos close.stop)
        pure (before, after)
    else if t.kind = .name ∨ t.kind = .string ∨ t.kind = .number then
      let next := Token.first rest
      if next.kind = .colon then do
        let (v, after) ← readValue source fuel rest.tail
        pure (before.move t.value v, after)
      else if next.kind = .opens .round then do
        let (_, after) ← findCloser source rest
        let after ← if (Token.first after).kind = .opens .curly then
            (do let (_, after) ← findCloser source after; pure after)
          else pure after
        note .debug ("Skipping method '" ++ t.value ++ "' in schema declaration")
        pure (before, after)
      else if t.kind = .name ∧ next.kind.isDelimiter then
        pure (before.move t.value (.bare t.value), rest)
      else Logged.fail (errorAt source (.expectedColonAfter t.value) next)
    else Logged.fail (errorAt source (.unexpectedToken t.called) t)

/-- The items of an array literal up to its closing bracket. Holes do not count. -/
def readItems (source : Text) : Nat → List Token → Logged ReadError (List Raw × List Token)
  | 0, ts => Logged.fail (errorAt source .expectedValue (Token.first ts))
  | _ + 1, [] => Logged.fail (errorAt source .expectedValue (Token.first []))
  | fuel + 1, t :: rest =>
    if t.kind = .closes .square then pure ([], rest)
    else if t.kind = .comma then readItems source fuel rest
    else do
      let (v, after) ← readValue source fuel (t :: rest)
      if (Token.first after).kind = .comma then do
        let (vs, after) ← readItems source fuel after.tail
        pure (v :: vs, after)
      else if (Token.first after).kind = .closes .square then pure ([v], after.tail)
      else Logged.fail (errorAt source .expectedCommaInArray (Token.first after))

end

/-- The entries of the schema that the tokens of `source` declare, as they are written. -/
def ofTokens (source : Text) (ts : List Token) : Logged ReadError (Entries Raw) := do
  let object ← findSchemaObject source ts
  let (entries, rest) ← readEntries source (3 * ts.length + 3) [] object.tail
  if (Token.first rest).kind = .comma then note .debug "Discarding schema options argument"
  pure entries

/-- The entries of the schema that a text declares, as they are written. -/
def readRaw (text : Text) : Logged ReadError (Entries Raw) :=
  match tokenize text with
  | .error e => Logged.fail (.ofLexical .declaration text e)
  | .ok ts => ofTokens text ts

/-- The fields of the schema that a text declares, each with its type quoted. -/
def read (text : Text) : Logged ReadError (Entries Literal) := do
  pure (Raw.quoteFields (← readRaw text))

/-- The declaration as canonical object-literal text. -/
def normalize (text : Text) : Logged ReadError Text := do
  pure (Literal.object (← read text)).render

end Declaration

end SchemaTypings
