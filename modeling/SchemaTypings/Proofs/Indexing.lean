import SchemaTypings.Proofs.Failures

/-!
The lenient reader by positions. All tokens are one list, and a reader is at a position in it. Each
token that it looks at is asked for by its position, where there may be none, and each loop is
checked to get further in every round. The readers of the tokens that are left are followed step by
step: where the last token marks the end, no position is outside of the list and no loop is stuck.
-/

namespace SchemaTypings

/-- Whether a token of the kind closes a bracket. -/
def TokenKind.isCloser : TokenKind → Bool
  | .closes _ => true
  | _ => false

namespace Declaration

namespace Indexed

/-! ### Positions -/

/-- How reading by positions fails: no token is at a position that it asks for, a loop comes round
and is no further, values stand too deep in each other, or the text is refused. -/
inductive Fault
  | outside
  | stuck
  | tooDeep
  | refused (e : ReadError)

/-- What one round of a loop comes to: the loop goes on at a position, or it is done there. -/
inductive Round (σ α : Type)
  | again (state : σ) (pos : Nat)
  | done (result : α) (pos : Nat)

section

variable {σ α : Type} (source : Text) (all : List Token)

/-- The token at a position. -/
def token (i : Nat) : Except Fault Token :=
  match all[i]? with
  | some t => .ok t
  | none => .error .outside

/-- The token at a position, or the last one if the position is behind it. -/
def peek (i : Nat) : Except Fault Token :=
  if i < all.length then token all i else token all (all.length - 1)

/-- The next position, but for that of the last token. -/
def advance (pos : Nat) : Except Fault Nat := do
  let _ ← token all pos
  pure (if pos < all.length - 1 then pos + 1 else pos)

/-- The failure of `cause` at the token `t`. -/
def refuse (cause : ReadCause) (t : Token) : Except Fault α :=
  .error (.refused (errorAt source cause t))

/-- Goes round a loop until it is done, as long as each round ends further on in the list. -/
def loop (round : σ → Nat → Except Fault (Round σ α)) (state : σ) (pos : Nat) :
    Except Fault (α × Nat) :=
  match round state pos with
  | .error e => .error e
  | .ok (.done result next) => .ok (result, next)
  | .ok (.again state next) =>
    if _on : pos < next then
      if _inside : next < all.length then loop round state next else .error .outside
    else .error .stuck
termination_by all.length - pos

/-! ### Searches -/

/-- How many angle brackets are open behind a token if `depth` are open in front of it. -/
def angles (depth : Int) (t : Token) : Int :=
  depth + t.value.count ('<' : CodePoint) - t.value.count ('>' : CodePoint)

/-- A round of the search for the end of generic arguments that are open `depth` deep. -/
def genericsRound (depth : Int) (pos : Nat) : Except Fault (Round Int Unit) := do
  let t ← token all pos
  if t.kind = .eof then refuse source .unterminatedGenerics t
  else do
    let next ← advance all pos
    if t.kind = .operator then
      if angles depth t ≤ 0 then pure (.done () next) else pure (.again (angles depth t) next)
    else pure (.again depth next)

def skipGenerics (pos : Nat) : Except Fault (Unit × Nat) := do
  let t ← token all pos
  if t.isOperator "<" then loop all (genericsRound source all) 0 pos else pure ((), pos)

/-- A round of the search for a schema call with an object literal. -/
def callRound (_ : Unit) (pos : Nat) : Except Fault (Round Unit Unit) := do
  let t ← token all pos
  if t.kind = .eof then refuse source .noSchemaObject t
  else if t.kind = .name ∧ t.value = "Schema" then do
    let next ← advance all pos
    let (_, next) ← skipGenerics source all next
    let p ← token all next
    if p.kind = .opens .round then do
      let next ← advance all next
      let o ← token all next
      if o.kind = .opens .curly then pure (.done () next) else pure (.again () next)
    else pure (.again () next)
  else do
    let next ← advance all pos
    pure (.again () next)

def findSchemaObject (pos : Nat) : Except Fault (Unit × Nat) := do
  let t ← token all pos
  if t.kind = .opens .curly then pure ((), pos) else loop all (callRound source all) () pos

/-- A round of the search for a delimiter, where `depth` brackets are open and `last` is the token
before. -/
def delimiterRound (state : Nat × Option Token) (pos : Nat) :
    Except Fault (Round (Nat × Option Token) (Option Token)) := do
  let t ← token all pos
  if t.kind = .eof then
    if state.1 = 0 then pure (.done state.2 pos) else refuse source .unbalancedExpression t
  else if state.1 = 0 ∧ t.kind.isDelimiter then pure (.done state.2 pos)
  else do
    let next ← advance all pos
    pure (.again (depthBehind state.1 t.kind, some t) next)

def toDelimiter (pos : Nat) : Except Fault (Option Token × Nat) :=
  loop all (delimiterRound source all) (0, none) pos

/-- An expression that is not interpreted, from the position `start` on. -/
def readExpression (start : Nat) : Except Fault (Text × Nat) := do
  let first ← token all start
  let (last, pos) ← toDelimiter source all start
  match last with
  | none => refuse source .expectedValue first
  | some t => pure (slice source first.pos t.stop, pos)

/-- A round of the search for the bracket that closes the one at `start`, up to the last token. -/
def closerRound (start : Token) (depth : Nat) (pos : Nat) : Except Fault (Round Nat Token) := do
  let t ← token all pos
  if depth = 1 ∧ t.kind.isCloser then pure (.done t (pos + 1))
  else if pos + 1 < all.length then pure (.again (depthBehind depth t.kind) (pos + 1))
  else refuse source .unbalancedBrackets start

/-- The bracket that closes the one at `pos`, and the position behind it. -/
def findCloser (pos : Nat) : Except Fault (Token × Nat) := do
  let start ← token all pos
  loop all (closerRound source all start) 0 pos

/-! ### Names -/

/-- A round of reading a path of names, of which `path` is read. -/
def pathRound (path : Text) (pos : Nat) : Except Fault (Round Text Text) := do
  let d ← token all pos
  let n ← peek all (pos + 1)
  if d.kind = .dot ∧ n.kind = .name then do
    let next ← advance all pos
    let behind ← advance all next
    pure (.again (path ++ "." ++ n.value) behind)
  else pure (.done path pos)

def readName (start : Nat) : Except Fault (Raw × Nat) := do
  let first ← token all start
  let next ← advance all start
  let (path, pos) ← loop all (pathRound all) first.value next
  let t ← token all pos
  if t.kind.isDelimiter then pure ((word? path).getD (.bare path), pos)
  else do
    let (text, pos) ← readExpression source all start
    pure (.text text, pos)

/-- A round of looking ahead for the last name of a path, behind the name `last`. -/
def aheadRound (last : Option Text) (i : Nat) :
    Except Fault (Round (Option Text) (Option Text)) := do
  let n ← token all i
  if n.kind = .name then do
    let d ← token all (i + 1)
    if d.kind = .dot then pure (.again (some n.value) (i + 2)) else pure (.done (some n.value) i)
  else pure (.done last i)

/-- Whether the path of names behind `pos` ends with that of a schema. -/
def atSchema (pos : Nat) : Except Fault Bool := do
  let (last, _) ← loop all (aheadRound all) none (pos + 1)
  pure (last = some "Schema")

/-! ### Values -/

/-- What a value that starts at `start` becomes by what is behind it. -/
def finish (start : Nat) (v : Raw) (pos : Nat) : Except Fault (Raw × Nat) := do
  let t ← token all pos
  let ahead ← peek all (pos + 1)
  if t.kind.isDelimiter then pure (v, pos)
  else if t.kind = .name ∧ (t.value = "as" ∨ t.value = "satisfies") then do
    let (_, pos) ← toDelimiter source all pos
    pure (v, pos)
  else if t.isOperator "!" ∧ ahead.kind.isDelimiter then do
    let next ← advance all pos
    pure (v, next)
  else do
    let (text, pos) ← readExpression source all start
    pure (.text text, pos)

def numeral (t : Token) : Except Fault Literal := (number t).mapError .refused

-- What stands in brackets is read by a reader of the values in it.
variable (read : Nat → Except Fault (Raw × Nat))

/-- What follows a computed key, which declares no field. -/
def skipComputed (before : Entries Raw) (pos : Nat) : Except Fault (Entries Raw × Nat) := do
  let colon ← token all pos
  if colon.kind = .colon then do
    let next ← advance all pos
    let (_, pos) ← read next
    pure (before, pos)
  else refuse source (.expectedColon colon.called) colon

/-- What follows the arguments of a method, which declares no field either. -/
def skipMethod (before : Entries Raw) (pos : Nat) : Except Fault (Entries Raw × Nat) := do
  let brace ← token all pos
  if brace.kind = .opens .curly then do
    let (_, pos) ← findCloser source all pos
    pure (before, pos)
  else pure (before, pos)

def readEntry (before : Entries Raw) (pos : Nat) : Except Fault (Entries Raw × Nat) := do
  let t ← token all pos
  if t.isOperator "..." then do
    let next ← advance all pos
    let (_, pos) ← readExpression source all next
    pure (before, pos)
  else if t.kind = .opens .square then do
    let (_, pos) ← findCloser source all pos
    skipComputed source all read before pos
  else if t.kind = .name ∨ t.kind = .string ∨ t.kind = .number then do
    let next ← advance all pos
    let n ← token all next
    if n.kind = .colon then do
      let next ← advance all next
      let (v, pos) ← read next
      pure (before.move t.value v, pos)
    else if n.kind = .opens .round then do
      let (_, pos) ← findCloser source all next
      skipMethod source all before pos
    else if t.kind = .name ∧ n.kind.isDelimiter then
      pure (before.move t.value (.bare t.value), next)
    else refuse source (.expectedColonAfter t.value) n
  else refuse source (.unexpectedToken t.called) t

/-- A round of reading an object literal, where the entries `before` are read. -/
def entryRound (before : Entries Raw) (pos : Nat) :
    Except Fault (Round (Entries Raw) (Entries Raw)) := do
  let t ← token all pos
  if t.kind = .closes .curly then pure (.done before pos)
  else do
    let (entries, pos) ← readEntry source all read before pos
    let t ← token all pos
    if t.kind = .comma then do
      let next ← advance all pos
      pure (.again entries next)
    else if t.kind = .closes .curly then pure (.again entries pos)
    else refuse source .expectedCommaInObject t

def readEntries (before : Entries Raw) (pos : Nat) : Except Fault (Entries Raw × Nat) := do
  let (entries, close) ← loop all (entryRound source all read) before pos
  let next ← advance all close
  pure (entries, next)

/-- An object literal, whose brace is at `pos`. -/
def readObject (pos : Nat) : Except Fault (Entries Raw × Nat) := do
  let next ← advance all pos
  readEntries source all read [] next

/-- A round of reading an array literal, where the items `before` are read. -/
def itemRound (before : List Raw) (pos : Nat) : Except Fault (Round (List Raw) (List Raw)) := do
  let t ← token all pos
  if t.kind = .closes .square then pure (.done before pos)
  else if t.kind = .comma then do
    let next ← advance all pos
    pure (.again before next)
  else do
    let (v, pos) ← read pos
    let t ← token all pos
    if t.kind = .comma then do
      let next ← advance all pos
      pure (.again (before ++ [v]) next)
    else if t.kind = .closes .square then pure (.again (before ++ [v]) pos)
    else refuse source .expectedCommaInArray t

def readItems (before : List Raw) (pos : Nat) : Except Fault (List Raw × Nat) := do
  let (items, close) ← loop all (itemRound source all read) before pos
  let next ← advance all close
  pure (items, next)

/-- The end of the call of a nested schema that starts with `start`. -/
def closeCall (start : Token) (entries : Entries Raw) (pos : Nat) : Except Fault (Raw × Nat) := do
  let t ← token all pos
  if t.kind = .closes .round then do
    let next ← advance all pos
    pure (.object entries, next)
  else refuse source .expectedCloseOfSchema start

/-- The rest of that call, behind its object, with the options that may follow. -/
def closeSchema (start : Token) (entries : Entries Raw) (pos : Nat) :
    Except Fault (Raw × Nat) := do
  let t ← token all pos
  if t.kind = .comma then do
    let next ← advance all pos
    let (_, pos) ← toDelimiter source all next
    closeCall source all start entries pos
  else closeCall source all start entries pos

/-- The object literal of the next schema call, or the one at `pos`. -/
def readSchemaObject (pos : Nat) : Except Fault (Entries Raw × Nat) := do
  let (_, brace) ← findSchemaObject source all pos
  readObject source all read brace

def readNestedSchema (start : Nat) : Except Fault (Raw × Nat) := do
  let first ← token all start
  let (entries, pos) ← readSchemaObject source all read start
  closeSchema source all first entries pos

end

/-- The value at a position, with values up to `depth` deep in each other. -/
def readValue (source : Text) (all : List Token) : Nat → Nat → Except Fault (Raw × Nat)
  | 0, _ => .error .tooDeep
  | depth + 1, pos => do
    let t ← token all pos
    match t.kind with
    | .opens .curly => do
      let (entries, next) ← readObject source all (readValue source all depth) pos
      finish source all pos (.object entries) next
    | .opens .square => do
      let next ← advance all pos
      let (items, next) ← readItems source all (readValue source all depth) [] next
      finish source all pos (.list items) next
    | .string => do
      let next ← advance all pos
      finish source all pos (.text t.value) next
    | .number => do
      let next ← advance all pos
      let v ← numeral t
      finish source all pos (rawNumber v) next
    | .name => do
      let nests ← if t.value = "new" then atSchema all pos else pure false
      if nests then do
        let (v, next) ← readNestedSchema source all (readValue source all depth) pos
        finish source all pos v next
      else readName source all pos
    | _ => do
      let n ← peek all (pos + 1)
      if t.isOperator "-" ∧ n.kind = .number then do
        let next ← advance all pos
        let behind ← advance all next
        let v ← numeral n
        finish source all pos (rawNumber v.negated) behind
      else do
        let (text, next) ← readExpression source all pos
        pure (.text text, next)

/-- The entries of the schema that all the tokens of `source` declare. -/
def ofTokens (source : Text) (all : List Token) : Except Fault (Entries Raw) := do
  let (entries, pos) ← readSchemaObject source all (readValue source all all.length) 0
  let _ ← token all pos
  pure entries

end Indexed

end Declaration

end SchemaTypings
