import SchemaTypings.Declaration.Header
import SchemaTypings.Log
import SchemaTypings.Token.Lexer

/-!
The first schema declaration of a source: a header, optional generic arguments, and a call whose
first argument is an object literal. Its span ends with the call, or with the semicolon after it.
-/

namespace SchemaTypings

/-- A declaration and its span in the source. -/
structure Declaration where
  name : Text
  text : Text
  start : Nat
  stop : Nat
deriving DecidableEq, Repr

namespace Declaration

/-- What follows generic arguments that are open `depth` deep, and the blanks after them. -/
def afterArguments? (depth : Nat) : Text → Option Text
  | [] => none
  | c :: rest =>
    if c = '<' then afterArguments? (depth + 1) rest
    else if c = '>' then
      if depth ≤ 1 then
        let rest := rest.dropWhile CodePoint.isBlank
        if rest.isEmpty then none else some rest
      else afterArguments? (depth - 1) rest
    else if c = ';' ∨ c = '\x7b' ∨ c = '\x7d' then none
    else afterArguments? depth rest

/-- What follows generic arguments, if they start here. -/
def skipArguments? (s : Text) : Option Text :=
  match s with
  | [] => none
  | c :: _ => if c = '<' then afterArguments? 0 s else some s

/-- How a walk over the tokens of a call ends. -/
inductive CallEnd
  | closed (stop : Nat)
  | notACall
  | tokenError (e : LexError)
deriving DecidableEq, Repr

/-- Walks over the tokens of a call to the bracket that closes it, matching brackets by their kind.
`stack` holds the open brackets, and `argument` tells whether the first argument has started. -/
def walkCall (error? : Option LexError) (stack : List Bracket) (argument : Bool) :
    List Token → CallEnd
  | [] => match error? with
    | some e => .tokenError e
    | none => .notACall
  | t :: rest =>
    if t.kind = .eof then .notACall
    else if stack.length = 1 ∧ !argument ∧ t.kind ≠ .opens .curly then .notACall
    else
      let argument := argument || stack.length = 1
      match t.kind with
      | .opens b => walkCall error? (b :: stack) argument rest
      | .closes b =>
        match stack with
        | [] => .notACall
        | open_ :: outer =>
          if open_ ≠ b then .notACall
          else if outer.isEmpty then .closed t.stop
          else walkCall error? outer argument rest
      | _ => walkCall error? stack argument rest

/-- The end of a call with the semicolon that follows it on the line. -/
def withSemicolon (source : Text) (stop : Nat) : Nat :=
  let tail := source.drop stop
  let gap := tail.takeWhile fun c : CodePoint => c = ' ' || c = '\t'
  if (tail.drop gap.length).head? = some (';' : CodePoint) then stop + gap.length + 1 else stop

/-- The end of the call at the offset `start`, if it is one with an object literal. -/
def callEnd? (source : Text) (start : Nat) : Logged LexError (Option Nat) :=
  let lexed := lexFrom source start
  match walkCall lexed.error? [] false lexed.tokens with
  | .closed stop => pure (some (withSemicolon source stop))
  | .notACall => pure none
  | .tokenError e =>
    if e.cause = .escapeTooLarge then Logged.fail e
    else do
      Logged.record .debug .extraction
        ("Tokenizer stopped at offset " ++ Text.ofNat e.pos ++ ": " ++ e.cause.message)
      pure none

/-- The declaration whose header starts at `start` and leaves the text `rest`, if there is one. -/
def ofHeader? (source : Text) (start : Nat) (name rest : Text) :
    Logged LexError (Option Declaration) :=
  match skipArguments? rest with
  | none => pure none
  | some call =>
    if call.head? ≠ some ('(' : CodePoint) then pure none
    else do
      match ← callEnd? source (source.length - call.length) with
      | some stop =>
        pure (some ⟨name, (source.drop start).take (stop - start), start, stop⟩)
      | none =>
        Logged.record .debug .extraction
          ("Unbalanced Schema(...) call for '" ++ name ++ "' at offset " ++ Text.ofNat start)
        pure none

/-- The first declaration from the text `rest` on, which is what remains of `source`; `inWord`
tells whether a word goes on there. -/
def search (source : Text) (inWord : Bool) (rest : Text) : Logged LexError (Option Declaration) :=
  match rest with
  | [] => pure none
  | c :: tail =>
    match if inWord then none else Header.read? (c :: tail) with
    | none => search source c.isWord tail
    | some (name, after) => do
      let start := source.length - rest.length
      match ← ofHeader? source start name after with
      | some d => pure (some d)
      | none =>
        -- The search goes on behind the header.
        let width := rest.length - after.length
        let last := ((c :: tail).take width).getLast?
        search source (last.any CodePoint.isWord) (tail.drop (width - 1))
termination_by rest.length
decreasing_by all_goals simp only [List.length_cons, List.length_drop]; omega

/-- The first schema declaration of a source, if it has one. -/
def extract (source : Text) : Logged LexError (Option Declaration) := search source false source

end Declaration

end SchemaTypings
