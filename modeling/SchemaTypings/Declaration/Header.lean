import SchemaTypings.Text.Blank
import SchemaTypings.Text.Word

/-!
The header of a schema declaration, from the declaring keyword to the word `Schema`, found among the
raw code points of a source: `export const userSchema: Schema<IUser> = new mongoose.Schema`. Each
part is a function from a text to the text after the part.
-/

namespace SchemaTypings

namespace Header

/-- What follows `word`, if the text starts with it. -/
def after? (word : Text) (s : Text) : Option Text :=
  if word.isPrefixOf s then some (s.drop word.length) else none

/-- What follows the blanks at the start. -/
def skipBlanks (s : Text) : Text := s.dropWhile CodePoint.isBlank

/-- What follows the blanks at the start, of which there must be one. -/
def blanks? (s : Text) : Option Text :=
  match s with
  | c :: rest => if c.isBlank then some (skipBlanks rest) else none
  | [] => none

/-- The name at the start, and what follows it. -/
def name? (s : Text) : Option (Text × Text) :=
  match s with
  | c :: rest =>
    if c.isNameStart then
      some (c :: rest.takeWhile CodePoint.isNamePart, rest.dropWhile CodePoint.isNamePart)
    else none
  | [] => none

/-- Whether no word goes on at the start. -/
def atWordEnd (s : Text) : Bool :=
  match s with
  | c :: _ => !c.isWord
  | [] => true

/-- What follows the word `Schema`, if it ends there. -/
def schemaWord? (s : Text) : Option Text := (after? "Schema" s).filter atWordEnd

/-- What follows a name and the dot after it. -/
def qualifier? (s : Text) : Option Text := do
  let (_, rest) ← name? s
  let rest ← after? "." (skipBlanks rest)
  pure (skipBlanks rest)

/-- What follows a path of qualifiers and the word `Schema`; of several such words the last counts.
The path has fewer than `fuel` qualifiers. -/
def schemaPath? : Nat → Text → Option Text
  | 0, _ => none
  | fuel + 1, s =>
    match (qualifier? s).bind (schemaPath? fuel) with
    | some rest => some rest
    | none => schemaWord? s

/-- What follows an optional `new` and the path to the word `Schema`. -/
def constructor? (s : Text) : Option Text :=
  match ((after? "new" s).bind blanks?).bind (schemaPath? (s.length + 1)) with
  | some rest => some rest
  | none => schemaPath? (s.length + 1) s

/-- What follows the equals sign after a type annotation, which has no semicolon and is not
empty. -/
def annotation? (s : Text) : Option Text :=
  match s.dropWhile fun c : CodePoint => !(c = '=' || c = ';') with
  | c :: rest => if c = '=' ∧ s.head? ≠ some ('=' : CodePoint) then some rest else none
  | [] => none

/-- What follows the equals sign of a declaration, with or without an annotation before it. -/
def equals? (s : Text) : Option Text :=
  match skipBlanks s with
  | c :: rest => if c = ':' then annotation? rest else if c = '=' then some rest else none
  | [] => none

/-- The declared name and what follows the header without `export`. -/
def declaration? (s : Text) : Option (Text × Text) := do
  let rest ← (after? "const" s <|> after? "let" s <|> after? "var" s)
  let (name, rest) ← name? (← blanks? rest)
  let rest ← equals? rest
  let rest ← constructor? (skipBlanks rest)
  pure (name, skipBlanks rest)

/-- The declared name and what follows the header that starts here; a word must start here too. -/
def read? (s : Text) : Option (Text × Text) :=
  ((after? "export" s).bind blanks?).bind declaration? <|> declaration? s

end Header

end SchemaTypings
