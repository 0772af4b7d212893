import SchemaTypings.Number.Integer
import SchemaTypings.Text.Casing
import SchemaTypings.Text.Word

/-!
Handlers: what a tag of console markup asks for when its text is clicked, a name with parameters in
brackets, such as `open('a', 1)`. Parameters are literal values: numbers, quoted texts, the words
for truth and nothing, and tuples, sets and dictionaries of them.
-/

namespace SchemaTypings

namespace Handler

/-- A lexeme of parameters. -/
inductive Lexeme
  | number (imaginary : Bool)
  | quoted (bytes : Bool)
  | word (s : Text)
  | mark (c : CodePoint)
deriving DecidableEq, Repr

/-! ### Numbers -/

/-- A hexadecimal digit. -/
def isHex (c : CodePoint) : Bool := c.isAsciiDigit || c.isBetween 'a' 'f' || c.isBetween 'A' 'F'

/-- Whether `s` is a number behind the mark of another base. -/
def isMarked (s : Text) : Bool :=
  [2, 8, 16].any fun base : Nat =>
    let digits := Numeral.dropMarker base s
    digits.length < s.length && (Numeral.digits? base digits).isSome

/-- Whether `s` is a run of decimal digits. -/
def isRun (s : Text) : Bool := (Numeral.digits? 10 s).isSome

/-- Whether `s` is the exponent of a number: a run that a sign may lead. -/
def isExponent (s : Text) : Bool := isRun (Numeral.sign s).2

/-- Whether `s` is a number up to its exponent; a whole number has no zeros in front. -/
def isMantissa (whole : Bool) (s : Text) : Bool :=
  match s.splitOn '.' with
  | [i] =>
    isRun i &&
      !(whole && i.head? = some '0' && i.any fun c : CodePoint => c.isBetween '1' '9')
  | [i, f] => (isRun i && (f.isEmpty || isRun f)) || (i.isEmpty && isRun f)
  | _ => false

/-- Whether `s` is a decimal number without the mark of an imaginary one. -/
def isDecimal (imaginary : Bool) (s : Text) : Bool :=
  let mantissa := s.takeWhile fun c : CodePoint => c ≠ 'e' && c ≠ 'E'
  match s.drop mantissa.length with
  | [] => isMantissa (!imaginary) mantissa
  | _ :: exponent => isMantissa false mantissa && isExponent exponent

/-- The number that `s` is, imaginary or not. -/
def number? (s : Text) : Option Lexeme :=
  if s.any fun c : CodePoint => 128 ≤ c.val then none
  else if isMarked s then some (.number false)
  else
    let imaginary := s.getLast? = some 'j' || s.getLast? = some 'J'
    if isDecimal imaginary (if imaginary then s.dropLast else s) then some (.number imaginary)
    else none

/-- What can belong to a number behind `last`, a sign only behind the letter of an exponent. -/
def numberRun (signed : Bool) (last : CodePoint) : Text → Text
  | [] => []
  | c :: rest =>
    if c.isWord || c = '.' || 128 ≤ c.val then c :: numberRun signed c rest
    else if signed && (c = '+' || c = '-') && (last = 'e' || last = 'E') then
      c :: numberRun signed c rest
    else []

/-! ### Quoted texts -/

/-- Whether what follows a backslash may follow it. -/
def isEscape (bytes : Bool) (letter : CodePoint) (rest : Text) : Bool :=
  let hasHex (n : Nat) : Bool := (rest.take n).length = n && (rest.take n).all isHex
  if letter = 'x' then hasHex 2
  else if bytes then letter.val < 128
  else if letter = 'u' then hasHex 4
  else if letter = 'U' then hasHex 8 && (Numeral.digits? 16 (rest.take 8)).any fun digits =>
    Numeral.value 16 digits < 0x110000
  else letter ≠ 'N'

/-- The length of a quoted text behind its opening quotes, the closing ones included. -/
def quotedWidth? (q : CodePoint) (triple raw bytes : Bool) : Text → Option Nat
  | [] => none
  | c :: rest =>
    if c = '\\' then
      match rest with
      | [] => none
      | letter :: rest =>
        if raw || isEscape bytes letter rest then
          (quotedWidth? q triple raw bytes rest).map (· + 2)
        else none
    else if c = q && !triple then some 1
    else if c = q && Text.startsWith rest [q, q] then some 3
    else if (c = '\n' && !triple) || (bytes && 128 ≤ c.val) then none
    else (quotedWidth? q triple raw bytes rest).map (· + 1)

/-- The marks that may lead a quoted text, in lower case. -/
def quoteMarks : List Text := ["", "r", "u", "b", "br", "rb"]

/-- A quoted text that starts with the quote `q` and goes on with `rest`, behind `mark`, and its
length behind that quote. -/
def quoted? (mark : Text) (q : CodePoint) (rest : Text) : Option (Lexeme × Nat) :=
  let raw := mark.contains ('r' : CodePoint)
  let bytes := mark.contains ('b' : CodePoint)
  if !(quoteMarks.contains mark) then none
  else if Text.startsWith rest [q, q] then
    (quotedWidth? q true raw bytes (rest.drop 2)).map fun n => (.quoted bytes, n + 2)
  else (quotedWidth? q false raw bytes rest).map fun n => (.quoted bytes, n)

/-! ### Lexemes -/

/-- Marks that stand for themselves. -/
def marks : Text := "()\x7b\x7d,:+-"

/-- The depth of brackets behind a mark. -/
def depthAfter (depth : Nat) (c : CodePoint) : Nat :=
  if c = '(' || c = '\x7b' then depth + 1
  else if c = ')' || c = '\x7d' then depth - 1
  else depth

/-- A quote. -/
def isQuote (c : CodePoint) : Bool := c = '\'' || c = '"'

/-- The lexeme at the start of a text, if it is no mark, and its length behind the first sign. -/
def lexeme? (c : CodePoint) (rest : Text) : Option (Lexeme × Nat) :=
  if isQuote c then quoted? [] c rest
  else if c.isAsciiDigit || (c = '.' && rest.head?.any CodePoint.isAsciiDigit) then
    let signed := !(c = '0' && rest.head?.any fun d : CodePoint => d = 'x' || d = 'X')
    let run := c :: numberRun signed c rest
    (number? run).map fun l => (l, run.length - 1)
  else if c = '.' && Text.startsWith rest ".." then some (.word "...", 2)
  else if c.isWord then
    let word := c :: rest.takeWhile CodePoint.isWord
    match rest.drop (word.length - 1) with
    | q :: more =>
      if isQuote q then
        (quoted? (word.map CodePoint.asciiLower) q more).map fun (l, n) => (l, n + word.length)
      else some (.word word, word.length - 1)
    | [] => some (.word word, word.length - 1)
  else none

/-- The lexemes of a text inside `depth` brackets; a line may end only inside brackets. -/
def lexemes? (depth : Nat) (s : Text) : Option (List Lexeme) :=
  match s with
  | [] => some []
  | c :: rest =>
    if c = ' ' || c = '\t' || c = '\x0c' then lexemes? depth rest
    else if c = '\n' || c = '\r' then if depth = 0 then none else lexemes? depth rest
    else if c = '#' then lexemes? depth (rest.dropWhile fun d : CodePoint => d ≠ '\n')
    else if c = '\\' && rest.head? = some '\n' then lexemes? depth (rest.drop 1)
    else if marks.contains c then (lexemes? (depthAfter depth c) rest).map (.mark c :: ·)
    else
      match lexeme? c rest with
      | some (l, n) => (lexemes? depth (rest.drop n)).map (l :: ·)
      | none => none
termination_by s.length
decreasing_by
  · simp
  · simp
  · have := (List.dropWhile_suffix (l := rest) fun d : CodePoint => d ≠ '\n').length_le
    simp only [List.length_cons]
    omega
  all_goals simp only [List.length_cons, List.length_drop]; omega

/-! ### Values -/

/-- The kinds of values, as far as it matters where they may stand. -/
inductive Kind
  /-- A number without a sign. -/
  | real
  | imaginary
  /-- A number with a sign. -/
  | signed
  /-- Any other value that can be a key. -/
  | fixed
  /-- A value that can be no key: a set or a dictionary. -/
  | changing
deriving DecidableEq, Repr

/-- The words that are values. -/
def constants : List Text := ["True", "False", "None", "..."]

/-- The lexemes behind the quoted texts of one kind at the start; two kinds do not mix. -/
def dropQuoted (bytes : Bool) : List Lexeme → Option (List Lexeme)
  | .quoted b :: rest => if b = bytes then dropQuoted bytes rest else none
  | rest => some rest

/-- The kind of a tuple. -/
def tupleKind (changing : Bool) : Kind := if changing then .changing else .fixed

mutual

/-- The kind of the value at the start, without a sign or a sum, and what follows it. -/
def atom? : Nat → List Lexeme → Option (Kind × List Lexeme)
  | 0, _ => none
  | fuel + 1, lexemes =>
    match lexemes with
    | .number imaginary :: rest => some (if imaginary then .imaginary else .real, rest)
    | .quoted bytes :: rest => (dropQuoted bytes rest).map fun rest => (.fixed, rest)
    | .word w :: .mark a :: .mark b :: rest =>
      if w = "set" && a = '(' && b = ')' then some (.changing, rest)
      else if constants.contains w then some (.fixed, .mark a :: .mark b :: rest)
      else none
    | .word w :: rest => if constants.contains w then some (.fixed, rest) else none
    | .mark c :: rest =>
      if c = '(' then
        if rest.head? = some (.mark ')') then some (.fixed, rest.drop 1)
        else do
          let (kind, rest) ← value? fuel rest
          match rest with
          | .mark d :: rest =>
            if d = ')' then some (kind, rest)
            else if d = ',' then tuple? fuel (kind = .changing) rest
            else none
          | _ => none
      else if c = '\x7b' then
        if rest.head? = some (.mark '\x7d') then some (.changing, rest.drop 1)
        else do
          let (key, rest) ← value? fuel rest
          if key = .changing then none
          else if rest.head? = some (.mark ':') then do
            let (_, rest) ← value? fuel (rest.drop 1)
            members? fuel true rest
          else members? fuel false rest
      else none
    | [] => none

/-- The kind of the value at the start, which may have a sign or be the sum of a real and an
imaginary number, and what follows it. -/
def value? : Nat → List Lexeme → Option (Kind × List Lexeme)
  | 0, _ => none
  | fuel + 1, lexemes => do
    let (kind, rest) ←
      if lexemes.head? = some (.mark '+') || lexemes.head? = some (.mark '-') then do
        let (kind, rest) ← atom? fuel (lexemes.drop 1)
        if kind = .real then some (Kind.signed, rest)
        else if kind = .imaginary then some (Kind.fixed, rest)
        else none
      else atom? fuel lexemes
    if rest.head? = some (.mark '+') || rest.head? = some (.mark '-') then do
      let (second, rest) ← atom? fuel (rest.drop 1)
      if (kind = .real || kind = .signed) && second = .imaginary then some (.fixed, rest) else none
    else some (kind, rest)

/-- The tuple whose values so far end in a comma, and what follows it. -/
def tuple? : Nat → Bool → List Lexeme → Option (Kind × List Lexeme)
  | 0, _, _ => none
  | fuel + 1, changing, lexemes =>
    if lexemes.head? = some (.mark ')') then some (tupleKind changing, lexemes.drop 1)
    else do
      let (kind, rest) ← value? fuel lexemes
      let changing := changing || kind = .changing
      match rest with
      | .mark d :: rest =>
        if d = ')' then some (tupleKind changing, rest)
        else if d = ',' then tuple? fuel changing rest
        else none
      | _ => none

/-- The set or dictionary that goes on behind one of its members, and what follows it. -/
def members? : Nat → Bool → List Lexeme → Option (Kind × List Lexeme)
  | 0, _, _ => none
  | fuel + 1, paired, lexemes =>
    match lexemes with
    | .mark d :: rest =>
      if d = '\x7d' then some (.changing, rest)
      else if d = ',' then
        if rest.head? = some (.mark '\x7d') then some (.changing, rest.drop 1)
        else do
          let (key, rest) ← value? fuel rest
          if key = .changing then none
          else if paired then
            if rest.head? = some (.mark ':') then do
              let (_, rest) ← value? fuel (rest.drop 1)
              members? fuel true rest
            else none
          else members? fuel false rest
      else none
    | _ => none

end

/-- Whether a text is a literal value, or more of them between commas. -/
def isLiteral (s : Text) : Bool :=
  if s.any fun c : CodePoint => c.isSurrogate || c.val = 0 then false
  else
    match lexemes? 0 s with
    | some (l :: rest) =>
      let lexemes : List Lexeme := .mark '(' :: l :: rest ++ [.mark ')']
      match atom? (2 * lexemes.length) lexemes with
      | some (_, []) => true
      | _ => false
    | _ => false

/-! ### Handlers -/

/-- The parameters of a handler: those in brackets behind its name, none behind a name alone, and
all of it if it does not start with a name. -/
def parameters (s : Text) : Text :=
  let name := s.takeWhile fun c : CodePoint => c.isWord || c = '.'
  match s.drop name.length with
  | [] => "()"
  | c :: rest =>
    if c = '(' && rest.getLast? = some ')' && !(rest.contains ('\n' : CodePoint)) then c :: rest
    else s

/-- Whether a text is a handler. -/
def isValid (s : Text) : Bool := isLiteral (parameters s.strip)

end Handler

end SchemaTypings
