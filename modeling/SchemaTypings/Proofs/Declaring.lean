import SchemaTypings.Declaration.Extract
import SchemaTypings.Declaration.Reader
import SchemaTypings.Proofs.ReaderSteps
import SchemaTypings.Proofs.Reading
import SchemaTypings.Proofs.Rendering

/-!
Sources that declare one schema: a header, the call, and an argument that may be any text. What the
header and the marks around the argument are read as does not depend on the argument.
-/

namespace SchemaTypings

namespace Declaration

/-- The source that declares a schema with an argument. -/
def ofArgument (argument : Text) : Text := "const s = new Schema(" ++ (argument ++ ");")

/-- The header ends before the bracket that opens the call. -/
theorem read?_ofArgument (argument : Text) :
    Header.read? (ofArgument argument) = some (("s" : Text), "(" ++ (argument ++ ");")) := rfl

/-! ### Tokens around the argument -/

theorem lexes_new : Lexes "new Schema("
    [⟨.name, "new", 0, 3⟩, ⟨.name, "Schema", 4, 10⟩, ⟨.opens .round, "(", 10, 11⟩]
    fun _ => True := by
  have new : Lexes "new" _ Text.Stops := .name (by decide)
  have schema : Lexes "Schema" _ Text.Stops := .name (by decide)
  have mark : Lexes "(" _ fun _ => True := .mark (c := '(') rfl
  have call := schema.append mark fun _ _ => Text.stops_cons (by decide)
  have space : Lexes " " [] fun _ => True := .blank (c := ' ') (by decide)
  exact new.append (space.append call fun _ _ => trivial) fun _ _ => Text.stops_cons (by decide)

/-- The tokens of the header and of the bracket after it. -/
def headerTokens : List Token :=
  [⟨.name, "const", 0, 5⟩, ⟨.name, "s", 6, 7⟩, ⟨.operator, "=", 8, 9⟩, ⟨.name, "new", 10, 13⟩,
    ⟨.name, "Schema", 14, 20⟩, ⟨.opens .round, "(", 20, 21⟩]

theorem lexes_header : Lexes "const s = new Schema(" headerTokens fun _ => True := by
  have space : Lexes " " [] fun _ => True := .blank (c := ' ') (by decide)
  have const : Lexes "const" _ Text.Stops := .name (by decide)
  have name : Lexes "s" _ Text.Stops := .name (by decide)
  have equals : Lexes "=" _ _ :=
    .operator (c := '=') (by decide) (by decide) (by decide) (by decide)
  have value := space.append lexes_new fun _ _ => trivial
  have assigned := equals.append value fun rest _ => by
    simp [Lexeme.operators, Text.ofString, List.isPrefixOf]
  have named := name.append (space.append assigned fun _ _ => trivial) fun _ _ =>
    Text.stops_cons (by decide)
  exact const.append (space.append named fun _ _ => trivial) fun _ _ => Text.stops_cons (by decide)

/-- The tokens of the bracket that closes the call and of the semicolon. -/
def closeTokens : List Token := [⟨.closes .round, ")", 0, 1⟩, ⟨.semicolon, ";", 1, 2⟩]

theorem lexes_close : Lexes ");" closeTokens fun _ => True :=
  (Lexes.mark (c := ')') rfl).append (.mark (c := ';') rfl) fun _ _ => trivial

/-- The tokens of a declaration with the argument `argument`. -/
theorem lexes_ofArgument {argument : Text} {ts : List Token}
    (h : Lexes argument ts Text.Stops) :
    Lexes (ofArgument argument)
      (headerTokens ++ (ts ++ closeTokens.map (·.later argument.length)).map (·.later 21))
      fun _ => True :=
  lexes_header.append (h.append lexes_close fun _ _ => Text.stops_cons (by decide))
    fun _ _ => trivial

section

variable {source : Text}

/-- Behind the header stands the object literal that is the argument. -/
theorem findSchemaObject_header {inner : List Token}
    (h : (Token.first inner).kind = .opens .curly) :
    findSchemaObject source (headerTokens ++ inner) = .ok inner := by
  have const : ("const" : Text) ≠ "Schema" := by decide
  have s : ("s" : Text) ≠ "Schema" := by decide
  have new : ("new" : Text) ≠ "Schema" := by decide
  rw [findSchemaObject, if_neg (by simp [headerTokens, Token.first])]
  simp only [headerTokens, List.cons_append, List.nil_append]
  rw [findCall_skip (by simp) (by simp [const]), findCall_skip (by simp) (by simp [s]),
    findCall_skip (by simp) (by simp), findCall_skip (by simp) (by simp [new]),
    findCall_schema ⟨rfl, rfl⟩ rfl h]

end

/-! ### The walk over the call -/

section

variable {error? : Option LexError}

theorem walkCall_key {stack : List Bracket} {k c : Token} {ts : List Token}
    (key : LiteralText.isKey k = true) (colon : c.kind = .colon) :
    walkCall error? (.curly :: stack) true (k :: c :: ts) =
      walkCall error? (.curly :: stack) true ts := by
  have kinds : k.kind = .name ∨ k.kind = .string ∨ k.kind = .number := by
    simpa [LiteralText.isKey, or_assoc] using key
  rcases kinds with h | h | h <;> simp [walkCall, h, colon]

mutual

/-- A walk passes over a value inside an argument. -/
theorem walkCall_denotes (open_ : Bracket) (stack : List Bracket) (rest : List Token)
    {ts : List Token} {v : Literal} : LiteralText.Denotes ts v →
      walkCall error? (open_ :: stack) true (ts ++ rest) =
        walkCall error? (open_ :: stack) true rest
  | .word name h => by simp [walkCall, name]
  | .text string => by simp [walkCall, string]
  | .number number h => by simp [walkCall, number]
  | .negative minus number h => by simp [walkCall, minus, number]
  | .list opens items => by
    simp [walkCall, opens, walkCall_denotesItems open_ stack rest items]
  | .object opens members => by
    simp [walkCall, opens, walkCall_denotesMembers open_ stack rest members]

theorem walkCall_denotesItems (open_ : Bracket) (stack : List Bracket) (rest : List Token)
    {ts : List Token} {vs : List Literal} : LiteralText.DenotesItems ts vs →
      walkCall error? (.square :: open_ :: stack) true (ts ++ rest) =
        walkCall error? (open_ :: stack) true rest
  | .close closes => by simp [walkCall, closes]
  | .last value closes => by
    rw [List.append_assoc, walkCall_denotes .square (open_ :: stack) _ value]
    simp [walkCall, closes]
  | .more value comma items => by
    rw [List.append_assoc, walkCall_denotes .square (open_ :: stack) _ value, List.cons_append]
    simp [walkCall, comma, walkCall_denotesItems open_ stack rest items]

theorem walkCall_denotesMembers (open_ : Bracket) (stack : List Bracket) (rest : List Token)
    {ts : List Token} {es : List (Text × Literal)} : LiteralText.DenotesMembers ts es →
      walkCall error? (.curly :: open_ :: stack) true (ts ++ rest) =
        walkCall error? (open_ :: stack) true rest
  | .close closes => by simp [walkCall, closes]
  | .last key colon value closes => by
    rw [List.cons_append, List.cons_append, walkCall_key key colon, List.append_assoc,
      walkCall_denotes .curly (open_ :: stack) _ value]
    simp [walkCall, closes]
  | .more key colon value comma members => by
    rw [List.cons_append, List.cons_append, walkCall_key key colon, List.append_assoc,
      walkCall_denotes .curly (open_ :: stack) _ value, List.cons_append]
    simp [walkCall, comma, walkCall_denotesMembers open_ stack rest members]

end

end

/-- The call around an object literal ends with the bracket behind it. -/
theorem walkCall_call {l r : Token} {ts : List Token} {es : List (Text × Literal)}
    (opens : l.kind = .opens .round) (object : LiteralText.Denotes ts (.object es))
    (closes : r.kind = .closes .round) (rest : List Token) :
    walkCall none [] false (l :: (ts ++ r :: rest)) = .closed r.stop := by
  obtain ⟨b, us, ms, rfl, opens', members, -⟩ := object.exists_members
  simp [walkCall, opens, opens', closes, walkCall_denotesMembers .round [] _ members]

/-! ### Extraction -/

section

variable {argument : Text} {ts : List Token} {es : Entries Literal}

theorem length_header : ("const s = new Schema(" : Text).length = 21 := rfl

theorem length_open : ("(" : Text).length = 1 := rfl

theorem length_close : (");" : Text).length = 2 := rfl

theorem length_ofArgument : (ofArgument argument).length = argument.length + 23 := by
  simp [ofArgument, length_header, length_close]
  omega

/-- The call ends with the semicolon, which ends the source. -/
theorem callEnd?_ofArgument (h : Lexes argument ts Text.Stops)
    (object : LiteralText.Denotes ts (.object es)) :
    (callEnd? (ofArgument argument) 20).outcome = .ok (some (ofArgument argument).length) := by
  have opened : Lexes "(" _ fun _ => True := .mark (c := '(') rfl
  have call := opened.append (h.append lexes_close fun _ _ => Text.stops_cons (by decide))
    fun _ _ => trivial
  have start : min 20 (ofArgument argument).length = 20 := by
    rw [length_ofArgument]
    omega
  let n := argument.length
  have size : 20 + (("(" : Text) ++ (argument ++ ");")).length = n + 23 := by
    simp [n, length_open, length_close]
    omega
  have lexed : lex true 20 ("(" ++ (argument ++ ");")) =
      ⟨⟨.opens .round, "(", 20, 21⟩ :: (ts.map (·.later 21) ++
        [⟨.closes .round, ")", n + 21, n + 22⟩, ⟨.semicolon, ";", n + 22, n + 23⟩,
          Token.eof (n + 23)]), none⟩ := by
    rw [call.lex_eq trivial true 20, size, List.map_append, List.map_append, List.map_append,
      Token.map_later_later, closeTokens]
    simp [Token.later, n, length_open, Nat.add_comm, Nat.add_left_comm]
    rfl
  have walked (l r : Token) (opens : l.kind = .opens .round) (closes : r.kind = .closes .round)
      (rest : List Token) : walkCall none [] false (l :: (ts.map (·.later 21) ++ r :: rest)) =
        .closed r.stop :=
    walkCall_call opens (object.later 21) closes rest
  have source : (ofArgument argument).drop 20 = "(" ++ (argument ++ ");") := rfl
  have behind : (ofArgument argument).drop (n + 22) = ";" := by
    have split : ofArgument argument = (("const s = new Schema(" ++ argument) ++ ")") ++ ";" := by
      simp [ofArgument]
      rfl
    rw [split]
    have close : (")" : Text).length = 1 := rfl
    exact List.drop_left' (by simp [n, length_header, close]; omega)
  have stop : withSemicolon (ofArgument argument) (n + 22) = (ofArgument argument).length := by
    rw [withSemicolon, behind, length_ofArgument]
    rfl
  rw [callEnd?, lexFrom, start, source, lexed]
  dsimp only
  rw [walked _ _ rfl rfl]
  exact congrArg (fun n => Except.ok (some n)) stop

/-- A search ends at a header whose call has an end. -/
theorem search_found {source rest name after : Text} {d : Declaration}
    (header : Header.read? rest = some (name, after))
    (found : (ofHeader? source (source.length - rest.length) name after).outcome = .ok (some d)) :
    (search source false rest).outcome = .ok (some d) := by
  cases rest with
  | nil => cases header
  | cons c tail =>
    rw [search]
    simp only [Bool.false_eq_true, if_false, header, Logged.outcome_bind, found]
    rfl

/-- The declaration is the whole source. -/
theorem extract_ofArgument (h : Lexes argument ts Text.Stops)
    (object : LiteralText.Denotes ts (.object es)) :
    (extract (ofArgument argument)).outcome =
      .ok (some ⟨"s", ofArgument argument, 0, (ofArgument argument).length⟩) := by
  have call : (ofArgument argument).length - (("(" : Text) ++ (argument ++ ");")).length = 20 := by
    simp [length_ofArgument, length_open, length_close]
    omega
  refine search_found (read?_ofArgument argument) ?_
  have skip : skipArguments? ("(" ++ (argument ++ ");")) = some ("(" ++ (argument ++ ");")) := rfl
  rw [Nat.sub_self, ofHeader?, skip]
  dsimp only
  rw [if_neg (fun no => no rfl), call, Logged.outcome_bind, callEnd?_ofArgument h object]
  simp

theorem outcome_ofTokens {source : Text} {ts inner rest : List Token} {entries : Entries Raw}
    (found : findSchemaObject source ts = .ok inner)
    (read : (readEntries source (3 * ts.length + 3) [] inner.tail).outcome = .ok (entries, rest)) :
    (ofTokens source ts).outcome = .ok entries := by
  rw [ofTokens_eq, found, ok_bind, read, ok_bind]

/-- The lenient reader reads the object that is the argument. -/
theorem readRaw_ofArgument (h : Lexes argument ts Text.Stops)
    (object : LiteralText.Denotes ts (.object es)) :
    (readRaw (ofArgument argument)).outcome = .ok (Raw.ofEntries es) := by
  rw [readRaw, (lexes_ofArgument h).tokenize_eq trivial, List.append_assoc, List.map_append,
    List.append_assoc]
  dsimp only
  obtain ⟨l, us, ms, eq, opens, members, rfl⟩ := (object.later 21).exists_members
  rw [eq]
  generalize (closeTokens.map (·.later argument.length)).map (·.later 21) ++ _ = rest
  have inner : (Token.first (l :: us ++ rest)).kind = .opens .curly := opens
  let fuel := 3 * (headerTokens ++ (l :: us ++ rest)).length + 3
  have read := readsEntries_of_denotes (ofArgument argument) members fuel [] rest
    (by simp [fuel]; omega)
  have same : Raw.ofEntries (Entries.lastWins ms) = Entries.moveAll [] (Raw.ofEntries ms) :=
    Raw.ofEntries_moveAll [] ms
  rw [← same] at read
  exact outcome_ofTokens (findSchemaObject_header inner) (congrArg Logged.outcome read)

end

end Declaration

end SchemaTypings
