import SchemaTypings.Declaration.Reader
import SchemaTypings.Proofs.Outcomes

/-!
The steps of the lenient reader: what each of its readers does at the first of the tokens that it
takes, apart from the records that it leaves.
-/

namespace SchemaTypings

namespace Declaration

variable {source : Text}

/-! ### Searches -/

/-- The search for a call passes over every other token. -/
theorem findCall_skip {t : Token} {rest : List Token} (eof : t.kind ≠ .eof)
    (other : ¬(t.kind = .name ∧ t.value = "Schema")) :
    findCall source (t :: rest) = findCall source rest := by
  rw [findCall, if_neg eof, if_neg other]

/-- At the word `Schema` the search looks behind the generic arguments. -/
theorem findCall_word {t : Token} {rest : List Token}
    (schema : t.kind = .name ∧ t.value = "Schema") :
    findCall source (t :: rest) = match skipGenerics source rest with
      | .error e => .error e
      | .ok [] => .error (errorAt source .noSchemaObject (Token.first []))
      | .ok (p :: inner) =>
        if p.kind = .opens .round then
          if (Token.first inner).kind = .opens .curly then .ok inner else findCall source inner
        else findCall source (p :: inner) := by
  rw [findCall, if_neg (by simp [schema]), if_pos schema]
  split <;> next skip => rw [skip]

/-- The search ends at a call with an object literal. -/
theorem findCall_schema {t p : Token} {inner : List Token}
    (schema : t.kind = .name ∧ t.value = "Schema") (opens : p.kind = .opens .round)
    (object : (Token.first inner).kind = .opens .curly) :
    findCall source (t :: p :: inner) = .ok inner := by
  have plain : skipGenerics source (p :: inner) = .ok (p :: inner) := by
    rw [skipGenerics, if_neg (by simp [Token.first, Token.isOperator, opens])]
  rw [findCall_word schema, plain]
  exact (if_pos opens).trans (if_pos object)

/-- The search goes on behind a token if no call and no generic arguments follow it. -/
theorem findCall_past {t u : Token} {rest : List Token} (eof : t.kind ≠ .eof)
    (next : u.kind ≠ .opens .round ∧ u.isOperator "<" = false) :
    findCall source (t :: u :: rest) = findCall source (u :: rest) := by
  by_cases schema : t.kind = .name ∧ t.value = "Schema"
  · have plain : skipGenerics source (u :: rest) = .ok (u :: rest) := by
      rw [skipGenerics, if_neg (by simp [Token.first, next.2])]
    rw [findCall_word schema, plain]
    exact if_neg next.1
  · exact findCall_skip eof schema

theorem kind_of_findCall {ts object : List Token} (h : findCall source ts = .ok object) :
    (Token.first object).kind = .opens .curly := by
  fun_induction findCall source ts
  case case1 | case2 | case3 | case4 => cases h
  case case5 curly =>
    cases h
    exact curly
  case case6 ih | case7 ih | case8 ih => exact ih h

theorem kind_of_findSchemaObject {ts object : List Token}
    (h : findSchemaObject source ts = .ok object) :
    (Token.first object).kind = .opens .curly := by
  rw [findSchemaObject] at h
  split at h
  · next curly =>
    cases h
    exact curly
  · exact kind_of_findCall h

/-- How many brackets are open behind a token of a kind if `depth` are open in front of it. -/
def depthBehind (depth : Nat) : TokenKind → Nat
  | .opens _ => depth + 1
  | .closes _ => depth - 1
  | _ => depth

theorem toDelimiter_step {depth : Nat} {last : Option Token} {t : Token} {ts : List Token}
    (eof : t.kind ≠ .eof) (on : ¬(depth = 0 ∧ t.kind.isDelimiter = true)) :
    toDelimiter source depth last (t :: ts) =
      toDelimiter source (depthBehind depth t.kind) (some t) ts := by
  rw [toDelimiter, if_neg eof, if_neg on]
  cases t.kind <;> rfl

theorem closer?_last {depth : Nat} {t : Token} {ts : List Token}
    (last : depth = 1 ∧ ∃ b, t.kind = .closes b) : closer? depth (t :: ts) = some (t, ts) := by
  obtain ⟨rfl, b, closes⟩ := last
  rw [closer?, closes]
  rfl

theorem closer?_step {depth : Nat} {t : Token} {ts : List Token}
    (on : ¬(depth = 1 ∧ ∃ b, t.kind = .closes b)) :
    closer? depth (t :: ts) = closer? (depthBehind depth t.kind) ts := by
  rw [closer?]
  cases closes : t.kind with
  | closes b => exact if_neg fun one => on ⟨one, b, closes⟩
  | _ => rfl

theorem namePath_stop (path : Text) {ts : List Token} (stop : (Token.first ts).kind ≠ .dot) :
    namePath path ts = (path, ts) := by
  unfold namePath
  split
  · exact if_neg fun on => stop on.1
  · rfl

theorem lastOfPath_stop {ts : List Token} (stop : (Token.first ts).kind ≠ .name) :
    lastOfPath ts = none := by
  unfold lastOfPath
  split
  · rfl
  · exact if_neg stop

/-- A path ends with the last of its names that a dot joins to the one in front. -/
theorem lastOfPath_name {n : Token} (name : n.kind = .name) (ts : List Token) :
    lastOfPath (n :: ts) = some (if (Token.first ts).kind = .dot then
      (lastOfPath ts.tail).getD n.value else n.value) := by
  cases ts with
  | nil =>
    rw [lastOfPath, if_pos name, if_neg (by simp [Token.first, Token.eof])]
  | cons d ts =>
    rw [lastOfPath, if_pos name]
    exact (apply_ite some ..).symm

/-! ### Values -/

variable {fuel : Nat} {t : Token} {ts : List Token}

theorem readValue_object (h : t.kind = .opens .curly) :
    (readValue source (fuel + 1) (t :: ts)).outcome =
      (readEntries source fuel [] ts).outcome >>= fun read =>
        Declaration.finish source (t :: ts) (.object read.1) read.2 := by
  simp [readValue, h]

theorem readValue_list (h : t.kind = .opens .square) :
    (readValue source (fuel + 1) (t :: ts)).outcome =
      (readItems source fuel ts).outcome >>= fun read =>
        Declaration.finish source (t :: ts) (.list read.1) read.2 := by
  simp [readValue, h]

theorem readValue_string (h : t.kind = .string) :
    (readValue source (fuel + 1) (t :: ts)).outcome =
      Declaration.finish source (t :: ts) (.text t.value) ts := by
  simp [readValue, h]

theorem readValue_number (h : t.kind = .number) :
    (readValue source (fuel + 1) (t :: ts)).outcome = number t >>= fun v =>
      Declaration.finish source (t :: ts) (rawNumber v) ts := by
  simp [readValue, h]

theorem readValue_name (h : t.kind = .name) :
    (readValue source (fuel + 1) (t :: ts)).outcome =
      if t.value = "new" ∧ lastOfPath ts = some "Schema" then
        (readNestedSchema source fuel (t :: ts)).outcome >>= fun read =>
          Declaration.finish source (t :: ts) read.1 read.2
      else readName source (t :: ts) := by
  rw [readValue, h]
  dsimp only
  split <;> simp

/-- Any other token starts a negative number or an expression. -/
theorem readValue_other (h : t.kind ≠ .opens .curly ∧ t.kind ≠ .opens .square ∧ t.kind ≠ .string ∧
    t.kind ≠ .number ∧ t.kind ≠ .name) :
    (readValue source (fuel + 1) (t :: ts)).outcome =
      if t.isOperator "-" ∧ (Token.first ts).kind = .number then
        number (Token.first ts) >>= fun v =>
          Declaration.finish source (t :: ts) (rawNumber v.negated) ts.tail
      else readOpaque source (t :: ts) >>= fun read => .ok (.text read.1, read.2) := by
  obtain ⟨h1, h2, h3, h4, h5⟩ := h
  rw [readValue.eq_def]
  dsimp only
  split <;> try contradiction
  split <;> simp

/-! ### Entries of an object -/

/-- What the reader does behind an entry. -/
def moreEntries (source : Text) (fuel : Nat) (read : Entries Raw × List Token) :
    Except ReadError (Entries Raw × List Token) :=
  if (Token.first read.2).kind = .comma then
    (readEntries source fuel read.1 read.2.tail).outcome
  else if (Token.first read.2).kind = .closes .curly then .ok (read.1, read.2.tail)
  else .error (errorAt source .expectedCommaInObject (Token.first read.2))

theorem readEntries_cons {before : Entries Raw} :
    (readEntries source (fuel + 1) before (t :: ts)).outcome =
      if t.kind = .closes .curly then .ok (before, ts)
      else (readEntry source fuel before (t :: ts)).outcome >>= moreEntries source fuel := by
  rw [readEntries]
  split
  · rfl
  · rw [Logged.outcome_bind]
    refine congrArg _ (funext fun (entries, after) => ?_)
    rw [moreEntries]
    dsimp only
    split
    · rfl
    split <;> rfl

/-! ### Lists of items -/

/-- What the reader does behind an item. -/
def moreItems (source : Text) (fuel : Nat) (read : Raw × List Token) :
    Except ReadError (List Raw × List Token) :=
  if (Token.first read.2).kind = .comma then
    (readItems source fuel read.2.tail).outcome >>= fun items => .ok (read.1 :: items.1, items.2)
  else if (Token.first read.2).kind = .closes .square then .ok ([read.1], read.2.tail)
  else .error (errorAt source .expectedCommaInArray (Token.first read.2))

theorem readItems_cons :
    (readItems source (fuel + 1) (t :: ts)).outcome =
      if t.kind = .closes .square then .ok ([], ts)
      else if t.kind = .comma then (readItems source fuel ts).outcome
      else (readValue source fuel (t :: ts)).outcome >>= moreItems source fuel := by
  rw [readItems]
  split
  · rfl
  split
  · rfl
  · rw [Logged.outcome_bind]
    refine congrArg _ (funext fun (v, after) => ?_)
    rw [moreItems]
    dsimp only
    split
    · rw [Logged.outcome_bind]
      rfl
    split <;> rfl

/-! ### Nested schemas -/

/-- What the reader does behind the object of a nested schema that starts with `start`. -/
def closeSchema (source : Text) (start : Token) (read : Entries Raw × List Token) :
    Except ReadError (Raw × List Token) := do
  let after ← if (Token.first read.2).kind = .comma then
      toDelimiter source 0 none read.2.tail >>= fun found => .ok found.2
    else .ok read.2
  if (Token.first after).kind = .closes .round then .ok (.object read.1, after.tail)
  else .error (errorAt source .expectedCloseOfSchema start)

theorem readNestedSchema_eq :
    (readNestedSchema source (fuel + 1) ts).outcome =
      findSchemaObject source ts >>= fun object =>
        (readEntries source fuel [] object.tail).outcome >>= closeSchema source (Token.first ts) := by
  rw [readNestedSchema, Logged.outcome_bind]
  refine congrArg _ (funext fun object => ?_)
  rw [Logged.outcome_bind]
  refine congrArg _ (funext fun (entries, rest) => ?_)
  rw [closeSchema]
  dsimp only
  split
  · rw [Logged.outcome_bind, Logged.outcome_bind]
    refine congrArg _ (funext fun after => ?_)
    split <;> rfl
  · rw [Logged.outcome_bind]
    refine congrArg _ (funext fun after => ?_)
    split <;> rfl

/-- What the reader does behind a computed key, and behind the arguments of a method. -/
def skipComputed (source : Text) (fuel : Nat) (before : Entries Raw) (read : Token × List Token) :
    Except ReadError (Entries Raw × List Token) :=
  if (Token.first read.2).kind = .colon then
    (readValue source fuel read.2.tail).outcome >>= fun value => .ok (before, value.2)
  else .error (errorAt source (.expectedColon (Token.first read.2).called) (Token.first read.2))

def skipMethod (source : Text) (before : Entries Raw) (read : Token × List Token) :
    Except ReadError (Entries Raw × List Token) :=
  if (Token.first read.2).kind = .opens .curly then
    findCloser source read.2 >>= fun body => .ok (before, body.2)
  else .ok (before, read.2)

theorem readEntry_cons {before : Entries Raw} :
    (readEntry source (fuel + 1) before (t :: ts)).outcome =
      if t.isOperator "..." then readOpaque source ts >>= fun spread => .ok (before, spread.2)
      else if t.kind = .opens .square then
        findCloser source (t :: ts) >>= skipComputed source fuel before
      else if t.kind = .name ∨ t.kind = .string ∨ t.kind = .number then
        if (Token.first ts).kind = .colon then
          (readValue source fuel ts.tail).outcome >>= fun value =>
            .ok (before.move t.value value.1, value.2)
        else if (Token.first ts).kind = .opens .round then
          findCloser source ts >>= skipMethod source before
        else if t.kind = .name ∧ (Token.first ts).kind.isDelimiter then
          .ok (before.move t.value (.bare t.value), ts)
        else .error (errorAt source (.expectedColonAfter t.value) (Token.first ts))
      else .error (errorAt source (.unexpectedToken t.called) t) := by
  rw [readEntry]
  split
  · rw [Logged.outcome_bind]
    rfl
  split
  · rw [Logged.outcome_bind]
    refine congrArg _ (funext fun (close, after) => ?_)
    rw [skipComputed]
    dsimp only
    split
    · rfl
    · next colon =>
      rw [if_pos (Decidable.not_not.1 colon), Logged.outcome_bind]
      rfl
  split
  · dsimp only
    split
    · rw [Logged.outcome_bind]
      rfl
    split
    · rw [Logged.outcome_bind]
      refine congrArg _ (funext fun (close, after) => ?_)
      rw [skipMethod]
      dsimp only
      split
      · simp [note]
      · rfl
    split <;> rfl
  · rfl

/-! ### Declarations -/

/-- What is read behind the brace of the schema's object literal is what the tokens declare. -/
theorem ofTokens_eq :
    (ofTokens source ts).outcome = findSchemaObject source ts >>= fun object =>
      (readEntries source (3 * ts.length + 3) [] object.tail).outcome >>= fun read =>
        .ok read.1 := by
  rw [ofTokens, Logged.outcome_bind]
  refine congrArg _ (funext fun object => ?_)
  rw [Logged.outcome_bind]
  refine congrArg _ (funext fun (entries, rest) => ?_)
  dsimp only
  split <;> simp [note]

theorem outcome_read (text : Text) :
    (read text).outcome = (readRaw text).outcome.map Raw.quoteFields := by
  simp only [read, Logged.outcome_bind, Logged.outcome_monadPure]
  cases (readRaw text).outcome <;> rfl

theorem outcome_normalize (text : Text) :
    (normalize text).outcome = (readRaw text).outcome >>= fun entries =>
      .ok (Literal.object (Raw.quoteFields entries)).render := by
  simp only [normalize, read, Logged.outcome_bind, Logged.outcome_monadPure]
  cases (readRaw text).outcome <;> rfl

end Declaration

end SchemaTypings
