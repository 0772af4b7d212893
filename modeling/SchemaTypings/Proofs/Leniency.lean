import SchemaTypings.Proofs.Fields
import SchemaTypings.Proofs.Reading

/-!
The lenient reader beside the strict one. A text that the strict reader takes as an object is read
leniently as that same object, but for the types, which are quoted, and without a record in the log.
-/

namespace SchemaTypings

def Literal.isObject : Literal → Bool
  | .object _ => true
  | _ => false

theorem Literal.exists_of_isObject {v : Literal} (h : v.isObject = true) :
    ∃ es, v = .object es := by
  cases v with
  | object es => exact ⟨es, rfl⟩
  | _ => cases h

theorem LiteralText.Ends.noComma {rest : List Token} (h : Ends rest) :
    (Token.first rest).kind ≠ .comma := by
  rcases h with eof | ⟨t, more, rfl, semicolon, -⟩
  · simp [eof]
  · simp [Token.first, semicolon]

namespace Declaration

variable {text : Text} {es : Entries Literal}

/-- Tokens that read as an object are those of a schema, unless options follow. -/
theorem ofTokens_of_readsEntries {source : Text} {l : Token} {ts rest : List Token}
    {ms : List (Text × Raw)} (opens : l.kind = .opens .curly) (entries : ReadsEntries source ts ms)
    (plain : (Token.first rest).kind ≠ .comma) :
    ofTokens source (l :: (ts ++ rest)) = Logged.pure (Entries.lastWins ms) := by
  have object : findSchemaObject source (l :: (ts ++ rest)) = .ok (l :: (ts ++ rest)) :=
    if_pos opens
  have read := entries (3 * (l :: (ts ++ rest)).length + 3) [] rest (by simp; omega)
  simp only [ofTokens, object, Logged.liftM_ok, Logged.pure_monadBind, List.tail_cons, read,
    if_neg plain]
  rfl

/-- What the strict reader takes as an object, the lenient one reads as the same object, with its
types quoted, and leaves no record. -/
theorem read_of_parse (h : Literal.parse text = .ok (.object es)) :
    read text = Logged.pure (Raw.quoteFields (Raw.ofEntries es)) ∧
      Entries.keys (Raw.quoteFields (Raw.ofEntries es)) = es.keys := by
  rw [Literal.parse] at h
  split at h
  · cases h
  next tokens lexed =>
  obtain ⟨all, rest, rfl, denotes, ends⟩ := LiteralText.exists_of_ofTokens h
  obtain ⟨l, ts, ms, rfl, opens, members, rfl⟩ := denotes.exists_members
  have raw : readRaw text = Logged.pure (Entries.lastWins (Raw.ofEntries ms)) := by
    rw [readRaw, lexed]
    exact ofTokens_of_readsEntries opens (readsEntries_of_denotes text members) ends.noComma
  have same : Raw.ofEntries (Entries.lastWins ms) = Entries.lastWins (Raw.ofEntries ms) :=
    Raw.ofEntries_moveAll [] ms
  constructor
  · rw [read, raw, same]
    rfl
  · rw [Literal.quoteFields_ofEntries]
    simp [Entries.keys, Function.comp_def]

/-- An object with a repeated key, a list of one option object, and commas at the ends. -/
def strictSample : Text :=
  "\x7b b: 0x1F, 'a b': [\x7b type: 'Number', min: -1.5 \x7d,], b: \"\", c: null, \x7d;"

theorem read_of_parse_sample :
    ∃ es : Entries Literal, Literal.parse strictSample = .ok (.object es) ∧
      read strictSample = Logged.pure (Raw.quoteFields (Raw.ofEntries es)) ∧
        Entries.keys (Raw.quoteFields (Raw.ofEntries es)) = es.keys := by
  have whole : (Literal.parse strictSample).toOption.any Literal.isObject = true := by
    decide +kernel
  cases parsed : Literal.parse strictSample with
  | error e =>
    rw [parsed] at whole
    cases whole
  | ok v =>
    rw [parsed] at whole
    obtain ⟨es, rfl⟩ := Literal.exists_of_isObject whole
    exact ⟨es, rfl, read_of_parse parsed⟩

end Declaration

end SchemaTypings
