import SchemaTypings.Proofs.Grammar
import SchemaTypings.Proofs.ReaderSteps

/-!
Literal text inside a declaration. Where the grammar of literal text derives a value, the lenient
reader reads that same value, as long as a delimiter follows it.
-/

namespace SchemaTypings

namespace Raw

mutual

/-- A value as it is written, without names. -/
def ofLiteral : Literal → Raw
  | .null => .null
  | .bool b => .bool b
  | .int i => .int i
  | .float x => .float x
  | .text s => .text s
  | .list items => .list (ofLiterals items)
  | .object entries => .object (ofEntries entries)

def ofLiterals : List Literal → List Raw
  | [] => []
  | v :: rest => ofLiteral v :: ofLiterals rest

def ofEntries : List (Text × Literal) → List (Text × Raw)
  | [] => []
  | (k, v) :: rest => (k, ofLiteral v) :: ofEntries rest

end

theorem ofEntries_eq_map (es : List (Text × Literal)) :
    ofEntries es = es.map fun e => (e.1, ofLiteral e.2) := by
  induction es with
  | nil => rfl
  | cons e es ih => rw [ofEntries, ih, List.map_cons]

theorem ofEntries_moveAll (before : Entries Literal) (es : List (Text × Literal)) :
    ofEntries (before.moveAll es) = Entries.moveAll (ofEntries before) (ofEntries es) := by
  simp only [ofEntries_eq_map, Entries.map_moveAll]

end Raw

namespace Declaration

/-- A delimiter follows. -/
def Delimited (rest : List Token) : Prop := (Token.first rest).kind.isDelimiter = true

theorem Delimited.kind {t : Token} {rest : List Token} (h : Delimited (t :: rest)) :
    t.kind.isDelimiter = true := h

theorem delimited_cons {t : Token} {rest : List Token} (h : t.kind.isDelimiter = true) :
    Delimited (t :: rest) := h

/-- A word of literal text is one in a declaration. -/
theorem word?_of_keyword? {word : Text} {v : Literal} (h : keyword? word = some v) :
    word? word = some (Raw.ofLiteral v) := by
  unfold keyword? at h
  unfold word?
  split at h
  · next h1 =>
    cases h
    rw [if_pos h1, Raw.ofLiteral]
  · next h1 =>
    rw [if_neg h1]
    split at h
    · next h2 =>
      cases h
      rw [if_pos h2, Raw.ofLiteral]
    · next h2 =>
      rw [if_neg h2]
      split at h
      · next h3 =>
        cases h
        rw [if_pos h3, Raw.ofLiteral]
      · cases h

section

variable {source : Text} {rest : List Token}

theorem finish_of_delimited (start : List Token) (v : Raw) (hr : Delimited rest) :
    finish source start v rest = .ok (v, rest) := by
  have h : (Token.first rest).kind.isDelimiter = true := hr
  simp [finish, h]

/-- A path of names ends at a delimiter. -/
theorem namePath_of_delimited (path : Text) (hr : Delimited rest) :
    namePath path rest = (path, rest) := by
  match rest, hr with
  | [], _ => rfl
  | [t], _ => rfl
  | d :: n :: rest, hr =>
    have hd : d.kind.isDelimiter = true := hr
    have dot : d.kind ≠ .dot := by
      intro h
      rw [h] at hd
      cases hd
    simp [namePath, dot]

theorem readName_of_delimited (t : Token) (hr : Delimited rest) :
    readName source (t :: rest) = .ok ((word? t.value).getD (.bare t.value), rest) := by
  have delimiter : (Token.first rest).kind.isDelimiter = true := hr
  simp only [readName, Token.first, List.tail_cons, namePath_of_delimited _ hr]
  exact if_pos delimiter

theorem number_of_value? {t : Token} {v : Literal} (h : NumberLiteral.value? t.value = some v) :
    number t = .ok v := by
  rw [number, h]

theorem rawNumber_of_value? {s : Text} {v : Literal} (h : NumberLiteral.value? s = some v) :
    rawNumber v = Raw.ofLiteral v ∧ rawNumber v.negated = Raw.ofLiteral v.negated := by
  have number := LiteralText.isNumber_of_value? h
  cases v with
  | int | float => exact ⟨rfl, rfl⟩
  | _ => cases number

end

/-! ### What reads as what

Each of these is about a run with enough fuel, in which the reader leaves no record. -/

/-- The lenient reader takes the tokens as `v` if a delimiter follows them. -/
def ReadsAs (source : Text) (ts : List Token) (v : Raw) : Prop :=
  ∀ fuel rest, ts.length ≤ fuel → Delimited rest →
    readValue source fuel (ts ++ rest) = Logged.pure (v, rest)

/-- It takes the tokens up to a closing bracket as the items of a list. -/
def ReadsItems (source : Text) (ts : List Token) (vs : List Raw) : Prop :=
  ∀ fuel rest, ts.length ≤ fuel →
    readItems source fuel (ts ++ rest) = Logged.pure (vs, rest)

/-- It takes the tokens up to a closing brace as the entries of an object. -/
def ReadsEntries (source : Text) (ts : List Token) (es : List (Text × Raw)) : Prop :=
  ∀ fuel before rest, ts.length ≤ fuel →
    readEntries source fuel before (ts ++ rest) = Logged.pure (before.moveAll es, rest)

section

variable {source : Text} {ts us : List Token} {v : Raw} {vs : List Raw} {es : List (Text × Raw)}

theorem exists_eq_succ {n fuel : Nat} (h : n ≤ fuel) (pos : 0 < n) : ∃ m, fuel = m + 1 :=
  Nat.exists_eq_add_one.2 (Nat.lt_of_lt_of_le pos h)

/-- A delimiter starts no value. -/
theorem readValue_of_isDelimiter {t : Token} {rest : List Token} (h : t.kind.isDelimiter = true)
    (fuel : Nat) : (readValue source (fuel + 1) (t :: rest)).outcome =
      .error (errorAt source .expectedValue t) := by
  have none : toDelimiter source 0 none (t :: rest) = .ok (none, t :: rest) := by
    by_cases eof : t.kind = .eof <;> simp [toDelimiter, eof, h]
  have other : t.kind ≠ .opens .curly ∧ t.kind ≠ .opens .square ∧ t.kind ≠ .string ∧
      t.kind ≠ .number ∧ t.kind ≠ .name ∧ t.kind ≠ .operator := by
    cases kind : t.kind <;> simp [kind, TokenKind.isDelimiter] at h ⊢
  rw [readValue_other ⟨other.1, other.2.1, other.2.2.1, other.2.2.2.1, other.2.2.2.2.1⟩,
    if_neg (by simp [Token.isOperator, other]), readOpaque, none]
  rfl

/-- A value starts with neither a closing bracket nor a comma. -/
theorem ReadsAs.exists_cons (h : ReadsAs source ts v) :
    ∃ t us, ts = t :: us ∧ (∀ b, t.kind ≠ .closes b) ∧ t.kind ≠ .comma := by
  have follows : Delimited [⟨.comma, [], 0, 0⟩] := rfl
  have read := congrArg Logged.outcome (h (ts.length + 1) _ (by simp) follows)
  cases ts with
  | nil =>
    exact absurd (read.symm.trans (readValue_of_isDelimiter follows _)) (by simp)
  | cons t us =>
    have head : ¬t.kind.isDelimiter = true := by
      intro delimiter
      rw [List.cons_append, readValue_of_isDelimiter delimiter] at read
      cases read
    refine ⟨t, us, rfl, ?_, ?_⟩ <;> intros <;> intro kind <;>
      simp [kind, TokenKind.isDelimiter] at head

theorem ReadsAs.name {t : Token} (name : t.kind = .name) (plain : t.value ≠ "new") :
    ReadsAs source [t] ((word? t.value).getD (.bare t.value)) := by
  intro fuel rest hf hr
  obtain ⟨fuel, rfl⟩ := exists_eq_succ hf (by simp)
  simp [readValue, name, plain, readName_of_delimited t hr]

theorem ReadsAs.text {t : Token} (string : t.kind = .string) :
    ReadsAs source [t] (.text t.value) := by
  intro fuel rest hf hr
  obtain ⟨fuel, rfl⟩ := exists_eq_succ hf (by simp)
  simp [readValue, string, finish_of_delimited _ _ hr]

theorem ReadsAs.number {t : Token} {n : Literal} (number : t.kind = .number)
    (h : NumberLiteral.value? t.value = some n) : ReadsAs source [t] (Raw.ofLiteral n) := by
  intro fuel rest hf hr
  obtain ⟨fuel, rfl⟩ := exists_eq_succ hf (by simp)
  simp [readValue, number, number_of_value? h, finish_of_delimited _ _ hr,
    (rawNumber_of_value? h).1]

theorem ReadsAs.negative {m t : Token} {n : Literal} (minus : m.kind = .operator ∧ m.value = "-")
    (number : t.kind = .number) (h : NumberLiteral.value? t.value = some n) :
    ReadsAs source [m, t] (Raw.ofLiteral n.negated) := by
  intro fuel rest hf hr
  obtain ⟨fuel, rfl⟩ := exists_eq_succ hf (by simp)
  simp [readValue, minus, Token.isOperator, Token.first, number, number_of_value? h,
    finish_of_delimited _ _ hr, (rawNumber_of_value? h).2]

/-- A name behind a minus sign is an expression, which stays as it is written. -/
theorem ReadsAs.negativeName {m t : Token} (minus : m.kind = .operator ∧ m.value = "-")
    (name : t.kind = .name) : ReadsAs source [m, t] (.text (slice source m.pos t.stop)) := by
  intro fuel rest hf hr
  obtain ⟨fuel, rfl⟩ := exists_eq_succ hf (by simp)
  have delimiter : (Token.first rest).kind.isDelimiter = true := hr
  have found : toDelimiter source 0 none (m :: t :: rest) = .ok (some t, rest) := by
    have ends : toDelimiter source 0 (some t) rest = .ok (some t, rest) := by
      cases rest with
      | nil => rfl
      | cons d rest => by_cases eof : d.kind = .eof <;> simp [toDelimiter, eof, hr.kind]
    simp [toDelimiter, minus, name, TokenKind.isDelimiter, ends]
  simp [readValue, minus, Token.isOperator, Token.first, name, readOpaque, found]

theorem ReadsAs.list {l : Token} (opens : l.kind = .opens .square)
    (items : ReadsItems source ts vs) : ReadsAs source (l :: ts) (.list vs) := by
  intro fuel rest hf hr
  obtain ⟨fuel, rfl⟩ := exists_eq_succ hf (by simp)
  have read := items fuel rest (by simpa using hf)
  simp [readValue, opens, read, finish_of_delimited _ _ hr]

theorem ReadsAs.object {l : Token} (opens : l.kind = .opens .curly)
    (entries : ReadsEntries source ts es) :
    ReadsAs source (l :: ts) (.object (Entries.lastWins es)) := by
  intro fuel rest hf hr
  obtain ⟨fuel, rfl⟩ := exists_eq_succ hf (by simp)
  have read := entries fuel [] rest (by simpa using hf)
  simp [readValue, opens, read, finish_of_delimited _ _ hr]
  rfl

theorem ReadsItems.close {r : Token} (closes : r.kind = .closes .square) :
    ReadsItems source [r] [] := by
  intro fuel rest hf
  obtain ⟨fuel, rfl⟩ := exists_eq_succ hf (by simp)
  simp [readItems, closes]

theorem ReadsItems.last {r : Token} (value : ReadsAs source ts v)
    (closes : r.kind = .closes .square) : ReadsItems source (ts ++ [r]) [v] := by
  intro fuel rest hf
  obtain ⟨fuel, rfl⟩ := exists_eq_succ hf (by simp)
  have read := value fuel (r :: rest) (by simpa using hf) (delimited_cons (by rw [closes]; rfl))
  obtain ⟨t, us, rfl, noClose, noComma⟩ := value.exists_cons
  simp only [List.cons_append] at read
  simp [readItems, noClose, noComma, read, Token.first, closes]

theorem ReadsItems.more {c : Token} (value : ReadsAs source ts v) (comma : c.kind = .comma)
    (items : ReadsItems source us vs) : ReadsItems source (ts ++ c :: us) (v :: vs) := by
  intro fuel rest hf
  obtain ⟨fuel, rfl⟩ := exists_eq_succ hf (by rw [List.length_append, List.length_cons]; omega)
  have read := value fuel (c :: (us ++ rest)) (by simp at hf; omega)
    (delimited_cons (by rw [comma]; rfl))
  have more := items fuel rest (by simp at hf; omega)
  obtain ⟨t, ts, rfl, noClose, noComma⟩ := value.exists_cons
  simp only [List.cons_append] at read
  simp [readItems, noClose, noComma, read, Token.first, comma, more]

theorem ReadsEntries.close {r : Token} (closes : r.kind = .closes .curly) :
    ReadsEntries source [r] [] := by
  intro fuel before rest hf
  obtain ⟨fuel, rfl⟩ := exists_eq_succ hf (by simp)
  simp [readEntries, closes]

/-- A key and its value are one entry. -/
theorem ReadsAs.entry {k c : Token} (value : ReadsAs source ts v) (key : LiteralText.isKey k = true)
    (colon : c.kind = .colon) (fuel : Nat) (before : Entries Raw) (rest : List Token)
    (hf : ts.length < fuel) (hr : Delimited rest) :
    readEntry source fuel before (k :: c :: (ts ++ rest)) =
      Logged.pure (before.move k.value v, rest) := by
  have kinds : k.kind = .name ∨ k.kind = .string ∨ k.kind = .number := by
    simpa [LiteralText.isKey, or_assoc] using key
  have spread : k.kind ≠ .operator := by rcases kinds with h | h | h <;> simp [h]
  have computed : k.kind ≠ .opens .square := by rcases kinds with h | h | h <;> simp [h]
  obtain ⟨fuel, rfl⟩ := exists_eq_succ hf (Nat.succ_pos _)
  have read := value fuel rest (by omega) hr
  simp [readEntry, Token.isOperator, spread, computed, kinds, Token.first, colon, read]

theorem ne_of_isKey {k : Token} (key : LiteralText.isKey k = true) : k.kind ≠ .closes .curly := by
  intro h
  simp [LiteralText.isKey, h] at key

theorem ReadsEntries.last {k c r : Token} (key : LiteralText.isKey k = true)
    (colon : c.kind = .colon) (value : ReadsAs source ts v) (closes : r.kind = .closes .curly) :
    ReadsEntries source (k :: c :: (ts ++ [r])) [(k.value, v)] := by
  intro fuel before rest hf
  obtain ⟨fuel, rfl⟩ := exists_eq_succ hf (by simp)
  have read := value.entry key colon fuel before (r :: rest) (by simp at hf; omega)
    (delimited_cons (by rw [closes]; rfl))
  simp [readEntries, ne_of_isKey key, read, Token.first, closes]

theorem ReadsEntries.more {k c d : Token} (key : LiteralText.isKey k = true)
    (colon : c.kind = .colon) (value : ReadsAs source ts v) (comma : d.kind = .comma)
    (entries : ReadsEntries source us es) :
    ReadsEntries source (k :: c :: (ts ++ d :: us)) ((k.value, v) :: es) := by
  intro fuel before rest hf
  obtain ⟨fuel, rfl⟩ := exists_eq_succ hf (by simp)
  have read := value.entry key colon fuel before (d :: (us ++ rest)) (by simp at hf; omega)
    (delimited_cons (by rw [comma]; rfl))
  have more := entries fuel (before.move k.value v) rest (by simp at hf; omega)
  simp [readEntries, ne_of_isKey key, read, Token.first, comma, more]

end

mutual

/-- What the grammar derives, the lenient reader reads. -/
theorem readsAs_of_denotes (source : Text) {ts : List Token} {v : Literal} :
    LiteralText.Denotes ts v → ReadsAs source ts (Raw.ofLiteral v)
  | @LiteralText.Denotes.word t v name h => by
    have plain : t.value ≠ "new" := by
      intro new
      have none : keyword? "new" = none := by decide
      rw [new, none] at h
      cases h
    have read : ReadsAs source [t] _ := .name name plain
    rwa [word?_of_keyword? h, Option.getD_some] at read
  | .text string => .text string
  | .number number h => .number number h
  | .negative minus number h => .negative minus number h
  | .list opens items => .list opens (readsItems_of_denotes source items)
  | @LiteralText.Denotes.object l ts es opens members => by
    have eq : Raw.ofLiteral (.object (Entries.lastWins es)) =
        .object (Entries.lastWins (Raw.ofEntries es)) := by
      rw [Raw.ofLiteral]
      exact congrArg Raw.object (Raw.ofEntries_moveAll [] es)
    rw [eq]
    exact .object opens (readsEntries_of_denotes source members)

theorem readsItems_of_denotes (source : Text) {ts : List Token} {vs : List Literal} :
    LiteralText.DenotesItems ts vs → ReadsItems source ts (Raw.ofLiterals vs)
  | .close closes => .close closes
  | .last value closes => .last (readsAs_of_denotes source value) closes
  | .more value comma items =>
    .more (readsAs_of_denotes source value) comma (readsItems_of_denotes source items)

theorem readsEntries_of_denotes (source : Text) {ts : List Token} {es : List (Text × Literal)} :
    LiteralText.DenotesMembers ts es → ReadsEntries source ts (Raw.ofEntries es)
  | .close closes => .close closes
  | .last key colon value closes => .last key colon (readsAs_of_denotes source value) closes
  | .more key colon value comma members =>
    .more key colon (readsAs_of_denotes source value) comma (readsEntries_of_denotes source members)

end

end Declaration

end SchemaTypings
