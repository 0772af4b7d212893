import SchemaTypings.Proofs.Failures
import SchemaTypings.Proofs.Reading

/-!
What the tokens of a declaration spell, as the lenient reader sees it: constants, names, expressions
that are not interpreted, lists and objects. Whatever the reader yields is the raw value of something
that its tokens spell.
-/

namespace SchemaTypings

theorem Entries.moveAll_append {α : Type} (before : Entries α) (es es' : List (Text × α)) :
    moveAll before (es ++ es') = moveAll (moveAll before es) es' := List.foldl_append

/-! ### What is written -/

/-- A value as it is written. A string, a number, a name and an expression are told apart, which their
raw values are not. -/
inductive Written
  | null
  | bool (b : Bool)
  | number (v : Literal)
  | string (s : Text)
  | name (path : Text)
  | expression (text : Text)
  | list (items : List Written)
  | object (entries : List (Text × Written))

namespace Written

/-- What a path of names is written for: a single name may be a word. -/
def ofPath (path : Text) : Written :=
  if path = "true" then .bool true
  else if path = "false" then .bool false
  else if path = "null" ∨ path = "undefined" then .null
  else .name path

mutual

/-- What the reader makes of it. -/
def raw : Written → Raw
  | .null => .null
  | .bool b => .bool b
  | .number v => Declaration.rawNumber v
  | .string s => .text s
  | .name path => .bare path
  | .expression text => .text text
  | .list items => .list (rawItems items)
  | .object entries => .object (rawEntries entries)

def rawItems : List Written → List Raw
  | [] => []
  | w :: rest => w.raw :: rawItems rest

def rawEntries : List (Text × Written) → List (Text × Raw)
  | [] => []
  | (k, w) :: rest => (k, w.raw) :: rawEntries rest

end

@[simp] theorem raw_list (items : List Written) : (list items).raw = .list (items.map raw) := by
  have all : rawItems items = items.map raw := by
    induction items with
    | nil => rfl
    | cons w rest ih => rw [rawItems, ih, List.map_cons]
  rw [raw, all]

@[simp] theorem raw_object (es : Entries Written) :
    (object es).raw = .object (es.map fun e => (e.1, e.2.raw)) := by
  have all : rawEntries es = es.map fun e => (e.1, e.2.raw) := by
    induction es with
    | nil => rfl
    | cons e rest ih => rw [rawEntries, ih, List.map_cons]
  rw [raw, all]

theorem raw_ofPath (path : Text) :
    (ofPath path).raw = (Declaration.word? path).getD (.bare path) := by
  unfold ofPath Declaration.word?
  repeat' split
  all_goals rw [raw]; rfl

end Written

namespace Declaration

variable {source : Text}

/-! ### What tokens spell -/

/-- The tokens start with a constant: a string, or a number with or without a minus sign. -/
inductive Constant : List Token → Written → List Token → Prop
  | string {t : Token} {ts : List Token} (string : t.kind = .string) :
    Constant (t :: ts) (.string t.value) ts
  | number {t : Token} {ts : List Token} {v : Literal} (number : t.kind = .number)
    (h : NumberLiteral.value? t.value = some v) : Constant (t :: ts) (.number v) ts
  | negative {m t : Token} {ts : List Token} {v : Literal} (minus : m.isOperator "-" = true)
    (number : t.kind = .number) (h : NumberLiteral.value? t.value = some v) :
    Constant (m :: t :: ts) (.number v.negated) ts

/-- The token starts an assertion of a type. -/
def IsAssertion (t : Token) : Prop := t.kind = .name ∧ (t.value = "as" ∨ t.value = "satisfies")

/-- A value may end in front of the tokens. -/
def MayEnd (ts : List Token) : Prop :=
  Delimited ts ∨ IsAssertion (Token.first ts) ∨
    ((Token.first ts).isOperator "!" = true ∧ Delimited ts.tail)

/-- A value ends in front of the tokens, and the reader goes on at the others. -/
inductive Ends (source : Text) : List Token → List Token → Prop
  | delimited {ts : List Token} (h : Delimited ts) : Ends source ts ts
  | asserted {ts left : List Token} {last : Option Token} (h : IsAssertion (Token.first ts))
    (skip : toDelimiter source 0 none ts = .ok (last, left)) : Ends source ts left
  | marked {t : Token} {ts : List Token} (mark : t.isOperator "!" = true) (h : Delimited ts) :
    Ends source (t :: ts) ts

/-- A nested schema is closed behind its object, with or without options. -/
inductive ClosesSchema (source : Text) : List Token → List Token → Prop
  | plain {t : Token} {ts : List Token} (close : t.kind = .closes .round) :
    ClosesSchema source (t :: ts) ts
  | options {c t : Token} {ts left : List Token} {last : Option Token} (comma : c.kind = .comma)
    (skip : toDelimiter source 0 none ts = .ok (last, t :: left))
    (close : t.kind = .closes .round) : ClosesSchema source (c :: ts) left

/-- The arguments of a method end, and its body if it has one. -/
inductive PassesMethod (source : Text) : List Token → List Token → Prop
  | plain {ts left : List Token} {close : Token} (arguments : findCloser source ts = .ok (close, left))
    (next : (Token.first left).kind ≠ .opens .curly) : PassesMethod source ts left
  | body {ts rest left : List Token} {close brace : Token}
    (arguments : findCloser source ts = .ok (close, rest))
    (next : (Token.first rest).kind = .opens .curly)
    (body : findCloser source rest = .ok (brace, left)) : PassesMethod source ts left

/-- The token can be the key of an entry. -/
def IsKey (t : Token) : Prop := t.kind = .name ∨ t.kind = .string ∨ t.kind = .number

/-- The tokens build a schema, which they name by the last word of a path. -/
def NestsSchema (t : Token) (ts : List Token) : Prop :=
  t.value = "new" ∧ lastOfPath ts = some "Schema"

/-- The tokens start with none of the forms that are read. -/
def StartsOther (t : Token) (ts : List Token) : Prop :=
  (t.kind ≠ .opens .curly ∧ t.kind ≠ .opens .square ∧ t.kind ≠ .string ∧ t.kind ≠ .number ∧
    t.kind ≠ .name) ∧ ¬(t.isOperator "-" = true ∧ (Token.first ts).kind = .number)

mutual

/-- The tokens start with a form that is read, which need not be a whole value. -/
inductive Starts (source : Text) : List Token → Written → List Token → Prop
  | constant {ts rest : List Token} {w : Written} (h : Constant ts w rest) : Starts source ts w rest
  | list {t : Token} {ts rest : List Token} {ws : List Written} (opens : t.kind = .opens .square)
    (items : SpellsItems source ts ws rest) : Starts source (t :: ts) (.list ws) rest
  | object {t : Token} {ts rest : List Token} {es : List (Text × Written)}
    (opens : t.kind = .opens .curly) (entries : SpellsEntries source ts es rest) :
    Starts source (t :: ts) (.object (Entries.lastWins es)) rest
  | schema {t : Token} {ts object rest left : List Token} {es : List (Text × Written)}
    (name : t.kind = .name) (schema : NestsSchema t ts)
    (found : findSchemaObject source (t :: ts) = .ok object)
    (entries : SpellsEntries source object.tail es rest) (closes : ClosesSchema source rest left) :
    Starts source (t :: ts) (.object (Entries.lastWins es)) left

/-- The tokens start with a value. -/
inductive Spells (source : Text) : List Token → Written → List Token → Prop
  | form {ts rest left : List Token} {w : Written} (start : Starts source ts w rest)
    (ends : Ends source rest left) : Spells source ts w left
  | name {t : Token} {ts : List Token} (name : t.kind = .name)
    (ends : Delimited (namePath t.value ts).2) :
    Spells source (t :: ts) (.ofPath (namePath t.value ts).1) (namePath t.value ts).2
  | unended {ts rest left : List Token} {w : Written} {text : Text} (start : Starts source ts w rest)
    (on : ¬MayEnd rest) (h : readOpaque source ts = .ok (text, left)) :
    Spells source ts (.expression text) left
  | unendedName {t : Token} {ts left : List Token} {text : Text} (name : t.kind = .name)
    (plain : ¬NestsSchema t ts) (on : ¬Delimited (namePath t.value ts).2)
    (h : readOpaque source (t :: ts) = .ok (text, left)) :
    Spells source (t :: ts) (.expression text) left
  | other {t : Token} {ts left : List Token} {text : Text} (other : StartsOther t ts)
    (h : readOpaque source (t :: ts) = .ok (text, left)) :
    Spells source (t :: ts) (.expression text) left

/-- The tokens start with the rest of a list. Holes do not count. -/
inductive SpellsItems (source : Text) : List Token → List Written → List Token → Prop
  | close {t : Token} {ts : List Token} (close : t.kind = .closes .square) :
    SpellsItems source (t :: ts) [] ts
  | hole {t : Token} {ts left : List Token} {ws : List Written} (comma : t.kind = .comma)
    (items : SpellsItems source ts ws left) : SpellsItems source (t :: ts) ws left
  | last {ts left : List Token} {w : Written} {t : Token} (item : Spells source ts w (t :: left))
    (close : t.kind = .closes .square) : SpellsItems source ts [w] left
  | more {ts rest left : List Token} {w : Written} {ws : List Written} {t : Token}
    (item : Spells source ts w (t :: rest)) (comma : t.kind = .comma)
    (items : SpellsItems source rest ws left) : SpellsItems source ts (w :: ws) left

/-- The tokens start with the rest of an object. -/
inductive SpellsEntries (source : Text) : List Token → List (Text × Written) → List Token → Prop
  | close {t : Token} {ts : List Token} (close : t.kind = .closes .curly) :
    SpellsEntries source (t :: ts) [] ts
  | last {ts left : List Token} {es : List (Text × Written)} {t : Token}
    (entry : SpellsEntry source ts es (t :: left)) (close : t.kind = .closes .curly) :
    SpellsEntries source ts es left
  | more {ts rest left : List Token} {es es' : List (Text × Written)} {t : Token}
    (entry : SpellsEntry source ts es (t :: rest)) (comma : t.kind = .comma)
    (entries : SpellsEntries source rest es' left) : SpellsEntries source ts (es ++ es') left

/-- The tokens start with what stands between two commas of an object. Only a key with a value and a
name by itself are entries. -/
inductive SpellsEntry (source : Text) : List Token → List (Text × Written) → List Token → Prop
  | field {k c : Token} {ts left : List Token} {w : Written} (key : IsKey k)
    (colon : c.kind = .colon) (value : Spells source ts w left) :
    SpellsEntry source (k :: c :: ts) [(k.value, w)] left
  | shorthand {k : Token} {ts : List Token} (key : k.kind = .name) (ends : Delimited ts) :
    SpellsEntry source (k :: ts) [(k.value, .name k.value)] ts
  | spread {t : Token} {ts left : List Token} {text : Text} (spread : t.isOperator "..." = true)
    (h : readOpaque source ts = .ok (text, left)) : SpellsEntry source (t :: ts) [] left
  | computed {t c close : Token} {ts rest left : List Token} {w : Written}
    (opens : t.kind = .opens .square) (h : findCloser source (t :: ts) = .ok (close, c :: rest))
    (colon : c.kind = .colon) (value : Spells source rest w left) :
    SpellsEntry source (t :: ts) [] left
  | method {k : Token} {ts left : List Token} (key : IsKey k)
    (opens : (Token.first ts).kind = .opens .round) (method : PassesMethod source ts left) :
    SpellsEntry source (k :: ts) [] left

end

/-! ### What is left behind a value -/

theorem Constant.suffix {ts rest : List Token} {w : Written} (h : Constant ts w rest) :
    rest <:+ ts := by
  cases h with
  | string | number => exact List.suffix_cons ..
  | negative => exact (List.suffix_cons ..).trans (List.suffix_cons ..)

theorem Ends.suffix {ts left : List Token} (h : Ends source ts left) : left <:+ ts := by
  cases h with
  | delimited => exact List.suffix_refl _
  | asserted _ skip => exact (within_toDelimiter source 0 none ts).suffix _ skip
  | marked => exact List.suffix_cons ..

theorem ClosesSchema.suffix {ts left : List Token} (h : ClosesSchema source ts left) :
    left <:+ ts := by
  cases h with
  | plain => exact List.suffix_cons ..
  | options _ skip =>
    have suffix := (within_toDelimiter source 0 none _).suffix _ skip
    exact (List.suffix_cons ..).trans (suffix.trans (List.suffix_cons ..))

theorem PassesMethod.suffix {ts left : List Token} (h : PassesMethod source ts left) :
    left <:+ ts := by
  cases h with
  | plain arguments => exact (within_findCloser source ts).suffix _ arguments
  | body arguments _ body =>
    have suffix := (within_findCloser source ts).suffix _ arguments
    exact ((within_findCloser source _).suffix _ body).trans suffix

theorem suffix_of_readOpaque {ts left : List Token} {text : Text}
    (h : readOpaque source ts = .ok (text, left)) : left <:+ ts :=
  (within_readOpaque source ts).suffix _ h

theorem suffix_of_findSchemaObject {ts object : List Token}
    (h : findSchemaObject source ts = .ok object) : object.tail <:+ ts :=
  (List.tail_suffix object).trans ((within_findSchemaObject source ts).suffix _ h)

mutual

theorem Starts.suffix {ts rest : List Token} {w : Written} :
    Starts source ts w rest → rest <:+ ts
  | .constant h => h.suffix
  | .list _ items => items.suffix.trans (List.suffix_cons ..)
  | .object _ entries => entries.suffix.trans (List.suffix_cons ..)
  | .schema _ _ found entries closes =>
    closes.suffix.trans (entries.suffix.trans (suffix_of_findSchemaObject found))

theorem Spells.suffix {ts left : List Token} {w : Written} : Spells source ts w left → left <:+ ts
  | .form start ends => ends.suffix.trans start.suffix
  | .name _ _ => (suffix_namePath ..).trans (List.suffix_cons ..)
  | .unended _ _ h | .unendedName _ _ _ h | .other _ h => suffix_of_readOpaque h

theorem SpellsItems.suffix {ts left : List Token} {ws : List Written} :
    SpellsItems source ts ws left → left <:+ ts
  | .close _ => List.suffix_cons ..
  | .hole _ items => items.suffix.trans (List.suffix_cons ..)
  | .last item _ => (List.suffix_cons ..).trans item.suffix
  | .more item _ items => (items.suffix.trans (List.suffix_cons ..)).trans item.suffix

theorem SpellsEntries.suffix {ts left : List Token} {es : List (Text × Written)} :
    SpellsEntries source ts es left → left <:+ ts
  | .close _ => List.suffix_cons ..
  | .last entry _ => (List.suffix_cons ..).trans entry.suffix
  | .more entry _ entries => (entries.suffix.trans (List.suffix_cons ..)).trans entry.suffix

theorem SpellsEntry.suffix {ts left : List Token} {es : List (Text × Written)} :
    SpellsEntry source ts es left → left <:+ ts
  | .field _ _ value => (value.suffix.trans (List.suffix_cons ..)).trans (List.suffix_cons ..)
  | .shorthand _ _ => List.suffix_cons ..
  | .spread _ h => (suffix_of_readOpaque h).trans (List.suffix_cons ..)
  | .computed _ h _ value =>
    (value.suffix.trans (List.suffix_cons ..)).trans ((within_findCloser source _).suffix _ h)
  | .method _ _ method => method.suffix.trans (List.suffix_cons ..)

end

/-! ### The readers -/

theorem value?_of_number {t : Token} {v : Literal} (h : Declaration.number t = .ok v) :
    NumberLiteral.value? t.value = some v := by
  rw [Declaration.number] at h
  split at h
  · next value =>
    cases h
    exact value
  · cases h

theorem exists_cons_of_kind {ts : List Token} {kind : TokenKind} (h : (Token.first ts).kind = kind)
    (some : kind ≠ .eof) : ∃ t rest, ts = t :: rest ∧ t.kind = kind := by
  cases ts with
  | nil => exact absurd h.symm some
  | cons t rest => exact ⟨t, rest, rfl, h⟩

/-- A reader of values yields what the tokens spell. -/
abbrev YieldsSpelled (source : Text) (ts : List Token) :
    Except ReadError (Raw × List Token) → Prop :=
  Yields fun read => ∃ w, Spells source ts w read.2 ∧ read.1 = w.raw

theorem yields_form {start ts : List Token} {w : Written} (h : Starts source start w ts) :
    YieldsSpelled source start (finish source start w.raw ts) := by
  rw [finish]
  dsimp only
  split
  · next delimited => exact .ok ⟨w, .form h (.delimited delimited), rfl⟩
  split
  · next assertion =>
    intro read ok
    obtain ⟨⟨last, left⟩, skip, eq⟩ := bind_eq_ok.1 ok
    cases eq
    exact ⟨w, .form h (.asserted assertion skip), rfl⟩
  split
  · next mark =>
    obtain ⟨mark, delimited⟩ := mark
    cases ts with
    | nil => cases mark
    | cons t ts => exact .ok ⟨w, .form h (.marked mark delimited), rfl⟩
  · next delimited assertion mark =>
    have on : ¬MayEnd ts := by
      rintro (h | h | h)
      · exact delimited h
      · exact assertion h
      · exact mark h
    intro read ok
    obtain ⟨⟨text, left⟩, found, eq⟩ := bind_eq_ok.1 ok
    cases eq
    exact ⟨.expression text, .unended h on found, rfl⟩

theorem yields_name {t : Token} {ts : List Token} (name : t.kind = .name)
    (plain : ¬NestsSchema t ts) : YieldsSpelled source (t :: ts) (readName source (t :: ts)) := by
  rw [readName]
  dsimp only
  split
  · next delimited => exact .ok ⟨_, .name name delimited, (Written.raw_ofPath _).symm⟩
  · next on =>
    intro read ok
    obtain ⟨⟨text, left⟩, found, eq⟩ := bind_eq_ok.1 ok
    cases eq
    exact ⟨.expression text, .unendedName name plain on found, rfl⟩

/-- The entries of an object are put in one after another. -/
theorem raw_lastWins (es : List (Text × Written)) : (Written.object (Entries.lastWins es)).raw =
    .object (Entries.moveAll [] (es.map fun e => (e.1, e.2.raw))) := by
  rw [Written.raw_object]
  exact congrArg Raw.object (Entries.map_moveAll Written.raw [] es)

/-- What the readers yield with the given fuel is spelled by the tokens. -/
structure ReadsSpelled (source : Text) (fuel : Nat) : Prop where
  value : ∀ ts, YieldsSpelled source ts (readValue source fuel ts).outcome
  nested : ∀ t ts, t.kind = .name → NestsSchema t ts →
    Yields (fun read => ∃ w, Starts source (t :: ts) w read.2 ∧ read.1 = w.raw)
      (readNestedSchema source fuel (t :: ts)).outcome
  entries : ∀ before ts, Yields (fun read => ∃ es, SpellsEntries source ts es read.2 ∧
    read.1 = Entries.moveAll before (es.map fun e => (e.1, e.2.raw)))
      (readEntries source fuel before ts).outcome
  entry : ∀ before ts, Yields (fun read => ∃ es, SpellsEntry source ts es read.2 ∧
    read.1 = Entries.moveAll before (es.map fun e => (e.1, e.2.raw)))
      (readEntry source fuel before ts).outcome
  items : ∀ ts, Yields (fun read => ∃ ws, SpellsItems source ts ws read.2 ∧
    read.1 = ws.map Written.raw) (readItems source fuel ts).outcome

theorem ReadsSpelled.zero : ReadsSpelled source 0 where
  value ts := by rw [readValue]; exact .error
  nested t ts _ _ := by rw [readNestedSchema]; exact .error
  entries before ts := by rw [readEntries]; exact .error
  entry before ts := by rw [readEntry]; exact .error
  items ts := by rw [readItems]; exact .error

variable {fuel : Nat} (ih : ReadsSpelled source fuel)

include ih

theorem ReadsSpelled.value_succ (ts : List Token) :
    YieldsSpelled source ts (readValue source (fuel + 1) ts).outcome := by
  cases ts with
  | nil =>
    rw [readValue]
    exact .error
  | cons t rest =>
    have other (h : t.kind ≠ .opens .curly ∧ t.kind ≠ .opens .square ∧ t.kind ≠ .string ∧
        t.kind ≠ .number ∧ t.kind ≠ .name) :
        YieldsSpelled source (t :: rest) (readValue source (fuel + 1) (t :: rest)).outcome := by
      rw [readValue_other h]
      split
      · next minus =>
        obtain ⟨n, more, rfl, number⟩ := exists_cons_of_kind minus.2 (by simp)
        intro read ok
        obtain ⟨v, value, ok⟩ := bind_eq_ok.1 ok
        exact yields_form (.constant (.negative minus.1 number (value?_of_number value))) read ok
      · next signless =>
        intro read ok
        obtain ⟨⟨text, left⟩, found, eq⟩ := bind_eq_ok.1 ok
        cases eq
        exact ⟨.expression text, .other ⟨h, signless⟩ found, rfl⟩
    cases kind : t.kind with
    | opens b =>
      cases b with
      | curly =>
        rw [readValue_object kind]
        refine (ih.entries [] rest).seq ?_
        rintro ⟨entries, more⟩ ⟨es, spelled, eq⟩
        rw [show entries = _ from eq, ← raw_lastWins]
        exact yields_form (.object kind spelled)
      | square =>
        rw [readValue_list kind]
        refine (ih.items rest).seq ?_
        rintro ⟨items, more⟩ ⟨ws, spelled, eq⟩
        rw [show items = _ from eq, ← Written.raw_list]
        exact yields_form (.list kind spelled)
      | round => exact other (by simp [kind])
    | string =>
      rw [readValue_string kind]
      exact yields_form (.constant (.string kind))
    | number =>
      rw [readValue_number kind]
      intro read ok
      obtain ⟨v, value, ok⟩ := bind_eq_ok.1 ok
      exact yields_form (.constant (.number kind (value?_of_number value))) read ok
    | name =>
      rw [readValue_name kind]
      split
      · next schema =>
        refine (ih.nested t rest kind schema).seq ?_
        rintro ⟨v, more⟩ ⟨w, start, eq⟩
        rw [show v = _ from eq]
        exact yields_form start
      · next plain => exact yields_name kind plain
    | _ => exact other (by simp [kind])

omit ih in
theorem closes_of_closeSchema {start : Token} {read : Entries Raw × List Token} :
    Yields (fun closed => closed.1 = .object read.1 ∧ ClosesSchema source read.2 closed.2)
      (closeSchema source start read) := by
  have close {after : List Token} {closed : Raw × List Token}
      (h : (if (Token.first after).kind = .closes .round then .ok (Raw.object read.1, after.tail)
        else .error (errorAt source .expectedCloseOfSchema start)) = Except.ok closed) :
      closed.1 = .object read.1 ∧ ∃ t, after = t :: closed.2 ∧ t.kind = .closes .round := by
    split at h
    · next close =>
      cases h
      obtain ⟨t, left, rfl, close⟩ := exists_cons_of_kind close (by simp)
      exact ⟨rfl, t, rfl, close⟩
    · cases h
  intro closed ok
  rw [closeSchema] at ok
  split at ok
  · next comma =>
    obtain ⟨after, options, ok⟩ := bind_eq_ok.1 ok
    obtain ⟨⟨last, found⟩, skip, eq⟩ := bind_eq_ok.1 options
    cases eq
    obtain ⟨value, t, rfl, closes⟩ := close ok
    obtain ⟨c, more, eq, comma⟩ := exists_cons_of_kind comma (by simp)
    rw [eq] at skip ⊢
    exact ⟨value, .options comma skip closes⟩
  · obtain ⟨value, t, eq, closes⟩ := close ok
    rw [eq]
    exact ⟨value, .plain closes⟩

theorem ReadsSpelled.nested_succ (t : Token) (ts : List Token) (name : t.kind = .name)
    (schema : NestsSchema t ts) :
    Yields (fun read => ∃ w, Starts source (t :: ts) w read.2 ∧ read.1 = w.raw)
      (readNestedSchema source (fuel + 1) (t :: ts)).outcome := by
  rw [readNestedSchema_eq]
  intro read ok
  obtain ⟨object, found, ok⟩ := bind_eq_ok.1 ok
  obtain ⟨entries, spelled, ok⟩ := bind_eq_ok.1 ok
  obtain ⟨es, spelled, eq⟩ := ih.entries [] object.tail entries spelled
  obtain ⟨value, closes⟩ := closes_of_closeSchema read ok
  refine ⟨_, .schema name schema found spelled closes, ?_⟩
  rw [value, eq, raw_lastWins]

theorem ReadsSpelled.entries_succ (before : Entries Raw) (ts : List Token) :
    Yields (fun read => ∃ es, SpellsEntries source ts es read.2 ∧
      read.1 = Entries.moveAll before (es.map fun e => (e.1, e.2.raw)))
      (readEntries source (fuel + 1) before ts).outcome := by
  cases ts with
  | nil =>
    rw [readEntries]
    exact .error
  | cons t rest =>
    rw [readEntries_cons]
    split
    · next close => exact .ok ⟨[], .close close, rfl⟩
    · refine (ih.entry before (t :: rest)).seq ?_
      rintro ⟨entries, after⟩ ⟨es, entry, eq⟩
      rw [moreEntries]
      dsimp only at entry eq ⊢
      split
      · next comma =>
        obtain ⟨c, more, rfl, comma⟩ := exists_cons_of_kind comma (by simp)
        refine (ih.entries entries more).mono ?_
        rintro read ⟨es', spelled, eq'⟩
        refine ⟨es ++ es', .more entry comma spelled, ?_⟩
        rw [eq', eq, List.map_append, Entries.moveAll_append]
      split
      · next close =>
        obtain ⟨c, more, rfl, close⟩ := exists_cons_of_kind close (by simp)
        exact .ok ⟨es, .last entry close, eq⟩
      · exact .error

theorem ReadsSpelled.entry_succ (before : Entries Raw) (ts : List Token) :
    Yields (fun read => ∃ es, SpellsEntry source ts es read.2 ∧
      read.1 = Entries.moveAll before (es.map fun e => (e.1, e.2.raw)))
      (readEntry source (fuel + 1) before ts).outcome := by
  cases ts with
  | nil =>
    rw [readEntry]
    exact .error
  | cons t rest =>
    rw [readEntry_cons]
    split
    · next spread =>
      intro read ok
      obtain ⟨⟨text, left⟩, found, eq⟩ := bind_eq_ok.1 ok
      cases eq
      exact ⟨[], .spread spread found, rfl⟩
    split
    · next opens =>
      intro read ok
      obtain ⟨⟨close, after⟩, found, ok⟩ := bind_eq_ok.1 ok
      rw [skipComputed] at ok
      split at ok
      · next colon =>
        obtain ⟨c, more, eq, colon⟩ := exists_cons_of_kind colon (by simp)
        dsimp only at eq ok
        subst eq
        obtain ⟨value, ran, eq⟩ := bind_eq_ok.1 ok
        cases eq
        obtain ⟨w, spelled, -⟩ := ih.value more value ran
        exact ⟨[], .computed opens found colon spelled, rfl⟩
      · cases ok
    split
    · next key =>
      split
      · next colon =>
        obtain ⟨c, more, rfl, colon⟩ := exists_cons_of_kind colon (by simp)
        refine (ih.value more).seq ?_
        rintro ⟨v, after⟩ ⟨w, spelled, eq⟩
        refine .ok ?_
        exact ⟨[(t.value, w)], .field key colon spelled, by rw [show v = _ from eq]; rfl⟩
      split
      · next opens =>
        intro read ok
        obtain ⟨⟨close, after⟩, found, ok⟩ := bind_eq_ok.1 ok
        rw [skipMethod] at ok
        dsimp only at ok
        split at ok
        · next next =>
          obtain ⟨⟨brace, left⟩, body, eq⟩ := bind_eq_ok.1 ok
          cases eq
          exact ⟨[], .method key opens (.body found next body), rfl⟩
        · next next =>
          cases ok
          exact ⟨[], .method key opens (.plain found next), rfl⟩
      split
      · next short => exact .ok ⟨[(t.value, .name t.value)], .shorthand short.1 short.2, rfl⟩
      · exact .error
    · exact .error

theorem ReadsSpelled.items_succ (ts : List Token) :
    Yields (fun read => ∃ ws, SpellsItems source ts ws read.2 ∧ read.1 = ws.map Written.raw)
      (readItems source (fuel + 1) ts).outcome := by
  cases ts with
  | nil =>
    rw [readItems]
    exact .error
  | cons t rest =>
    rw [readItems_cons]
    split
    · next close => exact .ok ⟨[], .close close, rfl⟩
    split
    · next comma =>
      refine (ih.items rest).mono ?_
      rintro read ⟨ws, spelled, eq⟩
      exact ⟨ws, .hole comma spelled, eq⟩
    · refine (ih.value (t :: rest)).seq ?_
      rintro ⟨v, after⟩ ⟨w, item, eq⟩
      rw [moreItems]
      dsimp only at item eq ⊢
      split
      · next comma =>
        obtain ⟨c, more, rfl, comma⟩ := exists_cons_of_kind comma (by simp)
        refine (ih.items more).seq ?_
        rintro ⟨vs, left⟩ ⟨ws, spelled, eq'⟩
        refine .ok ?_
        refine ⟨w :: ws, .more item comma spelled, ?_⟩
        rw [List.map_cons, ← eq, ← show vs = _ from eq']
      split
      · next close =>
        obtain ⟨c, more, rfl, close⟩ := exists_cons_of_kind close (by simp)
        exact .ok ⟨[w], .last item close, by rw [eq]; rfl⟩
      · exact .error

omit ih

theorem readsSpelled (fuel : Nat) : ReadsSpelled source fuel := by
  induction fuel with
  | zero => exact .zero
  | succ fuel ih =>
    exact ⟨ih.value_succ, ih.nested_succ, ih.entries_succ, ih.entry_succ, ih.items_succ⟩

/-! ### Declarations -/

/-- The tokens of a text spell the entries of a schema. -/
def Declares (text : Text) (entries : Entries Written) : Prop :=
  ∃ ts object es left, tokenize text = .ok ts ∧ findSchemaObject text ts = .ok object ∧
    SpellsEntries text object.tail es left ∧ entries = Entries.lastWins es

/-- What a text is read as is what its tokens spell. -/
theorem exists_declares {text : Text} {raw : Entries Raw} (h : (readRaw text).outcome = .ok raw) :
    ∃ entries, Declares text entries ∧ raw = entries.map fun e => (e.1, e.2.raw) := by
  rw [readRaw] at h
  split at h
  · cases h
  next ts tokens =>
  rw [ofTokens_eq] at h
  obtain ⟨object, found, h⟩ := bind_eq_ok.1 h
  obtain ⟨read, ran, eq⟩ := bind_eq_ok.1 h
  cases eq
  obtain ⟨es, spelled, same⟩ := (readsSpelled _).entries [] object.tail read ran
  refine ⟨Entries.lastWins es, ⟨ts, object, es, _, tokens, found, spelled, rfl⟩, same.trans ?_⟩
  exact (Entries.map_moveAll Written.raw [] es).symm

end Declaration

end SchemaTypings
