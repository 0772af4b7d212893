import SchemaTypings.Field.Materialize
import SchemaTypings.Proofs.Converting
import SchemaTypings.Proofs.Cutting
import SchemaTypings.Proofs.Rereading

/-!
Schemas in schemas. An object literal that is the argument of a schema is read the same as the
argument of a schema that is a field of another, so the field is nested and has the fields of the
object.
-/

namespace SchemaTypings

namespace Declaration

/-! ### Parts of a source -/

/-- The part of a source up to a closing brace does not depend on what stands around it. -/
theorem slice_closed {before inside after : Text} {start stop : Nat} (hs : before.length ≤ start)
    (he : stop ≤ before.length + (inside.length + 1)) :
    slice (before ++ inside.closed after) start stop =
      slice (inside ++ "\x7d") (start - before.length) (stop - before.length) := by
  have object : inside.closed after = (inside ++ "\x7d") ++ after := List.append_cons ..
  have size : (inside ++ ("\x7d" : Text)).length = inside.length + 1 := List.length_append
  rw [object, slice_within hs (by rw [size]; exact he)]

/-! ### Tokens around the object -/

/-- The tokens behind the object that is the argument of a call, where the object ends at `p`. -/
def callEnd (p : Nat) : List Token := closeTokens.map (·.later p) ++ [Token.eof (p + 2)]

/-- The tokens of `{ f: new Schema(`. -/
def fieldTokens : List Token :=
  [⟨.opens .curly, "\x7b", 0, 1⟩, ⟨.name, "f", 2, 3⟩, ⟨.colon, ":", 3, 4⟩, ⟨.name, "new", 5, 8⟩,
    ⟨.name, "Schema", 9, 15⟩, ⟨.opens .round, "(", 15, 16⟩]

theorem lexes_field : Lexes "\x7b f: new Schema(" fieldTokens fun _ => True := by
  have space : Lexes " " [] fun _ => True := .blank (c := ' ') (by decide)
  have opens : Lexes "\x7b" _ fun _ => True := .mark (c := '\x7b') rfl
  have name : Lexes "f" _ Text.Stops := .name (by decide)
  have colon : Lexes ":" _ fun _ => True := .mark (c := ':') rfl
  have value := colon.append (space.append lexes_new fun _ _ => trivial) fun _ _ => trivial
  have entry := name.append value fun _ _ => Text.stops_cons (by decide)
  exact opens.append (space.append entry fun _ _ => trivial) fun _ _ => trivial

/-- The tokens of `) });`. -/
def fieldEndTokens : List Token :=
  [⟨.closes .round, ")", 0, 1⟩, ⟨.closes .curly, "\x7d", 2, 3⟩, ⟨.closes .round, ")", 3, 4⟩,
    ⟨.semicolon, ";", 4, 5⟩]

theorem lexes_fieldEnd : Lexes ") \x7d);" fieldEndTokens fun _ => True := by
  have space : Lexes " " [] fun _ => True := .blank (c := ' ') (by decide)
  have closes : Lexes ")" _ fun _ => True := .mark (c := ')') rfl
  have brace : Lexes "\x7d" _ fun _ => True := .mark (c := '\x7d') rfl
  have outer := space.append (brace.append lexes_close fun _ _ => trivial) fun _ _ => trivial
  exact closes.append outer fun _ _ => trivial

/-- The tokens behind the object that a schema in a field is given, where the object ends at `p`. -/
def fieldEnd (p : Nat) : List Token := fieldEndTokens.map (·.later p) ++ [Token.eof (p + 5)]

/-- The tokens of the argument of a schema in a field, and those behind it: the object that starts
with `first`, 16 code points later than where it is the argument of the whole declaration. -/
def fieldArgument (inside : Text) (first : Token) (ts : List Token) : List Token :=
  (first :: (ts ++ [Token.brace (21 + inside.length)])).map (·.later 16) ++
    fieldEnd (38 + inside.length)

/-- The schema with one field `f`, which is the schema with the argument. -/
def ofField (argument : Text) : Text := ofArgument ("\x7b f: new Schema(" ++ (argument ++ ") \x7d"))

/-- The text `inside` and a closing brace are an object literal with the given entries: as the
argument of a schema it has the token `first`, which opens the object, the tokens `ts` and that of
the brace, and is read up to the brace. -/
structure ReadsObject (inside : Text) (first : Token) (ts : List Token) (entries : Entries Raw) :
    Prop where
  opens : first.kind = .opens .curly
  tokens : tokenize (ofArgument (inside ++ "\x7d")) = .ok (headerTokens ++ first :: (ts ++
    Token.brace (21 + inside.length) :: callEnd (22 + inside.length)))
  read : (readEntries (ofArgument (inside ++ "\x7d")) (3 * (ts.length + 11) + 3) []
    (ts ++ Token.brace (21 + inside.length) :: callEnd (22 + inside.length))).outcome =
      .ok (entries, callEnd (22 + inside.length))

namespace ReadsObject

variable {inside : Text} {first : Token} {ts : List Token} {entries : Entries Raw}

theorem ofArgument_eq (inside : Text) :
    ofArgument (inside ++ "\x7d") = "const s = new Schema(" ++ inside.closed ");" := by
  rw [ofArgument, List.append_assoc]
  rfl

theorem ofField_eq (inside : Text) :
    ofField (inside ++ "\x7d") =
      ("const s = new Schema(" ++ "\x7b f: new Schema(") ++ inside.closed ") \x7d);" := by
  have stop : (") \x7d);" : Text) = ") \x7d" ++ ");" := rfl
  rw [ofField, ofArgument, stop, Text.closed]
  simp only [List.append_assoc]
  rfl

/-- The tokens of the object where it is the argument of the whole declaration. -/
theorem lex_argument (h : ReadsObject inside first ts entries) :
    (lex true 21 (inside.closed ");")).tokens =
      first :: ts ++ Token.brace (21 + inside.length) :: callEnd (22 + inside.length) := by
  have header : lex true 0 ("const s = new Schema(" ++ inside.closed ");") =
      (lex true 21 (inside.closed ");")).behind headerTokens := lexes_header true 0 _ trivial
  have tokens := h.tokens
  rw [tokenize, ofArgument_eq, header] at tokens
  split at tokens
  · cases tokens
  next found lexed =>
  cases tokens
  exact List.append_cancel_left (congrArg Lexed.tokens lexed)

theorem tokenize_field (h : ReadsObject inside first ts entries) :
    tokenize (ofField (inside ++ "\x7d")) = .ok (headerTokens ++
      (fieldTokens.map (·.later 21) ++ fieldArgument inside first ts)) := by
  have header : lex true 0 (("const s = new Schema(" ++ "\x7b f: new Schema(") ++
      inside.closed ") \x7d);") = (lex true 37 (inside.closed ") \x7d);")).behind
        (headerTokens ++ fieldTokens.map (·.later 21)) :=
    (lexes_header.append lexes_field fun _ _ => trivial) true 0 _ trivial
  have object := lex_closed h.lex_argument (by decide) 16 ") \x7d);"
  rw [lexes_fieldEnd.lex_eq trivial] at object
  have place : 21 + 16 + inside.length + 1 = 38 + inside.length := by omega
  have width : (") \x7d);" : Text).length = 5 := rfl
  rw [tokenize, ofField_eq, header, object, place, Lexed.behind_behind]
  refine congrArg Except.ok ?_
  simp [fieldArgument, fieldEnd, width]

/-- The tokens of the object have moved, and their text has moved with them. -/
theorem moved (h : ReadsObject inside first ts entries) :
    Moved (ofArgument (inside ++ "\x7d")) (ofField (inside ++ "\x7d")) 16
      (ts ++ [Token.brace (21 + inside.length)]) (callEnd (22 + inside.length))
      (fieldEnd (38 + inside.length)) where
  slices t ht u hu := by
    have tokens := h.lex_argument
    have start : 21 ≤ t.pos := by
      refine pos_of_mem_lex (r := true) (s := inside.closed ");") ?_
      rw [tokens]
      rcases List.mem_append.1 ht with ht | ht
      · simp [ht]
      · simp [List.mem_singleton.1 ht]
    have stop : u.stop ≤ 22 + inside.length := by
      rcases List.mem_append.1 hu with hu | hu
      · have order := pairwise_lex true 21 (inside.closed ");")
        rw [tokens] at order
        have ends : u.stop ≤ (Token.brace (21 + inside.length)).pos :=
          (List.pairwise_append.1 order).2.2 u (by simp [hu]) _ (by simp)
        exact Nat.le_trans ends (by simp [Token.brace])
      · rw [List.mem_singleton.1 hu]
        show 21 + inside.length + 1 ≤ 22 + inside.length
        omega
    have header : ("const s = new Schema(" : Text).length = 21 := rfl
    have field : (("const s = new Schema(" : Text) ++ "\x7b f: new Schema(").length = 37 := rfl
    rw [ofField_eq, ofArgument_eq, slice_closed (by omega) (by omega),
      slice_closed (by omega) (by omega), header, field, Nat.add_sub_add_right t.pos 16 21,
      Nat.add_sub_add_right u.stop 16 21]
  closes := ⟨.round, rfl⟩
  alike := rfl
  isOver us suffix := by
    simp only [callEnd, closeTokens, List.map_cons, List.map_nil, List.cons_append,
      List.nil_append, List.tail_cons] at suffix
    rcases List.suffix_cons_iff.1 suffix with rfl | suffix
    · exact .inl rfl
    rcases List.suffix_cons_iff.1 suffix with rfl | suffix
    · exact .inr rfl
    · rw [List.suffix_nil.1 suffix]
      exact .inr rfl

/-- The entries of the object are read the same where it is the argument of a schema in a field. -/
theorem readEntries_field (h : ReadsObject inside first ts entries) {fuel : Nat}
    (hf : 3 * (ts.length + 11) + 3 ≤ fuel) :
    (readEntries (ofField (inside ++ "\x7d")) fuel []
      ((ts ++ [Token.brace (21 + inside.length)]).map (·.later 16) ++
        fieldEnd (38 + inside.length))).outcome = .ok (entries, fieldEnd (38 + inside.length)) := by
  have here := h.read
  rw [← List.singleton_append, ← List.append_assoc] at here
  exact (readsMoved h.moved _).entries hf [] (List.suffix_refl _) entries [] here

/-- The declaration with the object as its argument has the entries of the object. -/
theorem readRaw_argument (h : ReadsObject inside first ts entries) :
    (readRaw (ofArgument (inside ++ "\x7d"))).outcome = .ok entries := by
  have size : (headerTokens ++ first :: (ts ++ Token.brace (21 + inside.length) ::
      callEnd (22 + inside.length))).length = ts.length + 11 := by
    simp [headerTokens, callEnd, closeTokens]
  have read := h.read
  rw [← size] at read
  rw [readRaw, h.tokens]
  exact outcome_ofTokens (findSchemaObject_header h.opens) read

/-- The schema in the field is read as the object. -/
theorem readNested_field (h : ReadsObject inside first ts entries) {fuel : Nat}
    (hf : 3 * (ts.length + 11) + 3 ≤ fuel) {t u v : Token} (new : t.kind = .name ∧ t.value = "new")
    (schema : u.kind = .name ∧ u.value = "Schema") (opens : v.kind = .opens .round) :
    (readNestedSchema (ofField (inside ++ "\x7d")) (fuel + 1)
      (t :: u :: v :: fieldArgument inside first ts)).outcome =
        .ok (.object entries, (fieldEnd (38 + inside.length)).tail) := by
  have word : ("new" : Text) ≠ "Schema" := by decide
  have object : (Token.first (fieldArgument inside first ts)).kind = .opens .curly := h.opens
  rw [readNestedSchema_eq, findSchemaObject, if_neg (by simp [Token.first, new]),
    findCall_skip (by simp [new]) (by simp [new, word]), findCall_schema schema opens object,
    ok_bind]
  exact bind_eq_ok.2 ⟨_, h.readEntries_field hf, rfl⟩

/-- The field is the only one, and its value is the object. -/
theorem readEntries_nested (h : ReadsObject inside first ts entries) {fuel : Nat}
    (hf : 3 * (ts.length + 11) + 3 ≤ fuel) {k c t u v : Token} (key : k.kind = .name)
    (colon : c.kind = .colon) (new : t.kind = .name ∧ t.value = "new")
    (schema : u.kind = .name ∧ u.value = "Schema") (opens : v.kind = .opens .round) :
    (readEntries (ofField (inside ++ "\x7d")) (fuel + 4) []
      (k :: c :: t :: u :: v :: fieldArgument inside first ts)).outcome =
        .ok ([(k.value, .object entries)], (fieldEnd (38 + inside.length)).tail.tail) := by
  have path : lastOfPath (u :: v :: fieldArgument inside first ts) = some ("Schema" : Text) := by
    simp [lastOfPath, schema, opens]
  have value : (readValue (ofField (inside ++ "\x7d")) (fuel + 2)
      (t :: u :: v :: fieldArgument inside first ts)).outcome =
        .ok (.object entries, (fieldEnd (38 + inside.length)).tail) := by
    rw [readValue_name new.1, if_pos ⟨new.2, path⟩]
    refine bind_eq_ok.2 ⟨_, h.readNested_field hf new schema opens, ?_⟩
    exact finish_of_delimited _ _ rfl
  have entry : (readEntry (ofField (inside ++ "\x7d")) (fuel + 3) []
      (k :: c :: t :: u :: v :: fieldArgument inside first ts)).outcome =
        .ok ([(k.value, .object entries)], (fieldEnd (38 + inside.length)).tail) := by
    rw [readEntry_cons, if_neg (by simp [Token.isOperator, key]), if_neg (by simp [key]),
      if_pos (.inl key)]
    exact (if_pos colon).trans (bind_eq_ok.2 ⟨_, value, rfl⟩)
  rw [readEntries_cons, if_neg (by simp [key])]
  exact bind_eq_ok.2 ⟨_, entry, rfl⟩

theorem readRaw_field (h : ReadsObject inside first ts entries) :
    (readRaw (ofField (inside ++ "\x7d"))).outcome = .ok [("f", .object entries)] := by
  let fuel := 3 * (ts.length + 11) + 3
  have size : 3 * (headerTokens ++ (fieldTokens.map (·.later 21) ++
      fieldArgument inside first ts)).length + 3 = fuel + 20 + 4 := by
    simp [headerTokens, fieldTokens, fieldArgument, fieldEnd, fieldEndTokens, fuel]
    omega
  have read := h.readEntries_nested (t := ⟨.name, "new", 26, 29⟩) (u := ⟨.name, "Schema", 30, 36⟩)
    (v := ⟨.opens .round, "(", 36, 37⟩) (k := ⟨.name, "f", 23, 24⟩) (c := ⟨.colon, ":", 24, 25⟩)
    (Nat.le_add_right fuel 20) rfl rfl ⟨rfl, rfl⟩ ⟨rfl, rfl⟩ rfl
  rw [← size] at read
  rw [readRaw, h.tokenize_field]
  exact outcome_ofTokens (findSchemaObject_header rfl) read

end ReadsObject

/-- The text is an object literal with the given entries, as they are written: as the argument of a
schema it is read up to the brace that ends it. -/
def IsObject (object : Text) (entries : Entries Raw) : Prop :=
  ∃ inside first ts, object = inside ++ "\x7d" ∧ ReadsObject inside first ts entries

/-! ### The fields of the object -/

/-- The field tree that a text declares; `path` is the file it is from, for messages. -/
def fieldTree (text : Text) (path : Option Text) : Logged ReadError FieldTree := do
  FieldTree.materialize (← normalize text) path

theorem outcome_fieldTree {text : Text} {entries : Entries Raw} (path : Option Text)
    (h : (readRaw text).outcome = .ok entries) : (fieldTree text path).outcome =
      (FieldTree.materialize (Literal.object (Raw.quoteFields entries)).render path).outcome := by
  simp [fieldTree, normalize, read, h]

/-- The entries are fields, and not the options of one field: neither as they are written nor as
their canonical text denotes them. -/
structure AreFields (entries : Entries Raw) : Prop where
  written : Raw.isOptions entries = false
  canonical : ∀ es, Literal.parse (Literal.object (Raw.quoteFields entries)).render =
    .ok (.object es) → Literal.isOptions es = false

/-- A schema in a field is nested, and has the fields that its object declares by itself: the same
names and the same nodes, in the same order. -/
theorem fieldTree_nested {object : Text} {entries : Entries Raw} {tree : FieldTree}
    (path : Option Text) (reads : IsObject object entries) (fields : AreFields entries)
    (declared : (fieldTree ("const s = new Schema(" ++ object ++ ");") path).outcome = .ok tree)
    (declares : tree ≠ []) :
    (fieldTree ("const s = new Schema(\x7b f: new Schema(" ++ object ++ ") \x7d);") path).outcome =
      .ok [{ name := "f", kind := .nested, child := .fields tree }] := by
  obtain ⟨inside, first, ts, rfl, h⟩ := reads
  have argument (object : Text) : "const s = new Schema(" ++ object ++ ");" = ofArgument object :=
    List.append_assoc ..
  have start : ("const s = new Schema(\x7b f: new Schema(" : Text) =
      "const s = new Schema(" ++ "\x7b f: new Schema(" := rfl
  have stop : (") \x7d);" : Text) = ") \x7d" ++ ");" := rfl
  have field (object : Text) : "const s = new Schema(\x7b f: new Schema(" ++ object ++ ") \x7d);" =
      ofField object := by
    rw [ofField, ofArgument, start, stop]
    simp only [List.append_assoc]
  rw [argument, outcome_fieldTree path h.readRaw_argument] at declared
  obtain ⟨es, denotes, rfl⟩ := FieldTree.materialize_eq_ok.1 declared
  have quoted (name : Text) : Raw.quoteFields [(name, .object entries)] =
      [(name, .object (Raw.quoteFields entries))] := by
    simp [Raw.quoteFields, Raw.quoteType, fields.written]
  have entry := Literal.parse_render_entry "f" (by decide) denotes
  have notEmpty : es ≠ [] := by
    rintro rfl
    exact declares rfl
  have nested : Field.declared? "f" (.object es) =
      some { name := "f", kind := .nested, child := .fields (FieldTree.declared es) } := by
    rw [Field.declared?_object notEmpty, fields.canonical es denotes]
    rfl
  rw [field, outcome_fieldTree path h.readRaw_field, quoted,
    FieldTree.outcome_materialize_object path entry]
  simp [FieldTree.declared, Field.declaredTree, nested, FieldTree.add]

/-- An object with a field called `type`, up to its last brace, and its tokens behind the first. -/
def sampleInside : Text := "\x7b type: \x7b type: String \x7d "

def sampleTokens : List Token :=
  [⟨.name, "type", 23, 27⟩, ⟨.colon, ":", 27, 28⟩, ⟨.opens .curly, "\x7b", 29, 30⟩,
    ⟨.name, "type", 31, 35⟩, ⟨.colon, ":", 35, 36⟩, ⟨.name, "String", 37, 43⟩,
    ⟨.closes .curly, "\x7d", 44, 45⟩]

theorem readsObject_sample : ReadsObject sampleInside ⟨.opens .curly, "\x7b", 21, 22⟩ sampleTokens
    [("type", .object [("type", .bare "String")])] where
  opens := rfl
  tokens := by
    have lexed : lex true 0 (ofArgument (sampleInside ++ "\x7d")) =
        ⟨headerTokens ++ ⟨.opens .curly, "\x7b", 21, 22⟩ :: (sampleTokens ++
          Token.brace (21 + sampleInside.length) :: callEnd (22 + sampleInside.length)), none⟩ := by
      decide +kernel
    rw [tokenize, lexed]
  read := rfl

theorem fieldTree_nested_sample : ∃ entries tree, IsObject (sampleInside ++ "\x7d") entries ∧
    AreFields entries ∧ tree ≠ [] ∧
    (fieldTree ("const s = new Schema(" ++ (sampleInside ++ "\x7d") ++ ");") none).outcome =
      .ok tree ∧
    (fieldTree ("const s = new Schema(\x7b f: new Schema(" ++ (sampleInside ++ "\x7d") ++ ") \x7d);")
      none).outcome = .ok [{ name := "f", kind := .nested, child := .fields tree }] := by
  let es : Entries Literal := [("type", .object [("type", .text "string")])]
  have object : IsObject (sampleInside ++ "\x7d") _ := ⟨_, _, _, rfl, readsObject_sample⟩
  have parsed : Literal.parse (Literal.object es).render = .ok (.object es) :=
    Literal.parse_render (by decide)
  have fields : AreFields [("type", .object [("type", .bare "String")])] := by
    refine ⟨rfl, fun vs denotes => ?_⟩
    cases parsed.symm.trans denotes
    rfl
  have declared : (fieldTree ("const s = new Schema(" ++ (sampleInside ++ "\x7d") ++ ");")
      none).outcome = .ok (FieldTree.declared es) := by
    rw [List.append_assoc]
    exact (outcome_fieldTree none readsObject_sample.readRaw_argument).trans
      (FieldTree.outcome_materialize_object none parsed)
  have notEmpty : FieldTree.declared es ≠ [] := List.cons_ne_nil _ _
  exact ⟨_, _, object, fields, notEmpty, declared,
    fieldTree_nested none object fields declared notEmpty⟩

/-- The text declares fields as the argument of a schema, but as that of a schema in a field it
declares no nested field. -/
def Unnested (object : Text) : Prop :=
  ∃ tree, (fieldTree ("const s = new Schema(" ++ object ++ ");") none).outcome = .ok tree ∧
    tree ≠ [] ∧ ∀ outer,
      (fieldTree ("const s = new Schema(\x7b f: new Schema(" ++ object ++ ") \x7d);") none).outcome =
        .ok outer → ∀ field ∈ outer, field.kind ≠ .nested

/-- Whether the outcomes are as those of an unnested text are. -/
def areUnnested : Except ReadError FieldTree → Except ReadError FieldTree → Bool
  | .ok tree, .ok outer => !tree.isEmpty && outer.all (·.kind ≠ .nested)
  | .ok tree, .error _ => !tree.isEmpty
  | .error _, _ => false

theorem unnested_of_areUnnested {object : Text} (h : areUnnested
    (fieldTree ("const s = new Schema(" ++ object ++ ");") none).outcome
    (fieldTree ("const s = new Schema(\x7b f: new Schema(" ++ object ++ ") \x7d);") none).outcome =
      true) : Unnested object := by
  unfold areUnnested at h
  split at h
  · next tree outer here there =>
    simp only [Bool.and_eq_true, Bool.not_eq_true', List.isEmpty_eq_false_iff, List.all_eq_true,
      decide_eq_true_eq] at h
    refine ⟨tree, here, h.1, fun found read => ?_⟩
    cases there.symm.trans read
    exact h.2
  · next tree e here there =>
    refine ⟨tree, here, by simpa using h, fun found read => ?_⟩
    cases there.symm.trans read
  · cases h

/-- A schema in a field need not be nested: not if its object is like the options of one field, and
not if its object is not read up to its end, as when a `new Schema` in it is no call. -/
theorem unnested_options : Unnested "\x7b type: String \x7d" ∧
    Unnested "\x7b a: new Schema, b: \x7b c: new Schema(\x7b d: String \x7d) \x7d \x7d" := by
  constructor <;> exact unnested_of_areUnnested (by decide +kernel)

end Declaration

end SchemaTypings
