import SchemaTypings.Proofs.Extraction
import SchemaTypings.Proofs.HeaderTokens
import SchemaTypings.Proofs.Rereading

/-!
The argument of a declaration. The extraction finds the call of a declaration among code points, and
the lenient reader looks among tokens for a call with an object literal. Where both find the same
call, the declaration is read as its argument is read by itself, and they do if neither an
annotation nor generic arguments stand in front of the call.
-/

namespace SchemaTypings

namespace Declaration

/-- The offset in the source of the argument of a declaration: of the first token behind the bracket
that opens its call. -/
def argumentStart? (source : Text) (d : Declaration) : Option Nat := do
  let (_, after) ← Header.read? (source.drop d.start)
  let call ← skipArguments? after
  let argument ← (lexFrom source (source.length - call.length)).tokens[1]?
  pure argument.pos

/-! ### The end of an object literal -/

section

variable {source : Text}

/-- The last token of an object literal is its closing brace. -/
theorem exists_brace_of_readEntries {fuel : Nat} {before entries : Entries Raw}
    {ts left : List Token}
    (h : (readEntries source fuel before ts).outcome = .ok (entries, left)) :
    ∃ run brace, ts = run ++ brace :: left ∧ brace.kind = .closes .curly := by
  induction fuel generalizing before ts with
  | zero => cases ts <;> cases h
  | succ fuel ih =>
    cases ts with
    | nil => cases h
    | cons t ts =>
      rw [readEntries_cons] at h
      split at h
      · next closes =>
        cases h
        exact ⟨[], t, rfl, closes⟩
      · obtain ⟨⟨entries', after⟩, entry, more⟩ := bind_eq_ok.1 h
        obtain ⟨front, eq⟩ := ((readsWithin fuel).entry before (t :: ts)).suffix _ entry
        have eq : front ++ after = t :: ts := eq
        rw [moreEntries] at more
        dsimp only at more
        split at more
        · next comma =>
          cases after with
          | nil => cases comma
          | cons c after =>
            obtain ⟨run, brace, split, closes⟩ := ih more
            have split : after = run ++ brace :: left := split
            exact ⟨front ++ c :: run, brace, by rw [← eq, split]; simp, closes⟩
        split at more
        · next closes =>
          cases after with
          | nil => cases closes
          | cons c after =>
            cases more
            exact ⟨front, c, eq.symm, closes⟩
        · cases more

end

/-! ### The argument among the tokens -/

/-- No other mark is of the kind of a brace. -/
theorem Lexeme.eq_brace_of_mark? {c : CodePoint} :
    (Lexeme.mark? c = some (.opens .curly) → c = '\x7b') ∧
      (Lexeme.mark? c = some (.closes .curly) → c = '\x7d') := by
  constructor <;> intro h <;> refine Decidable.byContradiction fun other => ?_ <;>
    simp [Lexeme.mark?, other, ite_eq_iff] at h

theorem IsCall.exists_cons {l r : Token} {inner : List Token} (h : IsCall l inner r) :
    ∃ o others, inner = o :: others ∧ o.kind = .opens .curly := by
  have object := h.object
  cases inner with
  | nil => cases object
  | cons o others => exact ⟨o, others, rfl, object⟩

/-- Behind the brace that opens the argument come tokens of the call, its closing bracket, and what
declares nothing more. -/
theorem CallBefore.exists_argument {x call ending : Text} (c : CallBefore (ending ++ x) call)
    (isEnding : IsEnding ending) :
    ∃ o others front rest us r more, c.inner = o :: others ∧ o.pos = front.length ∧
      call ++ ending = front ++ ('\x7b' : CodePoint) :: rest ∧
      lex true 1 rest = ⟨us ++ r :: more, none⟩ ∧ r.kind = .closes .round ∧
      ∀ t ∈ more, t.kind = .semicolon ∨ t.kind = .eof := by
  obtain ⟨o, others, inner, opens⟩ := c.isCall.exists_cons
  obtain ⟨more, lexed, kinds⟩ := c.lex_cut isEnding 0
  have tokens : (lex true 0 (call ++ ending)).tokens = [c.l] ++ o :: (others ++ c.r :: more) := by
    rw [lexed, inner]
    simp
  obtain ⟨front, ch, rest, us, w, split, pos, -, -, read, stop, behind⟩ :=
    exists_before_of_lex tokens (by simp [opens])
  rw [opens] at read
  obtain ⟨mark, rfl⟩ := Lexeme.mark_of_read read (.inl rfl)
  obtain rfl := Lexeme.eq_brace_of_mark?.1 mark
  rw [Nat.zero_add] at pos
  have place : o.stop = 1 + front.length := by omega
  have regex : o.allowsRegex = true := by simp [Token.allowsRegex, opens]
  rw [lexed, regex, place, lex_later, Nat.sub_self, List.drop_zero] at behind
  obtain ⟨moved, error⟩ := Lexed.mk.inj behind
  obtain ⟨us', ts, tokens, front', rest'⟩ := List.map_eq_append_iff.1 moved
  obtain ⟨r', more', rfl, same, last⟩ := List.map_eq_cons_iff.1 rest'
  have none : (lex true 1 rest).error? = none := Option.map_eq_none_iff.1 error
  refine ⟨o, others, front, rest, us', r', more', inner, pos, split, ?_, ?_, fun t mem => ?_⟩
  · rw [← tokens, ← none]
  · have kind := congrArg Token.kind same
    exact kind.trans c.isCall.closed
  · exact kinds (t.later front.length) (by rw [← last]; exact List.mem_map_of_mem mem)

theorem lex_object (rest : Text) : lex true 0 (('\x7b' : CodePoint) :: rest) =
    (lex true 1 rest).behind [⟨.opens .curly, "\x7b", 0, 1⟩] := by
  rw [lex_token (Lexeme.read_mark (c := '\x7b') rfl true rest)]
  rfl

theorem isOver_of_suffix {more ts : List Token}
    (kinds : ∀ t ∈ more, t.kind = .semicolon ∨ t.kind = .eof) (h : ts <:+ more) : IsOver ts := by
  cases ts with
  | nil => exact .inr rfl
  | cons t ts => exact kinds t (h.subset (List.mem_cons_self ..))

/-- Tokens that were found at a place of the text are those of the text from there on. -/
theorem tail_of_findSchemaObject {front rest : Text} {ts object : List Token}
    (tokens : tokenize (front ++ ('\x7b' : CodePoint) :: rest) = .ok ts)
    (found : findSchemaObject (front ++ ('\x7b' : CodePoint) :: rest) ts = .ok object)
    (place : (Token.first object).pos = front.length) :
    object.tail = (lex true 1 rest).tokens.map (·.later front.length) := by
  have curly := kind_of_findSchemaObject found
  obtain ⟨before, eq⟩ := (within_findSchemaObject _ ts).suffix _ found
  have eq : before ++ object = ts := eq
  cases object with
  | nil => cases curly
  | cons b object =>
    have curly : b.kind = .opens .curly := curly
    have place : b.pos = front.length := place
    have lexed := (tokens_of_tokenize tokens).trans eq.symm
    obtain ⟨front', c, rest', us, w, split, pos, -, -, read, stop, behind⟩ :=
      exists_before_of_lex lexed (by simp [curly])
    rw [curly] at read
    obtain ⟨-, rfl⟩ := Lexeme.mark_of_read read (.inl rfl)
    rw [Nat.zero_add] at pos
    obtain ⟨rfl, same⟩ := List.append_inj split (place.symm.trans pos)
    obtain ⟨rfl, rfl⟩ := List.cons.inj same
    have regex : b.allowsRegex = true := by simp [Token.allowsRegex, curly]
    have next : b.stop = 1 + front.length := by omega
    rw [regex, next, lex_later, Nat.sub_self, List.drop_zero] at behind
    exact (congrArg Lexed.tokens behind).symm

/-- A text that is read from a certain brace on is read as the text from that brace on is. -/
theorem readRaw_append {front rest : Text} {us more ts object : List Token} {r : Token}
    {entries : Entries Raw} (lexed : lex true 1 rest = ⟨us ++ r :: more, none⟩)
    (closes : r.kind = .closes .round)
    (kinds : ∀ t ∈ more, t.kind = .semicolon ∨ t.kind = .eof)
    (tokens : tokenize (front ++ ('\x7b' : CodePoint) :: rest) = .ok ts)
    (found : findSchemaObject (front ++ ('\x7b' : CodePoint) :: rest) ts = .ok object)
    (place : (Token.first object).pos = front.length)
    (read : (readRaw (('\x7b' : CodePoint) :: rest)).outcome = .ok entries) :
    (readRaw (front ++ ('\x7b' : CodePoint) :: rest)).outcome = .ok entries := by
  have moved : Moved (('\x7b' : CodePoint) :: rest) (front ++ ('\x7b' : CodePoint) :: rest)
      front.length us (r :: more) ((r :: more).map (·.later front.length)) := {
    slices := by
      intro t _ u _
      have drop : (front ++ ('\x7b' : CodePoint) :: rest).drop (t.pos + front.length) =
          (('\x7b' : CodePoint) :: rest).drop t.pos := by
        rw [Nat.add_comm, ← List.drop_drop, List.drop_left]
      rw [slice, slice, drop, Nat.add_sub_add_right]
    closes := ⟨.round, closes⟩
    alike := rfl
    isOver := fun ts suffix => isOver_of_suffix kinds suffix }
  let whole : List Token := ⟨.opens .curly, "\x7b", 0, 1⟩ :: (us ++ r :: more)
  have first : tokenize (('\x7b' : CodePoint) :: rest) = .ok whole := by
    rw [tokenize, lex_object, lexed]
    rfl
  have start : findSchemaObject (('\x7b' : CodePoint) :: rest) whole = .ok whole := by
    rw [findSchemaObject]
    exact if_pos rfl
  rw [readRaw, first] at read
  dsimp only at read
  rw [ofTokens_eq, start, ok_bind] at read
  obtain ⟨⟨found', left⟩, entriesRead, eq⟩ := bind_eq_ok.1 read
  cases eq
  obtain ⟨run, brace, split, curly⟩ := exists_brace_of_readEntries entriesRead
  have split : us ++ r :: more = run ++ brace :: left := split
  -- The literal ends in front of the bracket that closes the call.
  obtain ⟨vs, rfl, -⟩ | past : (∃ vs, left = vs ++ r :: more ∧ vs <:+ us) ∨ left <:+ more :=
    moved.left (split ▸ (List.suffix_cons brace left).trans (List.suffix_append run _))
  · have size : whole.length ≤ ts.length := by
      have part := ((within_findSchemaObject _ ts).suffix _ found).length_le
      have tail := congrArg List.length (tail_of_findSchemaObject tokens found place)
      rw [lexed, List.length_tail, List.length_map] at tail
      have some : object ≠ [] := by
        rintro rfl
        exact absurd (kind_of_findSchemaObject found) (by decide)
      have pos := List.length_pos_iff.2 some
      dsimp only [id_eq] at part
      simp only [whole, List.length_cons] at tail ⊢
      omega
    have again := (readsMoved moved (3 * whole.length + 3)).entries
      (show 3 * whole.length + 3 ≤ 3 * ts.length + 3 by omega) [] (List.suffix_refl us) found' vs
      entriesRead
    have behind : (us ++ r :: more).map (·.later front.length) = object.tail := by
      rw [tail_of_findSchemaObject tokens found place, lexed]
    rw [← List.map_append, behind] at again
    rw [readRaw, tokens]
    exact outcome_ofTokens found again
  · exfalso
    obtain ⟨between, rfl⟩ := past
    have last : us ++ r :: between = run ++ [brace] := by
      have whole : (us ++ r :: between) ++ left = (run ++ [brace]) ++ left := by simpa using split
      exact List.append_cancel_right whole
    have mem : brace ∈ r :: between := by
      have tail := congrArg List.getLast? last
      rw [List.getLast?_append_of_ne_nil _ (by simp), List.getLast?_concat] at tail
      exact List.mem_of_getLast? tail
    rcases List.mem_cons.1 mem with rfl | mem
    · rw [closes] at curly
      cases curly
    · rcases kinds brace (List.mem_append_left _ mem) with no | no <;> rw [no] at curly <;>
        cases curly

/-! ### The argument of the declaration -/

/-- The search for a schema object in the declaration's text ends at the offset `p` of the source. -/
def FindsArgument (d : Declaration) (p : Nat) : Prop :=
  ∃ ts object, tokenize d.text = .ok ts ∧ findSchemaObject d.text ts = .ok object ∧
    d.start + (Token.first object).pos = p

theorem argumentStart?_append {opening call x : Text} {d : Declaration} {o : Token}
    {others : List Token} (front : Text) (isOpening : IsOpening d.name opening)
    (c : CallBefore x call) (inner : c.inner = o :: others) (start : d.start = front.length) :
    argumentStart? (front ++ (opening ++ (call ++ x))) d =
      some (d.start + (opening.length + o.pos)) := by
  obtain ⟨rest, starts⟩ := List.head?_eq_some_iff.1 c.starts
  have drop : (front ++ (opening ++ (call ++ x))).drop d.start = opening ++ (call ++ x) := by
    rw [start, List.drop_left]
  obtain ⟨after, read, skip⟩ : ∃ after, Header.read? (opening ++ (call ++ x)) =
      some (d.name, after) ∧ skipArguments? after = some (call ++ x) := by
    rw [starts]
    exact opening_iff.2 ⟨opening, isOpening, rfl⟩
  have tokens : (lexFrom (front ++ (opening ++ (call ++ x)))
      ((front ++ (opening ++ (call ++ x))).length - (call ++ x).length)).tokens[1]? =
        some (o.later (front ++ opening).length) := by
    have place : (front ++ (opening ++ (call ++ x))).length - (call ++ x).length =
        (front ++ opening).length := by
      rw [← List.append_assoc, List.length_append, Nat.add_sub_cancel]
    rw [place, ← List.append_assoc, lexFrom_append, c.lexed.lex_eq, inner]
    rfl
  rw [argumentStart?, drop, read, Option.bind_eq_bind, Option.bind_some]
  dsimp only
  rw [skip, Option.bind_eq_bind, Option.bind_some, tokens, start]
  refine congrArg some ?_
  rw [Token.pos_later, List.length_append]
  omega

/-- Behind a plain header the search ends at the argument. -/
theorem findSchemaObject_plain {name opening call ending x : Text} {o : Token} {others : List Token}
    (isOpening : IsOpening name opening) (plain : ∀ c ∈ opening, c ≠ ':' ∧ c ≠ '<')
    (c : CallBefore (ending ++ x) call) (isEnding : IsEnding ending)
    (inner : c.inner = o :: others) (source : Text) :
    ∃ ts object, tokenize (opening ++ (call ++ ending)) = .ok ts ∧
      findSchemaObject source ts = .ok (o.later opening.length :: object) := by
  obtain ⟨ts, t, lexes, pass, schema⟩ := lexesToSchema_opening isOpening plain
  obtain ⟨more, lexed, -⟩ := c.lex_cut isEnding opening.length
  obtain ⟨rest, starts⟩ := List.head?_eq_some_iff.1 c.starts
  -- The bracket of the call is read alike whether or not a regular expression may stand there.
  have paren (r : Bool) (p : Nat) : lex r p (call ++ ending) = lex true p (call ++ ending) := by
    rw [starts, List.cons_append, lex_token (Lexeme.read_mark rfl r _),
      lex_token (Lexeme.read_mark rfl true _)]
  have tokens : tokenize (opening ++ (call ++ ending)) = .ok (ts ++ t ::
      c.l.later opening.length :: o.later opening.length ::
        (others.map (·.later opening.length) ++ c.r.later opening.length :: more)) := by
    have whole := lexes true 0 (call ++ ending) (by rw [starts]; exact ⟨_, _, rfl, .inl rfl⟩)
    rw [Nat.zero_add, paren, lexed, inner] at whole
    rw [tokenize, whole]
    simp [Lexed.behind]
  have opens : o.kind = .opens .curly := by
    have object := c.isCall.object
    rw [inner] at object
    exact object
  exact ⟨_, _, tokens, (findSchemaObject_past _ pass schema.1).trans
    (findCall_schema schema c.isCall.opened opens)⟩

/-- A declaration has an argument, and what its text is read as is what the argument by itself is
read as, provided that the search for the argument finds it. Behind a plain header it does. -/
theorem read_argument {source : Text} {d : Declaration}
    (h : (extract source).outcome = .ok (some d)) :
    ∃ p, argumentStart? source d = some p ∧
      ((∀ c ∈ slice source d.start p, c ≠ ':' ∧ c ≠ '<') → FindsArgument d p) ∧
      (FindsArgument d p → ∀ fields, (read (slice source p d.stop)).outcome = .ok fields →
        (read d.text).outcome = .ok fields) := by
  obtain ⟨parts⟩ := exists_parts h
  obtain ⟨front, opening, call, ending, behind, rfl, -, isOpening, c, isEnding, text, start, stop⟩ :=
    parts
  obtain ⟨o, others, inside, rest, us, r, more, inner, pos, split, lexed, closes, kinds⟩ :=
    c.exists_argument isEnding
  have whole : d.text = (opening ++ inside) ++ ('\x7b' : CodePoint) :: rest := by
    rw [text, split, List.append_assoc]
  have place : d.start + (opening.length + o.pos) = front.length + (opening ++ inside).length := by
    rw [start, pos, List.length_append]
  have source_eq : front ++ (opening ++ (call ++ (ending ++ behind))) =
      front ++ (d.text ++ behind) := by
    rw [text]
    simp only [List.append_assoc]
  refine ⟨_, argumentStart?_append front isOpening c inner start, fun plain => ?_, ?_⟩
  · have opened : ∀ ch ∈ opening, ch ≠ ':' ∧ ch ≠ '<' := by
      refine fun ch mem => plain ch ?_
      rw [place, source_eq, whole, start, slice, List.drop_left, Nat.add_sub_cancel_left,
        List.append_assoc, List.take_left]
      exact List.mem_append_left _ mem
    obtain ⟨ts, object, tokens, found⟩ :=
      findSchemaObject_plain isOpening opened c isEnding inner d.text
    rw [← text] at tokens
    refine ⟨ts, _, tokens, found, ?_⟩
    show d.start + (o.pos + opening.length) = _
    rw [Nat.add_comm o.pos]
  · rintro ⟨ts, object, tokens, found, at_⟩ fields read
    have argument : slice (front ++ (opening ++ (call ++ (ending ++ behind))))
        (d.start + (opening.length + o.pos)) d.stop = ('\x7b' : CodePoint) :: rest := by
      have behind_eq : (front ++ (d.text ++ behind)).drop (front.length + (opening ++ inside).length) =
          ('\x7b' : CodePoint) :: rest ++ behind := by
        rw [← List.drop_drop, List.drop_left, whole, List.append_assoc, List.drop_left]
      have size : front.length + d.text.length - (front.length + (opening ++ inside).length) =
          (('\x7b' : CodePoint) :: rest).length := by
        have total : d.text.length = (opening ++ inside).length + (rest.length + 1) := by
          rw [whole, List.length_append, List.length_cons]
        rw [List.length_cons]
        omega
      rw [place, stop, source_eq, slice, behind_eq, size, List.take_left]
    rw [argument] at read
    have first : (Token.first object).pos = (opening ++ inside).length := by
      rw [start] at at_ place
      omega
    rw [outcome_read, map_eq_ok] at read
    obtain ⟨entries, read, rfl⟩ := read
    rw [whole] at tokens found ⊢
    rw [outcome_read, readRaw_append lexed closes kinds tokens found first read]
    rfl

/-- A declaration with a comment in front of its argument, and options. -/
def commentedSource : Text :=
  "export const s = new mongoose.Schema( /* a */ \x7b a: String, b: [Number] \x7d, \x7b x: 1 \x7d);"

theorem read_argument_plain : ∃ d p fields, (extract commentedSource).outcome = .ok (some d) ∧
    argumentStart? commentedSource d = some p ∧
    (∀ c ∈ slice commentedSource d.start p, c ≠ ':' ∧ c ≠ '<') ∧ FindsArgument d p ∧
    (read (slice commentedSource p d.stop)).outcome = .ok fields ∧
    (read d.text).outcome = .ok fields := by
  let d : Declaration := ⟨"s", commentedSource, 0, commentedSource.length⟩
  have found : (extract commentedSource).outcome = .ok (some d) := by decide +kernel
  obtain ⟨p, start, finds, reads⟩ := read_argument found
  have start' : argumentStart? commentedSource d = some 46 := by decide +kernel
  cases start.symm.trans start'
  have plain : ∀ c ∈ slice commentedSource d.start 46, c ≠ ':' ∧ c ≠ '<' := by decide +kernel
  have isSome : (read (slice commentedSource 46 d.stop)).outcome.toOption.isSome = true := by
    decide +kernel
  obtain ⟨fields, argument⟩ := Option.isSome_iff_exists.1 isSome
  have argument := ok_of_toOption argument
  exact ⟨d, 46, fields, found, start, plain, finds plain, argument, reads (finds plain) _ argument⟩

/-- The declaration in the source is read as other fields than its argument by itself. -/
def MistakesArgument (source : Text) : Prop :=
  ∃ d p fields argument, (extract source).outcome = .ok (some d) ∧
    argumentStart? source d = some p ∧ (read d.text).outcome = .ok fields ∧
    (read (slice source p d.stop)).outcome = .ok argument ∧
    Entries.keys fields ≠ Entries.keys argument

/-- The name `Schema` stands in the annotation too, in front of an object pattern. -/
def annotatedSource : Text :=
  "const s: \x7b Schema(\x7b a \x7d: X): void \x7d = new Schema(\x7b b: String \x7d);"

theorem mistakesArgument_annotated : MistakesArgument annotatedSource := by
  have keys : (read annotatedSource).outcome.toOption.map Entries.keys = some [("a" : Text)] ∧
      (read (slice annotatedSource 49 64)).outcome.toOption.map Entries.keys =
        some [("b" : Text)] := by
    decide +kernel
  simp only [Option.map_eq_some_iff] at keys
  obtain ⟨⟨fields, reads, keys⟩, argument, reads', keys'⟩ := keys
  refine ⟨⟨"s", annotatedSource, 0, annotatedSource.length⟩, 49, fields, argument,
    by decide +kernel, by decide +kernel, ok_of_toOption reads, ?_, ?_⟩
  · exact ok_of_toOption reads'
  · rw [keys, keys']
    decide

end Declaration

end SchemaTypings
