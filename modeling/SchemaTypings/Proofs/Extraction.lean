import SchemaTypings.Proofs.Brackets
import SchemaTypings.Proofs.Cutting
import SchemaTypings.Proofs.Declaring
import SchemaTypings.Proofs.Headers

/-!
The span of a declaration. A declaration that is found in a source is an opening, a call and perhaps
a semicolon, and its text by itself holds the same declaration: neither what stands in front of the
opening nor what stands behind the ending has a part in it.
-/

namespace SchemaTypings

namespace Declaration

/-! ### Semicolons -/

/-- What a declaration ends with behind its call: nothing, or a semicolon behind spaces. -/
inductive IsEnding : Text → Prop
  | none : IsEnding []
  | semicolon {gap : Text} (spaces : ∀ c ∈ gap, c = ' ' ∨ c = '\t') : IsEnding (gap ++ ";")

theorem lexesBefore_ending {ending : Text} (h : IsEnding ending) (x : Text) (r : Bool) :
    ∃ ts, LexesBefore x r ending ts ∧ ∀ t ∈ ts, t.kind = .semicolon := by
  cases h with
  | none => exact ⟨[], .nil r, by simp⟩
  | @semicolon gap spaces =>
    induction gap with
    | nil => exact ⟨_, .single (Lexeme.read_mark (c := ';') rfl r x) rfl, by simp⟩
    | cons c gap ih =>
      rw [List.forall_mem_cons] at spaces
      obtain ⟨ts, rest, kinds⟩ := ih spaces.2
      have blank : c.isBlank = true := by
        rcases spaces.1 with rfl | rfl <;> decide
      refine ⟨_, .skip (w := 1) ?_ (Nat.le_add_left 1 _) rest, by simpa using kinds⟩
      rw [Lexeme.read, if_pos blank]

/-- A semicolon on the line of the call belongs to the declaration. -/
theorem withSemicolon_append {gap : Text} (spaces : ∀ c ∈ gap, c = ' ' ∨ c = '\t')
    (before rest : Text) :
    withSemicolon (before ++ (gap ++ ";" ++ rest)) before.length =
      before.length + (gap ++ (";" : Text)).length := by
  have run : (gap ++ ";" ++ rest).takeWhile (fun c : CodePoint => c = ' ' || c = '\t') = gap := by
    rw [List.append_assoc]
    refine Text.takeWhile_stops (List.all_eq_true.2 fun c mem => ?_) ?_
    · simpa using spaces c mem
    · rintro _ ⟨⟩
      rfl
  have semicolon : (";" ++ rest).head? = some (';' : CodePoint) := rfl
  simp only [withSemicolon, List.drop_left, run]
  rw [List.append_assoc, List.drop_left, if_pos semicolon, List.length_append]
  rfl

theorem withSemicolon_end (before : Text) : withSemicolon before before.length = before.length := by
  simp [withSemicolon]

/-- Behind a call stands an ending, up to which the declaration goes. -/
theorem exists_ending (before behind : Text) :
    ∃ ending rest, behind = ending ++ rest ∧ IsEnding ending ∧
      withSemicolon (before ++ behind) before.length = before.length + ending.length := by
  obtain ⟨gap, rest, rfl, run, spaces⟩ :=
    Text.exists_takeWhile (fun c : CodePoint => c = ' ' || c = '\t') behind
  simp only [Bool.or_eq_true, decide_eq_true_eq] at spaces
  by_cases semicolon : rest.head? = some (';' : CodePoint)
  · obtain ⟨rest, rfl⟩ := List.head?_eq_some_iff.1 semicolon
    have whole : gap ++ (';' : CodePoint) :: rest = gap ++ ";" ++ rest := List.append_cons ..
    rw [whole]
    exact ⟨_, rest, rfl, .semicolon spaces, withSemicolon_append spaces before rest⟩
  · refine ⟨[], gap ++ rest, rfl, .none, ?_⟩
    simp only [withSemicolon, List.drop_left, run, if_neg semicolon]
    rfl

/-! ### Calls -/

/-- In front of the text `x`, the text `call` is a call with an object literal. -/
structure CallBefore (x call : Text) where
  l : Token
  inner : List Token
  r : Token
  lexed : LexesBefore x true call (l :: (inner ++ [r]))
  isCall : IsCall l inner r
  starts : call.head? = some ('(' : CodePoint)
  stop : r.stop = call.length

/-- A call that the walk closes is a part of the text. -/
theorem exists_call_of_walkCall {p stop : Nat} {s : Text}
    (h : walkCall (lex true p (('(' : CodePoint) :: s)).error? [] false
      (lex true p (('(' : CodePoint) :: s)).tokens = .closed stop) :
    ∃ call behind, ('(' : CodePoint) :: s = call ++ behind ∧ Nonempty (CallBefore behind call) ∧
      stop = p + call.length := by
  have round : (Token.first (lex true p (('(' : CodePoint) :: s)).tokens).kind = .opens .round := by
    rw [lex_token (Lexeme.read_mark (c := '(') rfl true s)]
    rfl
  obtain ⟨l, inner, r, rest, tokens, call, rfl⟩ := (walkCall_eq_closed_iff round).1 h
  rw [← List.cons_append] at tokens
  obtain ⟨front, c, x, us, w, split, pos, lexed, before, read, stop, -⟩ :=
    exists_before_of_lex tokens (by simp [call.closed])
  rw [call.closed] at read
  obtain ⟨-, rfl⟩ := Lexeme.mark_of_read read (.inr rfl)
  obtain ⟨l', inner', rfl, rfl, rfl⟩ := List.map_eq_cons_iff.1 lexed.symm
  have last : LexesBefore x (slashAfter true (l' :: inner')) [c] [⟨.closes .round, r.value, 0, 1⟩] :=
    .single read rfl
  have before : LexesBefore ([c] ++ x) true front (l' :: inner') := before
  have whole := before.append last
  have split : ('(' : CodePoint) :: s = (front ++ [c]) ++ x := by rw [split, List.append_cons]
  refine ⟨front ++ [c], x, split, ⟨l', inner', _, whole, ?_, ?_, ?_⟩, ?_⟩
  · exact call.of_kinds rfl (by simp [Function.comp_def]) call.closed.symm
  · cases front with
    | nil =>
      obtain ⟨rfl, -⟩ := List.cons.inj split
      rfl
    | cons d front =>
      obtain ⟨rfl, -⟩ := List.cons.inj split
      rfl
  · simp [Nat.add_comm]
  · rw [stop, pos, List.length_append, List.length_singleton, Nat.add_assoc]

/-- The tokens of the call, wherever it is cut off behind an ending. -/
theorem CallBefore.lex_cut {x call ending : Text} (c : CallBefore (ending ++ x) call)
    (isEnding : IsEnding ending) (p : Nat) :
    ∃ more, lex true p (call ++ ending) =
        ⟨c.l.later p :: (c.inner.map (·.later p) ++ c.r.later p :: more), none⟩ ∧
      ∀ t ∈ more, t.kind = .semicolon ∨ t.kind = .eof := by
  obtain ⟨ts, lexed, kinds⟩ :=
    lexesBefore_ending isEnding x (slashAfter true (c.l :: (c.inner ++ [c.r])))
  have cut := (c.lexed.append lexed).replace (.nil x)
  have read := cut.lex_eq p
  rw [List.append_nil, lex_nil] at read
  refine ⟨(ts.map (·.later call.length)).map (·.later p) ++
    [Token.eof (p + (call ++ ending).length)], ?_, fun t mem => ?_⟩
  · rw [read]
    simp [Lexed.behind]
  · rcases List.mem_append.1 mem with mem | mem
    · rw [Token.map_later_later] at mem
      obtain ⟨u, mem', rfl⟩ := List.mem_map.1 mem
      exact .inl (kinds u mem')
    · rw [List.mem_singleton.1 mem]
      exact .inr rfl

/-- The tokens of the call by itself. -/
theorem CallBefore.tokenize_eq {x call : Text} (c : CallBefore x call) :
    tokenize call = .ok (c.l :: (c.inner ++ [c.r, Token.eof call.length])) := by
  have read := (c.lexed.replace (.nil x)).lex_eq 0
  rw [List.append_nil] at read
  rw [tokenize, read]
  simp [Lexed.behind]

/-- A call ends with the bracket that closes it. -/
theorem CallBefore.getLast?_eq {x call : Text} (c : CallBefore x call) :
    call.getLast? = some (')' : CodePoint) := by
  have round : ∀ m ∈ Lexeme.marks, m.2 = .closes .round → m.1 = ')' := by decide
  have read := congrArg Lexed.tokens (c.lexed.lex_eq 0)
  rw [Lexed.tokens_behind, List.map_congr_left fun t _ => Token.later_zero t, List.map_id',
    ← List.cons_append, List.append_assoc, List.singleton_append] at read
  obtain ⟨s, d, rest, us, w, split, place, -, -, first, stop, -⟩ :=
    exists_before_of_lex read (by simp [c.isCall.closed])
  rw [c.isCall.closed] at first
  obtain ⟨mark, rfl⟩ := Lexeme.mark_of_read first (.inr rfl)
  obtain rfl : d = ')' := round _ (Lexeme.mem_marks_of_mark? mark) rfl
  have size : call.length = (s ++ [(')' : CodePoint)]).length := by
    rw [← c.stop, stop, place, List.length_append, Nat.zero_add]
    rfl
  rw [List.append_cons] at split
  rw [(List.append_inj split size).1, List.getLast?_concat]

/-- Of two texts that end with a bracket, one with an ending behind it and one with a semicolon, the
brackets are the same. -/
theorem eq_of_append_ending {call call' ending : Text} (isEnding : IsEnding ending)
    (last : call.getLast? = some (')' : CodePoint)) (eq : call ++ ending = call' ++ ";")
    (last' : call'.getLast? = some (')' : CodePoint)) : call = call' := by
  have ends := congrArg List.getLast? eq
  cases isEnding with
  | none =>
    rw [List.append_nil, last] at ends
    simp [Text.ofString] at ends
  | @semicolon gap spaces =>
    rw [← List.append_assoc] at eq
    have eq := List.append_cancel_right eq
    rcases List.eq_nil_or_concat gap with rfl | ⟨front, c, rfl⟩
    · rwa [List.append_nil] at eq
    · rw [← eq, List.concat_eq_append, ← List.append_assoc, List.getLast?_concat] at last'
      cases last'
      have space := spaces ')' (by simp)
      exact absurd space (by decide)

theorem lexFrom_append (front s : Text) :
    lexFrom (front ++ s) front.length = lex true front.length s := by
  rw [lexFrom, List.drop_left, Nat.min_eq_left (by simp)]

/-- A call ends in the text behind it, with the ending there. -/
theorem callEnd?_append {front s : Text} {stop : Nat}
    (h : (callEnd? (front ++ ('(' : CodePoint) :: s) front.length).outcome = .ok (some stop)) :
    ∃ call ending behind, ('(' : CodePoint) :: s = call ++ (ending ++ behind) ∧
      Nonempty (CallBefore (ending ++ behind) call) ∧ IsEnding ending ∧
      stop = front.length + (call ++ ending).length := by
  rw [callEnd?, lexFrom_append] at h
  split at h
  · next close walk =>
    have eq : withSemicolon (front ++ ('(' : CodePoint) :: s) close = stop :=
      Option.some.inj (Except.ok.inj h)
    obtain ⟨call, rest, split, isCall, rfl⟩ := exists_call_of_walkCall walk
    obtain ⟨ending, behind, rfl, isEnding, semicolon⟩ := exists_ending (front ++ call) rest
    refine ⟨call, ending, behind, split, isCall, isEnding, ?_⟩
    rw [split, ← List.append_assoc, ← List.length_append, semicolon, List.length_append] at eq
    rw [← eq, List.length_append, Nat.add_assoc]
  · cases h
  · split at h <;> cases h

/-! ### The parts of a source -/

/-- The parts of a source with the declaration `d` in it. -/
structure Parts (source : Text) (d : Declaration) where
  front : Text
  opening : Text
  call : Text
  ending : Text
  behind : Text
  whole : source = front ++ (opening ++ (call ++ (ending ++ behind)))
  apart : front.getLast?.any CodePoint.isWord = false
  isOpening : IsOpening d.name opening
  within : CallBefore (ending ++ behind) call
  isEnding : IsEnding ending
  text : d.text = opening ++ (call ++ ending)
  start : d.start = front.length
  stop : d.stop = front.length + d.text.length

section

variable {source : Text} {d : Declaration}

theorem Parts.length_source (parts : Parts source d) :
    source.length = parts.front.length + (d.text.length + parts.behind.length) := by
  rw [parts.text]
  refine (congrArg List.length parts.whole).trans ?_
  simp only [List.length_append]
  omega

theorem Parts.text_eq_slice (parts : Parts source d) : d.text = slice source d.start d.stop := by
  have behind : source.drop parts.front.length = d.text ++ parts.behind := by
    refine (congrArg (List.drop parts.front.length) parts.whole).trans ?_
    rw [List.drop_left, parts.text]
    simp only [List.append_assoc]
  rw [slice, parts.start, parts.stop, Nat.add_sub_cancel_left, behind, List.take_left]

/-- A search that finds a declaration finds it at a header that is apart from the word before. -/
theorem exists_header_of_search {inWord : Bool} {front rest : Text}
    (h : (search source inWord rest).outcome = .ok (some d)) (whole : source = front ++ rest)
    (word : inWord = front.getLast?.any CodePoint.isWord) :
    ∃ front back name after, source = front ++ back ∧
      front.getLast?.any CodePoint.isWord = false ∧ Header.read? back = some (name, after) ∧
      (ofHeader? source front.length name after).outcome = .ok (some d) := by
  fun_induction search source inWord rest generalizing front
  case case1 => cases h
  case case2 c tail other ih =>
    rw [List.append_cons] at whole
    refine ih h whole ?_
    simp
  case case3 c tail name after found ih =>
    split at found
    · cases found
    next start =>
    have apart : front.getLast?.any CodePoint.isWord = false := by
      rw [← word]
      exact Bool.eq_false_iff.2 start
    have place : source.length - (c :: tail).length = front.length := by
      rw [whole, List.length_append, Nat.add_sub_cancel]
    rw [Logged.outcome_bind, place] at h
    cases header : (ofHeader? source front.length name after).outcome with
    | error e =>
      rw [header] at h
      cases h
    | ok here =>
      rw [header, ok_bind] at h
      cases here with
      | some d' =>
        cases h
        exact ⟨front, c :: tail, name, after, whole, apart, found, header⟩
      | none =>
        -- The search goes on behind a header that is not empty.
        obtain ⟨text, isHeader, split, -⟩ := Header.exists_of_read? found
        have width : (c :: tail).length - after.length = text.length := by
          rw [split, List.length_append, Nat.add_sub_cancel]
        have some : 1 ≤ text.length := isHeader.length_pos
        have behind : tail.drop (text.length - 1) = after := by
          have drop : (c :: tail).drop text.length = after := by rw [split, List.drop_left]
          obtain ⟨n, size⟩ := Nat.exists_eq_add_of_le' some
          rw [size] at drop ⊢
          exact drop
        have last : (c :: tail).take text.length = text := by rw [split, List.take_left]
        dsimp only at h ih
        rw [width, behind, last] at h ih
        have whole : source = (front ++ text) ++ after := by rw [whole, split, List.append_assoc]
        refine ih h whole ?_
        · have none : text ≠ [] := List.length_pos_iff.1 some
          rw [List.getLast?_append_of_ne_nil _ none]

/-- A declaration that is extracted is one part of the source, between others. -/
theorem exists_parts (h : (extract source).outcome = .ok (some d)) : Nonempty (Parts source d) := by
  obtain ⟨front, back, name, after, rfl, apart, read, found⟩ :=
    exists_header_of_search h (List.nil_append source).symm rfl
  rw [ofHeader?] at found
  split at found
  · cases found
  next rest skip =>
  split at found
  · cases found
  next paren =>
  rw [Decidable.not_not] at paren
  obtain ⟨rest, rfl⟩ := List.head?_eq_some_iff.1 paren
  obtain ⟨opening, isOpening, rfl⟩ := opening_iff.1 ⟨after, read, skip⟩
  rw [← List.append_assoc, List.length_append, Nat.add_sub_cancel, Logged.outcome_bind] at found
  cases stop : (callEnd? ((front ++ opening) ++ ('(' : CodePoint) :: rest)
      (front ++ opening).length).outcome with
  | error e =>
    rw [stop] at found
    cases found
  | ok stop? =>
    rw [stop, ok_bind] at found
    cases stop? with
    | none => simp at found
    | some n =>
      obtain ⟨call, ending, behind, split, ⟨within⟩, isEnding, rfl⟩ := callEnd?_append stop
      cases found
      have text : ((front ++ opening ++ (call ++ (ending ++ behind))).drop front.length).take
          ((front ++ opening).length + (call ++ ending).length - front.length) =
            opening ++ (call ++ ending) := by
        have size : (front ++ opening).length + (call ++ ending).length - front.length =
            (opening ++ (call ++ ending)).length := by
          simp only [List.length_append]
          omega
        rw [size, List.append_assoc, List.drop_left, ← List.append_assoc, ← List.append_assoc,
          ← List.append_assoc, List.take_left]
      refine ⟨front, opening, call, ending, behind, ?_, apart, isOpening, within, isEnding, ?_,
        rfl, ?_⟩
      · rw [split]
      · rw [split]
        exact text
      · dsimp only
        rw [split, text]
        simp only [List.length_append, Nat.add_assoc]

/-- Behind the header of a declaration that is the whole source stand its arguments, a call and an
ending. -/
theorem exists_call_of_extract {name name' after : Text}
    (found : (extract source).outcome = .ok (some ⟨name, source, 0, source.length⟩))
    (read : Header.read? source = some (name', after)) :
    ∃ call ending, skipArguments? after = some (call ++ ending) ∧
      Nonempty (CallBefore ending call) ∧ IsEnding ending := by
  obtain ⟨parts⟩ := exists_parts found
  have front : parts.front = [] := List.eq_nil_of_length_eq_zero parts.start.symm
  have behind : parts.behind = [] := by
    have size := parts.length_source
    refine List.eq_nil_of_length_eq_zero ?_
    dsimp only at size
    omega
  obtain ⟨inner, starts⟩ := List.head?_eq_some_iff.1 parts.within.starts
  have split : source = parts.opening ++ ('(' : CodePoint) :: (inner ++ parts.ending) :=
    parts.whole.trans (by rw [front, behind, starts, List.append_nil]; rfl)
  obtain ⟨after', read', skip⟩ := opening_iff.2 ⟨_, parts.isOpening, split⟩
  cases read.symm.trans read'
  have within := parts.within
  rw [behind, List.append_nil] at within
  exact ⟨parts.call, parts.ending, by rw [starts]; exact skip, ⟨within⟩, parts.isEnding⟩

/-! ### The text by itself -/

/-- An opening, a call and an ending are one declaration. -/
theorem extract_append {name opening call ending x : Text} (isOpening : IsOpening name opening)
    (within : CallBefore (ending ++ x) call) (isEnding : IsEnding ending) :
    (extract (opening ++ (call ++ ending))).outcome =
      .ok (some ⟨name, opening ++ (call ++ ending), 0, (opening ++ (call ++ ending)).length⟩) := by
  have close : (callEnd? (opening ++ (call ++ ending)) opening.length).outcome =
      .ok (some (opening ++ (call ++ ending)).length) := by
    obtain ⟨more, lexed, -⟩ := within.lex_cut isEnding opening.length
    have walk : walkCall none [] false (within.l.later opening.length ::
        (within.inner.map (·.later opening.length) ++ within.r.later opening.length :: more)) =
          .closed (opening ++ call).length := by
      refine (walkCall_eq_closed_iff ?_).2 ⟨_, _, _, _, rfl, within.isCall.of_kinds rfl ?_ rfl, ?_⟩
      · exact within.isCall.opened
      · simp [Function.comp_def]
      · rw [Token.stop_later, within.stop, List.length_append, Nat.add_comm]
    have stop : withSemicolon (opening ++ (call ++ ending)) (opening ++ call).length =
        (opening ++ (call ++ ending)).length := by
      rw [← List.append_assoc]
      cases isEnding with
      | none => rw [List.append_nil, withSemicolon_end]
      | semicolon spaces =>
        have last := withSemicolon_append spaces (opening ++ call) []
        rw [List.append_nil] at last
        rw [last, ← List.length_append]
    rw [callEnd?, lexFrom_append, lexed]
    dsimp only
    rw [walk]
    exact congrArg (fun n => Except.ok (some n)) stop
  obtain ⟨rest, starts⟩ := List.head?_eq_some_iff.1 within.starts
  obtain ⟨after, read, skip⟩ : ∃ after, Header.read? (opening ++ (call ++ ending)) =
      some (name, after) ∧ skipArguments? after = some (call ++ ending) := by
    rw [starts]
    exact opening_iff.2 ⟨opening, isOpening, rfl⟩
  refine search_found read ?_
  have paren : (call ++ ending).head? = some ('(' : CodePoint) := by
    rw [starts]
    rfl
  have place : (opening ++ (call ++ ending)).length - (call ++ ending).length = opening.length := by
    rw [List.length_append, Nat.add_sub_cancel]
  rw [Nat.sub_self, ofHeader?, skip]
  dsimp only
  rw [if_neg (not_not_intro paren), place, Logged.outcome_bind, close]
  simp

end

/-- A declaration that is extracted is the part of the source that its span says, its text by itself
holds the same declaration, and the text is an opening, a call whose brackets match by kind and
close with its last token, and perhaps a semicolon. -/
theorem extract_text {source : Text} {d : Declaration}
    (h : (extract source).outcome = .ok (some d)) :
    d.stop ≤ source.length ∧ d.text = slice source d.start d.stop ∧
      (extract d.text).outcome = .ok (some ⟨d.name, d.text, 0, d.text.length⟩) ∧
      ∃ opening call ending l inner r, d.text = opening ++ (call ++ ending) ∧
        IsOpening d.name opening ∧ IsEnding ending ∧
        tokenize call = .ok (l :: (inner ++ [r, Token.eof call.length])) ∧ IsCall l inner r ∧
        r.stop = call.length ∧
        ∀ us vs, l :: (inner ++ [r]) = us ++ vs → us ≠ [] → vs ≠ [] → 0 < Token.depth us := by
  obtain ⟨parts⟩ := exists_parts h
  have c := parts.within
  refine ⟨?_, ?_, ?_, parts.opening, parts.call, parts.ending, c.l, c.inner, c.r, parts.text,
    parts.isOpening, parts.isEnding, c.tokenize_eq, c.isCall, c.stop, fun us vs split => ?_⟩
  · rw [parts.stop, parts.length_source]
    omega
  · exact parts.text_eq_slice
  · rw [parts.text]
    exact extract_append parts.isOpening c parts.isEnding
  · exact c.isCall.within.depth_pos c.isCall.opened split

/-- A declaration between two statements, with an annotation, generic arguments and options. -/
def spannedSource : Text :=
  "var x;\nlet s: T = new mongoose.Schema<A<B>>(\x7b a: [String] \x7d, \x7b\x7d) ;\nf();"

/-- The declaration in that source. -/
def spanned : Declaration where
  name := "s"
  text := "let s: T = new mongoose.Schema<A<B>>(\x7b a: [String] \x7d, \x7b\x7d) ;"
  start := 7
  stop := 66

theorem extract_text_spanned : (extract spannedSource).outcome = .ok (some spanned) ∧
    spanned.stop ≤ spannedSource.length ∧
    spanned.text = slice spannedSource spanned.start spanned.stop ∧
    (extract spanned.text).outcome =
      .ok (some ⟨spanned.name, spanned.text, 0, spanned.text.length⟩) ∧
    ∃ opening call ending l inner r, spanned.text = opening ++ (call ++ ending) ∧
      IsOpening spanned.name opening ∧ IsEnding ending ∧
      tokenize call = .ok (l :: (inner ++ [r, Token.eof call.length])) ∧ IsCall l inner r ∧
      r.stop = call.length ∧
      ∀ us vs, l :: (inner ++ [r]) = us ++ vs → us ≠ [] → vs ≠ [] → 0 < Token.depth us := by
  have found : (extract spannedSource).outcome = .ok (some spanned) := by decide +kernel
  exact ⟨found, extract_text found⟩

end Declaration

end SchemaTypings
