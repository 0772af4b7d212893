import SchemaTypings.Proofs.Declaring
import SchemaTypings.Proofs.DividingTexts
import SchemaTypings.Proofs.Extraction

/-!
Regular expressions in validators. A slash behind the word `return` is read as a division, so that
what was written as a regular expression is read as the tokens of an expression. A schema with such
a validator is found exactly if these tokens fit between the brackets of the function.
-/

namespace SchemaTypings

open Declaration

/-! ### The brackets that are open -/

/-- The brackets that are open behind the tokens, the innermost first, if `open_` are in front of
them: every bracket must be closed by its kind, and the outermost one not at all. -/
def openBehind? (open_ : List Bracket) : List Token → Option (List Bracket)
  | [] => some open_
  | t :: ts =>
    match t.kind with
    | .eof => none
    | .opens b => openBehind? (b :: open_) ts
    | .closes b =>
      match open_ with
      | o :: next :: outer => if o = b then openBehind? (next :: outer) ts else none
      | _ => none
    | _ => openBehind? open_ ts

section

variable {open_ : List Bracket} {b : Bracket} {t : Token} {ts us : List Token}

theorem openBehind?_eof (h : t.kind = .eof) : openBehind? open_ (t :: ts) = none := by
  rw [openBehind?, h]

theorem openBehind?_opens (h : t.kind = .opens b) :
    openBehind? open_ (t :: ts) = openBehind? (b :: open_) ts := by
  rw [openBehind?, h]

theorem openBehind?_closes (h : t.kind = .closes b) (next : Bracket) (outer : List Bracket) :
    openBehind? (b :: next :: outer) (t :: ts) = openBehind? (next :: outer) ts := by
  rw [openBehind?, h]
  exact if_pos rfl

theorem openBehind?_plain (h : t.IsPlain) : openBehind? open_ (t :: ts) = openBehind? open_ ts := by
  obtain ⟨eof, other⟩ := h
  rw [openBehind?]
  split
  · next no => exact absurd no eof
  · next b opens => exact absurd opens (other b).1
  · next b closes => exact absurd closes (other b).2
  · rfl

/-- A bracket that closes needs one of its kind that is open, inside another one. -/
theorem exists_of_openBehind?_closes {behind : List Bracket} (h : t.kind = .closes b)
    (some : openBehind? open_ (t :: ts) = some behind) :
    ∃ next outer, open_ = b :: next :: outer ∧ openBehind? (next :: outer) ts = behind := by
  rw [openBehind?, h] at some
  dsimp only at some
  split at some
  · next o next outer =>
    split at some
    · next same =>
      subst same
      exact ⟨next, outer, rfl, some⟩
    · cases some
  · cases some

theorem openBehind?_append :
    openBehind? open_ (ts ++ us) = (openBehind? open_ ts).bind (openBehind? · us) := by
  induction ts generalizing open_ with
  | nil => rfl
  | cons t ts ih =>
    rw [List.cons_append]
    obtain eof | ⟨b, opens⟩ | ⟨b, closes⟩ | plain := t.eof_or_bracket_or_isPlain
    · rw [openBehind?_eof eof, openBehind?_eof eof]
      rfl
    · rw [openBehind?_opens opens, openBehind?_opens opens, ih]
    · cases here : openBehind? open_ (t :: ts) with
      | some behind =>
        obtain ⟨next, outer, rfl, rest⟩ := exists_of_openBehind?_closes closes here
        rw [openBehind?_closes closes, ih, rest]
      | none =>
        cases there : openBehind? open_ (t :: (ts ++ us)) with
        | none => rfl
        | some behind =>
          obtain ⟨next, outer, rfl, rest⟩ := exists_of_openBehind?_closes closes there
          rw [openBehind?_closes closes] at here
          rw [ih, here] at rest
          cases rest
    · rw [openBehind?_plain plain, openBehind?_plain plain, ih]

/-- Where the tokens stand does not matter. -/
theorem openBehind?_later (n : Nat) :
    openBehind? open_ (ts.map (·.later n)) = openBehind? open_ ts := by
  induction ts generalizing open_ with
  | nil => rfl
  | cons t ts ih =>
    rw [List.map_cons, openBehind?, openBehind?, Token.kind_later]
    simp only [ih]

end

namespace Declaration

section

variable {error? : Option LexError} {b : Bracket} {stack behind : List Bracket} {ts : List Token}

/-- The walk passes over tokens behind which brackets are open. -/
theorem walkCall_append (h : openBehind? (b :: stack) ts = some behind) (rest : List Token) :
    walkCall error? (b :: stack) true (ts ++ rest) = walkCall error? behind true rest := by
  induction ts generalizing b stack with
  | nil =>
    cases h
    rfl
  | cons t ts ih =>
    rw [List.cons_append]
    obtain eof | ⟨b', opens⟩ | ⟨b', closes⟩ | plain := t.eof_or_bracket_or_isPlain
    · rw [openBehind?_eof eof] at h
      cases h
    · rw [openBehind?_opens opens] at h
      rw [walkCall_opens opens, ih h]
    · obtain ⟨next, outer, eq, rest⟩ := exists_of_openBehind?_closes closes h
      obtain ⟨rfl, rfl⟩ := List.cons.inj eq
      rw [walkCall_closes closes, if_neg (not_not_intro rfl), if_neg (by simp), ih rest]
    · rw [openBehind?_plain plain] at h
      rw [walkCall_plain plain, ih h]

/-- A walk inside a call ends at the bracket that closes the last one that is open. -/
theorem walkCall_closed_iff {stop : Nat} :
    walkCall error? (b :: stack) true ts = .closed stop ↔
      ∃ front r rest last, ts = front ++ r :: rest ∧
        openBehind? (b :: stack) front = some [last] ∧ r.kind = .closes last ∧ r.stop = stop := by
  constructor
  · intro h
    induction ts generalizing b stack with
    | nil => cases error? <;> simp [walkCall] at h
    | cons t ts ih =>
      obtain eof | ⟨b', opens⟩ | ⟨b', closes⟩ | plain := t.eof_or_bracket_or_isPlain
      · rw [walkCall, if_pos eof] at h
        cases h
      · rw [walkCall_opens opens] at h
        obtain ⟨front, r, rest, last, rfl, behind, closes, stop⟩ := ih h
        exact ⟨t :: front, r, rest, last, rfl, (openBehind?_opens opens).trans behind, closes, stop⟩
      · rw [walkCall_closes closes] at h
        split at h
        · cases h
        next same =>
        rw [Decidable.not_not] at same
        subst same
        cases stack with
        | nil => exact ⟨[], t, ts, b, rfl, rfl, closes, by simpa using h⟩
        | cons next outer =>
          obtain ⟨front, r, rest, last, rfl, behind, closes', stop⟩ := ih h
          exact ⟨t :: front, r, rest, last, rfl,
            (openBehind?_closes closes next outer).trans behind, closes', stop⟩
      · rw [walkCall_plain plain] at h
        obtain ⟨front, r, rest, last, rfl, behind, closes, stop⟩ := ih h
        exact ⟨t :: front, r, rest, last, rfl, (openBehind?_plain plain).trans behind, closes, stop⟩
  · rintro ⟨front, r, rest, last, rfl, behind, closes, rfl⟩
    rw [walkCall_append behind, walkCall_closes closes]
    simp

end

end Declaration

namespace Declaration

/-! ### Declarations with any argument -/

/-- A declaration is the whole source exactly if the bracket in front of the semicolon closes the
call. -/
theorem extract_ofArgument_iff (argument : Text) :
    (extract (ofArgument argument)).outcome =
        .ok (some ⟨"s", ofArgument argument, 0, (ofArgument argument).length⟩) ↔
      walkCall (lex true 0 ("(" ++ (argument ++ ");"))).error? [] false
        (lex true 0 ("(" ++ (argument ++ ");"))).tokens = .closed (argument.length + 2) := by
  have shape : ("(" : Text) ++ (argument ++ ");") = ("(" ++ (argument ++ ")")) ++ ";" := by
    simp [Text.ofString]
  have size : (("(" : Text) ++ (argument ++ ")")).length = argument.length + 2 := by
    simp [Text.ofString]
  have skip : skipArguments? ("(" ++ (argument ++ ");")) = some ("(" ++ (argument ++ ");")) := rfl
  constructor
  · intro found
    obtain ⟨call, ending, skip', ⟨within⟩, isEnding⟩ :=
      exists_call_of_extract found (read?_ofArgument argument)
    have split : ("(" : Text) ++ (argument ++ ");") = call ++ ending :=
      Option.some.inj (skip.symm.trans skip')
    have within : CallBefore (ending ++ []) call := by rwa [List.append_nil]
    obtain ⟨more, lexed, -⟩ := within.lex_cut isEnding 0
    have last : (("(" : Text) ++ (argument ++ ")")).getLast? = some (')' : CodePoint) := by
      rw [← List.append_assoc]
      exact List.getLast?_concat
    have ends := eq_of_append_ending isEnding within.getLast?_eq (split.symm.trans shape) last
    rw [split, lexed, ← size, ← ends]
    refine (walkCall_eq_closed_iff ?_).2 ⟨_, _, _, _, rfl,
      within.isCall.of_kinds rfl (by simp) rfl, ?_⟩
    · exact within.isCall.opened
    · rw [Token.stop_later, within.stop, Nat.add_zero]
  · intro walk
    obtain ⟨opening, isOpening, source⟩ := opening_iff.1 ⟨_, read?_ofArgument argument, skip⟩
    obtain ⟨call, behind, split, within, stop⟩ := exists_call_of_walkCall walk
    have split : (("(" : Text) ++ (argument ++ ")")) ++ ";" = call ++ behind :=
      shape.symm.trans split
    obtain ⟨rfl, rfl⟩ := List.append_inj split (by omega)
    obtain ⟨within⟩ := within
    have isEnding : IsEnding (([] : Text) ++ ";") := .semicolon (by simp)
    have within : CallBefore (([] ++ (";" : Text)) ++ []) ("(" ++ (argument ++ ")")) := within
    have found := extract_append isOpening within isEnding
    have whole : opening ++ ((("(" : Text) ++ (argument ++ ")")) ++ (([] : Text) ++ ";")) =
        ofArgument argument := by
      rw [source, List.nil_append, ← shape]
      rfl
    rwa [whole] at found

/-! ### Validators -/

/-- The source of a schema with a validator that tests a value with `r`. -/
def validated (r : Text) : Text :=
  ofArgument ("\x7b f: \x7b type: String, validate: function (v) \x7b return " ++
    (r ++ ".test(v); \x7d \x7d \x7d"))

/-- What stands between the bracket of the call and the expression that is returned. -/
def validatorHead : Text := "(\x7b f: \x7b type: String, validate: function (v) \x7b return "

/-- The brackets that are open there. -/
def validatorStack : List Bracket := [.curly, .curly, .curly, .round]

theorem lexes_word {name : Text} (isName : name.isName = true) :
    Lexes (name ++ " ") [⟨.name, name, 0, name.length⟩] fun _ => True :=
  (Lexes.nameEnd isName).append (.blank (c := ' ') (by decide)) fun _ _ =>
    Text.endsName_cons (by decide)

theorem lexes_key {name : Text} (isName : name.isName = true) :
    Lexes (name ++ ": ") [⟨.name, name, 0, name.length⟩,
      ⟨.colon, ":", name.length, name.length + 1⟩] fun _ => True := by
  have colon : Lexes ": " [⟨.colon, ":", 0, 1⟩] fun _ => True :=
    (Lexes.mark (c := ':') rfl).append (.blank (c := ' ') (by decide)) fun _ _ => trivial
  have both := (Lexes.nameEnd isName).append colon fun _ _ => Text.endsName_cons (by decide)
  simpa [Token.later, Nat.add_comm] using both

/-- Behind the head, a slash is a division. -/
theorem exists_lex_validatorHead (s : Text) : ∃ ts : List Token,
    lex true 0 (validatorHead ++ s) = (lex false validatorHead.length s).behind ts ∧
      ∀ (error? : Option LexError) (rest : List Token), walkCall error? [] false (ts ++ rest) =
        walkCall error? validatorStack true rest := by
  have next {a b : Text} {ts us : List Token} (h : Lexes a ts fun _ => True)
      (h' : Lexes b us fun _ => True) :
      Lexes (a ++ b) (ts ++ us.map (·.later a.length)) fun _ => True :=
    h.append h' fun _ _ => trivial
  have blank : Lexes " " [] fun _ => True := .blank (c := ' ') (by decide)
  have paren : Lexes "(" _ fun _ => True := .mark (c := '(') rfl
  have curly : Lexes (("\x7b" : Text) ++ " ") _ fun _ => True :=
    next (.mark (c := '\x7b') rfl) blank
  have comma : Lexes (("," : Text) ++ " ") _ fun _ => True := next (.mark (c := ',') rfl) blank
  have close : Lexes ((")" : Text) ++ " ") _ fun _ => True := next (.mark (c := ')') rfl) blank
  have type : Lexes (("String" : Text) ++ ", ") _ fun _ => True :=
    (Lexes.nameEnd (by decide)).append comma fun _ _ => Text.endsName_cons (by decide)
  have parameter : Lexes (("v" : Text) ++ ") ") _ fun _ => True :=
    (Lexes.nameEnd (by decide)).append close fun _ _ => Text.endsName_cons (by decide)
  have field : Lexes (("f" : Text) ++ ": ") _ fun _ => True := lexes_key (by decide)
  have option : Lexes (("type" : Text) ++ ": ") _ fun _ => True := lexes_key (by decide)
  have validate : Lexes (("validate" : Text) ++ ": ") _ fun _ => True := lexes_key (by decide)
  have function : Lexes (("function" : Text) ++ " ") _ fun _ => True := lexes_word (by decide)
  have word : Lexes (("return" : Text) ++ " ") _ fun _ => True := lexes_word (by decide)
  have all := next paren (next curly (next field (next curly (next option (next type
    (next validate (next function (next paren (next parameter (next curly word))))))))))
  have read := all true 0 s trivial
  rw [Nat.zero_add] at read
  exact ⟨_, read, fun _ _ => rfl⟩

/-- What stands between the expression and the bracket that closes the call, and that bracket with
the semicolon. -/
def validatorTail : Text := " \x7d \x7d \x7d"

theorem divides_validatorTail : validatorTail.Divides where
  starts := ⟨' ', _, rfl, by decide⟩
  apart := by decide

/-- The tokens of the tail. -/
def tailTokens : List Token :=
  [⟨.closes .curly, "\x7d", 1, 2⟩, ⟨.closes .curly, "\x7d", 3, 4⟩, ⟨.closes .curly, "\x7d", 5, 6⟩]

theorem lex_validatorTail (r : Bool) : lex r 0 (validatorTail ++ ");") =
    (lex false 6 ");").behind tailTokens := by
  cases r <;> decide +kernel

theorem tokens_of_validatorTail {r : Bool} {ts : List Token}
    (h : LexesBefore ");" r validatorTail ts) : ts = tailTokens := by
  have close (r : Bool) : lex r 6 ");" = lex false 6 ");" := by cases r <;> decide +kernel
  refine h.eq_of_lex ((lex_validatorTail r).trans ?_)
  rw [show validatorTail.length = 6 from rfl, close (slashAfter r ts)]

/-- Behind the tail only the call is open exactly if the head was in front of it. -/
theorem openBehind?_tailTokens {stack : List Bracket} :
    openBehind? stack tailTokens = some [.round] ↔ stack = validatorStack := by
  constructor
  · intro h
    obtain ⟨b, outer, first, h⟩ := exists_of_openBehind?_closes rfl h
    obtain ⟨b', outer', second, h⟩ := exists_of_openBehind?_closes rfl h
    obtain ⟨b'', outer'', third, h⟩ := exists_of_openBehind?_closes rfl h
    rw [first, second, third, Option.some.inj h]
    rfl
  · rintro rfl
    rfl

/-- The walk over what a validator returns, and over the tail, ends with the tail's last bracket
exactly if no other bracket is open in front of the tail than those of the head. -/
theorem walkCall_validator_iff (s : Text) (n : Nat) :
    walkCall (lex false n (s ++ (validatorTail ++ ");"))).error? validatorStack true
        (lex false n (s ++ (validatorTail ++ ");"))).tokens = .closed (n + s.length + 7) ↔
      ∃ ts, LexesBefore (validatorTail ++ ");") false s ts ∧
        openBehind? validatorStack ts = some validatorStack := by
  have some : (");" : Text) ≠ [] := List.cons_ne_nil _ _
  constructor
  · intro walk
    obtain ⟨front, t, rest, last, tokens, behind, closes, stop⟩ := walkCall_closed_iff.1 walk
    obtain ⟨before, c, more, us, w, split, pos, rfl, lexed, read, stop', -⟩ :=
      exists_before_of_lex tokens (by simp [closes])
    rw [closes] at read
    obtain ⟨mark, rfl⟩ := Lexeme.mark_of_read read (.inr rfl)
    have size : (s ++ validatorTail).length = before.length := by
      rw [List.length_append, show validatorTail.length = 6 from rfl]
      omega
    rw [← List.append_assoc] at split
    obtain ⟨rfl, close⟩ := List.append_inj split size
    obtain ⟨rfl, rfl⟩ := List.cons.inj close
    cases mark
    obtain ⟨ts, vs, rfl, inside, tail⟩ := LexesBefore.exists_split divides_validatorTail some lexed
    rw [openBehind?_later, openBehind?_append, tokens_of_validatorTail tail,
      Option.bind_eq_some_iff] at behind
    obtain ⟨stack, here, there⟩ := behind
    rw [openBehind?_later, openBehind?_tailTokens] at there
    subst there
    exact ⟨ts, inside, here⟩
  · rintro ⟨ts, lexed, behind⟩
    have close : (lex false 6 ");").tokens =
        [⟨.closes .round, ")", 6, 7⟩, ⟨.semicolon, ";", 7, 8⟩, Token.eof 8] := by decide +kernel
    have place : n + s.length + 7 = 7 + (n + s.length) := Nat.add_comm ..
    rw [← openBehind?_later n] at behind
    rw [lexed.lex_eq n, Lexed.error?_behind, Lexed.tokens_behind, validatorStack,
      walkCall_append behind, ← Nat.zero_add (n + s.length), lex_later, lex_validatorTail,
      Lexed.tokens_behind, close, Nat.zero_add, place]
    rfl

/-- A declaration with a validator is the whole source exactly if what the validator returns is
read, with a slash at its start as a division, as tokens that end where it ends, and that leave the
brackets open which were open in front of it. -/
theorem extract_validated_iff (r : Text) :
    (extract (validated r)).outcome =
        .ok (some ⟨"s", validated r, 0, (validated r).length⟩) ↔
      ∃ ts, LexesBefore " \x7d \x7d \x7d);" false (r ++ ".test(v);") ts ∧
        openBehind? [.curly, .curly, .curly, .round] ts =
          some [.curly, .curly, .curly, .round] := by
  let head : Text := "\x7b f: \x7b type: String, validate: function (v) \x7b return "
  have shape : ("(" : Text) ++ ((head ++ (r ++ ".test(v); \x7d \x7d \x7d")) ++ ");") =
      validatorHead ++ ((r ++ ".test(v);") ++ (validatorTail ++ ");")) := by
    simp [head, validatorHead, validatorTail, Text.ofString]
  have size : (head ++ (r ++ ".test(v); \x7d \x7d \x7d")).length + 2 =
      validatorHead.length + (r ++ ".test(v);").length + 7 := by
    simp [head, validatorHead, Text.ofString]
    omega
  obtain ⟨ts, lexed, walk⟩ :=
    exists_lex_validatorHead ((r ++ ".test(v);") ++ (validatorTail ++ ");"))
  refine (extract_ofArgument_iff _).trans ?_
  rw [shape, size, lexed, Lexed.error?_behind, Lexed.tokens_behind, walk]
  exact walkCall_validator_iff (r ++ ".test(v);") validatorHead.length

/-- The text is one regular expression, where a slash starts one, and no comment. -/
def IsRegex (r : Text) : Prop :=
  ∃ body, r = ('/' : CodePoint) :: body ∧
    Lexeme.read true '/' body = .ok (.token .regex r r.length)

/-- A regular expression that is read as a division of names by each other. -/
theorem extract_validated_iff_name : IsRegex "/a/" ∧ (extract (validated "/a/")).outcome =
    .ok (some ⟨"s", validated "/a/", 0, (validated "/a/").length⟩) := by
  have regex : IsRegex "/a/" := ⟨"a/", rfl, by decide +kernel⟩
  have tokens : ∃ ts, LexesBefore " \x7d \x7d \x7d);" false (("/a/" : Text) ++ ".test(v);") ts ∧
      openBehind? [.curly, .curly, .curly, .round] ts =
        some [.curly, .curly, .curly, .round] := by
    refine ⟨_, .token rfl (by decide) (.token rfl (by decide) (.token rfl (by decide)
      (.token rfl (by decide) (.token rfl (by decide) (.token rfl (by decide)
        (.token rfl (by decide) (.token rfl (by decide) (.token rfl (by decide)
          (.nil _))))))))), rfl⟩
  exact ⟨regex, (extract_validated_iff "/a/").2 tokens⟩

/-- The last slash is read as the start of a regular expression that has no end. -/
theorem not_extract_validated_repeated : IsRegex "/\\S+@\\S+/" ∧
    (extract (validated "/\\S+@\\S+/")).outcome = .ok none :=
  ⟨⟨"\\S+@\\S+/", rfl, by decide +kernel⟩, by decide +kernel⟩

end Declaration

end SchemaTypings
