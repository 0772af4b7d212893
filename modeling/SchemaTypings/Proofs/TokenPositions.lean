import SchemaTypings.Proofs.Indexing

/-!
Reading by positions and reading the tokens that are left. Where the last token marks the end, the
searches of both, and what they do with names and behind values, come to the same, and those by
positions get on.
-/

namespace SchemaTypings

theorem TokenKind.isCloser_iff {k : TokenKind} : k.isCloser = true ↔ ∃ b, k = .closes b := by
  cases k <;> simp [isCloser]

namespace Declaration

/-- The last of the tokens marks the end of the source. -/
def Ended (all : List Token) : Prop := ∃ t, all.getLast? = some t ∧ t.kind = .eof

namespace Indexed

/-! ### Positions -/

/-- At a position some tokens are left, which are `ts`. -/
structure Stands (all : List Token) (pos : Nat) (ts : List Token) : Prop where
  some : ts ≠ []
  left : all.drop pos = ts

section

variable {all : List Token} {pos : Nat} {t : Token} {ts : List Token}

theorem Stands.of_lt (h : pos < all.length) : Stands all pos (all.drop pos) :=
  ⟨by simpa using h, rfl⟩

namespace Stands

theorem length (h : Stands all pos ts) : pos + ts.length = all.length ∧ 0 < ts.length := by
  obtain ⟨some, rfl⟩ := h
  have := List.length_pos_iff.2 some
  rw [List.length_drop] at this ⊢
  omega

theorem exists_cons (h : Stands all pos ts) : ∃ t left, ts = t :: left :=
  List.exists_cons_of_ne_nil h.some

theorem getElem? (h : Stands all pos (t :: ts)) : all[pos]? = .some t := by
  rw [← List.head?_drop, h.left]
  rfl

theorem token (h : Stands all pos (t :: ts)) : token all pos = .ok t := by
  rw [Indexed.token, h.getElem?]

theorem next (h : Stands all pos (t :: ts)) (more : ts ≠ []) : Stands all (pos + 1) ts :=
  ⟨more, by rw [← List.drop_drop, h.left]; rfl⟩

/-- Behind any token but that of the end there are more. -/
theorem tail (h : Stands all pos (t :: ts)) (ended : Ended all) (on : t.kind ≠ .eof) :
    Stands all (pos + 1) ts := by
  obtain ⟨e, last, eof⟩ := ended
  refine h.next ?_
  rintro rfl
  have single : all.getLast? = .some t := by
    have length := h.length.1
    rw [List.getLast?_eq_getElem?, ← h.getElem?, ← length]
    rfl
  rw [last] at single
  exact on (Option.some.inj single ▸ eof)

theorem advance (h : Stands all pos (t :: ts)) (next : Stands all (pos + 1) ts) :
    advance all pos = .ok (pos + 1) := by
  have length := next.length
  rw [Indexed.advance, h.token, ok_bind, if_pos (by omega)]
  rfl

theorem peek (h : Stands all pos ts) : peek all pos = .ok (Token.first ts) := by
  obtain ⟨t, left, rfl⟩ := h.exists_cons
  have length := h.length
  rw [Indexed.peek, if_pos (by omega), h.token]
  rfl

end Stands

/-- There is always a token to be peeked at. -/
theorem exists_peek (h : Stands all pos ts) (i : Nat) : ∃ t, peek all i = .ok t := by
  have length := h.length
  rw [peek]
  split
  · next inside => exact ⟨_, by rw [token, List.getElem?_eq_getElem inside]⟩
  · exact ⟨_, by rw [token, List.getElem?_eq_getElem (by omega : all.length - 1 < all.length)]⟩

end

/-! ### Loops -/

section

variable {σ α : Type} {all : List Token} {round : σ → Nat → Except Fault (Round σ α)} {state : σ}
  {pos : Nat}

theorem loop_error {e : Fault} (h : round state pos = .error e) :
    loop all round state pos = .error e := by
  rw [loop, h]

theorem loop_done {a : α} {next : Nat} (h : round state pos = .ok (.done a next)) :
    loop all round state pos = .ok (a, next) := by
  rw [loop, h]

theorem loop_again {state' : σ} {next : Nat} {ts : List Token}
    (h : round state pos = .ok (.again state' next)) (on : pos < next)
    (stands : Stands all next ts) :
    loop all round state pos = loop all round state' next := by
  have length := stands.length
  rw [loop, h]
  dsimp only
  rw [dif_pos on, dif_pos (by omega)]

end

/-! ### Following -/

/-- Reading by positions comes to the same as a reader of the tokens that are left: the same
failure, or the same result and a position at which the same tokens are left, not in front of
`least`. -/
inductive Tracks (all : List Token) (least : Nat) {α : Type} :
    Except ReadError (α × List Token) → Except Fault (α × Nat) → Prop
  | refused (e : ReadError) : Tracks all least (.error e) (.error (.refused e))
  | found (a : α) {pos : Nat} {rest : List Token} (behind : least ≤ pos)
      (stands : Stands all pos rest) : Tracks all least (.ok (a, rest)) (.ok (a, pos))

namespace Tracks

variable {all : List Token} {least least' : Nat} {α β : Type}
  {x : Except ReadError (α × List Token)} {y : Except Fault (α × Nat)}

theorem mono (h : Tracks all least x y) (le : least' ≤ least) : Tracks all least' x y := by
  cases h with
  | refused e => exact .refused e
  | found a behind stands => exact .found a (Nat.le_trans le behind) stands

theorem bind {f : α × List Token → Except ReadError (β × List Token)}
    {g : α × Nat → Except Fault (β × Nat)} (h : Tracks all least x y)
    (hf : ∀ a pos rest, least ≤ pos → Stands all pos rest →
      Tracks all least' (f (a, rest)) (g (a, pos))) : Tracks all least' (x >>= f) (y >>= g) := by
  cases h with
  | refused e => exact .refused e
  | found a behind stands => exact hf a _ _ behind stands

/-- The same where what comes next by positions is known only by the outcome. -/
theorem through {f : α × List Token → Except ReadError (β × List Token)}
    {z : Except Fault (β × Nat)} (h : Tracks all least x y)
    (fails : ∀ e, y = .error (.refused e) → z = .error (.refused e))
    (on : ∀ a pos rest, y = .ok (a, pos) → least ≤ pos → Stands all pos rest →
      Tracks all least' (f (a, rest)) z) : Tracks all least' (x >>= f) z := by
  cases h with
  | refused e => exact fails e rfl ▸ .refused e
  | found a behind stands => exact on a _ _ rfl behind stands

theorem of_error {e : ReadError} (h : Tracks all least (.error e) y) : y = .error (.refused e) := by
  cases h
  rfl

theorem of_ok {a : α} {rest : List Token} (h : Tracks all least (.ok (a, rest)) y) :
    ∃ pos, y = .ok (a, pos) ∧ least ≤ pos ∧ Stands all pos rest := by
  cases h with
  | found _ behind stands => exact ⟨_, rfl, behind, stands⟩

theorem of_found {a : α} {pos : Nat} (h : Tracks all least x (.ok (a, pos))) :
    ∃ rest, x = .ok (a, rest) ∧ least ≤ pos ∧ Stands all pos rest := by
  cases h with
  | found _ behind stands => exact ⟨_, rfl, behind, stands⟩

end Tracks

/-! ### Searches -/

section

variable {source : Text} {all : List Token} {pos : Nat} {t : Token} {ts : List Token}

theorem afterGenerics_cons {depth : Int} :
    afterGenerics source depth (t :: ts) =
      if t.kind = .eof then .error (errorAt source .unterminatedGenerics t)
      else if t.kind = .operator then
        if angles depth t ≤ 0 then .ok ts else afterGenerics source (angles depth t) ts
      else afterGenerics source depth ts := rfl

theorem finish_cons (start : List Token) (v : Raw) :
    Declaration.finish source start v (t :: ts) =
      if t.kind.isDelimiter then .ok (v, t :: ts)
      else if t.kind = .name ∧ (t.value = "as" ∨ t.value = "satisfies") then
        Declaration.toDelimiter source 0 none (t :: ts) >>= fun skipped => .ok (v, skipped.2)
      else if t.isOperator "!" ∧ (Token.first ts).kind.isDelimiter then .ok (v, ts)
      else readOpaque source start >>= fun read => .ok (.text read.1, read.2) := rfl

/-- What the reader of the tokens that are left does at the end of the call of a nested schema. -/
def callClosed (source : Text) (first : Token) (entries : Entries Raw) (ts : List Token) :
    Except ReadError (Raw × List Token) :=
  if (Token.first ts).kind = .closes .round then .ok (.object entries, ts.tail)
  else .error (errorAt source .expectedCloseOfSchema first)

theorem closeSchema_cons (first : Token) (entries : Entries Raw) :
    Declaration.closeSchema source first (entries, t :: ts) =
      if t.kind = .comma then
        Declaration.toDelimiter source 0 none ts >>= fun skipped =>
          callClosed source first entries skipped.2
      else callClosed source first entries (t :: ts) := by
  rw [Declaration.closeSchema]
  by_cases comma : t.kind = .comma
  · rw [if_pos comma]
    refine (if_pos comma).trans ?_
    rw [List.tail_cons]
    cases Declaration.toDelimiter source 0 none ts <;> rfl
  · rw [if_neg comma]
    exact if_neg comma

variable (ended : Ended all)

include ended

theorem tracks_afterGenerics (depth : Int) (h : Stands all pos ts) :
    Tracks all pos ((afterGenerics source depth ts).map fun rest => ((), rest))
      (loop all (genericsRound source all) depth pos) := by
  induction ts generalizing depth pos with
  | nil => exact absurd rfl h.some
  | cons t ts ih =>
    rw [afterGenerics_cons]
    by_cases eof : t.kind = .eof
    · rw [if_pos eof, loop_error (by rw [genericsRound, h.token, ok_bind, if_pos eof, refuse])]
      exact .refused _
    have next := h.tail ended eof
    have round : genericsRound source all depth pos =
        if t.kind = .operator then
          if angles depth t ≤ 0 then .ok (.done () (pos + 1))
          else .ok (.again (angles depth t) (pos + 1))
        else .ok (.again depth (pos + 1)) := by
      rw [genericsRound, h.token, ok_bind, if_neg eof, h.advance next]
      rfl
    rw [if_neg eof]
    by_cases operator : t.kind = .operator
    · rw [if_pos operator] at round ⊢
      by_cases closed : angles depth t ≤ 0
      · rw [if_pos closed] at round ⊢
        rw [loop_done round]
        exact .found () (Nat.le_succ pos) next
      · rw [if_neg closed] at round ⊢
        rw [loop_again round (Nat.lt_succ_self pos) next]
        exact (ih _ next).mono (Nat.le_succ pos)
    · rw [if_neg operator] at round ⊢
      rw [loop_again round (Nat.lt_succ_self pos) next]
      exact (ih _ next).mono (Nat.le_succ pos)

theorem tracks_skipGenerics (h : Stands all pos ts) :
    Tracks all pos ((Declaration.skipGenerics source ts).map fun rest => ((), rest))
      (skipGenerics source all pos) := by
  obtain ⟨t, left, rfl⟩ := h.exists_cons
  rw [Declaration.skipGenerics, skipGenerics, h.token, ok_bind]
  by_cases opens : t.isOperator "<" = true
  · rw [if_pos opens, Token.first, if_pos opens]
    exact tracks_afterGenerics ended 0 h
  · rw [if_neg opens, Token.first, if_neg opens]
    exact .found () (Nat.le_refl _) h

/-- At the word `Schema` a round of the search looks behind the generic arguments. -/
theorem callRound_word {p : Token} {behind : Nat} {inner : List Token}
    (h : Stands all pos (t :: ts)) (schema : t.kind = .name ∧ t.value = "Schema")
    (skips : skipGenerics source all (pos + 1) = .ok ((), behind))
    (stands : Stands all behind (p :: inner)) :
    callRound source all () pos =
      if p.kind = .opens .round then
        if (Token.first inner).kind = .opens .curly then .ok (.done () (behind + 1))
        else .ok (.again () (behind + 1))
      else .ok (.again () behind) := by
  have word : t.kind ≠ .eof := by simp [schema]
  rw [callRound, h.token, ok_bind, if_neg word, if_pos schema, h.advance (h.tail ended word),
    ok_bind, skips, ok_bind]
  dsimp only
  rw [stands.token, ok_bind]
  by_cases round : p.kind = .opens .round
  · have next := stands.tail ended (by simp [round])
    obtain ⟨o, left, rfl⟩ := next.exists_cons
    rw [if_pos round, if_pos round, stands.advance next, ok_bind, next.token]
    rfl
  · rw [if_neg round, if_neg round]
    rfl

theorem tracks_findCall (h : Stands all pos ts) :
    Tracks all pos ((findCall source ts).map fun object => ((), object))
      (loop all (callRound source all) () pos) := by
  have skips {ts : List Token} {pos : Nat} (h : Stands all pos ts)
      {x : Except ReadError (List Token)} (skip : Declaration.skipGenerics source ts = x) :
      Tracks all pos (x.map fun rest => ((), rest)) (skipGenerics source all pos) :=
    skip ▸ tracks_skipGenerics ended h
  fun_induction findCall source ts generalizing pos
  case case1 => exact absurd rfl h.some
  case case2 t rest eof =>
    rw [loop_error (by rw [callRound, h.token, ok_bind, if_pos eof, refuse])]
    exact .refused _
  case case3 t rest eof schema e skip =>
    have next := h.tail ended eof
    have fails := (skips next skip).of_error
    rw [loop_error (by
      rw [callRound, h.token, ok_bind, if_neg eof, if_pos schema, h.advance next, ok_bind, fails,
        error_bind])]
    exact .refused _
  case case4 t rest eof schema skip =>
    obtain ⟨_, -, -, stands⟩ := (skips (h.tail ended eof) skip).of_ok
    exact absurd rfl stands.some
  case case5 t rest eof schema p inner skip round object =>
    obtain ⟨behind, found, on, stands⟩ := (skips (h.tail ended eof) skip).of_ok
    have next := stands.tail ended (by simp [round])
    have word := callRound_word ended h schema found stands
    rw [if_pos round, if_pos object] at word
    rw [loop_done word]
    exact .found () (by omega) next
  case case6 t rest eof schema p inner skip round other ih =>
    obtain ⟨behind, found, on, stands⟩ := (skips (h.tail ended eof) skip).of_ok
    have next := stands.tail ended (by simp [round])
    have word := callRound_word ended h schema found stands
    rw [if_pos round, if_neg other] at word
    rw [loop_again word (by omega) next]
    exact (ih next).mono (by omega)
  case case7 t rest eof schema p inner skip other ih =>
    obtain ⟨behind, found, on, stands⟩ := (skips (h.tail ended eof) skip).of_ok
    have word := callRound_word ended h schema found stands
    rw [if_neg other] at word
    rw [loop_again word (by omega) stands]
    exact (ih stands).mono (by omega)
  case case8 t rest eof other ih =>
    have next := h.tail ended eof
    have round : callRound source all () pos = .ok (.again () (pos + 1)) := by
      rw [callRound, h.token, ok_bind, if_neg eof, if_neg other, h.advance next]
      rfl
    rw [loop_again round (Nat.lt_succ_self pos) next]
    exact (ih next).mono (Nat.le_succ pos)

variable (source) in
theorem tracks_findSchemaObject (h : Stands all pos ts) :
    Tracks all pos ((Declaration.findSchemaObject source ts).map fun object => ((), object))
      (findSchemaObject source all pos) := by
  obtain ⟨t, left, rfl⟩ := h.exists_cons
  rw [Declaration.findSchemaObject, findSchemaObject, h.token, ok_bind]
  by_cases object : t.kind = .opens .curly
  · rw [if_pos object, Token.first, if_pos object]
    exact .found () (Nat.le_refl _) h
  · rw [if_neg object, Token.first, if_neg object]
    exact tracks_findCall ended h

theorem loop_delimiterRound {depth : Nat} {last : Option Token} (h : Stands all pos (t :: ts))
    (eof : t.kind ≠ .eof) (on : ¬(depth = 0 ∧ t.kind.isDelimiter = true)) :
    loop all (delimiterRound source all) (depth, last) pos =
      loop all (delimiterRound source all) (depthBehind depth t.kind, some t) (pos + 1) := by
  have next := h.tail ended eof
  refine loop_again ?_ (Nat.lt_succ_self pos) next
  rw [delimiterRound, h.token, ok_bind, if_neg eof, if_neg on, h.advance next]
  rfl

variable (source) in
theorem tracks_toDelimiter (depth : Nat) (last : Option Token) (h : Stands all pos ts) :
    Tracks all pos (Declaration.toDelimiter source depth last ts)
      (loop all (delimiterRound source all) (depth, last) pos) := by
  induction ts generalizing depth last pos with
  | nil => exact absurd rfl h.some
  | cons t ts ih =>
    by_cases eof : t.kind = .eof
    · rw [Declaration.toDelimiter, if_pos eof]
      by_cases closed : depth = 0
      · have round : delimiterRound source all (depth, last) pos = .ok (.done last pos) := by
          rw [delimiterRound, h.token, ok_bind, if_pos eof, if_pos closed]
          rfl
        rw [if_pos closed, loop_done round]
        exact .found last (Nat.le_refl _) h
      · rw [if_neg closed, loop_error (by
          rw [delimiterRound, h.token, ok_bind, if_pos eof, if_neg closed, refuse])]
        exact .refused _
    by_cases ends : depth = 0 ∧ t.kind.isDelimiter = true
    · have round : delimiterRound source all (depth, last) pos = .ok (.done last pos) := by
        rw [delimiterRound, h.token, ok_bind, if_neg eof, if_pos ends]
        rfl
      rw [Declaration.toDelimiter, if_neg eof, if_pos ends, loop_done round]
      exact .found last (Nat.le_refl _) h
    · rw [toDelimiter_step eof ends, loop_delimiterRound ended h eof ends]
      exact (ih _ _ (h.tail ended eof)).mono (Nat.le_succ pos)

/-- An expression takes a token at least. -/
theorem tracks_readOpaque (h : Stands all pos ts) :
    Tracks all (pos + 1) (readOpaque source ts) (readExpression source all pos) := by
  obtain ⟨t, left, rfl⟩ := h.exists_cons
  rw [readOpaque, readExpression, h.token, ok_bind]
  by_cases ends : t.kind.isDelimiter = true
  · have none : Declaration.toDelimiter source 0 none (t :: left) = .ok (none, t :: left) := by
      by_cases eof : t.kind = .eof <;> simp [Declaration.toDelimiter, eof, ends]
    obtain ⟨_, eq, -, -⟩ := (none ▸ tracks_toDelimiter source ended 0 .none h).of_ok
    rw [none, toDelimiter, eq]
    exact .refused _
  · have eof : t.kind ≠ .eof := fun eof => ends (by rw [eof]; rfl)
    have on : ¬(0 = 0 ∧ t.kind.isDelimiter = true) := fun stop => ends stop.2
    rw [toDelimiter_step eof on, toDelimiter, loop_delimiterRound ended h eof on]
    refine (tracks_toDelimiter source ended _ _ (h.tail ended eof)).bind
      fun last _ _ behind stands => ?_
    cases last with
    | none => exact .refused _
    | some last => exact .found _ behind stands

theorem tracks_closer? {start : Token} (depth : Nat) (h : Stands all pos ts) :
    Tracks all (pos + 1) (match closer? depth ts with
        | some found => .ok found
        | none => .error (errorAt source .unbalancedBrackets start))
      (loop all (closerRound source all start) depth pos) := by
  induction ts generalizing depth pos with
  | nil => exact absurd rfl h.some
  | cons t ts ih =>
    by_cases last : depth = 1 ∧ ∃ b, t.kind = .closes b
    · have closes := TokenKind.isCloser_iff.2 last.2
      have round : closerRound source all start depth pos = .ok (.done t (pos + 1)) := by
        rw [closerRound, h.token, ok_bind, if_pos ⟨last.1, closes⟩]
        rfl
      rw [closer?_last last, loop_done round]
      obtain ⟨-, b, closes⟩ := last
      exact .found t (Nat.le_refl _) (h.tail ended (by simp [closes]))
    have on : ¬(depth = 1 ∧ t.kind.isCloser = true) := fun stop =>
      last ⟨stop.1, TokenKind.isCloser_iff.1 stop.2⟩
    rw [closer?_step last]
    have length := h.length
    by_cases more : pos + 1 < all.length
    · have next := h.next (List.length_pos_iff.1 (by rw [List.length_cons] at length; omega))
      have round : closerRound source all start depth pos =
          .ok (.again (depthBehind depth t.kind) (pos + 1)) := by
        rw [closerRound, h.token, ok_bind, if_neg on, if_pos more]
        rfl
      rw [loop_again round (Nat.lt_succ_self pos) next]
      exact (ih _ next).mono (Nat.le_succ _)
    · rw [List.eq_nil_of_length_eq_zero (by rw [List.length_cons] at length; omega : ts.length = 0),
        loop_error (by rw [closerRound, h.token, ok_bind, if_neg on, if_neg more, refuse])]
      exact .refused _

theorem tracks_findCloser (h : Stands all pos ts) :
    Tracks all (pos + 1) (Declaration.findCloser source ts) (findCloser source all pos) := by
  obtain ⟨t, left, rfl⟩ := h.exists_cons
  rw [findCloser, h.token, ok_bind]
  exact tracks_closer? ended 0 h

/-! ### Names -/

theorem tracks_namePath (path : Text) (h : Stands all pos ts) :
    Tracks all pos (.ok (namePath path ts)) (loop all (pathRound all) path pos) := by
  fun_induction namePath path ts generalizing pos
  case case1 path d n rest on ih =>
    have name := h.tail ended (by simp [on.1])
    have next := name.tail ended (by simp [on.2])
    have round : pathRound all path pos = .ok (.again (path ++ "." ++ n.value) (pos + 2)) := by
      rw [pathRound, h.token, ok_bind, name.peek, ok_bind, Token.first, if_pos on, h.advance name,
        ok_bind, name.advance next]
      rfl
    rw [loop_again round (by omega) next]
    exact (ih next).mono (by omega)
  case case2 path d n rest stop =>
    have name := h.next (List.cons_ne_nil n rest)
    have round : pathRound all path pos = .ok (.done path pos) := by
      rw [pathRound, h.token, ok_bind, name.peek, ok_bind, Token.first, if_neg stop]
      rfl
    rw [loop_done round]
    exact .found path (Nat.le_refl _) h
  case case3 path ts stop =>
    obtain ⟨d, left, rfl⟩ := h.exists_cons
    -- A last token marks the end, and is no dot.
    have other : d.kind ≠ .dot := fun dot => by
      obtain ⟨n, rest, rfl⟩ := (h.tail ended (by simp [dot])).exists_cons
      exact stop d n rest rfl
    obtain ⟨n, peek⟩ := exists_peek h (pos + 1)
    have round : pathRound all path pos = .ok (.done path pos) := by
      rw [pathRound, h.token, ok_bind, peek, ok_bind, if_neg fun on => other on.1]
      rfl
    rw [loop_done round]
    exact .found path (Nat.le_refl _) h

theorem tracks_text (h : Stands all pos ts) :
    Tracks all (pos + 1)
      (readOpaque source ts >>= fun read => .ok (Raw.text read.1, read.2))
      (readExpression source all pos >>= fun read => .ok (Raw.text read.1, read.2)) :=
  (tracks_readOpaque ended h).bind fun _ _ _ behind stands => .found _ behind stands

theorem tracks_readName (h : Stands all pos (t :: ts)) (name : t.kind = .name) :
    Tracks all (pos + 1) (Declaration.readName source (t :: ts)) (readName source all pos) := by
  have next := h.tail ended (by simp [name])
  have path := tracks_namePath ended t.value next
  rw [Declaration.readName, readName, h.token, ok_bind, h.advance next, ok_bind]
  cases eq : namePath t.value ts with
  | mk names rest =>
    rw [eq] at path
    obtain ⟨behind, found, le, stands⟩ := path.of_ok
    obtain ⟨d, left, rfl⟩ := stands.exists_cons
    rw [Token.first, List.tail_cons, eq, found, ok_bind]
    dsimp only
    rw [stands.token, ok_bind, Token.first]
    by_cases ends : d.kind.isDelimiter = true
    · rw [if_pos ends, if_pos ends]
      exact .found _ le stands
    · rw [if_neg ends, if_neg ends]
      exact tracks_text ended h

theorem exists_aheadRound (last : Option Text) (h : Stands all pos ts) :
    ∃ i, loop all (aheadRound all) last pos = .ok ((lastOfPath ts).or last, i) := by
  fun_induction lastOfPath ts generalizing last pos
  case case1 => exact absurd rfl h.some
  case case2 n name d more dot ih =>
    have joint := h.next (List.cons_ne_nil d more)
    have next := joint.tail ended (by simp [dot])
    have round : aheadRound all last pos = .ok (.again (some n.value) (pos + 2)) := by
      rw [aheadRound, h.token, ok_bind, if_pos name, joint.token, ok_bind, if_pos dot]
      rfl
    rw [loop_again round (by omega) next]
    obtain ⟨i, eq⟩ := ih (some n.value) next
    exact ⟨i, by rw [eq, Option.or_some]; rfl⟩
  case case3 n name d more other =>
    have joint := h.next (List.cons_ne_nil d more)
    refine ⟨pos, loop_done ?_⟩
    rw [aheadRound, h.token, ok_bind, if_pos name, joint.token, ok_bind, if_neg other]
    rfl
  case case4 n name =>
    exact absurd rfl (h.tail ended (by simp [name])).some
  case case5 n rest other =>
    refine ⟨pos, loop_done ?_⟩
    rw [aheadRound, h.token, ok_bind, if_neg other]
    rfl

theorem atSchema_eq (h : Stands all (pos + 1) ts) :
    atSchema all pos = .ok (decide (lastOfPath ts = some "Schema")) := by
  obtain ⟨i, eq⟩ := exists_aheadRound ended none h
  rw [atSchema, eq, ok_bind, Option.or_none]
  rfl

/-! ### Values -/

theorem tracks_finish {start : Nat} {first : List Token} (v : Raw) (le : start < pos)
    (h : Stands all pos ts) (hs : Stands all start first) :
    Tracks all (start + 1) (Declaration.finish source first v ts)
      (finish source all start v pos) := by
  obtain ⟨t, left, rfl⟩ := h.exists_cons
  obtain ⟨ahead, peek⟩ := exists_peek h (pos + 1)
  rw [finish_cons, finish, h.token, ok_bind, peek, ok_bind]
  by_cases ends : t.kind.isDelimiter = true
  · rw [if_pos ends, if_pos ends]
    exact .found v le h
  rw [if_neg ends, if_neg ends]
  have next := h.tail ended fun eof => ends (by rw [eof]; rfl)
  obtain rfl : Token.first left = ahead := Except.ok.inj (next.peek.symm.trans peek)
  by_cases asserts : t.kind = .name ∧ (t.value = "as" ∨ t.value = "satisfies")
  · rw [if_pos asserts, if_pos asserts]
    refine (tracks_toDelimiter source ended 0 none h).bind fun _ _ _ behind stands => ?_
    exact .found v (Nat.lt_of_lt_of_le le behind) stands
  rw [if_neg asserts, if_neg asserts]
  by_cases marks : t.isOperator "!" = true ∧ (Token.first left).kind.isDelimiter = true
  · rw [if_pos marks, if_pos marks, h.advance next]
    exact .found v (by omega) next
  · rw [if_neg marks, if_neg marks]
    exact tracks_text ended hs

theorem tracks_closeCall {first : Token} {entries : Entries Raw} (h : Stands all pos ts) :
    Tracks all pos (callClosed source first entries ts)
      (closeCall source all first entries pos) := by
  obtain ⟨t, left, rfl⟩ := h.exists_cons
  rw [callClosed, closeCall, h.token, ok_bind, Token.first]
  by_cases closes : t.kind = .closes .round
  · have next := h.tail ended (by simp [closes])
    rw [if_pos closes, if_pos closes, h.advance next]
    exact .found _ (Nat.le_succ pos) next
  · rw [if_neg closes, if_neg closes]
    exact .refused _

theorem tracks_closeSchema {first : Token} {entries : Entries Raw} (h : Stands all pos ts) :
    Tracks all pos (Declaration.closeSchema source first (entries, ts))
      (closeSchema source all first entries pos) := by
  obtain ⟨t, left, rfl⟩ := h.exists_cons
  rw [closeSchema, h.token, ok_bind, closeSchema_cons]
  by_cases comma : t.kind = .comma
  · have next := h.tail ended (by simp [comma])
    rw [if_pos comma, if_pos comma, h.advance next, ok_bind]
    refine (tracks_toDelimiter source ended 0 none next).bind fun _ _ _ behind stands => ?_
    exact (tracks_closeCall ended stands).mono (by omega)
  · rw [if_neg comma, if_neg comma]
    exact tracks_closeCall ended h

end

end Indexed

end Declaration

end SchemaTypings
