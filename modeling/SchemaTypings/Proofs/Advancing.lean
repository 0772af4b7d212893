import SchemaTypings.Proofs.Delimiting
import SchemaTypings.Proofs.TokenPositions

/-!
The lenient reader gets on. Where the last token marks the end, reading by positions comes to the
same as reading the tokens that are left: it never asks for a token outside of the list, no loop
comes round without getting further, and a value ends behind its start, at a delimiter.
-/

namespace SchemaTypings

namespace Declaration

namespace Indexed

section

/-! ### Loops of entries and items -/

variable {source : Text} {all : List Token} (ended : Ended all) {pos : Nat} {t : Token}
  {ts : List Token}

variable {read : Nat → Except Fault (Raw × Nat)} {t' : Token} {ts' : List Token} {next : Nat}

include ended

theorem readEntries_done {before : Entries Raw} (h : Stands all pos (t :: ts))
    (closes : t.kind = .closes .curly) :
    readEntries source all read before pos = .ok (before, pos + 1) := by
  have round : entryRound source all read before pos = .ok (.done before pos) := by
    rw [entryRound, h.token, ok_bind, if_pos closes]
    rfl
  rw [readEntries, loop_done round, ok_bind]
  dsimp only
  rw [h.advance (h.tail ended (by simp [closes]))]
  rfl

/-- Behind an entry comes a comma or the closing brace. -/
theorem entryRound_entry {before entries : Entries Raw} (h : Stands all pos (t :: ts))
    (on : t.kind ≠ .closes .curly)
    (entry : readEntry source all read before pos = .ok (entries, next))
    (stands : Stands all next (t' :: ts')) :
    entryRound source all read before pos =
      if t'.kind = .comma then .ok (.again entries (next + 1))
      else if t'.kind = .closes .curly then .ok (.again entries next)
      else refuse source .expectedCommaInObject t' := by
  rw [entryRound, h.token, ok_bind, if_neg on, entry, ok_bind]
  dsimp only
  rw [stands.token, ok_bind]
  by_cases comma : t'.kind = .comma
  · rw [if_pos comma, if_pos comma, stands.advance (stands.tail ended (by simp [comma]))]
    rfl
  · rw [if_neg comma, if_neg comma]
    rfl

theorem readEntries_entry {before entries : Entries Raw} (h : Stands all pos (t :: ts))
    (on : t.kind ≠ .closes .curly)
    (entry : readEntry source all read before pos = .ok (entries, next)) (behind : pos < next)
    (stands : Stands all next (t' :: ts')) :
    readEntries source all read before pos =
      if t'.kind = .comma then readEntries source all read entries (next + 1)
      else if t'.kind = .closes .curly then .ok (entries, next + 1)
      else refuse source .expectedCommaInObject t' := by
  have round := entryRound_entry ended h on entry stands
  by_cases comma : t'.kind = .comma
  · rw [if_pos comma] at round ⊢
    have rest := stands.tail ended (by simp [comma])
    rw [readEntries, loop_again round (by omega) rest, readEntries]
  rw [if_neg comma] at round ⊢
  by_cases closes : t'.kind = .closes .curly
  · rw [if_pos closes] at round ⊢
    rw [readEntries, loop_again round behind stands, ← readEntries]
    exact readEntries_done ended stands closes
  · rw [if_neg closes] at round ⊢
    rw [readEntries, loop_error round]
    rfl

theorem readItems_done {before : List Raw} (h : Stands all pos (t :: ts))
    (closes : t.kind = .closes .square) :
    readItems source all read before pos = .ok (before, pos + 1) := by
  have round : itemRound source all read before pos = .ok (.done before pos) := by
    rw [itemRound, h.token, ok_bind, if_pos closes]
    rfl
  rw [readItems, loop_done round, ok_bind]
  dsimp only
  rw [h.advance (h.tail ended (by simp [closes]))]
  rfl

/-- A hole is passed over. -/
theorem readItems_hole {before : List Raw} (h : Stands all pos (t :: ts))
    (comma : t.kind = .comma) :
    readItems source all read before pos = readItems source all read before (pos + 1) := by
  have rest := h.tail ended (by simp [comma])
  have round : itemRound source all read before pos = .ok (.again before (pos + 1)) := by
    rw [itemRound, h.token, ok_bind, if_neg (by simp [comma]), if_pos comma, h.advance rest]
    rfl
  rw [readItems, loop_again round (Nat.lt_succ_self pos) rest, readItems]

variable (source) in
/-- Behind an item comes a comma or the closing bracket. -/
theorem itemRound_item (before : List Raw) {v : Raw} (h : Stands all pos (t :: ts))
    (on : t.kind ≠ .closes .square ∧ t.kind ≠ .comma) (item : read pos = .ok (v, next))
    (stands : Stands all next (t' :: ts')) :
    itemRound source all read before pos =
      if t'.kind = .comma then .ok (.again (before ++ [v]) (next + 1))
      else if t'.kind = .closes .square then .ok (.again (before ++ [v]) next)
      else refuse source .expectedCommaInArray t' := by
  rw [itemRound, h.token, ok_bind, if_neg on.1, if_neg on.2, item, ok_bind]
  dsimp only
  rw [stands.token, ok_bind]
  by_cases comma : t'.kind = .comma
  · rw [if_pos comma, if_pos comma, stands.advance (stands.tail ended (by simp [comma]))]
    rfl
  · rw [if_neg comma, if_neg comma]
    rfl

theorem readItems_item {before : List Raw} {v : Raw} (h : Stands all pos (t :: ts))
    (on : t.kind ≠ .closes .square ∧ t.kind ≠ .comma) (item : read pos = .ok (v, next))
    (behind : pos < next) (stands : Stands all next (t' :: ts')) :
    readItems source all read before pos =
      if t'.kind = .comma then readItems source all read (before ++ [v]) (next + 1)
      else if t'.kind = .closes .square then .ok (before ++ [v], next + 1)
      else refuse source .expectedCommaInArray t' := by
  have round := itemRound_item source ended before h on item stands
  by_cases comma : t'.kind = .comma
  · rw [if_pos comma] at round ⊢
    have rest := stands.tail ended (by simp [comma])
    rw [readItems, loop_again round (by omega) rest, readItems]
  rw [if_neg comma] at round ⊢
  by_cases closes : t'.kind = .closes .square
  · rw [if_pos closes] at round ⊢
    rw [readItems, loop_again round behind stands, ← readItems]
    exact readItems_done ended stands closes
  · rw [if_neg closes] at round ⊢
    rw [readItems, loop_error round]
    rfl

end

/-! ### Readers -/

/-- What the readers do with the given fuel, if it is enough for the tokens that are left, and so is
the depth. -/
structure Follows (source : Text) (all : List Token) (fuel : Nat) : Prop where
  -- At most three readers start at the same token: of the items, of a value and of a nested schema,
  -- or of the entries and of an entry. So three steps for each token are enough.
  value : ∀ {depth pos ts}, Stands all pos ts → 3 * ts.length + 1 ≤ fuel → ts.length ≤ depth →
    Tracks all (pos + 1) (Declaration.readValue source fuel ts).outcome
      (readValue source all depth pos)
  nested : ∀ {depth pos ts}, Stands all pos ts → 3 * ts.length ≤ fuel → ts.length ≤ depth + 1 →
    Tracks all (pos + 1) (Declaration.readNestedSchema source fuel ts).outcome
      (readNestedSchema source all (readValue source all depth) pos)
  entries : ∀ {depth pos ts} (before : Entries Raw), Stands all pos ts →
    3 * ts.length + 1 ≤ fuel → ts.length ≤ depth →
    Tracks all (pos + 1) (Declaration.readEntries source fuel before ts).outcome
      (readEntries source all (readValue source all depth) before pos)
  entry : ∀ {depth pos ts} (before : Entries Raw), Stands all pos ts →
    3 * ts.length ≤ fuel → ts.length ≤ depth →
    Tracks all (pos + 1) (Declaration.readEntry source fuel before ts).outcome
      (readEntry source all (readValue source all depth) before pos)
  items : ∀ {depth pos ts} (before : List Raw), Stands all pos ts →
    3 * ts.length + 2 ≤ fuel → ts.length ≤ depth →
    Tracks all (pos + 1)
      ((Declaration.readItems source fuel ts).outcome.map fun items => (before ++ items.1, items.2))
      (readItems source all (readValue source all depth) before pos)

section

variable {source : Text} {all : List Token} {fuel : Nat}

theorem Follows.zero : Follows source all 0 where
  value h enough _ := absurd h.length.2 (by omega)
  nested h enough _ := absurd h.length.2 (by omega)
  entries _ h enough _ := absurd h.length.2 (by omega)
  entry _ h enough _ := absurd h.length.2 (by omega)
  items _ h enough _ := absurd h.length.2 (by omega)

variable {depth pos : Nat} {t : Token} {ts : List Token}

theorem Follows.entries_succ (ih : Follows source all fuel) (ended : Ended all)
    (before : Entries Raw) (h : Stands all pos ts) (enough : 3 * ts.length + 1 ≤ fuel + 1)
    (deep : ts.length ≤ depth) :
    Tracks all (pos + 1) (Declaration.readEntries source (fuel + 1) before ts).outcome
      (readEntries source all (readValue source all depth) before pos) := by
  obtain ⟨t, left, rfl⟩ := h.exists_cons
  rw [readEntries_cons]
  by_cases closes : t.kind = .closes .curly
  · rw [if_pos closes, readEntries_done ended h closes]
    exact .found before (Nat.le_refl _) (h.tail ended (by simp [closes]))
  rw [if_neg closes]
  refine (ih.entry before h (by omega) deep).through (fun e fails => ?_)
    fun entries next after eq behind stands => ?_
  · rw [readEntries, loop_error (by
      rw [entryRound, h.token, ok_bind, if_neg closes, fails, error_bind])]
    rfl
  · obtain ⟨t', left', rfl⟩ := stands.exists_cons
    rw [readEntries_entry ended h closes eq behind stands, moreEntries]
    dsimp only
    rw [Token.first, List.tail_cons]
    have length := h.length
    have length' := stands.length
    by_cases comma : t'.kind = .comma
    · rw [if_pos comma, if_pos comma]
      have rest := stands.tail ended (by simp [comma])
      have := rest.length
      exact (ih.entries entries rest (by omega) (by omega)).mono (by omega)
    rw [if_neg comma, if_neg comma]
    by_cases closes : t'.kind = .closes .curly
    · rw [if_pos closes, if_pos closes]
      exact .found entries (by omega) (stands.tail ended (by simp [closes]))
    · rw [if_neg closes, if_neg closes]
      exact .refused _

theorem map_bind {α β γ : Type} (g : β → γ) (x : Except ReadError α)
    (f : α → Except ReadError β) : (x >>= f).map g = x >>= fun a => (f a).map g := by
  cases x <;> rfl

/-- An item in front of those that are read later stands behind those read before. -/
theorem map_item (before : List Raw) (v : Raw) (x : Except ReadError (List Raw × List Token)) :
    (x >>= fun items => .ok (v :: items.1, items.2)).map
        (fun items => (before ++ items.1, items.2)) =
      x.map fun items => (before ++ [v] ++ items.1, items.2) := by
  cases x <;> simp [Except.map]

theorem map_none (x : Except ReadError (List Raw × List Token)) :
    (x.map fun items => ([] ++ items.1, items.2)) = x := by
  cases x <;> rfl

theorem Follows.items_succ (ih : Follows source all fuel) (ended : Ended all)
    (before : List Raw) (h : Stands all pos ts) (enough : 3 * ts.length + 2 ≤ fuel + 1)
    (deep : ts.length ≤ depth) :
    Tracks all (pos + 1)
      ((Declaration.readItems source (fuel + 1) ts).outcome.map
        fun items => (before ++ items.1, items.2))
      (readItems source all (readValue source all depth) before pos) := by
  obtain ⟨t, left, rfl⟩ := h.exists_cons
  have length := h.length
  rw [readItems_cons]
  by_cases closes : t.kind = .closes .square
  · rw [if_pos closes, readItems_done ended h closes]
    change Tracks all (pos + 1) (.ok (before ++ [], left)) _
    rw [List.append_nil]
    exact .found before (Nat.le_refl _) (h.tail ended (by simp [closes]))
  rw [if_neg closes]
  by_cases hole : t.kind = .comma
  · rw [if_pos hole, readItems_hole ended h hole]
    have rest := h.tail ended (by simp [hole])
    have := rest.length
    exact (ih.items before rest (by omega) (by omega)).mono (by omega)
  rw [if_neg hole, map_bind]
  refine (ih.value h (by omega) deep).through (fun e fails => ?_)
    fun v next after eq behind stands => ?_
  · rw [readItems, loop_error (by
      rw [itemRound, h.token, ok_bind, if_neg closes, if_neg hole, fails, error_bind])]
    rfl
  · obtain ⟨t', left', rfl⟩ := stands.exists_cons
    rw [readItems_item ended h ⟨closes, hole⟩ eq behind stands, moreItems]
    dsimp only
    rw [Token.first, List.tail_cons]
    have length' := stands.length
    by_cases comma : t'.kind = .comma
    · rw [if_pos comma, if_pos comma]
      have rest := stands.tail ended (by simp [comma])
      have := rest.length
      rw [map_item]
      exact (ih.items (before ++ [v]) rest (by omega) (by omega)).mono (by omega)
    rw [if_neg comma, if_neg comma]
    by_cases closes : t'.kind = .closes .square
    · rw [if_pos closes, if_pos closes]
      exact .found (before ++ [v]) (by omega) (stands.tail ended (by simp [closes]))
    · rw [if_neg closes, if_neg closes]
      exact .refused _

/-- The object literal that a schema is given. -/
theorem Follows.object (ih : Follows source all fuel) (ended : Ended all) (h : Stands all pos ts)
    (enough : 3 * ts.length ≤ fuel + 2) (deep : ts.length ≤ depth + 1) :
    Tracks all (pos + 1)
      (Declaration.findSchemaObject source ts >>= fun object =>
        (Declaration.readEntries source fuel [] object.tail).outcome)
      (readSchemaObject source all (readValue source all depth) pos) := by
  have search := tracks_findSchemaObject source ended h
  have length := h.length
  rw [readSchemaObject]
  cases found : Declaration.findSchemaObject source ts with
  | error e =>
    rw [found] at search
    rw [search.of_error]
    exact .refused e
  | ok object =>
    rw [found] at search
    obtain ⟨brace, eq, le, stands⟩ := search.of_ok
    obtain ⟨o, inner, rfl⟩ := stands.exists_cons
    have curly : o.kind = .opens .curly := kind_of_findSchemaObject found
    have next := stands.tail ended (by simp [curly])
    have length' := next.length
    rw [eq, ok_bind, ok_bind, List.tail_cons]
    dsimp only
    rw [readObject, stands.advance next, ok_bind]
    exact (ih.entries [] next (by omega) (by omega)).mono (by omega)

theorem Follows.nested_succ (ih : Follows source all fuel) (ended : Ended all)
    (h : Stands all pos ts) (enough : 3 * ts.length ≤ fuel + 1) (deep : ts.length ≤ depth + 1) :
    Tracks all (pos + 1) (Declaration.readNestedSchema source (fuel + 1) ts).outcome
      (readNestedSchema source all (readValue source all depth) pos) := by
  obtain ⟨t, left, rfl⟩ := h.exists_cons
  rw [readNestedSchema_eq, ← bind_assoc, readNestedSchema, h.token, ok_bind, Token.first]
  exact (ih.object ended h (by omega) deep).bind fun entries _ _ behind stands =>
    (tracks_closeSchema ended stands).mono behind

theorem Follows.computed (ih : Follows source all fuel) (ended : Ended all) (before : Entries Raw)
    (close : Token) (h : Stands all pos ts) (enough : 3 * ts.length ≤ fuel + 2)
    (deep : ts.length ≤ depth + 1) :
    Tracks all pos (Declaration.skipComputed source fuel before (close, ts))
      (skipComputed source all (readValue source all depth) before pos) := by
  obtain ⟨c, left, rfl⟩ := h.exists_cons
  have length := h.length
  rw [Declaration.skipComputed, skipComputed, h.token, ok_bind]
  dsimp only
  rw [Token.first, List.tail_cons]
  by_cases colon : c.kind = .colon
  · have next := h.tail ended (by simp [colon])
    have length' := next.length
    rw [if_pos colon, if_pos colon, h.advance next, ok_bind]
    exact (ih.value next (by omega) (by omega)).bind fun _ _ _ behind stands =>
      .found before (by omega) stands
  · rw [if_neg colon, if_neg colon]
    exact .refused _

theorem tracks_skipMethod (ended : Ended all) (before : Entries Raw) (close : Token)
    (h : Stands all pos ts) :
    Tracks all pos (Declaration.skipMethod source before (close, ts))
      (skipMethod source all before pos) := by
  obtain ⟨b, left, rfl⟩ := h.exists_cons
  rw [Declaration.skipMethod, skipMethod, h.token, ok_bind]
  dsimp only
  rw [Token.first]
  by_cases brace : b.kind = .opens .curly
  · rw [if_pos brace, if_pos brace]
    exact (tracks_findCloser ended h).bind fun _ _ _ behind stands =>
      .found before (by omega) stands
  · rw [if_neg brace, if_neg brace]
    exact .found before (Nat.le_refl _) h

theorem Follows.entry_succ (ih : Follows source all fuel) (ended : Ended all)
    (before : Entries Raw) (h : Stands all pos ts) (enough : 3 * ts.length ≤ fuel + 1)
    (deep : ts.length ≤ depth) :
    Tracks all (pos + 1) (Declaration.readEntry source (fuel + 1) before ts).outcome
      (readEntry source all (readValue source all depth) before pos) := by
  obtain ⟨t, left, rfl⟩ := h.exists_cons
  have length := h.length
  rw [readEntry_cons, readEntry, h.token, ok_bind]
  by_cases spread : t.isOperator "..." = true
  · have next := h.tail ended (by simp [kind_of_isOperator spread])
    rw [if_pos spread, if_pos spread, h.advance next, ok_bind]
    exact (tracks_readOpaque ended next).bind fun _ _ _ behind stands =>
      .found before (by omega) stands
  rw [if_neg spread, if_neg spread]
  by_cases computed : t.kind = .opens .square
  · rw [if_pos computed, if_pos computed]
    refine (tracks_findCloser ended h).bind fun close _ _ behind stands => ?_
    have length' := stands.length
    exact (ih.computed ended before close stands (by omega) (by omega)).mono behind
  rw [if_neg computed, if_neg computed]
  by_cases key : t.kind = .name ∨ t.kind = .string ∨ t.kind = .number
  · have next := h.tail ended (by rcases key with key | key | key <;> simp [key])
    obtain ⟨n, rest, rfl⟩ := next.exists_cons
    have length' := next.length
    rw [if_pos key, if_pos key, h.advance next, ok_bind, next.token, ok_bind, Token.first,
      List.tail_cons]
    by_cases colon : n.kind = .colon
    · have value := next.tail ended (by simp [colon])
      have := value.length
      rw [if_pos colon, if_pos colon, next.advance value, ok_bind]
      exact (ih.value value (by omega) (by omega)).bind fun v _ _ behind stands =>
        .found (before.move t.value v) (by omega) stands
    rw [if_neg colon, if_neg colon]
    by_cases method : n.kind = .opens .round
    · rw [if_pos method, if_pos method]
      exact (tracks_findCloser ended next).bind fun close _ _ behind stands =>
        (tracks_skipMethod ended before close stands).mono (by omega)
    rw [if_neg method, if_neg method]
    by_cases short : t.kind = .name ∧ n.kind.isDelimiter = true
    · rw [if_pos short, if_pos short]
      exact .found _ (Nat.le_refl _) next
    · rw [if_neg short, if_neg short]
      exact .refused _
  · rw [if_neg key, if_neg key]
    exact .refused _

theorem tracks_number {start : Nat} {first : List Token} (ended : Ended all) (n : Token)
    (f : Literal → Raw) (le : start < pos) (h : Stands all pos ts) (hs : Stands all start first) :
    Tracks all (start + 1)
      (number n >>= fun v => Declaration.finish source first (f v) ts)
      (numeral n >>= fun v => finish source all start (f v) pos) := by
  rw [numeral]
  cases number n with
  | error e => exact .refused e
  | ok v => exact tracks_finish ended (f v) le h hs

/-- A token that starts neither a literal, a name nor brackets starts a negative number or an
expression. -/
theorem tracks_other (ended : Ended all) (h : Stands all pos (t :: ts))
    (other : t.kind ≠ .opens .curly ∧ t.kind ≠ .opens .square ∧ t.kind ≠ .string ∧
      t.kind ≠ .number ∧ t.kind ≠ .name) :
    Tracks all (pos + 1) (Declaration.readValue source (fuel + 1) (t :: ts)).outcome
      (readValue source all (depth + 1) pos) := by
  have eq : readValue source all (depth + 1) pos = peek all (pos + 1) >>= fun n =>
      if t.isOperator "-" ∧ n.kind = .number then
        advance all pos >>= fun next => advance all next >>= fun behind =>
          numeral n >>= fun v => finish source all pos (rawNumber v.negated) behind
      else readExpression source all pos >>= fun read => .ok (.text read.1, read.2) := by
    obtain ⟨h1, h2, h3, h4, h5⟩ := other
    rw [readValue, h.token, ok_bind]
    split <;> first | contradiction | rfl
  rw [readValue_other other, eq]
  by_cases minus : t.isOperator "-" = true
  · have next := h.tail ended (by simp [kind_of_isOperator minus])
    obtain ⟨n, left, rfl⟩ := next.exists_cons
    rw [next.peek, ok_bind, Token.first]
    by_cases negative : t.isOperator "-" = true ∧ n.kind = .number
    · have rest := next.tail ended (by simp [negative.2])
      rw [if_pos negative, if_pos negative, h.advance next, ok_bind, next.advance rest, ok_bind,
        List.tail_cons]
      exact tracks_number ended n (fun v => rawNumber v.negated) (by omega) rest h
    · rw [if_neg negative, if_neg negative]
      exact tracks_text ended h
  · obtain ⟨n, peek⟩ := exists_peek h (pos + 1)
    rw [peek, ok_bind, if_neg fun on => minus on.1, if_neg fun on => minus on.1]
    exact tracks_text ended h

theorem Follows.value_succ (ih : Follows source all fuel) (ended : Ended all)
    (h : Stands all pos ts) (enough : 3 * ts.length + 1 ≤ fuel + 1) (deep : ts.length ≤ depth) :
    Tracks all (pos + 1) (Declaration.readValue source (fuel + 1) ts).outcome
      (readValue source all depth pos) := by
  obtain ⟨t, left, rfl⟩ := h.exists_cons
  have length := h.length
  obtain ⟨depth, rfl⟩ := Nat.exists_eq_succ_of_ne_zero (by omega : depth ≠ 0)
  cases kind : t.kind with
  | opens b =>
    have next := h.tail ended (by simp [kind])
    have length' := next.length
    cases b with
    | curly =>
      rw [readValue_object kind, readValue, h.token, ok_bind, kind]
      dsimp only
      rw [readObject, h.advance next, ok_bind]
      exact (ih.entries [] next (by omega) (by omega)).bind fun entries _ _ behind stands =>
        tracks_finish ended (.object entries) (by omega) stands h
    | square =>
      rw [readValue_list kind, readValue, h.token, ok_bind, kind]
      dsimp only
      rw [h.advance next, ok_bind]
      have items := ih.items [] next (by omega) (by omega : left.length ≤ depth)
      rw [map_none] at items
      exact items.bind fun items _ _ behind stands =>
        tracks_finish ended (.list items) (by omega) stands h
    | round => exact tracks_other ended h (by simp [kind])
  | string =>
    have next := h.tail ended (by simp [kind])
    rw [readValue_string kind, readValue, h.token, ok_bind, kind]
    dsimp only
    rw [h.advance next, ok_bind]
    exact tracks_finish ended (.text t.value) (Nat.lt_succ_self pos) next h
  | number =>
    have next := h.tail ended (by simp [kind])
    rw [readValue_number kind, readValue, h.token, ok_bind, kind]
    dsimp only
    rw [h.advance next, ok_bind]
    exact tracks_number ended t rawNumber (Nat.lt_succ_self pos) next h
  | name =>
    have next := h.tail ended (by simp [kind])
    rw [readValue_name kind, readValue, h.token, ok_bind, kind]
    dsimp only
    by_cases word : t.value = "new"
    · rw [if_pos word, atSchema_eq ended next, ok_bind]
      by_cases schema : lastOfPath left = some "Schema"
      · rw [if_pos ⟨word, schema⟩, if_pos (decide_eq_true schema)]
        exact (ih.nested h (by omega) deep).bind fun v _ _ behind stands =>
          tracks_finish ended v behind stands h
      · rw [if_neg fun nests => schema nests.2, if_neg (by rwa [decide_eq_true_iff])]
        exact tracks_readName ended h kind
    · rw [if_neg word, if_neg fun nests => word nests.1]
      exact tracks_readName ended h kind
  | _ => exact tracks_other ended h (by simp [kind])

variable (source) in
theorem follows (ended : Ended all) (fuel : Nat) : Follows source all fuel := by
  induction fuel with
  | zero => exact .zero
  | succ fuel ih =>
    exact ⟨ih.value_succ ended, ih.nested_succ ended, ih.entries_succ ended, ih.entry_succ ended,
      ih.items_succ ended⟩

/-! ### Delimiters -/

theorem yields_delimited (ts : List Token) :
    Yields (fun found => Delimited found.2) (Declaration.toDelimiter source 0 none ts) :=
  fun (_, _) found => (eq_beyond_of_toDelimiter found).symm ▸ delimited_beyond 0 ts

theorem yields_text (ts : List Token) :
    Yields (fun read => Delimited read.2)
      (readOpaque source ts >>= fun read => .ok (Raw.text read.1, read.2)) := by
  have expression : Yields (fun read => Delimited read.2) (readOpaque source ts) :=
    (yields_delimited ts).seq fun (last, left) ends => by
      cases last with
      | none => exact .error
      | some t => exact .ok ends
  exact expression.seq fun _ ends => .ok ends

theorem yields_finish (start : List Token) (v : Raw) (ts : List Token) :
    Yields (fun read => Delimited read.2) (Declaration.finish source start v ts) := by
  rw [Declaration.finish]
  dsimp only
  split
  · next ends => exact .ok ends
  split
  · exact (yields_delimited ts).seq fun _ ends => .ok ends
  split
  · next marks => exact .ok marks.2
  · exact yields_text start

theorem yields_readName (ts : List Token) :
    Yields (fun read => Delimited read.2) (Declaration.readName source ts) := by
  rw [Declaration.readName]
  dsimp only
  split
  · next ends => exact .ok ends
  · exact yields_text ts

/-- A value ends at a delimiter. -/
theorem yields_readValue (fuel : Nat) (ts : List Token) :
    Yields (fun read => Delimited read.2) (Declaration.readValue source fuel ts).outcome := by
  cases fuel with
  | zero => rw [Declaration.readValue]; exact .error
  | succ fuel =>
    cases ts with
    | nil => rw [Declaration.readValue]; exact .error
    | cons t ts =>
      have other (h : t.kind ≠ .opens .curly ∧ t.kind ≠ .opens .square ∧ t.kind ≠ .string ∧
          t.kind ≠ .number ∧ t.kind ≠ .name) : Yields (fun read => Delimited read.2)
            (Declaration.readValue source (fuel + 1) (t :: ts)).outcome := by
        rw [readValue_other h]
        split
        · exact .skip fun v => yields_finish _ _ _
        · exact yields_text _
      cases kind : t.kind with
      | opens b =>
        cases b with
        | curly => rw [readValue_object kind]; exact .skip fun _ => yields_finish _ _ _
        | square => rw [readValue_list kind]; exact .skip fun _ => yields_finish _ _ _
        | round => exact other (by simp [kind])
      | string => rw [readValue_string kind]; exact yields_finish _ _ _
      | number => rw [readValue_number kind]; exact .skip fun _ => yields_finish _ _ _
      | name =>
        rw [readValue_name kind]
        split
        · exact .skip fun _ => yields_finish _ _ _
        · exact yields_readName _
      | _ => exact other (by simp [kind])

/-! ### Every position -/

/-- What the readers do at a position, with enough fuel: each of them comes by positions to the same
as on the tokens that are left, and what it reads is behind the position. A value ends at a
delimiter. -/
structure Advances (source : Text) (all : List Token) (fuel pos : Nat) : Prop where
  value : Tracks all (pos + 1) (Declaration.readValue source fuel (all.drop pos)).outcome
    (readValue source all all.length pos)
  stops : ∀ v next, readValue source all all.length pos = .ok (v, next) → pos < next ∧
    ∃ t, all[next]? = some t ∧
      (t.kind = .comma ∨ t.kind = .semicolon ∨ (∃ b, t.kind = .closes b) ∨ t.kind = .eof)
  nested : Tracks all (pos + 1) (Declaration.readNestedSchema source fuel (all.drop pos)).outcome
    (readNestedSchema source all (readValue source all all.length) pos)
  entries : ∀ before,
    Tracks all (pos + 1) (Declaration.readEntries source fuel before (all.drop pos)).outcome
      (readEntries source all (readValue source all all.length) before pos)
  items : ∀ before, Tracks all (pos + 1)
    ((Declaration.readItems source fuel (all.drop pos)).outcome.map
      fun items => (before ++ items.1, items.2))
    (readItems source all (readValue source all all.length) before pos)
  search : Tracks all pos
    ((Declaration.findSchemaObject source (all.drop pos)).map fun object => ((), object))
    (findSchemaObject source all pos)
  closer : Tracks all (pos + 1) (Declaration.findCloser source (all.drop pos))
    (findCloser source all pos)
  expression : Tracks all (pos + 1) (readOpaque source (all.drop pos))
    (readExpression source all pos)

theorem exists_delimiter {next : Nat} (h : Stands all next ts) (ends : Delimited ts) :
    ∃ t, all[next]? = some t ∧
      (t.kind = .comma ∨ t.kind = .semicolon ∨ (∃ b, t.kind = .closes b) ∨ t.kind = .eof) := by
  obtain ⟨t, left, rfl⟩ := h.exists_cons
  refine ⟨t, h.getElem?, ?_⟩
  have kind := ends.kind
  revert kind
  cases t.kind <;> simp [TokenKind.isDelimiter]

/-- All the tokens are read alike. -/
theorem ofTokens_eq_mapError (ended : Ended all) :
    ofTokens source all = (Declaration.ofTokens source all).outcome.mapError .refused := by
  have h : Stands all 0 all := by
    refine ⟨?_, rfl⟩
    rintro rfl
    obtain ⟨e, last, -⟩ := ended
    cases last
  have object := (follows source ended (3 * all.length + 3)).object ended h (by omega)
    (Nat.le_succ all.length)
  rw [ofTokens, ofTokens_eq, ← bind_assoc]
  generalize readSchemaObject .. = y, (Declaration.findSchemaObject source all >>= _) = x
    at object ⊢
  cases object with
  | refused e => rfl
  | found entries behind stands =>
    obtain ⟨t, left, rfl⟩ := stands.exists_cons
    rw [ok_bind, ok_bind]
    dsimp only
    rw [stands.token]
    rfl

/-- From every position on the readers get on and stay among the tokens: no token is asked for
outside of the list, no loop is stuck, and reading fails only where the text is refused. -/
theorem advances (ended : Ended all) (enough : 3 * all.length + 2 ≤ fuel) :
    (∀ pos < all.length, Advances source all fuel pos) ∧
      ofTokens source all = (Declaration.ofTokens source all).outcome.mapError .refused := by
  refine ⟨fun pos inside => ?_, ofTokens_eq_mapError ended⟩
  have h := Stands.of_lt inside
  have length := h.length
  have readers := follows source ended fuel
  have value := readers.value h (by omega) (by omega : (all.drop pos).length ≤ all.length)
  exact {
    value := value
    stops := fun v next read => by
      obtain ⟨rest, found, behind, stands⟩ := (read ▸ value).of_found
      exact ⟨behind, exists_delimiter stands (yields_readValue fuel _ _ found)⟩
    nested := readers.nested h (by omega) (by omega)
    entries := fun before => readers.entries before h (by omega) (by omega)
    items := fun before => readers.items before h (by omega) (by omega)
    search := tracks_findSchemaObject source ended h
    closer := tracks_findCloser ended h
    expression := tracks_readOpaque ended h }

/-- An object with a list of one name in it, and the same cut off behind that name. -/
def listTokens : List Token :=
  [⟨.opens .curly, [], 0, 1⟩, ⟨.name, "a", 1, 2⟩, ⟨.colon, [], 2, 3⟩, ⟨.opens .square, [], 3, 4⟩,
    ⟨.name, "b", 4, 5⟩, ⟨.closes .square, [], 5, 6⟩, ⟨.closes .curly, [], 6, 7⟩, .eof 7]

def cutTokens : List Token := listTokens.take 5 ++ [.eof 5]

theorem advances_list :
    ((∀ pos < 8, Advances [] listTokens 26 pos) ∧
      ofTokens [] listTokens = .ok [("a", .list [.bare "b"])]) ∧
    ((∀ pos < 6, Advances [] cutTokens 20 pos) ∧
      ofTokens [] cutTokens = .error (.refused (errorAt [] .expectedCommaInArray (.eof 5)))) := by
  have list : (∀ pos < listTokens.length, Advances [] listTokens 26 pos) ∧ _ :=
    advances ⟨.eof 7, rfl, rfl⟩ (by decide)
  have cut : (∀ pos < cutTokens.length, Advances [] cutTokens 20 pos) ∧ _ :=
    advances ⟨.eof 5, rfl, rfl⟩ (by decide)
  exact ⟨⟨list.1, list.2.trans rfl⟩, cut.1, cut.2.trans rfl⟩

end

end Indexed

end Declaration

end SchemaTypings
