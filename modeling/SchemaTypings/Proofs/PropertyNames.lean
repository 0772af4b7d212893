import Mathlib.Data.List.Dedup
import Mathlib.Data.List.Infix
import SchemaTypings.Proofs.Delimiting
import SchemaTypings.Proofs.Wellformed

/-!
The names that an object literal gives to its properties, by the brackets alone: one for each entry
that has a name and a colon or is a name, and none for methods, spreads and computed keys. What a
declaration is read as has these keys, each where it stands last, provided that each schema that is
built as a value is given an object literal at once.
-/

namespace SchemaTypings

/-- A token behind which a value may stand. -/
def Token.MarksValue (t : Token) : Prop :=
  t.kind = .colon ∨ t.kind = .comma ∨ t.kind = .opens .square

instance (t : Token) : Decidable t.MarksValue := inferInstanceAs (Decidable (_ ∨ _ ∨ _))

/-- Of the tokens behind which a value may stand, none closes a bracket. -/
theorem Token.MarksValue.inside {p : Token} {all ts : List Token} (marks : p.MarksValue)
    (h : Inside all (p :: ts)) : Inside all ts := by
  rcases marks with kind | kind | kind
  · exact h.flat fun b => by simp [kind]
  · exact h.flat fun b => by simp [kind]
  · exact h.opens kind

namespace Declaration

/-! ### Names by brackets -/

/-- The name of the property that an entry declares. -/
def entryName? : List Token → Option Text
  | [] => none
  | t :: ts =>
    if (t.kind = .name ∨ t.kind = .string ∨ t.kind = .number) ∧ (Token.first ts).kind = .colon ∨
        t.kind = .name ∧ (Token.first ts).kind.isDelimiter then some t.value
    else none

/-- The tokens start with `new` and a path to `Schema`. -/
def BuildsSchema (ts : List Token) : Prop :=
  (Token.first ts).kind = .name ∧ (Token.first ts).value = "new" ∧
    lastOfPath ts.tail = some ("Schema" : Text)

instance (ts : List Token) : Decidable (BuildsSchema ts) :=
  inferInstanceAs (Decidable (_ ∧ _ ∧ _))

/-- The tokens behind a `new` and a path of names. -/
def behindPath (ts : List Token) : List Token := (namePath [] ts.tail.tail).2

/-- The tokens from the call on by which a schema is built at the start, behind its path and generic
arguments. -/
def schemaCall? (source : Text) (ts : List Token) : Option (List Token) :=
  if BuildsSchema ts then
    match skipGenerics source (behindPath ts) with
    | .ok call => if (Token.first call).kind = .opens .round then some call else none
    | .error _ => none
  else none

/-- What stands behind a value ends it: a delimiter, perhaps behind an assertion. -/
def EndsValue (ts : List Token) : Prop :=
  Delimited ts ∨
    (Token.first ts).kind = .name ∧
      ((Token.first ts).value = "as" ∨ (Token.first ts).value = "satisfies") ∨
    (Token.first ts).isOperator "!" = true ∧ Delimited ts.tail

instance (ts : List Token) : Decidable (EndsValue ts) :=
  inferInstanceAs (Decidable ((_ = true) ∨ (_ ∧ (_ ∨ _)) ∨ (_ ∧ (_ = true))))

/-- The tokens from the delimiter on that ends a value. No comma among the generic arguments of a
schema does. -/
def beyondValue (source : Text) (ts : List Token) : List Token :=
  match (schemaCall? source ts).bind (closer? 0) with
  | some (_, behind) => if EndsValue behind then beyond 0 behind else beyond 0 ts
  | none => beyond 0 ts

/-- The tokens of the value that an entry gives to a property or to a computed key. -/
def valueOf? : List Token → Option (List Token)
  | [] => none
  | t :: ts =>
    if t.kind = .opens .square then
      match closer? 0 (t :: ts) with
      | some (_, c :: value) => if c.kind = .colon then some value else none
      | _ => none
    else if (t.kind = .name ∨ t.kind = .string ∨ t.kind = .number) ∧
        (Token.first ts).kind = .colon then some ts.tail
    else none

/-- The tokens from the delimiter on that ends an entry. -/
def beyondEntry (source : Text) (ts : List Token) : List Token :=
  match valueOf? ts with
  | some value => beyondValue source value
  | none => beyond 0 ts

section

variable (source : Text)

variable {source} in
theorem schemaCall?_eq_some_iff {ts call : List Token} :
    schemaCall? source ts = some call ↔ BuildsSchema ts ∧
      skipGenerics source (behindPath ts) = .ok call ∧ (Token.first call).kind = .opens .round := by
  unfold schemaCall?
  split
  · next builds =>
    split
    · next call' skip =>
      split
      · next opens =>
        simp only [builds, skip, Option.some.injEq, Except.ok.injEq, true_and]
        exact ⟨fun same => ⟨same, same ▸ opens⟩, fun h => h.1⟩
      · next other =>
        simp only [builds, skip, reduceCtorEq, Except.ok.injEq, true_and, false_iff]
        exact fun h => other (h.1 ▸ h.2)
    · next e skip => simp [skip]
  · next other => simp [other]

theorem suffix_beyondValue (ts : List Token) : beyondValue source ts <:+ ts := by
  have path : behindPath ts <:+ ts :=
    (suffix_namePath [] _).trans ((List.tail_suffix _).trans (List.tail_suffix ts))
  rw [beyondValue]
  split
  · next r behind found =>
    split
    · obtain ⟨call, start, close⟩ := Option.bind_eq_some_iff.1 found
      obtain ⟨-, skip, -⟩ := schemaCall?_eq_some_iff.1 start
      have inside : call <:+ behindPath ts := (within_skipGenerics source _).suffix _ skip
      exact (suffix_beyond 0 behind).trans ((suffix_of_closer? close).trans (inside.trans path))
    · exact suffix_beyond 0 ts
  · exact suffix_beyond 0 ts

theorem suffix_valueOf? {ts value : List Token} (h : valueOf? ts = some value) : value <:+ ts := by
  cases ts with
  | nil => cases h
  | cons t ts =>
    rw [valueOf?] at h
    split at h
    · split at h
      · next found =>
        split at h
        · cases h
          exact (List.suffix_cons _ _).trans (suffix_of_closer? found)
        · cases h
      · cases h
    · split at h
      · cases h
        exact (List.tail_suffix _).trans (List.suffix_cons _ _)
      · cases h

theorem suffix_beyondEntry (ts : List Token) : beyondEntry source ts <:+ ts := by
  rw [beyondEntry]
  split
  · next value found => exact (suffix_beyondValue source value).trans (suffix_valueOf? found)
  · exact suffix_beyond 0 ts

end

/-- The names of the properties in the entries of an object literal, up to its closing brace. -/
def propertyNames (source : Text) (ts : List Token) : List Text :=
  (entryName? ts).toList ++
    match _h : beyondEntry source ts with
    | [] => []
    | c :: rest => if c.kind = .comma then propertyNames source rest else []
termination_by ts.length
decreasing_by
  have short := (suffix_beyondEntry source ts).length_le
  rw [_h, List.length_cons] at short
  omega

theorem beyondEntry_plain {source : Text} {ts : List Token} (plain : valueOf? ts = none) :
    beyondEntry source ts = beyond 0 ts := by
  rw [beyondEntry, plain]

theorem delimited_beyondValue {source : Text} (ts : List Token) :
    Delimited (beyondValue source ts) := by
  rw [beyondValue]
  split
  · split <;> exact delimited_beyond ..
  · exact delimited_beyond ..

theorem propertyNames_comma {source : Text} {ts rest : List Token} {c : Token}
    (behind : beyondEntry source ts = c :: rest) (comma : c.kind = .comma) :
    propertyNames source ts = (entryName? ts).toList ++ propertyNames source rest := by
  rw [propertyNames]
  split
  · next none =>
    rw [none] at behind
    cases behind
  · next c' rest' found =>
    cases found.symm.trans behind
    rw [if_pos comma]

theorem propertyNames_last {source : Text} {ts : List Token}
    (last : (Token.first (beyondEntry source ts)).kind ≠ .comma) :
    propertyNames source ts = (entryName? ts).toList := by
  rw [propertyNames]
  split
  · rw [List.append_nil]
  · next c rest found =>
    have last : c.kind ≠ .comma := by
      rw [found] at last
      exact last
    rw [if_neg last, List.append_nil]

theorem propertyNames_closed {source : Text} {t : Token} {ts : List Token}
    (closes : t.kind = .closes .curly) : propertyNames source (t :: ts) = [] := by
  have ended : Delimited (t :: ts) := by
    rw [Delimited, Token.first, closes]
    rfl
  have behind : beyondEntry source (t :: ts) = t :: ts := by
    rw [beyondEntry_plain (by simp [valueOf?, closes]), beyond_of_delimited ended]
  rw [propertyNames_last (by simp [behind, Token.first, closes])]
  simp [entryName?, closes]

/-! ### Schemas that are built at once -/

/-- Each schema that is built as a value in the literal is given an object literal: behind its path
and its generic arguments, whose brackets are balanced, a call starts with a brace. -/
def BuildsDirectly (source : Text) (all : List Token) : Prop :=
  ∀ p ts, Inside all (p :: ts) → p.MarksValue → BuildsSchema ts →
    ∃ call, schemaCall? source ts = some call ∧ Passes (behindPath ts) call ∧
      (Token.first call.tail).kind = .opens .curly

/-- Whether the schema that is built behind the first token, if one is, is given an object literal. -/
def buildsHere (source : Text) : List Token → Bool
  | [] => true
  | p :: ts =>
    if p.MarksValue ∧ BuildsSchema ts then
      match schemaCall? source ts with
      | none => false
      | some call => (Token.first call.tail).kind = .opens .curly &&
          levelBehind? 0 ((behindPath ts).take ((behindPath ts).length - call.length)) = some 0
    else true

theorem buildsDirectly_of_tails {source : Text} {all : List Token}
    (h : all.tails.all (buildsHere source) = true) : BuildsDirectly source all := by
  intro p ts ⟨front, level, split, _⟩ marks builds
  have suffix : p :: ts <:+ all := split ▸ List.suffix_append front (p :: ts)
  have here := List.all_eq_true.1 h (p :: ts) ((List.mem_tails _ _).2 suffix)
  rw [buildsHere, if_pos ⟨marks, builds⟩] at here
  split at here
  · cases here
  · next call start =>
    simp only [Bool.and_eq_true, decide_eq_true_eq] at here
    obtain ⟨-, skip, -⟩ := schemaCall?_eq_some_iff.1 start
    have behind : call <:+ behindPath ts := (within_skipGenerics source _).suffix _ skip
    obtain ⟨generics, eq⟩ := behind
    have run : (behindPath ts).take ((behindPath ts).length - call.length) = generics := by
      rw [← eq, List.length_append, Nat.add_sub_cancel, List.take_left]
    rw [run] at here
    exact ⟨call, start, ⟨generics, eq.symm, here.2⟩, here.1⟩

section

variable {source : Text} {ts : List Token}

/-- From the first name of a path on, the search finds the call behind the path. -/
theorem findCall_path {path : Text} {n l : Token} {object : List Token} (name : n.kind = .name)
    (last : lastOfPath (n :: ts) = some ("Schema" : Text))
    (skip : skipGenerics source (namePath path ts).2 = .ok (l :: object))
    (opens : l.kind = .opens .round) (curly : (Token.first object).kind = .opens .curly) :
    findCall source (n :: ts) = .ok object := by
  fun_induction namePath path ts generalizing n with
  | case1 path d m rest on ih =>
    rw [lastOfPath_name name, if_pos (show (Token.first (d :: m :: rest)).kind = .dot from on.1),
      List.tail_cons, lastOfPath_name on.2] at last
    rw [findCall_past (by simp [name]) (by simp [on.1, Token.isOperator]),
      findCall_past (by simp [on.1]) (by simp [on.2, Token.isOperator])]
    refine ih on.2 ?_ skip
    rw [lastOfPath_name on.2]
    exact last
  | case2 path d m rest other =>
    have schema : n.value = "Schema" := by
      rw [lastOfPath_name name] at last
      split at last
      · next dot =>
        have none : lastOfPath (m :: rest) = none := lastOfPath_stop fun h => other ⟨dot, h⟩
        rw [List.tail_cons, none] at last
        exact Option.some.inj last
      · exact Option.some.inj last
    rw [findCall_word ⟨name, schema⟩, skip]
    exact (if_pos opens).trans (if_pos curly)
  | case3 path ts short =>
    -- Too few tokens are left for a call.
    have length := length_skipGenerics skip
    cases ts with
    | nil => cases length
    | cons d ts =>
      cases ts with
      | nil =>
        rw [List.length_cons, List.length_singleton] at length
        have none : object = [] := List.length_eq_zero_iff.1 (by omega)
        rw [none] at curly
        cases curly
      | cons m ts => exact absurd rfl (short d m ts)

theorem BuildsSchema.exists_cons (h : BuildsSchema ts) :
    ∃ t n rest, ts = t :: n :: rest ∧ t.kind = .name ∧ t.value = "new" ∧ n.kind = .name ∧
      lastOfPath (n :: rest) = some ("Schema" : Text) := by
  obtain ⟨kind, new, last⟩ := h
  cases ts with
  | nil => cases kind
  | cons t ts =>
    rw [List.tail_cons] at last
    have name : (Token.first ts).kind = .name := by
      refine Decidable.byContradiction fun other => ?_
      rw [lastOfPath_stop other] at last
      cases last
    cases ts with
    | nil => cases name
    | cons n rest => exact ⟨t, n, rest, rfl, kind, new, name, last⟩

theorem BuildsSchema.passes (h : BuildsSchema ts) : Passes ts (behindPath ts) := by
  obtain ⟨t, n, rest, rfl, kind, -, name, -⟩ := h.exists_cons
  exact ((Passes.flat (flat_name (.inl kind)) _).trans (.flat (flat_name (.inl name)) _)).trans
    (passes_namePath [] rest).1

theorem findSchemaObject_schemaCall {call : List Token} (h : schemaCall? source ts = some call)
    (curly : (Token.first call.tail).kind = .opens .curly) :
    findSchemaObject source ts = .ok call.tail := by
  obtain ⟨builds, skip, opens⟩ := schemaCall?_eq_some_iff.1 h
  obtain ⟨t, n, rest, rfl, kind, new, name, last⟩ := builds.exists_cons
  have word : ¬(t.kind = .name ∧ t.value = "Schema") := by
    rw [new]
    exact fun schema => absurd schema.2 (by decide)
  cases call with
  | nil => cases opens
  | cons l object =>
    rw [findSchemaObject, if_neg (by simp [Token.first, kind]), findCall_skip (by simp [kind]) word]
    exact findCall_path name last skip opens curly

end

/-! ### What the reader passes over -/

/-- A reader that took `ts` leaves the tokens `goal`, and the brackets up to there are balanced,
unless no tokens are left. -/
def Reaches (ts goal left : List Token) : Prop := left ≠ [] → Passes ts left ∧ left = goal

section

variable {source : Text} {ts start : List Token}

theorem yields_toDelimiter (last : Option Token) :
    Yields (fun found => Reaches ts (beyond 0 ts) found.2) (toDelimiter source 0 last ts) :=
  fun _ read more => ⟨passes_of_toDelimiter read more, eq_beyond_of_toDelimiter read⟩

theorem yields_readOpaque :
    Yields (fun read => Reaches ts (beyond 0 ts) read.2) (readOpaque source ts) := by
  refine (yields_toDelimiter none).seq fun (last, left) reaches => ?_
  cases last with
  | none => exact .error
  | some t => exact .ok reaches

theorem yields_end {v : Raw} (passes : Passes start ts) :
    Yields (fun read => Reaches start (if EndsValue ts then beyond 0 ts else beyond 0 start) read.2)
      (finish source start v ts) := by
  generalize goal : (if EndsValue ts then beyond 0 ts else beyond 0 start) = left
  rw [finish]
  dsimp only
  split
  · next ends =>
    rw [if_pos (.inl ends), beyond_of_delimited ends] at goal
    subst goal
    exact .ok fun _ => ⟨passes, rfl⟩
  next on =>
  split
  · next assertion =>
    rw [if_pos (.inr (.inl assertion))] at goal
    subst goal
    exact (yields_toDelimiter none).seq fun _ reaches => .ok fun more =>
      ⟨passes.trans (reaches more).1, (reaches more).2⟩
  next other =>
  split
  · next bang =>
    rw [if_pos (.inr (.inr bang))] at goal
    subst goal
    cases ts with
    | nil => exact absurd rfl on
    | cons t ts =>
      have kind : t.kind = .operator := kind_of_isOperator bang.1
      have flat : t.IsFlat := fun b => by simp [kind]
      refine .ok fun _ => ⟨passes.trans (.flat flat ts), ?_⟩
      rw [beyond_flat flat (by rw [kind]; rfl)]
      exact (beyond_of_delimited bang.2).symm
  · next no =>
    rw [if_neg (by rintro (h | h | h) <;> contradiction)] at goal
    subst goal
    exact yields_readOpaque.seq fun _ reaches => .ok reaches

theorem yields_readName_end {t : Token} (name : t.kind = .name) :
    Yields (fun read => Reaches (t :: ts) (beyond 0 (t :: ts)) read.2)
      (readName source (t :: ts)) := by
  have flat : t.IsFlat := flat_name (.inl name)
  obtain ⟨passes, same⟩ := passes_namePath t.value ts
  rw [readName]
  dsimp only
  split
  · next ends =>
    refine .ok fun _ => ⟨(Passes.flat flat ts).trans passes, ?_⟩
    rw [beyond_flat flat (by rw [name]; rfl), same]
    exact (beyond_of_delimited ends).symm
  · exact yields_readOpaque.seq fun _ reaches => .ok reaches

theorem beyondValue_plain (plain : ¬BuildsSchema ts) : beyondValue source ts = beyond 0 ts := by
  rw [beyondValue, schemaCall?, if_neg plain]
  rfl

theorem yields_finish_plain {v : Raw} (plain : ¬BuildsSchema start) (passes : Passes start ts)
    (same : beyond 0 start = beyond 0 ts) :
    Yields (fun read => Reaches start (beyondValue source start) read.2)
      (finish source start v ts) := by
  have ends : Yields
      (fun read => Reaches start (if EndsValue ts then beyond 0 ts else beyond 0 start) read.2)
      (finish source start v ts) := yields_end passes
  rw [beyondValue_plain plain]
  rw [same] at ends ⊢
  rw [ite_self] at ends
  exact ends

theorem yields_closeSchema (first : Token) (read : Entries Raw × List Token) :
    Yields (fun closed => Closes read.2 closed.2) (closeSchema source first read) := by
  have close {after : List Token} (passes : after ≠ [] → Passes read.2 after) :
      Yields (fun closed : Raw × List Token => Closes read.2 closed.2)
        (if (Token.first after).kind = .closes .round then .ok (.object read.1, after.tail)
          else .error (errorAt source .expectedCloseOfSchema first)) := by
    split
    · next closes =>
      cases after with
      | nil => cases closes
      | cons r left => exact .ok ((Closes.here closes left).behind (passes (List.cons_ne_nil r left)))
    · exact .error
  rw [closeSchema]
  split
  · next comma =>
    obtain ⟨entries, left⟩ := read
    cases left with
    | nil => cases comma
    | cons c left =>
      have kind : c.kind = .comma := comma
      have flat : c.IsFlat := fun b => by simp [kind]
      have options : Yields (fun after => after ≠ [] → Passes (c :: left) after)
          (toDelimiter source 0 none left >>= fun found => .ok found.2) :=
        (yields_toDelimiter none).seq fun found reaches => .ok fun more =>
          (Passes.flat flat left).trans (reaches more).1
      exact options.seq fun after => close
  · exact close fun _ => .refl _

end

/-! ### The keys that the reader collects -/

theorem dedup_concat (names : List Text) (name : Text) :
    (names ++ [name]).dedup = names.dedup.filter (· ≠ name) ++ [name] := by
  induction names with
  | nil => simp
  | cons a names ih =>
    by_cases later : a ∈ names
    · rw [List.cons_append, List.dedup_cons_of_mem (List.mem_append_left _ later),
        List.dedup_cons_of_mem later, ih]
    by_cases same : a = name
    · rw [List.cons_append, List.dedup_cons_of_mem (by simp [same]), List.dedup_cons_of_notMem later,
        ih, List.filter_cons_of_neg (by simp [same])]
    · rw [List.cons_append, List.dedup_cons_of_notMem (by simp [later, same]),
        List.dedup_cons_of_notMem later, ih, List.filter_cons_of_pos (by simp [same]),
        List.cons_append]

/-- The keys are those names, each where it stands last. -/
def Lists (names : List Text) (entries : Entries Raw) : Prop := Entries.keys entries = names.dedup

theorem Lists.move {names : List Text} {entries : Entries Raw} (h : Lists names entries)
    (name : Text) (v : Raw) : Lists (names ++ [name]) (entries.move name v) := by
  rw [Lists, Entries.keys_move, h]
  exact (dedup_concat names name).symm

/-- What is known of an entry at the start of `ts` that was read behind the entries `before`. -/
structure EntryRead (source : Text) (before : Entries Raw) (ts : List Token)
    (read : Entries Raw × List Token) : Prop where
  reaches : read.2 ≠ [] → Passes ts read.2 ∧ beyondEntry source ts = beyond 0 read.2
  lists : ∀ names, Lists names before → Lists (names ++ (entryName? ts).toList) read.1

namespace EntryRead

variable {source : Text} {before : Entries Raw} {ts value left : List Token}

/-- An entry that declares no property. -/
theorem skipped (none : entryName? ts = none)
    (reaches : left ≠ [] → Passes ts left ∧ beyondEntry source ts = beyond 0 left) :
    EntryRead source before ts (before, left) := by
  refine ⟨reaches, fun names lists => ?_⟩
  rw [none, Option.toList_none, List.append_nil]
  exact lists

theorem moved {name : Text} {v : Raw} (some : entryName? ts = some name)
    (reaches : left ≠ [] → Passes ts left ∧ beyondEntry source ts = beyond 0 left) :
    EntryRead source before ts (before.move name v, left) := by
  refine ⟨reaches, fun names lists => ?_⟩
  rw [some, Option.toList_some]
  exact lists.move name v

/-- An entry with a value ends where the value does. -/
theorem reaches_value (given : valueOf? ts = some value) (passes : Passes ts value)
    (h : Reaches value (beyondValue source value) left) (more : left ≠ []) :
    Passes ts left ∧ beyondEntry source ts = beyond 0 left := by
  obtain ⟨behind, goal⟩ := h more
  have ends : Delimited left := goal ▸ delimited_beyondValue value
  refine ⟨passes.trans behind, ?_⟩
  rw [beyondEntry, given]
  exact goal.symm.trans (beyond_of_delimited ends).symm

end EntryRead

/-- What the readers do at a place inside of the literal. -/
structure ReadsBalanced (source : Text) (all : List Token) (fuel : Nat) : Prop where
  value : ∀ {p ts}, Inside all (p :: ts) → p.MarksValue →
    Yields (fun read => Reaches ts (beyondValue source ts) read.2)
      (readValue source fuel ts).outcome
  nested : ∀ {p ts}, Inside all (p :: ts) → p.MarksValue → BuildsSchema ts →
    Yields (fun read => Passes ts read.2 ∧ ∃ call r,
        schemaCall? source ts = some call ∧ closer? 0 call = some (r, read.2))
      (readNestedSchema source fuel ts).outcome
  entries : ∀ {before ts}, Inside all ts →
    Yields (fun read => Closes ts read.2 ∧
        ∀ names, Lists names before → Lists (names ++ propertyNames source ts) read.1)
      (readEntries source fuel before ts).outcome
  entry : ∀ {before ts}, Inside all ts →
    Yields (EntryRead source before ts) (readEntry source fuel before ts).outcome
  items : ∀ {p ts}, Inside all (p :: ts) → p.MarksValue →
    Yields (fun read => Closes ts read.2) (readItems source fuel ts).outcome

section

variable {source : Text} {all : List Token}

theorem ReadsBalanced.zero : ReadsBalanced source all 0 where
  value _ _ := by rw [readValue]; exact .error
  nested _ _ _ := by rw [readNestedSchema]; exact .error
  entries _ := by rw [readEntries]; exact .error
  entry _ := by rw [readEntry]; exact .error
  items _ _ := by rw [readItems]; exact .error

variable {fuel : Nat} (ih : ReadsBalanced source all fuel)

include ih

theorem ReadsBalanced.value_succ {p : Token} {ts : List Token} (inside : Inside all (p :: ts))
    (marks : p.MarksValue) :
    Yields (fun read => Reaches ts (beyondValue source ts) read.2)
      (readValue source (fuel + 1) ts).outcome := by
  cases ts with
  | nil =>
    rw [readValue]
    exact .error
  | cons t rest =>
    have here : Inside all (t :: rest) := marks.inside inside
    have plain (h : t.kind ≠ .name) : ¬BuildsSchema (t :: rest) := fun builds => h builds.1
    have other (h : t.kind ≠ .opens .curly ∧ t.kind ≠ .opens .square ∧ t.kind ≠ .string ∧
        t.kind ≠ .number ∧ t.kind ≠ .name) :
        Yields (fun read => Reaches (t :: rest) (beyondValue source (t :: rest)) read.2)
          (readValue source (fuel + 1) (t :: rest)).outcome := by
      rw [readValue_other h]
      split
      · next minus =>
        have flat : t.IsFlat := fun b => by simp [kind_of_isOperator minus.1]
        cases rest with
        | nil => cases minus.2
        | cons n rest =>
          have number : n.kind = .number := minus.2
          have flat' : n.IsFlat := fun b => by simp [number]
          refine .skip fun v => yields_finish_plain (plain h.2.2.2.2)
            ((Passes.flat flat _).trans (.flat flat' rest)) ?_
          rw [beyond_flat flat (by rw [kind_of_isOperator minus.1]; rfl),
            beyond_flat flat' (by rw [number]; rfl)]
          rfl
      · rw [beyondValue_plain (plain h.2.2.2.2)]
        exact yields_readOpaque.seq fun _ reaches => .ok reaches
    cases kind : t.kind with
    | opens b =>
      cases b with
      | curly =>
        rw [readValue_object kind]
        refine (ih.entries (here.opens kind)).seq fun read closed => ?_
        obtain ⟨closes, -⟩ := closed
        exact yields_finish_plain (plain (by simp [kind])) (closes.group kind)
          (beyond_group kind closes)
      | square =>
        rw [readValue_list kind]
        refine (ih.items here (.inr (.inr kind))).seq fun read closes => ?_
        exact yields_finish_plain (plain (by simp [kind])) (closes.group kind)
          (beyond_group kind closes)
      | round => exact other (by simp [kind])
    | string =>
      rw [readValue_string kind]
      have flat : t.IsFlat := fun b => by simp [kind]
      exact yields_finish_plain (plain (by simp [kind])) (.flat flat rest)
        (beyond_flat flat (by rw [kind]; rfl))
    | number =>
      rw [readValue_number kind]
      have flat : t.IsFlat := fun b => by simp [kind]
      exact .skip fun v => yields_finish_plain (plain (by simp [kind])) (.flat flat rest)
        (beyond_flat flat (by rw [kind]; rfl))
    | name =>
      rw [readValue_name kind]
      split
      · next new =>
        have builds : BuildsSchema (t :: rest) := ⟨kind, new⟩
        refine (ih.nested inside marks builds).seq fun read built => ?_
        obtain ⟨passes, call, r, start, close⟩ := built
        have goal : beyondValue source (t :: rest) =
            if EndsValue read.2 then beyond 0 read.2 else beyond 0 (t :: rest) := by
          rw [beyondValue, start, Option.bind_some, close]
        rw [goal]
        exact yields_end passes
      · next new =>
        have plain : ¬BuildsSchema (t :: rest) := fun builds => new builds.2
        rw [beyondValue_plain plain]
        exact yields_readName_end kind
    | _ => exact other (by simp [kind])

theorem ReadsBalanced.nested_succ (direct : BuildsDirectly source all) {p : Token}
    {ts : List Token} (inside : Inside all (p :: ts)) (marks : p.MarksValue)
    (builds : BuildsSchema ts) :
    Yields (fun read => Passes ts read.2 ∧ ∃ call r,
        schemaCall? source ts = some call ∧ closer? 0 call = some (r, read.2))
      (readNestedSchema source (fuel + 1) ts).outcome := by
  obtain ⟨call, start, arguments, curly⟩ := direct p ts inside marks builds
  obtain ⟨-, -, opens⟩ := schemaCall?_eq_some_iff.1 start
  have path : Passes ts call := builds.passes.trans arguments
  have here : Inside all call := (marks.inside inside).passes path
  rw [readNestedSchema_eq, findSchemaObject_schemaCall start curly, ok_bind]
  cases call with
  | nil => cases opens
  | cons l object =>
    cases object with
    | nil => cases curly
    | cons o entries =>
      refine (ih.entries ((here.opens opens).opens curly)).seq fun read ⟨within, _⟩ => ?_
      refine (yields_closeSchema _ read).mono fun closed behind => ?_
      have closes := behind.behind (within.group curly)
      obtain ⟨r, close⟩ := closer?_group opens closes
      exact ⟨path.trans (closes.group opens), _, r, start, close⟩

theorem ReadsBalanced.items_succ {p : Token} {ts : List Token} (inside : Inside all (p :: ts))
    (marks : p.MarksValue) :
    Yields (fun read => Closes ts read.2) (readItems source (fuel + 1) ts).outcome := by
  cases ts with
  | nil =>
    rw [readItems]
    exact .error
  | cons t rest =>
    have here : Inside all (t :: rest) := marks.inside inside
    rw [readItems_cons]
    split
    · next closes => exact .ok (.here closes rest)
    split
    · next comma =>
      have flat : t.IsFlat := fun b => by simp [comma]
      exact (ih.items here (.inr (.inl comma))).mono fun _ closes => closes.behind (.flat flat rest)
    · refine (ih.value inside marks).seq fun read reaches => ?_
      rw [moreItems]
      obtain ⟨v, left⟩ := read
      cases left with
      | nil => exact .error
      | cons c left =>
        obtain ⟨passes, -⟩ := reaches (List.cons_ne_nil c left)
        dsimp only
        split
        · next comma =>
          have comma : c.kind = .comma := comma
          have flat : c.IsFlat := fun b => by simp [comma]
          exact (ih.items (here.passes passes) (.inr (.inl comma))).seq fun _ closes =>
            .ok (closes.behind (passes.trans (.flat flat left)))
        split
        · next closes => exact .ok ((Closes.here closes left).behind passes)
        · exact .error

theorem ReadsBalanced.entries_succ {before : Entries Raw} {ts : List Token}
    (inside : Inside all ts) :
    Yields (fun read => Closes ts read.2 ∧
        ∀ names, Lists names before → Lists (names ++ propertyNames source ts) read.1)
      (readEntries source (fuel + 1) before ts).outcome := by
  cases ts with
  | nil =>
    rw [readEntries]
    exact .error
  | cons t rest =>
    rw [readEntries_cons]
    split
    · next closes =>
      refine .ok ⟨.here closes rest, fun names lists => ?_⟩
      rw [propertyNames_closed closes, List.append_nil]
      exact lists
    · refine (ih.entry inside).seq fun read entry => ?_
      rw [moreEntries]
      obtain ⟨entries, left⟩ := read
      cases left with
      | nil => exact .error
      | cons c left =>
        obtain ⟨passes, behind⟩ := entry.reaches (List.cons_ne_nil c left)
        have lists := entry.lists
        dsimp only at passes behind lists ⊢
        split
        · next comma =>
          have comma : c.kind = .comma := comma
          have flat : c.IsFlat := fun b => by simp [comma]
          rw [beyond_of_delimited (delimited_cons (by rw [comma]; rfl))] at behind
          refine (ih.entries ((inside.passes passes).flat flat)).mono fun more closed => ?_
          obtain ⟨closes, others⟩ := closed
          refine ⟨closes.behind (passes.trans (.flat flat left)), fun names known => ?_⟩
          rw [propertyNames_comma behind comma, ← List.append_assoc]
          exact others _ (lists names known)
        split
        · next closes =>
          have closes : c.kind = .closes .curly := closes
          rw [beyond_of_delimited (delimited_cons (by rw [closes]; rfl))] at behind
          refine .ok ⟨(Closes.here closes left).behind passes, fun names known => ?_⟩
          rw [propertyNames_last (by simp [behind, Token.first, closes])]
          exact lists names known
        · exact .error

/-- A computed key and its value. -/
theorem ReadsBalanced.computed {before : Entries Raw} {t : Token} {ts : List Token}
    (inside : Inside all (t :: ts)) (square : t.kind = .opens .square) :
    Yields (EntryRead source before (t :: ts))
      (findCloser source (t :: ts) >>= skipComputed source fuel before) := by
  cases search : findCloser source (t :: ts) with
  | error e => exact .error
  | ok found =>
    obtain ⟨closes, closer⟩ := closes_of_findCloser square search
    have passes := closes.group square
    rw [ok_bind, skipComputed]
    split
    · next colon =>
      obtain ⟨close, behind⟩ := found
      cases behind with
      | nil => cases colon
      | cons c value =>
        have kind : c.kind = .colon := colon
        have flat : c.IsFlat := fun b => by simp [kind]
        have given : valueOf? (t :: ts) = some value := by
          rw [valueOf?, if_pos square, closer]
          exact if_pos kind
        have none : entryName? (t :: ts) = none := by simp [entryName?, square]
        exact (ih.value (inside.passes passes) (.inl kind)).seq fun _ reaches => .ok <| .skipped none <|
          EntryRead.reaches_value given (passes.trans (.flat flat value)) reaches
    · exact .error

omit ih in
/-- A method is passed over with its arguments and its block. -/
theorem yields_skipMethod {before : Entries Raw} {t : Token} {ts : List Token} (flat : t.IsFlat)
    (none : entryName? (t :: ts) = none) (plain : beyondEntry source (t :: ts) = beyond 0 ts)
    (opens : (Token.first ts).kind = .opens .round) :
    Yields (EntryRead source before (t :: ts)) (findCloser source ts >>= skipMethod source before) := by
  have group {us : List Token} {b : Bracket} {found : Token × List Token}
      (passes : Passes (t :: ts) us) (behind : beyond 0 ts = beyond 0 us)
      (opens : (Token.first us).kind = .opens b) (search : findCloser source us = .ok found) :
      Passes (t :: ts) found.2 ∧ beyond 0 ts = beyond 0 found.2 := by
    cases us with
    | nil => cases opens
    | cons l us =>
      obtain ⟨closes, -⟩ := closes_of_findCloser opens search
      exact ⟨passes.trans (closes.group opens), behind.trans (beyond_group opens closes)⟩
  cases arguments : findCloser source ts with
  | error e => exact .error
  | ok found =>
    obtain ⟨passes, behind⟩ := group (.flat flat ts) rfl opens arguments
    rw [ok_bind, skipMethod]
    split
    · next curly =>
      cases block : findCloser source found.2 with
      | error e => exact .error
      | ok found' =>
        obtain ⟨passes', behind'⟩ := group passes behind curly block
        exact .ok (.skipped none fun _ => ⟨passes', plain.trans behind'⟩)
    · exact .ok (.skipped none fun _ => ⟨passes, plain.trans behind⟩)

theorem ReadsBalanced.entry_succ {before : Entries Raw} {ts : List Token} (inside : Inside all ts) :
    Yields (EntryRead source before ts) (readEntry source (fuel + 1) before ts).outcome := by
  cases ts with
  | nil =>
    rw [readEntry]
    exact .error
  | cons t rest =>
    rw [readEntry_cons]
    split
    · next spread =>
      have kind := kind_of_isOperator spread
      have flat : t.IsFlat := fun b => by simp [kind]
      refine yields_readOpaque.seq fun read reaches => .ok (.skipped (by simp [entryName?, kind]) ?_)
      intro more
      obtain ⟨passes, goal⟩ := reaches more
      have ends : Delimited read.2 := goal ▸ delimited_beyond 0 rest
      refine ⟨(Passes.flat flat rest).trans passes, ?_⟩
      rw [beyondEntry_plain (by simp [valueOf?, kind]), beyond_flat flat (by rw [kind]; rfl)]
      exact goal.symm.trans (beyond_of_delimited ends).symm
    split
    · next square => exact ih.computed inside square
    next notSquare =>
    split
    · next key =>
      have flat : t.IsFlat := fun b => by rcases key with h | h | h <;> simp [h]
      have on : t.kind.isDelimiter = false := by rcases key with h | h | h <;> rw [h] <;> rfl
      split
      · next colon =>
        cases rest with
        | nil => cases colon
        | cons c value =>
          have kind : c.kind = .colon := colon
          have flat' : c.IsFlat := fun b => by simp [kind]
          have given : valueOf? (t :: c :: value) = some value := by
            rw [valueOf?, if_neg notSquare]
            exact if_pos ⟨key, kind⟩
          have name : entryName? (t :: c :: value) = some t.value := if_pos (.inl ⟨key, kind⟩)
          have passes : Passes (t :: c :: value) value := (Passes.flat flat _).trans (.flat flat' value)
          exact (ih.value (inside.flat flat) (.inl kind)).seq fun _ reaches => .ok <| .moved name <|
            EntryRead.reaches_value given passes reaches
      next notColon =>
      have plain : beyondEntry source (t :: rest) = beyond 0 rest := by
        rw [beyondEntry_plain, beyond_flat flat on]
        rw [valueOf?, if_neg notSquare, if_neg fun h => notColon h.2]
      split
      · next round =>
        exact yields_skipMethod flat (by simp [entryName?, round, TokenKind.isDelimiter]) plain round
      split
      · next short => exact .ok (.moved (if_pos (.inr short)) fun _ => ⟨.flat flat rest, plain⟩)
      · exact .error
    · exact .error

omit ih

theorem readsBalanced (direct : BuildsDirectly source all) (fuel : Nat) :
    ReadsBalanced source all fuel := by
  induction fuel with
  | zero => exact .zero
  | succ fuel ih =>
    exact ⟨ih.value_succ, ih.nested_succ direct, ih.entries_succ, ih.entry_succ, ih.items_succ⟩

end

/-- The tokens behind the brace of the object literal that the reader finds in a text. -/
def literal? (text : Text) : Option (List Token) := do
  let ts ← (tokenize text).toOption
  let object ← (findSchemaObject text ts).toOption
  pure object.tail

/-- The keys of the fields that a declaration is read as are the names that its literal gives to its
properties, each where it stands last, provided that every schema which is built as a value in it is
given an object literal at once. -/
theorem keys_read {text : Text} {fields : Entries Literal} (h : (read text).outcome = .ok fields) :
    ∃ body, literal? text = some body ∧
      (BuildsDirectly text body → Entries.keys fields = (propertyNames text body).dedup) := by
  rw [outcome_read, map_eq_ok] at h
  obtain ⟨entries, h, rfl⟩ := h
  rw [readRaw] at h
  split at h
  · cases h
  · next ts tokens =>
    rw [ofTokens_eq] at h
    obtain ⟨object, found, rest⟩ := bind_eq_ok.1 h
    obtain ⟨read, collected, eq⟩ := bind_eq_ok.1 rest
    cases eq
    refine ⟨object.tail, by rw [literal?, tokens]; simp [Except.toOption, found], fun direct => ?_⟩
    have lists := ((readsBalanced direct _).entries (.refl object.tail) read collected).2 [] rfl
    rw [Raw.quoteFields_eq_map, Entries.keys, List.map_map]
    exact lists

/-- A literal with a schema in a list, a name that is given twice, a method and a shorthand. -/
def listedText : Text :=
  "new Schema(\x7b a: String, b: [new Schema<B, C>(\x7b x: Date \x7d, \x7b\x7d)], 'a': f(1, 2), g() \x7b\x7d, on \x7d)"

theorem keys_read_listed : ∃ fields body, (read listedText).outcome = .ok fields ∧
    literal? listedText = some body ∧ BuildsDirectly listedText body ∧
    Entries.keys fields = (propertyNames listedText body).dedup ∧
    Entries.keys fields = ["b", "a", "on"] := by
  have reads : (read listedText).outcome.toOption.map Entries.keys =
      some [("b" : Text), ("a" : Text), ("on" : Text)] := by decide +kernel
  obtain ⟨fields, reads, keys⟩ := Option.map_eq_some_iff.1 reads
  obtain ⟨body, literal, names⟩ := keys_read (ok_of_toOption reads)
  have here : (literal? listedText).all (·.tails.all (buildsHere listedText)) = true := by
    decide +kernel
  rw [literal] at here
  have direct : BuildsDirectly listedText body := buildsDirectly_of_tails here
  exact ⟨fields, body, ok_of_toOption reads, literal, direct, names direct, keys⟩

/-- A text is read with other keys than the names that its literal gives to its properties. -/
def LosesNames (text : Text) : Prop :=
  ∃ fields body, (read text).outcome = .ok fields ∧ literal? text = some body ∧
    Entries.keys fields ≠ (propertyNames text body).dedup

/-- A schema that is built without an object literal is taken for the next one that is built with
one, and what stands between them is lost. -/
theorem losesNames_based :
    LosesNames "\x7b a: new Schema(base), b: new Schema(\x7b c: String \x7d) \x7d" := by
  let text : Text := "\x7b a: new Schema(base), b: new Schema(\x7b c: String \x7d) \x7d"
  have facts : (read text).outcome.toOption.map Entries.keys = some [("a" : Text)] ∧
      (literal? text).map (fun body => (propertyNames text body).dedup) =
        some [("a" : Text), ("b" : Text)] := by decide +kernel
  simp only [Option.map_eq_some_iff] at facts
  obtain ⟨⟨fields, reads, keys⟩, body, literal, names⟩ := facts
  refine ⟨fields, body, ok_of_toOption reads, literal, ?_⟩
  rw [keys, names]
  decide

end Declaration

end SchemaTypings
