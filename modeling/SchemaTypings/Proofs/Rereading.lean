import SchemaTypings.Proofs.MovedTokens

/-!
The lenient reader on tokens that have moved. What it reads in front of a closing bracket, it reads
wherever those tokens stand and whatever follows the bracket.
-/

namespace SchemaTypings

namespace Declaration

variable {source source' : Text} {n : Nat} {all rest rest' : List Token}

/-! ### Behind the declaration -/

theorem IsOver.delimited {ts : List Token} (h : IsOver ts) : Delimited ts := by
  rcases h with h | h <;> rw [Delimited, h] <;> rfl

theorem IsOver.ne {ts : List Token} (h : IsOver ts) {k : TokenKind}
    (hk : k ≠ .semicolon ∧ k ≠ .eof) : (Token.first ts).kind ≠ k := by
  rintro rfl
  exact h.elim hk.1 hk.2

theorem IsOver.finish {ts : List Token} (h : IsOver ts) {start : List Token} {v w : Raw}
    {vs : List Token} (read : Declaration.finish source start v ts = .ok (w, vs)) : vs <:+ ts := by
  rw [finish_of_delimited start v h.delimited] at read
  cases read
  exact List.suffix_refl ts

theorem IsOver.closeSchema {ts : List Token} (h : IsOver ts) {start : Token} {entries : Entries Raw}
    {v : Raw} {vs : List Token}
    (read : Declaration.closeSchema source start (entries, ts) = .ok (v, vs)) : vs <:+ ts := by
  rw [Declaration.closeSchema, if_neg (h.ne (by simp)), ok_bind] at read
  dsimp only at read
  rw [if_neg (h.ne (by simp))] at read
  cases read

theorem IsOver.skipComputed {ts : List Token} (h : IsOver ts) {fuel : Nat}
    {before entries : Entries Raw} {close : Token} {vs : List Token}
    (read : Declaration.skipComputed source fuel before (close, ts) = .ok (entries, vs)) :
    vs <:+ ts := by
  rw [Declaration.skipComputed, if_neg (h.ne (by simp))] at read
  cases read

theorem IsOver.skipMethod {ts : List Token} (h : IsOver ts) {before entries : Entries Raw}
    {close : Token} {vs : List Token}
    (read : Declaration.skipMethod source before (close, ts) = .ok (entries, vs)) : vs <:+ ts := by
  rw [Declaration.skipMethod, if_neg (h.ne (by simp))] at read
  cases read
  exact List.suffix_refl ts

/-! ### Ends of schemas and methods -/

theorem Moved.closeSchema (m : Moved source source' n all rest rest') (start start' : Token)
    (entries : Entries Raw) (ts : List Token) :
    Agrees n rest rest' id (Declaration.closeSchema source start (entries, ts ++ rest))
      (Declaration.closeSchema source' start' (entries, ts.map (·.later n) ++ rest')) := by
  have close (vs : List Token) : Agrees n rest rest' id
      (if (Token.first (vs ++ rest)).kind = .closes .round then
          .ok (Raw.object entries, (vs ++ rest).tail)
        else .error (errorAt source .expectedCloseOfSchema start))
      (if (Token.first (vs.map (·.later n) ++ rest')).kind = .closes .round then
        .ok (Raw.object entries, (vs.map (·.later n) ++ rest').tail)
        else .error (errorAt source' .expectedCloseOfSchema start')) := by
    rw [m.kind_first]
    split
    · cases vs with
      | nil => exact .past m
      | cons v vs => exact .ok vs
    · exact .of_error rfl
  rw [Declaration.closeSchema, Declaration.closeSchema]
  dsimp only
  rw [m.kind_first]
  split
  · next comma =>
    cases ts with
    | nil => exact absurd comma (m.ne (by simp))
    | cons c ts =>
      rw [List.map_cons, List.cons_append, List.cons_append, List.tail_cons, List.tail_cons]
      cases skipped : Declaration.toDelimiter source 0 none (ts ++ rest) with
      | error e => exact .of_error rfl
      | ok found =>
        obtain ⟨last, after⟩ := found
        rcases m.left ((within_toDelimiter source _ _ _).suffix _ skipped) with ⟨vs, eq, -⟩ | past
        · dsimp only at eq
          rw [eq] at skipped ⊢
          have moved := (m.toDelimiter skipped).1
          rw [Option.map_none] at moved
          rw [moved]
          exact close vs
        · exact .of_error (if_neg ((m.isOver _ past).ne (by simp)))
  · exact close ts

theorem Moved.skipMethod (m : Moved source source' n all rest rest') (before : Entries Raw)
    (close : Token) (ts : List Token) :
    Agrees n rest rest' id (Declaration.skipMethod source before (close, ts ++ rest))
      (Declaration.skipMethod source' before (close.later n, ts.map (·.later n) ++ rest')) := by
  rw [Declaration.skipMethod, Declaration.skipMethod]
  dsimp only
  rw [m.kind_first]
  split
  · exact (m.findCloser ts).map (p := fun _ => before) (q := fun _ => before) fun _ => rfl
  · exact .ok ts

/-! ### The readers -/

/-- What one source is read as within `fuel` steps in front of `rest`, the other is read as within
at least as many in front of `rest'`. -/
structure ReadsMoved (source source' : Text) (n : Nat) (all rest rest' : List Token)
    (fuel : Nat) : Prop where
  value {fuel' : Nat} (hf : fuel ≤ fuel') {us : List Token} (part : us <:+ all) :
    Agrees n rest rest' id (readValue source fuel (us ++ rest)).outcome
      (readValue source' fuel' (us.map (·.later n) ++ rest')).outcome
  nested {fuel' : Nat} (hf : fuel ≤ fuel') {us : List Token} (part : us <:+ all) :
    Agrees n rest rest' id (readNestedSchema source fuel (us ++ rest)).outcome
      (readNestedSchema source' fuel' (us.map (·.later n) ++ rest')).outcome
  entries {fuel' : Nat} (hf : fuel ≤ fuel') (before : Entries Raw) {us : List Token}
    (part : us <:+ all) :
    Agrees n rest rest' id (readEntries source fuel before (us ++ rest)).outcome
      (readEntries source' fuel' before (us.map (·.later n) ++ rest')).outcome
  entry {fuel' : Nat} (hf : fuel ≤ fuel') (before : Entries Raw) {us : List Token}
    (part : us <:+ all) :
    Agrees n rest rest' id (readEntry source fuel before (us ++ rest)).outcome
      (readEntry source' fuel' before (us.map (·.later n) ++ rest')).outcome
  items {fuel' : Nat} (hf : fuel ≤ fuel') {us : List Token} (part : us <:+ all) :
    Agrees n rest rest' id (readItems source fuel (us ++ rest)).outcome
      (readItems source' fuel' (us.map (·.later n) ++ rest')).outcome

theorem ReadsMoved.zero : ReadsMoved source source' n all rest rest' 0 where
  value _ _ _ := .of_error (by rw [readValue]; rfl)
  nested _ _ _ := .of_error (by rw [readNestedSchema]; rfl)
  entries _ _ _ _ := .of_error (by rw [readEntries]; rfl)
  entry _ _ _ _ := .of_error (by rw [readEntry]; rfl)
  items _ _ _ := .of_error (by rw [readItems]; rfl)

namespace ReadsMoved

variable {fuel : Nat}

theorem value_succ (m : Moved source source' n all rest rest')
    (ih : ReadsMoved source source' n all rest rest' fuel) {fuel' : Nat} (hf : fuel + 1 ≤ fuel')
    {us : List Token} (part : us <:+ all) :
    Agrees n rest rest' id (readValue source (fuel + 1) (us ++ rest)).outcome
      (readValue source' fuel' (us.map (·.later n) ++ rest')).outcome := by
  obtain ⟨fuel', rfl⟩ : ∃ k, fuel' = k + 1 := ⟨fuel' - 1, by omega⟩
  have text := (m.readOpaque part).map (k := id) (p := Raw.text) (q := Raw.text) fun _ => rfl
  cases us with
  | nil =>
    obtain ⟨b, c, more, rfl, closes⟩ := m.exists_cons
    obtain ⟨b', c', more', rfl, closes'⟩ := m.exists_cons'
    rw [List.map_nil, List.nil_append, List.nil_append] at text ⊢
    rw [readValue_other (by simp [closes]), if_neg (by simp [Token.isOperator, closes]),
      readValue_other (by simp [closes']), if_neg (by simp [Token.isOperator, closes'])]
    exact text
  | cons t us =>
    have tail := List.suffix_cons t us
    have done := m.finish part
    have same := m.kind_first us
    rw [List.map_cons, List.cons_append, List.cons_append] at text ⊢
    have value (x : Except ReadError Literal) {k k' : Literal → Except ReadError (Raw × List Token)}
        (h : ∀ v, Agrees n rest rest' id (k v) (k' v)) :
        Agrees n rest rest' id (x >>= k) (x >>= k') := by
      cases x with
      | error e => exact .of_error rfl
      | ok v => exact h v
    have other (h : t.kind ≠ .opens .curly ∧ t.kind ≠ .opens .square ∧ t.kind ≠ .string ∧
        t.kind ≠ .number ∧ t.kind ≠ .name) : Agrees n rest rest' id
          (readValue source (fuel + 1) (t :: (us ++ rest))).outcome
          (readValue source' (fuel' + 1) (t.later n :: (us.map (·.later n) ++ rest'))).outcome := by
      rw [readValue_other h, readValue_other (t := t.later n) h, same]
      split
      · next minus =>
        refine Agrees.of_eq (if_pos minus) ?_
        cases us with
        | nil => exact absurd minus.2 (m.ne (by simp))
        | cons v us => exact value (Declaration.number v) fun w => done (rawNumber w.negated) us
      · next plain =>
        refine Agrees.of_eq (if_neg plain) ?_
        exact text
    cases kind : t.kind with
    | string =>
      rw [readValue_string kind, readValue_string (t := t.later n) kind]
      exact done _ us
    | opens b =>
      cases b with
      | curly =>
        rw [readValue_object kind, readValue_object (t := t.later n) kind]
        exact Agrees.bind m (ih.entries (by omega) [] (tail.trans part))
          ((readsWithin fuel).entries [] _) (fun _ _ h _ _ => h.finish) fun v ts _ => done _ ts
      | square =>
        rw [readValue_list kind, readValue_list (t := t.later n) kind]
        exact Agrees.bind m (ih.items (by omega) (tail.trans part))
          ((readsWithin fuel).items _) (fun _ _ h _ _ => h.finish) fun v ts _ => done _ ts
      | round => exact other (by simp [kind])
    | number =>
      rw [readValue_number kind, readValue_number (t := t.later n) kind]
      exact value (Declaration.number t) fun v => done (rawNumber v) us
    | name =>
      rw [readValue_name kind, readValue_name (t := t.later n) kind, m.lastOfPath us]
      split
      · next nested =>
        refine Agrees.of_eq (if_pos nested) ?_
        have within : Within source (t :: us ++ rest) Prod.snd
            (readNestedSchema source fuel (t :: (us ++ rest))).outcome :=
          (readsWithin fuel).nested _
        exact Agrees.bind m (ih.nested (by omega) part) within
          (fun _ _ h _ _ => h.finish) fun v ts _ => done v ts
      · next plain =>
        refine Agrees.of_eq (if_neg plain) ?_
        exact m.readName part
    | _ => exact other (by simp [kind])

theorem entries_succ (m : Moved source source' n all rest rest')
    (ih : ReadsMoved source source' n all rest rest' fuel) {fuel' : Nat} (hf : fuel + 1 ≤ fuel')
    (before : Entries Raw) {us : List Token} (part : us <:+ all) :
    Agrees n rest rest' id (readEntries source (fuel + 1) before (us ++ rest)).outcome
      (readEntries source' fuel' before (us.map (·.later n) ++ rest')).outcome := by
  obtain ⟨fuel', rfl⟩ : ∃ k, fuel' = k + 1 := ⟨fuel' - 1, by omega⟩
  have go : Agrees n rest rest' id
      ((readEntry source fuel before (us ++ rest)).outcome >>= moreEntries source fuel)
      ((readEntry source' fuel' before (us.map (·.later n) ++ rest')).outcome >>=
        moreEntries source' fuel') := by
    refine Agrees.bind m (ih.entry (by omega) before part) ((readsWithin fuel).entry before _)
      (fun entries ts h b vs read => ?_) fun entries ts left => ?_
    · rw [moreEntries, if_neg (h.ne (by simp)), if_neg (h.ne (by simp))] at read
      cases read
    · have same := m.kind_first ts
      rw [moreEntries, moreEntries]
      dsimp only
      rw [same]
      split
      · next comma =>
        cases ts with
        | nil => exact absurd comma (m.ne (by simp))
        | cons d ts =>
          exact ih.entries (by omega) entries (((List.suffix_cons d ts).trans left).trans part)
      split
      · cases ts with
        | nil => exact .past m
        | cons d ts => exact .ok ts
      · exact .of_error rfl
  cases us with
  | nil =>
    obtain ⟨b, c, more, rfl, closes⟩ := m.exists_cons
    obtain ⟨b', c', more', rfl, closes'⟩ := m.exists_cons'
    rw [List.map_nil, List.nil_append, List.nil_append] at go ⊢
    have alike : c'.kind = c.kind := m.alike
    rw [readEntries_cons, readEntries_cons, alike]
    split
    · exact .past m
    · exact go
  | cons t us =>
    rw [List.map_cons, List.cons_append, List.cons_append] at go ⊢
    rw [readEntries_cons, readEntries_cons]
    split
    · next close => exact .of_eq (if_pos close) (.ok us)
    · next other => exact .of_eq (if_neg other) go

theorem items_succ (m : Moved source source' n all rest rest')
    (ih : ReadsMoved source source' n all rest rest' fuel) {fuel' : Nat} (hf : fuel + 1 ≤ fuel')
    {us : List Token} (part : us <:+ all) :
    Agrees n rest rest' id (readItems source (fuel + 1) (us ++ rest)).outcome
      (readItems source' fuel' (us.map (·.later n) ++ rest')).outcome := by
  obtain ⟨fuel', rfl⟩ : ∃ k, fuel' = k + 1 := ⟨fuel' - 1, by omega⟩
  have go : Agrees n rest rest' id
      ((readValue source fuel (us ++ rest)).outcome >>= moreItems source fuel)
      ((readValue source' fuel' (us.map (·.later n) ++ rest')).outcome >>=
        moreItems source' fuel') := by
    refine Agrees.bind m (ih.value (by omega) part) ((readsWithin fuel).value _)
      (fun v ts h b vs read => ?_) fun v ts left => ?_
    · rw [moreItems, if_neg (h.ne (by simp)), if_neg (h.ne (by simp))] at read
      cases read
    · have same := m.kind_first ts
      rw [moreItems, moreItems]
      dsimp only
      rw [same]
      split
      · next comma =>
        cases ts with
        | nil => exact absurd comma (m.ne (by simp))
        | cons d ts =>
          have next : ts <:+ all := ((List.suffix_cons d ts).trans left).trans part
          exact (ih.items (by omega) next).map fun _ => rfl
      split
      · cases ts with
        | nil => exact .past m
        | cons d ts => exact .ok ts
      · exact .of_error rfl
  cases us with
  | nil =>
    obtain ⟨b, c, more, rfl, closes⟩ := m.exists_cons
    obtain ⟨b', c', more', rfl, closes'⟩ := m.exists_cons'
    rw [List.map_nil, List.nil_append, List.nil_append] at go ⊢
    have alike : c'.kind = c.kind := m.alike
    rw [readItems_cons, readItems_cons, alike]
    split
    · exact .past m
    · rw [if_neg (by simp [closes]), if_neg (by simp [closes])]
      exact go
  | cons t us =>
    rw [List.map_cons, List.cons_append, List.cons_append] at go ⊢
    rw [readItems_cons, readItems_cons]
    split
    · next close => exact .of_eq (if_pos close) (.ok us)
    next open_ =>
    refine .of_eq (if_neg open_) ?_
    split
    · next hole =>
      exact .of_eq (if_pos hole) (ih.items (by omega) ((List.suffix_cons t us).trans part))
    · next other => exact .of_eq (if_neg other) go

theorem skipComputed (m : Moved source source' n all rest rest')
    (ih : ReadsMoved source source' n all rest rest' fuel) {fuel' : Nat} (hf : fuel ≤ fuel')
    (before : Entries Raw) (close : Token) {ts : List Token} (part : ts <:+ all) :
    Agrees n rest rest' id (Declaration.skipComputed source fuel before (close, ts ++ rest))
      (Declaration.skipComputed source' fuel' before
        (close.later n, ts.map (·.later n) ++ rest')) := by
  rw [Declaration.skipComputed, Declaration.skipComputed]
  dsimp only
  rw [m.kind_first]
  split
  · next colon =>
    cases ts with
    | nil => exact absurd colon (m.ne (by simp))
    | cons c ts =>
      have next : ts <:+ all := (List.suffix_cons c ts).trans part
      exact (ih.value hf next).map (p := fun _ => before) (q := fun _ => before) fun _ => rfl
  · exact .of_error rfl

theorem nested_succ (m : Moved source source' n all rest rest')
    (ih : ReadsMoved source source' n all rest rest' fuel) {fuel' : Nat} (hf : fuel + 1 ≤ fuel')
    {us : List Token} (part : us <:+ all) :
    Agrees n rest rest' id (readNestedSchema source (fuel + 1) (us ++ rest)).outcome
      (readNestedSchema source' fuel' (us.map (·.later n) ++ rest')).outcome := by
  obtain ⟨fuel', rfl⟩ : ∃ k, fuel' = k + 1 := ⟨fuel' - 1, by omega⟩
  rw [readNestedSchema_eq, readNestedSchema_eq]
  cases found : Declaration.findSchemaObject source (us ++ rest) with
  | error e => exact .of_error rfl
  | ok object =>
    have curly := kind_of_findSchemaObject found
    rcases m.left ((within_findSchemaObject source _).suffix _ found) with ⟨vs, rfl, left⟩ | past
    · rw [m.findSchemaObject found]
      cases vs with
      | nil => exact absurd curly (m.ne (by simp))
      | cons b vs =>
        have next : vs <:+ all := ((List.suffix_cons b vs).trans left).trans part
        exact Agrees.bind m (ih.entries (by omega) [] next) ((readsWithin fuel).entries [] _)
          (fun _ _ h _ _ => h.closeSchema) fun entries ts part => m.closeSchema _ _ entries ts
    · exact absurd curly ((m.isOver _ past).ne (by simp))

theorem entry_succ (m : Moved source source' n all rest rest')
    (ih : ReadsMoved source source' n all rest rest' fuel) {fuel' : Nat} (hf : fuel + 1 ≤ fuel')
    (before : Entries Raw) {us : List Token} (part : us <:+ all) :
    Agrees n rest rest' id (readEntry source (fuel + 1) before (us ++ rest)).outcome
      (readEntry source' fuel' before (us.map (·.later n) ++ rest')).outcome := by
  obtain ⟨fuel', rfl⟩ : ∃ k, fuel' = k + 1 := ⟨fuel' - 1, by omega⟩
  cases us with
  | nil =>
    obtain ⟨b, c, more, rfl, closes⟩ := m.exists_cons
    refine .of_error (e := errorAt source (.unexpectedToken c.called) c) ?_
    rw [List.nil_append, readEntry_cons, if_neg (by simp [Token.isOperator, closes]),
      if_neg (by simp [closes]), if_neg (by simp [closes])]
  | cons t us =>
    have tail : us <:+ all := (List.suffix_cons t us).trans part
    have same := m.kind_first us
    have close := m.findCloser (t :: us)
    rw [List.map_cons, List.cons_append, List.cons_append] at close ⊢
    rw [readEntry_cons, readEntry_cons]
    split
    · next spread =>
      refine .of_eq (if_pos spread) ?_
      exact (m.readOpaque tail).map (p := fun _ => before) (q := fun _ => before) fun _ => rfl
    next notSpread =>
    refine .of_eq (if_neg notSpread) ?_
    split
    · next computed =>
      refine .of_eq (if_pos computed) ?_
      have within : Within source (t :: us ++ rest) Prod.snd
          (Declaration.findCloser source (t :: (us ++ rest))) := within_findCloser source _
      exact Agrees.bind m close within (fun _ _ h _ _ => h.skipComputed)
        fun close ts left => ih.skipComputed m (by omega) before close (left.trans part)
    next notComputed =>
    refine .of_eq (if_neg notComputed) ?_
    split
    · next key =>
      refine .of_eq (if_pos key) ?_
      rw [same]
      split
      · next colon =>
        cases us with
        | nil => exact absurd colon (m.ne (by simp))
        | cons c us =>
          have next : us <:+ all := (List.suffix_cons c us).trans tail
          exact (ih.value (by omega) next).map (p := before.move t.value)
            (q := before.move t.value) fun _ => rfl
      split
      · exact Agrees.bind m (m.findCloser us) (within_findCloser source _)
          (fun _ _ h _ _ => h.skipMethod) fun close ts left => m.skipMethod before close ts
      split
      · next short => exact .of_eq (if_pos short) (.ok us)
      · exact .of_error rfl
    · exact .of_error rfl

end ReadsMoved

theorem readsMoved (m : Moved source source' n all rest rest') (fuel : Nat) :
    ReadsMoved source source' n all rest rest' fuel := by
  induction fuel with
  | zero => exact .zero
  | succ fuel ih =>
    exact ⟨ih.value_succ m, ih.nested_succ m, ih.entries_succ m, ih.entry_succ m, ih.items_succ m⟩

/-- Where the bracket behind the tokens is the brace that ends the entries, the entries are read the
same, and what stands behind the brace is left. -/
theorem readEntries_moved {c c' : Token} (m : Moved source source' n all (c :: rest) (c' :: rest'))
    (curly : c.kind = .closes .curly) {fuel fuel' : Nat} (hf : fuel ≤ fuel')
    {before entries : Entries Raw} {us : List Token} (part : us <:+ all)
    (h : (readEntries source fuel before (us ++ c :: rest)).outcome = .ok (entries, rest)) :
    (readEntries source' fuel' before (us.map (·.later n) ++ c' :: rest')).outcome =
      .ok (entries, rest') := by
  have curly' : c'.kind = .closes .curly := m.alike.trans curly
  induction fuel generalizing fuel' before us with
  | zero =>
    rw [readEntries] at h
    cases h
  | succ fuel ih =>
    obtain ⟨fuel', rfl⟩ : ∃ k, fuel' = k + 1 := ⟨fuel' - 1, by omega⟩
    have short (ts : List Token) : ts ++ c :: rest ≠ rest := by
      intro eq
      have size := congrArg List.length eq
      rw [List.length_append, List.length_cons] at size
      omega
    cases us with
    | nil =>
      rw [List.nil_append, readEntries_cons, if_pos curly] at h
      cases h
      rw [List.map_nil, List.nil_append, readEntries_cons, if_pos curly']
    | cons t us =>
      rw [List.cons_append, readEntries_cons] at h
      rw [List.map_cons, List.cons_append, readEntries_cons]
      split at h
      · exact absurd (Prod.mk.inj (Except.ok.inj h)).2 (short us)
      next other =>
      refine (if_neg other).trans ?_
      obtain ⟨⟨entries', after⟩, entry, more⟩ := bind_eq_ok.1 h
      have suffix : after <:+ t :: us ++ c :: rest :=
        ((readsWithin fuel).entry before (t :: (us ++ c :: rest))).suffix _ entry
      rcases m.left suffix with ⟨ts, rfl, left⟩ | past
      · refine bind_eq_ok.2 ⟨_, (readsMoved m fuel).entry (by omega) before part _ ts entry, ?_⟩
        have same := m.kind_first ts
        rw [moreEntries] at more ⊢
        dsimp only [id_eq] at more ⊢
        rw [same]
        cases ts with
        | nil =>
          have brace : (Token.first ([] ++ c :: rest)).kind = .closes .curly := curly
          rw [brace] at more ⊢
          cases more
          rfl
        | cons d ts =>
          split at more
          · next comma =>
            rw [if_pos comma]
            exact ih (by omega) (((List.suffix_cons d ts).trans left).trans part) more
          split at more
          · exact absurd (Prod.mk.inj (Except.ok.inj more)).2 (short ts)
          · cases more
      · -- Behind the brace there is neither a comma nor another brace.
        rw [moreEntries, if_neg ((m.isOver _ past).ne (by simp)),
          if_neg ((m.isOver _ past).ne (by simp))] at more
        cases more

end Declaration

end SchemaTypings
