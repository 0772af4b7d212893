import SchemaTypings.Literal.Printer
import SchemaTypings.Proofs.Rounding
import SchemaTypings.Proofs.Values

/-!
Rendered values as tokens. Rendered text is read alike wherever it stands, and each number in it has
a value. The strict reader takes it as the value, but for the spelling of its keys, if all numbers
are finite; the lenient one reads it in any case.
-/

namespace SchemaTypings

/-! ### Plain values -/

namespace Literal

mutual

/-- Whether a value has no floating-point numbers, and keys at every level that differ from each
other and have no line feed. -/
def isPlain : Literal → Bool
  | .float _ => false
  | .list items => arePlain items
  | .object entries => decide (Entries.keys entries).Nodup && arePlainEntries entries
  | _ => true

def arePlain : List Literal → Bool
  | [] => true
  | v :: rest => v.isPlain && arePlain rest

def arePlainEntries : List (Text × Literal) → Bool
  | [] => true
  | (k, v) :: rest => !k.contains ('\n' : CodePoint) && v.isPlain && arePlainEntries rest

end

theorem arePlain_eq_all (items : List Literal) : arePlain items = items.all isPlain := by
  induction items with
  | nil => rfl
  | cons v rest ih => rw [arePlain, ih, List.all_cons]

theorem arePlainEntries_eq_all (es : Entries Literal) :
    arePlainEntries es = es.all fun e => !e.1.contains ('\n' : CodePoint) && e.2.isPlain := by
  induction es with
  | nil => rfl
  | cons e rest ih => rw [arePlainEntries, ih, List.all_cons]

/-- A plain value is read as itself. -/
theorem everywhere_of_isPlain {v : Literal} (plain : v.isPlain = true) :
    v.everywhere hasDistinctKeys = true ∧ v.everywhere keepsKeys = true ∧
      v.everywhere isFinite = true := by
  induction v using induct with
  | null | bool | int | text => exact ⟨rfl, rfl, rfl⟩
  | float => cases plain
  | list items ih =>
    simp only [isPlain, arePlain_eq_all, List.all_eq_true] at plain
    simp only [everywhere_list, Bool.and_eq_true, List.all_eq_true]
    have all (v : Literal) (hv : v ∈ items) := ih v hv (plain v hv)
    exact ⟨⟨rfl, fun v hv => (all v hv).1⟩, ⟨rfl, fun v hv => (all v hv).2.1⟩,
      ⟨rfl, fun v hv => (all v hv).2.2⟩⟩
  | object es ih =>
    simp only [isPlain, arePlainEntries_eq_all, Bool.and_eq_true, List.all_eq_true] at plain
    simp only [everywhere_object, Bool.and_eq_true, List.all_eq_true]
    have all (e : Text × Literal) (he : e ∈ es) := ih e he (plain.2 e he).2
    have kept : keepsKeys (.object es) = true := by
      refine List.all_eq_true.2 fun k hk => ?_
      obtain ⟨e, he, rfl⟩ := List.mem_map.1 hk
      have line : ('\n' : CodePoint) ∉ e.1 := by simpa using (plain.2 e he).1
      simp [Text.not_isNameAndFeed_of_not_mem line]
    exact ⟨⟨plain.1, fun e he => (all e he).1⟩, ⟨kept, fun e he => (all e he).2.1⟩,
      ⟨rfl, fun e he => (all e he).2.2⟩⟩

end Literal

/-! ### Texts and their tokens -/

/-- What a token of rendered text is: neither the end nor a semicolon, and a number only if it has a
value. -/
structure Token.IsWritten (t : Token) : Prop where
  notEof : t.kind ≠ .eof
  notSemicolon : t.kind ≠ .semicolon
  hasValue : t.kind = .number → (NumberLiteral.value? t.value).isSome = true

/-- In front of every text of `after`, the text `s` is read as the tokens `ts`, which rendered text
may have. -/
structure Writes (s : Text) (ts : List Token) (after : Text → Prop) : Prop where
  lexes : Lexes s ts after
  written : ∀ t ∈ ts, t.IsWritten

namespace Writes

variable {s s' : Text} {ts ts' : List Token} {after after' : Text → Prop}

theorem mono (h : Writes s ts after) (hw : ∀ rest, after' rest → after rest) :
    Writes s ts after' :=
  ⟨h.lexes.mono hw, h.written⟩

theorem anywhere (h : Writes s ts fun _ => True) : Writes s ts after := h.mono fun _ _ => trivial

theorem append (h : Writes s ts after) (h' : Writes s' ts' after')
    (hw : ∀ rest, after' rest → after (s' ++ rest)) :
    Writes (s ++ s') (ts ++ ts'.map (·.later s.length)) after' := by
  refine ⟨h.lexes.append h'.lexes hw, fun t ht => ?_⟩
  rcases List.mem_append.1 ht with ht | ht
  · exact h.written t ht
  · obtain ⟨u, hu, rfl⟩ := List.mem_map.1 ht
    obtain ⟨h1, h2, h3⟩ := h'.written u hu
    exact ⟨h1, h2, h3⟩

theorem blank {c : CodePoint} (h : c.isBlank = true) : Writes [c] [] fun _ => True :=
  ⟨.blank h, by simp⟩

theorem single {t : Token} (h : Lexes s [t] after) (eof : t.kind ≠ .eof)
    (semicolon : t.kind ≠ .semicolon) (number : t.kind ≠ .number) : Writes s [t] after := by
  refine ⟨h, fun u hu => ?_⟩
  rw [List.mem_singleton.1 hu]
  exact ⟨eof, semicolon, fun h => absurd h number⟩

theorem name (h : s.isName = true) : Writes s [⟨.name, s, 0, s.length⟩] Text.Stops :=
  .single (.name h) (by simp) (by simp) (by simp)

theorem quoted (s : Text) : Writes s.quoted [⟨.string, s, 0, s.quoted.length⟩] fun _ => True :=
  .single (.quoted s) (by simp) (by simp) (by simp)

theorem decimal (d : Decimal) :
    Writes d.text [⟨.number, d.text, 0, d.text.length⟩] Text.Stops := by
  refine ⟨.decimal d, fun u hu => ?_⟩
  rw [List.mem_singleton.1 hu]
  exact ⟨by simp, by simp, fun _ => d.value?_isSome⟩

end Writes

namespace Text

@[simp] theorem join_nil (separator : Text) : join separator [] = [] := rfl

@[simp] theorem join_singleton (separator s : Text) : join separator [s] = s := by
  simp [join, List.intercalate]

@[simp] theorem join_cons_cons (separator s t : Text) (rest : List Text) :
    join separator (s :: t :: rest) = s ++ (separator ++ join separator (t :: rest)) := by
  simp [join, List.intercalate]

end Text

/-! ### Keys -/

/-- A key is one token, whose value is what the key is read as. -/
theorem Text.exists_key (key : Text) :
    ∃ t, Writes key.asKey [t] Text.Stops ∧ LiteralText.isKey t = true ∧ t.value = key.keyRead := by
  cases feed : key.isNameAndFeed with
  | true =>
    obtain ⟨name, isName, rfl⟩ := exists_of_isNameAndFeed feed
    have written := (Writes.name isName).append (.blank (c := '\n') (by decide)) fun rest _ =>
      Text.stops_cons (by decide)
    rw [asKey, if_pos (by rw [passesAsName_eq, feed, Bool.or_true]), keyRead_append_feed isName]
    exact ⟨_, written.anywhere, rfl, rfl⟩
  | false =>
    rw [asKey, passesAsName_eq, feed, Bool.or_false, keyRead_of_not_isNameAndFeed feed]
    split
    · next isName => exact ⟨_, .name isName, rfl, rfl⟩
    · exact ⟨_, (Writes.quoted key).anywhere, rfl, rfl⟩

/-! ### Texts inside a source -/

namespace Text

/-- The text stands in a source behind its first `n` code points. -/
def StandsIn (s source : Text) (n : Nat) : Prop := s <+: source.drop n

variable {s s' source : Text} {n : Nat}

theorem StandsIn.left (h : StandsIn (s ++ s') source n) : StandsIn s source n :=
  (List.prefix_append s s').trans h

theorem StandsIn.right (h : StandsIn (s ++ s') source n) : StandsIn s' source (s.length + n) := by
  obtain ⟨rest, eq⟩ := h
  refine ⟨rest, ?_⟩
  rw [Nat.add_comm, ← List.drop_drop, ← eq, List.append_assoc, List.drop_left]

theorem StandsIn.slice_eq (h : StandsIn s source n) :
    Declaration.slice source n (s.length + n) = s := by
  rw [Declaration.slice, Nat.add_sub_cancel]
  exact (List.prefix_iff_eq_take.1 h).symm

end Text

/-! ### Values -/

namespace LiteralText

/-- Each name is a word or a key, and each operator is the sign of a number. -/
def AreLiteral : List Token → Prop
  | [] => True
  | t :: rest =>
    (t.kind = .name → (keyword? t.value).isSome = true ∨ (Token.first rest).kind = .colon) ∧
      (t.kind = .operator → (Token.first rest).kind = .number) ∧ AreLiteral rest

theorem AreLiteral.of_append {ts us : List Token} (h : AreLiteral (ts ++ us)) : AreLiteral us := by
  induction ts with
  | nil => exact h
  | cons t ts ih => exact ih h.2.2

theorem areLiteral_cons {t : Token} {ts : List Token} (name : t.kind ≠ .name)
    (operator : t.kind ≠ .operator) (h : AreLiteral ts) : AreLiteral (t :: ts) :=
  ⟨fun kind => absurd kind name, fun kind => absurd kind operator, h⟩

theorem areLiteral_key {k c : Token} {ts : List Token} (key : isKey k = true)
    (colon : c.kind = .colon) (h : AreLiteral ts) : AreLiteral (k :: c :: ts) := by
  have rest := areLiteral_cons (t := c) (by simp [colon]) (by simp [colon]) h
  refine ⟨fun _ => .inr colon, fun kind => ?_, rest⟩
  simp [isKey, kind] at key

mutual

theorem Denotes.areLiteral {ts rest : List Token} {v : Literal} (hr : AreLiteral rest) :
    Denotes ts v → AreLiteral (ts ++ rest)
  | .word name h => ⟨fun _ => .inl (by simp [h]), fun kind => by simp [name] at kind, hr⟩
  | .text string => areLiteral_cons (by simp [string]) (by simp [string]) hr
  | .number number _ => areLiteral_cons (by simp [number]) (by simp [number]) hr
  | .negative minus number _ =>
    ⟨fun kind => by simp [minus.1] at kind, fun _ => number,
      areLiteral_cons (by simp [number]) (by simp [number]) hr⟩
  | .list opens items => areLiteral_cons (by simp [opens]) (by simp [opens]) (items.areLiteral hr)
  | .object opens members =>
    areLiteral_cons (by simp [opens]) (by simp [opens]) (members.areLiteral hr)

theorem DenotesItems.areLiteral {ts rest : List Token} {vs : List Literal} (hr : AreLiteral rest) :
    DenotesItems ts vs → AreLiteral (ts ++ rest)
  | .close closes => areLiteral_cons (by simp [closes]) (by simp [closes]) hr
  | .last value closes => by
    rw [List.append_assoc]
    exact value.areLiteral (areLiteral_cons (by simp [closes]) (by simp [closes]) hr)
  | .more value comma items => by
    rw [List.append_assoc]
    exact value.areLiteral
      (areLiteral_cons (by simp [comma]) (by simp [comma]) (items.areLiteral hr))

theorem DenotesMembers.areLiteral {ts rest : List Token} {es : List (Text × Literal)}
    (hr : AreLiteral rest) : DenotesMembers ts es → AreLiteral (ts ++ rest)
  | .close closes => areLiteral_cons (by simp [closes]) (by simp [closes]) hr
  | .last key colon value closes => by
    rw [List.cons_append, List.cons_append, List.append_assoc]
    exact areLiteral_key key colon
      (value.areLiteral (areLiteral_cons (by simp [closes]) (by simp [closes]) hr))
  | .more key colon value comma members => by
    rw [List.cons_append, List.cons_append, List.append_assoc]
    exact areLiteral_key key colon
      (value.areLiteral (areLiteral_cons (by simp [comma]) (by simp [comma])
        (members.areLiteral hr)))

end

/-- The tokens of a text are those of a value. They denote what the value is read as if it has only
finite numbers, and nothing otherwise. Wherever the text stands, the lenient reader takes them so in
any case. -/
structure Renders (s : Text) (v : Literal) (ts : List Token) : Prop where
  writes : Writes s ts Text.Stops
  denotes : v.everywhere Literal.isFinite = true → Denotes ts v.respelled
  finite : ∀ {n rest}, AreLiteral (ts.map (·.later n) ++ rest) → Declaration.Delimited rest →
    v.everywhere Literal.isFinite = true
  reads : ∀ {source n}, s.StandsIn source n →
    Declaration.ReadsAs source (ts.map (·.later n)) v.reread

/-- The text goes on with the items of a list, after the first bracket. -/
structure RendersItems (s : Text) (vs : List Literal) (ts : List Token) : Prop where
  writes : Writes s ts fun _ => True
  denotes : (vs.all (·.everywhere Literal.isFinite)) = true →
    DenotesItems ts (vs.map Literal.respelled)
  finite : ∀ {n rest}, AreLiteral (ts.map (·.later n) ++ rest) →
    (vs.all (·.everywhere Literal.isFinite)) = true
  reads : ∀ {source n}, s.StandsIn source n →
    Declaration.ReadsItems source (ts.map (·.later n)) (vs.map Literal.reread)

/-- The text goes on with the members of an object, after the first brace. -/
structure RendersMembers (s : Text) (es : List (Text × Literal)) (ts : List Token) : Prop where
  writes : Writes s ts fun _ => True
  denotes : (es.all (·.2.everywhere Literal.isFinite)) = true →
    DenotesMembers ts (es.map fun e => (e.1.keyRead, e.2.respelled))
  finite : ∀ {n rest}, AreLiteral (ts.map (·.later n) ++ rest) →
    (es.all (·.2.everywhere Literal.isFinite)) = true
  reads : ∀ {source n}, s.StandsIn source n →
    Declaration.ReadsEntries source (ts.map (·.later n))
      (es.map fun e => (e.1.keyRead, e.2.reread))

section

variable {s s' : Text} {v : Literal} {ts us : List Token}

/-- What denotes a value is read so leniently. -/
theorem Renders.of_denotes (writes : Writes s ts Text.Stops) (denotes : Denotes ts v.respelled)
    (finite : v.everywhere Literal.isFinite = true)
    (same : v.reread = Raw.ofLiteral v.respelled) : Renders s v ts where
  writes := writes
  denotes _ := denotes
  finite _ _ := finite
  reads := by
    intro source n _
    rw [same]
    exact Declaration.readsAs_of_denotes source (denotes.later n)

theorem exists_word (h : s.isName = true) (hv : keyword? s = some v.respelled)
    (finite : v.everywhere Literal.isFinite = true)
    (same : v.reread = Raw.ofLiteral v.respelled) : ∃ ts, Renders s v ts :=
  ⟨_, .of_denotes (.name h) (.word rfl hv) finite same⟩

theorem exists_text (s : Text) : ∃ ts, Renders s.quoted (.text s) ts :=
  ⟨_, .of_denotes (Writes.quoted s).anywhere (.text rfl) rfl rfl⟩

theorem exists_number (d : Decimal) (hv : NumberLiteral.value? d.text = some v.respelled)
    (finite : v.everywhere Literal.isFinite = true)
    (same : v.reread = Raw.ofLiteral v.respelled) : ∃ ts, Renders d.text v ts :=
  ⟨_, .of_denotes (.decimal d) (.number rfl hv) finite same⟩

/-- A decimal behind a minus sign is two tokens. -/
theorem exists_negative (d : Decimal) {n : Literal} (hv : NumberLiteral.value? d.text = some n)
    (negated : v.respelled = n.negated) (finite : v.everywhere Literal.isFinite = true)
    (same : v.reread = Raw.ofLiteral v.respelled) :
    ∃ ts, Renders (('-' : CodePoint) :: d.text) v ts := by
  have sign := Writes.single .minus (by simp) (by simp) (by simp)
  have written := sign.append (.decimal d) fun rest _ => by
    obtain ⟨c, s, hc, -, -, eq⟩ := d.exists_text_eq
    have facts := (CodePoint.digitFacts hc).notSign
    simp [eq, facts]
  refine ⟨_, .of_denotes written ?_ finite same⟩
  rw [negated]
  exact .negative ⟨rfl, rfl⟩ rfl hv

theorem exists_int (i : Int) : ∃ ts, Renders (Text.ofInt i) (.int i) ts := by
  cases i with
  | ofNat n =>
    have number := exists_number (v := .int n) (.ofNat n)
    rw [Decimal.text_ofNat] at number
    exact number (NumberLiteral.value?_ofNat n) rfl rfl
  | negSucc n =>
    have number := exists_negative (v := .int (.negSucc n)) (n := .int (n + 1 : Nat))
      (.ofNat (n + 1))
    rw [Decimal.text_ofNat] at number
    exact number (NumberLiteral.value?_ofNat (n + 1)) rfl rfl rfl

/-- A name that is no word is read as a name, and denotes nothing. -/
theorem exists_name {x : Binary64} (h : s.isName = true) (unknown : Declaration.word? s = none)
    (plain : s ≠ "new") (bare : x.reread = .bare s) (infinite : x.isFinite = false) :
    ∃ ts, Renders s (.float x) ts := by
  refine ⟨_, .name h, fun finite => ?_, fun {n rest} row delimited => ?_, fun _ => ?_⟩
  · exact absurd (infinite.symm.trans finite) Bool.false_ne_true
  · have delimiter : (Token.first rest).kind.isDelimiter = true := delimited
    rcases row.1 rfl with word | colon
    · obtain ⟨v, known⟩ := Option.isSome_iff_exists.1 word
      cases unknown.symm.trans (Declaration.word?_of_keyword? known)
    · have next : (Token.first rest).kind = .colon := colon
      rw [next] at delimiter
      cases delimiter
  · rw [Literal.reread, bare]
    have read {source : Text} (t : Token) (name : t.kind = .name) (value : t.value = s) :
        Declaration.ReadsAs source [t] (.bare s) := by
      have read : Declaration.ReadsAs source [t] _ := .name name (value ▸ plain)
      rwa [value, unknown] at read
    exact read _ rfl rfl

theorem exists_float (x : Binary64) : ∃ ts, Renders x.shown (.float x) ts := by
  cases x with
  | finite negative m e h =>
    obtain ⟨d, value, shown⟩ := Binary64.exists_shown negative h
    cases negative with
    | false => exact shown ▸ exists_number d value rfl rfl
    | true => exact shown ▸ exists_negative d value rfl rfl rfl
  | nan => exact exists_name (by decide) rfl (by decide) rfl rfl
  | infinite negative =>
    cases negative with
    | false => exact exists_name (by decide) rfl (by decide) rfl rfl
    | true =>
      -- The sign and the name are an expression, which is read as the text that it is.
      have sign := Writes.single .minus (by simp) (by simp) (by simp)
      have name := Writes.name (s := "inf") (by decide)
      refine ⟨_, sign.append name fun rest _ c hc => ?_, nofun, fun row _ => ?_,
        fun {source n} stands => ?_⟩
      · have first : ('i' : CodePoint) = c := Option.some.inj hc
        exact first ▸ by decide
      · cases row.2.1 rfl
      · have slice : Declaration.slice source (0 + n) (4 + n) = "-inf" := by
          rw [Nat.zero_add]
          exact stands.slice_eq
        have read : Declaration.ReadsAs source
            [⟨.operator, "-", 0 + n, 1 + n⟩, ⟨.name, "inf", 0 + 1 + n, 4 + n⟩] _ :=
          .negativeName ⟨rfl, rfl⟩ rfl
        rwa [slice] at read

end

/-! ### Lists and objects -/

/-- The marks of rendered text, wherever they stand. -/
theorem writes_mark {c : CodePoint} {k : TokenKind} (h : Lexeme.mark? c = some k)
    (hk : k ≠ .eof ∧ k ≠ .semicolon ∧ k ≠ .number) :
    Writes [c] [⟨k, [c], 0, 1⟩] fun _ => True :=
  .single (.mark h) hk.1 hk.2.1 hk.2.2

theorem writes_comma : Writes ", " [⟨.comma, [','].map CodePoint.ofChar, 0, 1⟩] fun _ => True :=
  (writes_mark (c := ',') rfl (by simp)).append (.blank (c := ' ') (by decide)) fun _ _ => trivial

theorem writes_colon : Writes ": " [⟨.colon, [':'].map CodePoint.ofChar, 0, 1⟩] fun _ => True :=
  (writes_mark (c := ':') rfl (by simp)).append (.blank (c := ' ') (by decide)) fun _ _ => trivial

theorem stops_comma (rest : Text) : Text.Stops (", " ++ rest) := Text.stops_cons (by decide)

theorem writes_close :
    Writes " \x7d" [⟨.closes .curly, ['\x7d'].map CodePoint.ofChar, 1, 2⟩] fun _ => True :=
  (Writes.blank (c := ' ') (by decide)).append (writes_mark (c := '\x7d') rfl (by simp))
    fun _ _ => trivial

section

variable {s s' : Text} {v : Literal} {vs : List Literal} {es : List (Text × Literal)}
  {ts us : List Token}

theorem RendersItems.close :
    RendersItems "]" [] [⟨.closes .square, [']'].map CodePoint.ofChar, 0, 1⟩] where
  writes := writes_mark (c := ']') rfl (by simp)
  denotes _ := .close rfl
  finite _ := rfl
  reads _ := .close rfl

theorem Renders.exists_last (h : Renders s v ts) : ∃ us, RendersItems (s ++ "]") [v] us := by
  have close := writes_mark (c := ']') rfl (by simp)
  refine ⟨_, h.writes.append close fun rest _ => Text.stops_cons (by decide), fun finite => ?_,
    fun row => ?_, fun stands => ?_⟩
  · exact .last (h.denotes (by simpa using finite)) rfl
  · rw [List.map_append, List.append_assoc] at row
    simpa using h.finite row rfl
  · rw [List.map_append]
    exact .last (h.reads stands.left) rfl

theorem Renders.exists_more (h : Renders s v ts) (h' : RendersItems s' vs us) :
    ∃ us, RendersItems (s ++ (", " ++ s')) (v :: vs) us := by
  have tail := writes_comma.append h'.writes fun _ _ => trivial
  have written := h.writes.append tail fun rest _ => by
    rw [List.append_assoc]
    exact stops_comma _
  refine ⟨_, written, fun finite => ?_, fun row => ?_, fun stands => ?_⟩
  · rw [List.all_cons, Bool.and_eq_true] at finite
    rw [List.map_append, Token.map_later_later]
    exact .more (h.denotes finite.1) rfl ((h'.denotes finite.2).later _)
  · simp only [List.map_append, Token.map_later_later, List.append_assoc] at row
    rw [List.all_cons, Bool.and_eq_true]
    exact ⟨h.finite row rfl, h'.finite row.of_append.of_append⟩
  · -- The other items stand behind the item and the comma, and so do their tokens.
    simp only [List.map_append, Token.map_later_later, Nat.add_assoc]
    exact .more (h.reads stands.left) rfl (h'.reads stands.right.right)

/-- A key, a colon and a text, and what follows the text. -/
theorem exists_member {after : Text} (key : Text) (h : Writes s ts Text.Stops)
    (tail : Writes after us fun _ => True) (stops : ∀ rest, Text.Stops (after ++ rest)) :
    ∃ k c, Writes (key.asKey ++ (": " ++ (s ++ after)))
      (k :: c :: (ts ++ us.map (·.later s.length)).map (·.later (2 + key.asKey.length)))
      (fun _ => True) ∧ LiteralText.isKey k = true ∧ k.value = key.keyRead ∧ c.kind = .colon := by
  obtain ⟨k, written, isKey, value⟩ := key.exists_key
  have colon := writes_colon.append (h.append tail fun rest _ => stops rest) fun _ _ => trivial
  have member := written.append colon fun rest _ => Text.stops_cons (by decide)
  rw [List.map_append, Token.map_later_later] at member
  exact ⟨k, _, member, isKey, value, rfl⟩

theorem Renders.exists_last_member (key : Text) (h : Renders s v ts) :
    ∃ us, RendersMembers (key.asKey ++ (": " ++ (s ++ " \x7d"))) [(key, v)] us := by
  obtain ⟨k, c, written, isKey, value, colon⟩ := exists_member key h.writes writes_close
    fun rest => Text.stops_cons (by decide)
  refine ⟨_, written, fun finite => ?_, fun row => ?_, fun stands => ?_⟩
  · simp only [List.map_append, List.map_cons, List.map_nil, ← value]
    exact .last isKey colon ((h.denotes (by simpa using finite)).later _) rfl
  · simp only [List.map_append, List.map_cons, Token.map_later_later, List.cons_append,
      List.append_assoc] at row
    simpa using h.finite row.2.2.2.2 rfl
  · simp only [List.map_append, List.map_cons, List.map_nil, Token.map_later_later, Nat.add_assoc,
      ← value]
    exact .last (k := k.later _) isKey colon (h.reads stands.right.right.left) rfl

theorem Renders.exists_more_members (key : Text) (h : Renders s v ts)
    (h' : RendersMembers s' es us) :
    ∃ us, RendersMembers (key.asKey ++ (": " ++ (s ++ (", " ++ s')))) ((key, v) :: es) us := by
  have tail := writes_comma.append h'.writes fun _ _ => trivial
  obtain ⟨k, c, written, isKey, value, colon⟩ := exists_member key h.writes tail fun rest => by
    rw [List.append_assoc]
    exact stops_comma _
  refine ⟨_, written, fun finite => ?_, fun row => ?_, fun stands => ?_⟩
  · rw [List.all_cons, Bool.and_eq_true] at finite
    simp only [List.map_append, List.map_cons, List.map_nil, List.cons_append, List.nil_append,
      Token.map_later_later, ← value]
    exact .more isKey colon ((h.denotes finite.1).later _) rfl ((h'.denotes finite.2).later _)
  · simp only [List.map_append, List.map_cons, List.map_nil, Token.map_later_later,
      List.cons_append, List.nil_append, List.append_assoc] at row
    rw [List.all_cons, Bool.and_eq_true]
    exact ⟨h.finite row.2.2.2.2 rfl, h'.finite row.2.2.2.2.of_append.2.2⟩
  · simp only [List.map_append, List.map_cons, List.map_nil, List.cons_append, List.nil_append,
      Token.map_later_later, Nat.add_assoc, ← value]
    exact .more (k := k.later _) isKey colon (h.reads stands.right.right.left) rfl
      (h'.reads stands.right.right.right.right)

theorem RendersItems.exists_list (h : RendersItems s vs ts) :
    ∃ us, Renders ("[" ++ s) (.list vs) us := by
  have opened := (writes_mark (c := '[') rfl (by simp)).append h.writes fun _ _ => trivial
  refine ⟨_, opened.anywhere, fun finite => ?_, fun row _ => ?_, fun stands => ?_⟩
  · rw [Literal.respelled_list]
    exact .list rfl ((h.denotes (by simpa [Literal.isFinite] using finite)).later _)
  · rw [List.map_append, Token.map_later_later, List.append_assoc] at row
    simpa [Literal.isFinite] using h.finite row.of_append
  · rw [List.map_append, Token.map_later_later, Literal.reread_list]
    exact .list rfl (h.reads stands.right)

theorem RendersMembers.exists_object (h : RendersMembers s es ts) :
    ∃ us, Renders ("\x7b" ++ s) (.object es) us := by
  have opened := (writes_mark (c := '\x7b') rfl (by simp)).append h.writes fun _ _ => trivial
  refine ⟨_, opened.anywhere, fun finite => ?_, fun row _ => ?_, fun stands => ?_⟩
  · rw [Literal.respelled_object]
    exact .object rfl ((h.denotes (by simpa [Literal.isFinite] using finite)).later _)
  · rw [List.map_append, Token.map_later_later, List.append_assoc] at row
    simpa [Literal.isFinite] using h.finite row.of_append
  · rw [List.map_append, Token.map_later_later, Literal.reread_object]
    exact .object rfl (h.reads stands.right)

theorem RendersMembers.close :
    RendersMembers "\x7d" [] [⟨.closes .curly, ['\x7d'].map CodePoint.ofChar, 0, 1⟩] where
  writes := writes_mark (c := '\x7d') rfl (by simp)
  denotes _ := .close rfl
  finite _ := rfl
  reads _ := .close rfl

theorem RendersMembers.exists_blank (h : RendersMembers s es ts) :
    ∃ us, RendersMembers (" " ++ s) es us := by
  have opened := (Writes.blank (c := ' ') (by decide)).append h.writes fun _ _ => trivial
  refine ⟨_, opened, fun finite => (h.denotes finite).later _, fun row => ?_, fun stands => ?_⟩
  · rw [List.nil_append, Token.map_later_later] at row
    exact h.finite row
  · rw [List.nil_append, Token.map_later_later]
    exact h.reads stands.right

end

mutual

/-- Rendered text is that of its value. -/
theorem renders : ∀ v : Literal, ∃ ts, Renders v.render v ts
  | .null => exists_word (by decide) rfl rfl rfl
  | .bool b => by cases b <;> exact exists_word (by decide) rfl rfl rfl
  | .int i => exists_int i
  | .float x => exists_float x
  | .text s => exists_text s
  | .list vs => by
    obtain ⟨ts, items⟩ := renders_items vs
    exact items.exists_list
  | .object [] => RendersMembers.close.exists_object
  | .object (e :: rest) => by
    obtain ⟨ts, members⟩ := renders_members (e :: rest) (by simp)
    obtain ⟨us, members⟩ := members.exists_blank
    exact members.exists_object

theorem renders_items : ∀ vs : List Literal,
    ∃ ts, RendersItems (Text.join ", " (Literal.renderList vs) ++ "]") vs ts
  | [] => ⟨_, .close⟩
  | [v] => by
    obtain ⟨ts, value⟩ := renders v
    simpa [Literal.renderList] using value.exists_last
  | v :: w :: rest => by
    obtain ⟨ts, value⟩ := renders v
    obtain ⟨us, items⟩ := renders_items (w :: rest)
    simpa [Literal.renderList] using value.exists_more items

theorem renders_members : ∀ es : List (Text × Literal), es ≠ [] →
    ∃ ts, RendersMembers (Text.join ", " (Literal.renderEntries es) ++ " \x7d") es ts
  | [(k, v)], _ => by
    obtain ⟨ts, value⟩ := renders v
    simpa [Literal.renderEntries] using value.exists_last_member k
  | (k, v) :: e :: rest, _ => by
    obtain ⟨ts, value⟩ := renders v
    obtain ⟨us, members⟩ := renders_members (e :: rest) (by simp)
    simpa [Literal.renderEntries] using value.exists_more_members k members

end

/-- The text of an object goes on with its members behind the brace. -/
theorem exists_members (es : List (Text × Literal)) :
    ∃ s ts, (Literal.object es).render = ('\x7b' : CodePoint) :: s ∧ RendersMembers s es ts := by
  cases es with
  | nil => exact ⟨_, _, rfl, .close⟩
  | cons e rest =>
    obtain ⟨ts, members⟩ := renders_members (e :: rest) (by simp)
    obtain ⟨us, members⟩ := members.exists_blank
    exact ⟨_, us, rfl, members⟩

/-- The text of a plain value denotes that value. -/
theorem Renders.denotes_self {s : Text} {v : Literal} {ts : List Token} (h : Renders s v ts)
    (plain : v.isPlain = true) : Denotes ts v := by
  obtain ⟨distinct, kept, finite⟩ := Literal.everywhere_of_isPlain plain
  have denotes := h.denotes finite
  rwa [Literal.respelled_eq distinct kept finite] at denotes

end LiteralText

/-! ### Rendered text as literal text -/

/-- The text of a value with finite numbers denotes the value, but for the spelling of its keys. -/
theorem Literal.parse_render_respelled {v : Literal} (finite : v.everywhere isFinite = true) :
    Literal.parse v.render = .ok v.respelled := by
  obtain ⟨ts, rendered⟩ := LiteralText.renders v
  rw [parse, rendered.writes.lexes.tokenize_eq Text.stops_nil]
  exact LiteralText.ofTokens_of_denotes (rendered.denotes finite) rfl

/-- The text of a value denotes something only if all numbers are finite. -/
theorem Literal.isFinite_of_parse_render {v w : Literal} (h : Literal.parse v.render = .ok w) :
    v.everywhere isFinite = true := by
  obtain ⟨ts, rendered⟩ := LiteralText.renders v
  have written := rendered.writes
  rw [parse, written.lexes.tokenize_eq Text.stops_nil] at h
  have plain (t : Token) (mem : t ∈ ts) : t.kind ≠ .eof ∧ t.kind ≠ .semicolon :=
    ⟨(written.written t mem).notEof, (written.written t mem).notSemicolon⟩
  have denotes : LiteralText.Denotes ts w := LiteralText.denotes_of_ofTokens plain rfl h
  have none : LiteralText.AreLiteral [] := trivial
  exact rendered.finite ((denotes.later 0).areLiteral none) rfl

/-- The text of a value with finite numbers denotes a value, which is the same exactly if no key at
any level is a name and one line feed behind it. -/
theorem Literal.exists_parse_render {v : Literal} (distinct : v.everywhere hasDistinctKeys = true)
    (finite : v.everywhere isFinite = true) :
    ∃ w, Literal.parse v.render = .ok w ∧ (w = v ↔ v.everywhere keepsKeys = true) := by
  refine ⟨v.respelled, parse_render_respelled finite, fun same => ?_, fun kept => ?_⟩
  · rw [← same]
    exact keepsKeys_respelled v
  · exact respelled_eq distinct kept finite

/-- A value in which a key of an inner object ends with a line feed. -/
def Literal.fedSample : Literal :=
  .object [("a b", .list [.int (-1), .text "\n", .object [("name\n", .bool true)]]), ("c", .null)]

theorem Literal.exists_parse_render_fed :
    fedSample.everywhere hasDistinctKeys = true ∧ fedSample.everywhere isFinite = true ∧
      fedSample.everywhere keepsKeys = false ∧
      ∃ w, Literal.parse fedSample.render = .ok w ∧
        (w = fedSample ↔ fedSample.everywhere keepsKeys = true) := by
  have distinct : fedSample.everywhere hasDistinctKeys = true := by decide
  have finite : fedSample.everywhere isFinite = true := by decide
  exact ⟨distinct, finite, by decide, exists_parse_render distinct finite⟩

/-- The text of a plain value denotes that value. -/
theorem Literal.parse_render {v : Literal} (plain : v.isPlain = true) :
    Literal.parse v.render = .ok v := by
  obtain ⟨distinct, kept, finite⟩ := everywhere_of_isPlain plain
  rw [parse_render_respelled finite, respelled_eq distinct kept finite]

/-- The text of an object with one entry denotes what the text of the entry's value does. -/
theorem Literal.parse_render_entry (key : Text) {v w : Literal}
    (line : key.contains ('\n' : CodePoint) = false) (h : Literal.parse v.render = .ok w) :
    Literal.parse (Literal.object [(key, v)]).render = .ok (.object [(key, w)]) := by
  obtain ⟨ts, rendered⟩ := LiteralText.renders v
  have written := rendered.writes
  rw [parse, written.lexes.tokenize_eq Text.stops_nil] at h
  have plain (t : Token) (mem : t ∈ ts) : t.kind ≠ .eof ∧ t.kind ≠ .semicolon :=
    ⟨(written.written t mem).notEof, (written.written t mem).notSemicolon⟩
  have denotes : LiteralText.Denotes ts w := LiteralText.denotes_of_ofTokens plain rfl h
  obtain ⟨k, c, member, isKey, value, colon⟩ := LiteralText.exists_member key written
    LiteralText.writes_close fun rest => Text.stops_cons (by decide)
  have same : k.value = key := by
    rw [value, Text.keyRead_of_not_isNameAndFeed]
    exact Text.not_isNameAndFeed_of_not_mem (by simpa using line)
  have opened := (LiteralText.writes_mark (c := '\x7b') rfl (by simp)).append
    ((Writes.blank (c := ' ') (by decide)).append member fun _ _ => trivial) fun _ _ => trivial
  have text : (Literal.object [(key, v)]).render =
      [('\x7b' : CodePoint)] ++ ([(' ' : CodePoint)] ++
        (key.asKey ++ ((": " : Text) ++ (v.render ++ (" \x7d" : Text))))) := by
    rw [render, renderEntries, renderEntries, Text.join_singleton, List.append_assoc,
      List.append_assoc, List.append_assoc]
    rfl
  rw [parse, text, opened.lexes.tokenize_eq trivial]
  refine LiteralText.ofTokens_of_denotes (v := .object (Entries.lastWins [(key, w)])) ?_ rfl
  refine .object rfl (LiteralText.DenotesMembers.later 1 (LiteralText.DenotesMembers.later 1 ?_))
  rw [List.map_append, ← same]
  exact .last isKey colon (denotes.later _) rfl

/-- The text of a value is refused for no other reason than that it is malformed. -/
theorem Literal.malformed_of_parse_render {v : Literal} {e : ReadError}
    (h : Literal.parse v.render = .error e) : ∃ m, e = .malformed m := by
  obtain ⟨ts, rendered⟩ := LiteralText.renders v
  have written := rendered.writes
  rw [parse, written.lexes.tokenize_eq Text.stops_nil] at h
  have values : LiteralText.HaveValues (ts ++ [Token.eof v.render.length]) := by
    intro t ht number
    rcases List.mem_append.1 ht with ht | ht
    · exact (written.written t ht).hasValue number
    · rw [List.mem_singleton.1 ht] at number
      cases number
  exact LiteralText.malformed_of_ofTokens values h

end SchemaTypings
