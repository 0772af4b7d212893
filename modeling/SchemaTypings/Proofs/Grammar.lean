import SchemaTypings.Proofs.Causes
import SchemaTypings.Proofs.Lexing
import SchemaTypings.Literal.Parser

/-!
The grammar of literal text, as a relation between tokens and the value that they denote. The strict
reader accepts exactly the tokens that the relation derives. A derivation looks at kinds and values
of tokens only, so it does not depend on where the text stands.
-/

namespace SchemaTypings

namespace Entries

variable {α β : Type}

/-- Entries put in one after another behind others. -/
def moveAll (before : Entries α) (es : List (Text × α)) : Entries α :=
  es.foldl (fun acc e => acc.move e.1 e.2) before

@[simp] theorem moveAll_nil (before : Entries α) : moveAll before [] = before := rfl

@[simp] theorem moveAll_cons (before : Entries α) (k : Text) (v : α) (es : List (Text × α)) :
    moveAll before ((k, v) :: es) = moveAll (before.move k v) es := rfl

/-- What is done to every value does not matter to where it stands. -/
theorem map_moveAll (f : α → β) (before : Entries α) (es : List (Text × α)) :
    (before.moveAll es).map (fun e => (e.1, f e.2)) =
      moveAll (before.map fun e => (e.1, f e.2)) (es.map fun e => (e.1, f e.2)) := by
  induction es generalizing before with
  | nil => rfl
  | cons e es ih =>
    obtain ⟨k, v⟩ := e
    rw [moveAll_cons, ih, List.map_cons, moveAll_cons]
    simp [move, erase, List.filter_map, Function.comp_def]

/-- Entries of different keys stay as they are when they are put in one after another. -/
theorem moveAll_of_nodup {before es : Entries α} (h : (keys (before ++ es)).Nodup) :
    moveAll before es = before ++ es := by
  induction es generalizing before with
  | nil => simp
  | cons e rest ih =>
    obtain ⟨k, v⟩ := e
    have new : k ∉ keys before := by
      simp only [keys_append, keys_cons, List.nodup_append] at h
      exact fun hk => h.2.2 k hk k (by simp) rfl
    have kept : before.erase k = before := by
      refine List.filter_eq_self.2 fun e he => ?_
      have : e.1 ≠ k := fun hk => new (hk ▸ List.mem_map_of_mem he)
      simpa using this
    have moved : before.move k v ++ rest = before ++ (k, v) :: rest := by
      simp [move, kept]
    rw [moveAll_cons, ih (by rwa [moved]), moved]

theorem lastWins_of_nodup {es : Entries α} (h : es.keys.Nodup) : lastWins es = es := by
  have all : (keys ([] ++ es)).Nodup := h
  exact moveAll_of_nodup all

end Entries

namespace LiteralText

mutual

/-- The tokens denote the value. -/
inductive Denotes : List Token → Literal → Prop
  | word {t : Token} {v : Literal} (name : t.kind = .name) (h : keyword? t.value = some v) :
      Denotes [t] v
  | text {t : Token} (string : t.kind = .string) : Denotes [t] (.text t.value)
  | number {t : Token} {v : Literal} (number : t.kind = .number)
      (h : NumberLiteral.value? t.value = some v) : Denotes [t] v
  | negative {m t : Token} {v : Literal} (minus : m.kind = .operator ∧ m.value = "-")
      (number : t.kind = .number) (h : NumberLiteral.value? t.value = some v) :
      Denotes [m, t] v.negated
  | list {l : Token} {ts : List Token} {vs : List Literal} (opens : l.kind = .opens .square)
      (items : DenotesItems ts vs) : Denotes (l :: ts) (.list vs)
  | object {l : Token} {ts : List Token} {es : List (Text × Literal)}
      (opens : l.kind = .opens .curly) (members : DenotesMembers ts es) :
      Denotes (l :: ts) (.object (Entries.lastWins es))

/-- The tokens up to a closing bracket denote the items. -/
inductive DenotesItems : List Token → List Literal → Prop
  | close {r : Token} (closes : r.kind = .closes .square) : DenotesItems [r] []
  | last {ts : List Token} {v : Literal} {r : Token} (value : Denotes ts v)
      (closes : r.kind = .closes .square) : DenotesItems (ts ++ [r]) [v]
  | more {ts us : List Token} {v : Literal} {vs : List Literal} {c : Token} (value : Denotes ts v)
      (comma : c.kind = .comma) (items : DenotesItems us vs) :
      DenotesItems (ts ++ c :: us) (v :: vs)

/-- The tokens up to a closing brace denote the members, in order; a key may repeat. -/
inductive DenotesMembers : List Token → List (Text × Literal) → Prop
  | close {r : Token} (closes : r.kind = .closes .curly) : DenotesMembers [r] []
  | last {k c r : Token} {ts : List Token} {v : Literal} (key : isKey k = true)
      (colon : c.kind = .colon) (value : Denotes ts v) (closes : r.kind = .closes .curly) :
      DenotesMembers (k :: c :: (ts ++ [r])) [(k.value, v)]
  | more {k c d : Token} {ts us : List Token} {v : Literal} {es : List (Text × Literal)}
      (key : isKey k = true) (colon : c.kind = .colon) (value : Denotes ts v)
      (comma : d.kind = .comma) (members : DenotesMembers us es) :
      DenotesMembers (k :: c :: (ts ++ d :: us)) ((k.value, v) :: es)

end

/-! ### Independence of the place -/

mutual

theorem Denotes.later (n : Nat) {ts : List Token} {v : Literal} :
    Denotes ts v → Denotes (ts.map (·.later n)) v
  | .word name h => .word name h
  | .text string => .text string
  | .number number h => .number number h
  | .negative minus number h => .negative minus number h
  | .list opens items => .list opens (items.later n)
  | .object opens members => .object opens (members.later n)

theorem DenotesItems.later (n : Nat) {ts : List Token} {vs : List Literal} :
    DenotesItems ts vs → DenotesItems (ts.map (·.later n)) vs
  | .close closes => .close closes
  | .last value closes => by
    rw [List.map_append]
    exact .last (value.later n) closes
  | .more value comma items => by
    rw [List.map_append]
    exact .more (value.later n) comma (items.later n)

theorem DenotesMembers.later (n : Nat) {ts : List Token} {es : List (Text × Literal)} :
    DenotesMembers ts es → DenotesMembers (ts.map (·.later n)) es
  | .close closes => .close closes
  | .last key colon value closes => by
    rw [List.map_cons, List.map_cons, List.map_append]
    exact .last key colon (value.later n) closes
  | .more key colon value comma members => by
    rw [List.map_cons, List.map_cons, List.map_append]
    exact .more key colon (value.later n) comma (members.later n)

end

/-! ### Tokens of values -/

theorem isKey.notEof {k : Token} (h : isKey k = true) : k.kind ≠ .eof := by
  intro no
  simp [isKey, no] at h

mutual

theorem Denotes.notEof {ts : List Token} {v : Literal} : Denotes ts v → ∀ t ∈ ts, t.kind ≠ .eof
  | .word name h => by simp [name]
  | .text string => by simp [string]
  | .number number h => by simp [number]
  | .negative minus number h => by simp [minus, number]
  | .list opens items => by simpa [opens] using items.notEof
  | .object opens members => by simpa [opens] using members.notEof

theorem DenotesItems.notEof {ts : List Token} {vs : List Literal} :
    DenotesItems ts vs → ∀ t ∈ ts, t.kind ≠ .eof
  | .close closes => by simp [closes]
  | .last value closes => by simpa [or_imp, forall_and, closes] using value.notEof
  | .more value comma items => by
    simpa [or_imp, forall_and, comma] using ⟨value.notEof, items.notEof⟩

theorem DenotesMembers.notEof {ts : List Token} {es : List (Text × Literal)} :
    DenotesMembers ts es → ∀ t ∈ ts, t.kind ≠ .eof
  | .close closes => by simp [closes]
  | .last key colon value closes => by
    simpa [or_imp, forall_and, isKey.notEof key, colon, closes] using value.notEof
  | .more key colon value comma members => by
    simpa [or_imp, forall_and, isKey.notEof key, colon, comma] using
      ⟨value.notEof, members.notEof⟩

end

/-! ### Objects -/

/-- A number literal has a number as its value. -/
theorem isNumber_of_value? {s : Text} {v : Literal} (h : NumberLiteral.value? s = some v) :
    v.isNumber = true := by
  unfold NumberLiteral.value? at h
  dsimp only at h
  split at h
  · obtain ⟨i, -, rfl⟩ := Option.map_eq_some_iff.1 h
    rfl
  split at h
  · obtain ⟨x, -, rfl⟩ := Option.map_eq_some_iff.1 h
    rfl
  · obtain ⟨i, -, rfl⟩ := Option.map_eq_some_iff.1 h
    rfl

theorem keyword?_ne_object {word : Text} {es : Entries Literal} :
    keyword? word ≠ some (.object es) := by
  unfold keyword?
  split
  · simp
  split
  · simp
  split <;> simp

/-- Only braces around members denote an object. -/
theorem Denotes.exists_members {ts : List Token} {es : Entries Literal}
    (h : Denotes ts (.object es)) :
    ∃ l us ms, ts = l :: us ∧ l.kind = .opens .curly ∧ DenotesMembers us ms ∧
      es = Entries.lastWins ms := by
  generalize hv : Literal.object es = v at h
  cases h with
  | word name h => exact absurd (hv ▸ h) keyword?_ne_object
  | text => cases hv
  | number number h =>
    have := isNumber_of_value? h
    subst hv
    cases this
  | @negative m t v minus number h =>
    have := isNumber_of_value? h
    cases v with
    | int | float => cases hv
    | _ => cases this
  | list => cases hv
  | object opens members =>
    cases hv
    exact ⟨_, _, _, rfl, opens, members, rfl⟩

/-! ### What the grammar derives, the reader accepts -/

/-- A value starts with no closing bracket. -/
theorem Denotes.exists_cons {ts : List Token} {v : Literal} (h : Denotes ts v) :
    ∃ t us, ts = t :: us ∧ ∀ b, t.kind ≠ .closes b := by
  cases h with
  | word name => exact ⟨_, _, rfl, by simp [name]⟩
  | text string => exact ⟨_, _, rfl, by simp [string]⟩
  | number number => exact ⟨_, _, rfl, by simp [number]⟩
  | negative minus => exact ⟨_, _, rfl, by simp [minus]⟩
  | list opens => exact ⟨_, _, rfl, by simp [opens]⟩
  | object opens => exact ⟨_, _, rfl, by simp [opens]⟩

/-- Within `fuel` steps the reader accepts what the grammar derives from at most as many tokens. -/
structure Accepts (text : Text) (fuel : Nat) : Prop where
  value {ts : List Token} {v : Literal} (rest : List Token) (h : Denotes ts v)
    (hf : ts.length ≤ fuel) : value text fuel (ts ++ rest) = .ok (v, rest)
  items {ts : List Token} {vs : List Literal} (rest : List Token) (h : DenotesItems ts vs)
    (hf : ts.length ≤ fuel) : items text fuel (ts ++ rest) = .ok (vs, rest)
  members {ts : List Token} {es : List (Text × Literal)} (before : Entries Literal)
    (rest : List Token) (h : DenotesMembers ts es) (hf : ts.length ≤ fuel) :
    members text fuel before (ts ++ rest) = .ok (before.moveAll es, rest)

variable {text : Text} {fuel : Nat}

theorem Accepts.zero : Accepts text 0 where
  value rest h hf := by cases h <;> simp at hf
  items rest h hf := by cases h <;> simp at hf
  members before rest h hf := by cases h <;> simp at hf

theorem Accepts.value_succ (ih : Accepts text fuel) {ts : List Token} {v : Literal}
    (rest : List Token) (h : Denotes ts v) (hf : ts.length ≤ fuel + 1) :
    LiteralText.value text (fuel + 1) (ts ++ rest) = .ok (v, rest) := by
  cases h with
  | word name h => simp [LiteralText.value, name, h]
  | text string => simp [LiteralText.value, string]
  | number number h => simp [LiteralText.value, number, LiteralText.number, h]
  | negative minus number h =>
    simp [LiteralText.value, minus, number, LiteralText.number, h]
  | list opens items =>
    have read := ih.items rest items (by simpa using hf)
    simp [LiteralText.value, opens, read]
  | object opens members =>
    have read := ih.members [] rest members (by simpa using hf)
    simp [LiteralText.value, opens, read]
    rfl

theorem Accepts.items_succ (ih : Accepts text fuel) {ts : List Token} {vs : List Literal}
    (rest : List Token) (h : DenotesItems ts vs) (hf : ts.length ≤ fuel + 1) :
    LiteralText.items text (fuel + 1) (ts ++ rest) = .ok (vs, rest) := by
  cases h with
  | close closes => simp [LiteralText.items, closes]
  | @last ts v r value closes =>
    have read := ih.value (r :: rest) value (by simpa using hf)
    obtain ⟨t, us, rfl, head⟩ := value.exists_cons
    simp only [List.cons_append] at read
    simp [LiteralText.items, head, read, closes]
  | @more ts us v vs c value comma items =>
    have read := ih.value (c :: (us ++ rest)) value (by simp at hf; omega)
    have more := ih.items rest items (by simp at hf; omega)
    obtain ⟨t, us, rfl, head⟩ := value.exists_cons
    simp only [List.cons_append] at read
    simp [LiteralText.items, head, read, comma, more]

theorem Accepts.members_succ (ih : Accepts text fuel) {ts : List Token}
    {es : List (Text × Literal)} (before : Entries Literal) (rest : List Token)
    (h : DenotesMembers ts es) (hf : ts.length ≤ fuel + 1) :
    LiteralText.members text (fuel + 1) before (ts ++ rest) = .ok (before.moveAll es, rest) := by
  have ne {k : Token} (key : isKey k = true) : k.kind ≠ .closes .curly := by
    intro h
    simp [isKey, h] at key
  cases h with
  | close closes => simp [LiteralText.members, closes]
  | @last k c r ts v key colon value closes =>
    have read := ih.value (r :: rest) value (by simp at hf; omega)
    simp [LiteralText.members, ne key, key, colon, read, closes]
  | @more k c d ts us v es key colon value comma members =>
    have read := ih.value (d :: (us ++ rest)) value (by simp at hf; omega)
    have more := ih.members (before.move k.value v) rest members (by simp at hf; omega)
    simp [LiteralText.members, ne key, key, colon, read, comma, more]

theorem accepts (text : Text) (fuel : Nat) : Accepts text fuel := by
  induction fuel with
  | zero => exact .zero
  | succ fuel ih => exact ⟨ih.value_succ, ih.items_succ, ih.members_succ⟩

/-- A text whose tokens denote a value denotes that value. -/
theorem ofTokens_of_denotes {ts : List Token} {v : Literal} (h : Denotes ts v) {e : Token}
    (eof : e.kind = .eof) : ofTokens text (ts ++ [e]) = .ok v := by
  have read := (accepts text (2 * (ts ++ [e]).length + 2)).value [e] h (by simp; omega)
  rw [ofTokens, read]
  simp [eof, Token.first]

/-! ### What the reader accepts, the grammar derives -/

/-- What the reader accepts within `fuel` steps starts with tokens that the grammar derives. -/
structure Sound (text : Text) (fuel : Nat) : Prop where
  value {ts rest : List Token} {v : Literal} (h : value text fuel ts = .ok (v, rest)) :
    ∃ us, ts = us ++ rest ∧ Denotes us v
  items {ts rest : List Token} {vs : List Literal} (h : items text fuel ts = .ok (vs, rest)) :
    ∃ us, ts = us ++ rest ∧ DenotesItems us vs
  members {ts rest : List Token} {before entries : Entries Literal}
    (h : members text fuel before ts = .ok (entries, rest)) :
    ∃ us es, ts = us ++ rest ∧ DenotesMembers us es ∧ entries = before.moveAll es

theorem refuse_ne_ok {α : Type} {cause : ParseCause} {ts : List Token} {a : α} :
    refuse text cause ts ≠ .ok a := by simp [refuse]

theorem number_eq_ok {t : Token} {v : Literal} :
    number t = .ok v ↔ NumberLiteral.value? t.value = some v := by
  unfold number
  cases NumberLiteral.value? t.value <;> simp

theorem Sound.zero : Sound text 0 where
  value h := absurd h refuse_ne_ok
  items h := absurd h refuse_ne_ok
  members h := absurd h refuse_ne_ok

theorem Sound.value_succ (ih : Sound text fuel) {ts rest : List Token} {v : Literal}
    (h : LiteralText.value text (fuel + 1) ts = .ok (v, rest)) :
    ∃ us, ts = us ++ rest ∧ Denotes us v := by
  cases ts with
  | nil => exact absurd h refuse_ne_ok
  | cons t more =>
    rw [LiteralText.value.eq_def] at h
    dsimp only at h
    split at h
    · next opens =>
      obtain ⟨⟨entries, left⟩, read, eq⟩ := bind_eq_ok.1 h
      cases eq
      obtain ⟨us, es, rfl, derived, rfl⟩ := ih.members read
      exact ⟨t :: us, rfl, .object opens derived⟩
    · next opens =>
      obtain ⟨⟨vs, left⟩, read, eq⟩ := bind_eq_ok.1 h
      cases eq
      obtain ⟨us, rfl, derived⟩ := ih.items read
      exact ⟨t :: us, rfl, .list opens derived⟩
    · next string =>
      cases h
      exact ⟨[t], rfl, .text string⟩
    · next number =>
      obtain ⟨v, read, eq⟩ := bind_eq_ok.1 h
      cases eq
      exact ⟨[t], rfl, .number number (number_eq_ok.1 read)⟩
    · next operator =>
      split at h
      · next minus =>
        cases more with
        | nil => exact absurd h refuse_ne_ok
        | cons n left =>
          dsimp only at h
          split at h
          · next number =>
            obtain ⟨v, read, eq⟩ := bind_eq_ok.1 h
            cases eq
            exact ⟨[t, n], rfl, .negative ⟨operator, minus⟩ number (number_eq_ok.1 read)⟩
          · exact absurd h refuse_ne_ok
      · exact absurd h refuse_ne_ok
    · next name =>
      split at h
      · next v word =>
        cases h
        exact ⟨[t], rfl, .word name word⟩
      · exact absurd h refuse_ne_ok
    · exact absurd h refuse_ne_ok

theorem Sound.items_succ (ih : Sound text fuel) {ts rest : List Token} {vs : List Literal}
    (h : LiteralText.items text (fuel + 1) ts = .ok (vs, rest)) :
    ∃ us, ts = us ++ rest ∧ DenotesItems us vs := by
  cases ts with
  | nil => exact absurd h refuse_ne_ok
  | cons t more =>
    rw [LiteralText.items] at h
    split at h
    · next closes =>
      cases h
      exact ⟨[t], rfl, .close closes⟩
    · obtain ⟨⟨v, left⟩, read, after⟩ := bind_eq_ok.1 h
      obtain ⟨us, eq, derived⟩ := ih.value read
      cases left with
      | nil => exact absurd after refuse_ne_ok
      | cons d left =>
        dsimp only at after
        split at after
        · next comma =>
          obtain ⟨⟨ws, left'⟩, read', eq'⟩ := bind_eq_ok.1 after
          cases eq'
          obtain ⟨us', rfl, derived'⟩ := ih.items read'
          exact ⟨us ++ d :: us', by simp [eq], .more derived comma derived'⟩
        · split at after
          · next closes =>
            cases after
            exact ⟨us ++ [d], by simp [eq], .last derived closes⟩
          · exact absurd after refuse_ne_ok

theorem Sound.members_succ (ih : Sound text fuel) {ts rest : List Token}
    {before entries : Entries Literal}
    (h : LiteralText.members text (fuel + 1) before ts = .ok (entries, rest)) :
    ∃ us es, ts = us ++ rest ∧ DenotesMembers us es ∧ entries = before.moveAll es := by
  cases ts with
  | nil => exact absurd h refuse_ne_ok
  | cons k more =>
    rw [LiteralText.members.eq_def] at h
    dsimp only at h
    split at h
    · next closes =>
      cases h
      exact ⟨[k], [], rfl, .close closes, rfl⟩
    · split at h
      · exact absurd h refuse_ne_ok
      · next key =>
        have key : isKey k = true := by simpa using key
        cases more with
        | nil => exact absurd h refuse_ne_ok
        | cons c more =>
          dsimp only at h
          split at h
          · exact absurd h refuse_ne_ok
          · next colon =>
            have colon : c.kind = .colon := by simpa using colon
            obtain ⟨⟨v, left⟩, read, after⟩ := bind_eq_ok.1 h
            obtain ⟨us, rfl, derived⟩ := ih.value read
            cases left with
            | nil => exact absurd after refuse_ne_ok
            | cons d left =>
              dsimp only at after
              split at after
              · next comma =>
                obtain ⟨us', es, rfl, derived', rfl⟩ := ih.members after
                exact ⟨k :: c :: (us ++ d :: us'), (k.value, v) :: es, by simp,
                  .more key colon derived comma derived', rfl⟩
              · split at after
                · next closes =>
                  cases after
                  exact ⟨k :: c :: (us ++ [d]), [(k.value, v)], by simp,
                    .last key colon derived closes, rfl⟩
                · exact absurd after refuse_ne_ok

theorem sound (text : Text) (fuel : Nat) : Sound text fuel := by
  induction fuel with
  | zero => exact .zero
  | succ fuel ih => exact ⟨ih.value_succ, ih.items_succ, ih.members_succ⟩

/-- The end follows, maybe behind a semicolon. -/
def Ends (rest : List Token) : Prop :=
  (Token.first rest).kind = .eof ∨
    ∃ t more, rest = t :: more ∧ t.kind = .semicolon ∧ (Token.first more).kind = .eof

/-- Tokens that are read as a value start with those that denote it, and then they end. -/
theorem exists_of_ofTokens {ts : List Token} {v : Literal} (h : ofTokens text ts = .ok v) :
    ∃ us rest, ts = us ++ rest ∧ Denotes us v ∧ Ends rest := by
  obtain ⟨⟨w, rest⟩, read, last⟩ := bind_eq_ok.1 h
  obtain ⟨us, eq, denotes⟩ := (sound text _).value read
  have ended {left : List Token} (h : (if (Token.first left).kind = .eof then pure w
      else refuse text .trailingContent left : Except ReadError Literal) = .ok v) :
      (Token.first left).kind = .eof ∧ w = v := by
    split at h
    · next eof => exact ⟨eof, Except.ok.inj h⟩
    · exact absurd h refuse_ne_ok
  obtain ⟨eof, rfl⟩ := ended last
  refine ⟨us, rest, eq, denotes, ?_⟩
  cases rest with
  | nil => exact .inl rfl
  | cons t more =>
    dsimp only at eof
    split at eof
    · next semicolon => exact .inr ⟨t, more, rfl, semicolon, eof⟩
    · exact .inl eof

/-- If neither the end nor a semicolon is among the tokens, they denote what they are read as. -/
theorem denotes_of_ofTokens {ts : List Token} {e : Token} {v : Literal}
    (written : ∀ t ∈ ts, t.kind ≠ .eof ∧ t.kind ≠ .semicolon) (eof : e.kind = .eof)
    (h : ofTokens text (ts ++ [e]) = .ok v) : Denotes ts v := by
  obtain ⟨us, rest, eq, denotes, ends⟩ := exists_of_ofTokens h
  rcases List.suffix_concat_iff.1 ⟨us, eq.symm⟩ with rfl | ⟨vs, rfl, suffix⟩
  · rw [List.append_nil] at eq
    exact absurd eof (denotes.notEof e (by simp [← eq]))
  · cases vs with
    | nil => exact List.append_cancel_right eq ▸ denotes
    | cons t vs =>
      have plain := written t (suffix.subset (by simp))
      rcases ends with ended | ⟨d, more, same, semicolon, -⟩
      · exact absurd ended plain.1
      · cases same
        exact absurd semicolon plain.2

/-! ### Why the reader fails -/

theorem within_refuse {α : Type} {ts us : List Token} {rest : α → List Token} {cause : ParseCause}
    (h : us <:+ ts) : Within text ts rest (refuse text cause us) :=
  .of_cause (.malformed (Token.first_mem h) rfl rfl rfl)

/-- The value of a number token, or the failure for want of one. -/
theorem within_number {ts : List Token} {t : Token} (mem : t ∈ ts) (number : t.kind = .number) :
    Within text ts (fun _ : Literal => []) (LiteralText.number t) := by
  rw [LiteralText.number]
  split
  · exact .ok (List.nil_suffix ..)
  · next none => exact .of_cause (.number mem number none)

/-- What the reader does on any tokens with the given fuel. -/
structure ParsesWithin (text : Text) (fuel : Nat) : Prop where
  value : ∀ ts, Within text ts Prod.snd (value text fuel ts)
  items : ∀ ts, Within text ts Prod.snd (items text fuel ts)
  members : ∀ before ts, Within text ts Prod.snd (members text fuel before ts)

namespace ParsesWithin

theorem zero : ParsesWithin text 0 where
  value ts := within_refuse (List.suffix_refl ts)
  items ts := within_refuse (List.suffix_refl ts)
  members _ ts := within_refuse (List.suffix_refl ts)

theorem value_succ (ih : ParsesWithin text fuel) (ts : List Token) :
    Within text ts Prod.snd (LiteralText.value text (fuel + 1) ts) := by
  cases ts with
  | nil => exact within_refuse (List.suffix_refl [])
  | cons t more =>
    have whole := List.suffix_refl (t :: more)
    have tail := List.suffix_cons t more
    rw [LiteralText.value.eq_def]
    dsimp only
    split
    · exact ((ih.members [] more).mono tail).bind fun _ suffix => .ok suffix
    · exact ((ih.items more).mono tail).bind fun _ suffix => .ok suffix
    · exact .ok tail
    · next number => exact (within_number (by simp) number).bind fun _ _ => .ok tail
    · split
      · split
        · next n left =>
          have behind := (List.suffix_cons n left).trans tail
          split
          · next number => exact (within_number (by simp) number).bind fun _ _ => .ok behind
          · exact within_refuse tail
        · exact within_refuse tail
      · exact within_refuse whole
    · split
      · exact .ok tail
      · exact within_refuse whole
    · exact within_refuse whole

theorem items_succ (ih : ParsesWithin text fuel) (ts : List Token) :
    Within text ts Prod.snd (LiteralText.items text (fuel + 1) ts) := by
  cases ts with
  | nil => exact within_refuse (List.suffix_refl [])
  | cons t more =>
    rw [LiteralText.items.eq_def]
    dsimp only
    split
    · exact .ok (List.suffix_cons t more)
    · refine (ih.value (t :: more)).bind fun (v, left) suffix => ?_
      dsimp only at suffix ⊢
      split
      · exact within_refuse suffix
      · next d left =>
        have behind := (List.suffix_cons d left).trans suffix
        split
        · exact ((ih.items left).mono behind).bind fun _ suffix => .ok suffix
        split
        · exact .ok behind
        · exact within_refuse suffix

theorem members_succ (ih : ParsesWithin text fuel) (before : Entries Literal) (ts : List Token) :
    Within text ts Prod.snd (LiteralText.members text (fuel + 1) before ts) := by
  cases ts with
  | nil => exact within_refuse (List.suffix_refl [])
  | cons k more =>
    have tail := List.suffix_cons k more
    rw [LiteralText.members.eq_def]
    dsimp only
    split
    · exact .ok tail
    split
    · exact within_refuse (List.suffix_refl (k :: more))
    split
    · exact within_refuse tail
    · next c more =>
      have behind := (List.suffix_cons c more).trans tail
      split
      · exact within_refuse tail
      · refine ((ih.value more).mono behind).bind fun (v, left) suffix => ?_
        dsimp only at suffix ⊢
        split
        · exact within_refuse suffix
        · next d left =>
          have behind := (List.suffix_cons d left).trans suffix
          split
          · exact (ih.members _ left).mono behind
          split
          · exact .ok behind
          · exact within_refuse suffix

end ParsesWithin

theorem parsesWithin (text : Text) (fuel : Nat) : ParsesWithin text fuel := by
  induction fuel with
  | zero => exact .zero
  | succ fuel ih => exact ⟨ih.value_succ, ih.items_succ, ih.members_succ⟩

/-- Any failure of the reader is that of one of the tokens. -/
theorem cause_of_ofTokens {ts : List Token} {e : ReadError} (h : ofTokens text ts = .error e) :
    Cause text ts e := by
  have read : Within text ts (fun _ : Literal => []) (ofTokens text ts) := by
    refine ((parsesWithin text _).value ts).bind fun (v, rest) suffix => ?_
    have last {left : List Token} (part : left <:+ ts) : Within text ts (fun _ : Literal => [])
        (if (Token.first left).kind = .eof then pure v else refuse text .trailingContent left) := by
      split
      · exact .ok (List.nil_suffix ..)
      · exact within_refuse part
    apply last
    dsimp only at suffix ⊢
    split
    · next t more =>
      split
      · exact (List.suffix_cons t more).trans suffix
      · exact suffix
    · exact List.nil_suffix ..
  exact read.cause e h

/-- Every number among the tokens has a value. -/
def HaveValues (ts : List Token) : Prop :=
  ∀ t ∈ ts, t.kind = .number → (NumberLiteral.value? t.value).isSome = true

/-- If every number has a value, only a malformed text has none. -/
theorem malformed_of_ofTokens {ts : List Token} {e : ReadError} (hv : HaveValues ts)
    (h : ofTokens text ts = .error e) : ∃ m, e = .malformed m := by
  cases cause_of_ofTokens h with
  | malformed => exact ⟨_, rfl⟩
  | number mem number none =>
    have some := hv _ mem number
    rw [none] at some
    cases some

end LiteralText

end SchemaTypings
