import SchemaTypings.Proofs.Grammar
import SchemaTypings.Proofs.Spans

/-!
The grammar of literal text, written as it is documented: a value is an object, a list, a string, a
number with or without a minus, or one of four words; entries and items stand between commas, and one
more comma may follow the last of them. A text has a value exactly if its tokens are derived as that
value, with at most a semicolon before the end.
-/

namespace SchemaTypings

namespace Entries

variable {α : Type}

/-- The entries whose key does not occur again behind them, each where it stands. -/
def lasts : List (Text × α) → Entries α
  | [] => []
  | e :: rest => if e.1 ∈ keys rest then lasts rest else e :: lasts rest

/-- Putting entries in one after another removes those of the same keys that were there before. -/
theorem moveAll_eq_lasts (before : Entries α) (es : List (Text × α)) :
    before.moveAll es = before.filter (fun e => e.1 ∉ keys es) ++ lasts es := by
  induction es generalizing before with
  | nil =>
    rw [lasts, List.append_nil, moveAll_nil]
    exact (List.filter_eq_self.2 fun e _ => by simp).symm
  | cons e es ih =>
    obtain ⟨k, v⟩ := e
    have others : (before.erase k).filter (fun e => e.1 ∉ keys es) =
        before.filter (fun e => e.1 ∉ keys ((k, v) :: es)) := by
      rw [erase, List.filter_filter]
      apply List.filter_congr
      intro e _
      simp [Bool.and_comm]
    rw [moveAll_cons, ih, move, List.filter_append, others, List.append_assoc, lasts]
    by_cases again : k ∈ keys es
    · simp [again]
    · simp [again]

theorem lastWins_eq_lasts (es : List (Text × α)) : lastWins es = lasts es :=
  moveAll_eq_lasts [] es

end Entries

namespace LiteralText

/-- No token, or one of the kind. -/
def AtMostOne (kind : TokenKind) (ts : List Token) : Prop :=
  ts = [] ∨ ∃ t, ts = [t] ∧ t.kind = kind

mutual

/-- The tokens are derived as a value. -/
inductive Derives : List Token → Literal → Prop
  | bool {t : Token} (b : Bool) (name : t.kind = .name)
      (word : t.value = if b then "true" else "false") : Derives [t] (.bool b)
  | null {t : Token} (name : t.kind = .name) (word : t.value = "null" ∨ t.value = "undefined") :
      Derives [t] .null
  | text {t : Token} (string : t.kind = .string) : Derives [t] (.text t.value)
  | number {t : Token} {v : Literal} (number : t.kind = .number)
      (converts : NumberLiteral.value? t.value = some v) : Derives [t] v
  | negative {m t : Token} {v : Literal} (minus : m.kind = .operator ∧ m.value = "-")
      (number : t.kind = .number) (converts : NumberLiteral.value? t.value = some v) :
      Derives [m, t] v.negated
  | emptyList {l r : Token} (opens : l.kind = .opens .square) (closes : r.kind = .closes .square) :
      Derives [l, r] (.list [])
  | list {l r : Token} {ts cs : List Token} {vs : List Literal} (opens : l.kind = .opens .square)
      (items : DerivesItems ts vs) (trailing : AtMostOne .comma cs)
      (closes : r.kind = .closes .square) : Derives (l :: (ts ++ cs ++ [r])) (.list vs)
  | emptyObject {l r : Token} (opens : l.kind = .opens .curly) (closes : r.kind = .closes .curly) :
      Derives [l, r] (.object [])
  | object {l r : Token} {ts cs : List Token} {es : List (Text × Literal)}
      (opens : l.kind = .opens .curly) (entries : DerivesEntries ts es)
      (trailing : AtMostOne .comma cs) (closes : r.kind = .closes .curly) :
      Derives (l :: (ts ++ cs ++ [r])) (.object (Entries.lasts es))

/-- The tokens are values with commas between them. -/
inductive DerivesItems : List Token → List Literal → Prop
  | one {ts : List Token} {v : Literal} (value : Derives ts v) : DerivesItems ts [v]
  | more {ts us : List Token} {v : Literal} {vs : List Literal} {c : Token} (value : Derives ts v)
      (comma : c.kind = .comma) (items : DerivesItems us vs) :
      DerivesItems (ts ++ c :: us) (v :: vs)

/-- The tokens are entries with commas between them. -/
inductive DerivesEntries : List Token → List (Text × Literal) → Prop
  | one {ts : List Token} {e : Text × Literal} (entry : DerivesEntry ts e) : DerivesEntries ts [e]
  | more {ts us : List Token} {e : Text × Literal} {es : List (Text × Literal)} {c : Token}
      (entry : DerivesEntry ts e) (comma : c.kind = .comma) (entries : DerivesEntries us es) :
      DerivesEntries (ts ++ c :: us) (e :: es)

/-- The tokens are a key, a colon and a value. -/
inductive DerivesEntry : List Token → Text × Literal → Prop
  | mk {k c : Token} {ts : List Token} {v : Literal}
      (key : k.kind = .name ∨ k.kind = .string ∨ k.kind = .number) (colon : c.kind = .colon)
      (value : Derives ts v) : DerivesEntry (k :: c :: ts) (k.value, v)

end

/-- The tokens are a value, maybe a semicolon, and the end. -/
def DerivesText (ts : List Token) (v : Literal) : Prop :=
  ∃ us ss e, ts = us ++ ss ++ [e] ∧ Derives us v ∧ AtMostOne .semicolon ss ∧ e.kind = .eof

/-! ### Both grammars derive the same -/

theorem isKey_iff {k : Token} :
    isKey k = true ↔ k.kind = .name ∨ k.kind = .string ∨ k.kind = .number := by
  simp [isKey, or_assoc]

theorem AtMostOne.nil {kind : TokenKind} : AtMostOne kind [] := .inl rfl

theorem AtMostOne.one {kind : TokenKind} {t : Token} (h : t.kind = kind) : AtMostOne kind [t] :=
  .inr ⟨t, rfl, h⟩

theorem derives_of_keyword? {t : Token} {v : Literal} (name : t.kind = .name)
    (h : keyword? t.value = some v) : Derives [t] v := by
  unfold keyword? at h
  split at h
  · next word =>
    cases h
    exact .bool true name word
  split at h
  · next word =>
    cases h
    exact .bool false name word
  split at h
  · next word =>
    cases h
    exact .null name word
  · cases h

mutual

theorem Denotes.derives {ts : List Token} {v : Literal} : Denotes ts v → Derives ts v
  | .word name h => derives_of_keyword? name h
  | .text string => .text string
  | .number number h => .number number h
  | .negative minus number h => .negative minus number h
  | .list opens items => by
    obtain ⟨r, closes, ⟨rfl, rfl⟩ | ⟨us, cs, rfl, trailing, derived⟩⟩ := items.derives
    · exact .emptyList opens closes
    · exact .list opens derived trailing closes
  | .object opens members => by
    rw [Entries.lastWins_eq_lasts]
    obtain ⟨r, closes, ⟨rfl, rfl⟩ | ⟨us, cs, rfl, trailing, derived⟩⟩ := members.derives
    · exact .emptyObject opens closes
    · exact .object opens derived trailing closes

theorem DenotesItems.derives {ts : List Token} {vs : List Literal} : DenotesItems ts vs →
    ∃ r, r.kind = .closes .square ∧ ((ts = [r] ∧ vs = []) ∨
      ∃ us cs, ts = us ++ cs ++ [r] ∧ AtMostOne .comma cs ∧ DerivesItems us vs)
  | .close closes => ⟨_, closes, .inl ⟨rfl, rfl⟩⟩
  | .last value closes => ⟨_, closes, .inr ⟨_, [], by simp, .nil, .one value.derives⟩⟩
  | @DenotesItems.more ts _ _ _ c value comma items => by
    obtain ⟨r, closes, ⟨rfl, rfl⟩ | ⟨us, cs, rfl, trailing, derived⟩⟩ := items.derives
    · exact ⟨r, closes, .inr ⟨ts, [c], by simp, .one comma, .one value.derives⟩⟩
    · exact ⟨r, closes, .inr ⟨ts ++ c :: us, cs, by simp, trailing, .more value.derives comma derived⟩⟩

theorem DenotesMembers.derives {ts : List Token} {es : List (Text × Literal)} :
    DenotesMembers ts es → ∃ r, r.kind = .closes .curly ∧ ((ts = [r] ∧ es = []) ∨
      ∃ us cs, ts = us ++ cs ++ [r] ∧ AtMostOne .comma cs ∧ DerivesEntries us es)
  | .close closes => ⟨_, closes, .inl ⟨rfl, rfl⟩⟩
  | .last key colon value closes =>
    ⟨_, closes, .inr ⟨_, [], by simp, .nil, .one (.mk (isKey_iff.1 key) colon value.derives)⟩⟩
  | @DenotesMembers.more k c d ts _ _ _ key colon value comma members => by
    have entry := DerivesEntry.mk (isKey_iff.1 key) colon value.derives
    obtain ⟨r, closes, ⟨rfl, rfl⟩ | ⟨us, cs, rfl, trailing, derived⟩⟩ := members.derives
    · exact ⟨r, closes, .inr ⟨k :: c :: ts, [d], by simp, .one comma, .one entry⟩⟩
    · exact ⟨r, closes, .inr ⟨(k :: c :: ts) ++ d :: us, cs, by simp, trailing,
        .more entry comma derived⟩⟩

end

mutual

theorem Derives.denotes {ts : List Token} {v : Literal} : Derives ts v → Denotes ts v
  | .bool b name word => .word name (by cases b <;> simp [word] <;> rfl)
  | .null name word => .word name (by rcases word with word | word <;> rw [word] <;> rfl)
  | .text string => .text string
  | .number number converts => .number number converts
  | .negative minus number converts => .negative minus number converts
  | .emptyList opens closes => .list opens (.close closes)
  | .list opens items trailing closes => .list opens (items.denotes trailing closes)
  | .emptyObject opens closes => .object opens (.close closes)
  | .object opens entries trailing closes => by
    rw [← Entries.lastWins_eq_lasts]
    exact .object opens (entries.denotes trailing closes)

theorem DerivesItems.denotes {ts cs : List Token} {vs : List Literal} {r : Token} :
    DerivesItems ts vs → AtMostOne .comma cs → r.kind = .closes .square →
      DenotesItems (ts ++ cs ++ [r]) vs
  | .one value, .inl no, closes => by
    rw [no, List.append_nil]
    exact .last value.denotes closes
  | .one value, .inr ⟨c, one, comma⟩, closes => by
    rw [one, List.append_assoc]
    exact .more value.denotes comma (.close closes)
  | .more value comma items, trailing, closes => by
    have denotes := DenotesItems.more value.denotes comma (items.denotes trailing closes)
    simpa only [List.append_assoc, List.cons_append] using denotes

theorem DerivesEntries.denotes {ts cs : List Token} {es : List (Text × Literal)} {r : Token} :
    DerivesEntries ts es → AtMostOne .comma cs → r.kind = .closes .curly →
      DenotesMembers (ts ++ cs ++ [r]) es
  | .one (.mk key colon value), .inl no, closes => by
    rw [no, List.append_nil]
    exact .last (isKey_iff.2 key) colon value.denotes closes
  | .one (.mk key colon value), .inr ⟨c, one, comma⟩, closes => by
    rw [one, List.append_assoc]
    exact .more (isKey_iff.2 key) colon value.denotes comma (.close closes)
  | .more (.mk key colon value) comma entries, trailing, closes => by
    have denotes := DenotesMembers.more (isKey_iff.2 key) colon value.denotes comma
      (entries.denotes trailing closes)
    simpa only [List.append_assoc, List.cons_append] using denotes

end

end LiteralText

/-! ### The whole text -/

/-- The kinds of the tokens of a text tell which one is the last. -/
theorem exists_of_tokenize {text : Text} {ts : List Token} (h : tokenize text = .ok ts) :
    ∃ us e, ts = us ++ [e] ∧ e.kind = .eof ∧ ∀ t ∈ us, t.kind ≠ .eof := by
  obtain ⟨us, split, others⟩ := exists_front_of_tokenize h
  exact ⟨us, _, split, rfl, others⟩

namespace LiteralText

variable {text : Text}

/-- Behind a value only the end is left, or a semicolon and the end. -/
theorem Ends.exists_atMostOne {rest us : List Token} {e : Token} (h : Ends rest)
    (suffix : rest <:+ us ++ [e]) (some : rest ≠ [])
    (others : ∀ t ∈ us, t.kind ≠ .eof) : ∃ ss, rest = ss ++ [e] ∧ AtMostOne .semicolon ss := by
  obtain rfl | ⟨ss, rfl, within⟩ := List.suffix_concat_iff.1 suffix
  · exact absurd rfl some
  refine ⟨ss, rfl, ?_⟩
  rcases h with first | ⟨t, more, eq, semicolon, first⟩
  · cases ss with
    | nil => exact .nil
    | cons t ss => exact absurd first (others t (within.subset (by simp)))
  · match ss with
    | [] => exact .nil
    | [s] =>
      cases eq
      exact .one semicolon
    | s :: t :: ss =>
      cases eq
      exact absurd first (others t (within.subset (by simp)))

theorem ofTokens_of_derivesText {ts : List Token} {v : Literal} (h : DerivesText ts v) :
    ofTokens text ts = .ok v := by
  obtain ⟨us, ss, e, rfl, derives, semicolon, eof⟩ := h
  rcases semicolon with rfl | ⟨s, rfl, semicolon⟩
  · rw [List.append_nil]
    exact ofTokens_of_denotes derives.denotes eof
  · have read := (accepts text (2 * (us ++ [s] ++ [e]).length + 2)).value [s, e] derives.denotes
      (by simp; omega)
    rw [List.append_assoc, List.singleton_append] at read ⊢
    rw [ofTokens, read]
    simp [semicolon, Token.first, eof]

end LiteralText

/-- A text is read as a value if and only if it has tokens that are derived as that value. -/
theorem Literal.parse_eq_ok_iff (text : Text) (v : Literal) :
    Literal.parse text = .ok v ↔
      ∃ ts, tokenize text = .ok ts ∧ LiteralText.DerivesText ts v := by
  constructor
  · intro h
    unfold Literal.parse at h
    split at h
    · cases h
    next ts tokens =>
    obtain ⟨us, rest, rfl, denotes, ends⟩ := LiteralText.exists_of_ofTokens h
    obtain ⟨body, e, eq, eof, others⟩ := exists_of_tokenize tokens
    have some : rest ≠ [] := by
      rintro rfl
      have mem : e ∈ us := by
        rw [List.append_nil] at eq
        simp [eq]
      exact denotes.notEof e mem eof
    obtain ⟨ss, rfl, semicolon⟩ :=
      ends.exists_atMostOne (eq ▸ List.suffix_append us rest) some others
    exact ⟨_, tokens, us, ss, e, (List.append_assoc ..).symm, denotes.derives, semicolon, eof⟩
  · rintro ⟨ts, tokens, derived⟩
    rw [Literal.parse, tokens]
    exact LiteralText.ofTokens_of_derivesText derived

end SchemaTypings
