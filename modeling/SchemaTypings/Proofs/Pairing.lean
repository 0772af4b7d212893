import SchemaTypings.Proofs.Delimiting

/-!
Brackets that are counted and brackets that are paired. The walk over a call pairs brackets by their
kind; the searches of the lenient reader count them, whatever their kind. Among tokens whose
brackets are all paired by kind, the count finds the bracket that belongs to the first one, and an
expression ends at the first delimiter that no bracket behind its start encloses.
-/

namespace SchemaTypings

open Declaration

/-- The brackets `l` and `r` belong together: they are of one kind, and so are the brackets of each
pair between them. -/
structure IsPair (l : Token) (inner : List Token) (r : Token) : Prop where
  kind : ∃ b, l.kind = .opens b ∧ r.kind = .closes b
  within : Nested Eq inner

/-- An expression that starts with the tokens `run` ends at the token `d`: it is the first delimiter
with only paired brackets in front of it. -/
structure EndsAt (run : List Token) (d : Token) : Prop where
  nested : Nested Eq run
  stops : d.kind = .comma ∨ d.kind = .semicolon ∨ ∃ b, d.kind = .closes b
  first : ∀ front t behind, run = front ++ t :: behind → Nested Eq front →
    t.kind.isDelimiter = false

namespace Nested

variable {pairs : Bracket → Bracket → Prop} {ts front rest : List Token}

/-- Nested tokens close what they open, by the count. -/
theorem balanced (h : Nested pairs ts) : Balanced ts := by
  induction h with
  | nil => rfl
  | plain here _ ih => exact (levelBehind?_flat here.2).trans ih
  | @group l r a b inner rest opened _ closed _ _ within behind =>
    have inside : levelBehind? 1 inner = some 1 := levelBehind?_add within 1
    rw [Balanced, levelBehind?_opens opened, levelBehind?_append, inside, Option.bind_some,
      levelBehind?_closes closed]
    exact behind

/-- Each opening bracket among nested tokens has one that belongs to it. -/
theorem exists_pair (h : Nested Eq ts) {l : Token} {b : Bracket} (split : ts = front ++ l :: rest)
    (opens : l.kind = .opens b) :
    ∃ inner r left, rest = inner ++ r :: left ∧ IsPair l inner r := by
  induction h generalizing front rest with
  | nil => cases front <;> cases split
  | @plain t ts here _ ih =>
    cases front with
    | nil =>
      obtain ⟨rfl, -⟩ := List.cons.inj split
      exact absurd opens (here.2 b).1
    | cons u front => exact ih (List.cons.inj split).2
  | @group l' r' a b' inner' rest' opened within' closed fits _ ih ih' =>
    cases front with
    | nil =>
      obtain ⟨rfl, rfl⟩ := List.cons.inj split
      exact ⟨inner', r', rest', rfl, ⟨a, opened, fits ▸ closed⟩, within'⟩
    | cons u front =>
      obtain ⟨-, split⟩ := List.cons.inj split
      -- The bracket stands behind the group or inside of it; it is not the one that closes it.
      obtain ⟨as, rfl, eq⟩ | ⟨bs, eq, eq'⟩ := List.append_eq_append_iff.1 split
      · cases as with
        | nil =>
          obtain ⟨rfl, -⟩ := List.cons.inj eq
          rw [closed] at opens
          cases opens
        | cons u as => exact ih' (List.cons.inj eq).2
      · cases bs with
        | nil =>
          obtain ⟨rfl, -⟩ := List.cons.inj eq'
          rw [closed] at opens
          cases opens
        | cons u bs =>
          obtain ⟨rfl, rfl⟩ := List.cons.inj eq'
          obtain ⟨inner, r, left, rfl, pair⟩ := ih eq
          exact ⟨inner, r, left ++ r' :: rest', by simp, pair⟩

/-- Behind a place among nested tokens all brackets are paired up to a closing one that belongs to a
bracket in front of the place, or up to the end. -/
theorem exists_run (h : Nested Eq ts) (split : ts = front ++ rest) :
    ∃ run left, rest = run ++ left ∧ Nested Eq run ∧
      (left = [] ∨ ∃ d more b, left = d :: more ∧ d.kind = .closes b) := by
  induction h generalizing front rest with
  | nil => exact ⟨[], [], (List.append_eq_nil_iff.1 split.symm).2, .nil, .inl rfl⟩
  | @plain t ts here nested ih =>
    cases front with
    | nil => exact ⟨t :: ts, [], by simp [split], .plain here nested, .inl rfl⟩
    | cons u front => exact ih (List.cons.inj split).2
  | @group l r a b inner rest' opened within closed fits behind ih ih' =>
    cases front with
    | nil => exact ⟨_, [], by simp [split], .group opened within closed fits behind, .inl rfl⟩
    | cons u front =>
      obtain ⟨-, split⟩ := List.cons.inj split
      obtain ⟨as, rfl, eq⟩ | ⟨bs, eq, rfl⟩ := List.append_eq_append_iff.1 split
      · cases as with
        | nil => exact ⟨[], rest, rfl, .nil, .inr ⟨r, rest', b, eq.symm, closed⟩⟩
        | cons u as => exact ih' (List.cons.inj eq).2
      · obtain ⟨run, left, rfl, nested, rfl | ⟨d, more, c, rfl, closes⟩⟩ := ih eq
        · exact ⟨run, r :: rest', by simp, nested, .inr ⟨r, rest', b, rfl, closed⟩⟩
        · exact ⟨run, d :: (more ++ r :: rest'), by simp, nested, .inr ⟨d, _, c, rfl, closes⟩⟩

end Nested

section

variable {source : Text} {l r t : Token} {b : Bracket} {inner run rest left : List Token}

/-! ### Counting -/

/-- The count finds the bracket that belongs to the first one. -/
theorem IsPair.closer? (h : IsPair l inner r) (left : List Token) :
    Declaration.closer? 0 (l :: (inner ++ r :: left)) = some (r, left) := by
  obtain ⟨b, opens, closes⟩ := h.kind
  rw [closer?_step (by simp), opens]
  exact (closer?_append h.within.balanced (r :: left)).trans (closer?_last ⟨rfl, b, closes⟩)

theorem IsPair.findCloser (h : IsPair l inner r) (left : List Token) :
    Declaration.findCloser source (l :: (inner ++ r :: left)) = .ok (r, left) := by
  rw [Declaration.findCloser, h.closer?]

/-- A bracket belongs to one other only. -/
theorem IsPair.unique {inner' left' : List Token} {r' : Token} (h : IsPair l inner r)
    (h' : IsPair l inner' r') (same : inner ++ r :: left = inner' ++ r' :: left') :
    inner = inner' ∧ r = r' ∧ left = left' := by
  have found := h.closer? left
  rw [same, h'.closer? left', Option.some.injEq, Prod.mk.injEq] at found
  obtain ⟨rfl, rfl⟩ := found
  exact ⟨List.append_cancel_right same, rfl, rfl⟩

/-- The walk over a call ends at that bracket too. -/
theorem IsPair.walkCall (h : IsPair l inner r) (error? : Option LexError) (left : List Token) :
    Declaration.walkCall error? [] true (l :: (inner ++ r :: left)) = .closed r.stop := by
  obtain ⟨b, opens, closes⟩ := h.kind
  rw [walkCall_opens opens, walkCall_nested h.within, walkCall_closes closes]
  simp

/-! ### Ends of expressions -/

/-- Tokens that may be passed over end no expression at its own depth. -/
theorem exists_endsAt (h : Nested Eq run) (closes : r.kind = .closes b) (left : List Token) :
    ∃ run' d rest, run ++ r :: left = run' ++ d :: rest ∧ EndsAt run' d := by
  induction h with
  | nil => exact ⟨[], r, left, rfl, .nil, .inr (.inr ⟨b, closes⟩), by simp⟩
  | @plain t ts here nested ih =>
    by_cases stops : t.kind = .comma ∨ t.kind = .semicolon
    · exact ⟨[], t, ts ++ r :: left, rfl, .nil, by tauto, by simp⟩
    · obtain ⟨run', d, rest, eq, ends⟩ := ih
      refine ⟨t :: run', d, rest, by simp [eq], .plain here ends.nested, ends.stops, ?_⟩
      rintro front u behind split nested'
      cases front with
      | nil =>
        obtain ⟨rfl, -⟩ := List.cons.inj split
        obtain ⟨eof, other⟩ := here
        cases kind : t.kind <;> simp_all [TokenKind.isDelimiter]
      | cons v front =>
        obtain ⟨rfl, more⟩ := List.cons.inj split
        cases nested' with
        | plain _ nested' => exact ends.first front u behind more nested'
        | group opened => exact absurd opened (here.2 _).1
  | @group l r' a a' inner rest' opened within closed fits nested ih ih' =>
    obtain ⟨run', d, rest, eq, ends⟩ := ih'
    refine ⟨l :: (inner ++ r' :: run'), d, rest, by simp [eq],
      .group opened within closed fits ends.nested, ends.stops, ?_⟩
    rintro front u behind split nested'
    cases front with
    | nil =>
      obtain ⟨rfl, -⟩ := List.cons.inj split
      rw [opened]
      rfl
    | cons v front =>
      obtain ⟨rfl, more⟩ := List.cons.inj split
      cases nested' with
      | plain here => exact absurd opened (here.2 _).1
      | @group _ r'' _ _ inner' rest'' opened' within' closed' fits' nested' =>
        have pair : IsPair l inner r' := ⟨⟨a, opened, fits ▸ closed⟩, within⟩
        have pair' : IsPair l inner' r'' := ⟨⟨_, opened', fits' ▸ closed'⟩, within'⟩
        have more' : inner ++ r' :: run' = inner' ++ r'' :: (rest'' ++ u :: behind) := by
          simpa using more
        exact ends.first rest'' u behind (pair.unique pair' more').2.2 nested'

theorem getLast?_cons_or (t : Token) (ts : List Token) (last : Option Token) :
    (t :: ts).getLast?.or last = ts.getLast?.or (some t) := by
  rw [List.getLast?_cons]
  cases ts.getLast? <;> rfl

theorem getLast?_group (l r : Token) (inner rest : List Token) (last : Option Token) :
    (l :: (inner ++ r :: rest)).getLast?.or last = rest.getLast?.or (some r) := by
  rw [getLast?_cons_or, List.getLast?_append, List.getLast?_cons]
  cases rest.getLast? <;> rfl

/-- Between brackets the search passes over nested tokens. -/
theorem toDelimiter_within (h : Nested Eq run) (depth : Nat) (last : Option Token)
    (left : List Token) :
    toDelimiter source (depth + 1) last (run ++ left) =
      toDelimiter source (depth + 1) (run.getLast?.or last) left := by
  induction h generalizing depth last left with
  | nil => rfl
  | plain here _ ih =>
    rw [List.cons_append, toDelimiter_step here.1 (by simp), depthBehind_flat here.2, ih,
      getLast?_cons_or]
  | group opened _ closed _ _ within behind =>
    rw [List.cons_append, toDelimiter_step (by simp [opened]) (by simp), opened, depthBehind,
      List.append_assoc, within, List.cons_append, toDelimiter_step (by simp [closed]) (by simp),
      closed, depthBehind, Nat.add_sub_cancel, behind, getLast?_group]

/-- Outside of brackets it passes over nested tokens that do not end the expression. -/
theorem toDelimiter_nested (h : Nested Eq run)
    (on : ∀ front t behind, run = front ++ t :: behind → Nested Eq front →
      t.kind.isDelimiter = false) (last : Option Token) (left : List Token) :
    toDelimiter source 0 last (run ++ left) = toDelimiter source 0 (run.getLast?.or last) left := by
  induction h generalizing last left with
  | nil => rfl
  | @plain t ts here _ ih =>
    have first : t.kind.isDelimiter = false := on [] t ts rfl .nil
    rw [List.cons_append, toDelimiter_step here.1 (by simp [first]), depthBehind_flat here.2,
      ih fun front u behind split nested => on (t :: front) u behind (by simp [split])
        (.plain here nested), getLast?_cons_or]
  | @group l r a b inner rest opened within closed fits _ _ ih =>
    have first : l.kind.isDelimiter = false := on [] l _ rfl .nil
    rw [List.cons_append, toDelimiter_step (by simp [opened]) (by simp [first]), opened,
      depthBehind, List.append_assoc, toDelimiter_within within, List.cons_append,
      toDelimiter_step (by simp [closed]) (by simp), closed, depthBehind, Nat.add_sub_cancel,
      ih fun front u behind split nested => on (l :: (inner ++ r :: front)) u behind
        (by simp [split]) (.group opened within closed fits nested), getLast?_group]

/-- The search for the end of an expression stops at the first delimiter. -/
theorem EndsAt.toDelimiter (h : EndsAt run t) (rest : List Token) :
    Declaration.toDelimiter source 0 none (run ++ t :: rest) = .ok (run.getLast?, t :: rest) := by
  have eof : t.kind ≠ .eof := by
    rcases h.stops with kind | kind | ⟨b, kind⟩ <;> simp [kind]
  have stops : t.kind.isDelimiter = true := by
    rcases h.stops with kind | kind | ⟨b, kind⟩ <;> rw [kind] <;> rfl
  rw [toDelimiter_nested h.nested h.first, Option.or_none, Declaration.toDelimiter, if_neg eof,
    if_pos ⟨rfl, stops⟩]

end

/-! ### The searches of the reader -/

namespace Declaration

/-- The tokens of a call that the extraction finds are those between two brackets that belong
together. Each opening bracket among tokens that are nested by kind has exactly one that belongs to
it, at which both the walk and the count end; and from each place between the two the search for the
end of an expression stops at the first delimiter. -/
theorem counts_as_paired (source : Text) :
    (∀ ts error? stop, (Token.first ts).kind = .opens .round →
      walkCall error? [] false ts = .closed stop →
        ∃ l inner r left, ts = l :: (inner ++ r :: left) ∧ IsPair l inner r ∧ r.stop = stop) ∧
    ∀ front l rest behind b, Nested Eq (front ++ l :: rest) → l.kind = .opens b →
      ∃ inner r left, rest = inner ++ r :: left ∧ IsPair l inner r ∧
        (∀ inner' r' left', rest = inner' ++ r' :: left' → IsPair l inner' r' →
          r' = r ∧ left' = left) ∧
        (∀ error?, walkCall error? [] true (l :: rest ++ behind) = .closed r.stop) ∧
        findCloser source (l :: rest ++ behind) = .ok (r, left ++ behind) ∧
        ∀ p q, inner = p ++ q → ∃ run d more, q ++ r :: left = run ++ d :: more ∧ EndsAt run d ∧
          toDelimiter source 0 none (q ++ r :: left ++ behind) =
            .ok (run.getLast?, d :: more ++ behind) := by
  constructor
  · intro ts error? stop round closed
    obtain ⟨l, inner, r, left, rfl, call, rfl⟩ := (walkCall_eq_closed_iff round).1 closed
    exact ⟨l, inner, r, left, rfl, ⟨⟨.round, call.opened, call.closed⟩, call.within⟩, rfl⟩
  · intro front l rest behind b nested opens
    obtain ⟨inner, r, left, rfl, pair⟩ := nested.exists_pair rfl opens
    have whole : l :: (inner ++ r :: left) ++ behind = l :: (inner ++ r :: (left ++ behind)) := by
      simp
    refine ⟨inner, r, left, rfl, pair, fun inner' r' left' same pair' => ?_, ?_, ?_, ?_⟩
    · obtain ⟨-, rfl, rfl⟩ := pair.unique pair' same
      exact ⟨rfl, rfl⟩
    · intro error?
      rw [whole, pair.walkCall]
    · rw [whole, pair.findCloser]
    · rintro p q rfl
      -- What is left of the pair is a nested run and the bracket that closes behind it.
      have behindRun : ∃ run d more c, q ++ r :: left = run ++ d :: more ∧ Nested Eq run ∧
          d.kind = .closes c := by
        obtain ⟨run, rest, rfl, within, rfl | ⟨d, more, c, rfl, closes⟩⟩ :=
          pair.within.exists_run rfl
        · obtain ⟨c, -, closes⟩ := pair.kind
          exact ⟨run, r, left, c, by simp, within, closes⟩
        · exact ⟨run, d, more ++ r :: left, c, by simp, within, closes⟩
      obtain ⟨run, d, more, c, eq, within, closes⟩ := behindRun
      obtain ⟨run', d', more', eq', ends⟩ := exists_endsAt within closes more
      refine ⟨run', d', more', eq.trans eq', ends, ?_⟩
      rw [eq, eq', List.append_assoc, List.cons_append, ends.toDelimiter]

/-- The tokens of `({ [a, b]; c })` behind the first two, and all of them. -/
def pairedTokens : List Token :=
  [⟨.opens .square, "[", 3, 4⟩, ⟨.name, "a", 4, 5⟩, ⟨.comma, ",", 5, 6⟩, ⟨.name, "b", 7, 8⟩,
    ⟨.closes .square, "]", 8, 9⟩, ⟨.semicolon, ";", 9, 10⟩, ⟨.name, "c", 11, 12⟩,
    ⟨.closes .curly, "\x7d", 13, 14⟩, ⟨.closes .round, ")", 14, 15⟩]

def callTokens : List Token :=
  ⟨.opens .round, "(", 0, 1⟩ :: ⟨.opens .curly, "\x7b", 1, 2⟩ :: pairedTokens

theorem nested_callTokens : Nested Eq callTokens := by
  have name (v : Text) (p q : Nat) : (⟨.name, v, p, q⟩ : Token).IsPlain := by simp [Token.IsPlain]
  have items : Nested Eq [⟨.name, "a", 4, 5⟩, ⟨.comma, ",", 5, 6⟩, ⟨.name, "b", 7, 8⟩] :=
    .plain (name ..) (.plain (by simp [Token.IsPlain]) (.plain (name ..) .nil))
  have more : Nested Eq [⟨.semicolon, ";", 9, 10⟩, ⟨.name, "c", 11, 12⟩] :=
    .plain (by simp [Token.IsPlain]) (.plain (name ..) .nil)
  have list := Nested.group (l := ⟨.opens .square, "[", 3, 4⟩) rfl items
    (r := ⟨.closes .square, "]", 8, 9⟩) rfl rfl more
  have object := Nested.single (l := ⟨.opens .curly, "\x7b", 1, 2⟩) rfl list
    (r := ⟨.closes .curly, "\x7d", 13, 14⟩) rfl rfl
  exact Nested.single (l := ⟨.opens .round, "(", 0, 1⟩) rfl object
    (r := ⟨.closes .round, ")", 14, 15⟩) rfl rfl

theorem counts_as_paired_call :
    walkCall none [] false callTokens = .closed 15 ∧ Nested Eq callTokens ∧
      (∃ l inner r left, callTokens = l :: (inner ++ r :: left) ∧ IsPair l inner r ∧ r.stop = 15) ∧
      ∃ inner r left, pairedTokens = inner ++ r :: left ∧
        IsPair ⟨.opens .curly, "\x7b", 1, 2⟩ inner r ∧
        findCloser "" (⟨.opens .curly, "\x7b", 1, 2⟩ :: pairedTokens ++ [Token.eof 15]) =
          .ok (r, left ++ [Token.eof 15]) := by
  have closed : walkCall none [] false callTokens = .closed 15 := by decide
  obtain ⟨found, paired⟩ := counts_as_paired ""
  obtain ⟨inner, r, left, eq, pair, -, -, closer, -⟩ :=
    paired [⟨.opens .round, "(", 0, 1⟩] ⟨.opens .curly, "\x7b", 1, 2⟩ pairedTokens [Token.eof 15]
      .curly nested_callTokens rfl
  exact ⟨closed, nested_callTokens, found callTokens none 15 rfl closed, inner, r, left, eq, pair,
    closer⟩

end Declaration

end SchemaTypings
