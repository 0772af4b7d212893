import Mathlib
import SchemaTypings.Declaration.Extract

/-!
Brackets in pairs. The tokens between two brackets that belong together are nested, and the walk over
a call ends at the bracket that belongs to the first one.
-/

namespace SchemaTypings

/-- A token that is no bracket and does not mark the end. -/
def Token.IsPlain (t : Token) : Prop :=
  t.kind ≠ .eof ∧ ∀ b, t.kind ≠ .opens b ∧ t.kind ≠ .closes b

theorem Token.eof_or_bracket_or_isPlain (t : Token) :
    t.kind = .eof ∨ (∃ b, t.kind = .opens b) ∨ (∃ b, t.kind = .closes b) ∨ t.IsPlain := by
  unfold IsPlain
  cases t.kind <;> simp

/-- Each bracket among the tokens belongs to another one among them, which closes or opens it.
`pairs` tells which kinds of bracket may close which. -/
inductive Nested (pairs : Bracket → Bracket → Prop) : List Token → Prop
  | nil : Nested pairs []
  | plain {t : Token} {ts : List Token} (here : t.IsPlain) (rest : Nested pairs ts) :
      Nested pairs (t :: ts)
  | group {l r : Token} {a b : Bracket} {inner rest : List Token} (opened : l.kind = .opens a)
      (within : Nested pairs inner) (closed : r.kind = .closes b) (fits : pairs a b)
      (behind : Nested pairs rest) : Nested pairs (l :: (inner ++ r :: rest))

namespace Nested

variable {pairs : Bracket → Bracket → Prop} {ts us : List Token}

/-- One group of tokens in brackets. -/
theorem single {l r : Token} {a b : Bracket} (opened : l.kind = .opens a) (h : Nested pairs ts)
    (closed : r.kind = .closes b) (fits : pairs a b) : Nested pairs (l :: (ts ++ [r])) :=
  .group opened h closed fits .nil

/-- Only the kinds of the tokens matter. -/
theorem of_kinds (h : Nested pairs ts) (same : us.map Token.kind = ts.map Token.kind) :
    Nested pairs us := by
  induction h generalizing us with
  | nil =>
    rw [List.map_nil, List.map_eq_nil_iff] at same
    subst same
    exact .nil
  | plain here _ ih =>
    obtain ⟨u, us, rfl, kind, rest⟩ := List.map_eq_cons_iff.1 same
    refine .plain ?_ (ih rest)
    rw [Token.IsPlain, kind]
    exact here
  | group opened _ closed fits _ within behind =>
    obtain ⟨u, us, rfl, kind, others⟩ := List.map_eq_cons_iff.1 same
    rw [List.map_append, List.map_cons] at others
    obtain ⟨inner, us, rfl, inside, others⟩ := List.map_eq_append_iff.1 others
    obtain ⟨v, us, rfl, kind', rest⟩ := List.map_eq_cons_iff.1 others
    exact .group (kind.trans opened) (within inside) (kind'.trans closed) fits (behind rest)

end Nested

/-! ### Depth -/

namespace Token

/-- What a token adds to the number of open brackets. -/
def turn (t : Token) : Int :=
  match t.kind with
  | .opens _ => 1
  | .closes _ => -1
  | _ => 0

/-- How many more brackets the tokens open than they close. -/
def depth (ts : List Token) : Int := (ts.map turn).sum

@[simp] theorem depth_nil : depth [] = 0 := rfl

@[simp] theorem depth_cons (t : Token) (ts : List Token) : depth (t :: ts) = t.turn + depth ts := by
  simp [depth]

@[simp] theorem depth_append (ts us : List Token) : depth (ts ++ us) = depth ts + depth us := by
  simp [depth]

theorem turn_opens {t : Token} {b : Bracket} (h : t.kind = .opens b) : t.turn = 1 := by
  simp [turn, h]

theorem turn_closes {t : Token} {b : Bracket} (h : t.kind = .closes b) : t.turn = -1 := by
  simp [turn, h]

theorem turn_plain {t : Token} (h : t.IsPlain) : t.turn = 0 := by
  obtain ⟨-, other⟩ := h
  unfold turn
  split
  · next b opens => exact absurd opens (other b).1
  · next b closes => exact absurd closes (other b).2
  · rfl

end Token

namespace Nested

open Token

variable {pairs : Bracket → Bracket → Prop} {ts : List Token}

theorem depth_eq (h : Nested pairs ts) : depth ts = 0 := by
  induction h with
  | nil => rfl
  | plain here _ ih => rw [depth_cons, turn_plain here, ih, Int.add_zero]
  | group opened _ closed _ _ within behind =>
    rw [depth_cons, depth_append, depth_cons, turn_opens opened, turn_closes closed, within, behind]
    rfl

/-- Nested tokens never close more brackets than they have opened. -/
theorem depth_nonneg (h : Nested pairs ts) {us vs : List Token} (split : ts = us ++ vs) :
    0 ≤ depth us := by
  induction h generalizing us vs with
  | nil =>
    rw [(List.append_eq_nil_iff.1 split.symm).1, depth_nil]
  | plain here _ ih =>
    cases us with
    | nil => exact Int.le_refl 0
    | cons u us =>
      obtain ⟨rfl, rest⟩ := List.cons.inj split
      rw [depth_cons, turn_plain here]
      have := ih rest
      omega
  | @group l r a b inner rest opened within closed fits behind ih ih' =>
    cases us with
    | nil => exact Int.le_refl 0
    | cons u us =>
      obtain ⟨rfl, behindFirst⟩ := List.cons.inj split
      rw [depth_cons, turn_opens opened]
      -- The split is either inside the brackets or behind them.
      obtain ⟨as, rfl, eq⟩ | ⟨bs, eq, -⟩ := List.append_eq_append_iff.1 behindFirst
      · rw [depth_append, within.depth_eq]
        cases as with
        | nil => exact Int.zero_le_ofNat 1
        | cons u as =>
          obtain ⟨rfl, last⟩ := List.cons.inj eq
          rw [depth_cons, turn_closes closed]
          have := ih' last
          omega
      · have := ih eq
        omega

/-- Between the two brackets of a group some bracket is always open. -/
theorem depth_pos {l r : Token} {a : Bracket} (opened : l.kind = .opens a) (h : Nested pairs ts)
    {us vs : List Token} (split : l :: (ts ++ [r]) = us ++ vs) (front : us ≠ []) (behind : vs ≠ []) :
    0 < depth us := by
  cases us with
  | nil => exact absurd rfl front
  | cons u us =>
    obtain ⟨rfl, others⟩ := List.cons.inj split
    have within : ∃ bs, ts = us ++ bs := by
      obtain ⟨as, rfl, eq⟩ | ⟨bs, eq, -⟩ := List.append_eq_append_iff.1 others
      · cases as with
        | nil => exact ⟨[], by simp⟩
        | cons a as =>
          obtain ⟨-, none⟩ := List.cons.inj eq
          exact absurd (List.append_eq_nil_iff.1 none.symm).2 behind
      · exact ⟨bs, eq⟩
    obtain ⟨bs, eq⟩ := within
    have := h.depth_nonneg eq
    rw [depth_cons, turn_opens opened]
    omega

end Nested

/-! ### The walk over a call -/

namespace Declaration

section

variable {error? : Option LexError} {b b' : Bracket} {stack : List Bracket} {t : Token}
  {ts : List Token}

theorem walkCall_plain (h : t.IsPlain) :
    walkCall error? stack true (t :: ts) = walkCall error? stack true ts := by
  obtain ⟨eof, other⟩ := h
  rw [walkCall, if_neg eof, if_neg (by simp), Bool.true_or]
  dsimp only
  split
  · next b opens => exact absurd opens (other b).1
  · next b closes => exact absurd closes (other b).2
  · rfl

theorem walkCall_opens (h : t.kind = .opens b) :
    walkCall error? stack true (t :: ts) = walkCall error? (b :: stack) true ts := by
  simp [walkCall, h]

theorem walkCall_closes (h : t.kind = .closes b) :
    walkCall error? (b' :: stack) true (t :: ts) =
      if b' ≠ b then .notACall
      else if stack.isEmpty then .closed t.stop
      else walkCall error? stack true ts := by
  simp [walkCall, h]

/-- The walk passes over nested tokens. -/
theorem walkCall_nested (h : Nested Eq ts) (rest : List Token) :
    walkCall error? (b :: stack) true (ts ++ rest) = walkCall error? (b :: stack) true rest := by
  induction h generalizing b stack rest with
  | nil => rfl
  | plain here _ ih => rw [List.cons_append, walkCall_plain here, ih]
  | group opened _ closed fits _ within behind =>
    rw [List.cons_append, walkCall_opens opened, List.append_assoc, within, List.cons_append,
      walkCall_closes closed, if_neg (not_not_intro fits), if_neg (by simp), behind]

/-- Where a walk ends, the tokens up to the bracket that closes the last open one are nested. -/
theorem exists_nested_of_walkCall {stop : Nat}
    (h : walkCall error? (b :: stack) true ts = .closed stop) :
    ∃ inner r rest, ts = inner ++ r :: rest ∧ Nested Eq inner ∧ r.kind = .closes b ∧
      (if stack.isEmpty then r.stop = stop else walkCall error? stack true rest = .closed stop) := by
  induction hn : ts.length using Nat.strongRecOn generalizing b stack ts with
  | ind n ih =>
    cases ts with
    | nil => cases error? <;> simp [walkCall] at h
    | cons t ts =>
      rw [List.length_cons] at hn
      obtain eof | ⟨b', opens⟩ | ⟨b', closes⟩ | plain := t.eof_or_bracket_or_isPlain
      · rw [walkCall, if_pos eof] at h
        cases h
      · -- The brackets that open here are closed before the walk goes on in the outer ones.
        rw [walkCall_opens opens] at h
        obtain ⟨inner, r, rest, rfl, within, closed, go⟩ := ih ts.length (by omega) h rfl
        rw [if_neg (by simp)] at go
        rw [List.length_append, List.length_cons] at hn
        obtain ⟨inner', r', rest', rfl, behind, closed', go'⟩ := ih rest.length (by omega) go rfl
        exact ⟨t :: (inner ++ r :: inner'), r', rest', by simp,
          .group opens within closed rfl behind, closed', go'⟩
      · rw [walkCall_closes closes] at h
        split at h
        · cases h
        next same =>
        rw [Decidable.not_not] at same
        subst same
        refine ⟨[], t, ts, rfl, .nil, closes, ?_⟩
        split at h
        · next last =>
          rw [if_pos last]
          injection h
        · next more => rw [if_neg more, h]
      · rw [walkCall_plain plain] at h
        obtain ⟨inner, r, rest, rfl, within, closed, go⟩ := ih ts.length (by omega) h rfl
        exact ⟨t :: inner, r, rest, rfl, .plain plain within, closed, go⟩

end

/-- The tokens of a call whose first argument is an object literal: those between the brackets `l`
and `r`, which belong together. -/
structure IsCall (l : Token) (inner : List Token) (r : Token) : Prop where
  opened : l.kind = .opens .round
  object : (Token.first inner).kind = .opens .curly
  within : Nested Eq inner
  closed : r.kind = .closes .round

/-- Only the kinds of the tokens matter. -/
theorem IsCall.of_kinds {l l' r r' : Token} {inner inner' : List Token} (h : IsCall l inner r)
    (opens : l'.kind = l.kind) (same : inner'.map Token.kind = inner.map Token.kind)
    (closes : r'.kind = r.kind) : IsCall l' inner' r' where
  opened := opens.trans h.opened
  object := by
    have object := h.object
    cases inner with
    | nil => cases object
    | cons o inner =>
      obtain ⟨o', inner', rfl, kind, -⟩ := List.map_eq_cons_iff.1 same
      exact kind.trans object
  within := h.within.of_kinds same
  closed := closes.trans h.closed

/-- The walk over tokens that start with a round bracket ends behind a call, and only there. -/
theorem walkCall_eq_closed_iff {error? : Option LexError} {ts : List Token} {stop : Nat}
    (round : (Token.first ts).kind = .opens .round) :
    walkCall error? [] false ts = .closed stop ↔
      ∃ l inner r rest, ts = l :: (inner ++ r :: rest) ∧ IsCall l inner r ∧ r.stop = stop := by
  have start (l : Token) (ts : List Token) (opened : l.kind = .opens .round) :
      walkCall error? [] false (l :: ts) = walkCall error? [.round] false ts := by
    simp [walkCall, opened]
  have argument (o : Token) (ts : List Token) (curly : o.kind = .opens .curly) :
      walkCall error? [.round] false (o :: ts) = walkCall error? [.round] true (o :: ts) := by
    simp [walkCall, curly]
  constructor
  · intro h
    match ts with
    | [] => cases round
    | [l] =>
      rw [start l [] round] at h
      cases error? <;> simp [walkCall] at h
    | l :: o :: ts =>
      rw [start l _ round] at h
      have curly : o.kind = .opens .curly := by
        by_contra other
        by_cases eof : o.kind = .eof
        · rw [walkCall, if_pos eof] at h
          cases h
        · rw [walkCall, if_neg eof, if_pos ⟨rfl, rfl, other⟩] at h
          cases h
      rw [argument o ts curly] at h
      obtain ⟨inner, r, rest, eq, within, closed, stop⟩ := exists_nested_of_walkCall h
      refine ⟨l, inner, r, rest, by rw [eq], ⟨round, ?_, within, closed⟩, stop⟩
      cases inner with
      | nil =>
        obtain ⟨rfl, -⟩ := List.cons.inj eq
        rw [closed] at curly
        cases curly
      | cons o' inner =>
        obtain ⟨rfl, -⟩ := List.cons.inj eq
        exact curly
  · rintro ⟨l, inner, r, rest, rfl, call, rfl⟩
    rw [start l _ call.opened]
    have within := call.within
    have object := call.object
    cases inner with
    | nil => cases object
    | cons o inner =>
      rw [List.cons_append, argument o _ object, ← List.cons_append, walkCall_nested within,
        walkCall_closes call.closed]
      simp

end Declaration

end SchemaTypings
