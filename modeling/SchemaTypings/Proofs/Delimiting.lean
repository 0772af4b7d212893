import SchemaTypings.Proofs.Brackets
import SchemaTypings.Proofs.Failures
import SchemaTypings.Proofs.Reading

/-!
Where expressions end. Brackets are counted, whatever their kind, and an expression goes up to the
first delimiter outside of the brackets that it opens. The searches of the lenient reader pass over
balanced brackets, and end where the count says.
-/

namespace SchemaTypings

/-! ### Levels -/

/-- How many brackets are open behind the tokens, where `depth` are open in front of them, unless one
is closed that is not open. -/
def levelBehind? (depth : Nat) : List Token → Option Nat
  | [] => some depth
  | t :: ts =>
    match t.kind with
    | .opens _ => levelBehind? (depth + 1) ts
    | .closes _ => if depth = 0 then none else levelBehind? (depth - 1) ts
    | _ => levelBehind? depth ts

/-- A token that is no bracket. -/
def Token.IsFlat (t : Token) : Prop := ∀ b, t.kind ≠ .opens b ∧ t.kind ≠ .closes b

section

variable {depth level : Nat} {t : Token} {ts us : List Token} {b : Bracket}

theorem levelBehind?_opens (h : t.kind = .opens b) :
    levelBehind? depth (t :: ts) = levelBehind? (depth + 1) ts := by
  rw [levelBehind?, h]

theorem levelBehind?_closes (h : t.kind = .closes b) :
    levelBehind? (depth + 1) (t :: ts) = levelBehind? depth ts := by
  rw [levelBehind?, h]
  rfl

theorem levelBehind?_flat (h : t.IsFlat) :
    levelBehind? depth (t :: ts) = levelBehind? depth ts := by
  rw [levelBehind?]
  split
  · next b opens => exact absurd opens (h b).1
  · next b closes => exact absurd closes (h b).2
  · rfl

theorem levelBehind?_append :
    levelBehind? depth (ts ++ us) = (levelBehind? depth ts).bind (levelBehind? · us) := by
  fun_induction levelBehind? depth ts with
  | case1 => rfl
  | case2 depth t ts b opens ih => rw [List.cons_append, levelBehind?_opens opens, ih]
  | case3 t ts b closes => simp [levelBehind?, closes]
  | case4 depth t ts b closes some ih => simp [levelBehind?, closes, some, ih]
  | case5 depth t ts opens closes ih =>
    rw [List.cons_append, levelBehind?_flat fun b => ⟨opens b, closes b⟩, ih]

/-- More brackets may be open in front, and stay so. -/
theorem levelBehind?_add (h : levelBehind? depth ts = some level) (n : Nat) :
    levelBehind? (depth + n) ts = some (level + n) := by
  fun_induction levelBehind? depth ts with
  | case1 =>
    cases h
    rfl
  | case2 depth t ts b opens ih =>
    rw [levelBehind?_opens opens, Nat.add_right_comm]
    exact ih h
  | case3 => cases h
  | case4 depth t ts b closes some ih =>
    obtain ⟨depth, rfl⟩ := Nat.exists_eq_succ_of_ne_zero some
    rw [Nat.succ_add, levelBehind?_closes closes]
    exact ih h
  | case5 depth t ts opens closes ih =>
    rw [levelBehind?_flat fun b => ⟨opens b, closes b⟩]
    exact ih h

end

/-- The tokens close the brackets that they open, and no others. -/
def Balanced (ts : List Token) : Prop := levelBehind? 0 ts = some 0

/-- From `ts` one comes to `left` over balanced tokens. -/
def Passes (ts left : List Token) : Prop := ∃ run, ts = run ++ left ∧ Balanced run

namespace Passes

variable {t : Token} {ts us left : List Token}

theorem refl (ts : List Token) : Passes ts ts := ⟨[], rfl, rfl⟩

theorem trans (h : Passes ts us) (h' : Passes us left) : Passes ts left := by
  obtain ⟨run, rfl, balanced⟩ := h
  obtain ⟨run', rfl, balanced'⟩ := h'
  refine ⟨run ++ run', (List.append_assoc ..).symm, ?_⟩
  rw [Balanced, levelBehind?_append, balanced]
  exact balanced'

theorem flat (h : t.IsFlat) (ts : List Token) : Passes (t :: ts) ts :=
  ⟨[t], rfl, levelBehind?_flat h⟩

end Passes

/-- Behind balanced tokens of `ts` a bracket is closed in front of `left`. -/
def Closes (ts left : List Token) : Prop := ∃ r b, Passes ts (r :: left) ∧ r.kind = .closes b

namespace Closes

variable {t l : Token} {b : Bracket} {ts us left : List Token}

theorem here (closes : t.kind = .closes b) (ts : List Token) : Closes (t :: ts) ts :=
  ⟨t, b, .refl _, closes⟩

theorem behind (h : Closes us left) (passes : Passes ts us) : Closes ts left := by
  obtain ⟨r, b, rest, closes⟩ := h
  exact ⟨r, b, passes.trans rest, closes⟩

/-- Brackets with balanced tokens between them are passed over. -/
theorem group (h : Closes ts left) (opens : l.kind = .opens b) : Passes (l :: ts) left := by
  obtain ⟨r, b', ⟨run, rfl, balanced⟩, closes⟩ := h
  refine ⟨l :: (run ++ [r]), by simp, ?_⟩
  have inside : levelBehind? 1 run = some 1 := levelBehind?_add balanced 1
  rw [Balanced, levelBehind?_opens opens, levelBehind?_append, inside]
  exact levelBehind?_closes closes

end Closes

/-- At `ts` no bracket is closed that was open in front of all the tokens. -/
def Inside (all ts : List Token) : Prop :=
  ∃ front level, all = front ++ ts ∧ levelBehind? 0 front = some level

namespace Inside

variable {all ts left : List Token} {t : Token} {b : Bracket}

theorem refl (all : List Token) : Inside all all := ⟨[], 0, rfl, rfl⟩

theorem passes (h : Inside all ts) (h' : Passes ts left) : Inside all left := by
  obtain ⟨front, level, rfl, known⟩ := h
  obtain ⟨run, rfl, balanced⟩ := h'
  refine ⟨front ++ run, level, (List.append_assoc ..).symm, ?_⟩
  have behind := levelBehind?_add balanced level
  rw [Nat.zero_add] at behind
  rw [levelBehind?_append, known]
  exact behind

theorem opens (h : Inside all (t :: ts)) (opens : t.kind = .opens b) : Inside all ts := by
  obtain ⟨front, level, rfl, known⟩ := h
  refine ⟨front ++ [t], level + 1, List.append_cons .., ?_⟩
  rw [levelBehind?_append, known]
  exact levelBehind?_opens opens

theorem flat (h : Inside all (t :: ts)) (flat : t.IsFlat) : Inside all ts :=
  h.passes (.flat flat ts)

end Inside

namespace Declaration

/-! ### The end of an expression -/

/-- The tokens from the delimiter on that ends an expression: the first one outside of brackets, of
which `depth` are open. -/
def beyond (depth : Nat) : List Token → List Token
  | [] => []
  | t :: ts =>
    if depth = 0 ∧ t.kind.isDelimiter then t :: ts else beyond (depthBehind depth t.kind) ts

section

variable {depth : Nat} {t : Token} {ts left : List Token}

theorem suffix_beyond (depth : Nat) (ts : List Token) : beyond depth ts <:+ ts := by
  fun_induction beyond depth ts with
  | case1 | case2 => exact List.suffix_refl _
  | case3 depth t ts on ih => exact ih.trans (List.suffix_cons t ts)

theorem beyond_of_delimited (h : Delimited ts) : beyond 0 ts = ts := by
  cases ts with
  | nil => rfl
  | cons t ts => exact if_pos ⟨rfl, h⟩

theorem delimited_beyond (depth : Nat) (ts : List Token) : Delimited (beyond depth ts) := by
  fun_induction beyond depth ts with
  | case1 => rfl
  | case2 depth t ts stop => exact stop.2
  | case3 depth t ts on ih => exact ih

theorem beyond_step (on : ¬(depth = 0 ∧ t.kind.isDelimiter = true)) :
    beyond depth (t :: ts) = beyond (depthBehind depth t.kind) ts := if_neg on

theorem depthBehind_flat (h : t.IsFlat) : depthBehind depth t.kind = depth := by
  unfold depthBehind
  split
  · next b opens => exact absurd opens (h b).1
  · next b closes => exact absurd closes (h b).2
  · rfl

theorem beyond_flat (h : t.IsFlat) (on : t.kind.isDelimiter = false) :
    beyond 0 (t :: ts) = beyond 0 ts := by
  rw [beyond_step (by simp [on]), depthBehind_flat h]

/-- Between brackets nothing ends the expression around them. -/
theorem beyond_append {level : Nat} (h : levelBehind? depth ts = some level) (left : List Token) :
    beyond (depth + 1) (ts ++ left) = beyond (level + 1) left := by
  fun_induction levelBehind? depth ts with
  | case1 =>
    cases h
    rfl
  | case2 depth t ts b opens ih =>
    rw [List.cons_append, beyond_step (by simp), opens]
    exact ih h
  | case3 => cases h
  | case4 depth t ts b closes some ih =>
    rw [List.cons_append, beyond_step (by simp), closes]
    obtain ⟨depth, rfl⟩ := Nat.exists_eq_succ_of_ne_zero some
    exact ih h
  | case5 depth t ts opens closes ih =>
    rw [List.cons_append, beyond_step (by simp), depthBehind_flat fun b => ⟨opens b, closes b⟩]
    exact ih h

theorem beyond_group {l : Token} {b : Bracket} (opens : l.kind = .opens b)
    (closes : Closes ts left) : beyond 0 (l :: ts) = beyond 0 left := by
  obtain ⟨r, b', ⟨run, rfl, balanced⟩, close⟩ := closes
  rw [beyond_step (by simp [opens, TokenKind.isDelimiter]), opens]
  refine (beyond_append balanced (r :: left)).trans ?_
  rw [beyond_step (by simp), close]
  rfl

/-- The same for the search of a closing bracket. -/
theorem closer?_append {level : Nat} (h : levelBehind? depth ts = some level) (left : List Token) :
    closer? (depth + 1) (ts ++ left) = closer? (level + 1) left := by
  fun_induction levelBehind? depth ts with
  | case1 =>
    cases h
    rfl
  | case2 depth t ts b opens ih =>
    rw [List.cons_append, closer?_step (by simp [opens]), opens]
    exact ih h
  | case3 => cases h
  | case4 depth t ts b closes some ih =>
    rw [List.cons_append, closer?_step (by simp [some]), closes]
    obtain ⟨depth, rfl⟩ := Nat.exists_eq_succ_of_ne_zero some
    exact ih h
  | case5 depth t ts opens closes ih =>
    rw [List.cons_append, closer?_step fun last => last.2.elim closes,
      depthBehind_flat fun b => ⟨opens b, closes b⟩]
    exact ih h

theorem closer?_group {l : Token} {b : Bracket} (opens : l.kind = .opens b)
    (closes : Closes ts left) : ∃ r, closer? 0 (l :: ts) = some (r, left) := by
  obtain ⟨r, b', ⟨run, rfl, balanced⟩, close⟩ := closes
  refine ⟨r, ?_⟩
  rw [closer?_step (by simp), opens]
  exact (closer?_append balanced (r :: left)).trans (closer?_last ⟨rfl, b', close⟩)

end

/-! ### The searches of the reader -/

section

variable {source : Text} {depth : Nat} {ts left : List Token}

theorem eq_beyond_of_toDelimiter {last last' : Option Token}
    (h : toDelimiter source depth last ts = .ok (last', left)) : left = beyond depth ts := by
  fun_induction toDelimiter source depth last ts with
  | case1 =>
    cases h
    rfl
  | case2 last t ts eof =>
    cases h
    rw [beyond_of_delimited]
    rw [Delimited, Token.first, eof]
    rfl
  | case3 => cases h
  | case4 depth last t ts eof stop =>
    cases h
    exact (if_pos stop).symm
  | case5 depth last t ts eof on b opens ih =>
    rw [beyond_step on, opens]
    exact ih h
  | case6 depth last t ts eof on b closes ih =>
    rw [beyond_step on, closes]
    exact ih h
  | case7 depth last t ts eof on opens closes ih =>
    rw [beyond_step on, depthBehind_flat fun b => ⟨opens b, closes b⟩]
    exact ih h

theorem exists_run_of_toDelimiter {last last' : Option Token}
    (h : toDelimiter source depth last ts = .ok (last', left)) (more : left ≠ []) :
    ∃ run, ts = run ++ left ∧ levelBehind? depth run = some 0 := by
  fun_induction toDelimiter source depth last ts with
  | case1 =>
    cases h
    exact absurd rfl more
  | case2 last t ts eof =>
    cases h
    exact ⟨[], rfl, rfl⟩
  | case3 => cases h
  | case4 depth last t ts eof stop =>
    cases h
    exact ⟨[], rfl, by rw [stop.1]; rfl⟩
  | case5 depth last t ts eof on b opens ih =>
    obtain ⟨run, rfl, level⟩ := ih h
    exact ⟨t :: run, rfl, (levelBehind?_opens opens).trans level⟩
  | case6 depth last t ts eof on b closes ih =>
    have deep : depth ≠ 0 := fun zero => on ⟨zero, by rw [closes]; rfl⟩
    obtain ⟨depth, rfl⟩ := Nat.exists_eq_succ_of_ne_zero deep
    obtain ⟨run, rfl, level⟩ := ih h
    exact ⟨t :: run, rfl, (levelBehind?_closes closes).trans level⟩
  | case7 depth last t ts eof on opens closes ih =>
    obtain ⟨run, rfl, level⟩ := ih h
    exact ⟨t :: run, rfl, (levelBehind?_flat fun b => ⟨opens b, closes b⟩).trans level⟩

theorem exists_run_of_closer? {r : Token} (h : closer? (depth + 1) ts = some (r, left)) :
    ∃ run b, ts = run ++ r :: left ∧ r.kind = .closes b ∧ levelBehind? depth run = some 0 := by
  induction ts generalizing depth with
  | nil => cases h
  | cons t ts ih =>
    cases kind : t.kind with
    | opens b =>
      rw [closer?_step (by simp [kind]), kind] at h
      obtain ⟨run, b', rfl, closes, level⟩ := ih h
      exact ⟨t :: run, b', rfl, closes, (levelBehind?_opens kind).trans level⟩
    | closes b =>
      cases depth with
      | zero =>
        rw [closer?_last ⟨rfl, b, kind⟩] at h
        cases h
        exact ⟨[], b, rfl, kind, rfl⟩
      | succ depth =>
        rw [closer?_step (by simp), kind] at h
        obtain ⟨run, b', rfl, closes, level⟩ := ih h
        exact ⟨t :: run, b', rfl, closes, (levelBehind?_closes kind).trans level⟩
    | _ =>
      have flat : t.IsFlat := fun b => by simp [kind]
      rw [closer?_step (by simp [kind]), depthBehind_flat flat] at h
      obtain ⟨run, b', rfl, closes, level⟩ := ih h
      exact ⟨t :: run, b', rfl, closes, (levelBehind?_flat flat).trans level⟩

theorem passes_of_toDelimiter {last last' : Option Token}
    (h : toDelimiter source 0 last ts = .ok (last', left)) (more : left ≠ []) : Passes ts left := by
  obtain ⟨run, rfl, balanced⟩ := exists_run_of_toDelimiter h more
  exact ⟨run, rfl, balanced⟩

theorem closes_of_findCloser {l : Token} {b : Bracket} {found : Token × List Token}
    (opens : l.kind = .opens b) (h : findCloser source (l :: ts) = .ok found) :
    Closes ts found.2 ∧ closer? 0 (l :: ts) = some found := by
  rw [findCloser] at h
  split at h
  · next closer =>
    cases h
    have behind := closer
    rw [closer?_step (by simp), opens] at behind
    obtain ⟨run, b', rfl, closes, balanced⟩ := exists_run_of_closer? behind
    exact ⟨⟨found.1, b', ⟨run, rfl, balanced⟩, closes⟩, closer⟩
  · cases h

theorem kind_of_isOperator {t : Token} {op : Text} (h : t.isOperator op = true) :
    t.kind = .operator := by
  simp only [Token.isOperator, Bool.and_eq_true, decide_eq_true_eq] at h
  exact h.1

theorem flat_name {t : Token} (h : t.kind = .name ∨ t.kind = .dot) : t.IsFlat := by
  rcases h with h | h <;> simp [Token.IsFlat, h]

/-- A path of names is passed over, and does not end the expression. -/
theorem passes_namePath (path : Text) (ts : List Token) :
    Passes ts (namePath path ts).2 ∧ beyond 0 ts = beyond 0 (namePath path ts).2 := by
  fun_induction namePath path ts with
  | case1 path d n rest on ih =>
    have dot := flat_name (.inr on.1)
    have name := flat_name (.inl on.2)
    refine ⟨((Passes.flat dot _).trans (.flat name _)).trans ih.1, ?_⟩
    rw [beyond_flat dot (by rw [on.1]; rfl), beyond_flat name (by rw [on.2]; rfl)]
    exact ih.2
  | case2 | case3 => exact ⟨.refl _, rfl⟩

end

end Declaration

end SchemaTypings
