import SchemaTypings.Token.StringLiteral

/-!
Template literals: their extent. Their text is not interpreted, but an expression in one may hold
braces, strings and templates of its own.
-/

namespace SchemaTypings

/-- What is open inside a template literal, with the offset where it starts. -/
inductive TemplatePart
  | template (start : Nat)
  | expression (start : Nat) (depth : Nat)
deriving DecidableEq, Repr

/-- The error of a part that is never closed. -/
def TemplatePart.unterminated : TemplatePart → LexError
  | .template start => ⟨.unterminatedTemplate, start⟩
  | .expression start _ => ⟨.unterminatedExpression, start⟩

/-- Whether the code point closes the part. -/
def TemplatePart.isClosedBy (c : CodePoint) : TemplatePart → Bool
  | .template _ => c = '`'
  | .expression _ depth => c = '\x7d' && depth ≤ 1

/-- What a code point does to what is open: it ends the literal, goes on with some part and passes
over some code points behind it, or starts a string that cannot be read. -/
inductive TemplateStep
  | ends
  | goes (part : TemplatePart) (outer : List TemplatePart) (passed : Nat)
  | fails (e : LexError)

/-- What the code point `c` does at the offset `here` in front of `rest`, where `part` is open
inside the parts `outer`. -/
def TemplatePart.step (part : TemplatePart) (outer : List TemplatePart) (here : Nat)
    (c : CodePoint) (rest : Text) : TemplateStep :=
  if part.isClosedBy c then
    match outer with
    | [] => .ends
    | next :: more => .goes next more 0
  else
    match part with
    | .template _ =>
      if c = '\\' then .goes part outer 1
      else if c = '$' ∧ rest.head? = some ('\x7b' : CodePoint) then
        .goes (.expression (here + 1) 0) (part :: outer) 0
      else .goes part outer 0
    | .expression start depth =>
      if c = '"' ∨ c = '\'' then
        match stringBody c 1 rest with
        | .error e => .fails (e.later here)
        | .ok (_, width) => .goes part outer (width - 1)
      else if c = '`' then .goes (.template here) (part :: outer) 0
      else if c = '\x7b' then .goes (.expression start (depth + 1)) outer 0
      else if c = '\x7d' then .goes (.expression start (depth - 1)) outer 0
      else .goes part outer 0

namespace TemplatePart

variable {part next : TemplatePart} {outer more : List TemplatePart} {here n : Nat} {c : CodePoint}
  {s t : Text}

theorem step_eq_ends_iff :
    part.step outer here c s = .ends ↔ part.isClosedBy c = true ∧ outer = [] := by
  unfold step
  constructor
  · intro h
    split at h
    · next close =>
      cases outer with
      | nil => exact ⟨close, rfl⟩
      | cons next more => cases h
    · repeat' split at h
      all_goals cases h
  · rintro ⟨close, rfl⟩
    rw [if_pos close]

/-- A step fails only at a string that cannot be read. -/
theorem exists_of_step_fails {e : LexError} (h : part.step outer here c s = .fails e) :
    (c = '"' ∨ c = '\'') ∧ ∃ cause, stringBody c 1 s = .error cause ∧ cause.later here = e := by
  unfold step at h
  split at h
  · cases outer <;> cases h
  cases part with
  | template start =>
    dsimp only at h
    repeat' split at h
    all_goals cases h
  | expression start depth =>
    dsimp only at h
    split at h
    · next quote =>
      split at h
      · next cause body =>
        cases h
        exact ⟨quote, cause, body, rfl⟩
      · cases h
    · repeat' split at h
      all_goals cases h

/-- A step reads one code point ahead, and a string only where one starts. -/
theorem step_again (head : t.head? = s.head?) (h : part.step outer here c s = .goes next more n) :
    part.step outer here c t = .goes next more n ∨
      ∃ a, (c = '"' ∨ c = '\'') ∧ stringBody c 1 s = .ok a ∧ a.2 - 1 = n ∧
        part.step outer here c t =
          match stringBody c 1 t with
          | .error e => .fails (e.later here)
          | .ok (_, width) => .goes next more (width - 1) := by
  by_cases close : part.isClosedBy c = true
  · left
    unfold step at h ⊢
    rw [if_pos close] at h ⊢
    exact h
  cases part with
  | template start =>
    left
    unfold step at h ⊢
    rw [if_neg close] at h ⊢
    rw [head]
    exact h
  | expression start depth =>
    by_cases quote : c = '"' ∨ c = '\''
    · right
      unfold step at h ⊢
      rw [if_neg close] at h ⊢
      dsimp only at h ⊢
      rw [if_pos quote] at h ⊢
      cases body : stringBody c 1 s with
      | error e =>
        rw [body] at h
        cases h
      | ok a =>
        rw [body] at h
        cases h
        exact ⟨a, quote, rfl, rfl, rfl⟩
    · left
      unfold step at h ⊢
      rw [if_neg close] at h ⊢
      dsimp only at h ⊢
      rw [if_neg quote] at h ⊢
      exact h

end TemplatePart

/-- The width of a template literal, read from the offset `here` inside it on, where `part` is open
inside the parts `outer`. -/
def templateEnd (part : TemplatePart) (outer : List TemplatePart) (here : Nat) (s : Text) :
    Except LexError Nat :=
  match s with
  | [] => .error part.unterminated
  | c :: rest =>
    match part.step outer here c rest with
    | .ends => .ok (here + 1)
    | .goes part outer passed => templateEnd part outer (here + 1 + passed) (rest.drop passed)
    | .fails e => .error e
termination_by s.length
decreasing_by all_goals simp only [List.length_cons, List.length_drop]; omega

end SchemaTypings
