import SchemaTypings.Log

/-!
Outcomes of computations: what a sequence of steps yields, and what a step yielded if the whole
sequence did. Records do not matter to an outcome.
-/

namespace SchemaTypings

section

variable {ε ε' α β : Type}

@[simp] theorem ok_bind (a : α) (f : α → Except ε β) : (Except.ok a >>= f) = f a := rfl

@[simp] theorem error_bind (e : ε) (f : α → Except ε β) :
    ((Except.error e : Except ε α) >>= f) = .error e := rfl

@[simp] theorem pure_eq_ok (a : α) : (pure a : Except ε α) = .ok a := rfl

/-- A sequence succeeds if and only if both of its steps do. -/
theorem bind_eq_ok {x : Except ε α} {f : α → Except ε β} {b : β} :
    (x >>= f) = .ok b ↔ ∃ a, x = .ok a ∧ f a = .ok b := by
  cases x <;> simp

/-- A sequence fails as its first step does, or as its second step does after it. -/
theorem bind_eq_error {x : Except ε α} {f : α → Except ε β} {e : ε} :
    (x >>= f) = .error e ↔ x = .error e ∨ ∃ a, x = .ok a ∧ f a = .error e := by
  cases x <;> simp

@[simp] theorem mapError_ok (g : ε → ε') (a : α) :
    (Except.ok a : Except ε α).mapError g = .ok a := rfl

@[simp] theorem mapError_error (g : ε → ε') (e : ε) :
    (Except.error e : Except ε α).mapError g = .error (g e) := rfl

theorem mapError_eq_ok {g : ε → ε'} {x : Except ε α} {a : α} :
    x.mapError g = .ok a ↔ x = .ok a := by
  cases x <;> simp

theorem mapError_eq_error {g : ε → ε'} {x : Except ε α} {e' : ε'} :
    x.mapError g = .error e' ↔ ∃ e, x = .error e ∧ g e = e' := by
  cases x <;> simp

theorem ok_of_toOption {x : Except ε α} {a : α} (h : x.toOption = some a) : x = .ok a := by
  cases x with
  | error e => cases h
  | ok b => exact congrArg Except.ok (Option.some.inj h)

/-- An outcome that passes a test is one. -/
theorem exists_of_toOption_any {x : Except ε α} {p : α → Bool} (h : x.toOption.any p = true) :
    ∃ a, x = .ok a ∧ p a = true := by
  obtain ⟨a, eq, holds⟩ := (Option.any_eq_true p _).1 h
  exact ⟨a, ok_of_toOption eq, holds⟩

theorem map_eq_ok {f : α → β} {x : Except ε α} {b : β} :
    x.map f = .ok b ↔ ∃ a, x = .ok a ∧ f a = b := by
  cases x <;> simp [Except.map]

theorem map_eq_error {f : α → β} {x : Except ε α} {e : ε} : x.map f = .error e ↔ x = .error e := by
  cases x <;> simp [Except.map]

/-- A list of steps succeeds if each of them does, and its results are as theirs. -/
theorem exists_mapM_eq_ok {f : α → Except ε β} {p : β → Prop} {l : List α}
    (h : ∀ a ∈ l, ∃ b, f a = .ok b ∧ p b) : ∃ bs, l.mapM f = .ok bs ∧ ∀ b ∈ bs, p b := by
  induction l with
  | nil => exact ⟨[], rfl, by simp⟩
  | cons a l ih =>
    obtain ⟨b, hb, hp⟩ := h a (by simp)
    obtain ⟨bs, hbs, all⟩ := ih fun a ha => h a (by simp [ha])
    exact ⟨b :: bs, by simp [List.mapM_cons, hb, hbs], by simpa [hp] using all⟩

namespace Logged

@[simp] theorem liftM_ok (a : α) : (liftM (Except.ok a : Except ε α) : Logged ε α) = pure a := rfl

@[simp] theorem monadPure_eq (a : α) : (Pure.pure a : Logged ε α) = pure a := rfl

@[simp] theorem pure_monadBind (a : α) (f : α → Logged ε β) : (pure a >>= f) = f a :=
  pure_bind a f

@[simp] theorem outcome_bind (x : Logged ε α) (f : α → Logged ε β) :
    (x >>= f).outcome = x.outcome >>= fun a => (f a).outcome := by
  obtain ⟨log, outcome⟩ := x
  cases outcome <;> rfl

@[simp] theorem outcome_monadPure (a : α) : (Pure.pure a : Logged ε α).outcome = .ok a := rfl

@[simp] theorem outcome_fail (e : ε) : (fail e : Logged ε α).outcome = .error e := rfl

@[simp] theorem outcome_record (level : Level) (topic : Topic) (message : Text) :
    (record level topic message : Logged ε Unit).outcome = .ok () := rfl

@[simp] theorem outcome_records (log : Log) : (records log : Logged ε Unit).outcome = .ok () := rfl

@[simp] theorem outcome_lift (x : Except ε α) : (lift x).outcome = x := rfl

@[simp] theorem outcome_liftM (x : Except ε α) : (liftM x : Logged ε α).outcome = x := rfl

@[simp] theorem outcome_mapError (g : ε → ε') (x : Logged ε α) :
    (x.mapError g).outcome = x.outcome.mapError g := rfl

@[simp] theorem outcome_attempt (x : Logged ε α) :
    (x.attempt : Logged ε' (Except ε α)).outcome = .ok x.outcome := rfl

end Logged

end

end SchemaTypings
