import SchemaTypings.Malformed
import SchemaTypings.Proofs.Outcomes
import SchemaTypings.Token.NumberLiteral

/-!
How a reader fails on the tokens of a source. Either the source is malformed at one of them, and the
error says where, or one of their numbers has no value.
-/

namespace SchemaTypings

/-- How a reader can fail on the tokens `ts` of `source`. Where it misses a token at the end of a
list that lacks its end mark, the failure is at the start of the source. -/
inductive Cause (source : Text) (ts : List Token) : ReadError → Prop
  | malformed {m : Malformed} {t : Token} (seen : t ∈ Token.eof 0 :: ts)
      (text : m.text = some source) (pos : m.pos = some t.pos) (path : m.path = none) :
      Cause source ts (.malformed m)
  | number {t : Token} (mem : t ∈ ts) (number : t.kind = .number)
      (none : NumberLiteral.value? t.value = none) : Cause source ts .badNumber

theorem Token.first_mem {ts us : List Token} (h : us <:+ ts) :
    Token.first us ∈ Token.eof 0 :: ts := by
  cases us with
  | nil => exact List.mem_cons_self
  | cons t us => exact List.mem_cons_of_mem _ (h.subset List.mem_cons_self)

theorem Cause.mono {source : Text} {ts us : List Token} {e : ReadError} (h : Cause source us e)
    (hs : us <:+ ts) : Cause source ts e := by
  cases h with
  | malformed seen text pos path =>
    exact .malformed (List.cons_subset_cons _ hs.subset seen) text pos path
  | number mem number none => exact .number (hs.subset mem) number none

/-- The outcome of a reader on the tokens `ts` of `source`: what it leaves, which is `rest` of what
it yields, is a suffix of them, and it fails in no other way than that. -/
structure Within {α : Type} (source : Text) (ts : List Token) (rest : α → List Token)
    (x : Except ReadError α) : Prop where
  suffix : ∀ a, x = .ok a → rest a <:+ ts
  cause : ∀ e, x = .error e → Cause source ts e

namespace Within

variable {α β : Type} {source : Text} {ts us : List Token}
variable {rest : α → List Token} {rest' : β → List Token}

theorem ok {a : α} (h : rest a <:+ ts) : Within source ts rest (.ok a) := by
  constructor
  · rintro b ⟨⟩
    exact h
  · rintro e ⟨⟩

theorem of_cause {e : ReadError} (h : Cause source ts e) : Within source ts rest (.error e) := by
  constructor
  · rintro b ⟨⟩
  · rintro e ⟨⟩
    exact h

theorem bind {x : Except ReadError α} {f : α → Except ReadError β} (h : Within source ts rest x)
    (hf : ∀ a, rest a <:+ ts → Within source ts rest' (f a)) :
    Within source ts rest' (x >>= f) := by
  cases x with
  | error e => exact of_cause (h.cause e rfl)
  | ok a => exact hf a (h.suffix a rfl)

theorem mono {x : Except ReadError α} (h : Within source us rest x) (hs : us <:+ ts) :
    Within source ts rest x :=
  ⟨fun a ha => (h.suffix a ha).trans hs, fun e he => (h.cause e he).mono hs⟩

end Within

end SchemaTypings
