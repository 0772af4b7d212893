import SchemaTypings.Interface.Printer
import SchemaTypings.Proofs.Idempotence
import SchemaTypings.Proofs.Spelling

/-!
Texts inside comments. A text is put on one line and loses every end of a comment in it, so the
comment ends where it should.
-/

namespace SchemaTypings

namespace Text

/-! ### Replacing ends of comments -/

theorem mem_of_mem_replace {old new s : Text} {c : CodePoint} (h : c ∈ replace old new s) :
    c ∈ new ∨ c ∈ s := by
  unfold replace at h
  split at h
  · exact .inr h
  · next some =>
    fun_induction replace.go old some new s with
    | case1 => exact .inr h
    | case2 d rest _ ih =>
      rcases List.mem_append.1 h with h | h
      · exact .inl h
      · exact (ih h).imp_right List.mem_of_mem_drop
    | case3 d rest _ ih =>
      rcases List.mem_cons.1 h with rfl | h
      · exact .inr List.mem_cons_self
      · exact (ih h).imp_right (List.mem_cons_of_mem d)

/-- The text does not end a comment. -/
def KeepsOpen (s : Text) : Prop := ¬("*/" : Text) <:+: s

theorem keepsOpen_cons {c : CodePoint} {s : Text} (h : s.KeepsOpen)
    (mark : c = '*' → s.head? ≠ some ('/' : CodePoint)) : KeepsOpen (c :: s) := by
  intro ends
  rcases List.infix_cons_iff.1 ends with ⟨rest, eq⟩ | ends
  · obtain ⟨rfl, rfl⟩ := List.cons.inj eq
    exact mark rfl rfl
  · exact h ends

theorem KeepsOpen.tail {c : CodePoint} {s : Text} (h : KeepsOpen (c :: s)) : s.KeepsOpen :=
  fun ends => h (List.infix_cons ends)

/-- No end of a comment is left. -/
theorem keepsOpen_replace (s : Text) : KeepsOpen (replace "*/" "*\\/" s) := by
  have some : ofString "*/" ≠ [] := by decide
  have head (s : Text) (h : (replace.go "*/" some "*\\/" s).head? = .some ('/' : CodePoint)) :
      s.head? = .some ('/' : CodePoint) := by
    cases s with
    | nil =>
      rw [replace.go] at h
      cases h
    | cons d rest =>
      rw [replace.go] at h
      split at h
      · cases h
      · exact h
  rw [replace, dif_neg some]
  fun_induction replace.go "*/" some "*\\/" s with
  | case1 =>
    intro ends
    cases List.infix_nil.1 ends
  | case2 d rest _ ih =>
    have closed : KeepsOpen ('/' :: replace.go "*/" some "*\\/" (List.drop 2 (d :: rest))) :=
      keepsOpen_cons ih fun star => absurd star (by decide)
    have stroked := keepsOpen_cons closed (c := '\\') fun star => absurd star (by decide)
    refine keepsOpen_cons stroked ?_
    rintro - slash
    exact absurd (Option.some.inj slash) (by decide)
  | case3 d rest no ih =>
    refine keepsOpen_cons ih ?_
    rintro rfl slash
    obtain ⟨after, rfl⟩ := List.head?_eq_some_iff.1 (head rest slash)
    exact no rfl

theorem keepsOpen_asComment (s : Text) : s.asComment.KeepsOpen := keepsOpen_replace _

/-! ### Text on one line -/

/-- All blanks of a comment are plain spaces. -/
theorem eq_of_mem_asComment {s : Text} {c : CodePoint} (h : c ∈ s.asComment)
    (blank : c.isBlank = true) : c = ' ' := by
  have words {c : CodePoint} (h : c ∈ join " " (words s)) : c = ' ' ∨ c.isBlank = false := by
    by_cases space : c = ' '
    · exact .inl space
    · have other : c ∉ ofString " " := by simpa [ofString] using space
      obtain ⟨word, hw, hc⟩ := (mem_join other _).1 h
      exact .inr (mem_of_mem_splitWhere (List.mem_filter.1 hw).1 hc).2
  have new : ∀ d ∈ ofString "*\\/", d.isBlank = false := by decide
  rcases mem_of_mem_replace h with h | h
  · rw [new c h] at blank
    cases blank
  · rcases words h with space | solid
    · exact space
    · rw [solid] at blank
      cases blank

theorem not_mem_asComment (s : Text) : ('\n' : CodePoint) ∉ s.asComment := by
  intro h
  have space := eq_of_mem_asComment h (by decide)
  revert space
  decide

/-- The comment behind an opening ends where it is closed. -/
theorem KeepsOpen.find?_eq {s : Text} (h : s.KeepsOpen) (rest : Text) :
    find? "*/" (s ++ (" */" ++ rest)) = some (s.length + 1) := by
  induction s with
  | nil => rfl
  | cons c s ih =>
    have here : List.isPrefixOf (ofString "*/") (c :: (s ++ (" */" ++ rest))) = false := by
      rw [Bool.eq_false_iff, Ne, List.isPrefixOf_iff_prefix]
      rintro ⟨after, eq⟩
      obtain ⟨star, behind⟩ := List.cons.inj eq
      cases s with
      | nil =>
        have slash : ('/' : CodePoint) = ' ' := (List.cons.inj behind).1
        revert slash
        decide
      | cons d s =>
        have slash : ('/' : CodePoint) = d := (List.cons.inj behind).1
        subst star slash
        exact h ⟨[], s, rfl⟩
    rw [List.cons_append, find?, here, ih h.tail]
    rfl

end Text

end SchemaTypings
