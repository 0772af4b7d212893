import SchemaTypings.Proofs.Uniqueness

/-!
What the names of interfaces are spelled with. Whatever the name of a file is, its Pascal case has
only letters and digits of ASCII and the underscore, so the name of an interface is one word.
-/

namespace SchemaTypings

/-- A letter or a digit of ASCII, or an underscore or dollar sign. -/
def CodePoint.IsWordPart (c : CodePoint) : Prop := c.isNameStart = true ∨ c.isAsciiDigit = true

namespace CodePoint

theorem IsWordPart.isNamePart {c : CodePoint} (h : c.IsWordPart) : c.isNamePart = true := by
  rcases h with start | digit
  · exact isNamePart_of_isNameStart start
  · exact (digitFacts digit).namePart

theorem isWordPart_bar : IsWordPart '_' := .inl (by decide)

theorem isNameStart_of_isAsciiLetter {c : CodePoint} (h : c.isAsciiLetter = true) :
    c.isNameStart = true := by
  simp [isNameStart, h]

theorem IsWordPart.asciiLower {c : CodePoint} (h : c.IsWordPart) : c.asciiLower.IsWordPart := by
  unfold CodePoint.asciiLower
  split
  · next upper =>
    apply Or.inl
    apply isNameStart_of_isAsciiLetter
    rw [isAsciiUpper_iff] at upper
    rw [isAsciiLetter, Bool.or_eq_true, isAsciiLower_iff]
    exact .inl (by dsimp only; omega)
  · exact h

theorem IsWordPart.asciiUpper {c : CodePoint} (h : c.IsWordPart) : c.asciiUpper.IsWordPart := by
  unfold CodePoint.asciiUpper
  split
  · next lower =>
    apply Or.inl
    apply isNameStart_of_isAsciiLetter
    rw [isAsciiLower_iff] at lower
    rw [isAsciiLetter, Bool.or_eq_true, isAsciiUpper_iff]
    exact .inr (by dsimp only; omega)
  · exact h

end CodePoint

namespace Text

theorem mem_of_mem_trim {p : CodePoint → Bool} {s : Text} {c : CodePoint} (h : c ∈ trim p s) :
    c ∈ s := by
  rw [trim, trimRight, List.mem_reverse] at h
  have mem := List.dropWhile_subset p h
  rw [List.mem_reverse] at mem
  exact List.dropWhile_subset p mem

theorem mem_separateCapitals {s : Text} {c : CodePoint} (h : c ∈ separateCapitals s) :
    c ∈ s ∨ c = '_' := by
  fun_induction separateCapitals s <;> grind

theorem mem_of_mem_squeezeBars {s : Text} {c : CodePoint} (h : c ∈ squeezeBars s) : c ∈ s := by
  fun_induction squeezeBars s <;> grind

/-- The pieces of a text are made of the code points between the separators. -/
theorem mem_of_mem_splitWhere {p : CodePoint → Bool} {s piece : Text} {c : CodePoint}
    (h : piece ∈ splitWhere p s) (hc : c ∈ piece) : c ∈ s ∧ p c = false := by
  induction s generalizing piece with
  | nil =>
    rw [splitWhere, List.mem_singleton] at h
    subst h
    cases hc
  | cons d s ih =>
    have later {piece : Text} (h : piece ∈ splitWhere p s) (hc : c ∈ piece) :
        c ∈ d :: s ∧ p c = false := (ih h hc).imp_left (List.mem_cons_of_mem d)
    rw [splitWhere] at h
    cases pieces : splitWhere p s with
    | nil => exact absurd pieces (splitWhere_ne_nil p s)
    | cons first others =>
      rw [pieces] at h later
      dsimp only at h
      split at h
      · rcases List.mem_cons.1 h with rfl | h
        · cases hc
        · exact later h hc
      · next plain =>
        rcases List.mem_cons.1 h with rfl | h
        · rcases List.mem_cons.1 hc with rfl | hc
          · exact ⟨List.mem_cons_self, by simpa using plain⟩
          · exact later List.mem_cons_self hc
        · exact later (List.mem_cons_of_mem _ h) hc

/-- A cleaned name is a word but for the hyphens in it. -/
theorem isWordPart_of_mem_clean {s : Text} {c : CodePoint} (h : c ∈ clean s) :
    c.IsWordPart ∨ c = '-' := by
  unfold clean at h
  dsimp only at h
  split at h
  · have all : ∀ d ∈ ofString "schema", d.isNameStart = true := by decide
    exact .inl (.inl (all c h))
  · obtain ⟨d, -, rfl⟩ := List.mem_map.1 (mem_of_mem_trim h)
    split
    · next kept =>
      simp only [Bool.or_eq_true, decide_eq_true_eq] at kept
      rcases kept with ((letter | digit) | rfl) | rfl
      · exact .inl (.inl (CodePoint.isNameStart_of_isAsciiLetter letter))
      · exact .inl (.inr digit)
      · exact .inl CodePoint.isWordPart_bar
      · exact .inr rfl
    · exact .inl CodePoint.isWordPart_bar

theorem isWordPart_of_mem_toSnakeCase {s : Text} {c : CodePoint} (h : c ∈ s.toSnakeCase) :
    c.IsWordPart := by
  rw [toSnakeCase, barred] at h
  obtain ⟨d, hd, rfl⟩ := List.mem_map.1 (mem_of_mem_squeezeBars (mem_of_mem_trim h))
  apply CodePoint.IsWordPart.asciiLower
  rcases mem_separateCapitals hd with hd | rfl
  · rw [replaceOne] at hd
    obtain ⟨e, he, rfl⟩ := List.mem_map.1 hd
    split
    · exact CodePoint.isWordPart_bar
    · next other => exact (isWordPart_of_mem_clean he).resolve_right other
  · exact CodePoint.isWordPart_bar

theorem isWordPart_of_mem_capitalized {s : Text} (hs : ∀ c ∈ s, CodePoint.IsWordPart c)
    {c : CodePoint} (h : c ∈ capitalized s) : c.IsWordPart := by
  cases s with
  | nil => cases h
  | cons d s =>
    rcases List.mem_cons.1 h with rfl | h
    · exact (hs d List.mem_cons_self).asciiUpper
    · obtain ⟨e, he, rfl⟩ := List.mem_map.1 h
      exact (hs e (List.mem_cons_of_mem _ he)).asciiLower

theorem isWordPart_of_mem_toPascalCase {s : Text} {c : CodePoint} (h : c ∈ s.toPascalCase) :
    c.IsWordPart := by
  have joined {c : CodePoint}
      (h : c ∈ ((splitOn '_' (toSnakeCase s)).map capitalized).flatten) : c.IsWordPart := by
    obtain ⟨word, hw, hc⟩ := List.mem_flatten.1 h
    obtain ⟨piece, hp, rfl⟩ := List.mem_map.1 hw
    refine isWordPart_of_mem_capitalized (fun d hd => ?_) hc
    exact isWordPart_of_mem_toSnakeCase (mem_of_mem_splitWhere hp hd).1
  unfold toPascalCase at h
  dsimp only at h
  split at h
  · next first rest eq =>
    split at h
    · rcases List.mem_cons.1 h with rfl | h
      · exact CodePoint.isWordPart_bar
      · exact joined h
    · exact joined h
  · cases h

end Text

/-- The name of an interface under the default prefix: a capital I and a word. -/
def Text.IsInterfaceName (s : Text) : Prop :=
  ∃ word : Text, s = ('I' : CodePoint) :: word ∧ ∀ c ∈ word, CodePoint.IsWordPart c

namespace Text

theorem isInterfaceName_toPascalCase (base : Text) :
    IsInterfaceName ("I" ++ base.toPascalCase) := by
  have initial (word : Text) : "I" ++ word = ('I' : CodePoint) :: word := rfl
  refine ⟨base.toPascalCase, initial _, ?_⟩
  intro c hc
  exact isWordPart_of_mem_toPascalCase hc

theorem IsInterfaceName.isNamePart {s : Text} (h : s.IsInterfaceName) :
    ∀ c ∈ s, CodePoint.isNamePart c = true := by
  obtain ⟨word, rfl, parts⟩ := h
  intro c hc
  rcases List.mem_cons.1 hc with rfl | hc
  · exact CodePoint.isNamePart_of_isNameStart (by decide)
  · exact (parts c hc).isNamePart

end Text

namespace Batch

/-- The names of a run under the default prefix are names of interfaces. -/
theorem isInterfaceName_of_namesOf {g : Generator} {paths : List Text} {known : InterfaceNames}
    (initial : g.settings.interfacePrefix = .text "I")
    (h : (namesOf g paths).outcome = .ok known) {target name : Text}
    (resolved : known.resolve? target = some name) : name.IsInterfaceName := by
  rw [namesOf, Logged.outcome_bind] at h
  obtain ⟨entries, collected, same⟩ := bind_eq_ok.1 h
  cases same
  obtain ⟨base, mem⟩ := InterfaceNames.exists_mem_of_resolve? resolved
  have none : Collected g [] [] := by constructor <;> simp
  have registered := collected_collectNames none collected
  rw [eq_calledInterface (registered.named mem), calledInterface, initial]
  exact Text.isInterfaceName_toPascalCase base

end Batch

end SchemaTypings
