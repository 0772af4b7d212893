import SchemaTypings.Proofs.CaseStyles

/-!
Names in Pascal case. They start with a capital, or with a bar and a digit, and go on with letters
and digits, so the default prefix makes each of them the name of an interface against which nothing
speaks.
-/

namespace SchemaTypings

namespace Text

/-! ### Words without separators -/

/-- A capital, or a bar and a digit, with letters and digits behind it. -/
inductive IsPascal : Text → Prop
  | capital {c : CodePoint} {s : Text} (upper : c.isAsciiUpper = true)
      (plain : ∀ d ∈ s, CodePoint.IsPlain d) : IsPascal (c :: s)
  | digit {c : CodePoint} {s : Text} (digit : c.isAsciiDigit = true)
      (plain : ∀ d ∈ s, CodePoint.IsPlain d) : IsPascal ('_' :: c :: s)

/-- The words between the bars of a text, each with a capital at its start, side by side. -/
def compound (s : Text) : Text := ((splitOn '_' s).map capitalized).flatten

/-- A bar behind the first code point makes that a word. -/
theorem compound_bar {c : CodePoint} (h : c ≠ '_') (s : Text) :
    compound (c :: ('_' : CodePoint) :: s) = c.asciiUpper :: compound s := by
  obtain ⟨word, others, cut, cut'⟩ := exists_splitOn_cons h (('_' : CodePoint) :: s)
  rw [splitOn_cons_self] at cut
  cases cut
  rw [compound, cut']
  rfl

/-- In front of a word, a code point takes the place of the capital. -/
theorem compound_cons {c d : CodePoint} (hc : c ≠ '_') (hd : d ≠ '_') (s : Text) :
    compound (c :: d :: s) = c.asciiUpper :: d.asciiLower :: (compound (d :: s)).tail := by
  obtain ⟨word, others, cut, cut'⟩ := exists_splitOn_cons hd s
  obtain ⟨word', others', split, split'⟩ := exists_splitOn_cons hc (d :: s)
  rw [cut'] at split
  cases split
  rw [compound, compound, split', cut']
  rfl

theorem toPascalCase_of_compound {s rest : Text} {c : CodePoint}
    (h : compound s.toSnakeCase = c :: rest) : s.toPascalCase =
      if c.isAsciiDigit = true then ('_' : CodePoint) :: c :: rest else c :: rest := by
  unfold compound at h
  unfold toPascalCase
  dsimp only
  rw [h]

theorem isPlain_of_mem_capitalized {word : Text} (h : word.IsCaseWord) {c : CodePoint}
    (hc : c ∈ capitalized word) : c.IsPlain := by
  cases word with
  | nil => cases hc
  | cons d word =>
    rcases List.mem_cons.1 hc with rfl | hc
    · exact (h.2 d List.mem_cons_self).isPlain.asciiUpper
    · obtain ⟨e, he, rfl⟩ := List.mem_map.1 hc
      exact (h.2 e (List.mem_cons_of_mem d he)).isPlain.asciiLower.isPlain

/-- The words start with the capital form of a small letter or digit. -/
theorem exists_compound (s : Text) : ∃ c rest,
    compound s.toSnakeCase = CodePoint.asciiUpper c :: rest ∧ c.IsSmall ∧
      ∀ d ∈ rest, CodePoint.IsPlain d := by
  have words : ∀ word ∈ splitOn '_' s.toSnakeCase, IsCaseWord word :=
    fun _ hw => (isSnake_toSnakeCase s).isCaseWord hw
  have plain : ∀ d ∈ compound s.toSnakeCase, CodePoint.IsPlain d := by
    intro d hd
    obtain ⟨part, hp, hd⟩ := List.mem_flatten.1 hd
    obtain ⟨word, hw, rfl⟩ := List.mem_map.1 hp
    exact isPlain_of_mem_capitalized (words word hw) hd
  unfold compound at plain ⊢
  cases pieces : splitOn '_' s.toSnakeCase with
  | nil => exact absurd pieces (splitWhere_ne_nil _ _)
  | cons first others =>
    rw [pieces] at words plain
    obtain ⟨some, small⟩ := words first List.mem_cons_self
    obtain ⟨c, word, rfl⟩ := List.exists_cons_of_ne_nil some
    exact ⟨c, _, rfl, small c List.mem_cons_self, fun d hd => plain d (List.mem_cons_of_mem _ hd)⟩

theorem isPascal_toPascalCase (s : Text) : s.toPascalCase.IsPascal := by
  obtain ⟨c, rest, eq, small, plain⟩ := exists_compound s
  rw [toPascalCase_of_compound eq]
  rcases small.asciiUpper with upper | digit
  · rw [if_neg (by simp [CodePoint.not_digit_of_upper upper])]
    exact .capital upper plain
  · rw [if_pos digit]
    exact .digit digit plain

/-! ### Pascal case once more -/

/-- The text with each capital in small form that stands right behind a capital. -/
def merged (behind : Bool) : Text → Text
  | [] => []
  | c :: s => (if behind then c.asciiLower else c) :: merged c.isAsciiUpper s

/-- Not both of two neighbours are capitals. -/
def IsCalm (c d : CodePoint) : Prop := ¬(c.isAsciiUpper = true ∧ d.isAsciiUpper = true)

theorem merged_eq_self_iff (behind : Bool) (s : Text) : merged behind s = s ↔
    (behind = true → ∀ c ∈ s.head?, CodePoint.isAsciiUpper c = false) ∧ s.IsChain IsCalm := by
  induction s generalizing behind with
  | nil => simp [merged]
  | cons c s ih =>
    have first : (if behind then c.asciiLower else c) = c ↔
        (behind = true → c.isAsciiUpper = false) := by
      cases behind with
      | false => simp
      | true => simpa using CodePoint.asciiLower_eq_self_iff
    have rest : (∀ d ∈ s.head?, IsCalm c d) ↔
        (c.isAsciiUpper = true → ∀ d ∈ s.head?, CodePoint.isAsciiUpper d = false) := by
      simp only [IsCalm, not_and, Bool.not_eq_true]
      exact ⟨fun h upper d hd => h d hd upper, fun h d hd upper => h upper d hd⟩
    rw [merged, List.cons.injEq, first, ih, List.isChain_cons, rest]
    simp

theorem isChain_separateCapitals {s : Text} (plain : ∀ c ∈ s, CodePoint.IsPlain c) :
    (separateCapitals s).IsChain IsApart := by
  have other {c d : CodePoint} (h : c.IsPlain ∨ d.IsPlain) : IsApart c d := by
    rintro ⟨rfl, rfl⟩
    exact h.elim (fun plain => plain.notBar rfl) fun plain => plain.notBar rfl
  fun_induction separateCapitals s with
  | case1 => exact .nil
  | case2 c => exact .singleton c
  | case3 c d rest _ ih =>
    rw [List.forall_mem_cons] at plain
    have behind : (('_' : CodePoint) :: separateCapitals (d :: rest)).IsChain IsApart := by
      refine List.isChain_cons.2 ⟨fun e he => ?_, ih plain.2⟩
      rw [head?_separateCapitals] at he
      cases he
      exact other (.inr (plain.2 d List.mem_cons_self))
    exact List.isChain_cons_cons.2 ⟨other (.inl plain.1), behind⟩
  | case4 c d rest _ ih =>
    rw [List.forall_mem_cons] at plain
    exact List.isChain_cons.2 ⟨fun e _ => other (.inl plain.1), ih plain.2⟩

/-- Where letters and digits are separated before each capital that ends no run of them, each piece
starts with a capital, and what was a capital inside of a piece is small. -/
theorem compound_separateCapitals {c : CodePoint} {s : Text}
    (plain : ∀ d ∈ c :: s, CodePoint.IsPlain d) :
    compound ((separateCapitals (c :: s)).map CodePoint.asciiLower) =
      c.asciiUpper :: merged c.isAsciiUpper s := by
  induction s generalizing c with
  | nil =>
    have alone : splitOn '_' [c.asciiLower] = [[c.asciiLower]] := by
      refine splitOn_eq_singleton fun d hd => ?_
      rw [List.mem_singleton.1 hd, ne_eq, CodePoint.asciiLower_eq_bar_iff]
      exact (plain c List.mem_cons_self).notBar
    rw [separateCapitals, List.map_singleton, compound, alone]
    simp [capitalized, merged]
  | cons d s ih =>
    rw [List.forall_mem_cons] at plain
    have kept {e : CodePoint} (h : e.IsPlain) : e.asciiLower ≠ '_' := by
      rw [ne_eq, CodePoint.asciiLower_eq_bar_iff]
      exact h.notBar
    have first := kept plain.1
    have second := kept (plain.2 d List.mem_cons_self)
    have rest := ih plain.2
    -- What is behind `c` starts with `d`.
    obtain ⟨more, starts⟩ : ∃ more, separateCapitals (d :: s) = d :: more :=
      List.head?_eq_some_iff.1 (head?_separateCapitals (d :: s))
    rw [starts, List.map_cons] at rest
    rw [separateCapitals, starts, merged]
    split
    · next step =>
      -- A bar stands between the two, so the piece of `c` ends with it.
      rw [Bool.and_eq_true, Bool.or_eq_true] at step
      have small : c.isAsciiUpper = false := CodePoint.IsSmall.not_upper step.1
      have bar : CodePoint.asciiLower '_' = '_' := rfl
      rw [List.map_cons, List.map_cons, List.map_cons, bar, compound_bar first, rest, small,
        if_neg (by simp), CodePoint.asciiUpper_of_upper_or_digit (.inl step.2),
        CodePoint.asciiUpper_asciiLower]
    · next step =>
      -- Both are in one piece, so `d` comes out small: it is a capital only behind a capital.
      have small : (if c.isAsciiUpper = true then d.asciiLower else d) = d.asciiLower := by
        split
        · rfl
        · next other =>
          have separated := plain.1.isSmall_or_upper.resolve_right other
          have inner : d.isAsciiUpper = false := by
            rw [Bool.and_eq_true, Bool.or_eq_true, not_and, Bool.not_eq_true] at step
            exact step separated
          exact (CodePoint.asciiLower_of_not_upper inner).symm
      rw [List.map_cons, List.map_cons, compound_cons first second, rest, List.tail_cons, small,
        CodePoint.asciiUpper_asciiLower, CodePoint.asciiLower_asciiLower]

theorem toSnakeCase_of_plain {s : Text} (some : s ≠ []) (plain : ∀ c ∈ s, CodePoint.IsPlain c) :
    s.toSnakeCase = (separateCapitals s).map CodePoint.asciiLower := by
  have cleaned : s.IsClean := by
    refine ⟨fun c hc => .inl (plain c hc), some, fun c hc => ?_, fun c hc => ?_⟩
    · exact plain c (List.mem_of_head? hc)
    · exact plain c (List.mem_of_getLast? hc)
  have same : replaceOne '-' '_' s = s :=
    replaceOne_eq_self fun c hc => (plain c hc).notHyphen
  have apart : ((separateCapitals s).map CodePoint.asciiLower).IsChain IsApart := by
    refine List.isChain_map_of_isChain _ (fun c d h => ?_) (isChain_separateCapitals plain)
    rwa [IsApart, CodePoint.asciiLower_eq_bar_iff, CodePoint.asciiLower_eq_bar_iff]
  rw [toSnakeCase, cleaned.clean_eq, barred_eq cleaned, spread, same, squeezeBars_eq_self apart]

/-- A bar in front of a name is cleaned away. -/
theorem toSnakeCase_bar (s : Text) : toSnakeCase (('_' : CodePoint) :: s) = s.toSnakeCase := by
  have trimmed (kept : Text) : trim (fun c => c = '_' || c = '-') (('_' : CodePoint) :: kept) =
      trim (fun c => c = '_' || c = '-') kept := by
    rw [trim, trim, List.dropWhile_cons_of_pos (by simp)]
  have bar : (if CodePoint.isAsciiLetter '_' || CodePoint.isAsciiDigit '_' ||
      ('_' : CodePoint) = '_' || ('_' : CodePoint) = '-' then '_' else '_' : CodePoint) = '_' := rfl
  rw [toSnakeCase, toSnakeCase, clean, clean, List.map_cons, bar, trimmed]

/-- In Pascal case, a name in Pascal case loses the capitals that stand behind capitals. -/
theorem IsPascal.toPascalCase_eq {s : Text} (h : s.IsPascal) :
    s.toPascalCase = merged false s := by
  have again {c : CodePoint} {s : Text} (plain : ∀ d ∈ c :: s, CodePoint.IsPlain d) :
      compound (toSnakeCase (c :: s)) = c.asciiUpper :: merged c.isAsciiUpper s := by
    rw [toSnakeCase_of_plain (List.cons_ne_nil c s) plain, compound_separateCapitals plain]
  cases h with
  | @capital c s upper plain =>
    have letter : c.IsPlain := .inl (by rw [CodePoint.isAsciiLetter, upper, Bool.or_true])
    have joined := again (List.forall_mem_cons.2 ⟨letter, plain⟩)
    rw [CodePoint.asciiUpper_of_upper_or_digit (.inl upper)] at joined
    rw [toPascalCase_of_compound joined, if_neg (by simp [CodePoint.not_digit_of_upper upper])]
    rfl
  | @digit c s digit plain =>
    have joined := again (List.forall_mem_cons.2 ⟨.inr digit, plain⟩)
    rw [CodePoint.asciiUpper_of_upper_or_digit (.inr digit)] at joined
    rw [← toSnakeCase_bar] at joined
    rw [toPascalCase_of_compound joined, if_pos digit]
    rfl

/-- So it is kept exactly if no two capitals stand side by side. -/
theorem IsPascal.toPascalCase_eq_self_iff {s : Text} (h : s.IsPascal) :
    s.toPascalCase = s ↔ s.IsChain IsCalm := by
  rw [h.toPascalCase_eq, merged_eq_self_iff]
  simp

/-! ### Names of interfaces -/

/-- Nothing speaks against a word that starts with a capital I: no reserved word and no type in
scope starts so. -/
theorem IsInterfaceName.problems_eq_nil {s : Text} (h : s.IsInterfaceName) :
    s.isName = true ∧ InterfaceName.problems s = [] := by
  have parts := h.isNamePart
  obtain ⟨word, rfl, -⟩ := h
  rw [List.forall_mem_cons] at parts
  have name : isName (('I' : CodePoint) :: word) = true := by
    rw [isName, Bool.and_eq_true]
    exact ⟨by decide, List.all_eq_true.2 parts.2⟩
  have free : InterfaceName.reserved.contains (('I' : CodePoint) :: word) = false := by
    have heads : ∀ w ∈ InterfaceName.reserved, w.head? ≠ some ('I' : CodePoint) := by decide
    rw [← Bool.not_eq_true, List.contains_iff_mem]
    exact fun mem => heads _ mem rfl
  have unused : InterfaceName.builtIn.contains (lower (('I' : CodePoint) :: word)) = false := by
    have heads : ∀ w ∈ InterfaceName.builtIn, w.head? ≠ some ('i' : CodePoint) := by decide
    have small : (lower (('I' : CodePoint) :: word)).head? = some ('i' : CodePoint) := by
      have first : CodePoint.lower 'I' = [('i' : CodePoint)] := by decide +kernel
      rw [lower, lowerAfter, if_neg (by decide), first]
      rfl
    rw [← Bool.not_eq_true, List.contains_iff_mem]
    exact fun mem => heads _ mem small
  refine ⟨name, ?_⟩
  rw [InterfaceName.problems, if_neg (by simp), passesAsName, name, free, unused]
  rfl

end Text

namespace Generator

theorem interfacePrefix_standard : standard.settings.interfacePrefix = .text "I" := rfl

/-- Under the default settings a base name is put in Pascal case behind a capital I, and leaves no
record. -/
theorem interfaceName_standard (base : Text) :
    standard.interfaceName base = Logged.pure ("I" ++ base.toPascalCase) := by
  have none := (Text.isInterfaceName_toPascalCase base).problems_eq_nil.2
  rw [interfaceName, interfacePrefix_standard]
  simp only [Logged.pure_monadBind, none, List.map_nil]
  rfl

end Generator

namespace Text

/-- Every name comes out as the same words in snake and in kebab case, and in Pascal case it can
name an interface; a name in snake or kebab case stays as it is. -/
theorem exists_caseWords (s : Text) :
    (∃ words : List Text, words ≠ [] ∧ (∀ word ∈ words, IsCaseWord word) ∧
      s.toSnakeCase = join "_" words ∧ s.toKebabCase = join "-" words) ∧
    s.toPascalCase.IsPascal ∧
    s.toSnakeCase.toSnakeCase = s.toSnakeCase ∧ s.toKebabCase.toKebabCase = s.toKebabCase ∧
    ∃ name, Generator.standard.interfaceName s = Logged.pure name ∧ name.isName = true ∧
      InterfaceName.problems name = [] := by
  have snake := isSnake_toSnakeCase s
  refine ⟨⟨splitOn '_' s.toSnakeCase, splitWhere_ne_nil _ _, fun word hw => snake.isCaseWord hw,
    ((join_splitOn '_' '_' _).trans (replaceOne_self _ _)).symm, (join_splitOn '_' '-' _).symm⟩,
    isPascal_toPascalCase s, snake.toSnakeCase_eq, ?_, "I" ++ s.toPascalCase,
    Generator.interfaceName_standard s, (isInterfaceName_toPascalCase s).problems_eq_nil⟩
  rw [toKebabCase, toKebabCase, snake.toSnakeCase_hyphened]

end Text

end SchemaTypings
