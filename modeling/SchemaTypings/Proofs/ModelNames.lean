import Mathlib.Data.List.Forall2
import Mathlib.Data.List.TakeWhile
import SchemaTypings.Proofs.LowerCase

/-!
Names of model files. Whether a name is that of a model is asked of the name in lower case; what
that means is said of the name as it is, for words that are written in any letter case.
-/

namespace SchemaTypings

/-! ### Words in any letter case -/

namespace CodePoint

/-- `c` is `d` or, if that is a small letter, its capital. -/
def IsCaseOf (c d : CodePoint) : Prop := c = d ∨ d.isAsciiLower = true ∧ c.val + 32 = d.val

/-- Small letters that no letter but their capital has in its lower-case form, and the dot. A dotted
capital has an `i` there, and the sign of the kelvin a `k`. -/
def isOrdinary (d : CodePoint) : Bool := d = '.' || (d.isAsciiLower && d ≠ 'i' && d ≠ 'k')

end CodePoint

/-- The text is the word, in which small letters may be replaced by their capitals. -/
def Text.InAnyCase (s word : Text) : Prop := List.Forall₂ CodePoint.IsCaseOf s word

/-- The table of runs, checked once: but for the run of the small letters and for the sign of the
kelvin it has no form among the first 128 code points, and all forms are code points. -/
theorem lowerRuns_images : ∀ run ∈ lowerRuns,
    (run.first = 65 ∧ run.step = 1 ∧ run.count = 26 ∧ run.shift = 32 ∨
      128 ≤ (run.first + run.shift).toNat ∨
      (run.first + run.shift).toNat = 107 ∧ run.count = 1) ∧
    (run.first + run.shift).toNat + run.step * (run.count - 1) < 0x110000 := by
  decide +kernel

namespace CodePoint

variable {c d : CodePoint}

theorem val_of_isOrdinary (h : d.isOrdinary = true) :
    d.val = 46 ∨ 97 ≤ d.val ∧ d.val ≤ 122 ∧ d.val ≠ 105 ∧ d.val ≠ 107 := by
  simp only [isOrdinary, Bool.or_eq_true, Bool.and_eq_true, isAsciiLower_iff,
    decide_eq_true_eq] at h
  rcases h with rfl | ⟨⟨range, i⟩, k⟩
  · exact .inl rfl
  · refine .inr ⟨range.1, range.2, fun eq => ?_, fun eq => ?_⟩
    · exact i (ext_val eq)
    · exact k (ext_val eq)

/-- A lower-case form is that of the dotted capital, or one code point: the same one, or one from
the table. -/
theorem lower_cases (c : CodePoint) :
    c.lower = [0x69, 0x307].filterMap (fun x : Nat => ofNat? x) ∨ c.lower = [c] ∨
      ∃ run ∈ lowerRuns, ∃ d, run.map? c.val = some d.val ∧ c.lower = [d] := by
  rw [lower]
  split
  · exact .inl rfl
  · split
    · next n found =>
      obtain ⟨run, mem, mapped⟩ := List.exists_of_findSome?_eq_some found
      obtain ⟨k, small, eq⟩ := CaseRun.exists_of_map? (isRegular_of_mem_lowerRuns run mem) mapped
      have last : run.step * k ≤ run.step * (run.count - 1) := Nat.mul_le_mul_left _ (by omega)
      have bound : n < 0x110000 := by
        have := (lowerRuns_images run mem).2
        omega
      refine .inr (.inr ⟨run, mem, ⟨n, bound⟩, mapped, ?_⟩)
      rw [ofNat?, dif_pos bound]
      rfl
    · exact .inr (.inl rfl)

theorem lower_ne_nil (c : CodePoint) : c.lower ≠ [] := by
  rcases lower_cases c with eq | eq | ⟨run, -, d, -, eq⟩
  · rw [eq]
    decide
  · simp [eq]
  · simp [eq]

/-- Only a letter and its capital have the letter in their lower-case form, which it is then. -/
theorem lower_of_mem_ordinary (ordinary : d.isOrdinary = true) (h : d ∈ c.lower) :
    c.lower = [d] ∧ c.IsCaseOf d := by
  have small := val_of_isOrdinary ordinary
  rcases lower_cases c with eq | eq | ⟨run, mem, e, mapped, eq⟩
  · have other : ∀ e ∈ [0x69, 0x307].filterMap (fun x : Nat => ofNat? x), e.isOrdinary = false := by
      decide
    rw [other d (eq ▸ h)] at ordinary
    cases ordinary
  · obtain rfl := List.mem_singleton.1 (eq ▸ h)
    exact ⟨eq, .inl rfl⟩
  · obtain rfl := List.mem_singleton.1 (eq ▸ h)
    refine ⟨eq, .inr ?_⟩
    obtain ⟨k, inside, image⟩ := CaseRun.exists_of_map? (isRegular_of_mem_lowerRuns run mem) mapped
    rcases (lowerRuns_images run mem).1 with ⟨first, step, count, shift⟩ | beyond | ⟨kelvin, one⟩
    · rw [CaseRun.map?, first, step, count, shift] at mapped
      split at mapped
      · next within =>
        simp only [Bool.and_eq_true, decide_eq_true_eq] at within
        have value := Option.some.inj mapped
        rw [isAsciiLower_iff]
        omega
      · cases mapped
    · omega
    · obtain rfl : k = 0 := by omega
      rw [kelvin, Nat.mul_zero] at image
      omega

theorem lower_capital (n : Fin 26) :
    lower ⟨65 + n, by omega⟩ = [⟨97 + n, by omega⟩] := by
  revert n
  decide +kernel

/-- A letter and its capital have the letter as their lower-case form. -/
theorem lower_of_isCaseOf (ordinary : d.isOrdinary = true) (h : c.IsCaseOf d) :
    c.val ≠ 0x3A3 ∧ c.lower = [d] := by
  rcases h with rfl | ⟨small, shift⟩
  · rcases val_of_isOrdinary ordinary with dot | range
    · obtain rfl : c = '.' := ext_val dot
      decide
    · obtain ⟨v, bound⟩ := c
      obtain ⟨n, rfl⟩ : ∃ n : Fin 26, v = 97 + n :=
        ⟨⟨v - 97, by dsimp only at range; omega⟩, by dsimp only at range ⊢; omega⟩
      exact lower_of_mem_lower (by rw [lower_capital]; exact List.mem_singleton_self _)
  · obtain ⟨v, bound⟩ := c
    obtain ⟨w, bound'⟩ := d
    rw [isAsciiLower_iff] at small
    dsimp only at small shift
    obtain ⟨n, rfl⟩ : ∃ n : Fin 26, v = 65 + n := ⟨⟨v - 65, by omega⟩, by dsimp only; omega⟩
    obtain rfl : 97 + n.val = w := by omega
    exact ⟨by dsimp only; omega, lower_capital n⟩

end CodePoint

namespace Text

variable {s word : Text}

/-- In lower case each code point leaves something, and an ordinary letter only where it or its
capital stands. -/
theorem exists_form (before : Text) (c : CodePoint) (rest : Text) :
    ∃ form, lowerAfter before (c :: rest) = form ++ lowerAfter (c :: before) rest ∧ form ≠ [] ∧
      ∀ d ∈ form, d.isOrdinary = true → form = [d] ∧ c.IsCaseOf d := by
  rw [lowerAfter]
  refine ⟨_, rfl, ?_⟩
  split
  · next sigma =>
    have forms : ∀ n : Nat, n = 0x3C2 ∨ n = 0x3C3 → (CodePoint.ofNat? n).toList ≠ [] ∧
        ∀ d ∈ (CodePoint.ofNat? n).toList, d.isOrdinary = false := by
      rintro n (rfl | rfl) <;> decide
    obtain ⟨some, other⟩ := forms (if cased? before && !(cased? rest) then 0x3C2 else 0x3C3)
      (by split <;> simp)
    exact ⟨some, fun d mem ordinary => by rw [other d mem] at ordinary; cases ordinary⟩
  · exact ⟨c.lower_ne_nil, fun d mem ordinary => CodePoint.lower_of_mem_ordinary ordinary mem⟩

theorem inAnyCase_of_lowerAfter {before : Text} (ordinary : ∀ d ∈ word, d.isOrdinary = true)
    (h : lowerAfter before s = word) : s.InAnyCase word := by
  induction s generalizing before word with
  | nil =>
    subst h
    exact .nil
  | cons c rest ih =>
    obtain ⟨form, split, some, letters⟩ := exists_form before c rest
    obtain ⟨d, more, rfl⟩ := List.exists_cons_of_ne_nil some
    rw [h] at split
    subst split
    rw [List.cons_append, List.forall_mem_cons] at ordinary
    obtain ⟨alone, isCase⟩ := letters d List.mem_cons_self ordinary.1
    obtain ⟨-, rfl⟩ := List.cons.inj alone
    exact .cons isCase (ih ordinary.2 rfl)

theorem InAnyCase.lowerAfter_eq (h : s.InAnyCase word)
    (ordinary : ∀ d ∈ word, d.isOrdinary = true) (before : Text) : lowerAfter before s = word := by
  induction h generalizing before with
  | nil => rfl
  | cons isCase _ ih =>
    rw [List.forall_mem_cons] at ordinary
    obtain ⟨notSigma, form⟩ := CodePoint.lower_of_isCaseOf ordinary.1 isCase
    rw [lowerAfter, if_neg notSigma, form, ih ordinary.2]
    rfl

theorem InAnyCase.ne_dot (h : s.InAnyCase word) (letters : ∀ d ∈ word, d.isAsciiLower = true) :
    ∀ c ∈ s, c ≠ '.' := by
  induction h with
  | nil => exact nofun
  | @cons c d _ _ isCase _ ih =>
    rw [List.forall_mem_cons] at letters ⊢
    refine ⟨?_, ih letters.2⟩
    have small := CodePoint.isAsciiLower_iff.1 letters.1
    rintro rfl
    rcases isCase with rfl | ⟨-, shift⟩
    · exact absurd letters.1 (by decide)
    · rw [← shift] at small
      exact absurd small (by decide)

theorem exists_of_suffix_lowerAfter {before : Text} (ordinary : ∀ d ∈ word, d.isOrdinary = true)
    (h : word <:+ lowerAfter before s) : ∃ stem tail, s = stem ++ tail ∧ tail.InAnyCase word := by
  induction s generalizing before with
  | nil =>
    obtain rfl := List.suffix_nil.1 h
    exact ⟨[], [], rfl, .nil⟩
  | cons c rest ih =>
    obtain ⟨form, split, -, letters⟩ := exists_form before c rest
    have behind := List.suffix_append form (lowerAfter (c :: before) rest)
    rw [split] at h
    rcases List.suffix_or_suffix_of_suffix h behind with inside | ⟨front, rfl⟩
    · obtain ⟨stem, tail, rfl, isCase⟩ := ih inside
      exact ⟨c :: stem, tail, rfl, isCase⟩
    · -- The word starts in the form of `c`, and has all of it if it has some.
      obtain ⟨left, eq⟩ := h
      rw [← List.append_assoc] at eq
      have form_eq := List.append_cancel_right eq
      rw [List.forall_mem_append] at ordinary
      have others := inAnyCase_of_lowerAfter ordinary.2 rfl
      cases front with
      | nil => exact ⟨[c], rest, rfl, others⟩
      | cons d front =>
        obtain ⟨alone, isCase⟩ := letters d (by simp [← form_eq]) (ordinary.1 d List.mem_cons_self)
        obtain ⟨-, rest_eq⟩ | ⟨-, none⟩ := List.append_eq_singleton_iff.1 (form_eq.trans alone)
        · obtain rfl := (List.cons.inj rest_eq).2
          exact ⟨[], c :: rest, rfl, .cons isCase others⟩
        · cases none

/-- The text in lower case ends in a word of ordinary letters exactly if the text ends in the word
in some letter case. -/
theorem endsWith_lower_iff (ordinary : ∀ d ∈ word, d.isOrdinary = true) :
    s.lower.endsWith word = true ↔ ∃ stem tail, s = stem ++ tail ∧ tail.InAnyCase word := by
  rw [endsWith, List.isSuffixOf_iff_suffix]
  constructor
  · exact exists_of_suffix_lowerAfter ordinary
  · rintro ⟨stem, tail, rfl, isCase⟩
    obtain ⟨front, eq⟩ := exists_lowerAfter_append [] stem tail
    rw [lower, eq, isCase.lowerAfter_eq ordinary]
    exact List.suffix_append front word

theorem lower_eq_iff (ordinary : ∀ d ∈ word, d.isOrdinary = true) :
    s.lower = word ↔ s.InAnyCase word :=
  ⟨inAnyCase_of_lowerAfter ordinary, fun isCase => isCase.lowerAfter_eq ordinary []⟩

end Text

/-! ### Scripts that are no declaration files -/

/-- The name of a model: something and the suffix of a script, and not that of a declaration file;
both in any letter case. -/
structure IsModelName (name : Text) : Prop where
  script : ∃ stem suffix : Text, ∃ word ∈ ([".js", ".ts", ".mjs", ".cjs"] : List Text),
    name = stem ++ suffix ∧ stem ≠ [] ∧ suffix.InAnyCase word
  noDeclarations : ¬∃ stem suffix : Text, name = stem ++ suffix ∧ suffix.InAnyCase ".d.ts"

namespace PathName

variable {name ext : Text}

/-- A name without a dot is told apart from one with a last dot. -/
theorem exists_lastDot (name : Text) : (∀ c ∈ name, c ≠ '.') ∨
    ∃ stem ext : Text, name = stem ++ ('.' : CodePoint) :: ext ∧ ∀ c ∈ ext, c ≠ '.' := by
  induction name with
  | nil => exact .inl nofun
  | cons d name ih =>
    rcases ih with plain | ⟨stem, ext, rfl, plain⟩
    · by_cases dot : d = '.'
      · exact .inr ⟨[], name, by rw [dot]; rfl, plain⟩
      · exact .inl (List.forall_mem_cons.2 ⟨dot, plain⟩)
    · exact .inr ⟨d :: stem, ext, rfl, plain⟩

theorem suffixOf_plain (plain : ∀ c ∈ name, c ≠ '.') : suffixOf name = [] := by
  have whole : name.reverse.takeWhile (fun c : CodePoint => c ≠ '.') = name.reverse :=
    List.takeWhile_eq_self_iff.2 fun c mem => by simpa using plain c (List.mem_reverse.1 mem)
  rw [suffixOf, whole, List.reverse_reverse, if_pos]
  simp

/-- The last dot does not start or end the name that has a suffix. -/
theorem suffixOf_append (plain : ∀ c ∈ ext, c ≠ '.') (stem : Text) :
    suffixOf (stem ++ ('.' : CodePoint) :: ext) =
      if ext = [] ∨ stem = [] then [] else ('.' : CodePoint) :: ext := by
  have dot : (stem ++ ('.' : CodePoint) :: ext).reverse.takeWhile (fun c : CodePoint => c ≠ '.') =
      ext.reverse := by
    rw [List.reverse_append, List.reverse_cons, List.append_assoc]
    refine Text.takeWhile_stops (List.all_eq_true.2 fun c mem => ?_) (by simp)
    simpa using plain c (List.mem_reverse.1 mem)
  have short : (stem ++ ('.' : CodePoint) :: ext).length ≤ ext.length + 1 ↔ stem = [] := by
    rw [← List.length_eq_zero_iff, List.length_append, List.length_cons]
    omega
  rw [suffixOf, dot, List.reverse_reverse]
  simp only [Bool.or_eq_true, List.isEmpty_iff, decide_eq_true_eq, short]

/-- The suffixes of scripts are a dot and then letters, in any letter case. -/
theorem exists_letters {word s : Text} (mem : word ∈ modelSuffixes) (h : s.InAnyCase word) :
    ∃ ext : Text, s = ('.' : CodePoint) :: ext ∧ ext ≠ [] ∧ ∀ c ∈ ext, c ≠ '.' := by
  have spelled : ∀ word ∈ modelSuffixes, word.head? = some ('.' : CodePoint) ∧ word.tail ≠ [] ∧
      ∀ d ∈ word.tail, d.isAsciiLower = true := by decide
  obtain ⟨first, more, letters⟩ := spelled word mem
  cases h with
  | nil => cases first
  | @cons c d ext rest isCase others =>
    obtain rfl : d = '.' := Option.some.inj first
    refine ⟨ext, ?_, ?_, Text.InAnyCase.ne_dot others letters⟩
    · rcases isCase with rfl | ⟨small, -⟩
      · rfl
      · cases small
    · rintro rfl
      cases others
      exact more rfl

theorem isOrdinary_of_mem_modelSuffixes :
    ∀ word ∈ modelSuffixes, ∀ d ∈ word, d.isOrdinary = true := by decide

theorem lower_suffixOf_mem_iff : (suffixOf name).lower ∈ modelSuffixes ↔
    ∃ stem suffix : Text, ∃ word ∈ modelSuffixes,
      name = stem ++ suffix ∧ stem ≠ [] ∧ suffix.InAnyCase word := by
  constructor
  · intro mem
    have inAnyCase := (Text.lower_eq_iff (isOrdinary_of_mem_modelSuffixes _ mem)).1 rfl
    obtain ⟨ext, eq, -⟩ := exists_letters mem inAnyCase
    rcases exists_lastDot name with plain | ⟨stem, ext, rfl, plain⟩
    · rw [suffixOf_plain plain] at eq
      cases eq
    · have shown := suffixOf_append plain stem
      split at shown
      · rw [shown] at eq
        cases eq
      · next inside =>
        rw [shown] at mem inAnyCase
        exact ⟨stem, _, _, mem, rfl, fun none => inside (.inr none), inAnyCase⟩
  · rintro ⟨stem, suffix, word, mem, rfl, before, inAnyCase⟩
    obtain ⟨ext, rfl, some, plain⟩ := exists_letters mem inAnyCase
    rw [suffixOf_append plain, if_neg (by simp [some, before]),
      (Text.lower_eq_iff (isOrdinary_of_mem_modelSuffixes word mem)).2 inAnyCase]
    exact mem

/-- Whether a file is a model is a matter of how its name ends. -/
theorem isModel_iff {path : PathName} : path.isModel = true ↔ IsModelName path.name := by
  have ordinary : ∀ d ∈ Text.ofString ".d.ts", d.isOrdinary = true := by decide
  rw [isModel, Bool.and_eq_true, Bool.not_eq_true', Bool.eq_false_iff, ne_eq,
    Text.endsWith_lower_iff ordinary, List.contains_iff_mem, suffix, lower_suffixOf_mem_iff]
  exact ⟨fun h => ⟨h.2, h.1⟩, fun h => ⟨h.2, h.1⟩⟩

end PathName

end SchemaTypings
