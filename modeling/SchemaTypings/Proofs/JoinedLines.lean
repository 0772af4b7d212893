import Mathlib.Data.List.DropRight
import SchemaTypings.Proofs.Spelling

/-!
Trimmed texts and joined lines. Trimming takes away what is at the ends and nothing else; a text is
its lines joined by line feeds, and joined lines are the lines of the text.
-/

namespace SchemaTypings

namespace Text

/-! ### Trimmed texts -/

section

variable {p : CodePoint → Bool} {s x y : Text}

theorem trimRight_append (hy : ∀ c ∈ y, p c = true) (s : Text) :
    trimRight p (s ++ y) = trimRight p s := by
  rw [trimRight, List.reverse_append, List.dropWhile_append_of_pos (by simpa using hy)]
  rfl

theorem trim_append (hx : ∀ c ∈ x, p c = true) (hy : ∀ c ∈ y, p c = true) (s : Text) :
    trim p (x ++ (s ++ y)) = trim p s := by
  rw [trim, trim, List.dropWhile_append_of_pos hx, List.dropWhile_append]
  split
  · next empty =>
    rw [List.isEmpty_iff.1 empty, List.dropWhile_eq_nil_iff.2 hy]
  · exact trimRight_append hy _

/-- Trimming takes away what is to be trimmed, and only at the ends. -/
theorem exists_trim (p : CodePoint → Bool) (s : Text) :
    ∃ x y, s = x ++ (trim p s ++ y) ∧ (∀ c ∈ x, p c = true) ∧ ∀ c ∈ y, p c = true := by
  refine ⟨s.takeWhile p, (s.dropWhile p).rtakeWhile p, ?_, fun c => List.mem_takeWhile_imp,
    fun c => List.mem_rtakeWhile_imp⟩
  have right : trim p s = (s.dropWhile p).rdropWhile p := rfl
  rw [right, List.rdropWhile_append_rtakeWhile, List.takeWhile_append_dropWhile]

theorem getLast?_trimRight (p : CodePoint → Bool) (s : Text) :
    ∀ c ∈ (trimRight p s).getLast?, p c = false := by
  intro c hc
  have some : s.rdropWhile p ≠ [] := by
    intro empty
    have none : (s.rdropWhile p).getLast? = .some c := hc
    rw [empty] at none
    cases none
  have last := List.rdropWhile_last_not p s some
  have same : (s.rdropWhile p).getLast some = c := by
    rw [← Option.some_inj, ← List.getLast?_eq_some_getLast]
    exact hc
  simpa [same] using last

theorem head?_trim (p : CodePoint → Bool) (s : Text) : ∀ c ∈ (trim p s).head?, p c = false := by
  intro c hc
  obtain ⟨rest, split⟩ : trim p s <+: s.dropWhile p := List.rdropWhile_prefix p (s.dropWhile p)
  have first : (s.dropWhile p).head? = some c := by
    rw [← split, List.head?_append, Option.mem_def.1 hc]
    rfl
  have := List.head?_dropWhile_not p s
  rw [first] at this
  simpa using this

@[simp] theorem trim_trim (p : CodePoint → Bool) (s : Text) : trim p (trim p s) = trim p s :=
  trim_eq (head?_trim p s) (getLast?_trimRight p _)

end

@[simp] theorem strip_strip (s : Text) : s.strip.strip = s.strip := trim_trim _ s

theorem strip_stripRight (s : Text) : s.stripRight.strip = s.strip := by
  have blanks : ∀ c ∈ s.rtakeWhile CodePoint.isBlank, CodePoint.isBlank c = true := fun c =>
    List.mem_rtakeWhile_imp
  have whole : s.stripRight ++ s.rtakeWhile CodePoint.isBlank = s :=
    List.rdropWhile_append_rtakeWhile ..
  have trimmed := @trim_append _ [] _ (by simp) blanks s.stripRight
  rw [List.nil_append, whole] at trimmed
  exact trimmed.symm

theorem strip_append {x : Text} (h : ∀ c ∈ x, c.isBlank = true) (s : Text) :
    (x ++ s).strip = s.strip := by
  have trimmed := @trim_append _ _ [] h (by simp) s
  rwa [List.append_nil] at trimmed

theorem stripRight_append_strip (x : Text) {s : Text} (h : s.strip ≠ []) :
    (x ++ s.strip).stripRight = x ++ s.strip := by
  refine trimRight_eq fun c hc => ?_
  rw [List.getLast?_append_of_ne_nil _ h] at hc
  exact getLast?_trimRight _ _ c hc

/-- A text without blanks at its end is blank only if it is empty. -/
theorem strip_eq_nil_iff {s : Text} (h : s.stripRight = s) : s.strip = [] ↔ s = [] := by
  refine ⟨fun blank => ?_, fun empty => by rw [empty]; rfl⟩
  rw [← h]
  refine List.rdropWhile_eq_nil_iff.2 fun c hc => ?_
  obtain ⟨x, y, split, hx, hy⟩ := exists_trim CodePoint.isBlank s
  have gone : trim CodePoint.isBlank s = [] := blank
  rw [split, gone, List.nil_append] at hc
  exact (List.mem_append.1 hc).elim (hx c) (hy c)

/-! ### Lines -/

theorem lines_eq {s : Text} (h : ('\n' : CodePoint) ∉ s) : s.lines = [s] :=
  splitOn_eq_singleton fun _ hc => ne_of_mem_of_not_mem hc h

/-- A line feed parts the lines in front of it from those behind it. -/
theorem lines_feed (s t : Text) : lines (s ++ ('\n' : CodePoint) :: t) = lines s ++ lines t := by
  induction s with
  | nil =>
    cases pieces : lines t with
    | nil => exact absurd pieces (splitWhere_ne_nil _ t)
    | cons piece pieces' =>
      have cut : splitWhere (· = '\n') t = piece :: pieces' := pieces
      rw [List.nil_append, lines, splitOn, splitWhere, cut]
      rfl
  | cons c s ih =>
    rw [lines, lines, splitOn, splitOn] at ih
    rw [lines, lines, splitOn, splitOn, List.cons_append, splitWhere, splitWhere, ih]
    cases pieces : splitWhere (· = '\n') s with
    | nil => exact absurd pieces (splitWhere_ne_nil _ s)
    | cons piece pieces =>
      rw [List.cons_append]
      dsimp only
      split
      · rfl
      · rfl

theorem lines_append {s : Text} (h : ('\n' : CodePoint) ∉ s) (rest : Text) :
    lines (s ++ (('\n' : CodePoint) :: rest)) = s :: lines rest := by
  rw [lines_feed, lines_eq h]
  rfl

theorem lines_ne_nil (s : Text) : lines s ≠ [] := splitWhere_ne_nil _ s

theorem not_mem_of_mem_lines {s line : Text} (h : line ∈ lines s) : ('\n' : CodePoint) ∉ line := by
  intro mem
  have other := (mem_of_mem_splitWhere h mem).2
  simp at other

theorem join_cons (line : Text) {rest : List Text} (h : rest ≠ []) :
    join "\n" (line :: rest) = line ++ ('\n' : CodePoint) :: join "\n" rest := by
  cases rest with
  | nil => exact absurd rfl h
  | cons next rest => rfl

theorem splitOn_cons_self (c : CodePoint) (s : Text) : splitOn c (c :: s) = [] :: splitOn c s := by
  cases pieces : splitOn c s with
  | nil => exact absurd pieces (splitWhere_ne_nil _ s)
  | cons piece pieces' =>
    have cut : splitWhere (· = c) s = piece :: pieces' := pieces
    rw [splitOn, splitWhere, cut]
    simp

theorem exists_splitOn_cons {c d : CodePoint} (h : d ≠ c) (s : Text) :
    ∃ first others, splitOn c s = first :: others ∧
      splitOn c (d :: s) = (d :: first) :: others := by
  cases pieces : splitOn c s with
  | nil => exact absurd pieces (splitWhere_ne_nil _ s)
  | cons piece pieces' =>
    have cut : splitWhere (· = c) s = piece :: pieces' := pieces
    refine ⟨piece, pieces', rfl, ?_⟩
    rw [splitOn, splitWhere, cut]
    simp [h]

/-- Joining the pieces of a text puts what they are joined by where they were split. -/
theorem join_splitOn (c d : CodePoint) (s : Text) : join [d] (splitOn c s) = replaceOne c d s := by
  induction s with
  | nil => rfl
  | cons e s ih =>
    by_cases here : e = c
    · subst here
      rw [splitOn_cons_self, replaceOne, List.map_cons, if_pos rfl, ← replaceOne, ← ih]
      cases pieces : splitOn e s with
      | nil => exact absurd pieces (splitWhere_ne_nil _ s)
      | cons piece pieces' => rfl
    · obtain ⟨first, others, split, split'⟩ := exists_splitOn_cons here s
      rw [split', replaceOne, List.map_cons, if_neg here, ← replaceOne, ← ih, split]
      cases others <;> rfl

theorem replaceOne_eq_self {c d : CodePoint} {s : Text} (h : ∀ e ∈ s, e ≠ c) :
    replaceOne c d s = s := by
  have same : ∀ e ∈ s, (if e = c then d else e) = id e := fun e he => if_neg (h e he)
  rw [replaceOne, List.map_congr_left same, List.map_id]

@[simp] theorem replaceOne_self (c : CodePoint) (s : Text) : replaceOne c c s = s := by
  have same : ∀ e ∈ s, (if e = c then c else e) = id e := by
    intro e _
    split
    · next here => exact here.symm
    · rfl
  rw [replaceOne, List.map_congr_left same, List.map_id]

theorem join_lines (s : Text) : join "\n" (lines s) = s :=
  (join_splitOn '\n' '\n' s).trans (replaceOne_self _ s)

theorem lines_join {ls : List Text} (some : ls ≠ []) (h : ∀ l ∈ ls, ('\n' : CodePoint) ∉ l) :
    lines (join "\n" ls) = ls := by
  induction ls with
  | nil => exact absurd rfl some
  | cons l ls ih =>
    rw [List.forall_mem_cons] at h
    by_cases last : ls = []
    · subst last
      have alone : join "\n" [l] = l := List.append_nil l
      rw [alone, lines_eq h.1]
    · rw [join_cons l last, lines_append h.1, ih last h.2]

/-- Line feeds around a text are empty lines around its lines. -/
theorem lines_surrounded {x y : Text} (hx : ∀ c ∈ x, c = '\n') (hy : ∀ c ∈ y, c = '\n') (s : Text) :
    lines (x ++ (s ++ y)) =
      List.replicate x.length [] ++ (lines s ++ List.replicate y.length []) := by
  induction x with
  | nil =>
    rw [List.nil_append, List.length_nil, List.replicate_zero, List.nil_append]
    induction y generalizing s with
    | nil => rw [List.append_nil, List.length_nil, List.replicate_zero, List.append_nil]
    | cons c y ih =>
      rw [List.forall_mem_cons] at hy
      have feeds := ih hy.2 []
      rw [List.nil_append] at feeds
      rw [hy.1, lines_feed, feeds]
      rfl
  | cons c x ih =>
    rw [List.forall_mem_cons] at hx
    rw [List.cons_append, hx.1, ← List.nil_append (('\n' : CodePoint) :: _), lines_feed, ih hx.2]
    rfl

end Text

end SchemaTypings
