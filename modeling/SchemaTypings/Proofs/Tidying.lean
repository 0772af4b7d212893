import Mathlib.Data.List.Chain
import SchemaTypings.Generator
import SchemaTypings.Proofs.FileNames
import SchemaTypings.Proofs.JoinedLines
import SchemaTypings.Proofs.Outcomes

/-!
The layout of generated code. It keeps the lines that are not blank but for the blanks around them,
it is tidy, and a second layout does not change it, because the indentation of a line depends on no
indentation that was there before. It is missing only where memory has no room for an indentation.
-/

namespace SchemaTypings

namespace Layout

open Text (strip stripRight)

variable {indent : Text} {blank : Bool} {ls : List Text}

/-! ### Lines without blanks at their ends -/

/-- Of two neighbouring lines one is not empty. -/
def IsSparse (ls : List Text) : Prop := ls.IsChain fun l next => l ≠ [] ∨ next ≠ []

theorem exists_of_mem_squeeze {l : Text} (h : l ∈ squeeze blank ls) :
    ∃ line ∈ ls, line.stripRight = l := by
  fun_induction squeeze blank ls <;> grind

theorem stripRight_of_mem_squeeze {l : Text} (h : l ∈ squeeze blank ls) : l.stripRight = l := by
  obtain ⟨line, -, rfl⟩ := exists_of_mem_squeeze h
  exact Text.trimRight_eq (Text.getLast?_trimRight _ _)

theorem isSparse_squeeze (blank : Bool) (ls : List Text) :
    IsSparse (squeeze blank ls) ∧ (blank = true → ∀ l ∈ (squeeze blank ls).head?, l ≠ []) := by
  fun_induction squeeze blank ls with
  | case1 => exact ⟨.nil, by simp⟩
  | case2 line rest stripped empty ih => exact ih
  | case3 blank line rest stripped empty kept ih =>
    exact ⟨.cons ih.1 fun l hl => .inr (ih.2 rfl l hl), by simp [kept]⟩
  | case4 blank line rest stripped filled ih =>
    have filled : stripped ≠ [] := by simpa using filled
    refine ⟨.cons ih.1 fun _ _ => .inl filled, fun _ l hl => ?_⟩
    simp only [List.head?_cons, Option.mem_some_iff] at hl
    exact hl ▸ filled

theorem squeeze_eq_self (sparse : IsSparse ls) (bare : ∀ l ∈ ls, l.stripRight = l)
    (first : blank = true → ∀ l ∈ ls.head?, l ≠ []) : squeeze blank ls = ls := by
  induction ls generalizing blank with
  | nil => rfl
  | cons l ls ih =>
    rw [List.forall_mem_cons] at bare
    obtain ⟨next, others⟩ := List.isChain_cons.1 sparse
    rw [squeeze, bare.1]
    by_cases empty : l = []
    · have fresh : blank = false := by simpa [empty] using first
      have rest := @ih true others bare.2 fun _ m hm =>
        (next m hm).resolve_left (not_not_intro empty)
      rw [rest, empty, fresh]
      rfl
    · rw [@ih false others bare.2 nofun, if_neg (by simpa using empty)]

/-- The lines that are not blank, each without the blanks around it. -/
def nonblank (ls : List Text) : List Text := (ls.map strip).filter (· ≠ [])

theorem nonblank_append (ls ms : List Text) : nonblank (ls ++ ms) = nonblank ls ++ nonblank ms := by
  rw [nonblank, List.map_append, List.filter_append]
  rfl

theorem nonblank_replicate (n : Nat) : nonblank (List.replicate n []) = [] := by
  have blank : strip [] = [] := rfl
  rw [nonblank, List.map_replicate, List.filter_eq_nil_iff, blank]
  intro l hl
  rw [List.eq_of_mem_replicate hl]
  simp

theorem nonblank_squeeze (blank : Bool) (ls : List Text) :
    nonblank (squeeze blank ls) = nonblank ls := by
  have cons (l : Text) (ls : List Text) : nonblank (l :: ls) = nonblank [l] ++ nonblank ls :=
    nonblank_append [l] ls
  have same (line : Text) : nonblank [line.stripRight] = nonblank [line] := by
    rw [nonblank, List.map_singleton, Text.strip_stripRight]
    rfl
  have none {line : Text} (empty : line.stripRight.isEmpty = true) : nonblank [line] = [] := by
    rw [← same, List.isEmpty_iff.1 empty]
    rfl
  fun_induction squeeze blank ls with
  | case1 => rfl
  | case2 line rest stripped empty ih => rw [cons line, none empty, List.nil_append, ih]
  | case3 blank line rest stripped empty kept ih => rw [cons line, none empty, cons, ih]; rfl
  | case4 blank line rest stripped filled ih => rw [cons line, ← same line, cons, ih]

/-! ### Indented lines -/

/-- How many levels a line is indented, where `depth` braces are open before it. -/
def level (depth : Nat) (line : Text) : Nat :=
  if Text.startsWith (bare line) "\x7d" then depth - 1 else depth

/-- What stands in front of a line, where `depth` braces are open before it. -/
def margin (indent : Text) (depth : Nat) (line : Text) : Text :=
  let star : Text := if Text.startsWith line "*" then " " else ""
  (List.replicate (level depth line) indent).flatten ++ star

/-- How many braces are open after a line. -/
def depthAfter (depth : Nat) (line : Text) : Nat :=
  depth + (bare line).count ('\x7b' : CodePoint) - (bare line).count ('\x7d' : CodePoint)

/-- The lines indented by brace depth, whether or not memory has room for them. -/
def indentedLines (indent : Text) (depth : Nat) : List Text → List Text
  | [] => []
  | line :: rest =>
    if line.strip = [] then [] :: indentedLines indent depth rest
    else (margin indent depth line.strip ++ line.strip) ::
      indentedLines indent (depthAfter depth line.strip) rest

theorem indentedLines_cons (indent : Text) (depth : Nat) (line : Text) (rest : List Text) :
    indentedLines indent depth (line :: rest) =
      if line.strip = [] then [] :: indentedLines indent depth rest
      else (margin indent depth line.strip ++ line.strip) ::
        indentedLines indent (depthAfter depth line.strip) rest := rfl

/-! ### Room in memory -/

theorem repeated_eq_ok_iff {memory : Option Nat} {s out : Text} {n : Nat} :
    Text.repeated memory s n = .ok out ↔
      (∀ most ∈ memory, n * s.length ≤ most) ∧ (List.replicate n s).flatten = out := by
  rw [Text.repeated]
  cases memory with
  | none => simp
  | some most =>
    by_cases fits : n * s.length ≤ most
    · simp [fits, Nat.not_lt.2 fits]
    · simp [fits, Nat.not_le.1 fits]

theorem fault_of_repeated {memory : Option Nat} {s : Text} {n : Nat} {e : Error}
    (h : Text.repeated memory s n = .error e) : e = .tooLarge ∨ e = .outOfMemory := by
  rw [Text.repeated] at h
  split at h
  · cases h
    split <;> simp
  · cases h

/-- How many braces are open behind lines without blanks around them. -/
def depthBehind (depth : Nat) (lines : List Text) : Nat := lines.foldl depthAfter depth

/-- Memory has room for the indentation of each of the lines, which is a multiple of `width`. -/
def HasRoom (memory : Option Nat) (width depth : Nat) (lines : List Text) : Prop :=
  ∀ before line rest, lines = before ++ line :: rest →
    ∀ most ∈ memory, level (depthBehind depth before) line * width ≤ most

theorem hasRoom_nil (memory : Option Nat) (width depth : Nat) : HasRoom memory width depth [] := by
  intro before line rest split
  simp at split

theorem hasRoom_cons {memory : Option Nat} {width depth : Nat} {line : Text} {lines : List Text} :
    HasRoom memory width depth (line :: lines) ↔
      (∀ most ∈ memory, level depth line * width ≤ most) ∧
        HasRoom memory width (depthAfter depth line) lines := by
  constructor
  · intro h
    refine ⟨h [] line lines rfl, fun before next rest split => ?_⟩
    exact h (line :: before) next rest (by rw [split]; rfl)
  · rintro ⟨first, others⟩ before next rest split
    cases before with
    | nil =>
      cases split
      exact first
    | cons _ before =>
      obtain ⟨rfl, behind⟩ := List.cons.inj split
      exact others before next rest behind

theorem hasRoom_none (width depth : Nat) (lines : List Text) : HasRoom none width depth lines :=
  fun _ _ _ _ _ => nofun

theorem nonblank_cons (line : Text) (rest : List Text) :
    nonblank (line :: rest) = if line.strip = [] then nonblank rest else line.strip :: nonblank rest := by
  rw [nonblank, List.map_cons, List.filter_cons]
  by_cases blank : line.strip = []
  · rw [if_neg (by simpa using blank), if_pos blank]
    rfl
  · rw [if_pos (by simpa using blank), if_neg blank]
    rfl

/-- Lines are indented exactly if there is room for that. -/
theorem indentLines_eq_ok_iff {memory : Option Nat} {depth : Nat} {out : List Text} :
    indentLines memory indent depth ls = .ok out ↔
      HasRoom memory indent.length depth (nonblank ls) ∧ indentedLines indent depth ls = out := by
  induction ls generalizing depth out with
  | nil =>
    rw [indentLines, Except.ok.injEq]
    exact (and_iff_right (hasRoom_nil _ _ _)).symm
  | cons line rest ih =>
    rw [indentLines, indentedLines_cons, nonblank_cons]
    dsimp only
    by_cases blank : line.strip = []
    · rw [if_pos (List.isEmpty_iff.2 blank), if_pos blank, if_pos blank, bind_eq_ok]
      simp only [ih]
      constructor
      · rintro ⟨_, ⟨room, rfl⟩, h⟩
        exact ⟨room, Except.ok.inj h⟩
      · rintro ⟨room, rfl⟩
        exact ⟨_, ⟨room, rfl⟩, rfl⟩
    · rw [if_neg (mt List.isEmpty_iff.1 blank), if_neg blank, if_neg blank, hasRoom_cons, bind_eq_ok]
      simp only [bind_eq_ok, repeated_eq_ok_iff, ih]
      constructor
      · rintro ⟨_, ⟨first, rfl⟩, _, ⟨room, rfl⟩, h⟩
        exact ⟨⟨first, room⟩, Except.ok.inj h⟩
      · rintro ⟨⟨first, room⟩, rfl⟩
        exact ⟨_, ⟨first, rfl⟩, _, ⟨room, rfl⟩, rfl⟩

theorem fault_of_indentLines {memory : Option Nat} {depth : Nat} {e : Error}
    (h : indentLines memory indent depth ls = .error e) : e = .tooLarge ∨ e = .outOfMemory := by
  induction ls generalizing depth with
  | nil => cases h
  | cons line rest ih =>
    rw [indentLines] at h
    dsimp only at h
    split at h
    · rcases bind_eq_error.1 h with h | ⟨_, -, h⟩
      · exact ih h
      · cases h
    · rcases bind_eq_error.1 h with h | ⟨_, -, h⟩
      · exact fault_of_repeated h
      rcases bind_eq_error.1 h with h | ⟨_, -, h⟩
      · exact ih h
      · cases h

/-! ### Indented lines -/

/-- The indentation of lines does not depend on the one that they have. -/
theorem indentedLines_congr {ms : List Text} (h : ls.map strip = ms.map strip) (depth : Nat) :
    indentedLines indent depth ls = indentedLines indent depth ms := by
  induction ls generalizing ms depth with
  | nil =>
    rw [List.map_nil, List.nil_eq, List.map_eq_nil_iff] at h
    rw [h]
  | cons l ls ih =>
    cases ms with
    | nil => cases h
    | cons m ms =>
      rw [List.map_cons, List.map_cons, List.cons.injEq] at h
      rw [indentedLines_cons, indentedLines_cons, h.1, ih h.2, ih h.2]

section

variable (blanks : ∀ c ∈ indent, c.isBlank = true)

include blanks

theorem blank_of_mem_margin {depth : Nat} {line : Text} {c : CodePoint}
    (h : c ∈ margin indent depth line) : c.isBlank = true ∧ (c ∈ indent ∨ c = ' ') := by
  rcases List.mem_append.1 h with h | h
  · obtain ⟨i, hi, h⟩ := List.mem_flatten.1 h
    rw [List.eq_of_mem_replicate hi] at h
    exact ⟨blanks c h, .inl h⟩
  · split at h
    · rw [List.mem_singleton.1 h]
      exact ⟨by decide, .inr rfl⟩
    · cases h

theorem strip_indentedLines (depth : Nat) (ls : List Text) :
    (indentedLines indent depth ls).map strip = ls.map strip := by
  induction ls generalizing depth with
  | nil => rfl
  | cons line rest ih =>
    rw [indentedLines_cons]
    split
    · next blank =>
      rw [List.map_cons, List.map_cons, ih, blank]
      rfl
    · rw [List.map_cons, List.map_cons, ih,
        Text.strip_append fun c hc => (blank_of_mem_margin blanks hc).1, Text.strip_strip]

theorem indentedLines_indentedLines (depth : Nat) (ls : List Text) :
    indentedLines indent depth (indentedLines indent depth ls) = indentedLines indent depth ls :=
  indentedLines_congr (strip_indentedLines blanks depth ls) depth

theorem nonblank_indentedLines (depth : Nat) (ls : List Text) :
    nonblank (indentedLines indent depth ls) = nonblank ls := by
  rw [nonblank, strip_indentedLines blanks]
  rfl

theorem not_mem_of_mem_indentedLines (free : ('\n' : CodePoint) ∉ indent)
    (lines : ∀ l ∈ ls, ('\n' : CodePoint) ∉ l) {depth : Nat} {l : Text}
    (h : l ∈ indentedLines indent depth ls) : ('\n' : CodePoint) ∉ l := by
  induction ls generalizing depth with
  | nil => cases h
  | cons line rest ih =>
    rw [List.forall_mem_cons] at lines
    rw [indentedLines_cons] at h
    split at h
    · rcases List.mem_cons.1 h with rfl | h
      · exact List.not_mem_nil
      · exact ih lines.2 h
    · rcases List.mem_cons.1 h with rfl | h
      · rw [List.mem_append, not_or]
        refine ⟨fun mem => ?_, fun mem => lines.1 (Text.mem_of_mem_trim mem)⟩
        rcases (blank_of_mem_margin blanks mem).2 with mem | space
        · exact free mem
        · revert space
          decide
      · exact ih lines.2 h

end

theorem stripRight_of_mem_indentedLines {depth : Nat} {l : Text}
    (h : l ∈ indentedLines indent depth ls) : l.stripRight = l := by
  induction ls generalizing depth with
  | nil => cases h
  | cons line rest ih =>
    rw [indentedLines_cons] at h
    split at h
    · rcases List.mem_cons.1 h with rfl | h
      · rfl
      · exact ih h
    · next filled =>
      rcases List.mem_cons.1 h with rfl | h
      · exact Text.stripRight_append_strip _ filled
      · exact ih h

theorem indentedLines_replicate_append (depth n : Nat) (ls : List Text) :
    indentedLines indent depth (List.replicate n [] ++ ls) =
      List.replicate n [] ++ indentedLines indent depth ls := by
  induction n with
  | zero => rfl
  | succ n ih =>
    have blank : strip [] = [] := rfl
    rw [List.replicate_succ, List.cons_append, indentedLines_cons, if_pos blank, ih]
    rfl

theorem indentedLines_append_replicate (depth n : Nat) (ls : List Text) :
    indentedLines indent depth (ls ++ List.replicate n []) =
      indentedLines indent depth ls ++ List.replicate n [] := by
  induction ls generalizing depth with
  | nil =>
    have feeds := @indentedLines_replicate_append indent depth n []
    rw [List.append_nil] at feeds
    exact feeds.trans (List.append_nil _)
  | cons line ls ih =>
    rw [List.cons_append, indentedLines_cons, indentedLines_cons]
    split
    · rw [ih]
      rfl
    · rw [ih]
      rfl

/-- Among lines without blanks at their ends, only the empty ones are blank. -/
theorem isSparse_map_strip (h : ∀ l ∈ ls, l.stripRight = l) :
    IsSparse (ls.map strip) ↔ IsSparse ls := by
  rw [IsSparse, List.isChain_map]
  refine List.IsChain.iff_of_mem_imp fun l m hl hm => ?_
  rw [Ne, Text.strip_eq_nil_iff (h l hl), Ne, Text.strip_eq_nil_iff (h m hm)]

theorem isSparse_indentedLines (blanks : ∀ c ∈ indent, c.isBlank = true) (sparse : IsSparse ls)
    (h : ∀ l ∈ ls, l.stripRight = l) (depth : Nat) : IsSparse (indentedLines indent depth ls) := by
  rw [← isSparse_map_strip fun l hl => stripRight_of_mem_indentedLines hl,
    strip_indentedLines blanks, isSparse_map_strip h]
  exact sparse

/-! ### Laid-out code -/

/-- The layout of code, whether or not memory has room for it. -/
def laid (indent code : Text) : Text :=
  Text.trim (· = '\n') (Text.join "\n" (indentedLines indent 0 (tidyLines code))) ++ "\n"

theorem format_eq_ok_iff {memory : Option Nat} {code out : Text} :
    format memory indent code = .ok out ↔
      HasRoom memory indent.length 0 (nonblank code.lines) ∧ laid indent code = out := by
  have same : nonblank (tidyLines code) = nonblank code.lines := nonblank_squeeze false _
  rw [format, bind_eq_ok]
  simp only [indentLines_eq_ok_iff, same]
  constructor
  · rintro ⟨_, ⟨room, rfl⟩, h⟩
    exact ⟨room, Except.ok.inj h⟩
  · rintro ⟨room, rfl⟩
    exact ⟨_, ⟨room, rfl⟩, rfl⟩

theorem fault_of_format {memory : Option Nat} {code : Text} {e : Error}
    (h : format memory indent code = .error e) : e = .tooLarge ∨ e = .outOfMemory := by
  rcases bind_eq_error.1 h with h | ⟨_, -, h⟩
  · exact fault_of_indentLines h
  · cases h

/-- What a layout puts a line feed behind. -/
structure IsBody (indent body : Text) : Prop where
  first : ∀ c ∈ body.head?, c ≠ '\n'
  last : ∀ c ∈ body.getLast?, c ≠ '\n'
  bare : ∀ l ∈ body.lines, l.stripRight = l
  sparse : IsSparse body.lines
  indented : indentedLines indent 0 body.lines = body.lines

theorem tidyLines_ne_nil (code : Text) : tidyLines code ≠ [] := by
  rw [tidyLines]
  cases lines : code.lines with
  | nil => exact absurd lines (Text.lines_ne_nil code)
  | cons line rest =>
    rw [squeeze]
    split
    · exact List.cons_ne_nil _ _
    · exact List.cons_ne_nil _ _

theorem not_mem_of_mem_tidyLines {code l : Text} (h : l ∈ tidyLines code) :
    ('\n' : CodePoint) ∉ l := by
  obtain ⟨line, mem, rfl⟩ := exists_of_mem_squeeze h
  intro feed
  exact Text.not_mem_of_mem_lines mem ((List.rdropWhile_prefix _ line).subset feed)

theorem exists_isBody (blanks : ∀ c ∈ indent, c.isBlank = true) (free : ('\n' : CodePoint) ∉ indent)
    (code : Text) : ∃ body : Text, laid indent code = body ++ "\n" ∧ IsBody indent body ∧
      nonblank body.lines = nonblank code.lines := by
  let out := indentedLines indent 0 (tidyLines code)
  obtain ⟨x, y, split, hx, hy⟩ := Text.exists_trim (· = '\n') (Text.join "\n" out)
  let body := Text.trim (· = '\n') (Text.join "\n" out)
  -- Around the lines of the body there are but empty ones.
  have lines : out = List.replicate x.length [] ++ (body.lines ++ List.replicate y.length []) := by
    have some : out ≠ [] := by
      intro none
      have same := strip_indentedLines blanks 0 (tidyLines code)
      rw [show indentedLines indent 0 (tidyLines code) = [] from none, List.map_nil, List.nil_eq,
        List.map_eq_nil_iff] at same
      exact tidyLines_ne_nil code same
    have whole := congrArg Text.lines split
    rw [Text.lines_join some fun l hl => not_mem_of_mem_indentedLines blanks free
        (fun _ => not_mem_of_mem_tidyLines) hl,
      Text.lines_surrounded (fun c hc => of_decide_eq_true (hx c hc))
        fun c hc => of_decide_eq_true (hy c hc)] at whole
    exact whole
  have inside : body.lines <:+: out := ⟨_, _, by rw [lines, List.append_assoc]⟩
  refine ⟨body, rfl, ⟨fun c hc => ?_, fun c hc => ?_, fun l hl => ?_, ?_, ?_⟩, ?_⟩
  · exact of_decide_eq_false (Text.head?_trim _ _ c hc)
  · exact of_decide_eq_false (Text.getLast?_trimRight _ _ c hc)
  · exact stripRight_of_mem_indentedLines (inside.subset hl)
  · have all := isSparse_indentedLines blanks (isSparse_squeeze false code.lines).1
      (fun _ => stripRight_of_mem_squeeze) 0
    exact List.IsChain.infix all inside
  · have fixed := indentedLines_indentedLines blanks 0 (tidyLines code)
    rw [show indentedLines indent 0 (tidyLines code) = _ from lines, indentedLines_replicate_append,
      indentedLines_append_replicate, List.append_cancel_left_eq, List.append_cancel_right_eq] at fixed
    exact fixed
  · have kept : nonblank out = nonblank code.lines :=
      (nonblank_indentedLines blanks 0 _).trans (nonblank_squeeze false _)
    rw [lines, nonblank_append, nonblank_append, nonblank_replicate, nonblank_replicate,
      List.nil_append, List.append_nil] at kept
    exact kept

theorem lines_body (body : Text) : Text.lines (body ++ "\n") = body.lines ++ [[]] :=
  Text.lines_feed body []

/-- What a text ends with, its last line ends with. -/
theorem exists_lines_concat (s : Text) {c : CodePoint} (h : c ≠ '\n') :
    ∃ pieces stem, Text.lines (s ++ [c]) = pieces ++ [stem ++ [c]] :=
  Text.exists_splitOn_append (by simpa using h) s

namespace IsBody

variable {body : Text}

theorem filled_of_getLast? (h : IsBody indent body) (some : body ≠ []) :
    ∀ l ∈ body.lines.getLast?, l ≠ [] := by
  intro l hl
  obtain ⟨front, c, rfl⟩ := (List.eq_nil_or_concat' body).resolve_left some
  have other : c ≠ '\n' := h.last c (by simp)
  obtain ⟨pieces, stem, lines⟩ := exists_lines_concat front other
  rw [lines, List.getLast?_concat, Option.mem_some_iff] at hl
  rw [← hl]
  exact List.append_ne_nil_of_right_ne_nil _ (List.cons_ne_nil _ _)

theorem laid_eq (h : IsBody indent body) : laid indent (body ++ "\n") = body ++ "\n" := by
  by_cases empty : body = []
  · subst empty
    rfl
  have tidy : tidyLines (body ++ "\n") = body.lines ++ [[]] := by
    rw [tidyLines, lines_body]
    refine squeeze_eq_self ?_ (fun l hl => ?_) nofun
    · exact List.isChain_append.2 ⟨h.sparse, .singleton _, fun l hl _ _ =>
        .inl (h.filled_of_getLast? empty l hl)⟩
    · rcases List.mem_append.1 hl with hl | hl
      · exact h.bare l hl
      · rw [List.mem_singleton.1 hl]
        rfl
  have indented : indentedLines indent 0 (body.lines ++ [[]]) = body.lines ++ [[]] := by
    have whole := @indentedLines_append_replicate indent 0 1 body.lines
    rwa [h.indented] at whole
  have body_eq : Text.trim (· = '\n') (body ++ "\n") = body := by
    have trimmed := @Text.trim_append (· = '\n') [] "\n" (by simp) (by decide) body
    rw [List.nil_append] at trimmed
    rw [trimmed]
    exact Text.trim_eq (fun c hc => decide_eq_false (h.first c hc))
      fun c hc => decide_eq_false (h.last c hc)
  rw [laid, tidy, indented, ← lines_body, Text.join_lines, body_eq]

end IsBody

end Layout

/-! ### Layout under settings -/

namespace Settings

/-- How wide one level of indentation is, where its size is `n`. -/
def width (s : Settings) (n : Nat) : Nat := if s.useTabs.isTruthy then 1 else n

/-- Settings give one level of indentation: it is of tabs, or no text is too short for its spaces
and memory has room for them. -/
def HasIndent (s : Settings) (memory : Option Nat) (n : Nat) : Prop :=
  s.useTabs.isTruthy = true ∨ n ≤ Text.longest ∧ ∀ most ∈ memory, n ≤ most

/-- What stands on one level of indentation. -/
def unit (s : Settings) (n : Nat) : Text :=
  if s.useTabs.isTruthy then "\t" else (List.replicate n (Text.ofString " ")).flatten

variable {s : Settings} {memory : Option Nat} {n : Nat}

theorem length_space : (Text.ofString " ").length = 1 := rfl

theorem indent_eq_ok_iff (size : s.indentSize.integer? = some (n : Int)) {indent : Text} :
    s.indent memory = .ok indent ↔ s.HasIndent memory n ∧ s.unit n = indent := by
  rw [Settings.indent, HasIndent, unit, size]
  split
  · next tabs => simp [tabs]
  · next spaced =>
    dsimp only
    rw [spaces]
    split
    · next large =>
      have beyond : ¬n ≤ Text.longest := by
        simp only [Bool.or_eq_true, decide_eq_true_eq] at large
        omega
      simp [spaced, beyond]
    · next small =>
      have within : n ≤ Text.longest := by
        simp only [Bool.or_eq_true, decide_eq_true_eq] at small
        omega
      rw [Layout.repeated_eq_ok_iff, Int.toNat_natCast, length_space, Nat.mul_one]
      simp [spaced, within]

theorem length_unit : (s.unit n).length = s.width n := by
  rw [unit, width]
  split
  · rfl
  · simp [length_space]

end Settings

namespace Generator

theorem format_typeScript {g : Generator} (language : g.language = .typeScript) (code : Text) :
    g.format code =
      g.settings.indent g.memory >>= fun indent => Layout.format g.memory indent code := by
  rw [format, language]

/-- There is a layout exactly if there is one level of indentation, and memory has room for those of
every line. -/
theorem format_eq_ok_iff {g : Generator} (language : g.language = .typeScript) {n : Nat}
    (size : g.settings.indentSize.integer? = some (n : Int)) {code out : Text} :
    g.format code = .ok out ↔ (g.settings.HasIndent g.memory n ∧
        Layout.HasRoom g.memory (g.settings.width n) 0 (Layout.nonblank code.lines)) ∧
      Layout.laid (g.settings.unit n) code = out := by
  rw [format_typeScript language, bind_eq_ok]
  simp only [Settings.indent_eq_ok_iff size, Layout.format_eq_ok_iff]
  constructor
  · rintro ⟨_, ⟨given, rfl⟩, room, laid⟩
    exact ⟨⟨given, Settings.length_unit ▸ room⟩, laid⟩
  · rintro ⟨⟨given, room⟩, laid⟩
    exact ⟨_, ⟨given, rfl⟩, Settings.length_unit ▸ room, laid⟩

/-- Where memory has no limit, only the size decides. -/
theorem format_eq_laid {g : Generator} (language : g.language = .typeScript) {n : Nat}
    (size : g.settings.indentSize.integer? = some (n : Int)) (unlimited : g.memory = none)
    (short : n ≤ Text.longest) (code : Text) :
    g.format code = .ok (Layout.laid (g.settings.unit n) code) := by
  rw [format_eq_ok_iff language size, unlimited]
  exact ⟨⟨.inr ⟨short, nofun⟩, Layout.hasRoom_none _ _ _⟩, rfl⟩

end Generator

end SchemaTypings
