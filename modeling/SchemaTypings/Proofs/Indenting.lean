import SchemaTypings.Proofs.Balancing
import SchemaTypings.Proofs.Combining
import SchemaTypings.Proofs.Decoding
import SchemaTypings.Proofs.Tidying

/-!
Generated files in the layout that formatting gives. A combined file is laid out already exactly if
on each line of a property as many braces are closed as are opened; only the last property of an
interface may close more.
-/

namespace SchemaTypings

namespace Layout

open Text (strip)

variable {indent : Text} {depth : Nat} {line : Text} {ls rest : List Text}

/-! ### Lines that stay as they are -/



theorem indentedLines_append (indent : Text) (depth : Nat) (ls rest : List Text) :
    indentedLines indent depth (ls ++ rest) =
      indentedLines indent depth ls ++
        indentedLines indent (depthBehind depth (ls.map strip)) rest := by
  induction ls generalizing depth with
  | nil => rfl
  | cons line ls ih =>
    have next : depthBehind depth ((line :: ls).map strip) =
        depthBehind (depthAfter depth line.strip) (ls.map strip) := rfl
    rw [List.cons_append, indentedLines_cons, indentedLines_cons, next]
    split
    · next blank =>
      have same : depthAfter depth line.strip = depth := by
        rw [blank, depthAfter, show bare [] = [] by rw [bare]]
        rfl
      rw [ih, same]
      rfl
    · rw [ih]
      rfl

/-- A line that is not blank stays if the blanks in front of it are as they should be. -/
theorem indentedLines_cons_eq_iff (filled : line.strip ≠ []) :
    indentedLines indent depth (line :: rest) = line :: rest ↔
      margin indent depth line.strip ++ line.strip = line ∧
        indentedLines indent (depthAfter depth line.strip) rest = rest := by
  rw [indentedLines_cons, if_neg filled, List.cons.injEq]

theorem startsWith_cons {c d : CodePoint} (h : c ≠ d) (s : Text) :
    Text.startsWith (c :: s) [d] = false := by
  simp [Text.startsWith, List.isPrefixOf, Ne.symm h]

/-- What is in front of a line is as long as its depth if it does not close a brace first. -/
theorem margin_eq (depth : Nat) {c : CodePoint} {tail : Text} (star : c ≠ '*') :
    margin indent depth (c :: tail) =
      (List.replicate (if Text.startsWith (bare (c :: tail)) "\x7d" then depth - 1 else depth)
        indent).flatten := by
  have plain : Text.startsWith (c :: tail) "*" = false := startsWith_cons star tail
  rw [margin, plain]
  exact List.append_nil _

/-- So many levels of two spaces are one level, or none. -/
theorem flatten_replicate_eq_iff {n : Nat} (m : Nat) :
    (List.replicate n (Text.ofString "  ")).flatten =
      (List.replicate m (Text.ofString "  ")).flatten ↔ n = m := by
  refine ⟨fun eq => ?_, fun eq => by rw [eq]⟩
  have two : (Text.ofString "  ").length = 2 := rfl
  have lengths := congrArg List.length eq
  simp only [List.length_flatten, List.map_replicate, List.sum_replicate_nat, two] at lengths
  omega

/-! ### Properties -/

/-- The code of a property: it is on one line without blanks around it, and a name starts it. -/
structure IsCodeLine (row : Text) : Prop where
  line : ('\n' : CodePoint) ∉ row
  trimmed : row.strip = row
  start : ∃ c tail, row = c :: tail ∧ (c = '"' ∨ c.isNameStart = true)

namespace IsCodeLine

variable {row : Text}

theorem filled (h : IsCodeLine row) : row ≠ [] := by
  obtain ⟨c, tail, rfl, -⟩ := h.start
  exact List.cons_ne_nil c tail

theorem strip_indented (h : IsCodeLine row) : (Generator.indented row).strip = row := by
  rw [Generator.indented, Text.strip_append (by decide), h.trimmed]

theorem startsWith_bare (h : IsCodeLine row) : Text.startsWith (bare row) "\x7d" = false := by
  obtain ⟨c, tail, rfl, start⟩ := h.start
  have other : c ≠ '\x7d' := by
    rintro rfl
    revert start
    decide
  have first : ∃ tail', bare (c :: tail) = c :: tail' := by
    rw [bare]
    split
    · next quote =>
      split
      · exact ⟨_, by rw [quote]⟩
      · exact ⟨_, rfl⟩
    · exact ⟨_, rfl⟩
  obtain ⟨tail', eq⟩ := first
  rw [eq]
  exact startsWith_cons other tail'

/-- The line of a property stays exactly if one brace is open before it. -/
theorem margin_append_eq_iff (h : IsCodeLine row) (depth : Nat) :
    margin "  " depth row ++ row = Generator.indented row ↔ depth = 1 := by
  have closes := h.startsWith_bare
  obtain ⟨c, tail, rfl, start⟩ := h.start
  have star : c ≠ '*' := by
    rintro rfl
    revert start
    decide
  rw [Generator.indented, List.append_left_inj, margin_eq depth star, closes]
  exact flatten_replicate_eq_iff 1

end IsCodeLine

/-- In the code of each property but the last as many braces are closed as are opened, in that of
the last at least as many. -/
structure AreLevel (rows : List Text) : Prop where
  inner : ∀ row ∈ rows.dropLast, opened row = closed row
  last : ∀ row ∈ rows.getLast?, opened row ≤ closed row

/-- Rows that are all balanced are level. -/
theorem AreLevel.of_isBalanced {rows : List Text} (h : ∀ row ∈ rows, IsBalanced row) :
    AreLevel rows := by
  have same {row : Text} (hr : row ∈ rows) : opened row = closed row := by
    obtain ⟨n, counts⟩ := h row hr
    rw [counts.opened, counts.closed]
  exact ⟨fun row hr => same ((List.dropLast_sublist _).subset hr),
    fun row hr => (same (List.mem_of_getLast? hr)).le⟩

theorem areLevel_cons_cons {row row' : Text} {rows : List Text} :
    AreLevel (row :: row' :: rows) ↔ opened row = closed row ∧ AreLevel (row' :: rows) := by
  constructor
  · intro ⟨inner, last⟩
    rw [List.dropLast_cons_cons, List.forall_mem_cons] at inner
    exact ⟨inner.1, inner.2, last⟩
  · intro ⟨first, inner, last⟩
    exact ⟨by rw [List.dropLast_cons_cons, List.forall_mem_cons]; exact ⟨first, inner⟩, last⟩

/-- The brace that ends an interface stays exactly if at most one is open before it. -/
theorem indentedLines_close_iff (depth : Nat) (rest : List Text) :
    indentedLines "  " depth (Text.ofString "\x7d" :: rest) = Text.ofString "\x7d" :: rest ↔
      depth ≤ 1 ∧ indentedLines "  " (depth - 1) rest = rest := by
  have strip : Text.strip "\x7d" = Text.ofString "\x7d" := by decide
  have bare : bare "\x7d" = Text.ofString "\x7d" := bare_eq_self (by decide)
  have after : depthAfter depth (Text.ofString "\x7d") = depth - 1 := by
    rw [depthAfter, bare]
    rfl
  have front : margin "  " depth (Text.ofString "\x7d") =
      (List.replicate (depth - 1) (Text.ofString "  ")).flatten := by
    have closes : Text.startsWith (Layout.bare "\x7d") "\x7d" = true := by rw [bare]; decide
    have levels : margin "  " depth (Text.ofString "\x7d") = (List.replicate
        (if Text.startsWith (Layout.bare "\x7d") "\x7d" then depth - 1 else depth)
        (Text.ofString "  ")).flatten := margin_eq depth (c := '\x7d') (by decide)
    rwa [closes, if_pos rfl] at levels
  rw [indentedLines_cons_eq_iff (by rw [strip]; decide), strip, after, front,
    List.append_left_eq_self,
    show ([] : Text) = (List.replicate 0 (Text.ofString "  ")).flatten from rfl,
    flatten_replicate_eq_iff, Nat.sub_eq_zero_iff_le]

/-- The properties of an interface and its end stay exactly if the properties are level. -/
theorem indentedLines_rows_iff {rows : List Text} (h : ∀ row ∈ rows, IsCodeLine row)
    (rest : List Text) :
    indentedLines "  " 1 (rows.map Generator.indented ++ (Text.ofString "\x7d" :: rest)) =
        rows.map Generator.indented ++ (Text.ofString "\x7d" :: rest) ↔
      AreLevel rows ∧ indentedLines "  " 0 rest = rest := by
  have row_iff {row : Text} (h : IsCodeLine row) (depth : Nat) (rest : List Text) :
      indentedLines "  " depth (Generator.indented row :: rest) = Generator.indented row :: rest ↔
        depth = 1 ∧ indentedLines "  " (depth + opened row - closed row) rest = rest := by
    rw [indentedLines_cons_eq_iff (by rw [h.strip_indented]; exact h.filled), h.strip_indented,
      h.margin_append_eq_iff]
    rfl
  induction rows with
  | nil =>
    have none : AreLevel [] := ⟨by simp, by simp⟩
    rw [List.map_nil, List.nil_append, indentedLines_close_iff]
    simp [none]
  | cons row rows ih =>
    rw [List.forall_mem_cons] at h
    have others := ih h.2
    rw [List.map_cons, List.cons_append, row_iff h.1]
    cases rows with
    | nil =>
      have single : AreLevel [row] ↔ opened row ≤ closed row :=
        ⟨fun level => level.last row rfl, fun few => ⟨by simp, by simpa using few⟩⟩
      rw [List.map_nil, List.nil_append, indentedLines_close_iff, single]
      constructor
      · intro ⟨_, few, rest⟩
        rw [show 1 + opened row - closed row - 1 = 0 by omega] at rest
        exact ⟨by omega, rest⟩
      · intro ⟨few, rest⟩
        refine ⟨rfl, by omega, ?_⟩
        rwa [show 1 + opened row - closed row - 1 = 0 by omega]
    | cons row' rows =>
      rw [areLevel_cons_cons, and_assoc]
      refine Iff.trans ?_ (and_congr_right fun _ => others)
      constructor
      · intro ⟨_, fixed⟩
        -- The next line tells how many braces are open before it.
        have one := ((row_iff (h.2 row' List.mem_cons_self) _ _).1 fixed).1
        refine ⟨by omega, ?_⟩
        rwa [one] at fixed
      · intro ⟨level, fixed⟩
        refine ⟨rfl, ?_⟩
        rwa [show 1 + opened row - closed row = 1 by omega]

/-- An interface stays exactly if its properties are level. -/
theorem indentedLines_interfaceText_iff {name : Text} {rows : List Text}
    (named : name.IsInterfaceName) (h : ∀ row ∈ rows, IsCodeLine row) (rest : List Text) :
    indentedLines "  " 0 ((Generator.interfaceText name rows).lines ++ rest) =
        (Generator.interfaceText name rows).lines ++ rest ↔
      AreLevel rows ∧ indentedLines "  " 0 rest = rest := by
  let header : Text := "export interface " ++ name ++ " \x7b"
  have counts : Counts header 1 0 := by
    have first : Counts (Text.ofString "export interface ") 0 0 := .of_quiet (by decide)
    have last : Counts (Text.ofString " \x7b") 1 0 :=
      Counts.of_not_mem (s := Text.ofString " \x7b") (by decide)
    exact (first.append (.of_quiet named.all_isQuiet)).append last
  have strip : header.strip = header := by
    refine Text.trim_eq (fun c hc => ?_) fun c hc => ?_
    · cases hc
      decide
    · rw [List.getLast?_append_of_ne_nil _ (by decide)] at hc
      cases hc
      decide
  have after : depthAfter 0 header.strip = 1 := by
    rw [strip]
    show 0 + opened header - closed header = 1
    rw [counts.opened, counts.closed]
  have front : margin "  " 0 header.strip = [] := by
    rw [strip]
    refine (margin_eq 0 (by decide)).trans ?_
    split <;> rfl
  have lines : (Generator.interfaceText name rows).lines ++ rest =
      header :: (rows.map Generator.indented ++ (Text.ofString "\x7d" :: rest)) := by
    rw [Generator.lines_interfaceText (Text.not_mem_of_visible (by decide) named.all_isVisible)
      fun row hr => (h row hr).line]
    show header :: ((rows.map Generator.indented ++ [Text.ofString "\x7d"]) ++ rest) = _
    rw [List.append_assoc]
    rfl
  rw [lines, indentedLines_cons_eq_iff (by rw [strip]; exact List.cons_ne_nil _ _), front, after,
    strip, ← indentedLines_rows_iff h]
  exact and_iff_right rfl

/-! ### Code that stays as it is -/

/-- Laying out code changes nothing exactly if the code is laid out. -/
theorem laid_eq_self_iff (blanks : ∀ c ∈ indent, c.isBlank = true)
    (free : ('\n' : CodePoint) ∉ indent) {body : Text} :
    laid indent (body ++ "\n") = body ++ "\n" ↔ IsBody indent body := by
  refine ⟨fun same => ?_, IsBody.laid_eq⟩
  obtain ⟨body', eq, isBody, -⟩ := exists_isBody blanks free (body ++ "\n")
  rwa [List.append_cancel_right (same.symm.trans eq)]

theorem isSparse_of_filled (filled : ∀ l ∈ ls, l ≠ []) : IsSparse ls := by
  induction ls with
  | nil => exact .nil
  | cons l ls ih =>
    rw [List.forall_mem_cons] at filled
    exact .cons (ih filled.2) fun _ _ => .inl filled.1

/-- What is to be laid out, given as its lines. -/
structure AreTidy (ls : List Text) : Prop where
  first : ∃ l rest, ls = l :: rest ∧ l ≠ []
  last : ∀ l ∈ ls.getLast?, l ≠ []
  lines : ∀ l ∈ ls, ('\n' : CodePoint) ∉ l
  bare : ∀ l ∈ ls, l.stripRight = l
  sparse : IsSparse ls

namespace AreTidy

theorem ne_nil (h : AreTidy ls) : ls ≠ [] := by
  obtain ⟨l, rest, rfl, -⟩ := h.first
  exact List.cons_ne_nil l rest

/-- Lines behind an empty one, none of which is empty. -/
theorem append_block (h : AreTidy ls) {block : List Text} (some : block ≠ [])
    (filled : ∀ l ∈ block, l ≠ []) (lines : ∀ l ∈ block, ('\n' : CodePoint) ∉ l)
    (bare : ∀ l ∈ block, l.stripRight = l) : AreTidy (ls ++ [] :: block) := by
  refine ⟨?_, ?_, ?_, ?_, ?_⟩
  · obtain ⟨l, rest, rfl, first⟩ := h.first
    exact ⟨l, rest ++ [] :: block, rfl, first⟩
  · intro l hl
    rw [List.getLast?_append_cons, List.getLast?_cons_of_ne_nil some] at hl
    exact filled l (List.mem_of_getLast? hl)
  · intro l hl
    rcases List.mem_append.1 hl with hl | hl
    · exact h.lines l hl
    · rcases List.mem_cons.1 hl with rfl | hl
      · exact List.not_mem_nil
      · exact lines l hl
  · intro l hl
    rcases List.mem_append.1 hl with hl | hl
    · exact h.bare l hl
    · rcases List.mem_cons.1 hl with rfl | hl
      · rfl
      · exact bare l hl
  · refine List.isChain_append.2 ⟨h.sparse, ?_, fun l hl _ _ => .inl (h.last l hl)⟩
    exact List.isChain_cons.2
      ⟨fun l hl => .inr (filled l (List.mem_of_mem_head? hl)), isSparse_of_filled filled⟩

theorem isBody_iff (h : AreTidy ls) :
    IsBody indent (Text.join "\n" ls) ↔ indentedLines indent 0 ls = ls := by
  have whole : (Text.join "\n" ls).lines = ls := Text.lines_join h.ne_nil h.lines
  refine ⟨fun body => by rw [← whole]; exact body.indented, fun indented => ?_⟩
  refine ⟨fun c hc feed => ?_, fun c hc feed => ?_, ?_, ?_, ?_⟩
  · subst feed
    obtain ⟨tail, eq⟩ := List.head?_eq_some_iff.1 hc
    have lines := Text.lines_feed [] tail
    rw [List.nil_append, ← eq, whole] at lines
    obtain ⟨l, rest, rfl, filled⟩ := h.first
    exact filled (List.cons.inj lines).1
  · subst feed
    obtain ⟨front, eq⟩ := List.getLast?_eq_some_iff.1 hc
    have lines := lines_body front
    rw [show front ++ Text.ofString "\n" = Text.join "\n" ls from eq.symm, whole] at lines
    exact h.last [] (by rw [lines, List.getLast?_concat]; rfl) rfl
  · rw [whole]
    exact h.bare
  · rw [whole]
    exact h.sparse
  · rw [whole]
    exact indented

end AreTidy

end Layout

/-! ### Combined files -/

namespace Generator

open Layout

/-- The lines in front of the interfaces. -/
def preambleLines : List Text :=
  ["/**", " * Automatically generated by mongoose-ts", " *",
    " * Do not edit by hand, re-run mongoose-ts instead.", " */", "",
    "/** @mongoose-ts: formatted with options \x7b\"indent\": 2, \"use_tabs\": false\x7d */", "",
    "import \x7b ObjectId, Decimal128 \x7d from \"bson\";"]

/-- All that a layout asks of the lines in front, in one evaluation. -/
theorem preambleLines_facts :
    preamble standard = Text.join "\n" preambleLines ++ [('\n' : CodePoint)] ∧
      (∀ l ∈ preambleLines, ('\n' : CodePoint) ∉ l ∧ l.stripRight = l) ∧
      (∀ l ∈ preambleLines.getLast?, l ≠ []) ∧
      List.IsChain (fun l next : Text => l ≠ [] ∨ next ≠ []) preambleLines ∧
      indentedLines "  " 0 preambleLines = preambleLines ∧
      depthBehind 0 (preambleLines.map Text.strip) = 0 := by
  have headers : headerComments standard = [signature, "@mongoose-ts: formatted with options " ++
      Literal.jsonLine (.object [("indent", .int 2), ("use_tabs", .bool false)])] := rfl
  rw [preamble, headers, signature, preambleLines]
  -- The kernel reads a list of characters much faster than a literal.
  repeat rw [Text.ofString_ofList]
  decide +kernel

theorem areTidy_preambleLines : AreTidy preambleLines := by
  obtain ⟨-, each, last, sparse, -⟩ := preambleLines_facts
  exact ⟨⟨"/**", preambleLines.tail, rfl, by decide⟩, last, fun l hl => (each l hl).1,
    fun l hl => (each l hl).2, sparse⟩

/-- The lines of a combined file but for the empty one at its end. -/
def combinedLines (interfaces : List Text) : List Text :=
  preambleLines ++ interfaces.flatMap fun s => [] :: s.lines

theorem lines_combined (interfaces : List Text) :
    (standard.combined interfaces).lines = combinedLines interfaces ++ [[]] := by
  have blocks : Text.lines (interfaces.flatMap interfaceBlock) =
      (interfaces.flatMap fun s => [] :: s.lines) ++ [[]] := by
    induction interfaces with
    | nil => rfl
    | cons s rest ih =>
      have first := Text.lines_feed [] (s ++ ('\n' : CodePoint) :: rest.flatMap interfaceBlock)
      rw [Text.lines_feed s, ih] at first
      rw [List.flatMap_cons, List.flatMap_cons, interfaceBlock, List.append_assoc,
        List.append_assoc, List.append_assoc]
      exact first
  have lines : (Text.join "\n" preambleLines).lines = preambleLines :=
    Text.lines_join areTidy_preambleLines.ne_nil areTidy_preambleLines.lines
  rw [combined, preambleLines_facts.1, List.append_assoc, List.singleton_append, Text.lines_feed,
    lines, blocks, ← List.append_assoc]
  rfl

end Generator

namespace Interface

open Layout

/-- The code of an interface. -/
def text (i : Interface) : Text := Generator.interfaceText i.name (i.fields.map Property.code)

/-- The code of each property but the last closes as many braces as it opens, outside its strings,
and the code of the last closes at least as many. -/
def IsLevel (i : Interface) : Prop := AreLevel (i.fields.map Property.code)

/-- An interface with a name of its own and each property on a line of its own. -/
structure IsOnLines (i : Interface) : Prop where
  name : i.name.IsInterfaceName
  rows : ∀ p ∈ i.fields, IsCodeLine p.code

theorem IsOnLines.forall_rows {i : Interface} (h : i.IsOnLines) :
    ∀ row ∈ i.fields.map Property.code, IsCodeLine row := by
  intro row hr
  obtain ⟨p, hp, rfl⟩ := List.mem_map.1 hr
  exact h.rows p hp

theorem IsOnLines.lines_text {i : Interface} (h : i.IsOnLines) :
    i.text.lines = ("export interface " ++ i.name ++ " \x7b") ::
      ((i.fields.map Property.code).map Generator.indented ++ [Text.ofString "\x7d"]) :=
  Generator.lines_interfaceText (Text.not_mem_of_visible (by decide) h.name.all_isVisible)
    fun row hr => (h.forall_rows row hr).line

/-- No line of an interface is empty or ends in a blank. -/
theorem IsOnLines.filled {i : Interface} (h : i.IsOnLines) :
    ∀ l ∈ i.text.lines, l ≠ [] ∧ l.stripRight = l := by
  intro l hl
  rw [h.lines_text] at hl
  rcases List.mem_cons.1 hl with rfl | hl
  · refine ⟨List.cons_ne_nil _ _, Text.trimRight_eq fun c hc => ?_⟩
    rw [List.getLast?_append_of_ne_nil _ (by decide)] at hc
    cases hc
    decide
  rcases List.mem_append.1 hl with hl | hl
  · obtain ⟨row, hr, rfl⟩ := List.mem_map.1 hl
    have row := h.forall_rows row hr
    refine ⟨List.cons_ne_nil _ _, ?_⟩
    have kept := Text.stripRight_append_strip "  " (by rw [row.trimmed]; exact row.filled)
    rwa [row.trimmed] at kept
  · rw [List.mem_singleton.1 hl]
    exact ⟨by decide, by decide⟩

end Interface

namespace Generator

open Layout

variable {models : List Interface}

theorem areTidy_combinedLines (h : ∀ i ∈ models, i.IsOnLines) :
    AreTidy (combinedLines (models.map Interface.text)) := by
  have all {ls : List Text} (tidy : AreTidy ls) :
      AreTidy (ls ++ (models.map Interface.text).flatMap fun s => [] :: s.lines) := by
    induction models generalizing ls with
    | nil => simpa using tidy
    | cons i models ih =>
      rw [List.forall_mem_cons] at h
      have block := tidy.append_block (Text.lines_ne_nil i.text)
        (fun l hl => (h.1.filled l hl).1) (fun l hl => Text.not_mem_of_mem_lines hl)
        fun l hl => (h.1.filled l hl).2
      rw [List.map_cons, List.flatMap_cons, ← List.append_assoc]
      exact ih h.2 block
  exact all areTidy_preambleLines

theorem indentedLines_combinedLines_iff (h : ∀ i ∈ models, i.IsOnLines) :
    indentedLines "  " 0 (combinedLines (models.map Interface.text)) =
        combinedLines (models.map Interface.text) ↔ ∀ i ∈ models, i.IsLevel := by
  obtain ⟨-, -, -, -, kept, behind⟩ := preambleLines_facts
  rw [combinedLines, indentedLines_append, kept, behind, List.append_cancel_left_eq]
  induction models with
  | nil => exact iff_of_true rfl (by simp)
  | cons i models ih =>
    have blank : Text.strip [] = [] := rfl
    rw [List.forall_mem_cons] at h
    rw [List.map_cons, List.flatMap_cons, List.cons_append, indentedLines_cons, if_pos blank,
      List.cons.injEq, and_iff_right rfl, List.forall_mem_cons]
    exact (indentedLines_interfaceText_iff h.1.name h.1.forall_rows _).trans
      (and_congr_right fun _ => ih h.2)

/-- A combined file is laid out already exactly if its interfaces are level. -/
theorem format_combined_iff (h : ∀ i ∈ models, i.IsOnLines) :
    standard.format (standard.combined (models.map Interface.text)) =
        .ok (standard.combined (models.map Interface.text)) ↔ ∀ i ∈ models, i.IsLevel := by
  have tidy := areTidy_combinedLines h
  have body : standard.combined (models.map Interface.text) =
      Text.join "\n" (combinedLines (models.map Interface.text)) ++ "\n" := by
    have lines := lines_combined (models.map Interface.text)
    rw [← Text.lines_join tidy.ne_nil tidy.lines, ← lines_body] at lines
    rw [← Text.join_lines (standard.combined _), lines, Text.join_lines]
  have unit : standard.settings.unit 2 = "  " := rfl
  rw [format_eq_laid rfl rfl rfl (by decide), unit, Except.ok.injEq, body,
    laid_eq_self_iff (by decide) (by decide), tidy.isBody_iff, indentedLines_combinedLines_iff h]

end Generator

/-! ### The interfaces of a batch -/

namespace Batch

variable {known : InterfaceNames} {source path : Text} {c : Conversion}

theorem isCodeLine_code {p : Property TypeExpr} (key : p.name.isNameAndFeed = false)
    (type : p.type.IsMapped Literal.IsEnumerable) : Layout.IsCodeLine p.code := by
  obtain ⟨first, tail, eq, start⟩ := TypeText.exists_asKey key
  have code : p.code = first :: (tail ++ (if p.optional then "?" else "") ++ ": " ++ p.type.code ++
      ";") := by
    rw [Property.code, TypeExpr.propertyText, eq]
    rfl
  refine ⟨TypeExpr.not_mem_propertyText key p.optional type.not_mem_code, ?_,
    ⟨first, _, code, start⟩⟩
  refine Text.trim_eq (fun d hd => ?_) fun d hd => ?_
  · rw [code] at hd
    cases hd
    rcases start with rfl | name
    · decide
    · exact (CodePoint.facts_of_isNameStart name).1
  · rw [Property.code, TypeExpr.propertyText, List.getLast?_append_of_ne_nil _ (by decide)] at hd
    cases hd
    decide

/-- What is known of the interface of a converted source. -/
structure IsOfSource (i : Interface) : Prop where
  onLines : i.IsOnLines
  single : Generator.standard.single i = .ok i.text
  keys : ∀ p ∈ i.fields, p.name.isNameAndFeed = false
  types : ∀ p ∈ i.fields, p.type.IsMapped Literal.IsEnumerable

theorem isOfSource_of_convert {paths : List Text} {i : Interface}
    (named : (namesOf .standard paths).outcome = .ok known)
    (ran : (convert .standard known source path).outcome = .ok c) (model : c.model = some i) :
    IsOfSource i := by
  obtain ⟨-, ⟨-, none⟩ | ⟨tree, name, i', result⟩⟩ := convert_cases ran
  · rw [none] at model
    cases model
  cases result.model.symm.trans model
  have spelled : known.AreSpelled := fun _ _ => isInterfaceName_of_namesOf rfl named
  obtain ⟨fields, rfl, -, mapped, code⟩ := result.exists_fields spelled result.isSound
  have keys (p : Property TypeExpr) (hp : p ∈ fields) := (mapped p hp).1
  have types (p : Property TypeExpr) (hp : p ∈ fields) := (mapped p hp).2
  exact
    { onLines := ⟨isInterfaceName_of_chosenName spelled result.chosen,
        fun p hp => isCodeLine_code (keys p hp) (types p hp)⟩
      single := by rw [result.single, code]; rfl
      keys
      types }

/-- Quiet comments do not disturb the layout. -/
theorem IsOfSource.isLevel {i : Interface} (h : IsOfSource i)
    (quiet : ∀ p ∈ i.fields, p.type.IsQuiet) : i.IsLevel := by
  refine .of_isBalanced fun row hr => ?_
  obtain ⟨p, hp, rfl⟩ := List.mem_map.1 hr
  exact TypeExpr.isBalanced_propertyText (h.keys p hp) p.optional
    (TypeExpr.IsMapped.isBalanced_code (h.types p hp) (quiet p hp))

/-- The combined file of converted sources is laid out already exactly if in each interface the code
of every property but the last closes as many braces as it opens, outside its strings, and that of
the last at least as many. It does where no name that did not resolve has a brace or a double quote,
since the names stand in comments, in which braces count and quotes start strings. -/
theorem format_file_eq_iff {paths : List Text} {models : List Interface}
    (named : (namesOf .standard paths).outcome = .ok known)
    (converted : ∀ i ∈ models, ∃ source path c,
      (convert .standard known source path).outcome = .ok c ∧ c.model = some i) :
    Generator.standard.file models = .ok (Generator.standard.combined (models.map Interface.text)) ∧
      (Generator.standard.format (Generator.standard.combined (models.map Interface.text)) =
          .ok (Generator.standard.combined (models.map Interface.text)) ↔
        ∀ i ∈ models, i.IsLevel) ∧
      ∀ i ∈ models, (∀ p ∈ i.fields, p.type.IsQuiet) → i.IsLevel := by
  have all (i : Interface) (hi : i ∈ models) : IsOfSource i := by
    obtain ⟨source, path, c, ran, model⟩ := converted i hi
    exact isOfSource_of_convert named ran model
  refine ⟨?_, Generator.format_combined_iff fun i hi => (all i hi).onLines,
    fun i hi quiet => (all i hi).isLevel quiet⟩
  apply Generator.file_eq rfl rfl
  clear converted
  induction models with
  | nil => rfl
  | cons i models ih =>
    rw [List.forall_mem_cons] at all
    rw [List.mapM_cons, all.1.single, ok_bind, ih all.2]
    rfl

/-- Whether the source of a batch of one file is converted to an interface that passes a test. -/
def convertsTo (source : Text) (test : Interface → Bool) : Bool :=
  match (namesOf .standard ["a.js"]).outcome with
  | .ok known =>
    match (convert .standard known source "a.js").outcome with
    | .ok c => c.model.any test
    | .error _ => false
  | .error _ => false

theorem exists_of_convertsTo (source : Text) (test : Interface → Bool)
    (h : convertsTo source test = true) :
    ∃ known c i, (namesOf .standard ["a.js"]).outcome = .ok known ∧
      (convert .standard known source "a.js").outcome = .ok c ∧ c.model = some i ∧
        test i = true := by
  rw [convertsTo] at h
  split at h
  · next known named =>
    split at h
    · next c ran =>
      obtain ⟨i, model, passed⟩ := (Option.any_eq_true _ _).1 h
      exact ⟨known, c, i, named, ran, model, passed⟩
    · cases h
  · cases h

/-- A schema with braces in a value, and with a nested object and a name that does not resolve. -/
def quotedBraces : Text :=
  "let s = new Schema(\x7b a: \x7b b: [C] \x7d, d: \x7b type: String, enum: ['\x7b'] \x7d \x7d);"

theorem format_file_eq_iff_quotedBraces :
    ∃ known c i, (namesOf .standard ["a.js"]).outcome = .ok known ∧
      (convert .standard known quotedBraces "a.js").outcome = .ok c ∧ c.model = some i ∧
        i.IsLevel ∧ Generator.standard.format (Generator.standard.combined [i.text]) =
          .ok (Generator.standard.combined [i.text]) := by
  obtain ⟨known, c, i, named, ran, model, same⟩ :=
    exists_of_convertsTo quotedBraces (fun i =>
      decide (∀ p ∈ i.fields, Layout.opened p.code = Layout.closed p.code))
      (by rw [quotedBraces, Text.ofString_ofList]; decide +kernel)
  have same := of_decide_eq_true same
  have level : i.IsLevel := by
    refine ⟨fun row hr => ?_, fun row hr => ?_⟩
    · obtain ⟨p, hp, rfl⟩ := List.mem_map.1 ((List.dropLast_sublist _).subset hr)
      exact same p hp
    · obtain ⟨p, hp, rfl⟩ := List.mem_map.1 (List.mem_of_getLast? hr)
      exact (same p hp).le
  have converted : ∀ j ∈ [i], ∃ source path c,
      (convert .standard known source path).outcome = .ok c ∧ c.model = some j :=
    List.forall_mem_singleton.2 ⟨quotedBraces, "a.js", c, ran, model⟩
  have laid := (format_file_eq_iff named converted).2.1.2 (List.forall_mem_singleton.2 level)
  exact ⟨known, c, i, named, ran, model, level, laid⟩

/-- A schema with a brace in a name that does not resolve. -/
def unresolvedBrace : Text := "let s = new Schema(\x7b a: '\x7b' \x7d);"

/-- The brace in the comment counts, and the end of the interface is indented. -/
theorem not_format_file_of_unresolvedBrace :
    ∃ known c i code, (namesOf .standard ["a.js"]).outcome = .ok known ∧
      (convert .standard known unresolvedBrace "a.js").outcome = .ok c ∧ c.model = some i ∧
        Generator.standard.file [i] = .ok code ∧ Generator.standard.format code ≠ .ok code := by
  obtain ⟨known, c, i, named, ran, model, more⟩ :=
    exists_of_convertsTo unresolvedBrace (fun i => decide (∃ row ∈ (i.fields.map
      Property.code).getLast?, Layout.closed row < Layout.opened row))
      (by rw [unresolvedBrace, Text.ofString_ofList]; decide +kernel)
  obtain ⟨row, last, unclosed⟩ := of_decide_eq_true more
  have ofSource := isOfSource_of_convert named ran model
  have file : Generator.standard.file [i] = .ok (Generator.standard.combined [i.text]) := by
    refine Generator.file_eq rfl rfl [i.text] ?_
    rw [List.mapM_cons, ofSource.single]
    rfl
  have laid := Generator.format_combined_iff (List.forall_mem_singleton.2 ofSource.onLines)
  refine ⟨known, c, i, _, named, ran, model, file, fun same => ?_⟩
  exact ((laid.1 same i List.mem_cons_self).last row last).not_gt unclosed

end Batch

end SchemaTypings
