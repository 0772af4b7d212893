import SchemaTypings.Proofs.Comments
import SchemaTypings.Proofs.Headers
import SchemaTypings.Proofs.Mapping

/-!
Reading generated types back. A type is a core with brackets behind it, and the first code point of a
core says which kind of type it is, so what is written for a type is read as that type. A comment
tells only so much of what it is about.
-/

namespace SchemaTypings

open Header (after?)

/-! ### What the code of a type tells -/

def Literal.commented : Literal → Literal
  | .text s => .text s.asComment
  | v => v

mutual

/-- The type as far as its code tells: what did not resolve has the name that the comment shows, and
the hints, which quote such names, are left out. -/
def TypeExpr.commented : TypeExpr → TypeExpr
  | ⟨kind, name, element, fields, literals, members, imports, _⟩ =>
    { kind, name := if kind = .unresolved then name.commented else name,
      element := commentedElement element, fields := commentedFields fields, literals,
      members := commentedMembers members, imports }

def commentedElement : Option TypeExpr → Option TypeExpr
  | none => none
  | some element => some element.commented

def commentedFields : List (Property TypeExpr) → List (Property TypeExpr)
  | [] => []
  | ⟨name, type, optional⟩ :: rest => ⟨name, type.commented, optional⟩ :: commentedFields rest

def commentedMembers : List TypeExpr → List TypeExpr
  | [] => []
  | type :: rest => type.commented :: commentedMembers rest

end

def Property.commented (p : Property TypeExpr) : Property TypeExpr :=
  ⟨p.name, p.type.commented, p.optional⟩

theorem commentedFields_eq_map (fields : List (Property TypeExpr)) :
    commentedFields fields = fields.map Property.commented := by
  induction fields with
  | nil => rfl
  | cons p rest ih =>
    obtain ⟨name, type, optional⟩ := p
    rw [commentedFields, ih]
    rfl

namespace TypeExpr

theorem imports_commented (t : TypeExpr) : t.commented.imports = t.imports := by
  cases t
  rw [commented]

theorem hints_commented (t : TypeExpr) : t.commented.hints = [] := by
  cases t
  rw [commented]

theorem commented_arrayOf (t : TypeExpr) : (arrayOf t).commented = arrayOf t.commented := by
  rw [arrayOf, arrayOf, imports_commented, hints_commented]
  rfl

theorem commented_objectOf (fields : List (Property TypeExpr)) :
    (objectOf fields).commented = objectOf (fields.map Property.commented) := by
  have imports : importsOf (fields.map Property.commented) = importsOf fields := by
    have each (p : Property TypeExpr) : p.commented.type.imports = p.type.imports :=
      imports_commented p.type
    simp only [importsOf, List.map_map, Function.comp_def, each]
  have hints : hintsOf (fields.map Property.commented) = [] := by
    have each (p : Property TypeExpr) : p.commented.type.hints = [] := hints_commented p.type
    simp [hintsOf, each]
  rw [objectOf, objectOf, imports, hints, commented, commentedFields_eq_map]
  rfl

end TypeExpr

/-! ### A reader of types -/

namespace TypeText

/-- The text of a string behind its first quote, and what follows the string. -/
def readString (s : Text) : Option (Text × Text) :=
  match stringBody '"' 0 s with
  | .ok (value, width) => some (value, s.drop width)
  | .error _ => none

def readInteger (s : Text) : Int × Text :=
  let digits (s : Text) : Text := s.takeWhile CodePoint.isAsciiDigit
  let rest (s : Text) : Text := s.dropWhile CodePoint.isAsciiDigit
  match after? "-" s with
  | some s => (-((digits s).digitsValue : Int), rest s)
  | none => ((digits s).digitsValue, rest s)

def readLiteral (s : Text) : Option (Literal × Text) :=
  match after? "\"" s with
  | some s => (readString s).map fun (value, rest) => (.text value, rest)
  | none => some (.int (readInteger s).1, (readInteger s).2)

/-- Fewer than `fuel` values with bars between them, and what follows them. -/
def readLiterals : Nat → Text → Option (List Literal × Text)
  | 0, _ => none
  | fuel + 1, s => do
    let (v, s) ← readLiteral s
    match after? " | " s with
    | some s => do
      let (vs, s) ← readLiterals fuel s
      pure (v :: vs, s)
    | none => pure ([v], s)

/-- What did not resolve, from the comment on, and what follows the comment. -/
def readComment (s : Text) : Option (TypeExpr × Text) := do
  let s ← after? " /* unresolved: " s
  let n ← Text.find? "*/" s
  pure (TypeExpr.ofTarget (s.take (n - 1)) [], s.drop (n + 2))

def baseOf? (word : Text) : Option BaseType :=
  BaseType.all.find? fun base => (TypeNames.name {} base).said = word

/-- The type that starts with a word, and what follows the type. -/
def readWord (s : Text) : Option (TypeExpr × Text) :=
  let word (s : Text) : Text := s.takeWhile CodePoint.isNamePart
  let rest (s : Text) : Text := s.dropWhile CodePoint.isNamePart
  if word s = "unknown" then readComment (rest s)
  else
    match baseOf? (word s) with
    | some base =>
      match after? " | " (rest s) with
      | some s => some (TypeExpr.ofChoice base (word s), rest s)
      | none => some (TypeExpr.ofBase base, rest s)
    | none => some (TypeExpr.ofInterface (word s), rest s)

/-- The type with the brackets that follow it, and what follows them. -/
def readBrackets (type : TypeExpr) : Text → TypeExpr × Text
  | c :: d :: rest =>
    if c = '[' ∧ d = ']' then readBrackets (TypeExpr.arrayOf type) rest else (type, c :: d :: rest)
  | s => (type, s)

def startsLiteral (c : CodePoint) : Bool := c = '"' || c = '-' || c.isAsciiDigit

def readKey (s : Text) : Option (Text × Text) :=
  match after? "\"" s with
  | some s => readString s
  | none => some (s.takeWhile CodePoint.isNamePart, s.dropWhile CodePoint.isNamePart)

/-- What follows the mark of an optional property, and whether there is one. -/
def readMark (s : Text) : Bool × Text :=
  match after? "?" s with
  | some s => (true, s)
  | none => (false, s)

mutual

/-- The type at the start, and what follows it, as all readers here give it. -/
def readType : Nat → Text → Option (TypeExpr × Text)
  | 0, _ => none
  | fuel + 1, s => (readCore fuel s).map fun (core, rest) => readBrackets core rest

/-- The type at the start without the brackets behind it, and what follows it. -/
def readCore : Nat → Text → Option (TypeExpr × Text)
  | 0, _ => none
  | fuel + 1, s =>
    match after? "(" s with
    | some s => do
      let (type, s) ← readType fuel s
      let s ← after? ")" s
      pure (type, s)
    | none =>
      match after? "\x7b\x7d" s with
      | some s => some (TypeExpr.objectOf [], s)
      | none =>
        match after? "\x7b" s with
        | some s => (readProperties " " " \x7d" fuel s).map fun (fields, s) =>
          (TypeExpr.objectOf fields, s)
        | none =>
          if s.head?.any startsLiteral then
            (readLiterals fuel s).map fun (vs, s) => (TypeExpr.ofLiterals vs, s)
          else readWord s

/-- Properties with a gap before each of them, and what follows the text that closes them. -/
def readProperties (gap close : Text) : Nat → Text → Option (List (Property TypeExpr) × Text)
  | 0, _ => none
  | fuel + 1, s =>
    match after? close s with
    | some s => some ([], s)
    | none => do
      let (name, s) ← readKey (← after? gap s)
      let (optional, s) := readMark s
      let (type, s) ← readType fuel (← after? ": " s)
      let (others, s) ← readProperties gap close fuel (← after? ";" s)
      pure (⟨name, type, optional⟩ :: others, s)

end

/-! ### What stands behind -/

/-- What can stand behind a type: a semicolon, or the parenthesis that closes a group. -/
def IsBehindType (s : Text) : Prop := ∃ c rest, s = c :: rest ∧ (c = ';' ∨ c = ')')

/-- What can stand behind a core, which may have brackets behind it too. -/
def IsBehindCore (s : Text) : Prop := ∃ c rest, s = c :: rest ∧ (c = ';' ∨ c = ')' ∨ c = '[')

/-- A core does not go on behind it. -/
structure EndsCore (s : Text) : Prop where
  name : ∀ c ∈ s.head?, c.isNamePart = false
  digit : ∀ c ∈ s.head?, c.isAsciiDigit = false
  bar : after? " | " s = none

variable {s rest word : Text} {c d : CodePoint}

theorem after?_eq_none (hw : word.head? = some d) (hs : s.head? = some c) (h : c ≠ d) :
    after? word s = none := by
  rw [after?, if_neg]
  intro starts
  obtain ⟨rest, rfl⟩ := List.isPrefixOf_iff_prefix.1 starts
  rw [List.head?_append, hw] at hs
  exact h (Option.some.inj hs).symm

theorem IsBehindCore.endsCore (h : IsBehindCore s) : EndsCore s := by
  obtain ⟨c, rest, rfl, mark⟩ := h
  have facts : c.isNamePart = false ∧ c.isAsciiDigit = false ∧ c ≠ ' ' := by
    rcases mark with rfl | rfl | rfl <;> decide
  refine ⟨?_, ?_, after?_eq_none rfl rfl facts.2.2⟩
  · rintro _ ⟨⟩
    exact facts.1
  · rintro _ ⟨⟩
    exact facts.2.1

/-! ### Brackets -/

def brackets : Nat → Text
  | 0 => []
  | n + 1 => "[]" ++ brackets n

theorem readBrackets_append (t : TypeExpr) (n : Nat) (h : IsBehindType rest) :
    readBrackets t (brackets n ++ rest) = (TypeExpr.arrayOf^[n] t, rest) := by
  induction n generalizing t with
  | zero =>
    obtain ⟨c, tail, rfl, mark⟩ := h
    have other : ¬c = '[' := by rcases mark with rfl | rfl <;> decide
    cases tail with
    | nil => rfl
    | cons d tail => exact if_neg fun both => other both.1
  | succ n ih =>
    show readBrackets t ('[' :: ']' :: (brackets n ++ rest)) = _
    rw [readBrackets, if_pos ⟨rfl, rfl⟩, ih]
    rfl

theorem isBehindCore_brackets (n : Nat) (h : IsBehindType rest) :
    IsBehindCore (brackets n ++ rest) := by
  cases n with
  | zero =>
    obtain ⟨c, tail, rfl, mark⟩ := h
    exact ⟨c, tail, rfl, mark.imp_right .inl⟩
  | succ n => exact ⟨'[', _, rfl, .inr (.inr rfl)⟩

/-! ### Values -/

theorem readString_quoted (s rest : Text) :
    readString (s.flatMap CodePoint.inDoubleQuotes ++ ('"' : CodePoint) :: rest) = some (s, rest) := by
  rw [readString, stringBody_quoted]
  have width : 0 + (s.flatMap CodePoint.inDoubleQuotes).length + 1 =
      (s.flatMap CodePoint.inDoubleQuotes ++ [('"' : CodePoint)]).length := by simp
  have whole : s.flatMap CodePoint.inDoubleQuotes ++ ('"' : CodePoint) :: rest =
      (s.flatMap CodePoint.inDoubleQuotes ++ [('"' : CodePoint)]) ++ rest := by simp
  dsimp only
  rw [width, whole, List.drop_left]

/-- Behind its first quote, a quoted text goes on with its body. -/
theorem after?_quoted (s rest : Text) : after? "\"" (s.quoted ++ rest) =
    some (s.flatMap CodePoint.inDoubleQuotes ++ ('"' : CodePoint) :: rest) := by
  have whole : s.quoted ++ rest =
      Text.ofString "\"" ++ (s.flatMap CodePoint.inDoubleQuotes ++ ('"' : CodePoint) :: rest) := by
    have quote : Text.ofString "\"" = [('"' : CodePoint)] := rfl
    simp [Text.quoted, quote]
  rw [whole, Header.after?_append]

theorem exists_ofInt (i : Int) :
    ∃ c tail, Text.ofInt i = c :: tail ∧ (c = '-' ∨ c.isAsciiDigit = true) := by
  cases i with
  | ofNat n =>
    obtain ⟨some, all⟩ := Text.isDigits_ofNat n
    obtain ⟨c, tail, eq⟩ := List.exists_cons_of_ne_nil some
    exact ⟨c, tail, eq, .inr (all c (eq ▸ List.mem_cons_self))⟩
  | negSucc n => exact ⟨'-', _, rfl, .inl rfl⟩

theorem readInteger_ofInt (i : Int) (h : ∀ c ∈ rest.head?, c.isAsciiDigit = false) :
    readInteger (Text.ofInt i ++ rest) = (i, rest) := by
  have digits (n : Nat) : (Text.ofNat n).all CodePoint.isAsciiDigit = true :=
    List.all_eq_true.2 (Text.isAsciiDigit_ofNat n)
  have value (n : Nat) :
      Text.digitsValue ((Text.ofNat n ++ rest).takeWhile CodePoint.isAsciiDigit) = n := by
    rw [Text.takeWhile_stops (digits n) h, Text.digitsValue_ofNat]
  have left (n : Nat) : (Text.ofNat n ++ rest).dropWhile CodePoint.isAsciiDigit = rest :=
    Text.dropWhile_stops (digits n) h
  cases i with
  | ofNat n =>
    have none : after? "-" (Text.ofNat n ++ rest) = none := by
      obtain ⟨some, all⟩ := Text.isDigits_ofNat n
      obtain ⟨c, tail, eq⟩ := List.exists_cons_of_ne_nil some
      have digit := all c (eq ▸ List.mem_cons_self)
      rw [eq]
      exact after?_eq_none rfl rfl (CodePoint.digitFacts digit).notSign.1
    rw [readInteger, Text.ofInt, none]
    simp only [value, left]
    rfl
  | negSucc n =>
    have minus : after? "-" (Text.ofInt (.negSucc n) ++ rest) = some (Text.ofNat (n + 1) ++ rest) :=
      Header.after?_append "-" (Text.ofNat (n + 1) ++ rest)
    rw [readInteger, minus]
    simp only [value, left]
    rfl

end TypeText

inductive Literal.IsExact : Literal → Prop
  | text (s : Text) : IsExact (.text s)
  | int (i : Int) : IsExact (.int i)

namespace TypeText

variable {s rest : Text} {v : Literal} {fuel : Nat}

theorem exists_asType (h : v.IsExact) :
    ∃ c tail, v.asType = c :: tail ∧ startsLiteral c = true := by
  cases h with
  | text s => exact ⟨'"', _, rfl, rfl⟩
  | int i =>
    obtain ⟨c, tail, eq, start⟩ := exists_ofInt i
    refine ⟨c, tail, eq, ?_⟩
    rcases start with rfl | digit
    · rfl
    · simp [startsLiteral, digit]

theorem readLiteral_asType (h : v.IsExact) (hr : ∀ c ∈ rest.head?, c.isAsciiDigit = false) :
    readLiteral (v.asType ++ rest) = some (v, rest) := by
  cases h with
  | text s =>
    rw [Literal.asType, readLiteral, after?_quoted]
    simp only [readString_quoted]
    rfl
  | int i =>
    have shown : (Literal.int i).asType = Text.ofInt i := rfl
    obtain ⟨c, tail, eq, start⟩ := exists_ofInt i
    have none : after? "\"" (Text.ofInt i ++ rest) = none := by
      rw [eq]
      refine after?_eq_none rfl rfl ?_
      rcases start with rfl | digit
      · decide
      · exact (CodePoint.digitFacts digit).notMark.2.1
    rw [shown, readLiteral, none]
    simp only [readInteger_ofInt i hr]

/-- Values with bars between them are read up to the last. -/
theorem readLiterals_join {vs : List Literal} (some : vs ≠ []) (all : ∀ v ∈ vs, v.IsExact)
    (h : EndsCore rest) (enough : vs.length ≤ fuel) :
    readLiterals fuel (Text.join " | " (vs.map Literal.asType) ++ rest) = .some (vs, rest) := by
  induction vs generalizing fuel with
  | nil => exact absurd rfl some
  | cons v vs ih =>
    obtain ⟨fuel, rfl⟩ := Nat.exists_eq_add_one_of_ne_zero (n := fuel) (by rintro rfl; cases enough)
    have first {rest : Text} (hr : ∀ c ∈ rest.head?, c.isAsciiDigit = false) :
        readLiteral (v.asType ++ rest) = .some (v, rest) :=
      readLiteral_asType (all v List.mem_cons_self) hr
    cases vs with
    | nil => simp [readLiterals, first h.digit, h.bar]
    | cons w vs =>
      have others := ih (by simp) (fun u hu => all u (List.mem_cons_of_mem v hu))
        (Nat.le_of_succ_le_succ enough)
      have next : ∀ c ∈ List.head?
          (Text.ofString " | " ++ (Text.join " | " ((w :: vs).map Literal.asType) ++ rest)),
          c.isAsciiDigit = false := by
        rintro _ ⟨⟩
        decide
      rw [List.map_cons, List.map_cons, Text.join_cons_cons, List.append_assoc, List.append_assoc,
        readLiterals, ← List.map_cons, first next]
      simp only [Option.bind_eq_bind, Option.bind_some, Header.after?_append, others]
      rfl

/-! ### Words -/

/-- A base type is written as a word that stands for no other type. -/
theorem facts_of_base (base : BaseType) :
    (TypeExpr.ofBase base).code.all CodePoint.isNamePart = true ∧
      (TypeExpr.ofBase base).code.head?.any CodePoint.isNameStart = true ∧
      (TypeExpr.ofBase base).code ≠ "unknown" ∧ baseOf? (TypeExpr.ofBase base).code = some base := by
  rw [TypeExpr.code_ofBase]
  cases base <;> decide

theorem baseOf?_interface {name : Text} (h : name.IsInterfaceName) : baseOf? name = none := by
  obtain ⟨word, rfl, -⟩ := h
  rw [baseOf?, List.find?_eq_none]
  intro base _
  have head : (TypeNames.name {} base).said.head? ≠ some ('I' : CodePoint) := by
    cases base <;> decide
  rw [decide_eq_true_eq]
  intro eq
  exact head (eq ▸ rfl)

theorem readWord_append {word : Text} (all : word.all CodePoint.isNamePart = true)
    (h : ∀ c ∈ rest.head?, c.isNamePart = false) :
    readWord (word ++ rest) =
      if word = "unknown" then readComment rest
      else
        match baseOf? word with
        | some base =>
          match after? " | " rest with
          | some s => some (TypeExpr.ofChoice base (s.takeWhile CodePoint.isNamePart),
            s.dropWhile CodePoint.isNamePart)
          | none => some (TypeExpr.ofBase base, rest)
        | none => some (TypeExpr.ofInterface word, rest) := by
  rw [readWord]
  simp only [Text.takeWhile_stops all h, Text.dropWhile_stops all h]

theorem readWord_base (base : BaseType) (h : EndsCore rest) :
    readWord ((TypeExpr.ofBase base).code ++ rest) = some (TypeExpr.ofBase base, rest) := by
  obtain ⟨parts, -, other, found⟩ := facts_of_base base
  rw [readWord_append parts h.name, if_neg other, found, h.bar]

theorem readWord_interface {name : Text} (spelled : name.IsInterfaceName)
    (h : ∀ c ∈ rest.head?, c.isNamePart = false) :
    readWord (name ++ rest) = some (TypeExpr.ofInterface name, rest) := by
  have other : name ≠ "unknown" := by
    obtain ⟨word, rfl, -⟩ := spelled
    intro eq
    have head : ('I' : CodePoint) = 'u' := (List.cons.inj eq).1
    revert head
    decide
  rw [readWord_append (List.all_eq_true.2 spelled.isNamePart) h, if_neg other,
    baseOf?_interface spelled]

theorem readWord_choice (base : BaseType) {name : Text} (spelled : name.IsInterfaceName)
    (h : ∀ c ∈ rest.head?, c.isNamePart = false) :
    readWord ((TypeExpr.ofBase base).code ++ (" | " ++ (name ++ rest))) =
      some (TypeExpr.ofChoice base name, rest) := by
  obtain ⟨parts, -, other, found⟩ := facts_of_base base
  have space : ∀ c ∈ List.head? (Text.ofString " | " ++ (name ++ rest)), c.isNamePart = false := by
    rintro _ ⟨⟩
    decide
  have all : name.all CodePoint.isNamePart = true := List.all_eq_true.2 spelled.isNamePart
  rw [readWord_append parts space, if_neg other, found, Header.after?_append]
  simp only [Text.takeWhile_stops all h, Text.dropWhile_stops all h]

/-- A comment is read up to its end, whatever it is about. -/
theorem readWord_target (target rest : Text) :
    readWord ("unknown" ++ (" /* unresolved: " ++ (target.asComment ++ (" */" ++ rest)))) =
      some (TypeExpr.ofTarget target.asComment [], rest) := by
  have space : ∀ c ∈ List.head?
      (Text.ofString " /* unresolved: " ++ (target.asComment ++ (Text.ofString " */" ++ rest))),
      c.isNamePart = false := by
    rintro _ ⟨⟩
    decide
  have behind : List.drop (target.asComment.length + 1 + 2)
      (target.asComment ++ (Text.ofString " */" ++ rest)) = rest := by
    rw [Nat.add_assoc, ← List.drop_drop, List.drop_left]
    rfl
  rw [readWord_append (by decide) space, if_pos rfl, readComment, Header.after?_append]
  simp only [Option.bind_eq_bind, Option.bind_some, (Text.keepsOpen_asComment target).find?_eq,
    Nat.add_sub_cancel, List.take_left, behind]
  rfl

/-! ### Keys -/

theorem exists_asKey {key : Text} (h : key.isNameAndFeed = false) :
    ∃ c tail, key.asKey = c :: tail ∧ (c = '"' ∨ c.isNameStart = true) := by
  rw [Text.asKey, Text.passesAsName_eq, h, Bool.or_false]
  split
  · next isName =>
    cases key with
    | nil => cases isName
    | cons c key =>
      rw [Text.isName, Bool.and_eq_true] at isName
      exact ⟨c, key, rfl, .inr isName.1⟩
  · exact ⟨'"', _, rfl, .inl rfl⟩

theorem readKey_asKey {key : Text} (h : key.isNameAndFeed = false)
    (hr : ∀ c ∈ rest.head?, c.isNamePart = false) :
    readKey (key.asKey ++ rest) = some (key, rest) := by
  rw [Text.asKey, Text.passesAsName_eq, h, Bool.or_false]
  split
  · next isName =>
    cases key with
    | nil => cases isName
    | cons c key =>
      rw [Text.isName, Bool.and_eq_true] at isName
      have all : (c :: key).all CodePoint.isNamePart = true := by
        rw [List.all_cons, CodePoint.isNamePart_of_isNameStart isName.1, isName.2]
        rfl
      have none : after? "\"" (c :: key ++ rest) = none := by
        refine after?_eq_none rfl rfl ?_
        rintro rfl
        exact absurd isName.1 (by decide)
      rw [readKey, none]
      simp only [Text.takeWhile_stops all hr, Text.dropWhile_stops all hr]
  · rw [readKey, after?_quoted]
    exact readString_quoted key rest

theorem readMark_append (optional : Bool) (s : Text) :
    readMark (Text.ofString (if optional then "?" else "") ++ (": " ++ s)) = (optional, ": " ++ s) := by
  cases optional with
  | true =>
    have mark : after? "?" (Text.ofString "?" ++ (": " ++ s)) = some (": " ++ s) :=
      Header.after?_append _ _
    rw [if_pos rfl, readMark, mark]
  | false =>
    have none : after? "?" (Text.ofString "" ++ (": " ++ s)) = none :=
      after?_eq_none rfl rfl (by decide)
    rw [if_neg Bool.false_ne_true, readMark, none]
    rfl

/-! ### Cores -/

theorem readCore_group (fuel : Nat) (s : Text) : readCore (fuel + 1) ("(" ++ s) = (do
    let (type, s) ← readType fuel s
    let s ← after? ")" s
    pure (type, s)) := by
  rw [readCore, Header.after?_append]

theorem readCore_none (fuel : Nat) (s : Text) :
    readCore (fuel + 1) ("\x7b\x7d" ++ s) = some (TypeExpr.objectOf [], s) := by
  have group : after? "(" ("\x7b\x7d" ++ s) = none := after?_eq_none rfl rfl (by decide)
  rw [readCore, group, Header.after?_append]

theorem readCore_object (fuel : Nat) (s : Text) :
    readCore (fuel + 1) ("\x7b" ++ (" " ++ s)) =
      (readProperties " " " \x7d" fuel (" " ++ s)).map fun (fields, s) =>
        (TypeExpr.objectOf fields, s) := by
  have group : after? "(" ("\x7b" ++ (" " ++ s)) = none := after?_eq_none rfl rfl (by decide)
  have some_ : after? "\x7b\x7d" ("\x7b" ++ (" " ++ s)) = none := by
    rw [after?, if_neg]
    intro starts
    obtain ⟨rest, eq⟩ := List.isPrefixOf_iff_prefix.1 starts
    have second : ('\x7d' : CodePoint) = ' ' := (List.cons.inj (List.cons.inj eq).2).1
    revert second
    decide
  rw [readCore, group, some_, Header.after?_append]

theorem readCore_plain (fuel : Nat) {c : CodePoint} (s : Text) (h : c ≠ '(' ∧ c ≠ '\x7b') :
    readCore (fuel + 1) (c :: s) =
      if startsLiteral c then
        (readLiterals fuel (c :: s)).map fun (vs, s) => (TypeExpr.ofLiterals vs, s)
      else readWord (c :: s) := by
  have group : after? "(" (c :: s) = none := after?_eq_none rfl rfl h.1
  have empty : after? "\x7b\x7d" (c :: s) = none := after?_eq_none rfl rfl h.2
  have object : after? "\x7b" (c :: s) = none := after?_eq_none rfl rfl h.2
  have first : List.head? (c :: s) = some c := rfl
  rw [readCore, group, empty, object, first, Option.any_some]

theorem readCore_word (fuel : Nat) {word : Text} (rest : Text)
    (h : word.head?.any CodePoint.isNameStart = true) :
    readCore (fuel + 1) (word ++ rest) = readWord (word ++ rest) := by
  obtain ⟨c, head, start⟩ := (Option.any_eq_true _ _).1 h
  obtain ⟨tail, rfl⟩ := List.head?_eq_some_iff.1 head
  have other (d : CodePoint) (hd : d.isNameStart = false) : c ≠ d := by
    rintro rfl
    rw [hd] at start
    cases start
  have digit : c.isAsciiDigit = false := by
    rw [Bool.eq_false_iff]
    intro digit
    rw [(CodePoint.digitFacts digit).notNameStart] at start
    cases start
  have literal : startsLiteral c = false := by
    have quote := other '"' (by decide)
    have minus := other '-' (by decide)
    simp [startsLiteral, quote, minus, digit]
  rw [List.cons_append, readCore_plain _ _ ⟨other _ (by decide), other _ (by decide)⟩, literal]
  exact if_neg Bool.false_ne_true

theorem readCore_literal (fuel : Nat) {word : Text} (rest : Text)
    (h : word.head?.any startsLiteral = true) :
    readCore (fuel + 1) (word ++ rest) =
      (readLiterals fuel (word ++ rest)).map fun (vs, s) => (TypeExpr.ofLiterals vs, s) := by
  obtain ⟨c, head, start⟩ := (Option.any_eq_true _ _).1 h
  obtain ⟨tail, rfl⟩ := List.head?_eq_some_iff.1 head
  have other (d : CodePoint) (hd : startsLiteral d = false) : c ≠ d := by
    rintro rfl
    rw [hd] at start
    cases start
  rw [List.cons_append, readCore_plain _ _ ⟨other _ (by decide), other _ (by decide)⟩, if_pos start]

/-! ### Types -/

/-- With fuel enough, the code of a type is read as that type, with the brackets behind it. -/
def ReadsType (t : TypeExpr) : Prop :=
  ∃ n, ∀ fuel, n ≤ fuel → ∀ (k : Nat) (rest : Text), IsBehindType rest →
    readType fuel (t.code ++ (brackets k ++ rest)) = some (TypeExpr.arrayOf^[k] t.commented, rest)

def ReadsCore (t : TypeExpr) : Prop :=
  ∃ n, ∀ fuel, n ≤ fuel → ∀ rest, IsBehindCore rest →
    readCore fuel (t.code ++ rest) = some (t.commented, rest)

theorem ReadsCore.readsType {t : TypeExpr} (h : ReadsCore t) : ReadsType t := by
  obtain ⟨n, read⟩ := h
  refine ⟨n + 1, ?_⟩
  intro fuel enough k rest behind
  obtain ⟨fuel, rfl⟩ := Nat.exists_eq_add_of_le' enough
  rw [← Nat.add_assoc, readType, read _ (by omega) _ (isBehindCore_brackets k behind)]
  exact congrArg some (readBrackets_append _ k behind)

theorem readsCore_base (base : BaseType) : ReadsCore (TypeExpr.ofBase base) := by
  obtain ⟨-, start, -⟩ := facts_of_base base
  refine ⟨1, ?_⟩
  intro fuel enough rest behind
  obtain ⟨fuel, rfl⟩ := Nat.exists_eq_add_of_le' enough
  rw [readCore_word fuel rest start]
  exact readWord_base base behind.endsCore

theorem readsCore_interface {name : Text} (spelled : name.IsInterfaceName) :
    ReadsCore (TypeExpr.ofInterface name) := by
  have start : name.head?.any CodePoint.isNameStart = true := by
    obtain ⟨word, rfl, -⟩ := spelled
    rfl
  refine ⟨1, ?_⟩
  intro fuel enough rest behind
  obtain ⟨fuel, rfl⟩ := Nat.exists_eq_add_of_le' enough
  rw [TypeExpr.code_ofInterface, readCore_word fuel rest start]
  exact readWord_interface spelled behind.endsCore.name

theorem readsCore_choice (base : BaseType) {name : Text} (spelled : name.IsInterfaceName) :
    ReadsCore (TypeExpr.ofChoice base name) := by
  obtain ⟨-, start, -⟩ := facts_of_base base
  refine ⟨1, ?_⟩
  intro fuel enough rest behind
  obtain ⟨fuel, rfl⟩ := Nat.exists_eq_add_of_le' enough
  rw [TypeExpr.code_eq (TypeExpr.render_ofChoice base name), List.append_assoc, List.append_assoc,
    readCore_word fuel _ start]
  exact readWord_choice base spelled behind.endsCore.name

theorem readsCore_target (target : Text) (hints : List Text) :
    ReadsCore (TypeExpr.ofTarget target hints) := by
  have opening : Text.ofString "unknown /* unresolved: " =
      Text.ofString "unknown" ++ Text.ofString " /* unresolved: " := rfl
  refine ⟨1, ?_⟩
  intro fuel enough rest behind
  obtain ⟨fuel, rfl⟩ := Nat.exists_eq_add_of_le' enough
  rw [TypeExpr.code_ofTarget, opening]
  simp only [List.append_assoc]
  rw [readCore_word fuel _ (by decide)]
  exact readWord_target target rest

theorem readsCore_literals {literals : List Literal} (some : literals ≠ [])
    (all : ∀ v ∈ literals, v.IsExact) : ReadsCore (TypeExpr.ofLiterals literals) := by
  have start : (Text.join " | " (literals.map Literal.asType)).head?.any startsLiteral = true := by
    obtain ⟨v, rest, rfl⟩ := List.exists_cons_of_ne_nil some
    obtain ⟨c, tail, eq, start⟩ := exists_asType (all v List.mem_cons_self)
    cases rest with
    | nil => rw [List.map_cons, List.map_nil, Text.join_singleton, eq, List.head?_cons, Option.any_some,
        start]
    | cons w rest =>
      rw [List.map_cons, List.map_cons, Text.join_cons_cons, eq, List.cons_append, List.head?_cons,
        Option.any_some, start]
  refine ⟨literals.length + 1, ?_⟩
  intro fuel enough rest behind
  obtain ⟨fuel, rfl⟩ := Nat.exists_eq_add_of_le' enough
  rw [TypeExpr.code_ofLiterals, ← Nat.add_assoc, readCore_literal _ _ start,
    readLiterals_join some all behind.endsCore (by omega)]
  rfl

/-- The brackets of an array are read behind those of its elements. -/
theorem ReadsType.array {t : TypeExpr} (prints : t.Prints (.text "unknown")) (h : ReadsType t) :
    ReadsType (TypeExpr.arrayOf t) := by
  obtain ⟨n, read⟩ := h
  have code := TypeExpr.code_eq (TypeExpr.render_arrayOf prints)
  cases union : t.isUnion with
  | false =>
    rw [union, if_neg Bool.false_ne_true] at code
    refine ⟨n, ?_⟩
    intro fuel enough k rest behind
    have more := read fuel enough (k + 1) rest behind
    rw [code, List.append_assoc, TypeExpr.commented_arrayOf]
    exact more
  | true =>
    rw [union, if_pos rfl] at code
    refine ⟨n + 2, ?_⟩
    intro fuel enough k rest behind
    obtain ⟨fuel, rfl⟩ := Nat.exists_eq_add_of_le' enough
    -- The group is read as the type in it, with no brackets of its own.
    have inner : readType (fuel + n) (t.code ++ (")" ++ (brackets (k + 1) ++ rest))) =
        some (t.commented, ")" ++ (brackets (k + 1) ++ rest)) :=
      read _ (by omega) 0 _ ⟨')', _, rfl, .inr rfl⟩
    have core : readCore (fuel + n + 1) ("(" ++ (t.code ++ (")" ++ (brackets (k + 1) ++ rest)))) =
        some (t.commented, brackets (k + 1) ++ rest) := by
      rw [readCore_group, inner]
      simp [Header.after?_append]
    have whole : (TypeExpr.arrayOf t).code ++ (brackets k ++ rest) =
        "(" ++ (t.code ++ (")" ++ (brackets (k + 1) ++ rest))) := by
      rw [code, brackets]
      simp only [List.append_assoc]
    rw [whole, TypeExpr.commented_arrayOf, ← Nat.add_assoc, readType, core]
    exact congrArg some (readBrackets_append t.commented (k + 1) behind)

/-! ### Properties -/

/-- What closes properties is not taken for the gap before one. -/
def Separates (gap close : Text) : Prop :=
  ∀ s : Text, s.head? ≠ some ('\x7d' : CodePoint) → after? close (gap ++ s) = none

def afterGap (gap : Text) (p : Property TypeExpr) : Text := gap ++ p.code

variable {gap close : Text}

theorem readProperties_close (fuel : Nat) (rest : Text) :
    readProperties gap close (fuel + 1) (close ++ rest) = some ([], rest) := by
  rw [readProperties, Header.after?_append]

/-- A property is read, and the others behind it. -/
theorem readProperties_cons (separates : Separates gap close) {p : Property TypeExpr}
    (key : p.name.isNameAndFeed = false) {others : List (Property TypeExpr)} {tail rest : Text}
    (type : readType fuel (p.type.code ++ (";" ++ tail)) = some (p.type.commented, ";" ++ tail))
    (more : readProperties gap close fuel tail = some (others, rest)) :
    readProperties gap close (fuel + 1) (afterGap gap p ++ tail) =
      some (p.commented :: others, rest) := by
  have code : afterGap gap p ++ tail = gap ++ (p.name.asKey ++
      (Text.ofString (if p.optional then "?" else "") ++
        (": " ++ (p.type.code ++ (";" ++ tail))))) := by
    rw [afterGap, Property.code, TypeExpr.propertyText]
    simp only [List.append_assoc]
  have open_ : after? close (gap ++ (p.name.asKey ++
      (Text.ofString (if p.optional then "?" else "") ++
        (": " ++ (p.type.code ++ (";" ++ tail)))))) = none := by
    refine separates _ ?_
    obtain ⟨c, tail, eq, start⟩ := exists_asKey key
    rw [eq, List.cons_append, List.head?_cons]
    rintro ⟨⟩
    revert start
    decide
  have stop : ∀ c ∈ List.head? (Text.ofString (if p.optional then "?" else "") ++
      (Text.ofString ": " ++ (p.type.code ++ (Text.ofString ";" ++ tail)))),
      c.isNamePart = false := by
    cases p.optional <;> rintro _ ⟨⟩ <;> decide
  rw [code, readProperties, open_]
  simp only [Header.after?_append, Option.bind_eq_bind, Option.bind_some, readKey_asKey key stop,
    readMark_append, type, more]
  rfl

theorem exists_readProperties (separates : Separates gap close) {fields : List (Property TypeExpr)}
    (keys : ∀ p ∈ fields, Text.isNameAndFeed p.name = false)
    (types : ∀ p ∈ fields, ReadsType p.type) :
    ∃ n, ∀ fuel, n ≤ fuel → ∀ rest,
      readProperties gap close fuel ((fields.map (afterGap gap)).flatten ++ (close ++ rest)) =
        some (fields.map Property.commented, rest) := by
  induction fields with
  | nil =>
    refine ⟨1, ?_⟩
    intro fuel enough rest
    obtain ⟨fuel, rfl⟩ := Nat.exists_eq_add_of_le' enough
    exact readProperties_close fuel rest
  | cons p fields ih =>
    obtain ⟨m, type⟩ := types p List.mem_cons_self
    obtain ⟨n, others⟩ := ih (fun q hq => keys q (List.mem_cons_of_mem p hq))
      fun q hq => types q (List.mem_cons_of_mem p hq)
    refine ⟨max m n + 1, ?_⟩
    intro fuel enough rest
    obtain ⟨fuel, rfl⟩ := Nat.exists_eq_add_of_le' enough
    rw [← Nat.add_assoc, List.map_cons, List.flatten_cons, List.append_assoc]
    refine readProperties_cons separates (keys p List.mem_cons_self) ?_ (others _ (by omega) rest)
    exact type _ (by omega) 0 _ ⟨';', _, rfl, .inl rfl⟩

theorem separates_space : Separates " " " \x7d" := by
  intro s head
  rw [after?, if_neg]
  intro starts
  obtain ⟨rest, eq⟩ := List.isPrefixOf_iff_prefix.1 starts
  have brace : [('\x7d' : CodePoint)] ++ rest = s := (List.cons.inj eq).2
  exact head (brace ▸ rfl)

theorem separates_line : Separates "\n  " "\n\x7d" := by
  intro s _
  rw [after?, if_neg]
  intro starts
  obtain ⟨rest, eq⟩ := List.isPrefixOf_iff_prefix.1 starts
  have second : ('\x7d' : CodePoint) = ' ' := (List.cons.inj (List.cons.inj eq).2).1
  revert second
  decide

/-- Properties with spaces between them have one before each of them, behind another space. -/
theorem space_join (p : Property TypeExpr) (rest : List (Property TypeExpr)) :
    " " ++ Text.join " " ((p :: rest).map Property.code) = ((p :: rest).map (afterGap " ")).flatten := by
  induction rest generalizing p with
  | nil => simp [afterGap]
  | cons q rest ih =>
    rw [List.map_cons, List.map_cons, Text.join_cons_cons, ← List.map_cons, ih q]
    simp [afterGap]

theorem readsCore_object {fields : List (Property TypeExpr)}
    (keys : ∀ p ∈ fields, Text.isNameAndFeed p.name = false)
    (prints : ∀ p ∈ fields, TypeExpr.Prints (.text "unknown") p.type)
    (types : ∀ p ∈ fields, ReadsType p.type) : ReadsCore (TypeExpr.objectOf fields) := by
  have code := TypeExpr.code_eq (TypeExpr.render_objectOf prints)
  cases fields with
  | nil =>
    refine ⟨1, fun fuel enough rest _ => ?_⟩
    obtain ⟨fuel, rfl⟩ := Nat.exists_eq_add_of_le' enough
    rw [code, TypeExpr.commented_objectOf]
    exact readCore_none fuel rest
  | cons p fields =>
    obtain ⟨n, read⟩ := exists_readProperties separates_space keys types
    refine ⟨n + 1, fun fuel enough rest _ => ?_⟩
    obtain ⟨fuel, rfl⟩ := Nat.exists_eq_add_of_le' enough
    have opening : Text.ofString "\x7b " = Text.ofString "\x7b" ++ Text.ofString " " := rfl
    have whole : (TypeExpr.objectOf (p :: fields)).code ++ rest = "\x7b" ++ (" " ++
        (Text.join " " ((p :: fields).map Property.code) ++ (" \x7d" ++ rest))) := by
      rw [code, List.isEmpty_cons, if_neg Bool.false_ne_true, opening]
      simp only [List.append_assoc]
    rw [whole, ← Nat.add_assoc, readCore_object, ← List.append_assoc, space_join,
      read _ (by omega) rest, TypeExpr.commented_objectOf]
    rfl

/-- The code of the type of a sound field is read as that type. -/
theorem readsType_of_isMapped {t : TypeExpr} (h : t.IsMapped Literal.IsExact) : ReadsType t := by
  induction h with
  | base base => exact (readsCore_base base).readsType
  | interface spelled => exact (readsCore_interface spelled).readsType
  | choice base spelled => exact (readsCore_choice base spelled).readsType
  | target target hints => exact (readsCore_target target hints).readsType
  | literals some all => exact (readsCore_literals some all).readsType
  | array mapped ih => exact ih.array mapped.prints
  | object keys types ih =>
    exact (readsCore_object keys (fun p hp => (types p hp).prints) ih).readsType

end TypeText

end SchemaTypings
