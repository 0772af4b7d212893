import SchemaTypings.Declaration.Extract
import SchemaTypings.Proofs.Digits

/-!
The grammar of what stands in front of a schema call: a header that declares a name, and perhaps
generic arguments. The functions that read such a text read every text of the grammar in front of a
call, and no other.
-/

namespace SchemaTypings

/-! ### Blanks -/

/-- No blank goes on with a name. -/
theorem CodePoint.not_isNamePart_of_isBlank {c : CodePoint} (h : c.isBlank = true) :
    c.isNamePart = false := by
  have all : ∀ n ∈ blankEdges.members,
      alphanumericEdges.contains n = false ∧ n ≠ 95 ∧ n ≠ 36 := by decide +kernel
  obtain ⟨letter, bar, dollar⟩ := all c.val (Edges.mem_members (by decide) h)
  have ne {d : Char} (h : c.val ≠ d.toNat) : c ≠ d := fun eq => h (by rw [eq, val_ofChar])
  simp [isNamePart, isWord, isAlphanumeric, letter, ne (d := '_') bar, ne (d := '$') dollar]

/-- Blanks, perhaps none. -/
def Text.IsGap (s : Text) : Prop := ∀ c ∈ s, c.isBlank = true

theorem Text.EndsName.gap {gap s : Text} (h : s.EndsName) (isGap : gap.IsGap) :
    (gap ++ s).EndsName := by
  cases gap with
  | nil => exact h
  | cons c gap =>
    exact endsName_cons (CodePoint.not_isNamePart_of_isBlank (isGap c (List.mem_cons_self ..)))

/-- Blanks behind a name end it. -/
theorem Text.endsName_gap {gap : Text} (some : gap ≠ []) (isGap : gap.IsGap) (s : Text) :
    (gap ++ s).EndsName := by
  cases gap with
  | nil => exact absurd rfl some
  | cons c gap =>
    exact endsName_cons (CodePoint.not_isNamePart_of_isBlank (isGap c (List.mem_cons_self ..)))

/-- The text does not start with a blank. -/
def Text.StartsSolid (s : Text) : Prop := ∀ c ∈ s.head?, c.isBlank = false

/-- A name does not start with a blank. -/
theorem Text.startsSolid_name {name : Text} (h : name.isName = true) (s : Text) :
    StartsSolid (name ++ s) := by
  cases name with
  | nil => cases h
  | cons c name =>
    rw [isName, Bool.and_eq_true] at h
    rintro _ ⟨⟩
    exact (CodePoint.facts_of_isNameStart h.1).1

namespace Header

/-! ### The grammar -/

/-- A path of qualifiers and the word `Schema`. -/
inductive IsPath : Text → Prop
  | schema : IsPath "Schema"
  | qualified {name gap gap' path : Text} (isName : name.isName = true) (before : gap.IsGap)
      (after : gap'.IsGap) (rest : IsPath path) :
      IsPath (name ++ (gap ++ ("." ++ (gap' ++ path))))

/-- An optional `new` and a path. -/
inductive IsConstructor : Text → Prop
  | bare {path : Text} (h : IsPath path) : IsConstructor path
  | new {gap path : Text} (some : gap ≠ []) (isGap : gap.IsGap) (h : IsPath path) :
      IsConstructor ("new" ++ (gap ++ path))

/-- An equals sign, perhaps with a type annotation before it. -/
inductive IsEquals : Text → Prop
  | bare {gap : Text} (isGap : gap.IsGap) : IsEquals (gap ++ "=")
  | annotated {gap type : Text} (isGap : gap.IsGap) (some : type ≠ [])
      (plain : ∀ c ∈ type, c ≠ '=' ∧ c ≠ ';') : IsEquals (gap ++ (":" ++ (type ++ "=")))

/-- A keyword, the declared name, and what is assigned to it up to the call. -/
inductive IsDeclaration (name : Text) : Text → Prop
  | mk {keyword gap equals gap' built gap'' : Text}
      (declares : keyword ∈ (["const", "let", "var"] : List Text)) (some : gap ≠ [])
      (apart : gap.IsGap) (isName : name.isName = true) (assigned : IsEquals equals)
      (before : gap'.IsGap) (builds : IsConstructor built) (after : gap''.IsGap) :
      IsDeclaration name
        (keyword ++ (gap ++ (name ++ (equals ++ (gap' ++ (built ++ gap''))))))

end Header

/-- The text of a header that declares `name`. -/
inductive IsHeader (name : Text) : Text → Prop
  | plain {s : Text} (h : Header.IsDeclaration name s) : IsHeader name s
  | exported {gap s : Text} (some : gap ≠ []) (apart : gap.IsGap)
      (h : Header.IsDeclaration name s) : IsHeader name ("export" ++ (gap ++ s))

namespace Header

/-- What stands behind a header: generic arguments or a call. -/
def Opens (s : Text) : Prop := ∃ c rest, s = c :: rest ∧ (c = '(' ∨ c = '<')

/-! ### What is read is a text of the grammar -/

section

variable {name s rest : Text}

theorem eq_of_after? {word : Text} (h : after? word s = some rest) : s = word ++ rest := by
  rw [after?] at h
  split at h
  · next starts =>
    cases h
    obtain ⟨rest, rfl⟩ := List.isPrefixOf_iff_prefix.1 starts
    rw [List.drop_left]
  · cases h

theorem exists_of_skipBlanks (s : Text) :
    ∃ gap : Text, gap.IsGap ∧ s = gap ++ skipBlanks s ∧ (skipBlanks s).StartsSolid := by
  refine ⟨s.takeWhile CodePoint.isBlank, fun c mem => ?_, List.takeWhile_append_dropWhile.symm, ?_⟩
  · exact (List.all_eq_true.1 List.all_takeWhile) c mem
  · intro c mem
    have head := List.head?_dropWhile_not CodePoint.isBlank s
    rw [skipBlanks, Option.mem_def] at mem
    rw [mem] at head
    simpa using head

theorem exists_of_blanks? (h : blanks? s = some rest) :
    ∃ gap : Text, gap ≠ [] ∧ gap.IsGap ∧ s = gap ++ rest ∧ rest.StartsSolid := by
  cases s with
  | nil => cases h
  | cons c s =>
    rw [blanks?] at h
    split at h
    · next blank =>
      cases h
      obtain ⟨gap, isGap, split, solid⟩ := exists_of_skipBlanks s
      refine ⟨c :: gap, List.cons_ne_nil c gap, List.forall_mem_cons.2 ⟨blank, isGap⟩, ?_, solid⟩
      rw [List.cons_append, ← split]
    · cases h

theorem exists_of_name? (h : name? s = some (name, rest)) :
    name.isName = true ∧ s = name ++ rest := by
  cases s with
  | nil => cases h
  | cons c s =>
    rw [name?] at h
    split at h
    · next start =>
      cases h
      rw [Text.isName, start, List.all_takeWhile, List.cons_append, List.takeWhile_append_dropWhile]
      exact ⟨rfl, rfl⟩
    · cases h

theorem exists_of_qualifier? (h : qualifier? s = some rest) :
    ∃ name gap gap' : Text, name.isName = true ∧ gap.IsGap ∧ gap'.IsGap ∧
      s = name ++ (gap ++ ("." ++ (gap' ++ rest))) := by
  simp only [qualifier?, Option.bind_eq_bind, Option.bind_eq_some_iff] at h
  obtain ⟨⟨name, behind⟩, read, after, dot, eq⟩ := h
  cases eq
  obtain ⟨isName, rfl⟩ := exists_of_name? read
  obtain ⟨gap, before, split, -⟩ := exists_of_skipBlanks behind
  obtain ⟨gap', isGap, split', -⟩ := exists_of_skipBlanks after
  refine ⟨name, gap, gap', isName, before, isGap, ?_⟩
  rw [← split', ← eq_of_after? dot, ← split]

theorem exists_of_schemaPath? {fuel : Nat} (h : schemaPath? fuel s = some rest) :
    ∃ path, IsPath path ∧ s = path ++ rest := by
  induction fuel generalizing s with
  | zero => cases h
  | succ fuel ih =>
    rw [schemaPath?] at h
    split at h
    · next more path =>
      cases h
      obtain ⟨behind, qualifier, word⟩ := Option.bind_eq_some_iff.1 path
      obtain ⟨name, gap, gap', isName, before, after, rfl⟩ := exists_of_qualifier? qualifier
      obtain ⟨path, isPath, rfl⟩ := ih word
      exact ⟨_, .qualified isName before after isPath, by simp⟩
    · rw [schemaWord?, Option.filter_eq_some_iff] at h
      exact ⟨_, .schema, eq_of_after? h.1⟩

theorem exists_of_constructor? (h : constructor? s = some rest) :
    ∃ built, IsConstructor built ∧ s = built ++ rest := by
  rw [constructor?] at h
  split at h
  · next new =>
    cases h
    simp only [Option.bind_eq_some_iff] at new
    obtain ⟨t, ⟨u, new, blanks⟩, path⟩ := new
    obtain ⟨gap, some, isGap, rfl, -⟩ := exists_of_blanks? blanks
    obtain ⟨path, isPath, rfl⟩ := exists_of_schemaPath? path
    exact ⟨_, .new some isGap isPath, by rw [eq_of_after? new]; simp⟩
  · obtain ⟨path, isPath, rfl⟩ := exists_of_schemaPath? h
    exact ⟨path, .bare isPath, rfl⟩

theorem exists_of_annotation? (h : annotation? s = some rest) :
    ∃ type : Text, type ≠ [] ∧ (∀ c ∈ type, c ≠ '=' ∧ c ≠ ';') ∧ s = type ++ ("=" ++ rest) := by
  rw [annotation?] at h
  split at h
  · next c behind run =>
    split at h
    · next equals =>
      cases h
      obtain ⟨rfl, some⟩ := equals
      have split : s = s.takeWhile (fun c : CodePoint => !(c = '=' || c = ';')) ++ ("=" ++ rest) := by
        have whole := List.takeWhile_append_dropWhile (p := fun c : CodePoint =>
          !(c = '=' || c = ';')) (l := s)
        rw [run] at whole
        exact whole.symm
      refine ⟨_, ?_, fun c mem => ?_, split⟩
      · intro none
        rw [none] at split
        exact some (by rw [split]; rfl)
      · have plain := (List.all_eq_true.1 List.all_takeWhile) c mem
        simpa using plain
    · cases h
  · cases h

theorem exists_of_equals? (h : equals? s = some rest) :
    ∃ equals, IsEquals equals ∧ s = equals ++ rest := by
  obtain ⟨gap, isGap, split, -⟩ := exists_of_skipBlanks s
  rw [equals?] at h
  split at h
  · next c behind run =>
    rw [run] at split
    split at h
    · next colon =>
      obtain ⟨type, some, plain, rfl⟩ := exists_of_annotation? h
      refine ⟨_, .annotated isGap some plain, ?_⟩
      rw [split, colon]
      simp [Text.ofString]
    · split at h
      · next equals =>
        cases h
        refine ⟨_, .bare isGap, ?_⟩
        rw [split, equals]
        simp [Text.ofString]
      · cases h
  · cases h

theorem exists_of_declaration? (h : declaration? s = some (name, rest)) :
    ∃ declaration, IsDeclaration name declaration ∧ s = declaration ++ rest ∧
      rest.StartsSolid := by
  simp only [declaration?, Option.bind_eq_bind, Option.bind_eq_some_iff] at h
  obtain ⟨t, keyword, u, blanks, ⟨found, v⟩, read, w, equals, x, builds, eq⟩ := h
  obtain ⟨rfl, rfl⟩ := Prod.mk.inj (Option.some.inj eq)
  obtain ⟨gap, some, apart, rfl, -⟩ := exists_of_blanks? blanks
  obtain ⟨isName, rfl⟩ := exists_of_name? read
  obtain ⟨assigned, isEquals, rfl⟩ := exists_of_equals? equals
  obtain ⟨gap', before, split, -⟩ := exists_of_skipBlanks w
  obtain ⟨built, isConstructor, eq⟩ := exists_of_constructor? builds
  obtain ⟨gap'', after, split', solid⟩ := exists_of_skipBlanks x
  have declares : ∃ keyword ∈ (["const", "let", "var"] : List Text),
      after? keyword s = .some (gap ++ (found ++ (assigned ++ w))) := by
    simp only [Option.orElse_eq_orElse, Option.orElse_eq_or, Option.or_eq_some_iff] at keyword
    rcases keyword with h | ⟨-, h | ⟨-, h⟩⟩
    · exact ⟨"const", by simp, h⟩
    · exact ⟨"let", by simp, h⟩
    · exact ⟨"var", by simp, h⟩
  obtain ⟨keyword, declares, eq'⟩ := declares
  refine ⟨_, .mk declares some apart isName isEquals before isConstructor after, ?_, solid⟩
  rw [eq_of_after? eq', split, eq]
  conv => lhs; rw [split']
  simp only [List.append_assoc]

/-- What the functions read is a header, and what they leave starts with no blank. -/
theorem exists_of_read? (h : read? s = some (name, rest)) :
    ∃ header, IsHeader name header ∧ s = header ++ rest ∧ rest.StartsSolid := by
  simp only [read?, Option.orElse_eq_orElse, Option.orElse_eq_or, Option.or_eq_some_iff,
    Option.bind_eq_some_iff] at h
  rcases h with ⟨t, ⟨u, exported, blanks⟩, h⟩ | ⟨-, h⟩
  · obtain ⟨gap, some, apart, rfl, -⟩ := exists_of_blanks? blanks
    obtain ⟨declaration, isDeclaration, rfl, solid⟩ := exists_of_declaration? h
    refine ⟨_, .exported some apart isDeclaration, ?_, solid⟩
    rw [eq_of_after? exported]
    simp only [List.append_assoc]
  · obtain ⟨declaration, isDeclaration, rfl, solid⟩ := exists_of_declaration? h
    exact ⟨declaration, .plain isDeclaration, rfl, solid⟩

end

/-! ### Reading a text of the grammar -/

section

variable {name gap s : Text}

theorem after?_append (word s : Text) : after? word (word ++ s) = some s := by
  have starts : word.isPrefixOf (word ++ s) = true :=
    List.isPrefixOf_iff_prefix.2 (List.prefix_append word s)
  rw [after?, if_pos starts, List.drop_left]

theorem skipBlanks_append (isGap : gap.IsGap) (solid : s.StartsSolid) :
    skipBlanks (gap ++ s) = s :=
  Text.dropWhile_stops (List.all_eq_true.2 isGap) solid

theorem blanks?_append (some : gap ≠ []) (isGap : gap.IsGap) (solid : s.StartsSolid) :
    blanks? (gap ++ s) = .some s := by
  cases gap with
  | nil => exact absurd rfl some
  | cons c gap =>
    rw [Text.IsGap, List.forall_mem_cons] at isGap
    rw [List.cons_append, blanks?, if_pos isGap.1, skipBlanks_append isGap.2 solid]

theorem name?_append (isName : name.isName = true)
    (ends : s.EndsName) : name? (name ++ s) = some (name, s) := by
  cases name with
  | nil => cases isName
  | cons c name =>
    rw [Text.isName, Bool.and_eq_true] at isName
    rw [List.cons_append, name?, if_pos isName.1, Text.takeWhile_stops isName.2 ends,
      Text.dropWhile_stops isName.2 ends]

theorem Opens.startsSolid (h : Opens s) : s.StartsSolid := by
  obtain ⟨c, rest, rfl, mark⟩ := h
  rintro _ ⟨⟩
  rcases mark with rfl | rfl <;> decide

theorem Opens.endsName (h : Opens s) (isGap : gap.IsGap) : (gap ++ s).EndsName := by
  obtain ⟨c, rest, rfl, mark⟩ := h
  refine (Text.endsName_cons ?_).gap isGap
  rcases mark with rfl | rfl <;> decide

/-- What stands behind a path does not go on with it. -/
theorem schemaPath?_schema (opens : Opens s) (isGap : gap.IsGap) (fuel : Nat) :
    schemaPath? (fuel + 1) ("Schema" ++ (gap ++ s)) = some (gap ++ s) := by
  have last : qualifier? ("Schema" ++ (gap ++ s)) = none := by
    have read : name? ("Schema" ++ (gap ++ s)) = some (("Schema" : Text), gap ++ s) :=
      name?_append (by decide) (opens.endsName isGap)
    rw [qualifier?, read]
    simp only [Option.bind_eq_bind, Option.bind_some, skipBlanks_append isGap opens.startsSolid]
    obtain ⟨c, rest, rfl, rfl | rfl⟩ := opens <;> rfl
  have ends : atWordEnd (gap ++ s) = true := by
    have ends := opens.endsName isGap
    cases h : gap ++ s with
    | nil => rfl
    | cons c rest =>
      have part := ends c (by rw [h]; rfl)
      rw [CodePoint.isNamePart, Bool.or_eq_false_iff] at part
      rw [atWordEnd, part.1]
      rfl
  rw [schemaPath?, last, Option.bind_none, schemaWord?, after?_append, Option.filter_some,
    if_pos ends]

theorem IsPath.exists_cons {path : Text} (h : IsPath path) :
    ∃ c rest, path = c :: rest ∧ c.isNameStart = true := by
  cases h with
  | schema => exact ⟨_, _, rfl, by decide⟩
  | @qualified name _ _ _ isName _ _ _ =>
    cases name with
    | nil => cases isName
    | cons c name =>
      rw [Text.isName, Bool.and_eq_true] at isName
      exact ⟨c, _, rfl, isName.1⟩

theorem IsPath.startsSolid {path : Text} (h : IsPath path) (s : Text) :
    (path ++ s).StartsSolid := by
  obtain ⟨c, rest, rfl, start⟩ := h.exists_cons
  rintro _ ⟨⟩
  exact (CodePoint.facts_of_isNameStart start).1

theorem qualifier?_append {gap' : Text} (isName : name.isName = true) (before : gap.IsGap)
    (after : gap'.IsGap) (solid : s.StartsSolid) :
    qualifier? (name ++ (gap ++ ("." ++ (gap' ++ s)))) = some s := by
  have dot : Text.StartsSolid ("." ++ (gap' ++ s)) := by
    rintro _ ⟨⟩
    decide
  have read : name? (name ++ (gap ++ ("." ++ (gap' ++ s)))) = some (name, _) :=
    name?_append isName ((Text.endsName_cons (by decide)).gap before)
  rw [qualifier?, read]
  simp only [Option.bind_eq_bind, Option.bind_some, skipBlanks_append before dot, after?_append,
    skipBlanks_append after solid]
  rfl

theorem schemaPath?_append {path : Text} (h : IsPath path) (opens : Opens s) (isGap : gap.IsGap)
    {fuel : Nat} (enough : path.length < fuel) :
    schemaPath? fuel (path ++ (gap ++ s)) = some (gap ++ s) := by
  obtain ⟨fuel, rfl⟩ := Nat.exists_eq_succ_of_ne_zero (Nat.ne_zero_of_lt enough)
  induction h generalizing fuel with
  | schema => exact schemaPath?_schema opens isGap fuel
  | @qualified name before after path isName isBefore isAfter rest ih =>
    simp only [List.length_append] at enough
    have dot : ("." : Text).length = 1 := rfl
    obtain ⟨fuel, rfl⟩ := Nat.exists_eq_succ_of_ne_zero (n := fuel) (by omega)
    simp only [List.append_assoc]
    rw [schemaPath?, qualifier?_append isName isBefore isAfter (rest.startsSolid _),
      Option.bind_some, ih fuel (by omega)]

/-- A path is not read as the word `new` with a path behind it. -/
theorem new_path {path : Text} (h : IsPath path) (opens : Opens s) (isGap : gap.IsGap) (fuel : Nat) :
    ((after? "new" (path ++ (gap ++ s))).bind blanks?).bind (schemaPath? fuel) = none := by
  rw [Option.eq_none_iff_forall_ne_some]
  intro rest new
  simp only [Option.bind_eq_some_iff] at new
  obtain ⟨t, ⟨u, new, blanks⟩, path'⟩ := new
  obtain ⟨gap', some, isGap', rfl, solid⟩ := exists_of_blanks? blanks
  -- The name at the start would be `new`, and what follows the blanks both a dot and a name.
  have first : name? (path ++ (gap ++ s)) = .some ("new", gap' ++ t) := by
    rw [eq_of_after? new]
    exact name?_append (by decide) (Text.endsName_gap some isGap' t)
  cases h with
  | schema =>
    rw [name?_append (by decide) (opens.endsName isGap)] at first
    cases first
  | @qualified name before after path isName isBefore isAfter rest' =>
    let behind : Text := after ++ (path ++ (gap ++ s))
    have read : name? (name ++ (before ++ ("." ++ behind))) = .some (name, before ++ ("." ++ behind)) :=
      name?_append isName ((Text.endsName_cons (by decide)).gap isBefore)
    simp only [List.append_assoc] at first
    rw [read] at first
    obtain ⟨-, eq⟩ := Prod.mk.inj (Option.some.inj first)
    have dot : skipBlanks (before ++ ("." ++ behind)) = "." ++ behind := by
      refine skipBlanks_append isBefore ?_
      rintro _ ⟨⟩
      decide
    rw [eq, skipBlanks_append isGap' solid] at dot
    obtain ⟨last, isLast, rfl⟩ := exists_of_schemaPath? path'
    obtain ⟨c, more, rfl, start⟩ := isLast.exists_cons
    obtain ⟨rfl, -⟩ := List.cons.inj dot
    exact absurd start (by decide)

theorem constructor?_append {built : Text} (h : IsConstructor built) (opens : Opens s)
    (isGap : gap.IsGap) : constructor? (built ++ (gap ++ s)) = some (gap ++ s) := by
  cases h with
  | @new before path some isBefore h =>
    have enough : path.length < ("new" ++ (before ++ path) ++ (gap ++ s)).length + 1 := by
      simp only [List.length_append]
      omega
    have read := schemaPath?_append h opens isGap enough
    rw [List.append_assoc, List.append_assoc] at read ⊢
    rw [constructor?, after?_append, Option.bind_some,
      blanks?_append some isBefore (h.startsSolid _), Option.bind_some, read]
  | bare h =>
    have enough : built.length < (built ++ (gap ++ s)).length + 1 := by
      simp only [List.length_append]
      omega
    have read := schemaPath?_append h opens isGap enough
    rw [constructor?, new_path h opens isGap, read]

theorem equals?_append {equals : Text} (h : IsEquals equals) (s : Text) :
    equals? (equals ++ s) = some s := by
  cases h with
  | @bare gap isGap =>
    have mark : Text.StartsSolid ("=" ++ s) := by
      rintro _ ⟨⟩
      decide
    rw [List.append_assoc, equals?, skipBlanks_append isGap mark]
    rfl
  | @annotated gap type isGap some plain =>
    have mark : Text.StartsSolid (":" ++ (type ++ "=" ++ s)) := by
      rintro _ ⟨⟩
      decide
    have run : (type ++ "=" ++ s).dropWhile (fun c : CodePoint => !(c = '=' || c = ';')) =
        "=" ++ s := by
      rw [List.append_assoc]
      refine Text.dropWhile_stops (List.all_eq_true.2 fun c mem => ?_) ?_
      · simp [plain c mem]
      · rintro _ ⟨⟩
        rfl
    rw [List.append_assoc, List.append_assoc, equals?, skipBlanks_append isGap mark]
    change annotation? (type ++ "=" ++ s) = _
    rw [annotation?, run]
    cases type with
    | nil => exact absurd rfl some
    | cons c type => simp [Text.ofString, (plain c (List.mem_cons_self ..)).1]

theorem IsConstructor.startsSolid {built : Text} (h : IsConstructor built) (s : Text) :
    (built ++ s).StartsSolid := by
  cases h with
  | bare h => exact h.startsSolid s
  | new _ _ _ =>
    rw [List.append_assoc]
    exact Text.startsSolid_name (by decide) _

theorem IsEquals.endsName {equals : Text} (h : IsEquals equals) (s : Text) :
    (equals ++ s).EndsName := by
  cases h with
  | bare isGap =>
    rw [List.append_assoc]
    exact (Text.endsName_cons (by decide)).gap isGap
  | annotated isGap _ _ =>
    rw [List.append_assoc]
    exact (Text.endsName_cons (by decide)).gap isGap

theorem declaration?_append {declaration : Text} (h : IsDeclaration name declaration)
    (opens : Opens s) : declaration? (declaration ++ s) = some (name, s) := by
  obtain ⟨declares, some, apart, isName, assigned, before, builds, after⟩ := h
  next keyword gap equals gap' built gap'' =>
  simp only [List.append_assoc]
  have word (s : Text) :
      (after? "const" (keyword ++ s) <|> after? "let" (keyword ++ s) <|>
        after? "var" (keyword ++ s)) = .some s := by
    simp only [List.mem_cons, List.not_mem_nil, or_false] at declares
    rcases declares with rfl | rfl | rfl <;> rfl
  rw [declaration?, word]
  simp only [Option.bind_eq_bind, Option.bind_some,
    blanks?_append some apart (Text.startsSolid_name isName _),
    name?_append isName (assigned.endsName _), equals?_append assigned,
    skipBlanks_append before (builds.startsSolid _), constructor?_append builds opens after,
    skipBlanks_append after opens.startsSolid]
  rfl

/-- The functions read each header in front of a call or of generic arguments. -/
theorem read?_append {header : Text} (h : IsHeader name header) (opens : Opens s) :
    read? (header ++ s) = some (name, s) := by
  have starts {declaration : Text} (h : IsDeclaration name declaration) :
      (declaration ++ s).StartsSolid ∧ after? "export" (declaration ++ s) = none := by
    obtain ⟨declares, -⟩ := h
    simp only [List.mem_cons, List.not_mem_nil, or_false] at declares
    rcases declares with rfl | rfl | rfl <;> refine ⟨?_, rfl⟩ <;> rintro _ ⟨⟩ <;> decide
  cases h with
  | plain h => rw [read?, (starts h).2, Option.bind_none, Option.bind_none, declaration?_append h opens]; rfl
  | exported some apart h =>
    rw [List.append_assoc, List.append_assoc, read?, after?_append, Option.bind_some,
      blanks?_append some apart (starts h).1, Option.bind_some, declaration?_append h opens]
    rfl

end

end Header

theorem IsHeader.length_pos {name header : Text} (h : IsHeader name header) :
    1 ≤ header.length := by
  cases h with
  | plain h =>
    obtain ⟨declares, -⟩ := h
    simp only [List.mem_cons, List.not_mem_nil, or_false] at declares
    rcases declares with rfl | rfl | rfl <;> exact Nat.le_add_left 1 _
  | exported => exact Nat.le_add_left 1 _

/-! ### Generic arguments -/

/-- What may stand between angle brackets: angle brackets in pairs, and no semicolon or brace. -/
inductive IsAngled : Text → Prop
  | nil : IsAngled []
  | plain {c : CodePoint} {s : Text} (mark : c ≠ '<' ∧ c ≠ '>')
      (stop : ¬(c = ';' ∨ c = '\x7b' ∨ c = '\x7d')) (rest : IsAngled s) : IsAngled (c :: s)
  | group {inner s : Text} (within : IsAngled inner) (behind : IsAngled s) :
      IsAngled ('<' :: (inner ++ ('>' : CodePoint) :: s))

/-- Generic arguments with the blanks behind them, or none. -/
inductive IsArguments : Text → Prop
  | none : IsArguments []
  | some {inner gap : Text} (within : IsAngled inner) (isGap : gap.IsGap) :
      IsArguments ('<' :: (inner ++ ('>' : CodePoint) :: gap))

/-- What stands in front of a call that declares `name`. -/
inductive IsOpening (name : Text) : Text → Prop
  | mk {header arguments : Text} (isHeader : IsHeader name header)
      (isArguments : IsArguments arguments) : IsOpening name (header ++ arguments)

namespace Declaration

section

variable {depth : Nat} {s rest : Text}

theorem afterArguments?_open : afterArguments? depth ('<' :: s) = afterArguments? (depth + 1) s := by
  rw [afterArguments?, if_pos rfl]

theorem afterArguments?_close :
    afterArguments? (depth + 2) ('>' :: s) = afterArguments? (depth + 1) s := by
  rw [afterArguments?, if_neg (by decide), if_pos rfl, if_neg (by omega)]
  rfl

theorem afterArguments?_last : afterArguments? 1 ('>' :: s) =
    if (Header.skipBlanks s).isEmpty then none else some (Header.skipBlanks s) := by
  rw [afterArguments?, if_neg (by decide), if_pos rfl, if_pos (Nat.le_refl 1)]
  rfl

theorem afterArguments?_plain {c : CodePoint} (mark : c ≠ '<' ∧ c ≠ '>')
    (stop : ¬(c = ';' ∨ c = '\x7b' ∨ c = '\x7d')) :
    afterArguments? depth (c :: s) = afterArguments? depth s := by
  rw [afterArguments?, if_neg mark.1, if_neg mark.2, if_neg stop]

/-- The search for the end passes over angle brackets in pairs. -/
theorem afterArguments?_angled {inner : Text} (h : IsAngled inner) (s : Text) :
    afterArguments? (depth + 1) (inner ++ s) = afterArguments? (depth + 1) s := by
  induction h generalizing depth s with
  | nil => rfl
  | plain mark stop _ ih => rw [List.cons_append, afterArguments?_plain mark stop, ih]
  | group _ _ within behind =>
    rw [List.cons_append, afterArguments?_open, List.append_assoc, within, List.cons_append,
      afterArguments?_close, behind]

theorem exists_of_afterArguments? (h : afterArguments? (depth + 1) s = some rest) :
    ∃ inner behind, s = inner ++ ('>' : CodePoint) :: behind ∧ IsAngled inner ∧
      (if depth = 0 then Header.skipBlanks behind = rest
        else afterArguments? depth behind = some rest) := by
  induction hn : s.length using Nat.strongRecOn generalizing depth s with
  | ind n ih =>
    cases s with
    | nil => cases h
    | cons c s =>
      rw [List.length_cons] at hn
      by_cases opens : c = '<'
      · -- The brackets that open here are closed before the search goes on in the outer ones.
        subst opens
        rw [afterArguments?_open] at h
        obtain ⟨inner, behind, rfl, within, go⟩ := ih s.length (by omega) h rfl
        rw [if_neg (Nat.succ_ne_zero depth)] at go
        rw [List.length_append, List.length_cons] at hn
        obtain ⟨inner', behind', rfl, within', go'⟩ := ih behind.length (by omega) go rfl
        exact ⟨'<' :: (inner ++ ('>' : CodePoint) :: inner'), behind', by simp, .group within within', go'⟩
      by_cases closes : c = '>'
      · subst closes
        refine ⟨[], s, rfl, .nil, ?_⟩
        cases depth with
        | zero =>
          rw [afterArguments?_last] at h
          split at h
          · cases h
          · exact Option.some.inj h
        | succ depth =>
          rw [afterArguments?_close] at h
          exact h
      · by_cases stop : c = ';' ∨ c = '\x7b' ∨ c = '\x7d'
        · rw [afterArguments?, if_neg opens, if_neg closes, if_pos stop] at h
          cases h
        · rw [afterArguments?_plain ⟨opens, closes⟩ stop] at h
          obtain ⟨inner, behind, rfl, within, go⟩ := ih s.length (by omega) h rfl
          exact ⟨c :: inner, behind, rfl, .plain ⟨opens, closes⟩ stop within, go⟩

theorem skipArguments?_append {arguments : Text} (h : IsArguments arguments) :
    skipArguments? (arguments ++ ('(' : CodePoint) :: s) = some (('(' : CodePoint) :: s) := by
  cases h with
  | none => rfl
  | @some inner gap within isGap =>
    have paren : Text.StartsSolid (('(' : CodePoint) :: s) := by
      rintro _ ⟨⟩
      decide
    rw [List.cons_append, skipArguments?, if_pos rfl, afterArguments?_open, List.append_assoc,
      afterArguments?_angled within, List.cons_append, afterArguments?_last,
      Header.skipBlanks_append isGap paren]
    rfl

theorem exists_of_skipArguments? (h : skipArguments? s = some rest) :
    ∃ arguments, IsArguments arguments ∧ s = arguments ++ rest := by
  cases s with
  | nil => cases h
  | cons c s =>
    rw [skipArguments?] at h
    split at h
    · next opens =>
      subst opens
      rw [afterArguments?_open] at h
      obtain ⟨inner, behind, rfl, within, last⟩ := exists_of_afterArguments? h
      obtain ⟨gap, isGap, split, -⟩ := Header.exists_of_skipBlanks behind
      rw [if_pos rfl] at last
      rw [last] at split
      exact ⟨_, .some within isGap, by rw [split]; simp⟩
    · exact ⟨[], .none, by rw [Option.some.inj h]; rfl⟩

/-- What is read in front of the bracket of a call is its opening, and every opening is read so. -/
theorem opening_iff {name call : Text} :
    (∃ after, Header.read? s = some (name, after) ∧ skipArguments? after = some (('(' : CodePoint) :: call)) ↔
      ∃ opening, IsOpening name opening ∧ s = opening ++ ('(' : CodePoint) :: call := by
  constructor
  · rintro ⟨after, read, skip⟩
    obtain ⟨header, isHeader, rfl, -⟩ := Header.exists_of_read? read
    obtain ⟨arguments, isArguments, rfl⟩ := exists_of_skipArguments? skip
    exact ⟨_, .mk isHeader isArguments, by simp⟩
  · rintro ⟨_, ⟨isHeader, isArguments⟩, rfl⟩
    next header arguments =>
    refine ⟨arguments ++ ('(' : CodePoint) :: call, ?_, skipArguments?_append isArguments⟩
    rw [List.append_assoc]
    refine Header.read?_append isHeader ?_
    cases isArguments with
    | none => exact ⟨_, _, rfl, .inl rfl⟩
    | some _ _ => exact ⟨_, _, rfl, .inr rfl⟩

end

end Declaration

end SchemaTypings
