import SchemaTypings.Proofs.Converting
import SchemaTypings.Proofs.Idempotence

/-!
The fields that canonical text declares. Canonical text shows a key that is a name and a line feed as
the name alone, so no field has such a name, at any depth. An enumeration has at least one value, and
each of them is a text or a number.
-/

namespace SchemaTypings

/-! ### Values that are kept once -/

/-- `seen`, and each value behind it that is not the same as one before. -/
def keepNew (same : Literal → Literal → Bool) (seen values : List Literal) : List Literal :=
  values.foldl (fun seen v => if seen.any (same · v) then seen else seen ++ [v]) seen

section

variable {same : Literal → Literal → Bool} {seen values : List Literal} {v : Literal}

theorem keepNew_cons (same : Literal → Literal → Bool) (seen values : List Literal) (v : Literal) :
    keepNew same seen (v :: values) =
      keepNew same (if seen.any (same · v) then seen else seen ++ [v]) values := rfl

theorem mem_of_mem_keepNew (h : v ∈ keepNew same seen values) : v ∈ seen ∨ v ∈ values := by
  induction values generalizing seen with
  | nil => exact .inl h
  | cons w values ih =>
    rw [keepNew_cons] at h
    rcases ih h with h | h
    · split at h
      · exact .inl h
      · rw [List.mem_append, List.mem_singleton] at h
        exact h.imp_right fun same : v = w => by simp [same]
    · exact .inr (List.mem_cons_of_mem _ h)

/-- A value is kept if only it is the same as itself. -/
theorem mem_keepNew (alone : ∀ u, same u v = true → u = v) (h : v ∈ seen ∨ v ∈ values) :
    v ∈ keepNew same seen values := by
  induction values generalizing seen with
  | nil => exact h.resolve_right List.not_mem_nil
  | cons w values ih =>
    rw [List.mem_cons, ← or_assoc] at h
    rw [keepNew_cons]
    refine ih (h.imp_left fun h => ?_)
    split
    · next there =>
      rcases h with h | rfl
      · exact h
      · obtain ⟨u, hu, same⟩ := List.any_eq_true.1 there
        exact alone u same ▸ hu
    · exact List.mem_append.2 (h.imp_right List.mem_singleton.2)

/-- A value is kept, or is the same as one that is. -/
theorem mem_or_exists_keepNew (h : v ∈ seen ∨ v ∈ values) :
    v ∈ keepNew same seen values ∨ ∃ w ∈ keepNew same seen values, same w v = true := by
  have keeps (u : Literal) (seen values : List Literal) (h : u ∈ seen) :
      u ∈ keepNew same seen values := by
    induction values generalizing seen with
    | nil => exact h
    | cons w values ih =>
      rw [keepNew_cons]
      refine ih _ ?_
      split
      · exact h
      · exact List.mem_append_left _ h
  induction values generalizing seen with
  | nil => exact .inl (h.resolve_right List.not_mem_nil)
  | cons w values ih =>
    rw [keepNew_cons]
    rcases h with h | h
    · exact .inl (keeps v seen (w :: values) h)
    rcases List.mem_cons.1 h with rfl | h
    · split
      · next there =>
        obtain ⟨w, hw, same⟩ := List.any_eq_true.1 there
        exact .inr ⟨w, keeps w _ _ hw, same⟩
      · exact .inl (keeps v _ _ (List.mem_append_right _ List.mem_cons_self))
    · exact ih (.inr h)

/-- Each value that is kept is the same as none kept before. -/
theorem pairwise_keepNew (h : seen.Pairwise fun u v => same u v = false) :
    (keepNew same seen values).Pairwise fun u v => same u v = false := by
  induction values generalizing seen with
  | nil => exact h
  | cons v values ih =>
    rw [keepNew_cons]
    refine ih ?_
    split
    · exact h
    · next new =>
      refine List.pairwise_append.2 ⟨h, List.pairwise_singleton _ _, ?_⟩
      intro w hw u hu
      rw [List.mem_singleton.1 hu]
      rw [List.any_eq_true] at new
      exact Bool.eq_false_iff.2 fun same => new ⟨w, hw, same⟩

end

/-- Whether a value can be one of an enumeration. -/
def Literal.IsEnumerable (v : Literal) : Prop := (v.isText || v.isNumber) = true

/-- The names of a field and of every field in it satisfy `name`, what they refer to satisfies
`target`, and each enumeration has values, all of which satisfy `value`. -/
inductive Field.Holds (name target : Text → Prop) (value : Literal → Prop) : Field → Prop
  | intro {f : Field} (hn : name f.name) (targets : ∀ t, f.target = some t → target t)
      (values : f.kind = .enumeration → f.literals ≠ [] ∧ ∀ v ∈ f.literals, value v)
      (element : ∀ e, f.child = .element e → Holds name target value e)
      (fields : ∀ tree, f.child = .fields tree → ∀ g ∈ tree, Holds name target value g) :
    Holds name target value f

/-- A field has no name with a line feed behind it, nor has any field in it, and each enumeration has
values, all of which satisfy `value`. -/
abbrev Field.IsSound (value : Literal → Prop) : Field → Prop :=
  Holds (·.isNameAndFeed = false) (fun _ => True) value

namespace Field

variable {name target : Text → Prop} {value : Literal → Prop} {f : Field}

/-! ### What keeps fields sound -/

/-- Only the name, the child, the target and the values matter. -/
theorem Holds.alter (h : f.Holds name target value) {g : Field} (same : g.name = f.name)
    (child : g.child = f.child) (targets : ∀ t, g.target = some t → target t)
    (values : g.kind = .enumeration → g.literals ≠ [] ∧ ∀ v ∈ g.literals, value v) :
    g.Holds name target value := by
  cases h with
  | intro hn _ _ element fields =>
    refine .intro (same ▸ hn) targets values ?_ ?_
    · intro e he
      exact element e (child ▸ he)
    · intro tree ht
      exact fields tree (child ▸ ht)

theorem Holds.targets (h : f.Holds name target value) : ∀ t, f.target = some t → target t := by
  cases h with
  | intro _ targets => exact targets

theorem holds_leaf (hn : name f.name) (targets : ∀ t, f.target = some t → target t)
    (kind : f.kind ≠ .enumeration) (child : f.child = .nothing) : f.Holds name target value := by
  refine .intro hn targets (fun h => absurd h kind) ?_ ?_
  · intro e he
    rw [child] at he
    cases he
  · intro tree ht
    rw [child] at ht
    cases ht

theorem holds_ofText {n s : Text} (hn : name n) (hs : target s) :
    (ofText n s).Holds name target value := by
  unfold ofText
  split
  · exact holds_leaf hn (by simp) (by simp) rfl
  · split
    · exact holds_leaf hn (by simp) (by simp) rfl
    · refine holds_leaf hn ?_ (by simp) rfl
      rintro _ ⟨⟩
      exact hs

theorem holds_anyElement (hn : name "element") : anyElement.Holds name target value :=
  holds_leaf hn nofun (by decide) rfl

theorem holds_textElement (hn : name "element") : textElement.Holds name target value :=
  holds_leaf hn nofun (by decide) rfl

/-- A change that keeps fields sound does so at the innermost element. -/
theorem Holds.mapLeaf {change : Field → Field}
    (hc : ∀ g : Field, g.Holds name target value → (change g).Holds name target value)
    (h : f.Holds name target value) : (f.mapLeaf change).Holds name target value := by
  induction h with
  | @intro f hn targets values element fields ih _ =>
    have sound : f.Holds name target value := .intro hn targets values element fields
    obtain ⟨fName, kind, required, base, child, fTarget, viaRef, literals⟩ := f
    rw [Field.mapLeaf]
    split
    · cases child with
      | nothing => exact hc _ sound
      | fields tree => exact sound
      | element e =>
        rw [mapElement]
        refine .intro hn targets values ?_ nofun
        rintro _ ⟨⟩
        exact ih e rfl
    · exact hc _ sound

theorem holds_asReference {ref : Text} (hr : target ref) (h : f.Holds name target value) :
    (asReference ref f).Holds name target value := by
  unfold asReference
  split
  · refine h.alter rfl rfl ?_ nofun
    rintro _ ⟨⟩
    exact hr
  · exact h

theorem holds_asEnumeration {values : List Literal} (some : values ≠ [])
    (hv : ∀ v ∈ values, value v) (h : f.Holds name target value) :
    (asEnumeration values f).Holds name target value := by
  unfold asEnumeration
  split
  · exact h.alter rfl rfl h.targets fun _ => ⟨some, hv⟩
  · exact h

theorem mem_of_mem_distinct {values : List Literal} {v : Literal} (h : v ∈ distinct values) :
    v ∈ values := by
  have kept : v ∈ keepNew Literal.sameScalar [] values := h
  exact (mem_of_mem_keepNew kept).resolve_left List.not_mem_nil

/-- The values of an `enum` are those of a list, or there are none. -/
theorem enumValues_cases (option : Option Literal) : enumValues option = [] ∨
    ∃ values, (option = some (.list values) ∨ ∃ entries, option = some (.object entries) ∧
        Entries.get? entries "values" = some (.list values)) ∧
      (∀ v ∈ values, v.IsEnumerable) ∧ enumValues option = distinct values := by
  unfold enumValues
  dsimp only
  split
  · next values list =>
    split
    · next all =>
      refine .inr ⟨values, ?_, List.all_eq_true.1 all, rfl⟩
      split at list
      · next entries => exact .inr ⟨entries, rfl, list⟩
      · exact .inl list
    · exact .inl rfl
  · exact .inl rfl

theorem isEnumerable_of_mem_enumValues {option : Option Literal} {v : Literal}
    (h : v ∈ enumValues option) : v.IsEnumerable := by
  rcases enumValues_cases option with none | ⟨values, -, all, eq⟩
  · rw [none] at h
    cases h
  · rw [eq] at h
    exact all v (mem_of_mem_distinct h)

theorem Holds.configured {options : Entries Literal}
    (refs : ∀ ref, options.get? "ref" = some (.text ref) → target ref)
    (values : ∀ v ∈ enumValues (options.get? "enum"), value v) (h : f.Holds name target value) :
    (f.configured options).Holds name target value := by
  have required : (if isOptional (options.get? "required") then { f with required := false }
      else f).Holds name target value := by
    split
    · cases h with
      | intro hn targets values element fields => exact .intro hn targets values element fields
    · exact h
  have ref {g : Field} (hg : g.Holds name target value) :
      (g.withRef options).Holds name target value := by
    unfold withRef
    split
    · next ref get =>
      split
      · exact hg
      · exact hg.mapLeaf fun _ => holds_asReference (refs ref get)
    · exact hg
  unfold Field.configured
  dsimp only
  split
  · exact ref required
  · next some =>
    refine (ref required).mapLeaf fun _ => holds_asEnumeration ?_ values
    simpa using some

/-! ### What values declare -/

/-- Values all of whose parts satisfy `p` have such keys and texts. -/
structure Admits (p : Literal → Bool) (name target : Text → Prop) (value : Literal → Prop) :
    Prop where
  keys : ∀ es, p (.object es) = true → ∀ k ∈ Entries.keys es, name k
  texts : ∀ s, p (.text s) = true → target s
  values : ∀ v : Literal, p v = true → v.IsEnumerable → value v
  element : name "element"

/-- Entries with such keys, whose values satisfy `p` in all their parts. -/
def Admitted (p : Literal → Bool) (name : Text → Prop) (es : List (Text × Literal)) : Prop :=
  ∀ e ∈ es, name e.1 ∧ e.2.everywhere p = true

theorem Admitted.tail {p : Literal → Bool} {e : Text × Literal} {es : List (Text × Literal)}
    (h : Admitted p name (e :: es)) : Admitted p name es :=
  fun f hf => h f (List.mem_cons_of_mem _ hf)

section

variable {p : Literal → Bool}

theorem Admits.entries (admits : Admits p name target value) {es : Entries Literal}
    (h : (Literal.object es).everywhere p = true) :
    Admitted p name es := by
  rw [Literal.everywhere_object, Bool.and_eq_true, List.all_eq_true] at h
  intro e he
  exact ⟨admits.keys es h.1 _ (List.mem_map_of_mem he), h.2 e he⟩

theorem Admits.of_mem_enumValues (admits : Admits p name target value) {option : Option Literal}
    (h : ∀ o, option = some o → o.everywhere p = true) {v : Literal} (hv : v ∈ enumValues option) :
    value v := by
  refine admits.values v ?_ (isEnumerable_of_mem_enumValues hv)
  rcases enumValues_cases option with none | ⟨values, list, -, eq⟩
  · rw [none] at hv
    cases hv
  rw [eq] at hv
  have all : (Literal.list values).everywhere p = true := by
    rcases list with list | ⟨entries, object, list⟩
    · exact h _ list
    · have entries := h _ object
      rw [Literal.everywhere_object, Bool.and_eq_true, List.all_eq_true] at entries
      exact entries.2 _ (Entries.mem_of_get? list)
  rw [Literal.everywhere_list, Bool.and_eq_true, List.all_eq_true] at all
  exact Literal.of_everywhere (all.2 v (mem_of_mem_distinct hv))

mutual

/-- A value with such parts declares a field with such parts. -/
theorem holds_declared? (admits : Admits p name target value) {n : Text} (hn : name n) :
    ∀ v : Literal, v.everywhere p = true → ∀ f ∈ declared? n v, f.Holds name target value
  | .null, _, f, h | .bool _, _, f, h | .int _, _, f, h | .float _, _, f, h => by
    simp [declared?] at h
  | .text s, all, f, h => by
    cases h
    exact holds_ofText hn (admits.texts s (Literal.of_everywhere all))
  | .list items, all, f, h => by
    cases h
    rw [Literal.everywhere_list, Bool.and_eq_true, List.all_eq_true] at all
    refine .intro hn nofun nofun ?_ nofun
    rintro _ ⟨⟩
    exact holds_declaredElement admits items all.2
  | .object [], _, f, h => by
    cases h
    exact holds_leaf hn nofun (by simp) rfl
  | .object (e :: rest), all, f, h => by
    have entries := admits.entries all
    rw [declared?] at h
    split at h
    · obtain ⟨g, hg, rfl⟩ := Option.map_eq_some_iff.1 h
      refine (holds_declaredType? admits hn (e :: rest) entries g hg).configured ?_ ?_
      · intro ref get
        exact admits.texts ref (Literal.of_everywhere (entries _ (Entries.mem_of_get? get)).2)
      · exact fun v => admits.of_mem_enumValues fun o get =>
          (entries _ (Entries.mem_of_get? get)).2
    · cases h
      refine .intro hn nofun nofun nofun ?_
      rintro _ ⟨⟩
      exact holds_declaredTree admits (e :: rest) entries [] (by simp)

theorem holds_declaredType? (admits : Admits p name target value) {n : Text} (hn : name n) :
    ∀ options : List (Text × Literal), Admitted p name options → ∀ f ∈ declaredType? n options,
      f.Holds name target value
  | [], _, f, h => by cases h
  | (k, v) :: rest, entries, f, h => by
    rw [declaredType?] at h
    split at h
    · exact holds_declared? admits hn v (entries (k, v) List.mem_cons_self).2 f h
    · exact holds_declaredType? admits hn rest entries.tail f h

theorem holds_declaredElement (admits : Admits p name target value) : ∀ items : List Literal,
    (∀ v ∈ items, v.everywhere p = true) → (declaredElement items).Holds name target value
  | [], _ => holds_anyElement admits.element
  | v :: rest, all => by
    rw [declaredElement]
    split
    · exact holds_textElement admits.element
    · cases h : declared? "element" v with
      | none => exact holds_anyElement admits.element
      | some f => exact holds_declared? admits admits.element v (all v List.mem_cons_self) f h

theorem holds_declaredTree (admits : Admits p name target value) :
    ∀ es : List (Text × Literal), Admitted p name es →
      ∀ tree : FieldTree, (∀ f ∈ tree, f.Holds name target value) →
        ∀ f ∈ declaredTree es tree, f.Holds name target value
  | [], _, _, h => h
  | (k, v) :: rest, entries, tree, h => by
    obtain ⟨hk, hv⟩ := entries (k, v) List.mem_cons_self
    rw [declaredTree]
    split
    · next g hg =>
      refine holds_declaredTree admits rest entries.tail _ ?_
      intro f hf
      rcases List.mem_append.1 hf with hf | hf
      · exact h f (List.mem_filter.1 hf).1
      · rw [List.mem_singleton.1 hf]
        exact holds_declared? admits hk v hv g hg
    · exact holds_declaredTree admits rest entries.tail tree h

end

end

end Field

/-! ### The fields of canonical text -/

namespace FieldTree

variable {text normalized : Text} {path : Option Text} {tree : FieldTree}

/-- The fields of canonical text are those of the value that its text is read as. -/
theorem exists_respelled (hn : (Declaration.normalize text).outcome = .ok normalized)
    (hm : (materialize normalized path).outcome = .ok tree) :
    ∃ fields es, (Declaration.read text).outcome = .ok fields ∧
      (Literal.object fields).everywhere Literal.isFinite = true ∧
      (Literal.object fields).respelled = .object es ∧ tree = declared es := by
  rw [Declaration.outcome_normalize] at hn
  obtain ⟨raw, read, eq⟩ := bind_eq_ok.1 hn
  cases eq
  obtain ⟨es, parsed, rfl⟩ := materialize_eq_ok.1 hm
  have finite := Literal.isFinite_of_parse_render parsed
  have same := (Literal.parse_render_respelled finite).symm.trans parsed
  exact ⟨Raw.quoteFields raw, es, by rw [Declaration.outcome_read, read]; rfl, finite,
    Except.ok.inj same, rfl⟩

/-- The fields of a declaration whose canonical text is read are sound. -/
theorem isSound_of_normalize (hn : (Declaration.normalize text).outcome = .ok normalized)
    (hm : (materialize normalized path).outcome = .ok tree) :
    ∀ f ∈ tree, f.IsSound Literal.IsEnumerable := by
  obtain ⟨fields, es, -, -, respelled, rfl⟩ := exists_respelled hn hm
  have kept := Literal.keepsKeys_respelled (.object fields)
  rw [respelled] at kept
  have admits : Field.Admits Literal.keepsKeys (·.isNameAndFeed = false) (fun _ => True)
      Literal.IsEnumerable := by
    refine ⟨fun es kept k hk => ?_, fun _ _ => trivial, fun _ _ h => h, by decide⟩
    simpa using List.all_eq_true.1 kept k hk
  exact Field.holds_declaredTree admits es (admits.entries kept) [] (by simp)

end FieldTree

end SchemaTypings
