import SchemaTypings.Proofs.References

/-!
The files of a batch do not depend on each other. All that the conversion of a file takes from the
others is what names resolve to, and that is settled by the set of base names, as long as no two of
them differ in letter case only.
-/

namespace SchemaTypings

/-! ### What a conversion takes from the names of a run -/

namespace TypeExpr

variable {names : TypeNames} {known known' : InterfaceNames}

theorem ofReference_congr (same : known.resolve? = known'.resolve?) (base : Option BaseType)
    (target : Option Text) (viaRef : Bool) (context : Text) :
    ofReference names known base target viaRef context =
      ofReference names known' base target viaRef context := by
  unfold ofReference
  rw [same]

mutual

theorem ofField_congr (same : known.resolve? = known'.resolve?) (context : Text) :
    ∀ field : Field,
    ofField names known context field = ofField names known' context field
  | ⟨_, kind, _, base, child, target, viaRef, literals⟩ => by
    unfold ofField
    cases kind with
    | primitive | enumeration => rfl
    | array => exact ofElement_congr same _ child
    | nested => exact ofNested_congr same _ child
    | reference => exact ofReference_congr same ..

theorem ofElement_congr (same : known.resolve? = known'.resolve?) (context : Text) :
    ∀ child : Child Field,
    ofElement names known context child = ofElement names known' context child
  | .element field => by rw [ofElement, ofElement, ofField_congr same context field]
  | .nothing => rfl
  | .fields _ => rfl

theorem ofNested_congr (same : known.resolve? = known'.resolve?) (context : Text) :
    ∀ child : Child Field,
    ofNested names known context child = ofNested names known' context child
  | .fields tree => by rw [ofNested, ofNested, ofTree_congr same context tree]
  | .nothing => rfl
  | .element _ => rfl

theorem ofTree_congr (same : known.resolve? = known'.resolve?) (context : Text) :
    ∀ tree : List Field,
    ofTree names known context tree = ofTree names known' context tree
  | [] => rfl
  | field :: rest => by
    rw [ofTree, ofTree, ofField_congr same _ field, ofTree_congr same context rest]

end

end TypeExpr

theorem Generator.model_congr (g : Generator) {known known' : InterfaceNames}
    (same : known.resolve? = known'.resolve?) (name : Text) (tree : FieldTree) :
    g.model name tree known = g.model name tree known' := by
  rw [model, model, Interface.ofTree, Interface.ofTree, TypeExpr.ofTree_congr same]

namespace Batch

variable {g : Generator} {known known' : InterfaceNames}

theorem finish_congr (same : known.resolve? = known'.resolve?) (path : Text) (d : Declaration)
    (normalized : Text) (tree : FieldTree) :
    finish g known path d normalized tree = finish g known' path d normalized tree := by
  have chosen : chosenName g known = chosenName g known' := by
    funext base
    rw [chosenName, chosenName, same]
  have finished : finishAs g known path d normalized tree =
      finishAs g known' path d normalized tree := by
    funext name
    rw [finishAs, finishAs, g.model_congr same]
  rw [finish_eq, finish_eq, chosen, finished]

/-- A conversion takes nothing from the names of a run but what names resolve to. -/
theorem convert_congr (same : known.resolve? = known'.resolve?) :
    convert g known = convert g known' := by
  have finished : finish g known = finish g known' := by
    funext path d normalized tree
    exact finish_congr same path d normalized tree
  funext source path
  rw [convert, convert, finished]

/-- The conversion of a file takes nothing from the file tree but the bytes of that file. -/
theorem convertFile_congr (same : known.resolve? = known'.resolve?) {tree tree' : FileTree}
    {path : PathName} (content : tree.read path = tree'.read path) :
    convertFile g known tree path = convertFile g known' tree' path := by
  have load : Models.load tree path = Models.load tree' path := by
    rw [Models.load, Models.load, FileTree.readText, FileTree.readText, content]
  rw [convertFile, convertFile, load, convert_congr same]

/-- The conversion at some place of a batch is that of the file at that place. -/
theorem getElem?_of_convertFiles {tree : FileTree} {paths : List PathName} {cs : List Conversion}
    {aborted : Bool} (h : (convertFiles g known tree .skip paths).outcome = .ok (cs, aborted))
    {i : Nat} {path : PathName} (place : paths[i]? = some path) :
    ∃ c, cs[i]? = some c ∧ (convertFile g known tree path).outcome = .ok c := by
  induction paths generalizing cs aborted i with
  | nil => cases place
  | cons first rest ih =>
    rw [convertFiles, Logged.outcome_bind] at h
    obtain ⟨c, converted, h⟩ := bind_eq_ok.1 h
    rw [if_neg (by simp), Logged.outcome_bind] at h
    obtain ⟨⟨others, aborted⟩, ran, h⟩ := bind_eq_ok.1 h
    cases h
    cases i with
    | zero =>
      cases place
      exact ⟨c, rfl, converted⟩
    | succ i => exact ih ran place

/-! ### The names of a run -/

/-- What a generator calls the base names in `names`, and no others. -/
structure AreCalled (g : Generator) (bases : List Text) (names : Entries Text) : Prop where
  called : ∀ e ∈ names, (g.interfaceName e.1).outcome = .ok e.2
  keys : ∀ base, base ∈ names.keys ↔ base ∈ bases

theorem AreCalled.snoc {bases : List Text} {names : Entries Text} {base name : Text}
    (h : AreCalled g bases names) (named : (g.interfaceName base).outcome = .ok name) :
    AreCalled g (bases ++ [base]) (names ++ [(base, name)]) where
  called e he := by
    rcases List.mem_append.1 he with he | he
    · exact h.called e he
    · rw [List.mem_singleton.1 he]
      exact named
  keys other := by simp [h.keys other]

/-- The base names of the files of a batch. -/
def baseNames (paths : List Text) : List Text :=
  paths.map fun path => (PathName.ofText path).baseName

theorem areCalled_collectNames {paths bases : List Text} {before names : Entries Text}
    (h : AreCalled g bases before) (ran : (collectNames g before paths).outcome = .ok names) :
    AreCalled g (bases ++ baseNames paths) names := by
  induction paths generalizing bases before with
  | nil =>
    cases ran
    simpa [baseNames] using h
  | cons path rest ih =>
    rw [collectNames] at ran
    rw [baseNames, List.map_cons, ← baseNames]
    generalize (PathName.ofText path).baseName = base at ran ⊢
    split at ran
    · next taken =>
      rw [Logged.outcome_bind] at ran
      obtain ⟨name, found⟩ := Option.isSome_iff_exists.1 taken
      have there := (h.keys base).1 (List.mem_map_of_mem (Entries.mem_of_get? found))
      have all := ih h ran
      refine ⟨all.called, fun other => (all.keys other).trans ?_⟩
      by_cases eq : other = base <;> simp [eq, there]
    · rw [Logged.outcome_bind] at ran
      obtain ⟨name, named, ran⟩ := bind_eq_ok.1 ran
      simpa using ih (h.snoc named) ran

/-- No two of the texts differ in letter case only. -/
def CaseDistinct (texts : List Text) : Prop :=
  ∀ a ∈ texts, ∀ b ∈ texts, Text.lower a = Text.lower b → a = b

end Batch

namespace InterfaceNames

/-- Each of the names stands for one interface, whatever the letter case. -/
def Unique (entries : Entries Text) : Prop :=
  ∀ e ∈ entries, ∀ f ∈ entries, Text.lower e.1 = Text.lower f.1 → e = f

/-- A name resolves to the entry that it equals but for letter case, if there is one. -/
theorem resolve?_eq_some_iff {known : InterfaceNames} (unique : Unique known.entries)
    {name interface : Text} : known.resolve? name = some interface ↔
      ∃ e ∈ known.entries, Text.lower e.1 = Text.lower name ∧ e.2 = interface := by
  have found : (∃ e ∈ known.entries, Text.lower e.1 = Text.lower name ∧
      known.resolve? name = some e.2) ∨
        known.resolve? name = none ∧ ∀ e ∈ known.entries, Text.lower e.1 ≠ Text.lower name := by
    rw [resolve?]
    cases exact : known.entries.get? name with
    | some interface => exact .inl ⟨_, Entries.mem_of_get? exact, rfl, rfl⟩
    | none =>
      dsimp only
      rw [resolveFolded?]
      cases folded : known.entries.reverse.find? fun e => Text.lower e.1 = Text.lower name with
      | some e =>
        refine .inl ⟨e, List.mem_reverse.1 (List.mem_of_find?_eq_some folded), ?_, rfl⟩
        simpa using List.find?_some folded
      | none => exact .inr ⟨rfl, by simpa using folded⟩
  rcases found with ⟨e, he, le, eq⟩ | ⟨eq, none⟩
  · rw [eq]
    constructor
    · rintro ⟨⟩
      exact ⟨e, he, le, rfl⟩
    · rintro ⟨f, hf, lf, rfl⟩
      rw [unique e he f hf (le.trans lf.symm)]
  · rw [eq]
    constructor
    · rintro ⟨⟩
    · rintro ⟨f, hf, lf, -⟩
      exact absurd lf (none f hf)

/-- The order of the entries does not matter to what names resolve to. -/
theorem resolve?_congr {known known' : InterfaceNames} (unique : Unique known.entries)
    (same : ∀ e, e ∈ known.entries ↔ e ∈ known'.entries) : known.resolve? = known'.resolve? := by
  have unique' : Unique known'.entries := fun e he f hf =>
    unique e ((same e).2 he) f ((same f).2 hf)
  funext name
  refine Option.ext fun interface => ?_
  rw [resolve?_eq_some_iff unique, resolve?_eq_some_iff unique']
  simp only [same]

end InterfaceNames

namespace Batch

variable {g : Generator}

/-- The names of a run are settled by the set of its base names. -/
theorem resolve?_of_areCalled {bases bases' : List Text} {names names' : Entries Text}
    (h : AreCalled g bases names) (h' : AreCalled g bases' names')
    (same : ∀ base, base ∈ bases ↔ base ∈ bases') (distinct : CaseDistinct bases) :
    InterfaceNames.resolve? ⟨names⟩ = InterfaceNames.resolve? ⟨names'⟩ := by
  -- An entry is its base name and what the generator calls that.
  have entry {bases bases' : List Text} {names names' : Entries Text} (h : AreCalled g bases names)
      (h' : AreCalled g bases' names') (sub : ∀ base ∈ bases, base ∈ bases') :
      ∀ e ∈ names, e ∈ names' := by
    intro e he
    have there := sub _ ((h.keys _).1 (List.mem_map.2 ⟨e, he, rfl⟩))
    obtain ⟨f, hf, eq⟩ := List.mem_map.1 ((h'.keys _).2 there)
    have called := h'.called f hf
    rw [eq, h.called e he] at called
    rwa [← Prod.ext eq (Except.ok.inj called).symm]
  refine InterfaceNames.resolve?_congr (fun e he f hf lower => ?_) fun e =>
    ⟨entry h h' (fun base => (same base).1) e, entry h' h (fun base => (same base).2) e⟩
  have key {e : Text × Text} (he : e ∈ names) : e.1 ∈ bases :=
    (h.keys _).1 (List.mem_map.2 ⟨e, he, rfl⟩)
  have base := distinct _ (key he) _ (key hf) lower
  have called := h.called e he
  rw [base, h.called f hf] at called
  exact Prod.ext base (Except.ok.inj called).symm

/-- Two batches under the same settings that have the same base names, of which no two differ in
letter case only, convert a file of both to the same, if its content is the same: whatever the order
and the contents of the other files are. -/
theorem conversion_eq_of_baseNames {g : Generator} {tree tree' : FileTree}
    {paths paths' : List PathName} {b b' : BatchResult}
    (policy : g.settings.errorPolicy? = some .skip) (ran : (run g tree paths).outcome = .ok b)
    (ran' : (run g tree' paths').outcome = .ok b')
    (same : ∀ base, base ∈ baseNames (paths.map PathName.toText) ↔
      base ∈ baseNames (paths'.map PathName.toText))
    (distinct : CaseDistinct (baseNames (paths.map PathName.toText)))
    {path : PathName} {i j : Nat} (here : paths[i]? = some path) (there : paths'[j]? = some path)
    (content : tree.read path = tree'.read path) :
    ∃ c, b.conversions[i]? = some c ∧ b'.conversions[j]? = some c := by
  have empty : AreCalled g [] [] := ⟨by simp, by simp⟩
  obtain ⟨names, aborted, -, collected, converted⟩ := exists_of_run policy ran
  obtain ⟨names', aborted', -, collected', converted'⟩ := exists_of_run policy ran'
  have resolve := resolve?_of_areCalled (areCalled_collectNames empty collected)
    (areCalled_collectNames empty collected') same distinct
  obtain ⟨c, at_i, ok⟩ := getElem?_of_convertFiles converted here
  obtain ⟨c', at_j, ok'⟩ := getElem?_of_convertFiles converted' there
  rw [convertFile_congr resolve content, ok'] at ok
  cases ok
  exact ⟨c, at_i, at_j⟩

/-- A file that refers to the schema of another one, which is there twice. -/
def crowdedTree : FileTree :=
  ((FileTree.empty.set ["a.js"]
    (.file ((Utf8.encode? "const s = new Schema(\x7b b: B \x7d);").getD []))).set
      ["B.js"] (.file [])).set ["B.model.js"] (.file [])

/-- The files of that tree. -/
def crowdedPaths : List PathName :=
  [PathName.ofText "B.model.js", PathName.ofText "B.js", PathName.ofText "a.js"]

theorem exists_run_crowded :
    ∃ b, (run .standard crowdedTree crowdedPaths).outcome = .ok b := by
  have ran : (run .standard crowdedTree crowdedPaths).outcome.isOk = true := by decide +kernel
  match outcome : (run .standard crowdedTree crowdedPaths).outcome with
  | .ok b => exact ⟨b, rfl⟩
  | .error _ => rw [outcome] at ran; cases ran

theorem conversion_eq_dangling_crowded :
    Generator.standard.settings.errorPolicy? = some .skip ∧
      (∀ base, base ∈ baseNames (danglingPaths.map PathName.toText) ↔
        base ∈ baseNames (crowdedPaths.map PathName.toText)) ∧
      CaseDistinct (baseNames (danglingPaths.map PathName.toText)) ∧
      danglingPaths[0]? = some (PathName.ofText "a.js") ∧
      crowdedPaths[2]? = some (PathName.ofText "a.js") ∧
      danglingTree.read (PathName.ofText "a.js") = crowdedTree.read (PathName.ofText "a.js") ∧
      ∃ b b', (run .standard danglingTree danglingPaths).outcome = .ok b ∧
        (run .standard crowdedTree crowdedPaths).outcome = .ok b' ∧
        ∃ c, b.conversions[0]? = some c ∧ b'.conversions[2]? = some c := by
  have first : baseNames (danglingPaths.map PathName.toText) =
      [Text.ofString "A", Text.ofString "B"] := by
    decide +kernel
  have second : baseNames (crowdedPaths.map PathName.toText) =
      [Text.ofString "B", Text.ofString "B", Text.ofString "A"] := by
    decide +kernel
  have same : ∀ base, base ∈ baseNames (danglingPaths.map PathName.toText) ↔
      base ∈ baseNames (crowdedPaths.map PathName.toText) := by
    intro base
    rw [first, second]
    simp only [List.mem_cons, List.not_mem_nil, or_false]
    rw [or_self_left, or_comm]
  have distinct : CaseDistinct (baseNames (danglingPaths.map PathName.toText)) := by
    rw [first]
    unfold CaseDistinct
    decide +kernel
  have content : danglingTree.read (PathName.ofText "a.js") =
      crowdedTree.read (PathName.ofText "a.js") := rfl
  obtain ⟨b, ran, -⟩ := exists_run_dangling
  obtain ⟨b', ran'⟩ := exists_run_crowded
  exact ⟨rfl, same, distinct, rfl, rfl, content, b, b', ran, ran',
    conversion_eq_of_baseNames rfl ran ran' same distinct rfl rfl content⟩

end Batch

end SchemaTypings
