import SchemaTypings.Proofs.Converting

/-!
References between the files of a batch. A type names an interface only if a file of the batch is
registered for it; that file declares the interface if it converts.
-/

namespace SchemaTypings

/-! ### The interfaces that a type names -/

mutual

/-- The names of interfaces in a type, at any depth. -/
def TypeExpr.named : TypeExpr → List Literal
  | ⟨kind, name, element, fields, _, members, _, _⟩ =>
    (if kind = .named then [name] else []) ++
      (namedInElement element ++ (namedInFields fields ++ namedInMembers members))

def namedInElement : Option TypeExpr → List Literal
  | none => []
  | some element => element.named

def namedInFields : List (Property TypeExpr) → List Literal
  | [] => []
  | ⟨_, type, _⟩ :: rest => type.named ++ namedInFields rest

def namedInMembers : List TypeExpr → List Literal
  | [] => []
  | type :: rest => type.named ++ namedInMembers rest

end

/-- The names of interfaces in the types of an interface, at any depth. -/
def Interface.named (i : Interface) : List Literal := namedInFields i.fields

namespace InterfaceNames

/-- The interfaces to which the names of a run resolve. -/
def Resolves (known : InterfaceNames) (v : Literal) : Prop :=
  ∃ target name, known.resolve? target = some name ∧ v = .text name

/-- A name that resolves is one of the names of the run. -/
theorem exists_mem_of_resolve? {known : InterfaceNames} {target name : Text}
    (h : known.resolve? target = some name) : ∃ base, (base, name) ∈ known.entries := by
  rw [resolve?] at h
  split at h
  · next found =>
    cases h
    exact ⟨target, Entries.mem_of_get? found⟩
  · obtain ⟨⟨base, name⟩, found, rfl⟩ := Option.map_eq_some_iff.1 h
    exact ⟨base, List.mem_reverse.1 (List.mem_of_find?_eq_some found)⟩

end InterfaceNames

namespace TypeExpr

variable {names : TypeNames} {known : InterfaceNames} {v : Literal}

theorem named_type (base : BaseType) : (names.type base).named = [] := rfl

theorem resolves_of_ofReference {base : Option BaseType} {target : Option Text} {viaRef : Bool}
    {context : Text} {type : TypeExpr}
    (h : ofReference names known base target viaRef context = .ok type) (hv : v ∈ type.named) :
    known.Resolves v := by
  unfold ofReference at h
  dsimp only at h
  split at h
  · cases h
    cases hv
  split at h
  · cases h
  split at h
  · cases h
    cases hv
  · next name resolved =>
    have named : v = .text name := by
      split at h <;> cases h
      · simpa [named, namedInElement, namedInFields, namedInMembers, named_type] using hv
      · simpa [named, namedInElement, namedInFields, namedInMembers] using hv
    exact ⟨_, name, resolved, named⟩

mutual

theorem resolves_of_ofField {context : Text} : ∀ (field : Field) {type : TypeExpr},
    ofField names known context field = .ok type → v ∈ type.named → known.Resolves v
  | ⟨_, kind, _, base, child, target, viaRef, literals⟩, type, h, hv => by
    unfold ofField at h
    split at h
    · split at h
      · cases h
        cases hv
      · cases h
    · exact resolves_of_ofElement child h hv
    · exact resolves_of_ofNested child h hv
    · cases h
      cases hv
    · exact resolves_of_ofReference h hv

theorem resolves_of_ofElement {context : Text} : ∀ (child : Child Field) {type : TypeExpr},
    ofElement names known context child = .ok type → v ∈ type.named → known.Resolves v
  | .element field, type, h, hv => by
    rw [ofElement] at h
    obtain ⟨element, ok, h⟩ := bind_eq_ok.1 h
    cases h
    refine resolves_of_ofField field ok ?_
    simpa [named, namedInElement, namedInFields, namedInMembers] using hv
  | .nothing, type, h, hv => by cases h
  | .fields tree, type, h, hv => by cases h

theorem resolves_of_ofNested {context : Text} : ∀ (child : Child Field) {type : TypeExpr},
    ofNested names known context child = .ok type → v ∈ type.named → known.Resolves v
  | .fields tree, type, h, hv => by
    rw [ofNested] at h
    obtain ⟨fields, ok, h⟩ := bind_eq_ok.1 h
    cases h
    refine resolves_of_ofTree tree ok ?_
    simpa [named, namedInElement, namedInMembers] using hv
  | .nothing, type, h, hv => by cases h
  | .element field, type, h, hv => by cases h

theorem resolves_of_ofTree {context : Text} : ∀ (tree : List Field)
    {fields : List (Property TypeExpr)}, ofTree names known context tree = .ok fields →
      v ∈ namedInFields fields → known.Resolves v
  | [], fields, h, hv => by
    rw [ofTree] at h
    cases h
    cases hv
  | field :: rest, fields, h, hv => by
    rw [ofTree] at h
    obtain ⟨type, ok, h⟩ := bind_eq_ok.1 h
    obtain ⟨others, ok', h⟩ := bind_eq_ok.1 h
    cases h
    rcases List.mem_append.1 hv with hv | hv
    · exact resolves_of_ofField field ok hv
    · exact resolves_of_ofTree rest ok' hv

end

end TypeExpr

/-- Every interface that a schema's interface names is one that the names of the run resolve to. -/
theorem Generator.resolves_of_model {g : Generator} {name : Text} {tree : FieldTree}
    {known : InterfaceNames} {i : Interface} {v : Literal} (h : g.model name tree known = .ok i)
    (hv : v ∈ i.named) : known.Resolves v := by
  rw [model] at h
  split at h
  · rw [Interface.ofTree] at h
    obtain ⟨fields, ok, h⟩ := bind_eq_ok.1 h
    cases h
    exact TypeExpr.resolves_of_ofTree tree ok hv
  · cases h
    cases hv

namespace Batch

/-! ### The names of a batch -/

/-- What holds of the names of the files at the given paths: each stands for a file's base name, and
is what the generator calls it. -/
structure Collected (g : Generator) (paths : List Text) (names : Entries Text) : Prop where
  found : ∀ {base name}, (base, name) ∈ names → names.get? base = some name
  named : ∀ {base name}, (base, name) ∈ names → (g.interfaceName base).outcome = .ok name
  placed : ∀ {base name}, (base, name) ∈ names →
    ∃ path ∈ paths, (PathName.ofText path).baseName = base

theorem get?_append {α : Type} (a b : Entries α) (key : Text) :
    Entries.get? (a ++ b) key = (a.get? key).or (b.get? key) := by
  induction a with
  | nil => rfl
  | cons e a ih =>
    obtain ⟨k, v⟩ := e
    rw [List.cons_append, Entries.get?, Entries.get?]
    split
    · rfl
    · exact ih

/-- One more file keeps the names right. -/
theorem Collected.snoc {g : Generator} {seen : List Text} {names : Entries Text}
    {path base name : Text} (h : Collected g seen names) (new : names.has base = false)
    (place : (PathName.ofText path).baseName = base)
    (named : (g.interfaceName base).outcome = .ok name) :
    Collected g (seen ++ [path]) (names ++ [(base, name)]) := by
  have none : names.get? base = none := by simpa [Entries.has] using new
  have cases {base' name' : Text} (he : (base', name') ∈ names ++ [(base, name)]) :
      (base', name') ∈ names ∨ base' = base ∧ name' = name := by
    simpa using he
  constructor
  · intro base' name' he
    rw [get?_append]
    rcases cases he with he | ⟨rfl, rfl⟩
    · rw [h.found he, Option.some_or]
    · rw [none]
      simp [Entries.get?]
  · intro base' name' he
    rcases cases he with he | ⟨rfl, rfl⟩
    · exact h.named he
    · exact named
  · intro base' name' he
    rcases cases he with he | ⟨rfl, rfl⟩
    · obtain ⟨p, mem, eq⟩ := h.placed he
      exact ⟨p, List.mem_append_left _ mem, eq⟩
    · exact ⟨path, by simp, place⟩

theorem Collected.mono {g : Generator} {seen seen' : List Text} {names : Entries Text}
    (h : Collected g seen names) (hs : seen ⊆ seen') : Collected g seen' names :=
  ⟨h.found, h.named, fun he => (h.placed he).imp fun _ ⟨mem, eq⟩ => ⟨hs mem, eq⟩⟩

theorem collected_collectNames {g : Generator} {paths seen : List Text} {known names : Entries Text}
    (h : Collected g seen known) (ran : (collectNames g known paths).outcome = .ok names) :
    Collected g (seen ++ paths) names := by
  induction paths generalizing seen known with
  | nil =>
    cases ran
    rwa [List.append_nil]
  | cons path rest ih =>
    rw [collectNames] at ran
    split at ran
    · rw [Logged.outcome_bind] at ran
      exact (ih h ran).mono (by simp)
    · next new =>
      rw [Logged.outcome_bind] at ran
      obtain ⟨name, named, ran⟩ := bind_eq_ok.1 ran
      have step := ih (h.snoc (by simpa using new) rfl named) ran
      simpa using step

/-! ### The conversions of a batch -/

/-- Where a conversion of the file at `path` comes from: its interface is one that the generator
makes, and it has one exactly if it is converted, under its own name. -/
structure Traced (g : Generator) (known : InterfaceNames) (path : Text) (c : Conversion) :
    Prop where
  place : c.path = path
  resolves : ∀ i ∈ c.model, ∀ v ∈ i.named, known.Resolves v
  converted : c.status = .converted → ∃ name i,
    (chosenName g known (PathName.ofText path).baseName).outcome = .ok name ∧
      c.interfaceName = some name ∧ c.model = some i ∧ i.name = name

section

variable {g : Generator} {known : InterfaceNames} {path : Text} {c : Conversion}

theorem Traced.of_status (h : c.path = path) (status : c.status ≠ .converted)
    (model : c.model = none) : Traced g known path c :=
  ⟨h, by simp [model], fun converted => absurd converted status⟩

theorem name_of_model {name : Text} {tree : FieldTree} {i : Interface}
    (h : g.model name tree known = .ok i) : i.name = name := by
  rw [Generator.model] at h
  split at h
  · rw [Interface.ofTree] at h
    obtain ⟨fields, -, h⟩ := bind_eq_ok.1 h
    cases h
    rfl
  · cases h
    rfl

theorem traced_convert {source : Text} (h : (convert g known source path).outcome = .ok c) :
    Traced g known path c := by
  obtain ⟨place, ⟨status, model⟩ | ⟨tree, name, i, made⟩⟩ := convert_cases h
  · exact .of_status place status model
  · refine ⟨place, ?_, fun _ =>
      ⟨name, i, made.chosen, made.interface, made.model, name_of_model made.made⟩⟩
    rw [made.model]
    rintro _ ⟨⟩ v hv
    exact g.resolves_of_model made.made hv

theorem traced_convertFile {tree : FileTree} {path : PathName}
    (h : (convertFile g known tree path).outcome = .ok c) : Traced g known path.toText c := by
  rw [convertFile, Logged.outcome_bind] at h
  obtain ⟨loaded, -, h⟩ := bind_eq_ok.1 h
  rcases loaded with e | source
  · cases e with
    | source message =>
      cases h
      exact .of_status rfl (by simp) rfl
    | _ => cases h
  · exact traced_convert h

/-- A batch that skips what fails has a conversion for each of its files, and no other. -/
theorem traced_convertFiles {tree : FileTree} {paths : List PathName} {cs : List Conversion}
    {aborted : Bool}
    (h : (convertFiles g known tree .skip paths).outcome = .ok (cs, aborted)) :
    (∀ c ∈ cs, ∃ path ∈ paths, Traced g known path.toText c) ∧
      ∀ path ∈ paths, ∃ c ∈ cs, Traced g known path.toText c := by
  induction paths generalizing cs aborted with
  | nil =>
    cases h
    simp
  | cons path rest ih =>
    rw [convertFiles, Logged.outcome_bind] at h
    obtain ⟨c, converted, h⟩ := bind_eq_ok.1 h
    rw [if_neg (by simp), Logged.outcome_bind] at h
    obtain ⟨⟨others, aborted⟩, ran, h⟩ := bind_eq_ok.1 h
    cases h
    obtain ⟨sources, results⟩ := ih ran
    have first := traced_convertFile converted
    constructor
    · intro d hd
      rcases List.mem_cons.1 hd with rfl | hd
      · exact ⟨path, by simp, first⟩
      · exact (sources d hd).imp fun p ⟨mem, traced⟩ => ⟨by simp [mem], traced⟩
    · intro p hp
      rcases List.mem_cons.1 hp with rfl | hp
      · exact ⟨c, by simp, first⟩
      · exact (results p hp).imp fun d ⟨mem, traced⟩ => ⟨by simp [mem], traced⟩

end

/-- A file that is registered is converted under the name that it is registered for. -/
theorem outcome_chosenName {g : Generator} {names : Entries Text} {base name : Text}
    (found : names.get? base = some name) (named : (g.interfaceName base).outcome = .ok name) :
    (chosenName g ⟨names⟩ base).outcome = .ok name := by
  have resolved : InterfaceNames.resolve? ⟨names⟩ base = some name := by
    simp [InterfaceNames.resolve?, found]
  simp only [chosenName, resolved]
  split
  · exact named
  · rfl

/-- What a batch that skips what fails consists of. -/
theorem exists_of_run {g : Generator} {tree : FileTree} {paths : List PathName} {b : BatchResult}
    (policy : g.settings.errorPolicy? = some .skip) (ran : (run g tree paths).outcome = .ok b) :
    ∃ names aborted, b.names = ⟨names⟩ ∧
      (collectNames g [] (paths.map PathName.toText)).outcome = .ok names ∧
      (convertFiles g ⟨names⟩ tree .skip paths).outcome = .ok (b.conversions, aborted) := by
  rw [run, policy] at ran
  dsimp only at ran
  rw [Logged.outcome_bind] at ran
  obtain ⟨known, named, ran⟩ := bind_eq_ok.1 ran
  rw [namesOf, Logged.outcome_bind] at named
  obtain ⟨names, collected, same⟩ := bind_eq_ok.1 named
  cases same
  rw [Logged.outcome_bind] at ran
  obtain ⟨⟨cs, aborted⟩, converted, ran⟩ := bind_eq_ok.1 ran
  refine ⟨names, aborted, ?_⟩
  dsimp only at ran
  split at ran
  · cases ran
    exact ⟨rfl, collected, converted⟩
  · rw [Logged.outcome_bind] at ran
    obtain ⟨generation, -, ran⟩ := bind_eq_ok.1 ran
    cases ran
    exact ⟨rfl, collected, converted⟩

/-- Every interface that a converted file names is registered for the base name of some file of the
batch, and each file of that base name that is converted declares it. -/
theorem registered_of_named {g : Generator} {tree : FileTree} {paths : List PathName}
    {b : BatchResult} (policy : g.settings.errorPolicy? = some .skip)
    (ran : (run g tree paths).outcome = .ok b) :
    ∀ c ∈ b.conversions, ∀ i, c.model = some i → ∀ v ∈ i.named,
      ∃ base name, v = .text name ∧ b.names.entries.get? base = some name ∧
        (∃ d ∈ b.conversions, (PathName.ofText d.path).baseName = base) ∧
        ∀ d ∈ b.conversions, (PathName.ofText d.path).baseName = base → d.status = .converted →
          d.interfaceName = some name ∧ ∃ j, d.model = some j ∧ j.name = name := by
  obtain ⟨names, aborted, same, collected, converted⟩ := exists_of_run policy ran
  obtain ⟨sources, results⟩ := traced_convertFiles converted
  have empty : Collected g [] [] := by constructor <;> simp
  have registered := collected_collectNames empty collected
  rw [List.nil_append] at registered
  intro c hc i model v hv
  obtain ⟨_, _, traced⟩ := sources c hc
  obtain ⟨target, name, resolved, rfl⟩ := traced.resolves i model v hv
  obtain ⟨base, mem⟩ := InterfaceNames.exists_mem_of_resolve? resolved
  have found := registered.found mem
  refine ⟨base, name, rfl, by rw [same]; exact found, ?_, fun d hd here status => ?_⟩
  · obtain ⟨text, place, here⟩ := registered.placed mem
    obtain ⟨path, inBatch, rfl⟩ := List.mem_map.1 place
    obtain ⟨d, hd, result⟩ := results path inBatch
    exact ⟨d, hd, by rw [result.place, here]⟩
  · obtain ⟨path, _, result⟩ := sources d hd
    obtain ⟨name', j, chosen, interface, declares, called⟩ := result.converted status
    rw [← result.place, here, outcome_chosenName found (registered.named mem)] at chosen
    cases chosen
    exact ⟨interface, j, declares, called⟩

/-- A schema that refers to the schema of another file, which declares none. -/
def danglingTree : FileTree :=
  (FileTree.empty.set ["a.js"] (.file ((Utf8.encode? "const s = new Schema(\x7b b: B \x7d);").getD []))).set
    ["B.js"] (.file [])

/-- The files of that tree. -/
def danglingPaths : List PathName := [PathName.ofText "a.js", PathName.ofText "B.js"]

/-- Whether a batch has a type that names an interface and no file of it declares that interface. -/
def BatchResult.dangles (b : BatchResult) (name : Text) : Bool :=
  b.conversions.any (fun c => c.model.any fun i => i.named.any fun v => v.text? = some name) &&
    b.conversions.all fun d => !(d.status = .converted) || d.interfaceName ≠ some name

theorem exists_run_dangling :
    ∃ b, (run .standard danglingTree danglingPaths).outcome = .ok b ∧
      BatchResult.dangles b "IB" = true :=
  exists_of_toOption_any (by decide +kernel)

/-- A registered name may be one that no file of the batch declares. -/
theorem not_declared_of_named :
    ¬∀ tree paths b, (run .standard tree paths).outcome = .ok b → ∀ c ∈ b.conversions, ∀ i,
      c.model = some i → ∀ v ∈ i.named, ∃ d ∈ b.conversions, ∃ name, v = .text name ∧
        d.status = .converted ∧ d.interfaceName = some name := by
  intro all
  obtain ⟨b, ran, dangles⟩ := exists_run_dangling
  simp only [BatchResult.dangles, Bool.and_eq_true, List.any_eq_true, Option.any_eq_true,
    decide_eq_true_eq, List.all_eq_true] at dangles
  obtain ⟨⟨c, hc, i, model, v, hv, text⟩, none⟩ := dangles
  obtain ⟨d, hd, name, rfl, status, interface⟩ := all _ _ b ran c hc i model v hv
  cases text
  have no := none d hd
  simp [status, interface] at no

theorem registered_of_named_dangling :
    Generator.standard.settings.errorPolicy? = some .skip ∧
      ∃ b, (run .standard danglingTree danglingPaths).outcome = .ok b ∧
        ∀ c ∈ b.conversions, ∀ i, c.model = some i → ∀ v ∈ i.named,
          ∃ base name, v = .text name ∧ b.names.entries.get? base = some name ∧
            (∃ d ∈ b.conversions, (PathName.ofText d.path).baseName = base) ∧
            ∀ d ∈ b.conversions, (PathName.ofText d.path).baseName = base →
              d.status = .converted →
                d.interfaceName = some name ∧ ∃ j, d.model = some j ∧ j.name = name := by
  obtain ⟨b, ran, -⟩ := exists_run_dangling
  exact ⟨rfl, b, ran, registered_of_named rfl ran⟩

end Batch

end SchemaTypings
