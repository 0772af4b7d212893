import SchemaTypings.Proofs.Enumerations
import SchemaTypings.Proofs.Options
import SchemaTypings.Proofs.Rendering

/-!
Values that declare no type. An object keeps the keys whose values declare one, in order, and so
does every object in it from which a tree is built; each other key is warned about once, where it
stands. The warning shows the dotted path of the key, but for the empty names at its start.
-/

namespace SchemaTypings

/-! ### Values that declare a type -/

namespace Literal

/-- A number, a truth value or null. -/
def isScalar : Literal → Bool
  | .text _ | .list _ | .object _ => false
  | _ => true

/-- Whether a value declares a type: a text, a list, or an object, unless the object is the options
of a field whose `type` is a scalar. -/
def declaresType : Literal → Bool
  | .text _ | .list _ => true
  | .object es => !(isOptions es && (Entries.get? es "type").any isScalar)
  | _ => false

end Literal

namespace Field

variable {es : Entries Literal} {v : Literal}

theorem isSome_declared?_of_plain (plain : v.hasType = false) (name : Text) :
    (declared? name v).isSome = !v.isScalar := by
  match v with
  | .null | .bool _ | .int _ | .float _ | .text _ | .list _ | .object [] =>
    simp [declared?, Literal.isScalar]
  | .object (e :: rest) =>
    have fields : Literal.isOptions (e :: rest) = false := by
      have none : Entries.get? (e :: rest) "type" = none := by
        simpa [Literal.hasType, Entries.has] using plain
      rw [Literal.isOptions, none]
    simp [declared?, fields, Literal.isScalar]

theorem isSome_declared?_eq (name : Text) (v : Literal) :
    (declared? name v).isSome = v.declaresType := by
  cases v with
  | object es =>
    by_cases empty : es = []
    · subst empty
      rfl
    rw [declared?_object empty, Literal.declaresType]
    cases type : Entries.get? es "type" with
    | none =>
      have fields : Literal.isOptions es = false := by rw [Literal.isOptions, type]
      simp [fields]
    | some w =>
      rw [Literal.isOptions_of_type type]
      cases typed : w.hasType with
      | true => simp
      | false =>
        simp [declaredType?_of_type type, isSome_declared?_of_plain typed]
  | _ => simp [declared?, Literal.declaresType]

end Field

/-! ### What is kept -/

/-- What is found in a field, behind its name. -/
def under {α : Type} (name : Text) (found : List Text × α) : List Text × α :=
  (name :: found.1, found.2)

mutual

/-- The trees in a field, from the outside in, each with the names that lead to it. -/
def Field.trees : Field → List (List Text × FieldTree)
  | ⟨_, _, _, _, child, _, _, _⟩ => treesInChild child

def treesInChild : Child Field → List (List Text × FieldTree)
  | .nothing => []
  | .element field => field.trees.map (under "element")
  | .fields tree => ([], tree) :: treesInFields tree

def treesInFields : List Field → List (List Text × FieldTree)
  | [] => []
  | field :: rest => field.trees.map (under field.name) ++ treesInFields rest

end

mutual

/-- The objects in a value from which trees are built, from the outside in, each with the names that
lead to it: fields are built from the `type` of options and from the first item of a list. -/
def Literal.objects : Literal → List (List Text × Entries Literal)
  | .list (v :: _) => v.objects.map (under "element")
  | .object (e :: rest) =>
    if Literal.isOptions (e :: rest) then objectsInType (e :: rest)
    else ([], e :: rest) :: objectsInEntries (e :: rest)
  | _ => []

def objectsInType : List (Text × Literal) → List (List Text × Entries Literal)
  | [] => []
  | (k, v) :: rest => if k = "type" then v.objects else objectsInType rest

def objectsInEntries : List (Text × Literal) → List (List Text × Entries Literal)
  | [] => []
  | (k, v) :: rest => v.objects.map (under k) ++ objectsInEntries rest

end

/-- The keys whose values declare a type. -/
def keptKeys (es : Entries Literal) : List Text :=
  Entries.keys (es.filter fun e => e.2.declaresType)

/-! ### What is dropped -/

mutual

/-- The values in a value that declare no type where a field does, in order, each with the names
that lead to it. -/
def Literal.dropped : Literal → List (List Text × Literal)
  | .list (v :: _) => v.dropped.map (under "element")
  | .object es => if Literal.isOptions es then droppedInType es else droppedInEntries es
  | _ => []

def droppedInType : List (Text × Literal) → List (List Text × Literal)
  | [] => []
  | (k, v) :: rest => if k = "type" then v.dropped else droppedInType rest

def droppedInEntries : List (Text × Literal) → List (List Text × Literal)
  | [] => []
  | (k, v) :: rest =>
    (if v.declaresType then v.dropped else [([], v)]).map (under k) ++ droppedInEntries rest

end

namespace Literal

theorem droppedInType_of_type {es : Entries Literal} {v : Literal}
    (type : es.get? "type" = some v) : droppedInType es = v.dropped :=
  Field.eq_of_get?_type (fun _ _ _ => by rw [droppedInType]) type

theorem dropped_of_isScalar {v : Literal} (h : v.isScalar = true) : v.dropped = [] := by
  cases v with
  | text | list | object => cases h
  | _ => rfl

/-- A value that declares no type is dropped as a whole. -/
theorem dropped_eq_nil {v : Literal} (h : v.declaresType = false) : v.dropped = [] := by
  cases v with
  | text => cases h
  | list => cases h
  | object es =>
    rw [declaresType, Bool.not_eq_false', Bool.and_eq_true] at h
    obtain ⟨options, scalar⟩ := h
    obtain ⟨w, type, scalar⟩ := (Option.any_eq_true _ _).1 scalar
    rw [dropped, if_pos options, droppedInType_of_type type, dropped_of_isScalar scalar]
  | _ => rfl

end Literal

/-- The warning about a value that declares no type, with the path of its field. -/
def skipWarning (path : Text) (value : Literal) : Record :=
  ⟨.warning, .fields, "Skipping field '" ++ path ++ "': " ++ value.shown
    ++ " is not a type declaration"⟩

/-- The records that are at least warnings. -/
def Log.grave (log : Log) : Log := log.filter Record.isGrave

namespace Logged

variable {ε α β : Type}

theorem log_bind {x : Logged ε α} {a : α} (h : x.outcome = .ok a) (f : α → Logged ε β) :
    (x >>= f).log = x.log ++ (f a).log := by
  obtain ⟨log, outcome⟩ := x
  cases h
  rfl

theorem grave_bind {x : Logged ε α} {a : α} (h : x.outcome = .ok a) (f : α → Logged ε β) :
    (x >>= f).log.grave = x.log.grave ++ (f a).log.grave := by
  rw [log_bind h, Log.grave, List.filter_append]
  rfl

theorem grave_debug_bind (topic : Topic) (message : Text) (f : Unit → Logged ε β) :
    ((record .debug topic message : Logged ε Unit) >>= f).log.grave = (f ()).log.grave := by
  rw [grave_bind (outcome_record .debug topic message) f]
  rfl

theorem grave_warning_bind (topic : Topic) (message : Text) (f : Unit → Logged ε β) :
    ((record .warning topic message : Logged ε Unit) >>= f).log.grave =
      ⟨.warning, topic, message⟩ :: (f ()).log.grave := by
  rw [grave_bind (outcome_record .warning topic message) f]
  rfl

end Logged

namespace Field

variable {ε : Type}

/-- The path of what is found behind names, as messages show it. -/
def pathFrom (context : Text) (names : List Text) : Text := names.foldl pathIn context

theorem grave_withOptions (options : Entries Literal) (path : Text) (field : Field) :
    (field.withOptions options path : Logged ε Field).log.grave = [] := by
  unfold withOptions
  dsimp only
  split
  · rfl
  · rw [apply_ite Logged.log, apply_ite Log.grave, Logged.grave_debug_bind]
    exact ite_self _

theorem map_under (context name : Text) (ds : List (List Text × Literal)) :
    (ds.map (under name)).map (fun d => skipWarning (pathFrom context d.1) d.2) =
      ds.map fun d => skipWarning (pathFrom (pathIn context name) d.1) d.2 := by
  rw [List.map_map]
  rfl

mutual

/-- Building the field of a value warns about what is dropped in it. -/
theorem grave_build (name context : Text) : ∀ v : Literal,
    (build name v context : Logged ε (Option Field)).log.grave =
      v.dropped.map fun d => skipWarning (pathFrom (pathIn context name) d.1) d.2
  | .null | .bool _ | .int _ | .float _ | .text _ | .object [] => by
    simp [build, Literal.dropped, Literal.isOptions, Entries.get?, droppedInEntries]
    rfl
  | .list items => by
    rw [build, Logged.grave_bind (outcome_buildElement _ items), grave_buildElement _ items]
    exact List.append_nil _
  | .object (e :: rest) => by
    rw [build, Literal.dropped]
    split
    · rw [Logged.grave_bind (outcome_buildType name context (e :: rest)),
        grave_buildType name context (e :: rest)]
      cases declaredType? name (e :: rest) with
      | none => exact List.append_nil _
      | some field =>
        dsimp only
        rw [Logged.grave_bind (outcome_withOptions _ _ field), grave_withOptions]
        exact List.append_nil _
    · rw [Logged.grave_bind (outcome_buildTree _ (e :: rest) []),
        grave_buildTree _ (e :: rest) []]
      exact List.append_nil _

theorem grave_buildType (name context : Text) : ∀ options : List (Text × Literal),
    (buildType name options context : Logged ε (Option Field)).log.grave =
      (droppedInType options).map fun d => skipWarning (pathFrom (pathIn context name) d.1) d.2
  | [] => rfl
  | (k, v) :: rest => by
    rw [buildType, droppedInType]
    split
    · exact grave_build name context v
    · exact grave_buildType name context rest

theorem grave_buildElement (path : Text) : ∀ items : List Literal,
    (buildElement items path : Logged ε Field).log.grave =
      (Literal.list items).dropped.map fun d => skipWarning (pathFrom path d.1) d.2
  | [] => rfl
  | v :: rest => by
    have first : (do
        let element ← (build "element" v path : Logged ε (Option Field))
        pure (element.getD anyElement)).log.grave =
          (Literal.list (v :: rest)).dropped.map fun d => skipWarning (pathFrom path d.1) d.2 := by
      rw [Logged.grave_bind (outcome_build "element" path v), grave_build "element" path v,
        Literal.dropped, map_under]
      exact List.append_nil _
    rw [buildElement]
    split
    · next texts =>
      -- Nothing is dropped in a text.
      cases v with
      | text => rfl
      | _ => simp [Literal.isText] at texts
    · split
      · exact (Logged.grave_debug_bind _ _ _).trans first
      · exact first

theorem grave_buildTree (context : Text) : ∀ (es : List (Text × Literal)) (tree : FieldTree),
    (buildTree es context tree : Logged ε FieldTree).log.grave =
      (droppedInEntries es).map fun d => skipWarning (pathFrom context d.1) d.2
  | [], _ => rfl
  | (name, v) :: rest, tree => by
    have type := isSome_declared?_eq name v
    rw [buildTree, droppedInEntries, List.map_append, map_under,
      Logged.grave_bind (outcome_build name context v), grave_build name context v]
    cases own : declared? name v with
    | some field =>
      rw [own] at type
      rw [← type, grave_buildTree context rest (tree.add field)]
      rfl
    | none =>
      rw [own] at type
      dsimp only
      rw [← type, Literal.dropped_eq_nil type.symm, Logged.grave_warning_bind,
        grave_buildTree context rest tree]
      rfl

end

end Field

/-! ### The trees that are built -/

namespace Literal

theorem objectsInType_of_type {es : Entries Literal} {v : Literal}
    (type : es.get? "type" = some v) : objectsInType es = v.objects :=
  Field.eq_of_get?_type (fun _ _ _ => by rw [objectsInType]) type

theorem objects_of_isScalar {v : Literal} (h : v.isScalar = true) : v.objects = [] := by
  cases v with
  | text | list | object => cases h
  | _ => rfl

theorem objects_object {es : Entries Literal} (some : es ≠ []) :
    (object es).objects =
      if isOptions es then objectsInType es else ([], es) :: objectsInEntries es := by
  cases es with
  | nil => exact absurd rfl some
  | cons e rest => rw [objects]

/-- From a value that declares no type nothing is built. -/
theorem objects_eq_nil {v : Literal} (h : v.declaresType = false) : v.objects = [] := by
  cases v with
  | text => cases h
  | list => cases h
  | object es =>
    rw [declaresType, Bool.not_eq_false', Bool.and_eq_true] at h
    obtain ⟨options, scalar⟩ := h
    obtain ⟨w, type, scalar⟩ := (Option.any_eq_true _ _).1 scalar
    have some : es ≠ [] := by
      rintro rfl
      cases type
    rw [objects_object some, if_pos options, objectsInType_of_type type, objects_of_isScalar scalar]
  | _ => rfl

end Literal

namespace Field

/-! Options change the leaf of a field only, which holds no tree or stays as it is. -/

theorem trees_congr {f g : Field} (child : g.child = f.child) : g.trees = f.trees := by
  obtain ⟨⟩ := f
  obtain ⟨⟩ := g
  cases child
  rfl

theorem trees_ofText (name s : Text) : (ofText name s).trees = [] := by
  unfold ofText
  split
  · rfl
  split <;> rfl

mutual

theorem trees_mapLeaf {change : Field → Field} (child : ∀ g, (change g).child = g.child) :
    ∀ f : Field, (f.mapLeaf change).trees = f.trees
  | ⟨name, kind, required, base, c, target, viaRef, literals⟩ => by
    rw [mapLeaf]
    split
    · split
      · next new eq =>
        rw [trees, trees, trees_mapElement child c new eq]
      · exact trees_congr (child _)
    · exact trees_congr (child _)

theorem trees_mapElement {change : Field → Field} (child : ∀ g, (change g).child = g.child) :
    ∀ c new : Child Field, mapElement change c = some new → treesInChild new = treesInChild c
  | .nothing, new, eq => by cases eq
  | .element field, new, eq => by
    cases eq
    rw [treesInChild, treesInChild, trees_mapLeaf child field]
  | .fields tree, new, eq => by
    cases eq
    rfl

end

theorem child_asReference (ref : Text) (f : Field) : (asReference ref f).child = f.child := by
  unfold asReference
  split <;> rfl

theorem child_asEnumeration (values : List Literal) (f : Field) :
    (asEnumeration values f).child = f.child := by
  unfold asEnumeration
  split <;> rfl

theorem trees_configured (options : Entries Literal) (f : Field) :
    (f.configured options).trees = f.trees := by
  have ref (g : Field) : (g.withRef options).trees = g.trees := by
    unfold withRef
    split
    · split
      · rfl
      · exact trees_mapLeaf (child_asReference _) g
    · rfl
  have required (optional : Bool) :
      (if optional then { f with required := false } else f).trees = f.trees := by
    cases optional
    · rfl
    · exact trees_congr rfl
  unfold configured
  dsimp only
  split
  · rw [ref, required]
  · rw [trees_mapLeaf (child_asEnumeration _), ref, required]

/-- The fields of entries with distinct keys are those of their values, in order. -/
theorem declaredTree_eq {es : Entries Literal} {tree : FieldTree}
    (distinct : (tree.names ++ es.keys).Nodup) :
    declaredTree es tree = tree ++ es.filterMap fun e => declared? e.1 e.2 := by
  induction es generalizing tree with
  | nil => exact (List.append_nil tree).symm
  | cons e rest ih =>
    obtain ⟨k, v⟩ := e
    have absent : k ∉ tree.names := fun mem =>
      (List.nodup_append.1 distinct).2.2 k mem k List.mem_cons_self rfl
    rw [declaredTree, List.filterMap_cons]
    cases own : declared? k v with
    | none => exact ih (distinct.sublist ((List.sublist_cons_self k _).append_left _))
    | some f =>
      have named : f.name = k := name_of_declared? own
      have added : tree.add f = tree ++ [f] := by
        have all : ∀ g ∈ tree, decide (g.name ≠ f.name) = true := fun g mem =>
          decide_eq_true fun same => absent (named ▸ same ▸ List.mem_map_of_mem mem)
        rw [FieldTree.add, List.filter_eq_self.2 all]
      have names : FieldTree.names (tree ++ [f]) ++ Entries.keys rest =
          tree.names ++ Entries.keys ((k, v) :: rest) := by
        simp [FieldTree.names, named]
      dsimp only
      rw [added, ih (names ▸ distinct), List.append_assoc]
      rfl

theorem declaredTree_of_distinct {es : Entries Literal} (distinct : es.keys.Nodup) :
    declaredTree es [] = es.filterMap fun e => declared? e.1 e.2 :=
  declaredTree_eq distinct

/-- A tree has the keys of the values that declare types. -/
theorem names_filterMap (es : Entries Literal) :
    FieldTree.names (es.filterMap fun e => declared? e.1 e.2) = keptKeys es := by
  induction es with
  | nil => rfl
  | cons e rest ih =>
    obtain ⟨k, v⟩ := e
    have type := isSome_declared?_eq k v
    rw [List.filterMap_cons, keptKeys, List.filter_cons, ← type]
    cases own : declared? k v with
    | none => exact ih
    | some f =>
      dsimp only
      rw [FieldTree.names, List.map_cons, name_of_declared? own]
      exact congrArg (k :: ·) ih

/-- A tree with its names alone. -/
def namesAt (found : List Text × FieldTree) : List Text × List Text := (found.1, found.2.names)

/-- An object with the keys alone that it keeps. -/
def keptAt (found : List Text × Entries Literal) : List Text × List Text :=
  (found.1, keptKeys found.2)

theorem map_namesAt_under (name : Text) (ts : List (List Text × FieldTree)) :
    (ts.map (under name)).map namesAt = (ts.map namesAt).map (under name) := by
  rw [List.map_map, List.map_map]
  rfl

theorem map_keptAt_under (name : Text) (os : List (List Text × Entries Literal)) :
    (os.map (under name)).map keptAt = (os.map keptAt).map (under name) := by
  rw [List.map_map, List.map_map]
  rfl

theorem map_namesAt_treesInFields {es : Entries Literal}
    (each : ∀ e ∈ es, ∀ f, declared? e.1 e.2 = some f →
      f.trees.map namesAt = e.2.objects.map keptAt) :
    (treesInFields (es.filterMap fun e => declared? e.1 e.2)).map namesAt =
      (objectsInEntries es).map keptAt := by
  induction es with
  | nil => rfl
  | cons e rest ih =>
    obtain ⟨k, v⟩ := e
    have later := ih fun e mem => each e (List.mem_cons_of_mem _ mem)
    rw [List.filterMap_cons, objectsInEntries, List.map_append, map_keptAt_under, ← later]
    cases own : declared? k v with
    | none =>
      have type := isSome_declared?_eq k v
      rw [own] at type
      rw [Literal.objects_eq_nil type.symm]
      rfl
    | some f =>
      dsimp only
      rw [treesInFields, List.map_append, map_namesAt_under, name_of_declared? own,
        each _ List.mem_cons_self f own]

/-- The field of a value has a tree for each object in the value, of the keys that it keeps. -/
theorem map_namesAt_trees {v : Literal} (distinct : v.everywhere Literal.hasDistinctKeys = true)
    {name : Text} {f : Field} (h : declared? name v = some f) :
    f.trees.map namesAt = v.objects.map keptAt := by
  induction v using Literal.induct generalizing name f with
  | null | bool | int | float => cases h
  | text s =>
    cases h
    rw [trees_ofText]
    rfl
  | list items ih =>
    rw [declared?] at h
    cases h
    rw [trees, treesInChild, map_namesAt_under]
    rw [Literal.everywhere_list, Bool.and_eq_true, List.all_eq_true] at distinct
    cases items with
    | nil => rfl
    | cons v rest =>
      rw [Literal.objects, map_keptAt_under, declaredElement]
      congr 1
      split
      · next texts =>
        cases v with
        | text => rfl
        | _ => simp [Literal.isText] at texts
      · cases first : declared? "element" v with
        | none =>
          have type := isSome_declared?_eq "element" v
          rw [first] at type
          rw [Literal.objects_eq_nil type.symm]
          rfl
        | some e => exact ih v List.mem_cons_self (distinct.2 v List.mem_cons_self) first
  | object es ih =>
    rw [Literal.everywhere_object, Bool.and_eq_true, List.all_eq_true] at distinct
    by_cases empty : es = []
    · subst empty
      cases h
      rfl
    rw [declared?_object empty] at h
    rw [Literal.objects_object empty]
    split at h
    · next options =>
      obtain ⟨g, type, rfl⟩ := Option.map_eq_some_iff.1 h
      rw [declaredType?_eq] at type
      obtain ⟨w, get, type⟩ := Option.bind_eq_some_iff.1 type
      have mem := Entries.mem_of_get? get
      rw [if_pos options, trees_configured, Literal.objectsInType_of_type get]
      exact ih _ mem (distinct.2 _ mem) type
    · next fields =>
      cases h
      have keys : (Entries.keys es).Nodup := of_decide_eq_true distinct.1
      rw [if_neg fields, trees, treesInChild, declaredTree_of_distinct keys, List.map_cons,
        List.map_cons, map_namesAt_treesInFields fun e mem f => ih e mem (distinct.2 e mem),
        namesAt, names_filterMap, keptAt]

end Field

/-! ### Paths -/

namespace Field

/-- The dotted path of names in a context; without a context the names alone. -/
def fullPath (context : Text) (names : List Text) : Text :=
  Text.join "." (if context.isEmpty then names else context :: names)

/-- The path of names behind a context is their dotted path. -/
theorem pathFrom_eq {context : Text} (some : context ≠ []) (names : List Text) :
    pathFrom context names = Text.join "." (context :: names) := by
  induction names generalizing context with
  | nil => exact (Text.join_singleton _ _).symm
  | cons n names ih =>
    have dotted : pathIn context n = context ++ "." ++ n := by
      rw [pathIn, if_neg (by simpa using some)]
    have behind : pathIn context n ≠ [] := by simp [dotted, some]
    have step : pathFrom context (n :: names) = pathFrom (pathIn context n) names := rfl
    rw [step, ih behind, dotted]
    cases names with
    | nil => simp [Text.join_cons_cons]
    | cons m names => simp [Text.join_cons_cons]

theorem pathFrom_nil_cons (n : Text) (names : List Text) :
    pathFrom [] (n :: names) = pathFrom n names := rfl

theorem length_pathFrom_le (names : List Text) :
    (pathFrom [] names).length ≤ (Text.join "." names).length := by
  induction names with
  | nil => exact Nat.le_refl _
  | cons n names ih =>
    rw [pathFrom_nil_cons]
    by_cases empty : n = []
    · subst empty
      cases names with
      | nil => simp [pathFrom]
      | cons m names =>
        rw [Text.join_cons_cons, List.nil_append, List.length_append]
        omega
    · rw [pathFrom_eq empty]

/-- Without a context, the path that messages show is the dotted path unless there are names behind
an empty one at its start. -/
theorem pathFrom_eq_fullPath_iff (context : Text) (names : List Text) :
    pathFrom context names = fullPath context names ↔
      context = [] → names.head? = some [] → names.length ≤ 1 := by
  by_cases outermost : context = []
  · subst outermost
    have full : fullPath [] names = Text.join "." names := rfl
    rw [full]
    cases names with
    | nil => simp [pathFrom, Text.join]
    | cons n names =>
      rw [pathFrom_nil_cons]
      by_cases empty : n = []
      · subst empty
        cases names with
        | nil => simp [pathFrom]
        | cons m names =>
          have shorter := length_pathFrom_le (m :: names)
          have dot : (Text.ofString ".").length = 1 := rfl
          simp only [Text.join_cons_cons, List.nil_append, List.head?_cons, List.length_cons]
          constructor
          · intro same
            rw [same, List.length_append] at shorter
            omega
          · intro short
            have := short trivial trivial
            omega
      · simp [pathFrom_eq empty, empty]
  · have full : fullPath context names = Text.join "." (context :: names) := by
      rw [fullPath, if_neg (by simpa using outermost)]
    simp [full, pathFrom_eq outermost, outermost]

end Field

theorem skipWarning_inj {path path' : Text} {v : Literal} :
    skipWarning path v = skipWarning path' v ↔ path = path' := by
  simp [skipWarning]

/-! ### Trees of fields -/

namespace FieldTree

/-- Building the fields of an object whose keys are distinct, at every depth, keeps the keys whose
values declare types, in the object and in every object in it from which a tree is built; and it
leaves one warning for each value that is dropped, in order. Each warning has the full path of what
is dropped if and only if there is a context, or none of them is inside a field with an empty name
that stands outermost. -/
theorem exists_kept_and_dropped {ε : Type} {es : Entries Literal}
    (distinct : (Literal.object es).everywhere Literal.hasDistinctKeys = true) (context : Text) :
    ∃ tree log, (ofEntries es context : Logged ε FieldTree) = ⟨log, .ok tree⟩ ∧
      tree.names = keptKeys es ∧
      (treesInFields tree).map Field.namesAt = (objectsInEntries es).map Field.keptAt ∧
      log.grave = (droppedInEntries es).map (fun d =>
        skipWarning (Field.pathFrom context d.1) d.2) ∧
      (log.grave = (droppedInEntries es).map (fun d =>
          skipWarning (Field.fullPath context d.1) d.2) ↔
        context = [] → ∀ d ∈ droppedInEntries es, d.1.head? = some [] → d.1.length ≤ 1) := by
  rw [Literal.everywhere_object, Bool.and_eq_true, List.all_eq_true] at distinct
  obtain ⟨keys, values⟩ := distinct
  have built : declared es = es.filterMap fun e => Field.declared? e.1 e.2 :=
    Field.declaredTree_of_distinct (of_decide_eq_true keys)
  have warned := Field.grave_buildTree (ε := ε) context es []
  refine ⟨declared es, (ofEntries es context : Logged ε FieldTree).log, ?_, ?_, ?_, warned, ?_⟩
  · have ok : (ofEntries es context : Logged ε FieldTree).outcome = .ok (declared es) :=
      outcome_ofEntries es context
    rw [← ok]
  · rw [built, Field.names_filterMap]
  · rw [built]
    exact Field.map_namesAt_treesInFields fun e mem f => Field.map_namesAt_trees (values e mem)
  · have log : (ofEntries es context : Logged ε FieldTree).log.grave = _ := warned
    rw [log, List.map_inj_left]
    simp only [skipWarning_inj, Field.pathFrom_eq_fullPath_iff]
    exact ⟨fun all outermost d mem => all d mem outermost,
      fun all d mem outermost => all outermost d mem⟩

/-- Values that declare no type in an object, in the type of options and in the first item of a
list, and options with such a type. -/
def droppingSample : Entries Literal :=
  [("a", .object [("type", .object [("x", .int 5), ("y", .text "Date")])]), ("b", .null),
    ("c", .list [.object [("d", .bool true)], .object [("e", .int 1)]]),
    ("f", .object [("required", .bool false), ("type", .int 6)])]

theorem exists_kept_and_dropped_sample :
    (Literal.object droppingSample).everywhere Literal.hasDistinctKeys = true ∧
      ∃ tree log, (ofEntries droppingSample [] : Logged Error FieldTree) = ⟨log, .ok tree⟩ ∧
        tree.names = ["a", "c"] ∧
        (treesInFields tree).map Field.namesAt =
          ([(["a"], ["y"]), (["c", "element"], [])] : List (List Text × List Text)) ∧
        log.grave = [skipWarning "a.x" (.int 5), skipWarning "b" .null,
          skipWarning "c.element.d" (.bool true),
          skipWarning "f" (.object [("required", .bool false), ("type", .int 6)])] := by
  have distinct : (Literal.object droppingSample).everywhere Literal.hasDistinctKeys = true := by
    decide
  obtain ⟨tree, log, built, names, trees, -, full⟩ :=
    exists_kept_and_dropped distinct []
  have inside : ∀ path ∈ (droppedInEntries droppingSample).map (·.1),
      path.head? = some [] → path.length ≤ 1 := by decide
  refine ⟨distinct, tree, log, built, names, trees, ?_⟩
  exact full.2 fun _ d mem => inside d.1 (List.mem_map_of_mem mem)

/-- A value that declares no type in a field without a name. -/
def unnamedSample : Entries Literal := [("", .object [("x", .int 5)])]

/-- The path in its warning is that of a field outside. -/
theorem skipped_in_unnamed :
    (Literal.object unnamedSample).everywhere Literal.hasDistinctKeys = true ∧
      (ofEntries unnamedSample [] : Logged Error FieldTree).log.grave = [skipWarning "x" (.int 5)] ∧
      droppedInEntries unnamedSample = ([(["", "x"], .int 5)] : List (List Text × Literal)) ∧
      Field.fullPath [] ["", "x"] = ".x" ∧
      skipWarning "x" (.int 5) ≠ skipWarning ".x" (.int 5) := by
  refine ⟨by decide, rfl, rfl, rfl, fun same => ?_⟩
  have paths := skipWarning_inj.1 same
  revert paths
  decide

end FieldTree

end SchemaTypings
