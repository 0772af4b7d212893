import SchemaTypings.Proofs.FileNames
import SchemaTypings.Proofs.Independence
import SchemaTypings.Proofs.Transcoding

/-!
File trees that grow. Directories and files are only added, and what is added or rewritten is no
model, so that the same models are found afterwards and are read alike.
-/

namespace SchemaTypings

/-! ### Models in a directory -/

/-- Whether something is a model depends on its name alone. -/
theorem PathName.isModel_congr {p q : PathName} (h : p.name = q.name) : p.isModel = q.isModel := by
  rw [isModel, isModel, suffix, suffix, h]

namespace Models

/-- The path name of a node that is a model below the searched directory. -/
def found? (source : PathName) (place : Place) (e : Place × Node) : Option PathName :=
  match e.2 with
  | .file _ =>
    if (place.isPrefixOf e.1 && place.length < e.1.length) && isWanted (e.1.drop place.length) then
      some ⟨source.root, source.parts ++ e.1.drop place.length⟩
    else none
  | .directory => none

theorem inDirectory_eq (tree : FileTree) (source : PathName) (place : Place) :
    inDirectory tree source place =
      (tree.nodes.filterMap (found? source place)).mergeSort fun p q =>
        Text.le p.toText q.toText := by
  rw [inDirectory, FileTree.below, List.filterMap_filterMap]
  have same : (fun e : Place × Node => (if place.isPrefixOf e.1 && place.length < e.1.length then
      some (e.1.drop place.length, e.2) else none).bind fun (place, node) =>
        match node with
        | .file _ =>
          if isWanted place then some (⟨source.root, source.parts ++ place⟩ : PathName) else none
        | .directory => none) = found? source place := by
    funext e
    obtain ⟨p, node⟩ := e
    rw [found?]
    cases node with
    | directory => split <;> rfl
    | file =>
      dsimp only
      by_cases below : (place.isPrefixOf p && place.length < p.length) = true
      · rw [if_pos below, below]
        rfl
      · rw [if_neg below, Bool.eq_false_iff.2 below]
        rfl
  exact congrArg (fun f => List.mergeSort (tree.nodes.filterMap f) _) same

end Models

namespace FileTree

/-- Whether a file at a place is a model. -/
def isModelPlace (place : Place) : Bool := PathName.isModel ⟨[], place⟩

theorem isModelPlace_drop {place : Place} {n : Nat} (h : n < place.length) :
    isModelPlace (place.drop n) = isModelPlace place := by
  refine PathName.isModel_congr ?_
  rw [PathName.name, PathName.name, List.getLastD_eq_getLast?, List.getLastD_eq_getLast?,
    List.getLast?_drop, if_neg (Nat.not_le.2 h)]

theorem found?_eq_none {place : Place} (other : isModelPlace place = false) (node : Node)
    (source : PathName) (top : Place) : Models.found? source top (place, node) = none := by
  rw [Models.found?]
  cases node with
  | directory => rfl
  | file =>
    dsimp only
    split
    · next there =>
      rw [Bool.and_eq_true, Bool.and_eq_true, decide_eq_true_eq] at there
      have wanted := there.2
      rw [Models.isWanted, Bool.and_eq_true] at wanted
      have model := isModelPlace_drop there.1.2
      rw [isModelPlace, wanted.2, other] at model
      cases model
    · rfl

theorem filterMap_setNode {β : Type} {f : Place × Node → Option β} {place : Place} {node : Node}
    (new : f (place, node) = none) {nodes : List (Place × Node)}
    (old : ∀ e ∈ nodes, e.1 = place → f e = none) :
    (setNode nodes place node).filterMap f = nodes.filterMap f := by
  induction nodes with
  | nil => simp [setNode, new]
  | cons e nodes ih =>
    rw [List.forall_mem_cons] at old
    rw [setNode]
    split
    · next same => rw [List.filterMap_cons_none new, List.filterMap_cons_none (old.1 same)]
    · rw [List.filterMap_cons, List.filterMap_cons, ih old.2]

/-- `after` has the directories and files of `before`, and what is new or rewritten in it is no
model. -/
structure Grows (before after : FileTree) : Prop where
  keeps : before.Keeps (fun p => isModelPlace p = false) after
  stays : ∀ {p bytes}, before.node? p = some (.file bytes) →
    ∃ bytes', after.node? p = some (.file bytes')
  models : ∀ source place,
    Models.inDirectory after source place = Models.inDirectory before source place

variable {tree before between after : FileTree} {path : PathName} {place : Place}

theorem Grows.refl (tree : FileTree) : Grows tree tree :=
  ⟨.refl _ _, fun h => ⟨_, h⟩, fun _ _ => rfl⟩

theorem Grows.trans (h : Grows before between) (h' : Grows between after) : Grows before after where
  keeps := h.keeps.trans h'.keeps
  stays there := by
    obtain ⟨_, there⟩ := h.stays there
    exact h'.stays there
  models source place := (h'.models source place).trans (h.models source place)

theorem file?_eq_some {bytes : List Byte} :
    tree.file? place = some bytes ↔ tree.node? place = some (.file bytes) := by
  rw [file?]
  split
  · next there => simp [there]
  · next other => simp only [reduceCtorEq, false_iff]; exact other bytes

/-- A model file is the same file afterwards. -/
theorem Grows.node? {bytes : List Byte} (h : Grows before after) (model : isModelPlace place = true)
    (there : before.node? place = some (.file bytes)) : after.node? place = some (.file bytes) := by
  rw [← file?_eq_some] at there ⊢
  rw [h.keeps.file place (by simp [model]), there]

theorem grows_set_file (free : tree.node? place ≠ some .directory)
    (other : isModelPlace place = false) (bytes : List Byte) :
    Grows tree (tree.set place (.file bytes)) := by
  have inside : place ≠ [] := by
    rintro rfl
    exact free tree.node?_nil
  refine ⟨(keeps_set_file free bytes).1.mono (by rintro p rfl; exact other), ?_, ?_⟩
  · intro p old there
    rw [node?_set inside]
    split
    · exact ⟨bytes, rfl⟩
    · exact ⟨old, there⟩
  · intro source top
    rw [Models.inDirectory_eq, Models.inDirectory_eq, set,
      filterMap_setNode (found?_eq_none other _ source top)]
    rintro ⟨p, node⟩ - rfl
    exact found?_eq_none other node source top

theorem grows_set_directory (free : tree.node? place = none) :
    Grows tree (tree.set place .directory) := by
  have inside : place ≠ [] := by
    rintro rfl
    rw [node?_nil] at free
    cases free
  have kept := keeps_set_directory free
  refine ⟨kept.mono nofun, fun {p bytes} there => ⟨bytes, ?_⟩, ?_⟩
  · rw [← file?_eq_some] at there ⊢
    rw [kept.file p id, there]
  · intro source top
    rw [Models.inDirectory_eq, Models.inDirectory_eq, set, filterMap_setNode rfl]
    intro e he same
    rw [FileTree.node?, if_neg (by simpa using inside), Option.map_eq_none_iff, List.find?_eq_none]
      at free
    exact absurd same (by simpa using free e he)

theorem grows_makeDirectories (tree : FileTree) (path : PathName) :
    Grows tree (tree.makeDirectories path).1 :=
  rel_makeUpTo .refl .trans grows_set_directory _ _ _

/-! ### Directories that are there -/

theorem look_eq_ok_iff {node : Node} : tree.look path = .ok (place, node) ↔
    tree.resolve path = .ok place ∧ tree.node? place = some node := by
  rw [look, bind_eq_ok]
  constructor
  · rintro ⟨p, there, h⟩
    split at h
    · next found =>
      cases h
      exact ⟨there, found⟩
    · cases h
  · rintro ⟨there, found⟩
    refine ⟨place, there, ?_⟩
    rw [found]
    rfl

theorem Grows.look (h : Grows before after) (there : before.look path = .ok (place, .directory)) :
    after.look path = .ok (place, .directory) := by
  rw [look_eq_ok_iff] at there ⊢
  exact ⟨h.keeps.resolve there.1, h.keeps.directory _ there.2⟩

theorem isDirectory_eq_true_iff :
    tree.isDirectory path = .ok true ↔ ∃ place, tree.look path = .ok (place, .directory) := by
  rw [isDirectory, map_eq_ok]
  constructor
  · rintro ⟨found, probed, is⟩
    rw [Option.any_eq_true] at is
    obtain ⟨⟨place, node⟩, rfl, is⟩ := is
    cases of_decide_eq_true is
    rw [probe] at probed
    split at probed
    · next looked =>
      cases probed
      exact ⟨place, looked⟩
    · split at probed <;> cases probed
    · cases probed
  · rintro ⟨place, looked⟩
    refine ⟨some (place, .directory), ?_, rfl⟩
    rw [probe, looked]

/-- A directory that was made is there. -/
theorem exists_look_of_makeIn (h : tree.makeIn path = (after, .ok ())) :
    ∃ place, after.look path = .ok (place, .directory) := by
  rcases tree.makeIn_cases path with ⟨place, found, free, made⟩ | ⟨outcome, kept, there⟩
  · cases h.symm.trans made
    have inside : place ≠ [] := by
      rintro rfl
      rw [node?_nil] at free
      cases free
    refine ⟨place, look_eq_ok_iff.2 ⟨(keeps_set_directory free).resolve found, ?_⟩⟩
    rw [node?_set inside, if_pos rfl]
  · cases h.symm.trans kept
    exact isDirectory_eq_true_iff.1 (there rfl)

theorem exists_look_of_makeUpTo {n : Nat} (h : makeUpTo path n tree = (after, .ok ())) :
    ∃ place, after.look ⟨path.root, path.parts.take n⟩ = .ok (place, .directory) := by
  cases n with
  | zero => exact exists_look_of_makeIn h
  | succ above =>
    rw [makeUpTo] at h
    split at h
    · split at h
      · exact exists_look_of_makeIn h
      · cases h
    · exact exists_look_of_makeIn h

theorem exists_look_of_makeDirectories (h : tree.makeDirectories path = (after, .ok ())) :
    ∃ place, after.look path = .ok (place, .directory) := by
  have there := exists_look_of_makeUpTo h
  rwa [List.take_length] at there

/-- Directories that are there are not made again. -/
theorem makeDirectories_eq_self (h : tree.look path = .ok (place, .directory)) :
    tree.makeDirectories path = (tree, .ok ()) := by
  have there := look_eq_ok_iff.1 h
  have refused : tree.makeOne path = .error (.system ⟨.exists, path.toText⟩) := by
    rw [makeOne, there.1, ok_bind, there.2]
    rfl
  have last : tree.makeIn path = (tree, .ok ()) := by
    rw [makeIn, refused]
    dsimp only
    rw [isDirectory_eq_true_iff.2 ⟨place, h⟩]
    rfl
  have above : tree.lacksAbove path = false := by
    rw [lacksAbove, refused]
    rfl
  have all (n : Nat) (same : (⟨path.root, path.parts.take n⟩ : PathName) = path) :
      makeUpTo path n tree = (tree, .ok ()) := by
    cases n with
    | zero => exact (congrArg tree.makeIn same).trans last
    | succ n =>
      rw [makeUpTo, same, above]
      exact last
  exact all _ (by rw [List.take_length])

end FileTree

/-! ### What the file system refuses -/

/-- Whether an error is one of a file operation whose directory is there. -/
def Error.refuses : Error → Bool
  | .system e => e.fault ≠ .notFound
  | .unencodable | .zeroInPath | .notAChoice => true
  | _ => false

namespace FileTree

variable {tree after : FileTree} {path : PathName} {place : Place} {e : Error}

theorem refuses_of_checkName (h : checkName path = .error e) : e.refuses = true := by
  rw [checkName] at h
  split at h
  · cases h
    rfl
  · split at h
    · cases h
      rfl
    split at h
    · cases h
      rfl
    · cases h

/-- The place of a name in a directory that is there depends on that of the directory alone. -/
theorem resolve_child (there : tree.look path = .ok (place, .directory)) (name : Text) :
    tree.resolve (path.child name) = (do
      checkName (path.child name)
      Except.mapError (fun fault => .system ⟨fault, (path.child name).toText⟩)
        (if name = ".." then .ok place.dropLast
        else if (nameWidth? name).any (longestName < ·) then .error .nameTooLong
        else .ok (place ++ [name]))) := by
  obtain ⟨found, directory⟩ := look_eq_ok_iff.1 there
  have led : tree.walk (tree.base (path.child name)) path.parts = .ok place :=
    leadsTo_of_resolve found
  rw [resolve]
  rw [PathName.child] at led ⊢
  rw [walk_append, led, ok_bind, walk, directory]
  rfl

/-- In such a directory, no name is missed. -/
theorem refuses_of_resolve_child {name : Text} (there : tree.look path = .ok (place, .directory))
    (h : tree.resolve (path.child name) = .error e) : e.refuses = true := by
  rw [resolve_child there, bind_eq_error] at h
  rcases h with h | ⟨_, -, h⟩
  · exact refuses_of_checkName h
  · obtain ⟨fault, stepped, rfl⟩ := mapError_eq_error.1 h
    split at stepped
    · cases stepped
    split at stepped
    · cases stepped
      rfl
    · cases stepped

theorem refuses_of_makeOne (resolved : ∀ {e}, tree.resolve path = .error e → e.refuses = true)
    (h : tree.makeOne path = .error e) : e.refuses = true := by
  rw [makeOne, bind_eq_error] at h
  rcases h with h | ⟨_, -, h⟩
  · exact resolved h
  · split at h
    · cases h
      rfl
    · cases h

/-- Where the directory above is there, it is not missed. -/
theorem lacksAbove_eq_false (resolved : ∀ {e}, tree.resolve path = .error e → e.refuses = true) :
    tree.lacksAbove path = false := by
  rw [lacksAbove]
  split
  · next made =>
    have other := refuses_of_makeOne resolved made
    rw [Error.refuses, decide_eq_true_eq] at other
    exact decide_eq_false other
  · rfl

/-- Then whatever refuses a directory is no missing one. -/
theorem refuses_of_makeIn (present : tree.lacksAbove path = false)
    (h : tree.makeIn path = (after, .error e)) : e.refuses = true := by
  rw [lacksAbove] at present
  rw [makeIn] at h
  split at h
  · cases h
  · next fault made =>
    rw [made] at present
    have other : fault.fault ≠ .notFound := of_decide_eq_false present
    rcases bind_eq_error.1 (congrArg Prod.snd h) with h | ⟨there, -, h⟩
    · rw [isDirectory, map_eq_error, probe] at h
      split at h
      · cases h
      · split at h
        · next long =>
          cases h
          simp [Error.refuses, long]
        · cases h
      · cases h
    · split at h
      · cases h
      · cases h
        simp [Error.refuses, other]
  · next e' other made =>
    cases h
    rw [makeOne, resolve, bind_eq_error, bind_eq_error] at made
    rcases made with (made | ⟨_, -, made⟩) | ⟨_, -, made⟩
    · exact refuses_of_checkName made
    · obtain ⟨fault, -, rfl⟩ := mapError_eq_error.1 made
      exact absurd rfl (other _)
    · split at made
      · cases made
        rfl
      · cases made

/-- The directory from which a path name starts is there. -/
theorem refuses_of_resolve_take_zero
    (h : tree.resolve ⟨path.root, path.parts.take 0⟩ = .error e) : e.refuses = true := by
  rw [resolve, bind_eq_error] at h
  rcases h with h | ⟨_, -, h⟩
  · exact refuses_of_checkName h
  · cases h

theorem refuses_of_resolve_take_succ {n : Nat}
    (there : tree.look ⟨path.root, path.parts.take n⟩ = .ok (place, .directory))
    (h : tree.resolve ⟨path.root, path.parts.take (n + 1)⟩ = .error e) : e.refuses = true := by
  rw [List.take_add_one] at h
  cases part : path.parts[n]? with
  | none =>
    rw [part, Option.toList_none, List.append_nil, (look_eq_ok_iff.1 there).1] at h
    cases h
  | some name =>
    rw [part] at h
    exact refuses_of_resolve_child there h

/-- Directories that are missing are made, so no other error remains. -/
theorem refuses_of_makeUpTo {n : Nat} (h : makeUpTo path n tree = (after, .error e)) :
    e.refuses = true := by
  induction n generalizing after e with
  | zero => exact refuses_of_makeIn (lacksAbove_eq_false refuses_of_resolve_take_zero) h
  | succ n ih =>
    rw [makeUpTo] at h
    split at h
    · split at h
      · next between made =>
        obtain ⟨place, there⟩ := exists_look_of_makeUpTo made
        exact refuses_of_makeIn (lacksAbove_eq_false (refuses_of_resolve_take_succ there)) h
      · next between e' refused =>
        cases h
        exact ih refused
    · next present => exact refuses_of_makeIn (Bool.eq_false_iff.2 present) h

/-! ### Models are found and read again -/

/-- Whatever is in the tree is in a directory of it, and no name in it is a step up. -/
structure IsWellformed (tree : FileTree) : Prop where
  above : ∀ e ∈ tree.nodes, tree.node? e.1.dropLast = some .directory
  names : ∀ e ∈ tree.nodes, (".." : Text) ∉ e.1

theorem mem_nodes_of_node? {node : Node} (inside : place ≠ [])
    (h : tree.node? place = some node) : (place, node) ∈ tree.nodes := by
  rw [node?, if_neg (by simpa using inside), Option.map_eq_some_iff] at h
  obtain ⟨e, found, rfl⟩ := h
  have same : e.1 = place := by simpa using List.find?_some found
  rw [← same]
  exact List.mem_of_find?_eq_some found

theorem node?_of_mem_nodes {node : Node} (inside : place ≠ []) (h : (place, node) ∈ tree.nodes) :
    tree.node? place = some node := by
  rw [node?, if_neg (by simpa using inside), Option.map_eq_some_iff]
  cases found : tree.nodes.find? fun e => e.1 = place with
  | none => exact absurd (List.find?_eq_none.1 found _ h) (by simp)
  | some e =>
    have same : e.1 = place := by simpa using List.find?_some found
    have one := List.inj_on_of_nodup_map tree.distinct (List.mem_of_find?_eq_some found) h same
    exact ⟨e, rfl, by rw [one]⟩

theorem IsWellformed.above_append (wellformed : tree.IsWellformed) {rest : Place} (more : rest ≠ [])
    {node : Node} (h : (place ++ rest, node) ∈ tree.nodes) :
    tree.node? place = some .directory := by
  induction rest using List.reverseRecOn generalizing node with
  | nil => exact absurd rfl more
  | append_singleton rest name ih =>
    have above := wellformed.above _ h
    rw [← List.append_assoc, List.dropLast_concat] at above
    by_cases last : rest = []
    · rwa [last, List.append_nil] at above
    · exact ih last (mem_nodes_of_node? (by simp [last]) above)

/-- The way to what is in a tree leads through directories, which stay. -/
theorem Grows.walk_eq (h : Grows tree after) (wellformed : tree.IsWellformed) {rest : Place}
    {node : Node} (mem : (place ++ rest, node) ∈ tree.nodes) :
    after.walk place rest = tree.walk place rest ∧
      ∀ p, tree.walk place rest = .ok p → p = place ++ rest := by
  induction rest generalizing place with
  | nil =>
    refine ⟨rfl, fun p walked => ?_⟩
    cases walked
    exact (List.append_nil place).symm
  | cons name rest ih =>
    have here := wellformed.above_append (List.cons_ne_nil name rest) mem
    have notUp : name ≠ ".." := by
      rintro rfl
      exact wellformed.names _ mem (by simp)
    have moved : place ++ name :: rest = place ++ [name] ++ rest := by simp
    rw [walk, walk, here, h.keeps.directory _ here]
    dsimp only
    rw [if_neg notUp, if_neg notUp]
    split
    · exact ⟨rfl, fun _ walked => by cases walked⟩
    · rw [moved] at mem ⊢
      exact ih mem

theorem Grows.resolve_eq {source : PathName} {rest : Place} {node : Node} (h : Grows tree after)
    (wellformed : tree.IsWellformed) (there : tree.look source = .ok (place, .directory))
    (mem : (place ++ rest, node) ∈ tree.nodes) :
    after.resolve ⟨source.root, source.parts ++ rest⟩ =
        tree.resolve ⟨source.root, source.parts ++ rest⟩ ∧
      ∀ p, tree.resolve ⟨source.root, source.parts ++ rest⟩ = .ok p → p = place ++ rest := by
  have found := leadsTo_of_resolve (look_eq_ok_iff.1 there).1
  obtain ⟨same, ends⟩ := h.walk_eq wellformed mem
  have walked : tree.walk (tree.base ⟨source.root, source.parts ++ rest⟩) (source.parts ++ rest) =
      tree.walk place rest := by
    rw [walk_append]
    exact congrArg (· >>= fun there => tree.walk there rest) found
  have walked' : after.walk (after.base ⟨source.root, source.parts ++ rest⟩)
      (source.parts ++ rest) = after.walk place rest := by
    rw [walk_append]
    exact congrArg (· >>= fun there => after.walk there rest) (h.keeps.leadsTo found)
  refine ⟨by rw [resolve, resolve, walked, walked', same], fun p resolved => ?_⟩
  obtain ⟨-, -, resolved⟩ := bind_eq_ok.1 resolved
  rw [walked, mapError_eq_ok] at resolved
  exact ends p resolved

/-- A model in a directory is read from a grown tree as before. -/
theorem Grows.read_eq {source : PathName} {rest : Place} {bytes : List Byte} (h : Grows tree after)
    (wellformed : tree.IsWellformed) (there : tree.look source = .ok (place, .directory))
    (mem : (place ++ rest, .file bytes) ∈ tree.nodes)
    (model : isModelPlace (place ++ rest) = true) :
    after.read ⟨source.root, source.parts ++ rest⟩ =
      tree.read ⟨source.root, source.parts ++ rest⟩ := by
  obtain ⟨same, ends⟩ := h.resolve_eq wellformed there mem
  have inside : place ++ rest ≠ [] := by
    intro none
    rw [none] at model
    revert model
    decide
  have file := node?_of_mem_nodes inside mem
  rw [read, read, FileTree.look, FileTree.look, same]
  cases resolved : tree.resolve ⟨source.root, source.parts ++ rest⟩ with
  | error => rfl
  | ok p =>
    rw [ends p resolved, ok_bind, ok_bind, file, h.node? model file]

end FileTree

/-! ### Batches of models -/

namespace Models

variable {tree after : FileTree} {source : PathName} {place : Place}

/-- What is found in a directory is a model in the tree. -/
theorem exists_of_mem_inDirectory {path : PathName} (h : path ∈ inDirectory tree source place) :
    ∃ rest bytes, path = ⟨source.root, source.parts ++ rest⟩ ∧
      (place ++ rest, .file bytes) ∈ tree.nodes ∧ FileTree.isModelPlace (place ++ rest) = true := by
  rw [inDirectory_eq, List.mem_mergeSort, List.mem_filterMap] at h
  obtain ⟨⟨p, node⟩, mem, found⟩ := h
  rw [found?] at found
  cases node with
  | directory => cases found
  | file bytes =>
    dsimp only at found
    split at found
    · next wanted =>
      cases found
      rw [Bool.and_eq_true, Bool.and_eq_true, decide_eq_true_eq,
        List.isPrefixOf_iff_prefix] at wanted
      obtain ⟨⟨⟨rest, rfl⟩, long⟩, wanted⟩ := wanted
      rw [List.drop_left] at wanted ⊢
      rw [isWanted, Bool.and_eq_true] at wanted
      refine ⟨rest, bytes, rfl, mem, ?_⟩
      rw [← FileTree.isModelPlace_drop long, List.drop_left]
      exact wanted.2
    · cases found

theorem collect_eq (there : tree.look source = .ok (place, .directory)) :
    (collect tree source).outcome = .ok (inDirectory tree source place) := by
  rw [collect, FileTree.probe, there]
  rfl

/-- In a grown tree the same models are found, and the same is said about it. -/
theorem collect_of_grows (h : tree.Grows after)
    (there : tree.look source = .ok (place, .directory)) :
    collect after source = collect tree source := by
  rw [collect, collect, FileTree.probe, FileTree.probe, there, h.look there]
  simp only [h.models]

/-- Models that were found are read from a grown tree as before. -/
theorem read_of_grows (h : tree.Grows after) (wellformed : tree.IsWellformed)
    (there : tree.look source = .ok (place, .directory)) {path : PathName}
    (found : path ∈ inDirectory tree source place) : after.read path = tree.read path := by
  obtain ⟨rest, bytes, rfl, mem, model⟩ := exists_of_mem_inDirectory found
  exact h.read_eq wellformed there mem model

end Models

namespace Batch

variable {g : Generator} {tree tree' : FileTree} {paths : List PathName}

theorem convertFiles_eq (known : InterfaceNames) (policy : Settings.ErrorPolicy)
    (same : ∀ path ∈ paths, tree.read path = tree'.read path) :
    convertFiles g known tree policy paths = convertFiles g known tree' policy paths := by
  induction paths with
  | nil => rfl
  | cons path rest ih =>
    rw [List.forall_mem_cons] at same
    rw [convertFiles, convertFiles, convertFile_congr rfl same.1, ih same.2]

/-- A batch takes nothing from the file tree but the bytes of its files. -/
theorem run_eq (same : ∀ path ∈ paths, tree.read path = tree'.read path) :
    run g tree paths = run g tree' paths := by
  rw [run, run]
  split
  · rfl
  · simp only [convertFiles_eq _ _ same]

end Batch

end SchemaTypings
