import Mathlib.Data.List.Lex
import SchemaTypings.Proofs.JoinedLines
import SchemaTypings.Proofs.ModelNames
import SchemaTypings.Proofs.Repeating

/-!
Which models are found in a directory: all of them, each once, in the order of their path names. The
order is one of whole texts, so that `a-b.js` comes before `a/b.js`, and nothing depends on how the
directories are listed.
-/

namespace SchemaTypings

/-! ### The order of texts -/

namespace Text

/-- `s` has the smaller code point where the two texts part, or is a proper beginning of `t`. -/
def Precedes (s t : Text) : Prop := List.Lex (fun c d => c.val < d.val) s t

variable {s t u : Text}

theorem le_iff : le s t = true ↔ s = t ∨ s.Precedes t := by
  induction s generalizing t with
  | nil =>
    rw [le]
    cases t with
    | nil => simp
    | cons d t => exact iff_of_true rfl (.inr .nil)
  | cons c s ih =>
    cases t with
    | nil => exact iff_of_false nofun (by rintro (none | before) <;> contradiction)
    | cons d t =>
      rw [le, Bool.or_eq_true, Bool.and_eq_true, decide_eq_true_eq, decide_eq_true_eq, ih]
      constructor
      · rintro (smaller | ⟨rfl, rfl | before⟩)
        · exact .inr (.rel smaller)
        · exact .inl rfl
        · exact .inr (.cons before)
      · rintro (same | smaller | before)
        · obtain ⟨rfl, rfl⟩ := List.cons.inj same
          exact .inr ⟨rfl, .inl rfl⟩
        · exact .inl ‹_›
        · exact .inr ⟨rfl, .inr ‹_›⟩

theorem le_total (s t : Text) : (le s t || le t s) = true := by
  induction s generalizing t with
  | nil => rfl
  | cons c s ih =>
    cases t with
    | nil => rfl
    | cons d t =>
      have total := ih t
      simp only [le, Bool.or_eq_true, Bool.and_eq_true, decide_eq_true_eq] at total ⊢
      rcases Nat.lt_trichotomy c.val d.val with smaller | same | larger
      · exact .inl (.inl smaller)
      · obtain rfl := CodePoint.ext_val same
        exact total.imp (fun h => .inr ⟨rfl, h⟩) fun h => .inr ⟨rfl, h⟩
      · exact .inr (.inl larger)

theorem le_trans (h : le s t = true) (h' : le t u = true) : le s u = true := by
  induction s generalizing t u with
  | nil => rfl
  | cons c s ih =>
    cases t with
    | nil => cases h
    | cons d t =>
      cases u with
      | nil => cases h'
      | cons e u =>
        simp only [le, Bool.or_eq_true, Bool.and_eq_true, decide_eq_true_eq] at h h' ⊢
        rcases h with smaller | ⟨rfl, h⟩
        · rcases h' with smaller' | ⟨rfl, -⟩
          · exact .inl (Nat.lt_trans smaller smaller')
          · exact .inl smaller
        · exact h'.imp_right fun h' => ⟨h'.1, ih h h'.2⟩

theorem Precedes.not_symm (h : s.Precedes t) : ¬t.Precedes s := by
  have asymm : Std.Asymm fun c d : CodePoint => c.val < d.val := ⟨fun _ _ => Nat.lt_asymm⟩
  exact Std.Asymm.asymm (r := List.Lex fun c d : CodePoint => c.val < d.val) _ _ h

theorem le_antisymm (h : le s t = true) (h' : le t s = true) : s = t := by
  rcases le_iff.1 h with same | before
  · exact same
  · rcases le_iff.1 h' with same | before'
    · exact same.symm
    · exact absurd before' before.not_symm

/-! ### Path names below a directory -/

theorem splitOn_append_cons {d : CodePoint} (h : ∀ c ∈ s, c ≠ d) (t : Text) :
    splitOn d (s ++ d :: t) = s :: splitOn d t := by
  induction s with
  | nil => exact splitOn_cons_self d t
  | cons c s ih =>
    rw [List.forall_mem_cons] at h
    obtain ⟨first, others, cut, cut'⟩ := exists_splitOn_cons h.1 (s ++ d :: t)
    rw [ih h.2] at cut
    obtain ⟨rfl, rfl⟩ := List.cons.inj cut
    exact cut'

/-- Parts that are joined by a separator are found again between the separators. -/
theorem splitOn_join {d : CodePoint} {parts : List Text} (some : parts ≠ [])
    (h : ∀ part ∈ parts, ∀ c ∈ part, c ≠ d) : splitOn d (join [d] parts) = parts := by
  induction parts with
  | nil => exact absurd rfl some
  | cons part parts ih =>
    rw [List.forall_mem_cons] at h
    cases parts with
    | nil => rw [join_singleton, splitOn_eq_singleton h.1]
    | cons next parts =>
      rw [join_cons_cons, List.singleton_append, splitOn_append_cons h.1,
        ih (List.cons_ne_nil next parts) h.2]

/-- Joined path names that start alike are told apart by what follows. -/
theorem join_append_inj {d : CodePoint} {front a b : List Text} (ha : a ≠ []) (hb : b ≠ [])
    (partsA : ∀ part ∈ a, ∀ c ∈ part, c ≠ d) (partsB : ∀ part ∈ b, ∀ c ∈ part, c ≠ d)
    (h : join [d] (front ++ a) = join [d] (front ++ b)) : a = b := by
  induction front with
  | nil =>
    rw [List.nil_append, List.nil_append] at h
    rw [← splitOn_join ha partsA, h, splitOn_join hb partsB]
  | cons part front ih =>
    have behind : ∀ {rest : List Text}, rest ≠ [] →
        join [d] (part :: front ++ rest) = part ++ ([d] ++ join [d] (front ++ rest)) := by
      intro rest some
      obtain ⟨next, others, eq⟩ :=
        List.exists_cons_of_ne_nil (List.append_ne_nil_of_right_ne_nil front some)
      rw [List.cons_append, eq, join_cons_cons]
    rw [behind ha, behind hb] at h
    exact ih (List.append_cancel_left (List.append_cancel_left h))

end Text

theorem PathName.toText_below {source : PathName} {rest : Place} (some : rest ≠ []) :
    PathName.toText ⟨source.root, source.parts ++ rest⟩ =
      source.root ++ Text.join "/" (source.parts ++ rest) := by
  rw [toText, if_neg]
  simp [some]

/-! ### Models below a directory -/

namespace FileTree

/-- The names in the tree are those of a file system: none has a slash in it. -/
def HasPlainNames (tree : FileTree) : Prop :=
  ∀ e ∈ tree.nodes, ∀ name ∈ e.1, ∀ c ∈ name, c ≠ '/'

/-- A directory of this name is searched: it holds no packages and is not hidden. -/
def IsSearched (dir : Text) : Prop :=
  dir ≠ "node_modules" ∧ dir.head? ≠ some ('.' : CodePoint)

/-- `rest` leads from `place` to a file with the name of a model, through directories that are
searched. -/
structure IsModelBelow (tree : FileTree) (place rest : Place) : Prop where
  file : ∃ bytes, tree.node? (place ++ rest) = some (.file bytes)
  searched : ∃ above name, rest = above ++ [name] ∧ IsModelName name ∧ ∀ dir ∈ above, IsSearched dir

variable {tree other : FileTree}

/-- Trees with the same nodes have the same at each place. -/
theorem node?_congr (h : other.nodes.Perm tree.nodes) (place : Place) :
    other.node? place = tree.node? place := by
  by_cases inside : place = []
  · rw [inside, node?_nil, node?_nil]
  · ext node
    constructor
    · exact fun there => node?_of_mem_nodes inside (h.mem_iff.1 (mem_nodes_of_node? inside there))
    · exact fun there => node?_of_mem_nodes inside (h.mem_iff.2 (mem_nodes_of_node? inside there))

theorem probe_congr (home : other.home = tree.home) (h : other.nodes.Perm tree.nodes)
    (path : PathName) : other.probe path = tree.probe path := by
  have same := node?_congr h
  simp only [probe, look, resolve, base, home, walk_congr same, same]

end FileTree

namespace Models

variable {tree other : FileTree} {source : PathName} {place : Place}

theorem isSkipped_eq_false_iff {dir : Text} :
    isSkipped dir = false ↔ FileTree.IsSearched dir := by
  have hidden : Text.startsWith dir "." = true ↔ dir.head? = some ('.' : CodePoint) := by
    rw [Text.startsWith, List.isPrefixOf_iff_prefix]
    cases dir with
    | nil => exact iff_of_false (fun h => List.cons_ne_nil _ _ (List.prefix_nil.1 h)) (by simp)
    | cons c dir =>
      rw [List.head?_cons, Option.some.injEq, eq_comm]
      exact List.cons_prefix_cons.trans (and_iff_left List.nil_prefix)
  rw [isSkipped, Bool.or_eq_false_iff, decide_eq_false_iff_not, FileTree.IsSearched, ne_eq, ne_eq,
    ← hidden, Bool.not_eq_true]

theorem isWanted_iff {rest : Place} (inside : rest ≠ []) : isWanted rest = true ↔
    ∃ above name, rest = above ++ [name] ∧ IsModelName name ∧
      ∀ dir ∈ above, FileTree.IsSearched dir := by
  have wanted : ∀ above name, isWanted (above ++ [name]) = true ↔
      IsModelName name ∧ ∀ dir ∈ above, FileTree.IsSearched dir := by
    intro above name
    rw [isWanted, Bool.and_eq_true, Bool.not_eq_true', List.any_eq_false, PathName.isModel_iff,
      PathName.name, List.getLastD_concat, List.dropLast_concat, and_comm]
    simp only [Bool.not_eq_true, isSkipped_eq_false_iff]
  constructor
  · intro h
    rw [← List.dropLast_append_getLast inside, wanted] at h
    exact ⟨_, _, (List.dropLast_append_getLast inside).symm, h⟩
  · rintro ⟨above, name, rfl, h⟩
    exact (wanted above name).2 h

theorem found?_eq_some_iff {e : Place × Node} {path : PathName} :
    found? source place e = some path ↔ ∃ rest bytes, e = (place ++ rest, .file bytes) ∧
      rest ≠ [] ∧ isWanted rest = true ∧ path = ⟨source.root, source.parts ++ rest⟩ := by
  obtain ⟨p, node⟩ := e
  rw [found?]
  cases node with
  | directory => simp
  | file bytes =>
    dsimp only
    rw [Option.ite_none_right_eq_some, Bool.and_eq_true, Bool.and_eq_true, decide_eq_true_eq,
      List.isPrefixOf_iff_prefix]
    constructor
    · rintro ⟨⟨⟨⟨rest, rfl⟩, longer⟩, wanted⟩, same⟩
      rw [List.drop_left] at wanted same
      refine ⟨rest, bytes, rfl, ?_, wanted, (Option.some.inj same).symm⟩
      rintro rfl
      simp at longer
    · rintro ⟨rest, _, same, inside, wanted, rfl⟩
      obtain ⟨rfl, same⟩ := Prod.mk.inj same
      rw [List.drop_left]
      refine ⟨⟨⟨List.prefix_append place rest, ?_⟩, wanted⟩, rfl⟩
      rw [List.length_append]
      exact Nat.lt_add_of_pos_right (List.length_pos_iff.2 inside)

/-- The models of a directory are those below it. -/
theorem mem_inDirectory_iff {path : PathName} : path ∈ inDirectory tree source place ↔
    ∃ rest, path = ⟨source.root, source.parts ++ rest⟩ ∧ tree.IsModelBelow place rest := by
  rw [inDirectory_eq, List.mem_mergeSort, List.mem_filterMap]
  constructor
  · rintro ⟨e, mem, found⟩
    obtain ⟨rest, bytes, rfl, inside, wanted, rfl⟩ := found?_eq_some_iff.1 found
    have away : place ++ rest ≠ [] := List.append_ne_nil_of_right_ne_nil place inside
    exact ⟨rest, rfl, ⟨bytes, FileTree.node?_of_mem_nodes away mem⟩, (isWanted_iff inside).1 wanted⟩
  · rintro ⟨rest, rfl, ⟨bytes, there⟩, searched⟩
    have inside : rest ≠ [] := by
      obtain ⟨above, name, rfl, -⟩ := searched
      simp
    have away : place ++ rest ≠ [] := List.append_ne_nil_of_right_ne_nil place inside
    exact ⟨_, FileTree.mem_nodes_of_node? away there, found?_eq_some_iff.2
      ⟨rest, bytes, rfl, inside, (isWanted_iff inside).2 searched, rfl⟩⟩

/-- What is found at different places has different path names, also as texts. -/
theorem place_eq_of_found? (plain : tree.HasPlainNames) {e e' : Place × Node} (mem : e ∈ tree.nodes)
    (mem' : e' ∈ tree.nodes) {path path' : PathName} (found : found? source place e = some path)
    (found' : found? source place e' = some path') (same : path.toText = path'.toText) :
    e.1 = e'.1 := by
  obtain ⟨rest, bytes, rfl, inside, -, rfl⟩ := found?_eq_some_iff.1 found
  obtain ⟨rest', bytes', rfl, inside', -, rfl⟩ := found?_eq_some_iff.1 found'
  rw [PathName.toText_below inside, PathName.toText_below inside'] at same
  have parts : ∀ {rest : Place} {node : Node}, (place ++ rest, node) ∈ tree.nodes →
      ∀ part ∈ rest, ∀ c ∈ part, c ≠ '/' := fun mem part within =>
    plain _ mem part (List.mem_append_right place within)
  exact congrArg (place ++ ·)
    (Text.join_append_inj inside inside' (parts mem) (parts mem') (List.append_cancel_left same))

theorem nodup_toText_inDirectory (plain : tree.HasPlainNames) (source : PathName) (place : Place) :
    ((inDirectory tree source place).map PathName.toText).Nodup := by
  have distinct := tree.distinct
  rw [List.Nodup, List.pairwise_map] at distinct
  rw [inDirectory_eq, ((List.mergeSort_perm _ _).map PathName.toText).nodup_iff, List.Nodup,
    List.pairwise_map, List.pairwise_filterMap]
  refine distinct.imp_of_mem fun mem mem' other path found path' found' same => other ?_
  exact place_eq_of_found? plain mem mem' found found' same

theorem pairwise_le_inDirectory (tree : FileTree) (source : PathName) (place : Place) :
    (inDirectory tree source place).Pairwise fun p q => Text.le p.toText q.toText = true := by
  rw [inDirectory_eq]
  exact List.pairwise_mergeSort (fun p q r => Text.le_trans (s := p.toText) (t := q.toText))
    (fun p q => Text.le_total p.toText q.toText) _

/-- They are in the strict order of their path names. -/
theorem pairwise_precedes_inDirectory (plain : tree.HasPlainNames) :
    ((inDirectory tree source place).map PathName.toText).Pairwise Text.Precedes := by
  have different := nodup_toText_inDirectory plain source place
  rw [List.Nodup, List.pairwise_map] at different
  rw [List.pairwise_map]
  refine ((pairwise_le_inDirectory tree source place).and different).imp ?_
  rintro p q ⟨le, other⟩
  exact (Text.le_iff.1 le).resolve_left other

theorem inDirectory_congr (plain : tree.HasPlainNames) (h : other.nodes.Perm tree.nodes) :
    inDirectory other source place = inDirectory tree source place := by
  have perm : (inDirectory other source place).Perm (inDirectory tree source place) := by
    rw [inDirectory_eq, inDirectory_eq]
    exact (List.mergeSort_perm _ _).trans
      ((h.filterMap _).trans (List.mergeSort_perm _ _).symm)
  refine perm.eq_of_pairwise ?_ (pairwise_le_inDirectory ..) (pairwise_le_inDirectory ..)
  intro p q mem mem' le le'
  exact List.inj_on_of_nodup_map (nodup_toText_inDirectory plain source place)
    (perm.mem_iff.1 mem) mem' (Text.le_antisymm le le')

theorem collect_congr (plain : tree.HasPlainNames) (home : other.home = tree.home)
    (h : other.nodes.Perm tree.nodes) (source : PathName) :
    collect other source = collect tree source := by
  have found : ∀ place, inDirectory other source place = inDirectory tree source place :=
    fun _ => inDirectory_congr plain h
  simp only [collect, FileTree.probe_congr home h, found]

/-- Of a directory, all models below it are collected, in the strict order of their path names, so
that each is there once. In which order the directories are listed makes no difference. -/
theorem exists_collect (plain : tree.HasPlainNames)
    (there : tree.look source = .ok (place, .directory)) :
    ∃ files, (collect tree source).outcome = .ok files ∧
      (files.map PathName.toText).Pairwise Text.Precedes ∧
      (∀ path, path ∈ files ↔
        ∃ rest, path = ⟨source.root, source.parts ++ rest⟩ ∧ tree.IsModelBelow place rest) ∧
      ∀ other : FileTree, other.home = tree.home → other.nodes.Perm tree.nodes →
        collect other source = collect tree source :=
  ⟨inDirectory tree source place, collect_eq there, pairwise_precedes_inDirectory plain,
    fun _ => mem_inDirectory_iff, fun _ home h => collect_congr plain home h source⟩

/-- A directory with a model in a directory of its own, and with a file that is all suffix. -/
def someTree : FileTree where
  nodes := [(["app"], .directory), (["app", ".js"], .file []), (["app", "a"], .directory),
    (["app", "a", ".b.JS"], .file []), (["app", "node_modules"], .directory),
    (["app", "node_modules", "c.js"], .file []), (["app", "d.D.ts"], .file [])]
  home := []
  distinct := by decide

theorem exists_collect_someTree : ∃ files,
    (collect someTree ⟨[], ["app"]⟩).outcome = .ok files ∧
      (files.map PathName.toText).Pairwise Text.Precedes ∧
      (⟨[], ["app", "a", ".b.JS"]⟩ : PathName) ∈ files ∧
      (⟨[], ["app", ".js"]⟩ : PathName) ∉ files := by
  have plain : someTree.HasPlainNames := by
    rw [FileTree.HasPlainNames]
    decide
  have there : someTree.look ⟨[], ["app"]⟩ = .ok (["app"], .directory) := rfl
  obtain ⟨files, collected, ordered, exact, -⟩ := exists_collect plain there
  have hidden : IsModelName ".b.JS" :=
    PathName.isModel_iff.1 (by decide : PathName.isModel ⟨[], [".b.JS"]⟩ = true)
  have onlySuffix : ¬IsModelName ".js" := fun h =>
    absurd (PathName.isModel_iff.2 h : PathName.isModel ⟨[], [".js"]⟩ = true) (by decide)
  refine ⟨files, collected, ordered, ?_, fun mem => ?_⟩
  · have searched : ∀ dir ∈ [Text.ofString "a"], FileTree.IsSearched dir :=
      List.forall_mem_singleton.2 (isSkipped_eq_false_iff.1 (by decide))
    exact (exact _).2 ⟨["a", ".b.JS"], rfl, ⟨[], rfl⟩, ["a"], ".b.JS", rfl, hidden, searched⟩
  · obtain ⟨rest, same, -, above, name, rfl, isName, -⟩ := (exact _).1 mem
    have last := congrArg PathName.name same
    rw [PathName.name, PathName.name, ← List.append_assoc, List.getLastD_concat] at last
    rw [← last] at isName
    exact onlySuffix isName

end Models

end SchemaTypings
