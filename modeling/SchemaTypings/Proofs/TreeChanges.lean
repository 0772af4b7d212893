import SchemaTypings.Files.Output
import SchemaTypings.Proofs.Outcomes

/-!
What an operation leaves of a file tree. Directories are never taken away, so a path name that leads
to a place still leads there afterwards, and only the file that is written changes. It has the whole
text then, a first part of it if the device fails, and nothing changes if it cannot be opened.
-/

namespace SchemaTypings

namespace FileTree

/-- The bytes of the file at a place, if there is one. -/
def file? (tree : FileTree) (place : Place) : Option (List Byte) :=
  match tree.node? place with
  | some (.file bytes) => some bytes
  | _ => none

/-- `after` has all directories of `before`, and the same files but for the places in `changed`. -/
structure Keeps (changed : Place → Prop) (before after : FileTree) : Prop where
  home : after.home = before.home
  device : after.device = before.device
  directory : ∀ p, before.node? p = some .directory → after.node? p = some .directory
  file : ∀ p, ¬changed p → after.file? p = before.file? p

/-- A path name leads to a place, whether or not something is there. -/
def LeadsTo (tree : FileTree) (path : PathName) (place : Place) : Prop :=
  tree.walk (tree.base path) path.parts = .ok place

section

variable {changed changed' : Place → Prop} {tree before between after : FileTree} {path : PathName}
  {place : Place}

theorem Keeps.refl (changed : Place → Prop) (tree : FileTree) : Keeps changed tree tree :=
  ⟨rfl, rfl, fun _ h => h, fun _ _ => rfl⟩

theorem Keeps.trans (h : Keeps changed before between) (h' : Keeps changed between after) :
    Keeps changed before after :=
  ⟨h'.home.trans h.home, h'.device.trans h.device,
    fun p hp => h'.directory p (h.directory p hp), fun p hp => (h'.file p hp).trans (h.file p hp)⟩

theorem Keeps.mono (h : Keeps changed before after) (hc : ∀ p, changed p → changed' p) :
    Keeps changed' before after :=
  ⟨h.home, h.device, h.directory, fun p hp => h.file p fun there => hp (hc p there)⟩

/-! ### The place of a path name -/

theorem walk_append (here : Place) (a b : List Text) :
    tree.walk here (a ++ b) = (tree.walk here a >>= fun there => tree.walk there b) := by
  induction a generalizing here with
  | nil => rw [List.nil_append, walk, ok_bind]
  | cons part rest ih =>
    rw [List.cons_append, walk, walk]
    split
    · rfl
    · rfl
    · split
      · exact ih _
      split
      · rfl
      · exact ih _

/-- On the way there are directories only, and they stay. -/
theorem Keeps.walk (h : Keeps changed before after) {here : Place} {parts : List Text}
    (hw : before.walk here parts = .ok place) : after.walk here parts = .ok place := by
  induction parts generalizing here with
  | nil =>
    rw [FileTree.walk] at hw ⊢
    exact hw
  | cons part rest ih =>
    rw [FileTree.walk] at hw ⊢
    split at hw
    · cases hw
    · cases hw
    · next there =>
      rw [h.directory here there]
      dsimp only
      split at hw
      · next up => rw [if_pos up, ih hw]
      split at hw
      · cases hw
      · next up short => rw [if_neg up, if_neg short, ih hw]

theorem Keeps.leadsTo (h : Keeps changed before after) (hp : before.LeadsTo path place) :
    after.LeadsTo path place := by
  have base : after.base path = before.base path := by rw [base, base, h.home]
  rw [LeadsTo, base]
  exact h.walk hp

theorem leadsTo_of_resolve (h : tree.resolve path = .ok place) : tree.LeadsTo path place := by
  obtain ⟨-, -, h⟩ := bind_eq_ok.1 h
  rw [LeadsTo]
  cases walked : tree.walk (tree.base path) path.parts with
  | ok there =>
    rw [walked] at h
    cases h
    rfl
  | error fault =>
    rw [walked] at h
    cases h

/-- A name that is no step up leads to a place right below that of the directory. -/
theorem LeadsTo.of_child {name : Text} (hn : name ≠ "..")
    (h : tree.LeadsTo (path.child name) place) :
    ∃ above, tree.LeadsTo path above ∧ place = above ++ [name] := by
  rw [LeadsTo, PathName.child, walk_append] at h
  obtain ⟨above, there, h⟩ := bind_eq_ok.1 h
  refine ⟨above, there, ?_⟩
  rw [walk] at h
  split at h
  · cases h
  · cases h
  rw [if_neg hn] at h
  split at h
  · cases h
  · rw [walk] at h
    exact (Except.ok.inj h).symm

/-! ### One node -/

theorem node?_nil (tree : FileTree) : tree.node? [] = some .directory := rfl

/-- A file takes no place of a directory. -/
theorem keeps_set_file (free : tree.node? place ≠ some .directory) (bytes : List Byte) :
    Keeps (· = place) tree (tree.set place (.file bytes)) ∧
      (tree.set place (.file bytes)).file? place = some bytes := by
  have inside : place ≠ [] := by
    rintro rfl
    exact free tree.node?_nil
  refine ⟨⟨rfl, rfl, fun p hp => ?_, fun p hp => ?_⟩, ?_⟩
  · rw [node?_set inside, if_neg (by rintro rfl; exact free hp)]
    exact hp
  · rw [file?, file?, node?_set inside, if_neg (Ne.symm hp)]
  · rw [file?, node?_set inside, if_pos rfl]

/-- A new directory takes no place of a file. -/
theorem keeps_set_directory (free : tree.node? place = none) :
    Keeps (fun _ => False) tree (tree.set place .directory) := by
  have inside : place ≠ [] := by
    rintro rfl
    rw [node?_nil] at free
    cases free
  refine ⟨rfl, rfl, fun p hp => ?_, fun p _ => ?_⟩
  · rw [node?_set inside]
    split
    · rfl
    · exact hp
  · rw [file?, file?, node?_set inside]
    by_cases same : place = p
    · rw [if_pos same, ← same, free]
    · rw [if_neg same]

/-! ### Operations -/

theorem openFile_eq_ok_iff : tree.openFile path = .ok place ↔
    tree.resolve path = .ok place ∧ tree.node? place ≠ some .directory := by
  rw [openFile, bind_eq_ok]
  constructor
  · rintro ⟨there, found, h⟩
    split at h
    · cases h
    · next free =>
      cases h
      exact ⟨found, free⟩
  · rintro ⟨found, free⟩
    refine ⟨place, found, ?_⟩
    split
    · next directory => exact absurd directory free
    · rfl

/-- Whatever is stored in a file that was opened, that file alone changes. -/
theorem keeps_of_openFile (h : tree.openFile path = .ok place) (bytes : List Byte) :
    tree.LeadsTo path place ∧ Keeps (· = place) tree (tree.set place (.file bytes)) ∧
      (tree.set place (.file bytes)).file? place = some bytes := by
  obtain ⟨found, free⟩ := openFile_eq_ok_iff.1 h
  exact ⟨leadsTo_of_resolve found, keeps_set_file free bytes⟩

theorem exists_of_append {bytes : List Byte} (h : tree.append path bytes = .ok after) :
    ∃ place, tree.LeadsTo path place ∧ Keeps (· = place) tree after := by
  obtain ⟨place, opened, h⟩ := bind_eq_ok.1 h
  cases h
  obtain ⟨there, kept, -⟩ := keeps_of_openFile opened _
  exact ⟨place, there, kept⟩

theorem exists_of_makeOne (h : tree.makeOne path = .ok after) :
    ∃ place, tree.resolve path = .ok place ∧ tree.node? place = none ∧
      tree.set place .directory = after := by
  obtain ⟨place, there, h⟩ := bind_eq_ok.1 h
  split at h
  · cases h
  · next free =>
    cases h
    exact ⟨place, there, free, rfl⟩

/-- A directory is new, or else the tree stays as it is, and is fine only if a directory is there. -/
theorem makeIn_cases (tree : FileTree) (path : PathName) :
    (∃ place, tree.resolve path = .ok place ∧ tree.node? place = none ∧
        tree.makeIn path = (tree.set place .directory, .ok ())) ∨
      ∃ outcome, tree.makeIn path = (tree, outcome) ∧
        (outcome = .ok () → tree.isDirectory path = .ok true) := by
  rw [makeIn]
  split
  · next after made =>
    obtain ⟨place, found, free, rfl⟩ := exists_of_makeOne made
    exact .inl ⟨place, found, free, rfl⟩
  · refine .inr ⟨_, rfl, fun fine => ?_⟩
    obtain ⟨there, is, fine⟩ := bind_eq_ok.1 fine
    split at fine
    · next yes =>
      subst yes
      exact is
    · cases fine
  · exact .inr ⟨_, rfl, nofun⟩

section

variable {R : FileTree → FileTree → Prop} (refl : ∀ t, R t t)
  (trans : ∀ {t u v}, R t u → R u v → R t v)
  (step : ∀ {t place}, t.node? place = none → R t (t.set place .directory))

include refl step

theorem rel_makeIn (tree : FileTree) (path : PathName) : R tree (tree.makeIn path).1 := by
  rcases tree.makeIn_cases path with ⟨place, -, free, made⟩ | ⟨outcome, kept, -⟩
  · rw [made]
    exact step free
  · rw [kept]
    exact refl tree

include trans

/-- A relation that every new directory is in holds of all of them together. -/
theorem rel_makeUpTo (path : PathName) (n : Nat) (tree : FileTree) :
    R tree (makeUpTo path n tree).1 := by
  induction n with
  | zero => exact rel_makeIn refl step _ _
  | succ above ih =>
    rw [makeUpTo]
    split
    · split
      · next between made =>
        rw [made] at ih
        exact trans ih (rel_makeIn refl step _ _)
      · next between e refused =>
        rw [refused] at ih
        exact ih
    · exact rel_makeIn refl step _ _

end

theorem keeps_makeDirectories (tree : FileTree) (path : PathName) :
    Keeps (fun _ => False) tree (tree.makeDirectories path).1 :=
  rel_makeUpTo (.refl _) .trans keeps_set_directory _ _ _

end

end FileTree

namespace Output

/-- What is written of a text: each line feed in it as `ending`, unless that is empty. -/
def written (text ending : Text) : Text :=
  text.flatMap fun c : CodePoint => if c = '\n' ∧ ending ≠ [] then ending else [c]

theorem written_eq (text ending : Text) :
    written text ending = if ending.isEmpty then text else text.withLineEnds ending := by
  by_cases plain : ending = []
  · subst plain
    simp [written]
  · rw [if_neg (by simpa using plain)]
    simp [written, Text.withLineEnds, plain]

/-- `after` comes from `before` by opening the file at `path`, which is at `place` and then holds the
bytes `held`. -/
structure Opens (before : FileTree) (path : PathName) (place : Place) (held : List Byte)
    (after : FileTree) : Prop where
  there : after.LeadsTo path place
  kept : before.Keeps (· = place) after
  file : after.file? place = some held

/-- What a write leaves, and what becomes of it. -/
inductive Writes (tree : FileTree) (path : PathName) (text ending : Text) :
    FileTree → Except Error Unit → Prop
  /-- The file cannot be opened, and no file changes. -/
  | refused {after : FileTree} {e : Error} (kept : tree.Keeps (fun _ => False) after) :
    Writes tree path text ending after (.error e)
  /-- The text cannot be encoded, and the file is empty. -/
  | emptied {after : FileTree} {e : Error} {place : Place} (opens : Opens tree path place [] after)
    (own : ∀ f, e ≠ .system f) : Writes tree path text ending after (.error e)
  /-- The device fails, and the file holds what it stored. -/
  | broken {after : FileTree} {place : Place} {bytes : List Byte} {f : Failure}
    (encoded : Utf8.encode? (written text ending) = some bytes)
    (fails : tree.device place bytes = some f)
    (opens : Opens tree path place (bytes.take f.stored) after) :
    Writes tree path text ending after (.error (.system f.error))
  /-- The file holds the encoded text. -/
  | whole {after : FileTree} {place : Place} {bytes : List Byte}
    (encoded : Utf8.encode? (written text ending) = some bytes)
    (sound : tree.device place bytes = none) (opens : Opens tree path place bytes after) :
    Writes tree path text ending after (.ok ())

theorem writes (tree : FileTree) (path : PathName) (text ending : Text) :
    Writes tree path text ending (write tree path text ending).tree
      (write tree path text ending).outcome.outcome := by
  have made := tree.keeps_makeDirectories path.parent
  rw [write]
  split
  · next after e refused =>
    rw [refused] at made
    exact .refused made
  next between directories =>
  rw [directories] at made
  split
  · exact .refused made
  next place opened =>
  have opens (held : List Byte) : Opens tree path place held (between.set place (.file held)) := by
    obtain ⟨there, kept, file⟩ := FileTree.keeps_of_openFile opened held
    exact ⟨kept.leadsTo there, (made.mono nofun).trans kept, file⟩
  split
  · exact .emptied (opens []) (by simp)
  split
  · exact .emptied (opens []) (by simp)
  next bytes encoded =>
  rw [← written_eq] at encoded
  rw [FileTree.stored]
  cases device : between.device place bytes with
  | none => exact .whole encoded (made.device ▸ device) (opens bytes)
  | some f => exact .broken encoded (made.device ▸ device) (opens _)

end Output

end SchemaTypings
