import SchemaTypings.Proofs.TreeGrowth
import SchemaTypings.Proofs.Writing

/-!
Computations that repeat: run again in the tree that the first run left in the end, they end as the
first time, and whatever they write is what was there at the same step of the first run.
-/

namespace SchemaTypings

/-! ### Trees of a second run -/

namespace FileTree

/-- `again` is `final`, but for files that are so far as in `now`. -/
structure Follows (final now again : FileTree) : Prop where
  grows : Grows final again
  node : ∀ p, again.node? p = final.node? p ∨
    ∃ bytes, again.node? p = some (.file bytes) ∧ now.node? p = some (.file bytes)

variable {final now again between after : FileTree} {path : PathName} {place top : Place}
  {bytes : List Byte}

theorem Follows.refl (final now : FileTree) : Follows final now final :=
  ⟨.refl _, fun _ => .inl rfl⟩

/-- In the end there is no difference. -/
theorem Follows.node?_eq (h : Follows final final again) (p : Place) :
    again.node? p = final.node? p := by
  rcases h.node p with same | ⟨bytes, there, same⟩
  · exact same
  · rw [there, same]

/-- What is at the places of a tree decides where path names lead. -/
theorem walk_congr (same : ∀ p, again.node? p = now.node? p) (here : Place) (parts : List Text) :
    again.walk here parts = now.walk here parts := by
  induction parts generalizing here with
  | nil => rfl
  | cons part rest ih => simp only [walk, same, ih]

/-- It decides what is read there, too. -/
theorem read_congr (home : again.home = now.home) (same : ∀ p, again.node? p = now.node? p)
    (path : PathName) : again.read path = now.read path := by
  simp only [read, look, resolve, base, home, walk_congr same, same]

/-- New directories make no difference. -/
theorem Follows.makeDirectories (h : Follows final now again) (path : PathName) :
    Follows final (now.makeDirectories path).1 again := by
  refine ⟨h.grows, fun p => (h.node p).imp_right ?_⟩
  rintro ⟨bytes, there, same⟩
  refine ⟨bytes, there, ?_⟩
  rw [← file?_eq_some] at same ⊢
  rw [(now.keeps_makeDirectories path).file p id, same]

/-- A file that is written in both trees makes no difference. -/
theorem Follows.set (h : Follows final now again) (free : again.node? place ≠ some .directory)
    (other : isModelPlace place = false) :
    Follows final (now.set place (.file bytes)) (again.set place (.file bytes)) := by
  have inside : place ≠ [] := by
    rintro rfl
    exact free again.node?_nil
  refine ⟨h.grows.trans (grows_set_file free other bytes), fun p => ?_⟩
  rw [node?_set inside, node?_set inside]
  split
  · exact .inr ⟨bytes, rfl, rfl⟩
  · exact h.node p

/-! ### Files in a directory that is there -/

theorem openFile_eq_error_iff {e : Error} : now.openFile path = .error e ↔
    now.resolve path = .error e ∨ ∃ place, now.resolve path = .ok place ∧
      now.node? place = some .directory ∧ .system ⟨.isADirectory, path.toText⟩ = e := by
  rw [openFile, bind_eq_error]
  refine or_congr_right (exists_congr fun place => and_congr_right fun _ => ?_)
  split
  · next there => exact ⟨fun h => ⟨there, Except.error.inj h⟩, fun h => congrArg _ h.2⟩
  · next other =>
    refine ⟨fun h => ?_, fun h => absurd h.1 other⟩
    cases h

/-- A file in a directory is refused again if it is refused once. -/
theorem Grows.openFile_eq_error {name : Text} {e : Error} (h : Grows now again)
    (there : now.look path = .ok (top, .directory))
    (refused : now.openFile (path.child name) = .error e) :
    again.openFile (path.child name) = .error e := by
  rw [openFile_eq_error_iff] at refused ⊢
  rw [resolve_child (h.look there), ← resolve_child there]
  refine refused.imp_right ?_
  rintro ⟨place, found, directory, rfl⟩
  exact ⟨place, found, h.keeps.directory _ directory, rfl⟩

/-- A file that was written in a directory can be opened again. -/
theorem Grows.openFile_child {name : Text} (opened : now.openFile (path.child name) = .ok place)
    (h : Grows (now.set place (.file bytes)) again) :
    again.openFile (path.child name) = .ok place := by
  obtain ⟨found, free⟩ := openFile_eq_ok_iff.1 opened
  have inside : place ≠ [] := by
    rintro rfl
    exact free now.node?_nil
  refine openFile_eq_ok_iff.2 ⟨h.keeps.resolve ((keeps_set_file free bytes).1.resolve found), ?_⟩
  obtain ⟨_, there⟩ := h.stays (p := place) (by rw [node?_set inside, if_pos rfl])
  rw [there]
  nofun

/-- A file that is no model by its name is none at its place. -/
theorem isModelPlace_of_openFile {name : Text} (proper : name ≠ "..")
    (other : (path.child name).isModel = false)
    (opened : now.openFile (path.child name) = .ok place) : isModelPlace place = false := by
  obtain ⟨found, -⟩ := openFile_eq_ok_iff.1 opened
  obtain ⟨above, -, rfl⟩ := (leadsTo_of_resolve found).of_child proper
  have named : (⟨[], above ++ [name]⟩ : PathName).name = (path.child name).name :=
    (PathName.name_child ⟨[], above⟩ name).trans (PathName.name_child path name).symm
  exact (PathName.isModel_congr named).trans other

end FileTree

namespace Output

/-- What a file holds after a write, and what is told about it, depend on its place and on the device
alone. -/
theorem exists_write_eq (path : PathName) (text ending : Text)
    (device : Place → List Byte → Option Failure) :
    ∃ (held : Place → List Byte) (said : Place → Logged Error Unit), ∀ {tree between : FileTree},
      tree.makeDirectories path.parent = (between, .ok ()) → between.device = device →
        write tree path text ending = match between.openFile path with
          | .error e => ⟨between, Logged.fail e⟩
          | .ok place => ⟨between.set place (.file (held place)), said place⟩ := by
  by_cases known : lineEndings.contains ending = true
  · cases encoded : Utf8.encode? (written text ending) with
    | none =>
      refine ⟨fun _ => [], fun _ => Logged.fail .unencodable, fun {tree between} made _ => ?_⟩
      rw [written_eq] at encoded
      rw [write, made]
      dsimp only
      rw [known, encoded]
      rfl
    | some bytes =>
      refine ⟨fun place => (device place bytes).elim bytes fun f => bytes.take f.stored,
        fun place => (device place bytes).elim (Models.note .debug ("Wrote " ++ path.toText))
          fun f => Logged.fail (.system f.error), fun {tree between} made same => ?_⟩
      rw [written_eq] at encoded
      rw [write, made, ← same]
      dsimp only
      rw [known, encoded]
      cases between.openFile path with
      | error e => rfl
      | ok place => cases failed : between.device place bytes <;> simp [FileTree.stored, failed]
  · refine ⟨fun _ => [], fun _ => Logged.fail .notAChoice, fun {tree between} made _ => ?_⟩
    rw [write, made]
    dsimp only
    rw [Bool.eq_false_iff.2 known]
    rfl

end Output

/-! ### Ends of a computation -/

namespace Session

/-- `u` is where `s` was, but in a second run that started from the tree `final`. -/
structure Trails (final : FileTree) (s u : Session) : Prop where
  idle : u.logFile = none
  follows : final.Follows s.tree u.tree

/-- Without a log file, records leave nothing in the tree. -/
theorem records_eq {s : Session} (idle : s.logFile = none) (log : Log) :
    (s.records log).tree = s.tree ∧ (s.records log).logFile = none :=
  ⟨(s.logs_records log).idle idle, (s.logs_records log).logFile.trans idle⟩

end Session

namespace Run

variable {α β : Type} {s t : Session} {outcome : Except Error α}

/-- An outcome, or an error that a run tells about. -/
def IsCalm : Except Error α → Prop
  | .ok _ => True
  | .error e => (CommandLine.endingMessage? e).isSome = true

/-- What the file system refuses is no proper end. -/
theorem not_isCalm_of_refuses {e : Error} (h : e.refuses = true) :
    ¬IsCalm (.error e : Except Error α) := by
  cases e with
  | system e =>
    obtain ⟨fault, path⟩ := e
    cases fault with
    | notFound => cases h
    | _ => exact Bool.false_ne_true
  | unencodable | zeroInPath | notAChoice => exact Bool.false_ne_true
  | _ => cases h

/-- What the computation did that took `s` to `t`, it does again later: in the tree that the run
left in the end, it comes to the same outcome and follows. -/
structure Repeats (x : Run α) (s t : Session) (outcome : Except Error α) : Prop where
  idle : t.logFile = none
  grows : s.tree.Grows t.tree
  again : ∀ {final u}, t.tree.Grows final → s.Trails final u →
    ∃ u', x u = (u', outcome) ∧ t.Trails final u'

/-- A computation repeats if it comes to a proper end and there is no log file. -/
def RepeatsAt (x : Run α) (s : Session) : Prop :=
  s.logFile = none → ∀ {t outcome}, x s = (t, outcome) → IsCalm outcome → Repeats x s t outcome

/-- A sequence repeats if both of its steps do. -/
theorem RepeatsAt.bind {x : Run α} {f : α → Run β} (first : RepeatsAt x s)
    (second : ∀ a t, s.tree.Grows t.tree → x s = (t, .ok a) → RepeatsAt (f a) t) :
    RepeatsAt (x >>= f) s := by
  intro idle t outcome ran calm
  rw [run_bind] at ran
  split at ran
  · next r e start =>
    cases ran
    have h := first idle start calm
    refine ⟨h.idle, h.grows, fun grows trails => ?_⟩
    obtain ⟨v, again, trails⟩ := h.again grows trails
    exact ⟨v, by rw [run_bind, again], trails⟩
  · next r a start =>
    have h := first idle start trivial
    have h' := second a r h.grows start h.idle ran calm
    refine ⟨h'.idle, h.grows.trans h'.grows, fun grows trails => ?_⟩
    obtain ⟨v, again, trails⟩ := h.again (h'.grows.trans grows) trails
    obtain ⟨w, again', trails⟩ := h'.again grows trails
    exact ⟨w, by rw [run_bind, again]; exact again', trails⟩

/-- What depends on the tree repeats if it depends on nothing that has changed in the end. -/
theorem RepeatsAt.tree {f : FileTree → Run α} (same : ∀ {t}, s.tree.Grows t → f t = f s.tree)
    (next : RepeatsAt (f s.tree) s) : RepeatsAt (Run.tree >>= f) s := by
  intro idle t outcome ran calm
  have h := next idle ran calm
  refine ⟨h.idle, h.grows, fun {final u} grows trails => ?_⟩
  obtain ⟨v, again, trails'⟩ := h.again grows trails
  refine ⟨v, ?_, trails'⟩
  rw [← same ((h.grows.trans grows).trans trails.follows.grows)] at again
  exact again

/-! ### Computations that change no file -/

/-- A computation that, without a log file, leaves the tree and comes to one outcome. -/
def IsSteady (x : Run α) : Prop :=
  ∃ outcome, ∀ {s}, s.logFile = none →
    ∃ t, x s = (t, outcome) ∧ t.tree = s.tree ∧ t.logFile = none

theorem isSteady_lift (x : Except Error α) : IsSteady (lift x) :=
  ⟨x, fun {s} idle => ⟨s, rfl, rfl, idle⟩⟩

theorem isSteady_pure (a : α) : IsSteady (Pure.pure a : Run α) := isSteady_lift (.ok a)

theorem isSteady_fail (e : Error) : IsSteady (fail e : Run α) := isSteady_lift (.error e)

theorem isSteady_logged (x : Logged Error α) : IsSteady (logged x) :=
  ⟨x.outcome, fun {s} idle => ⟨s.records x.log, rfl, s.records_eq idle x.log⟩⟩

theorem isSteady_print (p : Printed) : IsSteady (print p) :=
  ⟨.ok (), fun idle => ⟨_, rfl, rfl, idle⟩⟩

theorem isSteady_complain (line : Text) : IsSteady (complain line) :=
  ⟨.ok (), fun idle => ⟨_, rfl, rfl, idle⟩⟩

theorem IsSteady.bind {x : Run α} {f : α → Run β} (hx : IsSteady x) (hf : ∀ a, IsSteady (f a)) :
    IsSteady (x >>= f) := by
  obtain ⟨outcome, first⟩ := hx
  cases outcome with
  | error e =>
    refine ⟨.error e, fun {s} idle => ?_⟩
    obtain ⟨t, start, left⟩ := first idle
    exact ⟨t, by rw [run_bind, start], left⟩
  | ok a =>
    obtain ⟨outcome, second⟩ := hf a
    refine ⟨outcome, fun {s} idle => ?_⟩
    obtain ⟨t, start, same, idle'⟩ := first idle
    obtain ⟨r, rest, same', idle''⟩ := second idle'
    exact ⟨r, by rw [run_bind, start]; exact rest, same'.trans same, idle''⟩

theorem isSteady_printMarkup (markup : Text) : IsSteady (printMarkup markup) :=
  (isSteady_lift _).bind fun _ => isSteady_print _

theorem isSteady_forM {f : α → Run Unit} (l : List α) (hf : ∀ a, IsSteady (f a)) :
    IsSteady (l.forM f) := by
  induction l with
  | nil => exact isSteady_pure ()
  | cons a l ih => exact (hf a).bind fun _ => ih

/-- It repeats whether or not its end is proper. -/
theorem IsSteady.repeats {x : Run α} (h : IsSteady x) (idle : s.logFile = none)
    (ran : x s = (t, outcome)) : Repeats x s t outcome := by
  obtain ⟨outcome', steady⟩ := h
  obtain ⟨t', ran', same, idle'⟩ := steady idle
  obtain ⟨rfl, rfl⟩ := Prod.mk.inj (ran.symm.trans ran')
  refine ⟨idle', same ▸ .refl _, fun grows trails => ?_⟩
  obtain ⟨v, again, same', idle''⟩ := steady trails.idle
  exact ⟨v, again, idle'', by rw [same, same']; exact trails.follows⟩

theorem IsSteady.repeatsAt {x : Run α} (h : IsSteady x) (s : Session) : RepeatsAt x s :=
  fun idle _ _ ran _ => h.repeats idle ran

/-- A step that changes no file, before one that may. -/
theorem IsSteady.bind_repeatsAt {x : Run α} {f : α → Run β} (h : IsSteady x)
    (second : ∀ a t, t.tree = s.tree → x s = (t, .ok a) → RepeatsAt (f a) t) :
    RepeatsAt (x >>= f) s := by
  intro idle
  refine (h.repeatsAt s).bind (fun a t _ ran => second a t ?_ ran) idle
  obtain ⟨outcome, steady⟩ := h
  obtain ⟨t', ran', same, -⟩ := steady idle
  obtain ⟨rfl, -⟩ := Prod.mk.inj (ran.symm.trans ran')
  exact same

theorem repeatsAt_forM {f : α → Run Unit} (l : List α) (hf : ∀ a s, RepeatsAt (f a) s)
    (s : Session) : RepeatsAt (l.forM f) s := by
  induction l generalizing s with
  | nil => exact (isSteady_pure ()).repeatsAt s
  | cons a l ih => exact (hf a s).bind fun _ t _ _ => ih t

theorem Repeats.attempt {x : Run α} (h : Repeats x s t outcome) :
    Repeats x.attempt s t (.ok outcome) := by
  refine ⟨h.idle, h.grows, fun grows trails => ?_⟩
  obtain ⟨v, again, trails⟩ := h.again grows trails
  exact ⟨v, by rw [Run.attempt, again], trails⟩

/-- What comes after a computation that may fail. -/
theorem RepeatsAt.bind_attempt {x : Run α} {f : Except Error α → Run β} (first : RepeatsAt x s)
    (loud : ∀ {outcome t r o}, f outcome t = (r, o) → IsCalm o → IsCalm outcome)
    (second : ∀ outcome, IsSteady (f outcome)) : RepeatsAt (x.attempt >>= f) s := by
  intro idle t o ran calm
  have h := first idle rfl (loud ran calm)
  have h' := (second _).repeats h.idle ran
  refine ⟨h'.idle, h.grows.trans h'.grows, fun grows trails => ?_⟩
  obtain ⟨v, again, trails⟩ := h.again (h'.grows.trans grows) trails
  obtain ⟨w, again', trails⟩ := h'.again grows trails
  refine ⟨w, ?_, trails⟩
  rw [run_bind, attempt, again]
  exact again'

/-! ### Directories and files -/

/-- Directories that were made are there later. -/
theorem repeatsAt_makeDirectories (path : PathName) (s : Session) :
    RepeatsAt (change fun tree => tree.makeDirectories path) s := by
  intro idle t outcome ran calm
  rw [change] at ran
  cases made : s.tree.makeDirectories path with
  | mk after outcome =>
    rw [made] at ran
    cases ran
    cases outcome with
    | error e => exact absurd calm (not_isCalm_of_refuses (FileTree.refuses_of_makeUpTo made))
    | ok _ =>
      have grown := s.tree.grows_makeDirectories path
      rw [made] at grown
      refine ⟨idle, grown, fun {final u} grows trails => ?_⟩
      obtain ⟨place, there⟩ := FileTree.exists_look_of_makeDirectories made
      have already :=
        FileTree.makeDirectories_eq_self (trails.follows.grows.look (grows.look there))
      have follows := trails.follows.makeDirectories path
      rw [made] at follows
      exact ⟨u, by rw [change, already], trails.idle, follows⟩

end Run

namespace CommandLine

open Run (RepeatsAt Repeats)

section

variable {path : PathName} {name : Text} {s t : Session}

/-- A write into a directory that could be made repeats, even if the file is refused. -/
theorem repeats_writeFile {text ending : Text} {between : FileTree} {outcome : Except Error Unit}
    (proper : name ≠ "..") (other : (path.child name).isModel = false) (idle : s.logFile = none)
    (made : s.tree.makeDirectories path = (between, .ok ()))
    (ran : writeFile (path.child name) text ending s = (t, outcome)) :
    Repeats (writeFile (path.child name) text ending) s t outcome := by
  obtain ⟨held, said, eq⟩ :=
    Output.exists_write_eq (path.child name) text ending between.device
  rw [PathName.parent_child] at eq
  obtain ⟨top, there⟩ := FileTree.exists_look_of_makeDirectories made
  have grown : s.tree.Grows between := by
    have grown := s.tree.grows_makeDirectories path
    rwa [made] at grown
  -- The directory is there later, so it is not made again.
  have later {final : FileTree} {u : Session} (grows : between.Grows final)
      (trails : s.Trails final u) : between.Grows u.tree ∧
        u.tree.makeDirectories path = (u.tree, .ok ()) ∧ final.Follows between u.tree := by
    have all := grows.trans trails.follows.grows
    have follows := trails.follows.makeDirectories path
    rw [made] at follows
    exact ⟨all, FileTree.makeDirectories_eq_self (all.look there), follows⟩
  rw [writeFile, Run.effect, eq made rfl] at ran
  cases opened : between.openFile (path.child name) with
  | error e =>
    rw [opened] at ran
    cases ran
    refine ⟨idle, grown, fun {final u} grows trails => ?_⟩
    obtain ⟨all, again, follows⟩ := later grows trails
    refine ⟨u, ?_, trails.idle, follows⟩
    rw [writeFile, Run.effect, eq again all.keeps.device, all.openFile_eq_error there opened]
    rfl
  | ok place =>
    rw [opened] at ran
    cases ran
    have free := (FileTree.openFile_eq_ok_iff.1 opened).2
    have plain := FileTree.isModelPlace_of_openFile proper other opened
    have left := Session.records_eq
      (s := { s with tree := between.set place (.file (held place)) }) idle (said place).log
    have growing := FileTree.grows_set_file free plain (held place)
    refine ⟨left.2, ?_, fun {final u} grows trails => ?_⟩
    · rw [left.1]
      exact grown.trans growing
    · rw [left.1] at grows
      obtain ⟨all, again, follows⟩ := later (growing.trans grows) trails
      have opened' := (grows.trans trails.follows.grows).openFile_child opened
      have left' := Session.records_eq
        (s := { u with tree := u.tree.set place (.file (held place)) }) trails.idle
          (said place).log
      refine ⟨_, by rw [writeFile, Run.effect, eq again all.keeps.device, opened'], left'.2, ?_⟩
      rw [left.1, left'.1]
      exact follows.set (FileTree.openFile_eq_ok_iff.1 opened').2 plain

theorem repeatsAt_writeFile (proper : name ≠ "..") (other : (path.child name).isModel = false)
    (text ending : Text) (s : Session) :
    RepeatsAt (writeFile (path.child name) text ending) s := by
  intro idle t outcome ran calm
  cases made : s.tree.makeDirectories path with
  | mk between directories =>
    cases directories with
    | ok _ => exact repeats_writeFile proper other idle made ran
    | error e =>
      rw [writeFile, Run.effect, Output.write, PathName.parent_child, made] at ran
      cases ran
      exact absurd calm (Run.not_isCalm_of_refuses (FileTree.refuses_of_makeUpTo made))

end

end CommandLine

end SchemaTypings
