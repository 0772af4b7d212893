import SchemaTypings.Console
import SchemaTypings.Console.Markup
import SchemaTypings.Files.Output
import SchemaTypings.Log.Setup

/-!
A run as a computation on a session: the file tree, what was printed, and the log. A run that fails
keeps what it did before.
-/

namespace SchemaTypings

/-- What a run has to do with. -/
structure Session where
  tree : FileTree
  printed : List Printed := []
  complaints : List Text := []
  log : Log := []
  /-- The file that takes the records, if there is one. -/
  logFile : Option PathName := none

namespace Session

/-- The session with one more record. A log file takes it, as far as the device stores it, unless it
has no encoding. -/
def record (s : Session) (r : Record) : Session :=
  let s := { s with log := s.log ++ [r] }
  match s.logFile with
  | none => s
  | some path =>
    match Utf8.encode? r.line with
    | none => s
    | some bytes =>
      match s.tree.append path bytes with
      | .ok tree => { s with tree }
      | .error _ => s

/-- The session with more records. -/
def records (s : Session) (log : Log) : Session := log.foldl record s

end Session

/-- A computation on a session. -/
def Run (α : Type) : Type := Session → Session × Except Error α

namespace Run

variable {α β : Type}

/-- The outcome `a` and nothing done. -/
def pure (a : α) : Run α := fun s => (s, .ok a)

/-- The second computation after the first, unless the first fails. -/
def bind (x : Run α) (f : α → Run β) : Run β := fun s =>
  match x s with
  | (s, .error e) => (s, .error e)
  | (s, .ok a) => f a s

instance : Monad Run where
  pure := Run.pure
  bind := Run.bind

/-- A failure and nothing done. -/
def fail (e : Error) : Run α := fun s => (s, .error e)

/-- The outcome as a value, so that the run goes on after a failure. -/
def attempt (x : Run α) : Run (Except Error α) := fun s => ((x s).1, .ok (x s).2)

/-- An outcome and nothing done. -/
def lift (x : Except Error α) : Run α := fun s => (s, x)

/-- The file tree. -/
def tree : Run FileTree := fun s => (s, .ok s.tree)

/-- The outcome of a computation, its records left in the session. -/
def logged (x : Logged Error α) : Run α := fun s => (s.records x.log, x.outcome)

/-- One record. -/
def record (level : Level) (topic : Topic) (message : Text) : Run Unit :=
  logged (Logged.record level topic message)

/-- An operation on the file tree. -/
def effect (f : FileTree → Effect α) : Run α := fun s =>
  let e := f s.tree
  ({ s with tree := e.tree }.records e.outcome.log, e.outcome.outcome)

/-- A change of the file tree, and what became of it. -/
def change (f : FileTree → FileTree × Except Error Unit) : Run Unit := fun s =>
  ({ s with tree := (f s.tree).1 }, (f s.tree).2)

/-- One printed thing. -/
def print (p : Printed) : Run Unit := fun s => ({ s with printed := s.printed ++ [p] }, .ok ())

/-- One printed text with markup. -/
def printMarkup (markup : Text) : Run Unit := do
  print (.line (← lift (Markup.shown markup)))

/-- One line for whoever called the program. -/
def complain (line : Text) : Run Unit := fun s =>
  ({ s with complaints := s.complaints ++ [line] }, .ok ())

/-- A file that takes every record from now on, made if it is not there. -/
def keepLog (path : PathName) : Run Unit := fun s =>
  match s.tree.append path [] with
  | .ok tree => ({ s with tree, logFile := some path }, .ok ())
  | .error e => (s, .error e)

@[simp] theorem run_pure (a : α) (s : Session) : (Pure.pure a : Run α) s = (s, .ok a) := rfl

theorem run_bind (x : Run α) (f : α → Run β) (s : Session) :
    (x >>= f) s = match x s with
      | (s, .error e) => (s, .error e)
      | (s, .ok a) => f a s := rfl

end Run

end SchemaTypings
