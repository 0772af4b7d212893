import SchemaTypings.Text.CodePoint

/-!
Log records and computations that leave some. A computation that fails keeps the records that it
left before.
-/

namespace SchemaTypings

/-- How grave a record is. -/
inductive Level
  | debug
  | info
  | warning
  | error
deriving DecidableEq, Repr

/-- The name of a level in a log. -/
def Level.name : Level → Text
  | .debug => "DEBUG"
  | .info => "INFO"
  | .warning => "WARNING"
  | .error => "ERROR"

/-- The part of the program that leaves a record. -/
inductive Topic
  | setup
  | commandLine
  | files
  | batch
  | extraction
  | reading
  | materializing
  | fields
  | generation
  | interfaces
deriving DecidableEq, Repr

/-- The name of a topic in a log. -/
def Topic.name : Topic → Text
  | .setup => "mongoose_ts"
  | .commandLine => "mongoose_ts.cli"
  | .files => "mongoose_ts.utils"
  | .batch => "mongoose_ts.codegen.pipeline"
  | .extraction => "mongoose_ts.codegen.core.extractor"
  | .reading => "mongoose_ts.codegen.core.normalizer"
  | .materializing => "mongoose_ts.codegen.core.materializer"
  | .fields => "mongoose_ts.codegen.core.schema"
  | .generation => "mongoose_ts.codegen.core.generator"
  | .interfaces => "mongoose_ts.codegen.languages.typescript.generator"

/-- One log record. -/
structure Record where
  level : Level
  topic : Topic
  message : Text
deriving DecidableEq, Repr

/-- The log of a computation, oldest record first. -/
abbrev Log := List Record

/-- Whether a record is at least a warning. -/
def Record.isGrave (r : Record) : Bool := r.level = .warning || r.level = .error

/-- A computation's outcome and the records that it left. -/
structure Logged (ε α : Type) where
  log : Log
  outcome : Except ε α

namespace Logged

variable {ε ε' α β : Type}

/-- The outcome `a` without a record. -/
def pure (a : α) : Logged ε α := ⟨[], .ok a⟩

/-- The second computation after the first, unless the first fails. -/
def bind (x : Logged ε α) (f : α → Logged ε β) : Logged ε β :=
  match x.outcome with
  | .error e => ⟨x.log, .error e⟩
  | .ok a => ⟨x.log ++ (f a).log, (f a).outcome⟩

instance : Monad (Logged ε) where
  pure := Logged.pure
  bind := Logged.bind

/-- A failure without a record. -/
def fail (e : ε) : Logged ε α := ⟨[], .error e⟩

/-- One record. -/
def record (level : Level) (topic : Topic) (message : Text) : Logged ε Unit :=
  ⟨[⟨level, topic, message⟩], .ok ()⟩

/-- Several records. -/
def records (log : Log) : Logged ε Unit := ⟨log, .ok ()⟩

/-- An outcome without a record. -/
def lift (x : Except ε α) : Logged ε α := ⟨[], x⟩

instance : MonadLift (Except ε) (Logged ε) := ⟨lift⟩

/-- The same with its error in other terms. -/
def mapError (f : ε → ε') (x : Logged ε α) : Logged ε' α := ⟨x.log, x.outcome.mapError f⟩

/-- The outcome as a value, so that the computation goes on after a failure. -/
def attempt (x : Logged ε α) : Logged ε' (Except ε α) := ⟨x.log, .ok x.outcome⟩

@[simp] theorem log_pure (a : α) : (pure a : Logged ε α).log = [] := rfl

@[simp] theorem outcome_pure (a : α) : (pure a : Logged ε α).outcome = .ok a := rfl

@[simp] theorem pure_bind (a : α) (f : α → Logged ε β) : bind (pure a) f = f a := by
  simp [bind, pure]

theorem bind_assoc {γ : Type} (x : Logged ε α) (f : α → Logged ε β) (g : β → Logged ε γ) :
    bind (bind x f) g = bind x fun a => bind (f a) g := by
  obtain ⟨log, outcome⟩ := x
  cases outcome with
  | error e => rfl
  | ok a =>
    simp only [bind]
    cases (f a).outcome <;> simp

end Logged

end SchemaTypings
