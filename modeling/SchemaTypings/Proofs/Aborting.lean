import SchemaTypings.Proofs.References

/-!
The two error policies. A batch asks for its policy at one place, after a file that failed; naming,
converting and generating do not depend on it. So what a batch that aborts leaves is what a batch
that skips leaves, cut behind the first file that failed.
-/

namespace SchemaTypings

/-! ### Settings and generators under a policy -/

namespace Settings

/-- The name of an error policy. -/
def ErrorPolicy.label : ErrorPolicy → Text
  | .skip => "skip"
  | .abort => "abort"

/-- The settings with another error policy. -/
def under (s : Settings) (policy : ErrorPolicy) : Settings :=
  { s with onError := .text policy.label }

theorem errorPolicy?_under (s : Settings) (policy : ErrorPolicy) :
    (s.under policy).errorPolicy? = some policy := by
  cases policy <;> rfl

end Settings

namespace Generator

/-- The generator with another error policy. -/
def under (g : Generator) (policy : Settings.ErrorPolicy) : Generator :=
  { g with settings := g.settings.under policy }

/-- A generator for settings under a policy is the one for the settings, under the policy. -/
theorem create_under (language : Language) (s : Settings) (policy : Settings.ErrorPolicy) :
    create language (s.under policy) = (create language s).map (·.under policy) := by
  cases language with
  | plain => rfl
  | typeScript =>
    have names : TypeNames.ofSettings (s.under policy) = TypeNames.ofSettings s := rfl
    rw [create, create, names]
    cases TypeNames.ofSettings s <;> rfl

variable (g : Generator) (policy : Settings.ErrorPolicy)

theorem interfaceName_under : (g.under policy).interfaceName = g.interfaceName := rfl

theorem model_under : (g.under policy).model = g.model := rfl

theorem modelWarnings_under : (g.under policy).modelWarnings = g.modelWarnings := rfl

theorem single_under : (g.under policy).single = g.single := rfl

theorem generate_under : (g.under policy).generate = g.generate := rfl

end Generator

namespace Batch

variable (g : Generator) (policy : Settings.ErrorPolicy)

theorem finish_under : finish (g.under policy) = finish g := by
  funext known path d normalized tree
  rw [finish, finish, g.interfaceName_under, g.model_under, g.modelWarnings_under, g.single_under]

theorem convertFile_under : convertFile (g.under policy) = convertFile g := by
  have converted : convert (g.under policy) = convert g := by
    funext known source path
    rw [convert, convert, finish_under]
  funext known tree path
  rw [convertFile, convertFile, converted]

theorem namesOf_under : namesOf (g.under policy) = namesOf g := by
  have collected (paths : List Text) (known : Entries Text) :
      collectNames (g.under policy) known paths = collectNames g known paths := by
    induction paths generalizing known with
    | nil => rfl
    | cons path rest ih =>
      rw [collectNames, collectNames, g.interfaceName_under]
      simp only [ih]
  funext paths
  rw [namesOf, namesOf, collected]

theorem convertFiles_under : convertFiles (g.under policy) = convertFiles g := by
  funext known tree policy' paths
  induction paths with
  | nil => rfl
  | cons path rest ih => rw [convertFiles, convertFiles, convertFile_under, ih]

/-! ### Two runs side by side -/

variable {g}

/-- The conversions up to the first that failed, and that one. -/
def untilFailure (cs : List Conversion) : List Conversion :=
  cs.take (cs.findIdx (·.isFailed) + 1)

theorem untilFailure_failed {c : Conversion} (failed : c.isFailed = true) (cs : List Conversion) :
    untilFailure (c :: cs) = [c] := by
  simp [untilFailure, List.findIdx_cons, failed]

theorem untilFailure_passed {c : Conversion} (passed : c.isFailed = false) (cs : List Conversion) :
    untilFailure (c :: cs) = c :: untilFailure cs := by
  simp [untilFailure, List.findIdx_cons, passed]

theorem untilFailure_of_passed {cs : List Conversion} (passed : cs.any (·.isFailed) = false) :
    untilFailure cs = cs := by
  induction cs with
  | nil => rfl
  | cons c cs ih =>
    obtain ⟨first, rest⟩ := Bool.or_eq_false_iff.1 (List.any_cons ▸ passed)
    rw [untilFailure_passed first, ih rest]

/-- Where all files have a conversion, aborting leaves those up to the first failure. -/
theorem convertFiles_abort {known : InterfaceNames} {tree : FileTree} {paths : List PathName}
    {cs : List Conversion} {aborted : Bool}
    (ran : (convertFiles g known tree .skip paths).outcome = .ok (cs, aborted)) :
    aborted = false ∧ (convertFiles g known tree .abort paths).outcome =
      .ok (untilFailure cs, cs.any (·.isFailed)) := by
  induction paths generalizing cs aborted with
  | nil =>
    cases ran
    exact ⟨rfl, rfl⟩
  | cons path rest ih =>
    rw [convertFiles, Logged.outcome_bind] at ran ⊢
    obtain ⟨c, converted, ran⟩ := bind_eq_ok.1 ran
    rw [if_neg (by simp), Logged.outcome_bind] at ran
    obtain ⟨⟨others, aborted⟩, going, ran⟩ := bind_eq_ok.1 ran
    cases ran
    obtain ⟨never, cut⟩ := ih going
    refine ⟨never, ?_⟩
    rw [converted, ok_bind, List.any_cons]
    cases failed : c.isFailed with
    | true =>
      rw [if_pos ⟨failed, rfl⟩, untilFailure_failed failed]
      rfl
    | false =>
      have passed : c.status.isFailure = false := failed
      rw [if_neg (by simp [passed]), untilFailure_passed failed, Logged.outcome_bind, cut]
      rfl

/-- The end of a batch whose files have been converted. -/
def conclude (g : Generator) (names : InterfaceNames) (cs : List Conversion) (aborted : Bool) :
    Logged Error BatchResult :=
  if aborted then pure { conversions := cs, names, aborted }
  else do
    let generation ← g.generate (cs.filterMap (·.model))
    pure { conversions := cs, names, generation := some generation }

theorem run_under (tree : FileTree) (paths : List PathName) :
    run (g.under policy) tree paths = (do
      let names ← namesOf g (paths.map PathName.toText)
      let (cs, aborted) ← convertFiles g names tree policy paths
      conclude g names cs aborted) := by
  rw [run, Generator.under, Settings.errorPolicy?_under, ← Generator.under, namesOf_under,
    convertFiles_under, Generator.generate_under]
  rfl

/-- The second of two batches is the first one, cut behind its first failure. -/
structure IsCutAtFailure (b b' : BatchResult) : Prop where
  names : b'.names = b.names
  conversions : b'.conversions = untilFailure b.conversions
  aborted : b'.aborted = true ↔ ∃ c ∈ b.conversions, c.isFailed = true
  nothing : b'.aborted = true → b'.generation = none ∧ b'.code = []
  whole : b'.aborted = false → b' = b

/-- If a batch that skips comes to its end, then a batch that aborts does so too, and leaves the
first one cut behind the first failure. -/
theorem exists_run_abort {tree : FileTree} {paths : List PathName} {b : BatchResult}
    (ran : (run (g.under .skip) tree paths).outcome = .ok b) :
    ∃ b', (run (g.under .abort) tree paths).outcome = .ok b' ∧ IsCutAtFailure b b' := by
  rw [run_under, Logged.outcome_bind] at ran ⊢
  obtain ⟨names, named, ran⟩ := bind_eq_ok.1 ran
  rw [Logged.outcome_bind] at ran
  obtain ⟨⟨cs, aborted⟩, converted, ran⟩ := bind_eq_ok.1 ran
  obtain ⟨rfl, cut⟩ := convertFiles_abort converted
  change (conclude g names cs false).outcome = .ok b at ran
  have concluded := ran
  rw [conclude, if_neg Bool.false_ne_true, Logged.outcome_bind] at ran
  obtain ⟨generation, generated, ran⟩ := bind_eq_ok.1 ran
  cases ran
  rw [named, ok_bind, Logged.outcome_bind, cut, ok_bind]
  cases failed : cs.any (·.isFailed) with
  | true =>
    refine ⟨_, rfl, rfl, rfl, ?_, fun _ => ⟨rfl, rfl⟩, fun h => ?_⟩
    · simpa using failed
    · cases h
  | false =>
    rw [untilFailure_of_passed failed]
    refine ⟨_, concluded, rfl, (untilFailure_of_passed failed).symm, ?_, fun h => ?_, fun _ => rfl⟩
    · simpa using failed
    · cases h

/-- A file whose declaration cannot be read, between two that are converted. -/
def brokenTree : FileTree :=
  let source := (Utf8.encode? "const s = new Schema(\x7b a: String \x7d);").getD []
  let broken := (Utf8.encode? "const s = new Schema(\x7b a: , \x7d);").getD []
  ((FileTree.empty.set ["a.js"] (.file source)).set ["b.js"] (.file broken)).set
    ["c.js"] (.file source)

/-- The files of that tree. -/
def brokenPaths : List PathName :=
  [PathName.ofText "a.js", PathName.ofText "b.js", PathName.ofText "c.js"]

theorem exists_run_abort_broken :
    ∃ b, (run (Generator.standard.under .skip) brokenTree brokenPaths).outcome = .ok b ∧
      b.conversions.map (·.status) = [.converted, .malformed, .converted] ∧
      ∃ b', (run (Generator.standard.under .abort) brokenTree brokenPaths).outcome = .ok b' ∧
        IsCutAtFailure b b' := by
  have ran : ((run (Generator.standard.under .skip) brokenTree brokenPaths).outcome.toOption.any
      fun b => decide (b.conversions.map (·.status) = [.converted, .malformed, .converted])) =
        true := by decide +kernel
  obtain ⟨b, ok, statuses⟩ := exists_of_toOption_any ran
  exact ⟨b, ok, of_decide_eq_true statuses, exists_run_abort ok⟩

end Batch

end SchemaTypings
