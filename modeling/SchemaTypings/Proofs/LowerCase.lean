import Mathlib.Data.List.Chain
import SchemaTypings.Proofs.FileNames

/-!
Lower case. A text in lower case is its own lower case: no letter is mapped to one that is mapped
again, and the capital sigma, whose form depends on its neighbours, does not remain.
-/

namespace SchemaTypings

namespace CaseRun

/-- Whether a run goes from neighbour to neighbour or over every other one, to code points. -/
def isRegular (run : CaseRun) : Bool := (run.step = 1 || run.step = 2) && 0 ≤ run.first + run.shift

/-- Whether none of the runs, in ascending order, maps a code point from `low` to `high`; where
these are `gapped`, only every other one counts. -/
def spare (low high : Nat) (gapped : Bool) : List CaseRun → Bool
  | [] => true
  | run :: rest =>
    if Nat.blt (run.first + run.step * (run.count - 1)) low then spare low high gapped rest
    else if Nat.blt high run.first then true
    else gapped && Nat.beq run.step 2 && Nat.beq ((low + run.first) % 2) 1 &&
      spare low high gapped rest

/-- Whether none of the runs, in ascending order, maps what the run maps to. -/
def isSparedBy (run : CaseRun) (runs : List CaseRun) : Bool :=
  let low := (run.first + run.shift).toNat
  spare low (low + run.step * (run.count - 1)) (Nat.beq run.step 2 || Nat.beq run.count 1) runs

theorem exists_of_map? {run : CaseRun} (regular : run.isRegular = true) {n m : Nat}
    (h : run.map? n = some m) :
    ∃ k < run.count, m = (run.first + run.shift).toNat + run.step * k := by
  rw [isRegular, Bool.and_eq_true, Bool.or_eq_true] at regular
  simp only [decide_eq_true_eq] at regular
  rw [map?] at h
  split at h
  · next inside =>
    simp only [Bool.and_eq_true, decide_eq_true_eq] at inside
    obtain ⟨⟨low, even⟩, high⟩ := inside
    cases h
    refine ⟨(n - run.first) / run.step, high, ?_⟩
    rcases regular.1 with step | step <;> rw [step] at even ⊢ <;> omega
  · cases h

theorem map?_eq_none_of_outside {run : CaseRun} (regular : run.isRegular = true) {n : Nat}
    (h : n < run.first ∨ run.first + run.step * (run.count - 1) < n) : run.map? n = none := by
  rw [isRegular, Bool.and_eq_true, Bool.or_eq_true] at regular
  simp only [decide_eq_true_eq] at regular
  rw [map?, if_neg]
  simp only [Bool.and_eq_true, decide_eq_true_eq]
  rintro ⟨⟨low, even⟩, high⟩
  rcases regular.1 with step | step <;> rw [step] at even high h <;> omega

theorem map?_eq_none_of_odd {run : CaseRun} (step : run.step = 2) {n : Nat}
    (h : (n + run.first) % 2 = 1) : run.map? n = none := by
  rw [map?, if_neg]
  simp only [Bool.and_eq_true, decide_eq_true_eq, step]
  omega

theorem map?_eq_none_of_spare {low high m : Nat} {gapped : Bool} {runs : List CaseRun}
    (regular : ∀ run ∈ runs, run.isRegular = true)
    (sorted : runs.Pairwise fun run next => run.first < next.first)
    (spared : spare low high gapped runs = true) (above : low ≤ m) (below : m ≤ high)
    (every : gapped = true → (m - low) % 2 = 0) {run : CaseRun} (mem : run ∈ runs) :
    run.map? m = none := by
  induction runs with
  | nil => cases mem
  | cons first rest ih =>
    rw [List.forall_mem_cons] at regular
    rw [List.pairwise_cons] at sorted
    have others := ih regular.2 sorted.2
    rw [spare] at spared
    split at spared
    · next before =>
      rw [Nat.blt_eq] at before
      rcases List.mem_cons.1 mem with rfl | mem
      · exact map?_eq_none_of_outside regular.1 (.inr (by omega))
      · exact others spared mem
    split at spared
    · next behind =>
      rw [Nat.blt_eq] at behind
      rcases List.mem_cons.1 mem with rfl | mem
      · exact map?_eq_none_of_outside regular.1 (.inl (by omega))
      · have later := sorted.1 run mem
        exact map?_eq_none_of_outside (regular.2 run mem) (.inl (by omega))
    · simp only [Bool.and_eq_true, Nat.beq_eq] at spared
      obtain ⟨⟨⟨gaps, step⟩, odd⟩, spared⟩ := spared
      rcases List.mem_cons.1 mem with rfl | mem
      · have even := every gaps
        exact map?_eq_none_of_odd step (by omega)
      · exact others spared mem

/-- What a run maps to is mapped by no run that spares it. -/
theorem map?_eq_none_of_isSparedBy {run other : CaseRun} {runs : List CaseRun}
    (regular : run.isRegular = true) (regulars : ∀ run ∈ runs, run.isRegular = true)
    (sorted : runs.Pairwise fun run next => run.first < next.first)
    (spared : run.isSparedBy runs = true) {n m : Nat} (h : run.map? n = some m)
    (mem : other ∈ runs) : other.map? m = none := by
  obtain ⟨k, small, rfl⟩ := exists_of_map? regular h
  refine map?_eq_none_of_spare regulars sorted spared (Nat.le_add_right _ _) ?_ ?_ mem
  · exact Nat.add_le_add_left (Nat.mul_le_mul_left _ (by omega)) _
  · intro gapped
    simp only [Bool.or_eq_true, Nat.beq_eq] at gapped
    rcases gapped with step | alone
    · rw [step]
      omega
    · have none : k = 0 := by omega
      simp [none]

end CaseRun

/-- The table of runs, checked once: no letter that a lower-case form is made of has another
lower-case form, the dotted capital, whose form is two code points, is no such letter, and the
capital sigma has a form in the table. -/
theorem lowerRuns_facts :
    (∀ run ∈ lowerRuns, run.isRegular = true ∧ run.isSparedBy lowerRuns = true ∧
        run.isSparedBy [⟨0x130, 1, 1, 0⟩] = true) ∧
      lowerRuns.IsChain (fun run next => run.first < next.first) ∧
      ¬∀ run ∈ lowerRuns, run.map? 0x3A3 = none := by
  decide +kernel

theorem isRegular_of_mem_lowerRuns (run : CaseRun) (mem : run ∈ lowerRuns) :
    run.isRegular = true :=
  (lowerRuns_facts.1 run mem).1

theorem sorted_lowerRuns : lowerRuns.Pairwise fun run next => run.first < next.first := by
  have trans : Trans (fun run next : CaseRun => run.first < next.first)
      (fun run next : CaseRun => run.first < next.first)
      fun run next : CaseRun => run.first < next.first := ⟨Nat.lt_trans⟩
  exact lowerRuns_facts.2.1.pairwise

namespace CodePoint

/-- The forms that are not in the table, of the dotted capital and of the capital sigma, are their
own lower-case forms. -/
theorem lower_of_mem_forms : ∀ d ∈ [0x69, 0x307].filterMap (fun x : Nat => ofNat? x) ++
    [0x3C2, 0x3C3].filterMap (fun x : Nat => ofNat? x), d.val ≠ 0x3A3 ∧ d.lower = [d] := by
  decide +kernel

/-- A code point of a lower-case form is its own lower-case form, whatever stands around it. -/
theorem lower_of_mem_lower {c d : CodePoint} (h : d ∈ c.lower) :
    d.val ≠ 0x3A3 ∧ d.lower = [d] := by
  have settled {d : CodePoint} (dotted : d.val ≠ 0x130)
      (unmapped : ∀ run ∈ lowerRuns, run.map? d.val = none) : d.val ≠ 0x3A3 ∧ d.lower = [d] := by
    constructor
    · intro sigma
      rw [sigma] at unmapped
      exact lowerRuns_facts.2.2 unmapped
    · rw [lower, if_neg dotted, List.findSome?_eq_none_iff.2 unmapped]
  rw [lower] at h
  split at h
  · exact lower_of_mem_forms d (List.mem_append_left _ h)
  · next plain =>
    split at h
    · next n found =>
      obtain ⟨run, mem, mapped⟩ := List.exists_of_findSome?_eq_some found
      rw [ofNat?] at h
      split at h
      · rw [Option.toList_some, List.mem_singleton] at h
        subst h
        refine settled ?_ fun other there => CaseRun.map?_eq_none_of_isSparedBy
          (isRegular_of_mem_lowerRuns run mem) isRegular_of_mem_lowerRuns sorted_lowerRuns
          (lowerRuns_facts.1 run mem).2.1 mapped there
        rintro rfl
        have missed := CaseRun.map?_eq_none_of_isSparedBy (isRegular_of_mem_lowerRuns run mem)
          (by decide) (List.pairwise_singleton _ _) (lowerRuns_facts.1 run mem).2.2 mapped
          (List.mem_singleton_self _)
        revert missed
        decide
      · cases h
    · next none =>
      rw [List.mem_singleton.1 h]
      exact settled plain (List.findSome?_eq_none_iff.1 none)

end CodePoint

namespace Text

theorem lower_of_mem_lowerAfter {before s : Text} {d : CodePoint} (h : d ∈ lowerAfter before s) :
    d.val ≠ 0x3A3 ∧ d.lower = [d] := by
  induction s generalizing before with
  | nil => cases h
  | cons c s ih =>
    rw [lowerAfter] at h
    rcases List.mem_append.1 h with h | h
    · split at h
      · refine CodePoint.lower_of_mem_forms d (List.mem_append_right _ (List.mem_filterMap.2 ?_))
        rw [Option.mem_toList] at h
        exact ⟨_, by split <;> simp, h⟩
      · exact CodePoint.lower_of_mem_lower h
    · exact ih h

/-- A text in lower case is its own lower case. -/
@[simp] theorem lower_lower (s : Text) : s.lower.lower = s.lower :=
  lowerAfter_eq (fun _ => lower_of_mem_lowerAfter) []

end Text

end SchemaTypings
