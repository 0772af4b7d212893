import SchemaTypings.PathName
import SchemaTypings.Proofs.Digits

/-!
File names by what they end with: which suffix they have, and that neither JSON files nor declaration
files are models.
-/

namespace SchemaTypings

theorem Text.exists_splitOn_append {c : CodePoint} {tail : Text} (h : ∀ d ∈ tail, d ≠ c)
    (front : Text) : ∃ pieces stem, (front ++ tail).splitOn c = pieces ++ [stem ++ tail] := by
  induction front with
  | nil => exact ⟨[], [], splitOn_eq_singleton h⟩
  | cons d front ih =>
    obtain ⟨pieces, stem, eq⟩ := ih
    rw [splitOn] at eq
    rw [splitOn, List.cons_append, splitWhere, eq]
    cases pieces with
    | nil =>
      dsimp only [List.nil_append]
      split
      · exact ⟨[[]], stem, rfl⟩
      · exact ⟨[], d :: stem, rfl⟩
    | cons piece pieces =>
      dsimp only [List.cons_append]
      split
      · exact ⟨[] :: piece :: pieces, stem, rfl⟩
      · exact ⟨(d :: piece) :: pieces, stem, rfl⟩

/-- What stands behind a text is put in lower case behind the text in lower case. -/
theorem Text.exists_lowerAfter_append (before s t : Text) :
    ∃ front, lowerAfter before (s ++ t) = front ++ lowerAfter (s.reverse ++ before) t := by
  induction s generalizing before with
  | nil => exact ⟨[], rfl⟩
  | cons c s ih =>
    obtain ⟨front, eq⟩ := ih (c :: before)
    rw [List.cons_append, lowerAfter, eq, List.reverse_cons, List.append_assoc,
      List.singleton_append, ← List.append_assoc]
    exact ⟨_, rfl⟩

theorem Text.lowerAfter_eq {s : Text} (same : ∀ c ∈ s, c.val ≠ 0x3A3 ∧ c.lower = [c])
    (before : Text) : lowerAfter before s = s := by
  induction s generalizing before with
  | nil => rfl
  | cons c s ih =>
    rw [List.forall_mem_cons] at same
    rw [lowerAfter, if_neg same.1.1, same.1.2, ih same.2]
    rfl

namespace PathName

@[simp] theorem parent_child (path : PathName) (name : Text) : (path.child name).parent = path := by
  rw [parent, child, List.dropLast_concat]

@[simp] theorem name_child (path : PathName) (name : Text) : (path.child name).name = name := by
  rw [PathName.name, child, List.getLastD_concat]

/-- A file name ends as the text of its path name. -/
theorem exists_name_ofText {file : Text} (h : file.endsWith ".json" = true) :
    ∃ stem, (ofText file).name = stem ++ Text.ofString ".json" := by
  obtain ⟨front, rfl⟩ := List.isSuffixOf_iff_suffix.1 h
  have whole : ∀ c ∈ Text.ofString ".json", c ≠ '/' := by decide
  obtain ⟨pieces, stem, eq⟩ := Text.exists_splitOn_append whole front
  refine ⟨stem, ?_⟩
  have kept : (!((stem ++ Text.ofString ".json").isEmpty ||
      decide (stem ++ Text.ofString ".json" = Text.ofString "."))) = true := by
    have long : (stem ++ Text.ofString ".json").length = stem.length + 5 := List.length_append
    have filled : (stem ++ Text.ofString ".json").isEmpty = false := by
      rw [List.isEmpty_eq_false_iff_exists_mem]
      exact ⟨'.', List.mem_append_right _ (by decide)⟩
    have other : stem ++ Text.ofString ".json" ≠ Text.ofString "." := fun same => by
      rw [same] at long
      have dot : (Text.ofString ".").length = 1 := rfl
      omega
    rw [filled, decide_eq_false other]
    rfl
  rw [name, ofText, partsOf, eq, List.filter_append, List.filter_cons, kept]
  simp

/-- The suffix of such a name starts at its last dot, unless that starts the name. -/
theorem suffix_of_name {path : PathName} {stem : Text}
    (h : path.name = stem ++ Text.ofString ".json") :
    path.suffix = if stem = [] then [] else Text.ofString ".json" := by
  have dot : (stem ++ Text.ofString ".json").reverse.takeWhile (fun c : CodePoint => c ≠ '.') =
      (Text.ofString "json").reverse := by
    rw [List.reverse_append]
    rfl
  have long : (stem ++ Text.ofString ".json").length = stem.length + 5 := List.length_append
  rw [suffix, h, suffixOf, dot, List.reverse_reverse, long]
  cases stem <;> rfl

/-- A JSON file is no model. -/
theorem isModel_eq_false_of_json {path : PathName} {stem : Text}
    (h : path.name = stem ++ Text.ofString ".json") : path.isModel = false := by
  have other : ∀ suffix ∈ [([] : Text), ".json"],
      modelSuffixes.contains (Text.lower suffix) = false := by decide
  have known : modelSuffixes.contains path.suffix.lower = false := by
    refine other _ ?_
    rw [suffix_of_name h]
    split <;> simp
  rw [isModel, known, Bool.and_false]

/-- Neither is a declaration file. -/
theorem isModel_eq_false_of_declarations {path : PathName} {stem : Text}
    (h : path.name = stem ++ Text.ofString ".d.ts") : path.isModel = false := by
  have same : ∀ c ∈ Text.ofString ".d.ts", c.val ≠ 0x3A3 ∧ c.lower = [c] := by decide
  have declares : path.name.lower.endsWith ".d.ts" = true := by
    obtain ⟨front, eq⟩ := Text.exists_lowerAfter_append [] stem (Text.ofString ".d.ts")
    rw [h, Text.lower, eq, Text.lowerAfter_eq same]
    exact List.isSuffixOf_iff_suffix.2 (List.suffix_append front _)
  rw [isModel, declares]
  rfl

end PathName

end SchemaTypings
