import SchemaTypings.Proofs.Outcomes
import SchemaTypings.Settings

/-!
The settings that entries give. Each field has what stands under its name, else its default; entries
of other names join the custom settings.
-/

namespace SchemaTypings

namespace Settings

/-- The custom settings that a value under `custom` comes to, where others join them. -/
def gatheredFrom (v : Literal) : Except Error Dictionary :=
  if v.isTruthy then asDictionary v else .ok []

variable {e : Entries Literal} {s : Settings} {name : Text}

/-- The entries whose names are not those of settings. -/
def others (e : Entries Literal) : Entries Literal :=
  e.filter fun entry => !(names.contains entry.1)

theorem others_eq_nil_iff : others e = [] ↔ ∀ key ∈ e.keys, key ∈ names := by
  simp [others, Entries.keys, List.filter_eq_nil_iff]

theorem nodup_keys_others (distinct : e.keys.Nodup) : (others e).keys.Nodup :=
  distinct.sublist (List.filter_sublist.map _)

theorem get?_others (custom : name ∉ names) : (others e).get? name = e.get? name := by
  induction e with
  | nil => rfl
  | cons f e ih =>
    rw [others, List.filter_cons]
    by_cases same : f.1 = name
    · have kept : (!(names.contains f.1)) = true := by simpa [same] using custom
      rw [if_pos kept, Entries.get?, Entries.get?, if_pos same, if_pos same]
    · split
      · rw [Entries.get?, Entries.get?, if_neg same, if_neg same]
        exact ih
      · rw [Entries.get?, if_neg same]
        exact ih

/-- Entries of other names join the custom settings. -/
theorem ofEntries_eq (e : Entries Literal) :
    ofEntries e = if others e = [] then .ok (ofKnown e) else
      (gatheredFrom ((e.get? "custom").getD .null)).map fun existing =>
        { ofKnown e with
          custom := .gathered (existing.update (Dictionary.ofEntries (others e))) } := by
  rw [ofEntries, others, gatheredFrom]
  simp only [List.isEmpty_iff]
  split
  · rfl
  · split <;> rfl

theorem entries_ofKnown (e : Entries Literal) :
    (ofKnown e).entries =
      ({} : Settings).entries.map fun f => (f.1, (e.get? f.1).getD f.2) := rfl

theorem get?_entries_ofKnown (e : Entries Literal) {name : Text}
    (field : name ∈ ({} : Settings).entries.keys) :
    (ofKnown e).entries.get? name = (e.get? name).or (({} : Settings).entries.get? name) := by
  rw [entries_ofKnown]
  generalize ({} : Settings).entries = fields at field ⊢
  induction fields with
  | nil => cases field
  | cons f fields ih =>
    rw [List.map_cons, Entries.get?, Entries.get?]
    by_cases same : f.1 = name
    · rw [if_pos same, if_pos same, same]
      cases e.get? name <;> rfl
    · rw [if_neg same, if_neg same]
      exact ih ((List.mem_cons.1 field).resolve_left (Ne.symm same))

/-- Entries of other names change the custom settings only. -/
theorem eq_of_ofEntries (loaded : ofEntries e = .ok s) :
    s = { ofKnown e with custom := s.custom } := by
  rw [ofEntries_eq] at loaded
  split at loaded
  · cases loaded
    rfl
  · obtain ⟨existing, -, rfl⟩ := map_eq_ok.1 loaded
    rfl

theorem entries_ofEntries (loaded : ofEntries e = .ok s) : s.entries = (ofKnown e).entries := by
  rw [eq_of_ofEntries loaded]
  rfl

end Settings

end SchemaTypings
