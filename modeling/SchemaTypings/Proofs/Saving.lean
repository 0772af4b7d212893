import SchemaTypings.Proofs.Equality
import SchemaTypings.Proofs.FileNames
import SchemaTypings.Proofs.SettingsEntries
import SchemaTypings.Proofs.Transcoding
import SchemaTypings.Settings.Store

/-!
Saved settings. What is loaded from them is equal to them if and only if no custom setting has the
name of a setting, which it would be taken for, and the file has a name before its suffix.
-/

namespace SchemaTypings

theorem exists_of_mem_mapM {ε α β : Type} {f : α → Except ε β} {as : List α} {bs : List β}
    (h : as.mapM f = .ok bs) {b : β} (mem : b ∈ bs) : ∃ a ∈ as, f a = .ok b := by
  induction as generalizing bs with
  | nil =>
    cases h
    cases mem
  | cons a as ih =>
    rw [List.mapM_cons, bind_eq_ok] at h
    obtain ⟨c, first, h⟩ := h
    obtain ⟨cs, others, h⟩ := bind_eq_ok.1 h
    cases h
    rcases List.mem_cons.1 mem with rfl | mem
    · exact ⟨a, List.mem_cons_self, first⟩
    · obtain ⟨a, ha, found⟩ := ih others mem
      exact ⟨a, List.mem_cons_of_mem _ ha, found⟩

/-! ### Equal settings -/

/-- Custom settings as a dictionary, if they are one. -/
def Custom.dictionary? : Custom → Option Dictionary
  | .given (.object es) => some (Dictionary.ofEntries es)
  | .given _ => none
  | .gathered d => some d

/-- Whether custom settings are equal, as dictionaries if they are that. -/
def Custom.equal (c other : Custom) : Bool :=
  match c.dictionary? with
  | some d => other.dictionary?.any d.equal
  | none =>
    match c, other with
    | .given v, .given w => v.equal w
    | _, _ => false

namespace Settings

/-- Whether settings are equal, the custom ones included. -/
def equal (s t : Settings) : Bool :=
  ((s.entries.zip t.entries).all fun e => e.1.2.equal e.2.2) && s.custom.equal t.custom

variable {s : Settings} {custom : Entries Literal}

theorem customDictionary_of_dictionary? {d : Dictionary} (h : s.custom.dictionary? = some d) :
    s.customDictionary = .ok d := by
  rw [customDictionary]
  revert h
  cases s.custom with
  | given v =>
    cases v with
    | object es =>
      rintro ⟨⟩
      rfl
    | _ => nofun
  | gathered e =>
    rintro ⟨⟩
    rfl

/-- The file holds the settings, renewed and followed by the custom ones. -/
theorem fileText_eq (given : s.custom.dictionary? = some (Dictionary.ofEntries custom)) :
    s.fileText = .ok (Literal.object (s.entries.update custom)).json := by
  rw [fileText, customDictionary_of_dictionary? given, ok_bind, Dictionary.update_ofEntries,
    Literal.ofDictionary_ofEntries]
  rfl

theorem nodup_keys_entries (s : Settings) : s.entries.keys.Nodup := by
  have names : (({} : Settings).entries.keys).Nodup := by decide
  exact names

theorem mem_names_iff (s : Settings) {key : Text} :
    key ∈ names ↔ key ∈ s.entries.keys ∨ key = "custom" := by
  have same : names = s.entries.keys ++ [("custom" : Text)] := rfl
  rw [same, List.mem_append, List.mem_singleton]

end Settings

/-! ### From the file -/

namespace Settings

open Literal (isDiscrete)

variable {s : Settings} {custom : Entries Literal} {tree after : FileTree} {path : PathName}

theorem everywhere_update (fields : ∀ e ∈ s.entries, e.2.everywhere isDiscrete = true)
    (values : (Literal.object custom).everywhere isDiscrete = true) :
    (Literal.object (s.entries.update custom)).everywhere isDiscrete = true := by
  rw [Literal.everywhere_object, Bool.and_eq_true, List.all_eq_true] at values ⊢
  refine ⟨decide_eq_true (Entries.nodup_keys_update s.nodup_keys_entries custom), fun e he => ?_⟩
  rcases Entries.mem_update he with he | he
  · exact fields e he
  · exact values.2 e he

/-- A save writes the text of the settings. -/
theorem exists_of_save (saved : s.save tree path = .ok after) :
    ∃ text bytes place, s.fileText = .ok text ∧ Utf8.encode? text = some bytes ∧
      tree.openFile path = .ok place ∧ tree.set place (.file bytes) = after := by
  rw [save, bind_eq_ok] at saved
  obtain ⟨text, shown, saved⟩ := saved
  split at saved
  · cases saved
  · cases saved
  next place opened =>
  split at saved
  · cases saved
  next bytes encoded =>
  split at saved
  · cases saved
    exact ⟨text, bytes, place, shown, encoded, opened, rfl⟩
  · cases saved

/-- Saved settings are read from their file, unless its name is the suffix alone. -/
theorem readFile_of_save {stem : Text} (name : path.name = stem ++ Text.ofString ".json")
    (given : s.custom.dictionary? = some (Dictionary.ofEntries custom))
    (discrete : (Literal.object (s.entries.update custom)).everywhere isDiscrete = true)
    (saved : s.save tree path = .ok after) :
    readFile after path =
      if stem = [] then .error (.settings ("Configuration file must be JSON: " ++ path.toText))
      else .ok (s.entries.update custom) := by
  obtain ⟨text, bytes, place, shown, encoded, opened, rfl⟩ := exists_of_save saved
  rw [fileText_eq given] at shown
  cases shown
  have there := FileTree.has_set opened bytes
  have text := FileTree.readText_set opened encoded
  rw [Literal.json, Text.unifyLineEnds_of_not_mem (Literal.not_mem_jsonBlock _ 0), ← Literal.json]
    at text
  have read := Literal.read_json discrete
  have lower : (Text.ofString ".json").lower = Text.ofString ".json" := by decide
  have suffix := PathName.suffix_of_name name
  rw [readFile, there, ok_bind, suffix]
  by_cases bare : stem = []
  · rw [if_pos bare, if_pos bare]
    rfl
  · rw [if_neg bare, if_neg bare, text, lower]
    dsimp only
    rw [read]
    rfl

/-! ### Known and custom entries -/

/-- What stands under the name of a setting in the custom settings stood under `custom`. -/
theorem get?_dictionary_of_ofEntries {es : Entries Literal} {t : Settings} {d : Dictionary}
    {key : Text} {v : Literal} (loaded : ofEntries es = .ok t)
    (given : t.custom.dictionary? = some d) (known : key ∈ names)
    (found : d.get? (.text key) = some v) :
    ∃ other, asDictionary ((es.get? "custom").getD (.object [])) = .ok other ∧
      other.get? (.text key) = some v := by
  rw [ofEntries_eq] at loaded
  split at loaded
  · cases loaded
    have custom : (ofKnown es).custom = .given ((es.get? "custom").getD (.object [])) := rfl
    rw [custom] at given
    revert given
    cases (es.get? "custom").getD (.object []) with
    | object fs =>
      rintro ⟨⟩
      exact ⟨_, rfl, found⟩
    | _ => nofun
  · have new : key ∉ (others es).keys := by
      intro mem
      obtain ⟨e, he, rfl⟩ := List.mem_map.1 mem
      simp [others, known] at he
    obtain ⟨existing, read, rfl⟩ := map_eq_ok.1 loaded
    cases given
    rw [Dictionary.get?_update_of_not_mem new] at found
    rw [gatheredFrom] at read
    split at read
    · next truthy =>
      cases there : es.get? "custom" with
      | none =>
        rw [there] at truthy
        cases truthy
      | some w =>
        rw [there] at read
        exact ⟨existing, read, found⟩
    · cases read
      cases found

theorem depth_le_of_asPair {v : Literal} {pair : Literal × Literal} (h : asPair v = .ok pair) :
    pair.2.depth ≤ v.depth := by
  rw [asPair.eq_def] at h
  split at h
  · cases h
  · cases h
  · cases h
    exact Nat.le_of_lt (Literal.depth_lt_list (by simp))
  · cases h
  · cases h
    exact Nat.zero_le _
  · cases h
  · cases h
    exact Nat.zero_le _
  · cases h
  · cases h

/-- An entry of a dictionary is not nested as deep as the value that the dictionary is. -/
theorem depth_lt_of_asDictionary {v w : Literal} {d : Dictionary} {key : Literal}
    (h : asDictionary v = .ok d) (found : d.get? key = some w) : w.depth < v.depth := by
  obtain ⟨e, mem, rfl⟩ := Dictionary.exists_of_get? found
  cases v with
  | object es =>
    cases h
    obtain ⟨f, hf, rfl⟩ := List.mem_map.1 mem
    exact Literal.depth_lt_object hf
  | list items =>
    rw [asDictionary, map_eq_ok] at h
    obtain ⟨pairs, each, rfl⟩ := h
    obtain ⟨pair, hp, same⟩ := Dictionary.exists_of_mem_ofList mem
    obtain ⟨item, hi, read⟩ := exists_of_mem_mapM each hp
    have nested := Literal.depth_lt_list hi
    rw [← same]
    exact Nat.lt_of_le_of_lt (depth_le_of_asPair read) nested
  | text s =>
    cases s with
    | nil =>
      cases h
      cases mem
    | cons => cases h
  | _ => cases h

/-! ### Settings that were saved -/

/-- The entries that are loaded from saved settings. -/
theorem get?_loaded (nodup : custom.keys.Nodup) (key : Text) :
    ((defaults "typescript").update (s.entries.update custom)).get? key =
      ((custom.get? key).or (s.entries.get? key)).or ((defaults "typescript").get? key) := by
  rw [Entries.get?_update _ (Entries.nodup_keys_update s.nodup_keys_entries custom),
    Entries.get?_update _ nodup]

theorem get?_entries_custom (s : Settings) : s.entries.get? "custom" = none := by
  have new : ("custom" : Text) ∉ ({} : Settings).entries.keys := by decide
  exact Entries.get?_eq_none_iff.2 new

theorem merge_eq {file : Text} (filled : file ≠ []) :
    merge tree "typescript" [] (some file) = (readFile tree (PathName.ofText file) >>= fun given =>
      ofEntries ((defaults "typescript").update given)) := by
  have some : file.isEmpty = false := by simpa using filled
  rw [merge]
  dsimp only
  rw [some]
  rfl

theorem ofKnown_eq {es : Entries Literal} (h : ∀ e ∈ s.entries, es.get? e.1 = some e.2) :
    ofKnown es = { s with custom := .given ((es.get? "custom").getD (.object [])) } := by
  simp only [entries, List.forall_mem_cons] at h
  simp [ofKnown, h]

theorem mem_names_of_mem_keys {key : Text}
    (h : key ∈ ((defaults "typescript").update s.entries).keys) : key ∈ names := by
  obtain ⟨e, he, rfl⟩ := List.mem_map.1 h
  rcases Entries.mem_update he with he | he
  · have all : ∀ e ∈ defaults "typescript", e.1 ∈ names := by decide
    exact all e he
  · exact (mem_names_iff s).2 (.inl (List.mem_map_of_mem he))

/-- Custom settings of other names are loaded behind all others. -/
theorem update_eq_append (disjoint : ∀ key ∈ custom.keys, key ∉ names)
    (nodup : custom.keys.Nodup) :
    (defaults "typescript").update (s.entries.update custom) =
      (defaults "typescript").update s.entries ++ custom := by
  have distinct : ((defaults "typescript").update s.entries ++ custom).keys.Nodup := by
    rw [Entries.keys_append]
    refine List.nodup_append.2 ⟨Entries.nodup_keys_update (by decide) _, nodup, ?_⟩
    rintro a ha b hb rfl
    exact disjoint a hb (mem_names_of_mem_keys ha)
  have apart : (s.entries ++ custom).keys.Nodup := by
    rw [Entries.keys_append]
    refine List.nodup_append.2 ⟨s.nodup_keys_entries, nodup, ?_⟩
    rintro a ha b hb rfl
    exact disjoint a hb ((mem_names_iff s).2 (.inl ha))
  rw [Entries.update_of_nodup apart, ← Entries.update_of_nodup distinct]
  exact List.foldl_append

/-- Without custom settings that have the name of a setting, all are told apart again. -/
theorem exists_ofEntries (disjoint : ∀ key ∈ custom.keys, key ∉ names)
    (nodup : custom.keys.Nodup) :
    ∃ t, ofEntries ((defaults "typescript").update (s.entries.update custom)) = .ok t ∧
      t.entries = s.entries ∧ t.custom.dictionary? = some (Dictionary.ofEntries custom) := by
  have absent {key : Text} (known : key ∈ names) : custom.get? key = none :=
    Entries.get?_eq_none_iff.2 fun mem => disjoint key mem known
  have fields : ∀ e ∈ s.entries,
      ((defaults "typescript").update (s.entries.update custom)).get? e.1 = some e.2 := by
    intro e he
    rw [get?_loaded nodup, absent ((mem_names_iff s).2 (.inl (List.mem_map_of_mem he))),
      Entries.get?_of_mem s.nodup_keys_entries he]
    rfl
  have default : ((defaults "typescript").update (s.entries.update custom)).get? "custom" =
      some (.object []) := by
    rw [get?_loaded nodup, absent ((mem_names_iff s).2 (.inr rfl)), get?_entries_custom]
    rfl
  have other : others ((defaults "typescript").update s.entries ++ custom) = custom := by
    rw [others, List.filter_append, List.filter_eq_nil_iff.2, List.filter_eq_self.2, List.nil_append]
    · intro e he
      simpa using disjoint e.1 (List.mem_map_of_mem he)
    · intro e he
      simpa using mem_names_of_mem_keys (List.mem_map_of_mem he)
  rw [ofEntries_eq, ofKnown_eq fields, default, update_eq_append disjoint nodup, other]
  split
  · next none =>
    refine ⟨_, rfl, rfl, ?_⟩
    rw [none]
    rfl
  · have new : Dictionary.update [] (Dictionary.ofEntries custom) =
        Dictionary.ofEntries custom := by
      have alone := Dictionary.update_ofEntries [] custom
      rwa [@Entries.update_of_nodup _ [] _ nodup] at alone
    refine ⟨_, rfl, rfl, ?_⟩
    exact congrArg some new

/-- What is loaded equal to saved settings was told apart from them. -/
theorem disjoint_of_equal {t : Settings} (nodup : custom.keys.Nodup)
    (given : s.custom.dictionary? = some (Dictionary.ofEntries custom))
    (loaded : ofEntries ((defaults "typescript").update (s.entries.update custom)) = .ok t)
    (same : s.equal t = true) : ∀ key ∈ custom.keys, key ∉ names := by
  intro key mem known
  obtain ⟨d, loadedAs, equal⟩ : ∃ d, t.custom.dictionary? = some d ∧
      (Dictionary.ofEntries custom).equal d = true := by
    have custom := (Bool.and_eq_true_iff.1 same).2
    rw [Custom.equal.eq_def, given] at custom
    exact (Option.any_eq_true _ _).1 custom
  have found {key : Text} {v : Literal} (there : custom.get? key = some v) (known : key ∈ names) :
      ∃ other w, asDictionary ((custom.get? "custom").getD (.object [])) = .ok other ∧
        other.get? (.text key) = some w ∧ v.equal w = true := by
    rw [Dictionary.equal, Bool.and_eq_true, List.all_eq_true] at equal
    have alike := equal.2 _ (List.mem_map_of_mem (Entries.mem_of_get? there))
    obtain ⟨w, under, alike⟩ := (Option.any_eq_true _ _).1 alike
    obtain ⟨other, read, under⟩ := get?_dictionary_of_ofEntries loaded loadedAs known under
    refine ⟨other, w, ?_, under, alike⟩
    rw [get?_loaded nodup, get?_entries_custom] at read
    rw [← read]
    cases custom.get? "custom" <;> rfl
  cases nested : custom.get? "custom" with
  | none =>
    obtain ⟨v, there⟩ := Option.ne_none_iff_exists'.1
      (mt Entries.get?_eq_none_iff.1 (not_not_intro mem))
    obtain ⟨other, w, read, under, -⟩ := found there known
    rw [nested] at read
    cases read
    cases under
  | some v =>
    obtain ⟨other, w, read, under, alike⟩ := found nested ((mem_names_iff s).2 (.inr rfl))
    rw [nested] at read
    have deeper := Literal.depth_le_of_equal alike
    have less := depth_lt_of_asDictionary read under
    exact absurd less (Nat.not_lt.2 deeper)

theorem equal_of_entries {t : Settings} (fields : ∀ e ∈ s.entries, e.2.everywhere isDiscrete = true)
    (values : (Literal.object custom).everywhere isDiscrete = true)
    (given : s.custom.dictionary? = some (Dictionary.ofEntries custom))
    (known : t.entries = s.entries) (other : t.custom.dictionary? = s.custom.dictionary?) :
    s.equal t = true := by
  rw [equal, known, Bool.and_eq_true, List.all_eq_true]
  refine ⟨fun e he => ?_, ?_⟩
  · rw [List.zip, List.zipWith_self] at he
    obtain ⟨f, hf, rfl⟩ := List.mem_map.1 he
    exact Literal.equal_self (fields f hf)
  · rw [Custom.equal.eq_def, other, given]
    exact Dictionary.equal_ofEntries values

/-- Settings that were saved are loaded as equal ones if and only if no custom setting has the name
of a setting and the file has a name before its suffix. -/
theorem merge_save_iff {file : Text} (fields : ∀ e ∈ s.entries, e.2.everywhere isDiscrete = true)
    (values : (Literal.object custom).everywhere isDiscrete = true)
    (given : s.custom.dictionary? = some (Dictionary.ofEntries custom))
    (json : file.endsWith ".json" = true) (saved : s.save tree (PathName.ofText file) = .ok after) :
    (∃ t, merge after "typescript" [] (some file) = .ok t ∧ s.equal t = true) ↔
      (∀ key ∈ custom.keys, key ∉ names) ∧ (PathName.ofText file).name ≠ ".json" := by
  have filled : file ≠ [] := by
    rintro rfl
    revert json
    decide
  have nodup : custom.keys.Nodup := by
    rw [Literal.everywhere_object, Bool.and_eq_true] at values
    exact of_decide_eq_true values.1
  obtain ⟨stem, name⟩ := PathName.exists_name_ofText json
  have read := readFile_of_save name given (everywhere_update fields values) saved
  have bare : (PathName.ofText file).name ≠ ".json" ↔ stem ≠ [] := by simp [name]
  rw [merge_eq filled, read, bare]
  by_cases empty : stem = []
  · rw [if_pos empty]
    simp [empty]
  · rw [if_neg empty, ok_bind]
    refine ⟨fun ⟨t, loaded, same⟩ => ⟨disjoint_of_equal nodup given loaded same, empty⟩,
      fun ⟨disjoint, _⟩ => ?_⟩
    obtain ⟨t, loaded, known, other⟩ := exists_ofEntries (s := s) disjoint nodup
    exact ⟨t, loaded, equal_of_entries fields values given known (other.trans given.symm)⟩

/-- Settings with a custom one. -/
def savedSample : Settings := { custom := .given (.object [("extra", .list [.int 1, .null])]) }

theorem merge_save_iff_sample :
    (∀ e ∈ savedSample.entries, e.2.everywhere isDiscrete = true) ∧
      (Literal.object [("extra", .list [.int 1, .null])]).everywhere isDiscrete = true ∧
      savedSample.custom.dictionary? =
        some (Dictionary.ofEntries [("extra", .list [.int 1, .null])]) ∧
      Text.endsWith "out.json" ".json" = true ∧
      ∃ after, savedSample.save FileTree.empty (PathName.ofText "out.json") = .ok after ∧
        ∃ t, merge after "typescript" [] (some "out.json") = .ok t ∧
          savedSample.equal t = true := by
  have fields : ∀ e ∈ savedSample.entries, e.2.everywhere isDiscrete = true := by decide
  have values : (Literal.object [("extra", .list [.int 1, .null])]).everywhere isDiscrete =
      true := by decide
  have given : savedSample.custom.dictionary? =
      some (Dictionary.ofEntries [("extra", .list [.int 1, .null])]) := rfl
  have json : Text.endsWith "out.json" ".json" = true := by decide
  have writes : (savedSample.save FileTree.empty (PathName.ofText "out.json")).toOption.isSome =
      true := by decide +kernel
  obtain ⟨after, saved⟩ := Option.isSome_iff_exists.1 writes
  have saved := ok_of_toOption saved
  exact ⟨fields, values, given, json, after, saved,
    (merge_save_iff fields values given json saved).2 ⟨by decide, by decide⟩⟩

/-- A file that is named as the suffix alone is written, but not taken for a settings file. -/
theorem not_merge_of_bare_suffix :
    (∀ e ∈ ({} : Settings).entries, e.2.everywhere isDiscrete = true) ∧
      ({} : Settings).custom.dictionary? = some (Dictionary.ofEntries []) ∧
      Text.endsWith ".json" ".json" = true ∧
      ∃ after, ({} : Settings).save FileTree.empty (PathName.ofText ".json") = .ok after ∧
        ¬((∃ t, merge after "typescript" [] (some ".json") = .ok t ∧
            ({} : Settings).equal t = true) ↔
          ∀ key ∈ Entries.keys ([] : Entries Literal), key ∉ names) := by
  have fields : ∀ e ∈ ({} : Settings).entries, e.2.everywhere isDiscrete = true := by decide
  have writes : (({} : Settings).save FileTree.empty (PathName.ofText ".json")).toOption.isSome =
      true := by decide +kernel
  obtain ⟨after, saved⟩ := Option.isSome_iff_exists.1 writes
  have saved := ok_of_toOption saved
  refine ⟨fields, rfl, by decide, after, saved, fun same => ?_⟩
  obtain ⟨t, loaded, -⟩ := same.2 (by simp)
  have name : (PathName.ofText ".json").name = [] ++ Text.ofString ".json" := rfl
  have given : ({} : Settings).custom.dictionary? = some (Dictionary.ofEntries []) := rfl
  have refused := readFile_of_save name given (everywhere_update fields (by decide)) saved
  rw [merge_eq (by decide), refused, if_pos rfl, error_bind] at loaded
  cases loaded

end Settings

end SchemaTypings
