import SchemaTypings.Proofs.Saving
import SchemaTypings.Proofs.SettingsEntries

/-!
Which value of a setting counts when the defaults, a file and overrides give several. For a setting
with a field of its own the overrides count over the file and the file over the defaults. A custom
setting may stand beside the others or in the `custom` object, and this order is lost in two ways: a
value of the file beside the others counts over one inside the overrides' `custom` object, and that
object takes the place of the file's as a whole.
-/

namespace SchemaTypings

/-! ### What is read from a file -/

namespace Json

theorem ne_object_of_number? {s rest : Text} {v : Literal} (h : number? s = some (v, rest))
    (es : Entries Literal) : v ≠ .object es := by
  unfold number? at h
  split at h
  next negative body _ =>
  extract_lets digits whole tail fraction tail' exponent tail'' number at h
  split at h
  · cases h
  · simp only [number] at h
    split at h
    · obtain ⟨n, -, h⟩ := Option.bind_eq_some_iff.1 h
      rw [← (Prod.mk.inj (Option.some.inj h)).1]
      nofun
    · obtain ⟨x, -, h⟩ := Option.bind_eq_some_iff.1 h
      rw [← (Prod.mk.inj (Option.some.inj h)).1]
      nofun

/-- An object that is read has no key twice. -/
theorem nodup_keys_of_value {fuel : Nat} {s rest : Text} {es : Entries Literal}
    (h : value fuel s = .ok (.object es, rest)) : es.keys.Nodup := by
  cases fuel with
  | zero => cases h
  | succ fuel =>
    rw [value.eq_def] at h
    dsimp only at h
    cases s with
    | nil => cases h
    | cons c s =>
      dsimp only at h
      split at h
      · obtain ⟨found, -, same⟩ := map_eq_ok.1 h
        cases same
      split at h
      · split at h
        · split at h
          · cases h
          · obtain ⟨found, -, same⟩ := map_eq_ok.1 h
            cases same
        · cases h
      split at h
      · split at h
        · split at h
          · cases h
            exact List.nodup_nil
          · obtain ⟨found, -, same⟩ := map_eq_ok.1 h
            cases same
            exact @Entries.nodup_keys_update _ [] List.nodup_nil _
        · cases h
      split at h
      · next w found =>
        have words : ∀ w ∈ words, ∀ es, w.2 ≠ .object es := by
          simp [words]
        exact absurd (Prod.mk.inj (Except.ok.inj h)).1
          (words _ (List.mem_of_find?_eq_some found) es)
      · split at h
        · next number found =>
          cases h
          exact absurd rfl (ne_object_of_number? found es)
        · cases h

theorem nodup_keys_of_read {s : Text} {es : Entries Literal} (h : read s = .ok (.object es)) :
    es.keys.Nodup := by
  rw [read] at h
  split at h
  · cases h
  split at h
  · cases h
  · next parsed =>
    dsimp only at h
    split at h
    · cases h
      exact nodup_keys_of_value parsed
    · cases h

end Json

namespace Settings

/-- A settings file has the suffix of JSON, and the text of an object. -/
theorem text_of_readFile {tree : FileTree} {path : PathName} {given : Entries Literal}
    (read : readFile tree path = .ok given) :
    path.suffix.lower = ".json" ∧
      ∃ text, tree.readText path = .ok (some text) ∧ Json.read text = .ok (.object given) := by
  rw [readFile] at read
  obtain ⟨there, -, read⟩ := bind_eq_ok.1 read
  cases there with
  | false => cases read
  | true =>
    by_cases json : path.suffix.lower = ".json"
    · simp only [json, Bool.not_true, Bool.false_eq_true, ne_eq, not_true, if_false] at read
      split at read
      · cases read
      · cases read
      · cases read
      · next text shown =>
        split at read
        · cases read
        · next parsed =>
          cases read
          exact ⟨json, text, shown, parsed⟩
        · cases read
    · simp only [json, Bool.not_true, Bool.false_eq_true, ne_eq, not_false_eq_true, if_false,
        if_true] at read
      cases read

theorem nodup_keys_of_readFile {tree : FileTree} {path : PathName} {given : Entries Literal}
    (read : readFile tree path = .ok given) : given.keys.Nodup := by
  obtain ⟨-, text, -, parsed⟩ := text_of_readFile read
  exact Json.nodup_keys_of_read parsed

theorem ne_nil_of_readFile {tree : FileTree} {file : Text} {given : Entries Literal}
    (read : readFile tree (PathName.ofText file) = .ok given) : file ≠ [] := by
  rintro rfl
  have other : (PathName.ofText []).suffix.lower ≠ ".json" := by decide
  exact other (text_of_readFile read).1

end Settings

/-! ### Sources and their order -/

/-- The value under a name in an object. -/
def Literal.entry? : Literal → Text → Option Literal
  | .object es, name => Entries.get? es name
  | _, _ => none

namespace Settings

/-- The value that a source gives to a custom setting inside its `custom` object. -/
def nested? (source : Entries Literal) (name : Text) : Option Literal :=
  (source.get? "custom").bind fun v => v.entry? name

/-- The value that a source sets. A custom setting stands beside the others, or else inside the
`custom` object. -/
def set? (source : Entries Literal) (name : Text) : Option Literal :=
  (source.get? name).or (if names.contains name then none else nested? source name)

/-- The value of a setting: of a field, or of a custom setting. -/
def value? (s : Settings) (name : Text) : Option Literal :=
  if names.contains name then s.entries.get? name
  else s.custom.dictionary?.bind fun d => d.get? (.text name)

/-- The value of the overrides if they set one, else that of the file, else the default. -/
def ranked? (overrides given : Entries Literal) (name : Text) : Option Literal :=
  ((set? overrides name).or (set? given name)).or (({} : Settings).value? name)

/-- The overrides set a custom setting inside `custom`, and the file has another value for it beside
the others. -/
def IsShadowed (overrides given : Entries Literal) (name : Text) : Prop :=
  overrides.get? name = none ∧
    ∃ v w, nested? overrides name = some v ∧ given.get? name = some w ∧ v ≠ w

/-- Only the file sets a custom setting, inside a `custom` object that one of the overrides
replaces. -/
def IsReplaced (overrides given : Entries Literal) (name : Text) : Prop :=
  overrides.get? name = none ∧ given.get? name = none ∧ (overrides.get? "custom").isSome ∧
    nested? overrides name = none ∧ (nested? given name).isSome

theorem set?_known (source : Entries Literal) {name : Text} (known : name ∈ names) :
    set? source name = source.get? name := by
  rw [set?, if_pos (List.contains_iff_mem.2 known), Option.or_none]

theorem set?_other (source : Entries Literal) {name : Text} (custom : name ∉ names) :
    set? source name = (source.get? name).or (nested? source name) := by
  rw [set?, if_neg (mt List.contains_iff_mem.1 custom)]

theorem value?_known (s : Settings) {name : Text} (known : name ∈ names) :
    s.value? name = s.entries.get? name := by
  rw [value?, if_pos (List.contains_iff_mem.2 known)]

theorem value?_other (s : Settings) {name : Text} (custom : name ∉ names) :
    s.value? name = s.custom.dictionary?.bind fun d => d.get? (.text name) := by
  rw [value?, if_neg (mt List.contains_iff_mem.1 custom)]

variable {tree : FileTree} {overrides given e : Entries Literal} {s : Settings} {name : Text}

theorem get?_gatheredFrom {v : Literal} {d : Dictionary} (read : gatheredFrom v = .ok d)
    (unlisted : ∀ items, v ≠ .list items) (name : Text) :
    d.get? (.text name) = v.entry? name := by
  cases v with
  | list items => exact absurd rfl (unlisted items)
  | object es =>
    rw [gatheredFrom] at read
    split at read
    · cases read
      exact Dictionary.get?_ofEntries es name
    · next empty =>
      cases read
      cases es with
      | nil => rfl
      | cons => exact absurd rfl empty
  | text t =>
    cases t with
    | nil => cases read; rfl
    | cons => cases read
  | _ =>
    rw [gatheredFrom] at read
    split at read
    · cases read
    · cases read
      rfl

/-- The settings have what the entries set, if no list stands under `custom`. -/
theorem value?_of_ofEntries (distinct : e.keys.Nodup) (loaded : ofEntries e = .ok s)
    (unlisted : ∀ items, e.get? "custom" ≠ some (.list items)) (custom : name ∉ names) :
    s.value? name = set? e name := by
  rw [value?_other s custom, set?_other e custom, nested?]
  rw [ofEntries_eq] at loaded
  split at loaded
  · next known =>
    cases loaded
    have absent : e.get? name = none := by rw [← get?_others custom, known]; rfl
    have given : (ofKnown e).custom = .given ((e.get? "custom").getD (.object [])) := rfl
    rw [absent, Option.none_or, given]
    cases e.get? "custom" with
    | none => rfl
    | some v =>
      cases v with
      | object es => exact Dictionary.get?_ofEntries es name
      | _ => rfl
  · obtain ⟨existing, read, rfl⟩ := map_eq_ok.1 loaded
    have joined : (existing.update (Dictionary.ofEntries (others e))).get? (.text name) =
        (e.get? name).or (existing.get? (.text name)) := by
      rw [Dictionary.get?_update_ofEntries (nodup_keys_others distinct), get?_others custom]
    refine joined.trans (congrArg _ ?_)
    rw [get?_gatheredFrom read ?_ name]
    · cases e.get? "custom" <;> rfl
    · intro items same
      cases given : e.get? "custom" with
      | none => rw [given] at same; cases same
      | some v => exact unlisted items (given.trans (congrArg some (by rwa [given] at same)))

/-! ### The settings of a file and overrides -/

theorem merge_of_readFile {language file : Text}
    (read : readFile tree (PathName.ofText file) = .ok given) :
    merge tree language overrides (some file) =
      ofEntries (((defaults language).update given).update overrides) := by
  have filled : file.isEmpty = false := by simpa using ne_nil_of_readFile read
  rw [merge]
  dsimp only
  rw [filled, read]
  rfl

theorem get?_merged (distinct : overrides.keys.Nodup) (once : given.keys.Nodup) (name : Text) :
    (((defaults "typescript").update given).update overrides).get? name =
      ((overrides.get? name).or (given.get? name)).or ((defaults "typescript").get? name) := by
  rw [Entries.get?_update _ distinct, Entries.get?_update _ once, Option.or_assoc]

/-- The defaults of the language are those of the settings. -/
theorem get?_defaults_or (field : name ∈ ({} : Settings).entries.keys) :
    ((defaults "typescript").get? name).or (({} : Settings).entries.get? name) =
      ({} : Settings).entries.get? name := by
  simp only [entries, Entries.keys_cons, Entries.keys_nil, List.mem_cons, List.not_mem_nil,
    or_false] at field
  rcases field with rfl | rfl | rfl | rfl | rfl | rfl | rfl | rfl | rfl | rfl | rfl | rfl | rfl <;>
    rfl

theorem get?_defaults_of_not_mem (custom : name ∉ names) :
    (defaults "typescript").get? name = none := by
  have known : ∀ key ∈ (defaults "typescript").keys, key ∈ names := by decide
  exact Entries.get?_eq_none_iff.2 fun mem => custom (known name mem)

theorem value?_default (custom : name ∉ names) : ({} : Settings).value? name = none := by
  rw [value?_other _ custom]
  rfl

/-- A field has the value of the overrides, else of the file, else the default. -/
theorem value?_of_field (distinct : overrides.keys.Nodup) (once : given.keys.Nodup)
    (loaded : ofEntries (((defaults "typescript").update given).update overrides) = .ok s)
    (known : name ∈ names) (field : name ∈ ({} : Settings).entries.keys) :
    s.value? name = ranked? overrides given name := by
  rw [value?_known s known, entries_ofEntries loaded, get?_entries_ofKnown _ field,
    get?_merged distinct once, Option.or_assoc, get?_defaults_or field, ranked?,
    set?_known _ known, set?_known _ known, value?_known _ known]

/-- A custom setting has the value beside the others, else that inside the `custom` object that
counts. -/
theorem value?_of_custom (distinct : overrides.keys.Nodup) (once : given.keys.Nodup)
    (loaded : ofEntries (((defaults "typescript").update given).update overrides) = .ok s)
    (unlisted : ∀ items, (overrides.get? "custom").or (given.get? "custom") ≠ some (.list items))
    (custom : name ∉ names) :
    s.value? name = ((overrides.get? name).or (given.get? name)).or
      (((overrides.get? "custom").or (given.get? "custom")).bind fun v => v.entry? name) := by
  have default : (defaults "typescript").get? "custom" = some (.object []) := rfl
  have one := Entries.nodup_keys_update
    (Entries.nodup_keys_update (by decide : (defaults "typescript").keys.Nodup) given) overrides
  rw [value?_of_ofEntries one loaded ?_ custom, set?_other _ custom, nested?,
    get?_merged distinct once, get?_merged distinct once, get?_defaults_of_not_mem custom,
    Option.or_none, default]
  · congr 1
    cases (overrides.get? "custom").or (given.get? "custom") <;> rfl
  · intro items
    rw [get?_merged distinct once, default]
    revert unlisted
    cases (overrides.get? "custom").or (given.get? "custom") with
    | none => simp
    | some v => exact fun unlisted => unlisted items

/-- Whenever the settings of a JSON file and overrides are merged, the overrides' value counts over
the file's and the file's over the default, for every setting with a field; and for a custom setting
unless the file's value beside the others counts over that inside the overrides' `custom` object, or
the latter takes the place of the file's. -/
theorem value?_merge {file : Text} (distinct : overrides.keys.Nodup)
    (read : readFile tree (PathName.ofText file) = .ok given)
    (merged : merge tree "typescript" overrides (some file) = .ok s) (setting : name ≠ "custom") :
    (name ∈ names → s.value? name = ranked? overrides given name) ∧
    (name ∉ names →
      (∀ items, (overrides.get? "custom").or (given.get? "custom") ≠ some (.list items)) →
      (s.value? name = ranked? overrides given name ↔
        ¬(IsShadowed overrides given name ∨ IsReplaced overrides given name))) := by
  have once := nodup_keys_of_readFile read
  rw [merge_of_readFile read] at merged
  constructor
  · intro known
    exact value?_of_field distinct once merged known
      (((mem_names_iff _).1 known).resolve_right setting)
  · intro custom unlisted
    rw [value?_of_custom distinct once merged unlisted custom, ranked?, set?_other _ custom,
      set?_other _ custom, value?_default custom, Option.or_none, IsShadowed, IsReplaced]
    cases own : overrides.get? name with
    | some v => simp
    | none =>
      cases inside : nested? overrides name with
      | some v =>
        obtain ⟨w, there, entry⟩ := Option.bind_eq_some_iff.1 inside
        cases given.get? name with
        | none => simp [there, entry]
        | some u => simpa using eq_comm
      | none =>
        cases given.get? name with
        | some u => simp
        | none =>
          cases there : overrides.get? "custom" with
          | none => simp [nested?]
          | some c =>
            have missing : c.entry? name = none := by rwa [nested?, there] at inside
            cases nested? given name <;> simp [missing]

/-- A tree with a settings file that sets a custom setting beside the others. -/
def customTree : FileTree :=
  FileTree.empty.set ["c.json"] (.file ((Utf8.encode? "\x7b\"x\": 1\x7d").getD []))

theorem readFile_customTree :
    readFile customTree (PathName.ofText "c.json") = .ok [("x", .int 1)] := by
  have read : (readFile customTree (PathName.ofText "c.json")).toOption.map
      (fun es => es.map fun e => (e.1, e.2.integer?, e.2.isNumber)) =
        some [(("x" : Text), some 1, true)] := by decide +kernel
  obtain ⟨es, found, shown⟩ := Option.map_eq_some_iff.1 read
  obtain ⟨⟨key, v⟩, rfl, one⟩ := List.map_eq_singleton_iff.1 shown
  rw [ok_of_toOption found]
  cases v <;> simp_all [Literal.integer?, Literal.isNumber]

theorem value?_merge_customTree :
    Entries.keys [("indent_size", Literal.int 4)] = ["indent_size"] ∧
      readFile customTree (PathName.ofText "c.json") = .ok [("x", .int 1)] ∧
      ∃ s, merge customTree "typescript" [("indent_size", .int 4)] (some "c.json") = .ok s ∧
        s.value? "indent_size" =
          ranked? [("indent_size", .int 4)] [("x", .int 1)] "indent_size" ∧
        s.value? "x" = ranked? [("indent_size", .int 4)] [("x", .int 1)] "x" := by
  have merged := @merge_of_readFile _ [("indent_size", .int 4)] _ "typescript" _ readFile_customTree
  have distinct : (Entries.keys [("indent_size", Literal.int 4)]).Nodup := by decide
  refine ⟨rfl, readFile_customTree, _, merged, ?_, ?_⟩
  · exact (value?_merge distinct readFile_customTree merged (by decide)).1 (by decide)
  · refine ((value?_merge distinct readFile_customTree merged (by decide)).2 (by decide) ?_).2 ?_
    · nofun
    · rintro (⟨-, v, w, inside, -⟩ | ⟨-, -, given, -⟩)
      · cases inside
      · cases given

/-- A value inside the overrides' `custom` object gives way to one of the file. -/
theorem merge_customTree_nested :
    readFile customTree (PathName.ofText "c.json") = .ok [("x", .int 1)] ∧
      ∃ s, merge customTree "typescript" [("custom", .object [("x", .int 2)])] (some "c.json") =
          .ok s ∧
        s.value? "x" = some (.int 1) ∧
        ranked? [("custom", .object [("x", .int 2)])] [("x", .int 1)] "x" = some (.int 2) :=
  ⟨readFile_customTree, _, merge_of_readFile readFile_customTree, rfl, rfl⟩

end Settings

end SchemaTypings
