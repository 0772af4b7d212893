import SchemaTypings.Proofs.Quoting

/-!
Literal values as their canonical text is read. A key that is a name and a line feed loses the line
feed, and a number that is not finite becomes a name or a string; nothing else changes.
-/

namespace SchemaTypings

/-! ### All through a value -/

namespace Literal

/-- Induction over a value, whose parts are the items of a list and the values of an object. -/
@[elab_as_elim]
theorem induct {motive : Literal → Prop} (null : motive .null) (bool : ∀ b, motive (.bool b))
    (int : ∀ i, motive (.int i)) (float : ∀ x, motive (.float x)) (text : ∀ s, motive (.text s))
    (list : ∀ items, (∀ v ∈ items, motive v) → motive (.list items))
    (object : ∀ es, (∀ e ∈ es, motive e.2) → motive (.object es)) (v : Literal) : motive v := by
  induction h : sizeOf v using Nat.strongRecOn generalizing v with
  | ind n ih =>
    subst h
    cases v with
    | null => exact null
    | bool b => exact bool b
    | int i => exact int i
    | float x => exact float x
    | text s => exact text s
    | list items =>
      refine list items fun v hv => ih (sizeOf v) ?_ v rfl
      have := List.sizeOf_lt_of_mem hv
      simp only [Literal.list.sizeOf_spec]
      omega
    | object es =>
      refine object es fun e he => ih (sizeOf e.2) ?_ e.2 rfl
      have := List.sizeOf_lt_of_mem he
      obtain ⟨k, v⟩ := e
      simp only [Literal.object.sizeOf_spec, Prod.mk.sizeOf_spec] at this ⊢
      omega

mutual

/-- Whether a value and all its parts satisfy `p`. -/
def everywhere (p : Literal → Bool) : Literal → Bool
  | .list items => p (.list items) && everywhereItems p items
  | .object entries => p (.object entries) && everywhereEntries p entries
  | v => p v

def everywhereItems (p : Literal → Bool) : List Literal → Bool
  | [] => true
  | v :: rest => v.everywhere p && everywhereItems p rest

def everywhereEntries (p : Literal → Bool) : List (Text × Literal) → Bool
  | [] => true
  | (_, v) :: rest => v.everywhere p && everywhereEntries p rest

end

@[simp] theorem everywhere_list (p : Literal → Bool) (items : List Literal) :
    (list items).everywhere p = (p (.list items) && items.all (everywhere p)) := by
  have all : everywhereItems p items = items.all (everywhere p) := by
    induction items with
    | nil => rfl
    | cons v rest ih => rw [everywhereItems, ih, List.all_cons]
  rw [everywhere, all]

@[simp] theorem everywhere_object (p : Literal → Bool) (es : Entries Literal) :
    (object es).everywhere p = (p (.object es) && es.all fun e => e.2.everywhere p) := by
  have all : everywhereEntries p es = es.all fun e => e.2.everywhere p := by
    induction es with
    | nil => rfl
    | cons e rest ih => rw [everywhereEntries, ih, List.all_cons]
  rw [everywhere, all]

theorem of_everywhere {p : Literal → Bool} {v : Literal} (h : v.everywhere p = true) :
    p v = true := by
  cases v with
  | list => exact (Bool.and_eq_true_iff.1 h).1
  | object => exact (Bool.and_eq_true_iff.1 h).1
  | _ => exact h

/-- Whether the keys satisfy `p`, if the value is an object. -/
def onKeys (p : List Text → Bool) : Literal → Bool
  | .object entries => p (Entries.keys entries)
  | _ => true

theorem onKeys_map {α : Type} (p : List Text → Bool) (f : Text → α → Literal) (es : Entries α) :
    onKeys p (.object (es.map fun e => (e.1, f e.1 e.2))) = p es.keys := by
  rw [onKeys, Entries.keys_map]

end Literal

namespace Raw

variable {path text : Text → Prop} {keys : List Text → Prop} {p : Literal → Bool}

/-- What a value with such paths, texts and keys is quoted as satisfies `p`, as do its parts: a path
and a text may become the tag of a type. -/
structure Quotes (path text : Text → Prop) (keys : List Text → Prop) (p : Literal → Bool) :
    Prop where
  paths : ∀ s, path s → p (.text (typeOfPath s)) = true ∧ p (.text s) = true
  texts : ∀ s, text s → p (.text (typeOfText s)) = true ∧ p (.text s) = true
  objects : ∀ es, keys (Entries.keys es) → p (.object es) = true
  others : ∀ v : Literal, v.isText = false → (∀ es, v ≠ .object es) → p v = true

theorem quotes_onKeys {q : List Text → Bool} (h : ∀ ks, keys ks → q ks = true) :
    Quotes path text keys (Literal.onKeys q) where
  paths _ _ := ⟨rfl, rfl⟩
  texts _ _ := ⟨rfl, rfl⟩
  objects _ := h _
  others v _ other := by
    cases v with
    | object es => exact absurd rfl (other es)
    | _ => rfl

/-- What is quoted satisfies `p` in all its parts. -/
theorem Holds.everywhere_quoted {v : Raw} (quotes : Quotes path text keys p)
    (h : v.Holds path text keys) :
    (quoteType v).everywhere p = true ∧ (quoteOption v).everywhere p = true := by
  induction h with
  | bare h => exact quotes.paths _ h
  | text h => exact quotes.texts _ h
  | null | bool | int | float => exact ⟨quotes.others _ rfl nofun, quotes.others _ rfl nofun⟩
  | list _ ih =>
    have own (items : List Literal) : p (.list items) = true := quotes.others _ rfl nofun
    simp only [quoteType_list, quoteOption_list, Literal.everywhere_list, own, Bool.true_and,
      List.all_map, List.all_eq_true, Function.comp_apply]
    exact ⟨fun v hv => (ih v hv).1, fun v hv => (ih v hv).2⟩
  | @object es hk _ ih =>
    have own (f : Text → Raw → Literal) : p (.object (es.map fun e => (e.1, f e.1 e.2))) = true :=
      quotes.objects _ (by rwa [Entries.keys_map])
    have type := own (quoteIn es)
    have option := own fun _ => quoteOption
    simp only [quoteType_object, quoteOption_object, Literal.everywhere_object, type, option,
      Bool.true_and, List.all_map, List.all_eq_true, Function.comp_apply]
    refine ⟨fun e he => ?_, fun e he => (ih e he).2⟩
    rw [quoteIn]
    split
    · exact (ih e he).2
    · exact (ih e he).1

theorem Holds.everywhere_quoteFields {es : Entries Raw} (quotes : Quotes path text keys p)
    (h : (Raw.object es).Holds path text keys) :
    (Literal.object (quoteFields es)).everywhere p = true := by
  cases h with
  | object hk values =>
    have own : p (.object (es.map fun e => (e.1, quoteType e.2))) = true :=
      quotes.objects _ (by rwa [Entries.keys_map fun _ => quoteType])
    rw [quoteFields_eq_map, Literal.everywhere_object, own, Bool.true_and, List.all_map,
      List.all_eq_true]
    exact fun e he => ((values e he).everywhere_quoted quotes).1

end Raw

/-! ### Keys and numbers -/

namespace Text

/-- Whether the text is a name and one line feed behind it. -/
def isNameAndFeed (s : Text) : Bool := s.getLast? = some '\n' && isName s.dropLast

/-- What the text of a key is read as. -/
def keyRead (key : Text) : Text := if key.isNameAndFeed then key.dropLast else key

variable {s : Text}

theorem passesAsName_eq (s : Text) : s.passesAsName = (s.isName || s.isNameAndFeed) := rfl

/-- There is no line feed in a name. -/
theorem not_mem_of_isName (h : s.isName = true) : ('\n' : CodePoint) ∉ s := by
  cases s with
  | nil => simp
  | cons c rest =>
    simp only [isName, Bool.and_eq_true, List.all_eq_true] at h
    intro feed
    have start : ¬CodePoint.isNameStart '\n' = true := by decide
    have part : ¬CodePoint.isNamePart '\n' = true := by decide
    rcases List.mem_cons.1 feed with rfl | feed
    · exact start h.1
    · exact part (h.2 _ feed)

theorem exists_of_isNameAndFeed (h : s.isNameAndFeed = true) :
    ∃ name : Text, name.isName = true ∧ s = name ++ [('\n' : CodePoint)] := by
  simp only [isNameAndFeed, Bool.and_eq_true, decide_eq_true_eq] at h
  obtain ⟨name, rfl⟩ := List.getLast?_eq_some_iff.1 h.1
  exact ⟨name, by simpa using h.2, rfl⟩

theorem not_isNameAndFeed_of_not_mem (h : ('\n' : CodePoint) ∉ s) : s.isNameAndFeed = false := by
  refine Bool.eq_false_iff.2 fun feed => ?_
  obtain ⟨name, -, rfl⟩ := exists_of_isNameAndFeed feed
  simp at h

theorem keyRead_of_not_isNameAndFeed (h : s.isNameAndFeed = false) : s.keyRead = s := by
  simp [keyRead, h]

@[simp] theorem keyRead_append_feed {name : Text} (h : name.isName = true) :
    keyRead (name ++ [('\n' : CodePoint)]) = name := by
  simp [keyRead, isNameAndFeed, h]

/-- A key that is read loses no line feed when it is read again. -/
theorem not_isNameAndFeed_keyRead (s : Text) : s.keyRead.isNameAndFeed = false := by
  cases h : s.isNameAndFeed with
  | false => rwa [keyRead_of_not_isNameAndFeed h]
  | true =>
    obtain ⟨name, isName, rfl⟩ := exists_of_isNameAndFeed h
    rw [keyRead_append_feed isName]
    exact not_isNameAndFeed_of_not_mem (not_mem_of_isName isName)

end Text

namespace Binary64

def isFinite : Binary64 → Bool
  | .finite .. => true
  | _ => false

/-- What the text of a number is read as. -/
def reread : Binary64 → Raw
  | .infinite false => .bare "inf"
  | .infinite true => .text "-inf"
  | .nan => .bare "nan"
  | x => .float x

end Binary64

/-! ### Values as their text is read -/

namespace Literal

/-- No two keys of an object are the same. -/
def hasDistinctKeys : Literal → Bool := onKeys fun keys => decide keys.Nodup

/-- No key of an object is a name and a line feed behind it. -/
def keepsKeys : Literal → Bool := onKeys fun keys => keys.all (!·.isNameAndFeed)

/-- The value is no number, or a finite one. -/
def isFinite : Literal → Bool
  | .float x => x.isFinite
  | _ => true

mutual

/-- What the text of a value is read as, leniently. -/
def reread : Literal → Raw
  | .null => .null
  | .bool b => .bool b
  | .int i => .int i
  | .float x => x.reread
  | .text s => .text s
  | .list items => .list (rereadItems items)
  | .object entries => .object (Entries.lastWins (rereadEntries entries))

def rereadItems : List Literal → List Raw
  | [] => []
  | v :: rest => v.reread :: rereadItems rest

def rereadEntries : List (Text × Literal) → List (Text × Raw)
  | [] => []
  | (k, v) :: rest => (k.keyRead, v.reread) :: rereadEntries rest

end

/-- What the text of a value is read as, if no types are told from plain values. -/
def respelled (v : Literal) : Literal := Raw.quoteOption v.reread

theorem rereadItems_eq_map (items : List Literal) : rereadItems items = items.map reread := by
  induction items with
  | nil => rfl
  | cons v rest ih => rw [rereadItems, ih, List.map_cons]

theorem rereadEntries_eq_map (es : List (Text × Literal)) :
    rereadEntries es = es.map fun e => (e.1.keyRead, e.2.reread) := by
  induction es with
  | nil => rfl
  | cons e rest ih => rw [rereadEntries, ih, List.map_cons]

@[simp] theorem reread_list (items : List Literal) :
    (list items).reread = .list (items.map reread) := by
  rw [reread, rereadItems_eq_map]

@[simp] theorem reread_object (es : Entries Literal) :
    (object es).reread =
      .object (Entries.lastWins (es.map fun e => (e.1.keyRead, e.2.reread))) := by
  rw [reread, rereadEntries_eq_map]

@[simp] theorem respelled_list (items : List Literal) :
    (list items).respelled = .list (items.map respelled) := by
  simp [respelled, Function.comp_def]

@[simp] theorem respelled_object (es : Entries Literal) :
    (object es).respelled =
      .object (Entries.lastWins (es.map fun e => (e.1.keyRead, e.2.respelled))) := by
  have mapped := Entries.map_moveAll Raw.quoteOption [] (es.map fun e => (e.1.keyRead, e.2.reread))
  rw [respelled, reread_object, Raw.quoteOption_object]
  refine congrArg object (mapped.trans ?_)
  rw [List.map_map]
  rfl

end Literal

namespace Entries

variable {α : Type}

/-- Of entries that are put in one after another, those that are left are among them. -/
theorem mem_of_mem_lastWins {es : List (Text × α)} {e : Text × α} (h : e ∈ lastWins es) :
    e ∈ es := by
  have all : ∀ (es : List (Text × α)) (before : Entries α), e ∈ moveAll before es →
      e ∈ before ∨ e ∈ es := by
    intro es
    induction es with
    | nil => exact fun _ h => .inl h
    | cons first rest ih =>
      obtain ⟨k, v⟩ := first
      intro before h
      rcases ih (before.move k v) h with h | h
      · rcases List.mem_append.1 h with h | h
        · exact .inl ((List.mem_filter.1 h).1)
        · exact .inr (List.mem_cons.2 (.inl (List.mem_singleton.1 h)))
      · exact .inr (List.mem_cons_of_mem _ h)
  exact (all es [] h).resolve_left List.not_mem_nil

end Entries

namespace Literal

/-- A value whose parts satisfy `p` is read with such texts and keys as `p` asks for. -/
theorem reread_holds {p : Literal → Bool} {text key : Text → Prop}
    (texts : ∀ s, p (.text s) = true → text s) (words : text "inf" ∧ text "-inf" ∧ text "nan")
    (keys : ∀ es, p (.object es) = true → ∀ k ∈ Entries.keys es, key k.keyRead) (v : Literal)
    (h : v.everywhere p = true) :
    v.reread.Holds text text fun keys => ∀ k ∈ keys, key k := by
  induction v using induct with
  | null => exact .null
  | bool b => exact .bool b
  | int i => exact .int i
  | float x =>
    cases x with
    | finite => exact .float _
    | infinite negative =>
      cases negative
      · exact .bare words.1
      · exact .text words.2.1
    | nan => exact .bare words.2.2
  | text s => exact .text (texts s h)
  | list items ih =>
    rw [everywhere_list, Bool.and_eq_true, List.all_eq_true] at h
    rw [reread_list]
    refine .list fun w hw => ?_
    obtain ⟨v, hv, rfl⟩ := List.mem_map.1 hw
    exact ih v hv (h.2 v hv)
  | object es ih =>
    rw [everywhere_object, Bool.and_eq_true, List.all_eq_true] at h
    rw [reread_object]
    refine .object (fun k hk => ?_) fun e he => ?_
    · obtain ⟨e, he, rfl⟩ := List.mem_map.1 hk
      obtain ⟨e', he', rfl⟩ := List.mem_map.1 (Entries.mem_of_mem_lastWins he)
      exact keys es h.1 _ (List.mem_map_of_mem he')
    · obtain ⟨e', he', rfl⟩ := List.mem_map.1 (Entries.mem_of_mem_lastWins he)
      exact ih e' he' (h.2 e' he')

theorem quotes_keepsKeys {path text : Text → Prop} :
    Raw.Quotes path text (fun keys => ∀ k ∈ keys, k.isNameAndFeed = false) keepsKeys :=
  Raw.quotes_onKeys fun keys all => by simpa using all

/-- No key is read as a name and a line feed. -/
theorem reread_keepsKeys (v : Literal) :
    v.reread.Holds (fun _ => True) (fun _ => True)
      fun keys => ∀ k ∈ keys, k.isNameAndFeed = false := by
  have all : v.everywhere (fun _ => true) = true := by
    induction v using induct with
    | list items ih => simpa using ih
    | object es ih => simpa using ih
    | _ => rfl
  exact reread_holds (fun _ _ => trivial) ⟨trivial, trivial, trivial⟩
    (fun _ _ k _ => k.not_isNameAndFeed_keyRead) v all

/-- The object of a value that keeps its keys is read with these keys in this order. -/
theorem reread_object_of_kept {es : Entries Literal}
    (distinct : hasDistinctKeys (.object es) = true) (kept : keepsKeys (.object es) = true) :
    (object es).reread = .object (es.map fun e => (e.1, e.2.reread)) := by
  have same : (es.map fun e => (e.1.keyRead, e.2.reread)) =
      es.map fun e => (e.1, e.2.reread) := by
    refine List.map_congr_left fun e he => ?_
    have key := List.all_eq_true.1 kept e.1 (List.mem_map_of_mem he)
    rw [Text.keyRead_of_not_isNameAndFeed (by simpa using key)]
  have nodup : (Entries.keys (es.map fun e => (e.1, e.2.reread))).Nodup := by
    have keys := of_decide_eq_true distinct
    simpa [Entries.keys, Function.comp_def] using keys
  rw [reread_object, same, Entries.lastWins_of_nodup nodup]

theorem respelled_object_of_kept {es : Entries Literal}
    (distinct : hasDistinctKeys (.object es) = true) (kept : keepsKeys (.object es) = true) :
    (object es).respelled = .object (es.map fun e => (e.1, e.2.respelled)) := by
  rw [respelled, reread_object_of_kept distinct kept]
  simp [respelled, Function.comp_def]

/-- A value that keeps its keys and has only finite numbers is read as itself. -/
theorem respelled_eq {v : Literal} (distinct : v.everywhere hasDistinctKeys = true)
    (kept : v.everywhere keepsKeys = true) (finite : v.everywhere isFinite = true) :
    v.respelled = v := by
  induction v using induct with
  | null | bool | int | text => rfl
  | float x =>
    cases x with
    | finite => rfl
    | infinite | nan => cases finite
  | list items ih =>
    simp only [everywhere_list, Bool.and_eq_true, List.all_eq_true] at distinct kept finite
    rw [respelled_list, List.map_congr_left fun v hv =>
      ih v hv (distinct.2 v hv) (kept.2 v hv) (finite.2 v hv), List.map_id']
  | object es ih =>
    simp only [everywhere_object, Bool.and_eq_true, List.all_eq_true] at distinct kept finite
    have same (e : Text × Literal) (he : e ∈ es) : (e.1, e.2.respelled) = e := by
      rw [ih e he (distinct.2 e he) (kept.2 e he) (finite.2 e he)]
    rw [respelled_object_of_kept distinct.1 kept.1, List.map_congr_left same, List.map_id']

/-- Whether entries are the options of a field is read off their text. -/
theorem isOptions_reread {es : Entries Literal}
    (distinct : ∀ e ∈ es, e.2.everywhere hasDistinctKeys = true)
    (kept : ∀ e ∈ es, e.2.everywhere keepsKeys = true) :
    Raw.isOptions (es.map fun e => (e.1, e.2.reread)) = isOptions es := by
  rw [Raw.isOptions, Entries.get?_map (fun _ => reread), isOptions]
  cases type : es.get? "type" with
  | none => rfl
  | some v =>
    have mem := Entries.mem_of_get? type
    have distinct := distinct _ mem
    have kept := kept _ mem
    cases v with
    | object inner =>
      simp only [everywhere_object, Bool.and_eq_true] at distinct kept
      simp only [Option.map_some, reread_object_of_kept distinct.1 kept.1]
      rw [has_map fun _ => reread]
    | float x => cases x <;> first | rfl | (rename_i negative; cases negative <;> rfl)
    | list items => simp
    | _ => rfl

/-- Types that are quoted behind the reading are those that are quoted before it. -/
theorem quoteType_reread {v : Literal} (distinct : v.everywhere hasDistinctKeys = true)
    (kept : v.everywhere keepsKeys = true) : Raw.quoteType v.reread = v.typed.respelled := by
  induction v using induct with
  | null | bool | int | text => rfl
  | float x =>
    cases x with
    | infinite negative => cases negative <;> rfl
    | _ => rfl
  | list items ih =>
    simp only [everywhere_list, Bool.and_eq_true, List.all_eq_true] at distinct kept
    rw [typed_list, reread_list, Raw.quoteType_list, respelled_list, List.map_map, List.map_map]
    exact congrArg Literal.list
      (List.map_congr_left fun v hv => ih v hv (distinct.2 v hv) (kept.2 v hv))
  | object es ih =>
    simp only [everywhere_object, Bool.and_eq_true, List.all_eq_true] at distinct kept
    rw [reread_object_of_kept distinct.1 kept.1, Raw.quoteType_object, typed_object,
      respelled_object_of_kept ((onKeys_map ..).trans distinct.1) ((onKeys_map ..).trans kept.1),
      List.map_map, List.map_map]
    refine congrArg Literal.object (List.map_congr_left fun e he => ?_)
    have value := ih e he (distinct.2 e he) (kept.2 e he)
    -- Both sides quote the value as a type, or both leave it, by its key and by what `es` is.
    simp only [Function.comp_apply, Raw.quoteIn, isOptions_reread distinct.2 kept.2, typedIn]
    cases isOptions es <;> cases type : Raw.isTypeKey e.1 <;>
      simp [typedOption, type, value, respelled]

/-- What the text of a value is read as has no key that is a name and a line feed. -/
theorem keepsKeys_respelled (v : Literal) : v.respelled.everywhere keepsKeys = true :=
  (v.reread_keepsKeys.everywhere_quoted quotes_keepsKeys).2

end Literal

end SchemaTypings
