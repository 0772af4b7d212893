import SchemaTypings.Dictionary
import SchemaTypings.Proofs.JsonText

/-!
Equal values. Objects and dictionaries are equal whatever the order of their entries, and a truth
value is equal to one or to zero. A value is equal to none that it is nested in.
-/

namespace SchemaTypings

/-! ### Entries under their keys -/

namespace Entries

variable {α : Type} {es more : Entries α} {key : Text}

theorem get?_eq_none_iff : es.get? key = none ↔ key ∉ es.keys := by
  induction es with
  | nil => simp [get?]
  | cons e es ih =>
    obtain ⟨k, v⟩ := e
    by_cases same : k = key
    · simp [get?, same]
    · simp [get?, same, ih, Ne.symm same]

theorem get?_of_mem {v : α} (distinct : es.keys.Nodup) (mem : (key, v) ∈ es) :
    es.get? key = some v := by
  induction es with
  | nil => cases mem
  | cons e es ih =>
    obtain ⟨k, w⟩ := e
    rw [keys_cons, List.nodup_cons] at distinct
    rcases List.mem_cons.1 mem with same | mem
    · cases same
      rw [get?, if_pos rfl]
    · have other : k ≠ key := by
        rintro rfl
        exact distinct.1 (List.mem_map_of_mem (f := (·.1)) mem)
      rw [get?, if_neg other, ih distinct.2 mem]

theorem get?_put (es : Entries α) (name key : Text) (v : α) :
    (es.put name v).get? key = if name = key then some v else es.get? key := by
  by_cases same : name = key
  · subst same
    rw [get?_put_self, if_pos rfl]
  · rw [if_neg same]
    induction es with
    | nil => simp [put, get?, same]
    | cons e es ih =>
      obtain ⟨k, w⟩ := e
      by_cases there : k = name
      · simp [put, get?, there, same]
      · simp [put, get?, there, ih]

theorem keys_put (es : Entries α) (key : Text) (v : α) :
    (es.put key v).keys = if key ∈ es.keys then es.keys else es.keys ++ [key] := by
  split
  · next mem =>
    induction es with
    | nil => cases mem
    | cons e es ih =>
      obtain ⟨k, w⟩ := e
      by_cases there : k = key
      · simp [put, there]
      · have mem : key ∈ keys es := by simpa [Ne.symm there] using mem
        simp [put, there, ih mem]
  · next new => rw [put_of_not_mem new, keys_append]; rfl

theorem nodup_keys_update (h : es.keys.Nodup) (more : Entries α) : (es.update more).keys.Nodup := by
  induction more generalizing es with
  | nil => exact h
  | cons e more ih =>
    have kept : (es.put e.1 e.2).keys.Nodup := by
      rw [keys_put]
      split
      · exact h
      · next new =>
        refine List.nodup_append.2 ⟨h, by simp, fun a ha b hb => ?_⟩
        rw [List.mem_singleton.1 hb]
        exact ne_of_mem_of_not_mem ha new
    exact ih kept

/-- What an update has under a key is new, or was there and is not renewed. -/
theorem get?_update (es : Entries α) (distinct : more.keys.Nodup) (key : Text) :
    (es.update more).get? key = (more.get? key).or (es.get? key) := by
  induction more generalizing es with
  | nil => rfl
  | cons e more ih =>
    obtain ⟨name, v⟩ := e
    rw [keys_cons, List.nodup_cons] at distinct
    have step : es.update ((name, v) :: more) = (es.put name v).update more := rfl
    rw [step, ih _ distinct.2, get?_put, get?]
    by_cases same : name = key
    · subst same
      rw [get?_eq_none_iff.2 distinct.1, if_pos rfl, if_pos rfl]
      rfl
    · rw [if_neg same, if_neg same]

theorem mem_put {e : Text × α} {v : α} (h : e ∈ es.put key v) : e ∈ es ∨ e = (key, v) := by
  induction es with
  | nil => exact .inr (List.mem_singleton.1 h)
  | cons f es ih =>
    rw [put] at h
    split at h
    · next same =>
      rcases List.mem_cons.1 h with h | h
      · exact .inr (same ▸ h)
      · exact .inl (List.mem_cons_of_mem _ h)
    · rcases List.mem_cons.1 h with h | h
      · exact .inl (h ▸ List.mem_cons_self)
      · exact (ih h).imp_left (List.mem_cons_of_mem _)

theorem mem_update {e : Text × α} (h : e ∈ es.update more) : e ∈ es ∨ e ∈ more := by
  induction more generalizing es with
  | nil => exact .inl h
  | cons f more ih =>
    replace h : e ∈ (es.put f.1 f.2).update more := h
    rcases ih h with h | h
    · refine (mem_put h).imp_right fun same => ?_
      rw [same]
      exact List.mem_cons_self
    · exact .inr (List.mem_cons_of_mem _ h)

end Entries

/-! ### Equal values -/

namespace Literal

mutual

/-- Whether two values are equal. -/
def equal : Literal → Literal → Bool
  | .list items, .list others => equalItems items others
  | .object es, .object others => es.length = others.length && equalEntries es others
  | v, w => Dictionary.sameKey v w

def equalItems : List Literal → List Literal → Bool
  | [], [] => true
  | v :: rest, w :: others => v.equal w && equalItems rest others
  | _, _ => false

def equalEntries : List (Text × Literal) → Entries Literal → Bool
  | [], _ => true
  | (k, v) :: rest, others =>
    (match others.get? k with
      | some w => v.equal w
      | none => false) && equalEntries rest others

end

theorem equalItems_self {items : List Literal} (h : ∀ v ∈ items, v.equal v = true) :
    equalItems items items = true := by
  induction items with
  | nil => rfl
  | cons v items ih =>
    rw [List.forall_mem_cons] at h
    rw [equalItems, h.1, ih h.2]
    rfl

theorem exists_equal_of_mem {items others : List Literal} (h : equalItems items others = true)
    {v : Literal} (mem : v ∈ items) : ∃ w ∈ others, v.equal w = true := by
  induction items generalizing others with
  | nil => cases mem
  | cons u items ih =>
    cases others with
    | nil => cases h
    | cons w others =>
      rw [equalItems, Bool.and_eq_true] at h
      rcases List.mem_cons.1 mem with rfl | mem
      · exact ⟨w, List.mem_cons_self, h.1⟩
      · obtain ⟨w, hw, same⟩ := ih h.2 mem
        exact ⟨w, List.mem_cons_of_mem _ hw, same⟩

theorem equalEntries_iff {es others : Entries Literal} :
    equalEntries es others = true ↔
      ∀ e ∈ es, ∃ w, others.get? e.1 = some w ∧ e.2.equal w = true := by
  induction es with
  | nil => simp [equalEntries]
  | cons e es ih =>
    obtain ⟨k, v⟩ := e
    rw [equalEntries, Bool.and_eq_true, ih, List.forall_mem_cons]
    cases others.get? k <;> simp

mutual

/-- How deep lists and objects are nested. -/
def depth : Literal → Nat
  | .list items => depthItems items + 1
  | .object es => depthEntries es + 1
  | _ => 0

def depthItems : List Literal → Nat
  | [] => 0
  | v :: rest => max v.depth (depthItems rest)

def depthEntries : List (Text × Literal) → Nat
  | [] => 0
  | (_, v) :: rest => max v.depth (depthEntries rest)

end

theorem depthItems_le_iff {items : List Literal} {n : Nat} :
    depthItems items ≤ n ↔ ∀ v ∈ items, v.depth ≤ n := by
  induction items with
  | nil => simp [depthItems]
  | cons v items ih => rw [depthItems, Nat.max_le, ih, List.forall_mem_cons]

theorem depthEntries_le_iff {es : Entries Literal} {n : Nat} :
    depthEntries es ≤ n ↔ ∀ e ∈ es, e.2.depth ≤ n := by
  induction es with
  | nil => simp [depthEntries]
  | cons e es ih => rw [depthEntries, Nat.max_le, ih, List.forall_mem_cons]

theorem depth_lt_list {items : List Literal} {v : Literal} (h : v ∈ items) :
    v.depth < (list items).depth :=
  Nat.lt_succ_of_le (depthItems_le_iff.1 (Nat.le_refl _) v h)

theorem depth_lt_object {es : Entries Literal} {e : Text × Literal} (h : e ∈ es) :
    e.2.depth < (object es).depth :=
  Nat.lt_succ_of_le (depthEntries_le_iff.1 (Nat.le_refl _) e h)

theorem depth_le_of_equal {v w : Literal} (h : v.equal w = true) : v.depth ≤ w.depth := by
  induction v using induct generalizing w with
  | null | bool | int | float | text => exact Nat.zero_le _
  | list items ih =>
    cases w with
    | list others =>
      refine Nat.succ_le_succ (depthItems_le_iff.2 fun v hv => ?_)
      obtain ⟨w, hw, same⟩ := exists_equal_of_mem h hv
      exact Nat.le_trans (ih v hv same) (depthItems_le_iff.1 (Nat.le_refl _) w hw)
    | _ => cases h
  | object es ih =>
    cases w with
    | object others =>
      rw [equal, Bool.and_eq_true] at h
      refine Nat.succ_le_succ (depthEntries_le_iff.2 fun e he => ?_)
      obtain ⟨w, get, same⟩ := equalEntries_iff.1 h.2 e he
      exact Nat.le_trans (ih e he same)
        (depthEntries_le_iff.1 (Nat.le_refl _) _ (Entries.mem_of_get? get))
    | _ => cases h

theorem equal_self {v : Literal} (discrete : v.everywhere isDiscrete = true) :
    v.equal v = true := by
  induction v using induct with
  | null => rfl
  | bool b => cases b <;> rfl
  | int | text => simp [equal, Dictionary.sameKey, Dictionary.asNumber, sameScalar]
  | float => cases discrete
  | list items ih =>
    rw [everywhere_list, Bool.and_eq_true, List.all_eq_true] at discrete
    exact equalItems_self fun v hv => ih v hv (discrete.2 v hv)
  | object es ih =>
    rw [everywhere_object, Bool.and_eq_true, List.all_eq_true] at discrete
    rw [equal, Bool.and_eq_true]
    refine ⟨by simp, equalEntries_iff.2 fun e he => ⟨e.2, ?_, ih e he (discrete.2 e he)⟩⟩
    exact Entries.get?_of_mem (of_decide_eq_true discrete.1) he

end Literal

/-! ### Equal dictionaries -/

namespace Dictionary

variable {d : Dictionary} {es more : Entries Literal} {key : Text}

/-- The value of the first entry whose key is the same. -/
def get? (d : Dictionary) (key : Literal) : Option Literal :=
  (d.find? fun e => sameKey e.1 key).map (·.2)

/-- Whether two dictionaries are equal. -/
def equal (d other : Dictionary) : Bool :=
  d.length = other.length && d.all fun e => (other.get? e.1).any fun w => e.2.equal w

@[simp] theorem sameKey_text (k : Literal) (s : Text) :
    sameKey k (.text s) = true ↔ k = .text s := by
  cases k <;> simp [sameKey, asNumber, Literal.sameScalar]

theorem get?_ofEntries (es : Entries Literal) (key : Text) :
    (ofEntries es).get? (.text key) = es.get? key := by
  induction es with
  | nil => rfl
  | cons e es ih =>
    obtain ⟨k, v⟩ := e
    have others : ((ofEntries es).find? fun e => sameKey e.1 (.text key)).map (·.2) =
      Entries.get? es key := ih
    by_cases same : k = key
    · simp [get?, ofEntries, Entries.get?, same]
    · rw [Entries.get?, if_neg same, ← others]
      simp [get?, ofEntries, same]

theorem put_ofEntries (es : Entries Literal) (key : Text) (v : Literal) :
    (ofEntries es).put (.text key) v = ofEntries (es.put key v) := by
  induction es with
  | nil => rfl
  | cons e es ih =>
    obtain ⟨k, w⟩ := e
    have cons (k : Text) (w : Literal) (es : Entries Literal) :
        ofEntries ((k, w) :: es) = (.text k, w) :: ofEntries es := rfl
    rw [cons, put, Entries.put]
    by_cases same : k = key
    · simp [same, cons]
    · simp [same, cons, ih]

theorem update_ofEntries (es more : Entries Literal) :
    (ofEntries es).update (ofEntries more) = ofEntries (es.update more) := by
  induction more generalizing es with
  | nil => rfl
  | cons e more ih =>
    have step := ih (es.put e.1 e.2)
    rw [← put_ofEntries] at step
    exact step

theorem get?_put_of_ne {name : Text} (h : name ≠ key) (d : Dictionary) (v : Literal) :
    (d.put (.text name) v).get? (.text key) = d.get? (.text key) := by
  induction d with
  | nil => simp [put, get?, h]
  | cons e d ih =>
    obtain ⟨k, w⟩ := e
    rw [put]
    split
    · next there =>
      rw [sameKey_text] at there
      simp [get?, there, h]
    · by_cases there : k = .text key
      · simp [get?, there]
      · have other : sameKey k (.text key) = false := by
          rw [Bool.eq_false_iff, ne_eq, sameKey_text]
          exact there
        simpa [get?, other] using ih

/-- An update leaves alone what is under other keys. -/
theorem get?_update_of_not_mem (h : key ∉ more.keys) (d : Dictionary) :
    (d.update (ofEntries more)).get? (.text key) = d.get? (.text key) := by
  induction more generalizing d with
  | nil => rfl
  | cons e more ih =>
    rw [Entries.keys_cons, List.mem_cons, not_or] at h
    exact (ih h.2 _).trans (get?_put_of_ne (Ne.symm h.1) d e.2)

theorem get?_put_self (d : Dictionary) (key : Text) (v : Literal) :
    (d.put (.text key) v).get? (.text key) = some v := by
  induction d with
  | nil => simp [put, get?]
  | cons e d ih =>
    obtain ⟨k, w⟩ := e
    rw [put]
    split
    · next there => simp [get?, there]
    · next other =>
      rw [get?, List.find?_cons_of_neg (by exact other)]
      exact ih

/-- What an update has under a key is new, or was there and is not renewed. -/
theorem get?_update_ofEntries (distinct : more.keys.Nodup) (d : Dictionary) (key : Text) :
    (d.update (ofEntries more)).get? (.text key) = (more.get? key).or (d.get? (.text key)) := by
  induction more generalizing d with
  | nil => rfl
  | cons e more ih =>
    obtain ⟨name, v⟩ := e
    rw [Entries.keys_cons, List.nodup_cons] at distinct
    have step : d.update (ofEntries ((name, v) :: more)) =
      (d.put (.text name) v).update (ofEntries more) := rfl
    rw [step, ih distinct.2, Entries.get?]
    by_cases same : name = key
    · subst same
      rw [Entries.get?_eq_none_iff.2 distinct.1, if_pos rfl, get?_put_self]
      rfl
    · rw [get?_put_of_ne same, if_neg same]

theorem get?_named (d : Dictionary) (key : Text) : (named d).get? key = d.get? (.text key) := by
  induction d with
  | nil => rfl
  | cons e d ih =>
    obtain ⟨k, v⟩ := e
    have others : (d.find? fun e => sameKey e.1 (.text key)).map (·.2) = (named d).get? key :=
      ih.symm
    cases k with
    | text name =>
      have head : named ((.text name, v) :: d) = (name, v) :: named d := by
        simp [named, Literal.text?]
      rw [head, Entries.get?, get?]
      by_cases same : name = key
      · rw [if_pos same, List.find?_cons_of_pos (by simp [same])]
        rfl
      · rw [if_neg same, List.find?_cons_of_neg (by simp [same]), others]
    | _ =>
      rw [get?, List.find?_cons_of_neg (by simp), others]
      simp [named, Literal.text?]

theorem exists_of_get? {v : Literal} {k : Literal} (h : d.get? k = some v) : ∃ e ∈ d, e.2 = v := by
  obtain ⟨e, found, rfl⟩ := Option.map_eq_some_iff.1 h
  exact ⟨e, List.mem_of_find?_eq_some found, rfl⟩

theorem exists_of_mem_put {key v : Literal} {e : Literal × Literal} (h : e ∈ d.put key v) :
    e.2 = v ∨ ∃ f ∈ d, f.2 = e.2 := by
  induction d with
  | nil => exact .inl (congrArg Prod.snd (List.mem_singleton.1 h))
  | cons f d ih =>
    rw [put] at h
    split at h
    · rcases List.mem_cons.1 h with h | h
      · exact .inl (congrArg Prod.snd h)
      · exact .inr ⟨e, List.mem_cons_of_mem _ h, rfl⟩
    · rcases List.mem_cons.1 h with h | h
      · exact .inr ⟨f, List.mem_cons_self, congrArg Prod.snd h.symm⟩
      · exact (ih h).imp_right fun ⟨g, hg, same⟩ => ⟨g, List.mem_cons_of_mem _ hg, same⟩

theorem exists_of_mem_update {more : Dictionary} {e : Literal × Literal} (h : e ∈ d.update more) :
    (∃ f ∈ d, f.2 = e.2) ∨ ∃ f ∈ more, f.2 = e.2 := by
  induction more generalizing d with
  | nil => exact .inl ⟨e, h, rfl⟩
  | cons f more ih =>
    rcases ih h with ⟨g, hg, same⟩ | ⟨g, hg, same⟩
    · rcases exists_of_mem_put hg with new | ⟨old, there, same'⟩
      · exact .inr ⟨f, List.mem_cons_self, new.symm.trans same⟩
      · exact .inl ⟨old, there, same'.trans same⟩
    · exact .inr ⟨g, List.mem_cons_of_mem _ hg, same⟩

/-- What stands in the dictionary of a list stands in the list. -/
theorem exists_of_mem_ofList {list : List (Literal × Literal)} {e : Literal × Literal}
    (h : e ∈ ofList list) : ∃ f ∈ list, f.2 = e.2 :=
  (exists_of_mem_update h).resolve_left (by simp)

theorem equal_ofEntries (discrete : (Literal.object es).everywhere Literal.isDiscrete = true) :
    equal (ofEntries es) (ofEntries es) = true := by
  rw [Literal.everywhere_object, Bool.and_eq_true, List.all_eq_true] at discrete
  rw [equal, Bool.and_eq_true, List.all_eq_true]
  refine ⟨by simp, List.forall_mem_map.2 fun e he => ?_⟩
  rw [get?_ofEntries, Entries.get?_of_mem (of_decide_eq_true discrete.1) he, Option.any_some]
  exact Literal.equal_self (discrete.2 e he)

end Dictionary

theorem Literal.ofDictionary_ofEntries (es : Entries Literal) :
    ofDictionary (Dictionary.ofEntries es) = .object es := by
  rw [ofDictionary, Dictionary.ofEntries, List.map_map]
  exact congrArg object (List.map_id es)

end SchemaTypings
