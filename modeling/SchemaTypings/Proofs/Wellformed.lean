import SchemaTypings.Proofs.Lexing
import SchemaTypings.Proofs.Syntax
import SchemaTypings.Proofs.Values

/-!
What the lenient reader yields is well formed: no path of names is empty, and the keys of every
object differ from each other. Its words are those of the tokens: what is true of the names, the
strings and the keys among them and of the slices of the source is true of all that is read.
-/

namespace SchemaTypings

/-- Of entries that are put in one after another, no two have the same key. -/
theorem Entries.nodup_keys_moveAll {α : Type} (before : Entries α) (h : before.keys.Nodup)
    (es : List (Text × α)) : (Entries.keys (moveAll before es)).Nodup := by
  induction es generalizing before with
  | nil => exact h
  | cons e es ih =>
    refine ih _ ?_
    rw [keys_move, List.nodup_append]
    exact ⟨h.filter _, by simp, by simp +contextual⟩

/-- Every path names something, and no two keys of an object are the same. -/
abbrev Raw.IsWellformed (v : Raw) : Prop := v.Holds (· ≠ []) (fun _ => True) List.Nodup

namespace Declaration

/-- What is true of the names, the strings and the keys among the tokens, and of the slices of the
source. -/
structure Vocabulary (path text key : Text → Prop) (source : Text) (ts : List Token) : Prop where
  names : ∀ t ∈ ts, t.kind = .name → path t.value
  strings : ∀ t ∈ ts, t.kind = .string → text t.value
  keys : ∀ t ∈ ts, IsKey t → key t.value
  joined : ∀ {p q}, path p → path q → path (p ++ "." ++ q)
  slices : ∀ start stop, text (slice source start stop)

section

variable {path text key : Text → Prop} {source : Text} {ts us : List Token}

theorem Vocabulary.suffix (h : Vocabulary path text key source ts) (hs : us <:+ ts) :
    Vocabulary path text key source us where
  names t ht := h.names t (hs.subset ht)
  strings t ht := h.strings t (hs.subset ht)
  keys t ht := h.keys t (hs.subset ht)
  joined := h.joined
  slices := h.slices

/-- A value has these words, and in every object keys that differ from each other. -/
abbrev Speaks (path text key : Text → Prop) (v : Raw) : Prop :=
  v.Holds path text fun keys => keys.Nodup ∧ ∀ k ∈ keys, key k

theorem speaks_number (v : Literal) : Speaks path text key (rawNumber v) := by
  cases v with
  | int i => exact .int i
  | float x => exact .float x
  | _ => exact .null

theorem speaks_ofPath {p : Text} (h : path p) : Speaks path text key (Written.ofPath p).raw := by
  rw [Written.raw_ofPath]
  unfold word?
  repeat' split
  · exact .bool true
  · exact .bool false
  · exact .null
  · exact .bare h

theorem path_namePath (h : Vocabulary path text key source ts) {p : Text} (hp : path p) :
    path (namePath p ts).1 := by
  fun_induction namePath p ts
  case case1 d n rest name ih =>
    have tail := (List.suffix_cons n rest).trans (List.suffix_cons d (n :: rest))
    exact ih (h.suffix tail) (h.joined hp (h.names n (by simp) name.2))
  case case2 | case3 => exact hp

theorem text_of_readOpaque (h : Vocabulary path text key source ts) {left : List Token} {s : Text}
    (read : readOpaque source ts = .ok (s, left)) : text s := by
  obtain ⟨⟨last, rest⟩, -, read⟩ := bind_eq_ok.1 read
  cases last with
  | none => cases read
  | some t =>
    cases read
    exact h.slices _ _

theorem Constant.speaks (h : Vocabulary path text key source ts) {w : Written} {rest : List Token}
    (constant : Constant ts w rest) : Speaks path text key w.raw := by
  cases constant with
  | string string => exact .text (h.strings _ (by simp) string)
  | number | negative => exact speaks_number _

/-- Entries that are put in one after another. -/
theorem speaks_object {es : List (Text × Written)}
    (h : ∀ e ∈ es, key e.1 ∧ Speaks path text key e.2.raw) :
    Speaks path text key (Written.object (Entries.lastWins es)).raw := by
  rw [Written.raw_object]
  refine .object ⟨?_, ?_⟩ ?_
  · rw [Entries.keys_map fun _ => Written.raw]
    exact Entries.nodup_keys_moveAll [] List.nodup_nil es
  · rw [Entries.keys_map fun _ => Written.raw]
    intro k hk
    obtain ⟨e, he, rfl⟩ := List.mem_map.1 hk
    exact (h e (Entries.mem_of_mem_lastWins he)).1
  · intro e he
    obtain ⟨e', he', rfl⟩ := List.mem_map.1 he
    exact (h e' (Entries.mem_of_mem_lastWins he')).2

theorem speaks_list {ws : List Written} (h : ∀ w ∈ ws, Speaks path text key w.raw) :
    Speaks path text key (Written.list ws).raw := by
  rw [Written.raw_list]
  refine .list fun v hv => ?_
  obtain ⟨w, hw, rfl⟩ := List.mem_map.1 hv
  exact h w hw

mutual

theorem Starts.speaks {ts rest : List Token} {w : Written} (h : Vocabulary path text key source ts) :
    Starts source ts w rest → Speaks path text key w.raw
  | .constant constant => constant.speaks h
  | .list _ items => speaks_list (items.speak (h.suffix (List.suffix_cons ..)))
  | .object _ entries => speaks_object (entries.speak (h.suffix (List.suffix_cons ..)))
  | .schema _ _ found entries _ =>
    speaks_object (entries.speak (h.suffix (suffix_of_findSchemaObject found)))

theorem Spells.speaks {ts left : List Token} {w : Written} (h : Vocabulary path text key source ts) :
    Spells source ts w left → Speaks path text key w.raw
  | .form start _ => start.speaks h
  | .name name _ =>
    speaks_ofPath (path_namePath (h.suffix (List.suffix_cons ..)) (h.names _ (by simp) name))
  | .unended _ _ read | .unendedName _ _ _ read | .other _ read =>
    .text (text_of_readOpaque h read)

theorem SpellsItems.speak {ts left : List Token} {ws : List Written}
    (h : Vocabulary path text key source ts) :
    SpellsItems source ts ws left → ∀ w ∈ ws, Speaks path text key w.raw
  | .close _ => nofun
  | .hole _ items => items.speak (h.suffix (List.suffix_cons ..))
  | .last item _ => List.forall_mem_singleton.2 (item.speaks h)
  | .more item _ items =>
    List.forall_mem_cons.2 ⟨item.speaks h,
      items.speak (h.suffix ((List.suffix_cons ..).trans item.suffix))⟩

theorem SpellsEntries.speak {ts left : List Token} {es : List (Text × Written)}
    (h : Vocabulary path text key source ts) :
    SpellsEntries source ts es left → ∀ e ∈ es, key e.1 ∧ Speaks path text key e.2.raw
  | .close _ => nofun
  | .last entry _ => entry.speak h
  | .more entry _ entries =>
    List.forall_mem_append.2 ⟨entry.speak h,
      entries.speak (h.suffix ((List.suffix_cons ..).trans entry.suffix))⟩

theorem SpellsEntry.speak {ts left : List Token} {es : List (Text × Written)}
    (h : Vocabulary path text key source ts) :
    SpellsEntry source ts es left → ∀ e ∈ es, key e.1 ∧ Speaks path text key e.2.raw
  | .field isKey _ value =>
    List.forall_mem_singleton.2 ⟨h.keys _ (by simp) isKey,
      value.speaks (h.suffix ((List.suffix_cons ..).trans (List.suffix_cons ..)))⟩
  | .shorthand name _ =>
    List.forall_mem_singleton.2 ⟨h.keys _ (by simp) (.inl name), .bare (h.names _ (by simp) name)⟩
  | .spread _ _ | .computed _ _ _ _ | .method _ _ _ => nofun

end

end

/-! ### Declarations -/

/-- The words of what a declaration is read as are those of its tokens and of its text. -/
theorem speaks_of_readRaw {path text key : Text → Prop} {s : Text} {es : Entries Raw}
    (h : (readRaw s).outcome = .ok es)
    (words : ∀ ts, tokenize s = .ok ts → Vocabulary path text key s ts) :
    Speaks path text key (.object es) := by
  obtain ⟨entries, ⟨ts, object, ws, left, tokens, found, spelled, rfl⟩, rfl⟩ := exists_declares h
  have object := speaks_object
    (spelled.speak ((words ts tokens).suffix (suffix_of_findSchemaObject found)))
  rwa [Written.raw_object] at object

/-- The entries that a declaration is read as are well formed. -/
theorem wellformed_of_readRaw {text : Text} {es : Entries Raw}
    (h : (readRaw text).outcome = .ok es) : (Raw.object es).IsWellformed := by
  have words (ts : List Token) (tokens : tokenize text = .ok ts) :
      Vocabulary (· ≠ []) (fun _ => True) (fun _ => True) text ts := by
    refine ⟨fun t ht => ?_, fun _ _ _ => trivial, fun _ _ _ => trivial, fun hp _ => ?_,
      fun _ _ => trivial⟩
    · rw [← tokens_of_tokenize tokens] at ht
      exact ne_nil_of_mem_lex ht
    · simp [hp]
  exact (speaks_of_readRaw h words).mono (fun _ => id) (fun _ => id) fun _ keys => keys.1

end Declaration

end SchemaTypings
