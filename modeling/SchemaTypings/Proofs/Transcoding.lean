import SchemaTypings.Proofs.TreeChanges

/-!
Texts that are stored. What is written to a file in UTF-8 is read back from there, up to the style of
its line ends.
-/

namespace SchemaTypings

/-! ### Bytes -/

namespace Utf8

theorem continuation?_ofNat (n : Nat) :
    continuation? (UInt8.ofNat (0x80 + n % 0x40)) = some (n % 0x40) := by
  have byte : (UInt8.ofNat (0x80 + n % 0x40)).toNat = 0x80 + n % 0x40 := by
    rw [UInt8.toNat_ofNat']
    omega
  rw [continuation?, byte, if_pos (by omega)]
  exact congrArg some (by omega)

theorem codePoint?_val {c : CodePoint} {least : Nat} (low : least ≤ c.val)
    (whole : c.isSurrogate = false) : codePoint? least c.val = some c := by
  have known : CodePoint.ofNat? c.val = some c := by rw [CodePoint.ofNat?, dif_pos c.val_lt]
  rw [codePoint?, if_neg (by omega), known, Option.filter_some, whole]
  rfl

theorem toNat_ofNat {n : Nat} (small : n < 256) : (UInt8.ofNat n).toNat = n := by
  rw [UInt8.toNat_ofNat']
  omega

section

variable {b b₁ b₂ b₃ : Byte} {x₁ x₂ x₃ : Nat} {c : CodePoint}

/-- The first step of a sequence that has a value. It is used for rewriting, since the kernel would
multiply by counting if it had to reduce the sequence. -/
theorem some_step {α : Type} (a : α) (f : α → Option Text) : (some a >>= f) = f a := id rfl

theorem cons_step (c : CodePoint) (x : Option Text) : (do pure (c :: (← x))) = x.map (c :: ·) := by
  cases x <;> rfl

theorem decode?_one (most : b.toNat < 0x80) (whole : CodePoint.ofNat? b.toNat = some c)
    (rest : List Byte) : decode? (b :: rest) = (decode? rest).map (c :: ·) := by
  rw [decode?.eq_def]
  dsimp only
  rw [if_pos most, whole, some_step, cons_step]

theorem decode?_two (least : 0xC0 ≤ b.toNat) (most : b.toNat < 0xE0)
    (first : continuation? b₁ = some x₁)
    (whole : codePoint? 0x80 ((b.toNat - 0xC0) * 0x40 + x₁) = some c) (rest : List Byte) :
    decode? (b :: b₁ :: rest) = (decode? rest).map (c :: ·) := by
  rw [decode?, if_neg (by omega), if_neg (by omega), if_pos most, first, some_step, whole,
    some_step, cons_step]

theorem decode?_three (least : 0xE0 ≤ b.toNat) (most : b.toNat < 0xF0)
    (first : continuation? b₁ = some x₁) (second : continuation? b₂ = some x₂)
    (whole : codePoint? 0x800 ((b.toNat - 0xE0) * 0x1000 + x₁ * 0x40 + x₂) = some c)
    (rest : List Byte) : decode? (b :: b₁ :: b₂ :: rest) = (decode? rest).map (c :: ·) := by
  rw [decode?, if_neg (by omega), if_neg (by omega), if_neg (by omega), if_pos most]
  dsimp only
  rw [first, some_step, second, some_step, whole, some_step, cons_step]

theorem decode?_four (least : 0xF0 ≤ b.toNat) (most : b.toNat < 0xF8)
    (first : continuation? b₁ = some x₁) (second : continuation? b₂ = some x₂)
    (third : continuation? b₃ = some x₃)
    (whole : codePoint? 0x10000
      ((b.toNat - 0xF0) * 0x40000 + x₁ * 0x1000 + x₂ * 0x40 + x₃) = some c) (rest : List Byte) :
    decode? (b :: b₁ :: b₂ :: b₃ :: rest) = (decode? rest).map (c :: ·) := by
  rw [decode?, if_neg (by omega), if_neg (by omega), if_neg (by omega), if_neg (by omega),
    if_pos most]
  dsimp only
  rw [first, some_step, second, some_step, third, some_step, whole, some_step, cons_step]

end

/-- The bytes of a code point are read as it, whatever follows them. -/
theorem decode?_append {c : CodePoint} {bytes : List Byte} (h : c.utf8? = some bytes)
    (rest : List Byte) : decode? (bytes ++ rest) = (decode? rest).map (c :: ·) := by
  have limit := c.val_lt
  unfold CodePoint.utf8? at h
  dsimp only at h
  split at h
  · next one =>
    cases h
    have lead := toNat_ofNat (n := c.val) (by omega)
    refine decode?_one (by omega) ?_ rest
    rw [lead, CodePoint.ofNat?, dif_pos limit]
  split at h
  · next one two =>
    cases h
    have whole : c.isSurrogate = false := by
      simp only [CodePoint.isSurrogate, Bool.and_eq_false_iff, decide_eq_false_iff_not]
      omega
    have lead := toNat_ofNat (n := 0xC0 + c.val / 0x40) (by omega)
    have sum : (0xC0 + c.val / 0x40 - 0xC0) * 0x40 + c.val / 1 % 0x40 = c.val := by omega
    refine decode?_two (by omega) (by omega) (continuation?_ofNat _) ?_ rest
    rw [lead, sum, codePoint?_val (by omega) whole]
  split at h
  · cases h
  next one two whole =>
  have whole : c.isSurrogate = false := by simpa using whole
  split at h
  · next three =>
    cases h
    have lead := toNat_ofNat (n := 0xE0 + c.val / 0x1000) (by omega)
    have sum : (0xE0 + c.val / 0x1000 - 0xE0) * 0x1000 + c.val / 0x40 % 0x40 * 0x40 +
        c.val / 1 % 0x40 = c.val := by omega
    refine decode?_three (by omega) (by omega) (continuation?_ofNat _) (continuation?_ofNat _) ?_
      rest
    rw [lead, sum, codePoint?_val (by omega) whole]
  · next three =>
    cases h
    have lead := toNat_ofNat (n := 0xF0 + c.val / 0x40000) (by omega)
    have sum : (0xF0 + c.val / 0x40000 - 0xF0) * 0x40000 + c.val / 0x1000 % 0x40 * 0x1000 +
        c.val / 0x40 % 0x40 * 0x40 + c.val / 1 % 0x40 = c.val := by omega
    refine decode?_four (by omega) (by omega) (continuation?_ofNat _) (continuation?_ofNat _)
      (continuation?_ofNat _) ?_ rest
    rw [lead, sum, codePoint?_val (by omega) whole]

theorem decode?_encode? {s : Text} {bytes : List Byte} (h : encode? s = some bytes) :
    decode? bytes = some s := by
  rw [encode?, Option.map_eq_some_iff] at h
  obtain ⟨parts, each, rfl⟩ := h
  induction s generalizing parts with
  | nil =>
    cases each
    rfl
  | cons c s ih =>
    rw [List.mapM_cons] at each
    obtain ⟨own, first, each⟩ := Option.bind_eq_some_iff.1 each
    obtain ⟨others, behind, each⟩ := Option.bind_eq_some_iff.1 each
    cases each
    rw [List.flatten_cons, decode?_append first, ih others behind]
    rfl

end Utf8

theorem Text.unifyLineEnds_of_not_mem {s : Text} (h : ('\r' : CodePoint) ∉ s) :
    s.unifyLineEnds = s := by
  induction s with
  | nil => rfl
  | cons c s ih =>
    have other : c ≠ '\r' := fun same => h (same ▸ List.mem_cons_self)
    rw [unifyLineEnds.eq_def]
    dsimp only
    rw [if_neg other, ih fun mem => h (List.mem_cons_of_mem _ mem)]

/-! ### Files -/

namespace FileTree

variable {changed : Place → Prop} {tree before after : FileTree} {path : PathName} {place : Place}

theorem resolve_eq_ok_iff :
    tree.resolve path = .ok place ↔ checkName path = .ok () ∧ tree.LeadsTo path place := by
  rw [resolve, bind_eq_ok, LeadsTo]
  simp only [mapError_eq_ok]
  constructor
  · rintro ⟨_, name, there⟩
    exact ⟨name, there⟩
  · rintro ⟨name, there⟩
    exact ⟨(), name, there⟩

theorem Keeps.resolve (h : Keeps changed before after) (there : before.resolve path = .ok place) :
    after.resolve path = .ok place := by
  rw [resolve_eq_ok_iff] at there ⊢
  exact ⟨there.1, h.leadsTo there.2⟩

/-- A file that was opened and written is there. -/
theorem look_set (opened : tree.openFile path = .ok place) (bytes : List Byte) :
    (tree.set place (.file bytes)).look path = .ok (place, .file bytes) := by
  obtain ⟨found, free⟩ := openFile_eq_ok_iff.1 opened
  have inside : place ≠ [] := by
    rintro rfl
    exact free tree.node?_nil
  rw [look, (keeps_set_file free bytes).1.resolve found, ok_bind, node?_set inside, if_pos rfl]
  rfl

theorem has_set (opened : tree.openFile path = .ok place) (bytes : List Byte) :
    (tree.set place (.file bytes)).has path = .ok true := by
  rw [has, probe, look_set opened]
  rfl

/-- The text of a file that was written, but for the style of its line ends. -/
theorem readText_set {text : Text} {bytes : List Byte} (opened : tree.openFile path = .ok place)
    (encoded : Utf8.encode? text = some bytes) :
    (tree.set place (.file bytes)).readText path = .ok (some text.unifyLineEnds) := by
  rw [readText, read, look_set opened, ok_bind]
  exact congrArg Except.ok (congrArg (Option.map Text.unifyLineEnds) (Utf8.decode?_encode? encoded))

end FileTree

end SchemaTypings
