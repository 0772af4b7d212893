import SchemaTypings.Proofs.Leniency
import SchemaTypings.Proofs.Rendering
import SchemaTypings.Proofs.Wellformed

/-!
Canonical text as a declaration of its own. It is read in any case, and its canonical text is the
same again exactly if no key is a name and a line feed behind it and every number is finite. The
first is seen by the line feeds in the text, the second by its length.
-/

namespace SchemaTypings

/-! ### Code points of rendered text -/

/-- A space or a visible code point of ASCII. -/
def CodePoint.isVisible (c : CodePoint) : Bool := c.isBetween ' ' '~'

theorem CodePoint.isVisible_of_isBetween {c : CodePoint} {low high : Char}
    (first : ' '.toNat ≤ low.toNat) (last : high.toNat ≤ '~'.toNat)
    (h : c.isBetween low high = true) : c.isVisible = true := by
  simp only [isBetween, Bool.and_eq_true, decide_eq_true_eq] at h
  simp only [isVisible, isBetween, Bool.and_eq_true, decide_eq_true_eq]
  exact ⟨le_trans first h.1, le_trans h.2 last⟩

namespace Text

variable {c : CodePoint}

theorem mem_join {x : CodePoint} {separator : Text} (h : x ∉ separator) (texts : List Text) :
    x ∈ join separator texts ↔ ∃ s ∈ texts, x ∈ s := by
  induction texts with
  | nil => simp
  | cons s rest ih =>
    cases rest with
    | nil => simp
    | cons t rest =>
      rw [join_cons_cons, List.mem_append, List.mem_append, ih]
      simp [h]

theorem not_mem_of_visible (hidden : c.isVisible = false) {s : Text}
    (visible : s.all CodePoint.isVisible = true) : c ∉ s := by
  intro mem
  rw [List.all_eq_true.1 visible c mem] at hidden
  cases hidden

theorem all_isVisible_hexDigits (width n : Nat) :
    (hexDigits width n).all CodePoint.isVisible = true := by
  have digit (n : Nat) : (hexDigit n).isVisible = true := by
    have all : ∀ d : Fin 16, CodePoint.isVisible ((Nat.digitChar d.val : Char) : CodePoint) =
      true := by decide
    exact all ⟨n % 16, Nat.mod_lt n (by decide)⟩
  induction width generalizing n with
  | zero => rfl
  | succ width ih => rw [hexDigits, List.all_append, ih, List.all_cons, digit]; rfl

/-- Between double quotes, a code point is escaped or stands for itself. -/
theorem mem_inDoubleQuotes_iff (hidden : c.isVisible = false) (d : CodePoint) :
    c ∈ d.inDoubleQuotes ↔ c = d ∧ 0x20 ≤ c.val := by
  have outside {s : Text} (visible : s.all CodePoint.isVisible = true) : c ∉ s :=
    not_mem_of_visible hidden visible
  rcases d.inDoubleQuotes_cases with ⟨e, he, rfl, eq⟩ | ⟨low, eq⟩ | ⟨high, -, eq⟩
  · have marks : ∀ e ∈ ofString "\"\\nrtbf", [('\\' : CodePoint), e].all CodePoint.isVisible = true ∧
        ((Escape.simple e).isVisible = true ∨ (Escape.simple e).val < 0x20) := by decide
    obtain ⟨visible, shown | low⟩ := marks e he
    · refine iff_of_false (eq ▸ outside visible) ?_
      rintro ⟨rfl, -⟩
      rw [shown] at hidden
      cases hidden
    · refine iff_of_false (eq ▸ outside visible) ?_
      rintro ⟨rfl, high⟩
      omega
  · refine iff_of_false (eq ▸ outside ?_) ?_
    · rw [List.all_cons, List.all_cons, all_isVisible_hexDigits]
      decide
    · rintro ⟨rfl, high⟩
      omega
  · rw [eq, List.mem_singleton]
    refine ⟨fun same => ⟨same, ?_⟩, And.left⟩
    rw [same]
    exact high

theorem mem_quoted_iff (hidden : c.isVisible = false) (s : Text) :
    c ∈ s.quoted ↔ c ∈ s ∧ 0x20 ≤ c.val := by
  have quote : c ≠ '"' := by
    rintro rfl
    exact absurd hidden (by decide)
  simp [quoted, quote, mem_inDoubleQuotes_iff hidden]

theorem not_mem_quoted (s : Text) : ('\n' : CodePoint) ∉ s.quoted := by
  rw [mem_quoted_iff (by decide)]
  rintro ⟨-, high⟩
  revert high
  decide

theorem mem_asKey_iff (key : Text) : ('\n' : CodePoint) ∈ key.asKey ↔ key.isNameAndFeed = true := by
  cases feed : key.isNameAndFeed with
  | true =>
    obtain ⟨name, -, rfl⟩ := exists_of_isNameAndFeed feed
    simp [asKey, passesAsName_eq, feed]
  | false =>
    rw [asKey, passesAsName_eq, feed, Bool.or_false]
    split
    · next isName => simpa using not_mem_of_isName isName
    · simpa using not_mem_quoted key

end Text

theorem Text.IsDigits.all_isVisible {s : Text} (h : s.IsDigits) :
    s.all CodePoint.isVisible = true := by
  refine List.all_eq_true.2 fun c hc => ?_
  exact CodePoint.isVisible_of_isBetween (by decide) (by decide) (h.2 c hc)

/-- Numbers are written in visible code points. -/
theorem Decimal.all_isVisible_text (d : Decimal) : d.text.all CodePoint.isVisible = true := by
  have fraction : d.fractionText.all CodePoint.isVisible = true := by
    rw [fractionText]
    split
    · next f h => rw [List.all_cons, (d.fraction_digits f h).all_isVisible]; decide
    · rfl
  have exponent : d.exponentText.all CodePoint.isVisible = true := by
    rw [exponentText]
    split
    · next down e h =>
      rw [List.all_cons, List.all_cons, (d.exponent_digits _ h).all_isVisible]
      cases down <;> decide
    · rfl
  rw [text, List.all_append, List.all_append, d.whole_digits.all_isVisible, fraction, exponent]
  rfl

theorem Text.all_isVisible_ofInt (i : Int) : (Text.ofInt i).all CodePoint.isVisible = true := by
  have whole (n : Nat) : (Text.ofNat n).all CodePoint.isVisible = true := by
    rw [← Decimal.text_ofNat]
    exact (Decimal.ofNat n).all_isVisible_text
  cases i with
  | ofNat n => exact whole n
  | negSucc n => rw [ofInt, List.all_cons, whole]; decide

theorem Binary64.all_isVisible_shown (x : Binary64) : x.shown.all CodePoint.isVisible = true := by
  cases x with
  | finite negative m e h =>
    obtain ⟨d, -, shown⟩ := exists_shown negative h
    rw [shown]
    cases negative
    · exact d.all_isVisible_text
    · rw [if_pos rfl, List.all_append, d.all_isVisible_text]; decide
  | infinite negative => cases negative <;> decide
  | nan => decide

namespace Literal

theorem renderList_eq_map (items : List Literal) : renderList items = items.map render := by
  induction items with
  | nil => rfl
  | cons v rest ih => rw [renderList, ih, List.map_cons]

/-- A key and its value in the text of an object. -/
def renderEntry (e : Text × Literal) : Text := e.1.asKey ++ ": " ++ e.2.render

theorem renderEntries_eq_map (es : Entries Literal) : renderEntries es = es.map renderEntry := by
  induction es with
  | nil => rfl
  | cons e rest ih => rw [renderEntries, ih, List.map_cons, renderEntry]

theorem render_list (items : List Literal) :
    (list items).render = "[" ++ Text.join ", " (items.map render) ++ "]" := by
  rw [render, renderList_eq_map]

theorem render_object {es : Entries Literal} (h : es ≠ []) :
    (object es).render = "\x7b " ++ Text.join ", " (es.map renderEntry) ++ " \x7d" := by
  cases es with
  | nil => exact absurd rfl h
  | cons e rest => rw [render, renderEntries_eq_map]

/-- The line feeds of rendered text are those behind the names that are its keys. -/
theorem not_mem_render_iff (v : Literal) :
    ('\n' : CodePoint) ∉ v.render ↔ v.everywhere keepsKeys = true := by
  have feed : CodePoint.isVisible '\n' = false := by decide
  have comma : ('\n' : CodePoint) ∉ (", " : Text) := by decide
  induction v using induct with
  | null => exact ⟨fun _ => rfl, fun _ => by decide⟩
  | bool b => exact ⟨fun _ => rfl, fun _ => by cases b <;> decide⟩
  | int i => exact ⟨fun _ => rfl, fun _ => Text.not_mem_of_visible feed (Text.all_isVisible_ofInt i)⟩
  | float x => exact ⟨fun _ => rfl, fun _ => Text.not_mem_of_visible feed x.all_isVisible_shown⟩
  | text s => exact ⟨fun _ => rfl, fun _ => Text.not_mem_quoted s⟩
  | list items ih =>
    have marks : ('\n' : CodePoint) ∉ ("[" : Text) ∧ ('\n' : CodePoint) ∉ ("]" : Text) := by decide
    have parts : ('\n' : CodePoint) ∉ (list items).render ↔
        ∀ v ∈ items, ('\n' : CodePoint) ∉ v.render := by
      simp [render_list, Text.mem_join comma, marks]
    rw [parts, everywhere_list, Bool.and_eq_true, List.all_eq_true]
    exact ⟨fun h => ⟨rfl, fun v hv => (ih v hv).1 (h v hv)⟩, fun h v hv => (ih v hv).2 (h.2 v hv)⟩
  | object es ih =>
    have marks : ('\n' : CodePoint) ∉ ("\x7b " : Text) ∧ ('\n' : CodePoint) ∉ (" \x7d" : Text) ∧
        ('\n' : CodePoint) ∉ (": " : Text) := by decide
    have parts : ('\n' : CodePoint) ∉ (object es).render ↔
        ∀ e ∈ es, e.1.isNameAndFeed = false ∧ ('\n' : CodePoint) ∉ e.2.render := by
      by_cases empty : es = []
      · subst empty
        exact ⟨fun _ => by simp, fun _ => by decide⟩
      · simp [render_object empty, renderEntry, Text.mem_join comma, Text.mem_asKey_iff, marks]
    rw [parts, everywhere_object, Bool.and_eq_true, List.all_eq_true]
    constructor
    · intro h
      refine ⟨?_, fun e he => (ih e he).1 (h e he).2⟩
      simpa [keepsKeys, onKeys, Entries.keys] using fun k v hv => (h (k, v) hv).1
    · intro h e he
      have key := List.all_eq_true.1 h.1 e.1 (List.mem_map_of_mem he)
      exact ⟨by simpa using key, (ih e he).2 (h.2 e he)⟩

end Literal

/-! ### The length of rendered text -/

/-- A text is not longer than another, and if it is as long, something else holds. -/
def Text.Fits (s t : Text) (exact : Prop) : Prop :=
  s.length ≤ t.length ∧ (t.length ≤ s.length → exact)

namespace Text

theorem Fits.append {s s' t t' : Text} {p q : Prop} (h : Fits s t p) (h' : Fits s' t' q) :
    Fits (s ++ s') (t ++ t') (p ∧ q) := by
  obtain ⟨le, exact⟩ := h
  obtain ⟨le', exact'⟩ := h'
  simp only [Fits, List.length_append]
  exact ⟨by omega, fun h => ⟨exact (by omega), exact' (by omega)⟩⟩

theorem Fits.mono {s t : Text} {p q : Prop} (h : Fits s t p) (hq : p → q) : Fits s t q :=
  ⟨h.1, fun le => hq (h.2 le)⟩

theorem Fits.refl (s : Text) : Fits s s True := ⟨le_refl _, fun _ => trivial⟩

/-- Joined texts fit if each of them does. -/
theorem fits_join {α : Type} (separator : Text) {f g : α → Text} {p : α → Prop} (as : List α)
    (h : ∀ a ∈ as, Fits (f a) (g a) (p a)) :
    Fits (join separator (as.map f)) (join separator (as.map g)) (∀ a ∈ as, p a) := by
  induction as with
  | nil => exact (Fits.refl []).mono fun _ => nofun
  | cons a rest ih =>
    have first := h a (by simp)
    have others := ih fun b hb => h b (List.mem_cons_of_mem _ hb)
    cases rest with
    | nil => simpa using first
    | cons b rest =>
      simp only [List.map_cons, join_cons_cons] at others ⊢
      refine (first.append ((Fits.refl separator).append others)).mono fun all => ?_
      exact List.forall_mem_cons.2 ⟨all.1, all.2.2⟩

end Text

namespace Literal

/-- What is read instead of a value with the same keys is written longer if some number is not
finite. -/
theorem fits_respelled {v : Literal} (distinct : v.everywhere hasDistinctKeys = true)
    (kept : v.everywhere keepsKeys = true) :
    Text.Fits v.render v.respelled.render (v.everywhere isFinite = true) := by
  induction v using induct with
  | null | bool | int | text => exact (Text.Fits.refl _).mono fun _ => rfl
  | float x =>
    cases x with
    | finite => exact (Text.Fits.refl _).mono fun _ => rfl
    | infinite negative => cases negative <;> exact ⟨by decide, by decide⟩
    | nan => exact ⟨by decide, by decide⟩
  | list items ih =>
    simp only [everywhere_list, Bool.and_eq_true, List.all_eq_true] at distinct kept
    have parts := Text.fits_join ", " items fun v hv => ih v hv (distinct.2 v hv) (kept.2 v hv)
    rw [respelled_list, render_list, render_list, List.map_map]
    refine (((Text.Fits.refl _).append parts).append (Text.Fits.refl _)).mono fun all => ?_
    simpa [isFinite] using all.1.2
  | object es ih =>
    by_cases empty : es = []
    · subst empty
      exact (Text.Fits.refl _).mono fun _ => rfl
    simp only [everywhere_object, Bool.and_eq_true, List.all_eq_true] at distinct kept
    have parts := Text.fits_join ", " es fun e he =>
      (Text.Fits.refl (e.1.asKey ++ ": ")).append (ih e he (distinct.2 e he) (kept.2 e he))
    rw [respelled_object_of_kept distinct.1 kept.1, render_object empty,
      render_object (by simpa using empty), List.map_map]
    refine (((Text.Fits.refl _).append parts).append (Text.Fits.refl _)).mono fun all => ?_
    simpa [isFinite] using fun k v hv => (all.1.2 (k, v) hv).2

end Literal

/-! ### Canonical text as a declaration -/

namespace Declaration

open Literal (hasDistinctKeys keepsKeys isFinite)

/-- Canonical text is read as the value that it is the text of, and leaves no record. -/
theorem readRaw_render (es : Entries Literal) : readRaw (Literal.object es).render =
    Logged.pure (Entries.lastWins (es.map fun e => (e.1.keyRead, e.2.reread))) := by
  obtain ⟨s, ts, text, members⟩ := LiteralText.exists_members es
  have opened := (LiteralText.writes_mark (c := '\x7b') rfl (by simp)).append members.writes
    fun _ _ => trivial
  have stands : Text.StandsIn s ([('\x7b' : CodePoint)] ++ s) 1 := List.prefix_refl s
  have whole : (Literal.object es).render = [('\x7b' : CodePoint)] ++ s := text
  rw [readRaw, whole, opened.lexes.tokenize_eq trivial]
  exact ofTokens_of_readsEntries rfl (members.reads stands) (by simp [Token.first, Token.eof])

/-- The fields of a declaration are written with distinct keys and quoted types. -/
theorem quoted_of_readRaw {text : Text} {es : Entries Raw} (h : (readRaw text).outcome = .ok es) :
    (Literal.object (Raw.quoteFields es)).everywhere hasDistinctKeys = true ∧
      ∀ e ∈ Raw.quoteFields es, e.2.typed = e.2 := by
  have wellformed := wellformed_of_readRaw h
  have distinct := wellformed.everywhere_quoteFields (Raw.quotes_onKeys fun _ => decide_eq_true)
  refine ⟨distinct, fun e he => ?_⟩
  rw [Raw.quoteFields_eq_map] at he
  obtain ⟨written, mem, rfl⟩ := List.mem_map.1 he
  cases wellformed with
  | object _ values => exact Raw.typed_quoteType (values written mem)

variable {fields : Entries Literal}

/-- Fields that keep their keys are read again with the numbers that are not finite as strings. -/
theorem quoteFields_of_kept (distinct : (Literal.object fields).everywhere hasDistinctKeys = true)
    (kept : (Literal.object fields).everywhere keepsKeys = true)
    (typed : ∀ e ∈ fields, e.2.typed = e.2) {es : Entries Raw}
    (read : (Literal.object fields).reread = .object es) :
    .object (Raw.quoteFields es) = (Literal.object fields).respelled := by
  simp only [Literal.everywhere_object, Bool.and_eq_true, List.all_eq_true] at distinct kept
  rw [Literal.reread_object_of_kept distinct.1 kept.1] at read
  cases read
  rw [Literal.respelled_object_of_kept distinct.1 kept.1, Raw.quoteFields_eq_map, List.map_map]
  refine congrArg Literal.object (List.map_congr_left fun e he => ?_)
  have value := Literal.quoteType_reread (distinct.2 e he) (kept.2 e he)
  rw [Function.comp_apply, value, typed e he]

/-- The canonical text of fields whose types are quoted is its own canonical text exactly if it
says what they are. -/
theorem exists_normalize_render
    (distinct : (Literal.object fields).everywhere hasDistinctKeys = true)
    (typed : ∀ e ∈ fields, e.2.typed = e.2) :
    ∃ again, (normalize (Literal.object fields).render).outcome = .ok again ∧
      (again = (Literal.object fields).render ↔
        (Literal.object fields).everywhere isFinite = true ∧
          (Literal.object fields).everywhere keepsKeys = true) := by
  obtain ⟨es, read⟩ : ∃ es, (Literal.object fields).reread = .object es :=
    ⟨_, Literal.reread_object fields⟩
  have raw : (readRaw (Literal.object fields).render).outcome = .ok es := by
    rw [Literal.reread_object] at read
    cases read
    rw [readRaw_render]
    rfl
  refine ⟨_, by rw [outcome_normalize, raw, ok_bind], ?_⟩
  constructor
  · intro same
    have holds := Literal.reread_keepsKeys (.object fields)
    rw [read] at holds
    -- What is read keeps its keys, so the second text has no line feed, and the first is the same.
    have kept : (Literal.object fields).everywhere keepsKeys = true := by
      rw [← Literal.not_mem_render_iff, ← same, Literal.not_mem_render_iff]
      exact holds.everywhere_quoteFields Literal.quotes_keepsKeys
    -- With the keys kept, a number that is not finite would make the second text the longer one.
    rw [quoteFields_of_kept distinct kept typed read] at same
    exact ⟨(Literal.fits_respelled distinct kept).2 (le_of_eq (congrArg List.length same)), kept⟩
  · intro ⟨finite, kept⟩
    rw [quoteFields_of_kept distinct kept typed read, Literal.respelled_eq distinct kept finite]

/-- The canonical text of a declaration has a canonical text. That is the same text exactly if no
key of the fields at any level is a name and a line feed behind it, and every number is finite. -/
theorem exists_normalize_normalized {text s : Text} (h : (normalize text).outcome = .ok s) :
    ∃ fields again, (read text).outcome = .ok fields ∧ (normalize s).outcome = .ok again ∧
      (again = s ↔ (Literal.object fields).everywhere isFinite = true ∧
        (Literal.object fields).everywhere keepsKeys = true) := by
  rw [outcome_normalize] at h
  cases raw : (readRaw text).outcome with
  | error e =>
    rw [raw] at h
    cases h
  | ok es =>
    rw [raw] at h
    cases h
    obtain ⟨distinct, typed⟩ := quoted_of_readRaw raw
    obtain ⟨again, normalized, same⟩ := exists_normalize_render distinct typed
    exact ⟨Raw.quoteFields es, again, by simp [read, raw], normalized, same⟩

/-- A declaration with a quoted key, options that are no types, and a shorthand. -/
def looseSample : Text :=
  "new Schema(\x7b 'full name': String, age: \x7b type: Number, min: -0x10, at: f(1) \x7d, on \x7d)"

theorem exists_normalize_normalized_loose :
    ∃ s fields again, (normalize looseSample).outcome = .ok s ∧
      (read looseSample).outcome = .ok fields ∧ (normalize s).outcome = .ok again ∧
      (again = s ↔ (Literal.object fields).everywhere isFinite = true ∧
        (Literal.object fields).everywhere keepsKeys = true) := by
  have whole : (normalize looseSample).outcome.toOption.isSome = true := by decide +kernel
  cases normalized : (normalize looseSample).outcome with
  | error e =>
    rw [normalized] at whole
    cases whole
  | ok s =>
    obtain ⟨fields, again, rest⟩ := exists_normalize_normalized normalized
    exact ⟨s, fields, again, rfl, rest⟩

/-- The text has the canonical text `s`, which has another one. -/
def Unsettled (text s again : Text) : Prop :=
  (normalize text).outcome = .ok s ∧ (normalize s).outcome = .ok again ∧ again ≠ s

theorem unsettled_of_toOption {text s again : Text}
    (h : (normalize text).outcome.toOption = some s ∧
      (normalize s).outcome.toOption = some again ∧ again ≠ s) : Unsettled text s again :=
  ⟨ok_of_toOption h.1, ok_of_toOption h.2.1, h.2.2⟩

/-- A key that is a name and a line feed, and a number that is too large, are each read again as
something else. -/
theorem unsettled_feed_and_infinity :
    Unsettled "\x7b 'a\\n': String \x7d" "\x7b a\n: \"string\" \x7d" "\x7b a: \"string\" \x7d" ∧
      Unsettled "\x7b a: 1e400 \x7d" "\x7b a: inf \x7d" "\x7b a: \"inf\" \x7d" := by
  constructor <;> exact unsettled_of_toOption (by decide +kernel)

end Declaration

end SchemaTypings
