import Mathlib.Tactic.FinCases
import SchemaTypings.Json.Printer
import SchemaTypings.Json.Reader
import SchemaTypings.Proofs.Decoding
import SchemaTypings.Proofs.Idempotence

/-!
JSON text and its values. The indented text of a value is read back as that value if it has no
floating-point numbers and no key twice, and no text of a value has a carriage return.
-/

namespace SchemaTypings

/-! ### Strings -/

namespace Json

theorem hexQuad?_hexDigits {n : Nat} (h : n < 0x20) (rest : Text) :
    hexQuad? (hexDigits 4 n ++ rest) = some n := by
  have value : ∀ n < 0x20,
      (do let digits ← (hexDigits 4 n).mapM hexValue?; pure (Numeral.value 16 digits)) =
        some n := by decide +kernel
  exact value n h

theorem stringBody_inDoubleQuotes (c : CodePoint) (opened : Nat) {rest : Text} (behind : rest ≠ []) :
    stringBody opened (c.inDoubleQuotes ++ rest) =
      (stringBody opened rest).map fun (body, rest) => (c :: body, rest) := by
  rcases c.inDoubleQuotes_cases with ⟨d, hd, rfl, eq⟩ | ⟨low, eq⟩ | ⟨high, other, eq⟩
  · have letters : ∀ d ∈ Text.ofString "\"\\nrtbf",
        d ≠ 'u' ∧ simpleEscape? d = some (Escape.simple d) := by decide
    obtain ⟨notCode, escape⟩ := letters d hd
    rw [eq, List.cons_append, List.singleton_append, stringBody, if_neg (by decide),
      if_neg (by decide), if_pos rfl]
    simp only [if_neg notCode, escape]
  · have notHigh : ¬(0xD800 ≤ c.val ∧ c.val ≤ 0xDBFF ∧ 6 < rest.length ∧
        rest.take 2 = Text.ofString "\\u") := by
      omega
    have enough : 4 < (hexDigits 4 c.val ++ rest).length := by
      have := List.length_pos_iff.2 behind
      rw [List.length_append, length_hexDigits]
      omega
    have known : CodePoint.ofNat? c.val = some c := by rw [CodePoint.ofNat?, dif_pos c.val_lt]
    have behind : (hexDigits 4 c.val ++ rest).drop 4 = rest :=
      List.drop_left' (length_hexDigits 4 c.val)
    rw [eq, List.cons_append, List.cons_append, stringBody, if_neg (by decide),
      if_neg (by decide), if_pos rfl]
    simp only [if_pos, if_pos enough, hexQuad?_hexDigits low, behind, if_neg notHigh, known]
    cases stringBody opened rest <;> rfl
  · rw [eq, List.singleton_append, stringBody.eq_def]
    simp only [if_neg other.1, if_neg (Nat.not_lt.2 high), if_neg other.2.2]

/-- The body of a quoted text is read as the text. -/
theorem stringBody_quoted (opened : Nat) (s rest : Text) :
    stringBody opened (s.flatMap CodePoint.inDoubleQuotes ++ ('"' : CodePoint) :: rest) =
      .ok (s, rest) := by
  induction s with
  | nil => rw [List.flatMap_nil, List.nil_append, stringBody.eq_def]; rfl
  | cons c s ih =>
    rw [List.flatMap_cons, List.append_assoc, stringBody_inDoubleQuotes c opened (by simp), ih]
    rfl

end Json

/-! ### Numbers -/

/-- Only zero is written with a zero at the start. -/
theorem Text.eq_zero_of_head?_ofNat {n : Nat} (h : (ofNat n).head? = some ('0' : CodePoint)) :
    n = 0 := by
  induction n using Nat.strongRecOn with
  | ind n ih =>
    by_cases small : n < 10
    · have digits : ∀ n < 10, (ofNat n).head? = some ('0' : CodePoint) → n = 0 := by decide
      exact digits n small h
    · have split : Nat.toDigits 10 n = Nat.toDigits 10 (n / 10) ++ [(n % 10).digitChar] :=
        Nat.toDigits_of_base_le (by decide) (by omega)
      obtain ⟨c, tail, eq⟩ := List.exists_cons_of_ne_nil (isDigits_ofNat (n / 10)).1
      have whole : ofNat n = ofNat (n / 10) ++ [((n % 10).digitChar : CodePoint)] := by
        rw [ofNat, split, List.map_append]
        rfl
      have first := ih (n / 10) (by omega) (by rw [whole, eq] at h; rwa [eq])
      omega

theorem Text.exists_ofNat (n : Nat) :
    ∃ c tail, ofNat n = c :: tail ∧ c.isAsciiDigit = true := by
  obtain ⟨some, all⟩ := isDigits_ofNat n
  obtain ⟨c, tail, eq⟩ := List.exists_cons_of_ne_nil some
  exact ⟨c, tail, eq, all c (eq ▸ List.mem_cons_self)⟩

theorem Numeral.integer?_ofNat (n : Nat) : integer? 10 (Text.ofNat n) = some (n : Int) := by
  have trimmed := (Decimal.ofNat n).numeric.trim_text
  have unsigned := (Decimal.ofNat n).numeric.sign_text
  rw [Decimal.text_numeric, Decimal.text_ofNat] at trimmed unsigned
  have value := Text.digitsValue_ofNat n
  rw [Text.digitsValue] at value
  simp [integer?, trimmed, unsigned, dropMarker, marker?, value,
    digits?_of_isDigits (Text.isDigits_ofNat n)]

/-- Nothing follows a value in JSON text, or what does is no part of it. -/
def Text.EndsValue (rest : Text) : Prop := ∀ c ∈ rest.head?, c = ',' ∨ c = '\n'

namespace Json

variable {rest : Text}

theorem number?_ofInt (i : Int) (ends : rest.EndsValue) :
    number? (Text.ofInt i ++ rest) = some (.int i, rest) := by
  have whole (n : Nat) :
      (Text.ofNat n ++ rest).takeWhile CodePoint.isAsciiDigit = Text.ofNat n := by
    refine Text.takeWhile_stops (List.all_eq_true.2 (Text.isAsciiDigit_ofNat n)) fun c hc => ?_
    rcases ends c hc with rfl | rfl <;> decide
  have kept (n : Nat) : (if (Text.ofNat n).head? = some '0' then (Text.ofNat n).take 1
      else Text.ofNat n) = Text.ofNat n := by
    split
    · next zero =>
      rw [Text.eq_zero_of_head?_ofNat zero]
      rfl
    · rfl
  have digits (n : Nat) : (Text.ofNat n).isEmpty = false := by
    rw [List.isEmpty_eq_false_iff]
    exact (Text.isDigits_ofNat n).1
  cases i with
  | ofNat n =>
    obtain ⟨c, tail, eq, digit⟩ := Text.exists_ofNat n
    have notMinus := (CodePoint.digitFacts digit).notSign.1
    have start : Text.ofInt (.ofNat n) ++ rest = c :: (tail ++ rest) := by
      rw [Text.ofInt, eq]
      rfl
    have back : c :: (tail ++ rest) = Text.ofNat n ++ rest := by rw [eq]; rfl
    rw [start, number?]
    simp only [if_neg notMinus]
    rw [back]
    simp only [whole, kept, digits, List.drop_left, Numeral.integer?_ofNat]
    cases rest with
    | nil => rfl
    | cons d rest =>
      rcases ends d rfl with rfl | rfl <;> rfl
  | negSucc n =>
    rw [Text.ofInt, List.cons_append, number?]
    simp only [if_pos, whole, kept, digits, List.drop_left, Numeral.integer?_ofNat]
    cases rest with
    | nil => rfl
    | cons d rest =>
      rcases ends d rfl with rfl | rfl <;> rfl

end Json

/-! ### Values -/

/-- What a value may start with: no blank, no byte order mark, and nothing that closes a list. -/
def Json.StartsValue (c : CodePoint) : Prop := isBlank c = false ∧ c ≠ ']' ∧ c.val ≠ 0xFEFF

instance (c : CodePoint) : Decidable (Json.StartsValue c) :=
  inferInstanceAs (Decidable (_ ∧ _ ∧ _))

namespace Literal

/-- The value is no floating-point number, and no two keys of an object are the same. -/
def isDiscrete : Literal → Bool
  | .float _ => false
  | .object es => decide (Entries.keys es).Nodup
  | _ => true

theorem jsonBlockList_eq_map (depth : Nat) (items : List Literal) :
    jsonBlockList depth items = items.map (jsonBlock depth) := by
  induction items with
  | nil => rfl
  | cons v rest ih => rw [jsonBlockList, ih, List.map_cons]

/-- A key and its value in the text of an object. -/
def jsonMember (depth : Nat) (e : Text × Literal) : Text :=
  e.1.quoted ++ ": " ++ e.2.jsonBlock depth

theorem jsonBlockEntries_eq_map (depth : Nat) (es : Entries Literal) :
    jsonBlockEntries depth es = es.map (jsonMember depth) := by
  induction es with
  | nil => rfl
  | cons e rest ih => rw [jsonBlockEntries, ih, List.map_cons, jsonMember]

/-- Parts on lines of their own. -/
def jsonLines (depth : Nat) (parts : List Text) : Text :=
  Text.join ("," ++ jsonBreak depth) parts

theorem jsonLines_cons_cons (depth : Nat) (s t : Text) (parts : List Text) :
    jsonLines depth (s :: t :: parts) =
      s ++ (',' : CodePoint) :: (jsonBreak depth ++ jsonLines depth (t :: parts)) := by
  rw [jsonLines, Text.join_cons_cons, List.append_assoc]
  rfl

theorem exists_jsonLines (depth : Nat) {s : Text} {c : CodePoint} {tail : Text} (h : s = c :: tail)
    (parts : List Text) : ∃ tail, jsonLines depth (s :: parts) = c :: tail := by
  subst h
  cases parts with
  | nil => exact ⟨tail, Text.join_singleton _ _⟩
  | cons t parts => exact ⟨_, jsonLines_cons_cons depth _ t parts⟩

theorem jsonBlock_list {items : List Literal} (h : items ≠ []) (depth : Nat) :
    (list items).jsonBlock depth = ('[' : CodePoint) :: (jsonBreak (depth + 1) ++
      (jsonLines (depth + 1) (items.map (jsonBlock (depth + 1))) ++
        (jsonBreak depth ++ [(']' : CodePoint)]))) := by
  cases items with
  | nil => exact absurd rfl h
  | cons v rest =>
    simp only [jsonBlock, jsonBlockList_eq_map, jsonLines, List.append_assoc]
    rfl

theorem jsonBlock_object {es : Entries Literal} (h : es ≠ []) (depth : Nat) :
    (object es).jsonBlock depth = ('\x7b' : CodePoint) :: (jsonBreak (depth + 1) ++
      (jsonLines (depth + 1) (es.map (jsonMember (depth + 1))) ++
        (jsonBreak depth ++ [('\x7d' : CodePoint)]))) := by
  cases es with
  | nil => exact absurd rfl h
  | cons e rest =>
    simp only [jsonBlock, jsonBlockEntries_eq_map, jsonLines, List.append_assoc]
    rfl

theorem exists_jsonBlock {v : Literal} (discrete : v.isDiscrete = true) (depth : Nat) :
    ∃ c tail, v.jsonBlock depth = c :: tail ∧ Json.StartsValue c := by
  cases v with
  | null => exact ⟨'n', _, rfl, by decide⟩
  | bool b => cases b <;> exact ⟨_, _, rfl, by decide⟩
  | int i =>
    obtain ⟨c, tail, eq, start⟩ := TypeText.exists_ofInt i
    refine ⟨c, tail, eq, ?_⟩
    rcases start with rfl | digit
    · decide
    · revert digit
      exact CodePoint.forall_isAsciiDigit (p := Json.StartsValue) (by decide)
  | float x => cases discrete
  | text s => exact ⟨'"', _, rfl, by decide⟩
  | list items => cases items <;> exact ⟨'[', _, rfl, by decide⟩
  | object es => cases es <;> exact ⟨'\x7b', _, rfl, by decide⟩

end Literal

namespace Json

theorem skipBlanks_jsonBreak {s : Text} (h : ∀ c ∈ s.head?, isBlank c = false) (depth : Nat) :
    skipBlanks (Literal.jsonBreak depth ++ s) = s := by
  refine Text.dropWhile_stops ?_ h
  rw [Literal.jsonBreak, List.all_cons, Text.times, List.all_replicate]
  simp [isBlank]

theorem endsValue_jsonBreak (depth : Nat) (s : Text) :
    (Literal.jsonBreak depth ++ s).EndsValue := by
  rintro _ ⟨⟩
  exact .inr rfl

variable {fuel depth outer : Nat}

theorem value_text (s : Text) (rest : Text) :
    value (fuel + 1) (s.quoted ++ rest) = .ok (.text s, rest) := by
  have start : s.quoted ++ rest =
      ('"' : CodePoint) :: (s.flatMap CodePoint.inDoubleQuotes ++ ('"' : CodePoint) :: rest) := by
    simp [Text.quoted]
  rw [start, value, if_pos rfl, stringBody_quoted]
  rfl

/-- No word is a number, with or without a sign. -/
theorem find?_words_ofInt (i : Int) (rest : Text) :
    words.find? (fun w => w.1.isPrefixOf (Text.ofInt i ++ rest)) = none := by
  have unsigned (n : Nat) :
      ∃ c tail, Text.ofNat n ++ rest = c :: tail ∧ c.isAsciiDigit = true := by
    obtain ⟨c, tail, eq, digit⟩ := Text.exists_ofNat n
    exact ⟨c, tail ++ rest, by rw [eq]; rfl, digit⟩
  cases i with
  | ofNat n =>
    obtain ⟨c, tail, eq, digit⟩ := unsigned n
    rw [Text.ofInt, eq]
    refine CodePoint.forall_isAsciiDigit
      (p := fun c => words.find? (fun w => w.1.isPrefixOf (c :: tail)) = none) (fun n => ?_) digit
    fin_cases n <;> rfl
  | negSucc n =>
    obtain ⟨c, tail, eq, digit⟩ := unsigned (n + 1)
    rw [Text.ofInt, List.cons_append, eq]
    refine CodePoint.forall_isAsciiDigit
      (p := fun c => words.find? (fun w => w.1.isPrefixOf ('-' :: c :: tail)) = none)
      (fun n => ?_) digit
    fin_cases n <;> rfl

theorem value_int (i : Int) (ends : rest.EndsValue) :
    value (fuel + 1) (Text.ofInt i ++ rest) = .ok (.int i, rest) := by
  have number := number?_ofInt i ends
  have word := find?_words_ofInt i rest
  obtain ⟨c, tail, eq, start⟩ := TypeText.exists_ofInt i
  rw [eq, List.cons_append] at number word ⊢
  have plain : c ≠ '"' ∧ c ≠ '[' ∧ c ≠ '\x7b' := by
    rcases start with rfl | digit
    · decide
    · revert digit
      exact CodePoint.forall_isAsciiDigit (p := fun c => c ≠ '"' ∧ c ≠ '[' ∧ c ≠ '\x7b') (by decide)
  rw [value, if_neg plain.1, if_neg plain.2.1, if_neg plain.2.2, word]
  simp only [number]

/-- In front of all that may follow a value, the text `s` is read as `v`. -/
structure Shows (s : Text) (v : Literal) : Prop where
  start : ∃ c tail, s = c :: tail ∧ StartsValue c
  reads : ∀ {fuel : Nat} {rest : Text}, rest.EndsValue → s.length ≤ fuel →
    value fuel (s ++ rest) = .ok (v, rest)

theorem Shows.of_succ {s : Text} {v : Literal}
    (start : ∃ c tail, s = c :: tail ∧ StartsValue c)
    (reads : ∀ {fuel : Nat} {rest : Text}, rest.EndsValue → s.length ≤ fuel + 1 →
      value (fuel + 1) (s ++ rest) = .ok (v, rest)) : Shows s v := by
  refine ⟨start, fun {fuel rest} ends enough => ?_⟩
  obtain ⟨c, tail, eq, -⟩ := start
  obtain ⟨fuel, rfl⟩ := Nat.exists_eq_add_one_of_ne_zero (n := fuel) (by
    rintro rfl
    rw [eq] at enough
    cases enough)
  exact reads ends enough

theorem skipBlanks_mark {c : CodePoint} (h : isBlank c = false) (s : Text) :
    skipBlanks (c :: s) = c :: s := by
  rw [skipBlanks, List.dropWhile_cons, h]
  rfl

theorem endsValue_comma (s : Text) : Text.EndsValue ((',' : CodePoint) :: s) := by
  rintro _ ⟨⟩
  exact .inl rfl

/-- Items on lines of their own are read up to the closing bracket. -/
theorem items_jsonLines {vs : List Literal} (filled : vs ≠ [])
    (each : ∀ v ∈ vs, Shows (v.jsonBlock depth) v)
    (enough : (Literal.jsonLines depth (vs.map (Literal.jsonBlock depth))).length < fuel)
    (rest : Text) :
    items fuel (Literal.jsonLines depth (vs.map (Literal.jsonBlock depth)) ++
      (Literal.jsonBreak outer ++ (']' : CodePoint) :: rest)) = .ok (vs, rest) := by
  induction vs generalizing fuel with
  | nil => exact absurd rfl filled
  | cons v vs ih =>
    obtain ⟨fuel, rfl⟩ := Nat.exists_eq_add_one_of_ne_zero (n := fuel) (by rintro rfl; cases enough)
    have first := each v List.mem_cons_self
    cases vs with
    | nil =>
      have alone : Literal.jsonLines depth ([v].map (Literal.jsonBlock depth)) =
        v.jsonBlock depth := Text.join_singleton _ _
      rw [alone] at enough ⊢
      rw [items, first.reads (endsValue_jsonBreak outer _) (Nat.le_of_lt_succ enough)]
      dsimp only
      rw [skipBlanks_jsonBreak (by rintro _ ⟨⟩; decide)]
      rfl
    | cons w vs =>
      obtain ⟨c, tail, eq, start, -⟩ := (each w (by simp)).start
      obtain ⟨tail, eq⟩ := Literal.exists_jsonLines depth eq
        (vs.map (Literal.jsonBlock depth))
      simp only [List.map_cons, Literal.jsonLines_cons_cons, List.append_assoc, List.cons_append,
        List.length_append, List.length_cons] at enough ih ⊢
      rw [items, first.reads (endsValue_comma _) (by omega)]
      dsimp only
      rw [skipBlanks_mark (by decide)]
      dsimp only
      rw [if_neg (by decide), if_pos rfl,
        skipBlanks_jsonBreak (by rw [eq]; rintro _ ⟨⟩; exact start),
        ih (by simp) (fun u hu => each u (List.mem_cons_of_mem v hu)) (by omega)]
      rfl

/-- A member is the last one in front of a closing brace, and others follow behind a comma. -/
theorem members_jsonMember {key : Text} {v : Literal} (h : Shows (v.jsonBlock depth) v)
    (ends : rest.EndsValue) (enough : (v.jsonBlock depth).length ≤ fuel) :
    (∀ more, skipBlanks rest = ('\x7d' : CodePoint) :: more →
        members (fuel + 1) (Literal.jsonMember depth (key, v) ++ rest) =
          .ok ([(key, v)], more)) ∧
      ∀ more, skipBlanks rest = (',' : CodePoint) :: more →
        members (fuel + 1) (Literal.jsonMember depth (key, v) ++ rest) =
          (members fuel (skipBlanks more)).map fun m => ((key, v) :: m.1, m.2) := by
  obtain ⟨c, tail, eq, start, -⟩ := h.start
  have member : Literal.jsonMember depth (key, v) ++ rest =
      ('"' : CodePoint) :: (key.flatMap CodePoint.inDoubleQuotes ++
        ('"' : CodePoint) :: ':' :: ' ' :: (v.jsonBlock depth ++ rest)) := by
    have colon : Text.ofString ": " = [(':' : CodePoint), (' ' : CodePoint)] := rfl
    simp [Literal.jsonMember, Text.quoted, colon]
  have space : skipBlanks (' ' :: (v.jsonBlock depth ++ rest)) = v.jsonBlock depth ++ rest := by
    rw [eq]
    exact skipBlanks_mark start _
  have mark (s : Text) : skipBlanks ((':' : CodePoint) :: s) = (':' : CodePoint) :: s :=
    skipBlanks_mark (by decide) s
  rw [member, members]
  simp only [ne_eq, not_true_eq_false, if_false, stringBody_quoted, mark, space,
    h.reads ends enough]
  exact ⟨fun more close => by simp [close], fun more comma => by simp [comma]⟩

/-- Members on lines of their own are read up to the closing brace. -/
theorem members_jsonLines {es : Entries Literal} (filled : es ≠ [])
    (each : ∀ e ∈ es, Shows (e.2.jsonBlock depth) e.2)
    (enough : (Literal.jsonLines depth (es.map (Literal.jsonMember depth))).length < fuel)
    (rest : Text) :
    members fuel (Literal.jsonLines depth (es.map (Literal.jsonMember depth)) ++
      (Literal.jsonBreak outer ++ ('\x7d' : CodePoint) :: rest)) = .ok (es, rest) := by
  induction es generalizing fuel with
  | nil => exact absurd rfl filled
  | cons e es ih =>
    obtain ⟨fuel, rfl⟩ := Nat.exists_eq_add_one_of_ne_zero (n := fuel) (by rintro rfl; cases enough)
    have first := each e List.mem_cons_self
    have part : (e.2.jsonBlock depth).length ≤ (Literal.jsonMember depth e).length := by
      rw [Literal.jsonMember, List.length_append]
      omega
    cases es with
    | nil =>
      have alone : Literal.jsonLines depth ([e].map (Literal.jsonMember depth)) =
        Literal.jsonMember depth e := Text.join_singleton _ _
      rw [alone] at enough ⊢
      have solid : ∀ c ∈ List.head? (('\x7d' : CodePoint) :: rest), isBlank c = false := by
        rintro _ ⟨⟩
        decide
      exact (members_jsonMember first (endsValue_jsonBreak outer _) (by omega)).1 rest
        (skipBlanks_jsonBreak solid outer)
    | cons f es =>
      have quote : Literal.jsonMember depth f = ('"' : CodePoint) :: _ := rfl
      obtain ⟨tail, eq⟩ := Literal.exists_jsonLines depth quote
        (es.map (Literal.jsonMember depth))
      simp only [List.map_cons, Literal.jsonLines_cons_cons, List.append_assoc, List.cons_append,
        List.length_append, List.length_cons] at enough ih ⊢
      rw [(members_jsonMember first (endsValue_comma _) (by omega)).2 _
          (skipBlanks_mark (by decide) _),
        skipBlanks_jsonBreak (by rw [eq]; rintro _ ⟨⟩; decide),
        ih (by simp) (fun u hu => each u (List.mem_cons_of_mem e hu)) (by omega)]
      rfl

end Json

/-! ### Entries -/

namespace Entries

variable {α : Type}

theorem put_of_not_mem {es : Entries α} {key : Text} (h : key ∉ es.keys) (v : α) :
    es.put key v = es ++ [(key, v)] := by
  induction es with
  | nil => rfl
  | cons e es ih =>
    rw [keys_cons, List.mem_cons, not_or] at h
    rw [put, if_neg (Ne.symm h.1), ih h.2]
    rfl

/-- Entries under new keys stand behind the others. -/
theorem update_of_nodup {es more : Entries α} (h : (es ++ more).keys.Nodup) :
    es.update more = es ++ more := by
  induction more generalizing es with
  | nil => exact (List.append_nil es).symm
  | cons e more ih =>
    have new : e.1 ∉ es.keys := by
      rw [keys_append, keys_cons, List.nodup_append] at h
      exact fun mem => h.2.2 _ mem _ List.mem_cons_self rfl
    have moved : es ++ e :: more = (es ++ [e]) ++ more := by simp
    rw [moved] at h ⊢
    rw [← ih h, update, List.foldl_cons, put_of_not_mem new]
    rfl

end Entries

/-! ### Whole texts -/

namespace Literal

open Json

theorem shows_list {items : List Literal} {depth : Nat} (filled : items ≠ [])
    (start : ∃ c tail, (list items).jsonBlock depth = c :: tail ∧ StartsValue c)
    (each : ∀ v ∈ items, Shows (v.jsonBlock (depth + 1)) v) :
    Shows ((list items).jsonBlock depth) (list items) := by
  refine .of_succ start fun {fuel rest} _ enough => ?_
  cases items with
  | nil => exact absurd rfl filled
  | cons v items =>
    obtain ⟨c, tail, eq, notBlank, notClose, -⟩ := (each v List.mem_cons_self).start
    obtain ⟨tail, eq⟩ := exists_jsonLines (depth + 1) eq (items.map (jsonBlock (depth + 1)))
    rw [jsonBlock_list filled] at enough ⊢
    simp only [List.length_append, List.length_cons, List.length_nil] at enough
    have read := @items_jsonLines fuel (depth + 1) depth _ filled each (by omega) rest
    simp only [List.map_cons, List.cons_append, List.append_assoc, List.nil_append] at read ⊢
    rw [eq] at read ⊢
    rw [value, if_neg (by decide), if_pos rfl,
      skipBlanks_jsonBreak (by rintro _ ⟨⟩; exact notBlank)]
    simp only [List.cons_append] at read ⊢
    rw [if_neg notClose, read]
    rfl

theorem shows_object {es : Entries Literal} {depth : Nat} (filled : es ≠ [])
    (distinct : es.keys.Nodup)
    (start : ∃ c tail, (object es).jsonBlock depth = c :: tail ∧ StartsValue c)
    (each : ∀ e ∈ es, Shows (e.2.jsonBlock (depth + 1)) e.2) :
    Shows ((object es).jsonBlock depth) (object es) := by
  refine .of_succ start fun {fuel rest} _ enough => ?_
  cases es with
  | nil => exact absurd rfl filled
  | cons e es =>
    have quote : jsonMember (depth + 1) e = ('"' : CodePoint) :: _ := rfl
    obtain ⟨tail, eq⟩ := exists_jsonLines (depth + 1) quote (es.map (jsonMember (depth + 1)))
    rw [jsonBlock_object filled] at enough ⊢
    simp only [List.length_append, List.length_cons, List.length_nil] at enough
    have read := @members_jsonLines fuel (depth + 1) depth _ filled each (by omega) rest
    simp only [List.map_cons, List.cons_append, List.append_assoc, List.nil_append] at read ⊢
    rw [eq] at read ⊢
    rw [value, if_neg (by decide), if_neg (by decide), if_pos rfl,
      skipBlanks_jsonBreak (by rintro _ ⟨⟩; decide)]
    simp only [List.cons_append] at read ⊢
    have same : Entries.ofList (e :: es) = e :: es := @Entries.update_of_nodup _ [] _ distinct
    rw [if_neg (by decide), read, Except.map, same]

/-- The indented text of a value is read as that value. -/
theorem shows_jsonBlock {v : Literal} (discrete : v.everywhere isDiscrete = true) (depth : Nat) :
    Shows (v.jsonBlock depth) v := by
  have start := exists_jsonBlock (of_everywhere discrete) depth
  induction v using induct generalizing depth with
  | null => exact .of_succ start fun _ _ => rfl
  | bool b => cases b <;> exact .of_succ start fun _ _ => rfl
  | int i => exact .of_succ start fun ends _ => value_int i ends
  | float x => cases discrete
  | text s => exact .of_succ start fun _ _ => value_text s _
  | list items ih =>
    by_cases filled : items = []
    · subst filled
      exact .of_succ start fun _ _ => rfl
    rw [everywhere_list, Bool.and_eq_true, List.all_eq_true] at discrete
    exact shows_list filled start fun v hv =>
      ih v hv (discrete.2 v hv) _ (exists_jsonBlock (of_everywhere (discrete.2 v hv)) _)
  | object es ih =>
    by_cases filled : es = []
    · subst filled
      exact .of_succ start fun _ _ => rfl
    rw [everywhere_object, Bool.and_eq_true, List.all_eq_true] at discrete
    exact shows_object filled (of_decide_eq_true discrete.1) start fun e he =>
      ih e he (discrete.2 e he) _ (exists_jsonBlock (of_everywhere (discrete.2 e he)) _)

/-- A value is read back from its JSON text. -/
theorem read_json {v : Literal} (discrete : v.everywhere isDiscrete = true) :
    read v.json = .ok v := by
  have shown := shows_jsonBlock discrete 0
  obtain ⟨c, tail, eq, notBlank, -, notMark⟩ := shown.start
  have front : skipBlanks (v.jsonBlock 0) = v.jsonBlock 0 := by
    rw [eq]
    exact skipBlanks_mark notBlank tail
  have unmarked : ¬(v.jsonBlock 0).head?.any (·.val = 0xFEFF) = true := by simp [eq, notMark]
  have whole : value (2 * (v.jsonBlock 0).length + 2) (v.jsonBlock 0 ++ []) = .ok (v, []) :=
    shown.reads nofun (by omega)
  rw [List.append_nil] at whole
  rw [json, Json.read, if_neg unmarked, front, whole]
  rfl

theorem not_mem_jsonBreak (depth : Nat) : ('\r' : CodePoint) ∉ jsonBreak depth := by
  simp [jsonBreak, Text.times]

/-- JSON text has no carriage return. -/
theorem not_mem_jsonBlock (v : Literal) (depth : Nat) :
    ('\r' : CodePoint) ∉ v.jsonBlock depth := by
  have visible {s : Text} (h : s.all CodePoint.isVisible = true) : ('\r' : CodePoint) ∉ s :=
    Text.not_mem_of_visible (by decide) h
  have quoted (s : Text) : ('\r' : CodePoint) ∉ s.quoted := by
    rw [Text.mem_quoted_iff (by decide)]
    exact fun mem => absurd mem.2 (by decide)
  have lines {depth : Nat} {parts : List Text} (each : ∀ s ∈ parts, ('\r' : CodePoint) ∉ s) :
      ('\r' : CodePoint) ∉ jsonLines depth parts := by
    rw [jsonLines, Text.mem_join]
    · rintro ⟨s, hs, mem⟩
      exact each s hs mem
    · rw [List.mem_append, not_or]
      exact ⟨visible rfl, not_mem_jsonBreak depth⟩
  induction v using induct generalizing depth with
  | null => exact visible rfl
  | bool b => cases b <;> exact visible rfl
  | int i => exact visible (Text.all_isVisible_ofInt i)
  | float x =>
    cases x with
    | finite negative m e h =>
      exact visible (Binary64.all_isVisible_shown (.finite negative m e h))
    | infinite negative => cases negative <;> exact visible rfl
    | nan => exact visible rfl
  | text s => exact quoted s
  | list items ih =>
    by_cases filled : items = []
    · subst filled
      exact visible rfl
    have each : ('\r' : CodePoint) ∉ jsonLines (depth + 1) (items.map (jsonBlock (depth + 1))) :=
      lines (List.forall_mem_map.2 fun v hv => ih v hv (depth + 1))
    simp [jsonBlock_list filled, not_mem_jsonBreak, each]
  | object es ih =>
    by_cases filled : es = []
    · subst filled
      exact visible rfl
    have each : ('\r' : CodePoint) ∉ jsonLines (depth + 1) (es.map (jsonMember (depth + 1))) := by
      refine lines (List.forall_mem_map.2 fun e he => ?_)
      have colon : ('\r' : CodePoint) ∉ Text.ofString ": " := visible rfl
      simp [jsonMember, quoted, ih e he, colon]
    simp [jsonBlock_object filled, not_mem_jsonBreak, each]

end Literal

end SchemaTypings
