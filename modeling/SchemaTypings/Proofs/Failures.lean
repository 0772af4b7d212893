import SchemaTypings.Declaration.Extract
import SchemaTypings.Proofs.Causes
import SchemaTypings.Proofs.ReaderSteps

/-!
What the lenient reader leaves and how it fails. It leaves a suffix of the tokens that it takes, and
unless the text is malformed it fails only at one of their numbers that has no value.
-/

namespace SchemaTypings

namespace Declaration

/-- A failure at one of the tokens. -/
theorem within_errorAt {α : Type} {source : Text} {ts : List Token} {rest : α → List Token}
    {cause : ReadCause} {t : Token} (seen : t ∈ Token.eof 0 :: ts) :
    Within source ts rest (.error (errorAt source cause t)) :=
  .of_cause (.malformed seen rfl rfl rfl)

theorem within_errorAt_first {α : Type} {source : Text} {rest : α → List Token} {cause : ReadCause}
    (ts : List Token) : Within source ts rest (.error (errorAt source cause (Token.first ts))) :=
  within_errorAt (Token.first_mem (List.suffix_refl ts))

/-- What a reader yields, if anything, is good. -/
def Yields {α : Type} (good : α → Prop) (x : Except ReadError α) : Prop := ∀ a, x = .ok a → good a

namespace Yields

variable {α β : Type} {good : α → Prop} {good' : β → Prop} {x : Except ReadError α}

theorem ok {a : α} (h : good a) : Yields good (.ok a) := by
  rintro _ ⟨⟩
  exact h

theorem error {e : ReadError} : Yields good (.error e) := nofun

/-- What comes next may rely on what was yielded. -/
theorem seq {f : α → Except ReadError β} (h : Yields good x)
    (hf : ∀ a, good a → Yields good' (f a)) : Yields good' (x >>= f) := by
  cases x with
  | error e => exact error
  | ok a => exact hf a (h a rfl)

theorem mono (h : Yields good x) {good' : α → Prop} (hg : ∀ a, good a → good' a) :
    Yields good' x :=
  fun a read => hg a (h a read)

/-- The same where nothing is known of what was yielded. -/
theorem skip {f : α → Except ReadError β} (hf : ∀ a, Yields good' (f a)) :
    Yields good' (x >>= f) := by
  cases x with
  | error e => exact error
  | ok a => exact hf a

end Yields

/-! ### Searches -/

variable (source : Text)

theorem within_afterGenerics (depth : Int) (ts : List Token) :
    Within source ts id (afterGenerics source depth ts) := by
  fun_induction afterGenerics source depth ts
  case case1 => exact within_errorAt List.mem_cons_self
  case case2 => exact within_errorAt (by simp)
  case case3 => exact .ok (List.suffix_cons ..)
  case case4 ih | case5 ih => exact ih.mono (List.suffix_cons ..)

theorem within_skipGenerics (ts : List Token) : Within source ts id (skipGenerics source ts) := by
  rw [skipGenerics]
  split
  · exact within_afterGenerics source 0 ts
  · exact .ok (List.suffix_refl ts)

theorem within_findCall (ts : List Token) : Within source ts id (findCall source ts) := by
  fun_induction findCall source ts
  case case1 | case4 => exact within_errorAt List.mem_cons_self
  case case2 => exact within_errorAt (by simp)
  case case3 skip =>
    exact .of_cause (((within_skipGenerics source _).cause _ skip).mono (List.suffix_cons ..))
  case case5 p inner skip _ _ =>
    have suffix : p :: inner <:+ _ := (within_skipGenerics source _).suffix _ skip
    exact .ok (((List.suffix_cons p inner).trans suffix).trans (List.suffix_cons ..))
  case case6 p inner skip _ _ ih =>
    have suffix : p :: inner <:+ _ := (within_skipGenerics source _).suffix _ skip
    exact ih.mono (((List.suffix_cons p inner).trans suffix).trans (List.suffix_cons ..))
  case case7 p inner skip _ ih =>
    have suffix : p :: inner <:+ _ := (within_skipGenerics source _).suffix _ skip
    exact ih.mono (suffix.trans (List.suffix_cons ..))
  case case8 ih => exact ih.mono (List.suffix_cons ..)

theorem within_findSchemaObject (ts : List Token) :
    Within source ts id (findSchemaObject source ts) := by
  rw [findSchemaObject]
  split
  · exact .ok (List.suffix_refl ts)
  · exact within_findCall source ts

theorem within_toDelimiter (depth : Nat) (last : Option Token) (ts : List Token) :
    Within source ts Prod.snd (toDelimiter source depth last ts) := by
  fun_induction toDelimiter source depth last ts
  case case1 | case2 | case4 => exact .ok (List.suffix_refl _)
  case case3 => exact within_errorAt (by simp)
  case case5 ih | case6 ih | case7 ih => exact ih.mono (List.suffix_cons ..)

theorem within_readOpaque (ts : List Token) : Within source ts Prod.snd (readOpaque source ts) := by
  refine (within_toDelimiter source 0 none ts).bind fun (last, rest) suffix => ?_
  cases last with
  | none => exact within_errorAt_first ts
  | some t => exact .ok suffix

theorem suffix_of_closer? {depth : Nat} {ts rest : List Token} {t : Token}
    (h : closer? depth ts = some (t, rest)) : rest <:+ ts := by
  fun_induction closer? depth ts
  case case1 => cases h
  case case3 =>
    cases h
    exact List.suffix_cons ..
  case case2 ih | case4 ih | case5 ih => exact (ih h).trans (List.suffix_cons ..)

theorem within_findCloser (ts : List Token) : Within source ts Prod.snd (findCloser source ts) := by
  rw [findCloser]
  split
  · next t rest found => exact .ok (suffix_of_closer? found)
  · exact within_errorAt_first ts

/-! ### Values -/

theorem suffix_namePath (path : Text) (ts : List Token) : (namePath path ts).2 <:+ ts := by
  fun_induction namePath path ts
  case case1 ih => exact (ih.trans (List.suffix_cons ..)).trans (List.suffix_cons ..)
  case case2 | case3 => exact List.suffix_refl _

theorem within_readName (ts : List Token) : Within source ts Prod.snd (readName source ts) := by
  rw [readName]
  dsimp only
  split
  · exact .ok ((suffix_namePath ..).trans (List.tail_suffix ts))
  · exact (within_readOpaque source ts).bind fun _ suffix => .ok suffix

theorem within_finish {start ts : List Token} (v : Raw) (h : ts <:+ start) :
    Within source start Prod.snd (finish source start v ts) := by
  rw [finish]
  dsimp only
  split
  · exact .ok h
  split
  · exact ((within_toDelimiter source 0 none ts).mono h).bind fun _ suffix => .ok suffix
  split
  · exact .ok ((List.tail_suffix ts).trans h)
  · exact (within_readOpaque source start).bind fun _ suffix => .ok suffix

/-- The value of a number token, or the failure for want of one. -/
theorem within_number {ts : List Token} {t : Token} (mem : t ∈ ts) (number : t.kind = .number) :
    Within source ts (fun _ : Literal => []) (Declaration.number t) := by
  rw [Declaration.number]
  split
  · exact .ok (List.nil_suffix ..)
  · next none =>
    exact .of_cause (.number mem number none)

/-- What the readers do on any tokens with the given fuel. -/
structure ReadsWithin (fuel : Nat) : Prop where
  value : ∀ ts, Within source ts Prod.snd (readValue source fuel ts).outcome
  nested : ∀ ts, Within source ts Prod.snd (readNestedSchema source fuel ts).outcome
  entries : ∀ before ts, Within source ts Prod.snd (readEntries source fuel before ts).outcome
  entry : ∀ before ts, Within source ts Prod.snd (readEntry source fuel before ts).outcome
  items : ∀ ts, Within source ts Prod.snd (readItems source fuel ts).outcome

theorem ReadsWithin.zero : ReadsWithin source 0 where
  value ts := by rw [readValue]; exact within_errorAt_first ts
  nested ts := by rw [readNestedSchema]; exact within_errorAt_first ts
  entries before ts := by rw [readEntries]; exact within_errorAt_first ts
  entry before ts := by rw [readEntry]; exact within_errorAt_first ts
  items ts := by rw [readItems]; exact within_errorAt_first ts

variable {source}

theorem ReadsWithin.value_succ {fuel : Nat} (ih : ReadsWithin source fuel) (ts : List Token) :
    Within source ts Prod.snd (readValue source (fuel + 1) ts).outcome := by
  cases ts with
  | nil =>
    rw [readValue]
    exact within_errorAt List.mem_cons_self
  | cons t rest =>
    have tail := List.suffix_cons t rest
    have other (h : t.kind ≠ .opens .curly ∧ t.kind ≠ .opens .square ∧ t.kind ≠ .string ∧
        t.kind ≠ .number ∧ t.kind ≠ .name) :
        Within source (t :: rest) Prod.snd (readValue source (fuel + 1) (t :: rest)).outcome := by
      rw [readValue_other h]
      split
      · next minus =>
        cases rest with
        | nil => cases minus.2
        | cons n more =>
          exact (within_number source (by simp [Token.first]) minus.2).bind fun v _ =>
            within_finish source _ ((List.suffix_cons n more).trans tail)
      · exact (within_readOpaque source (t :: rest)).bind fun _ suffix => .ok suffix
    cases kind : t.kind with
    | opens b =>
      cases b with
      | curly =>
        rw [readValue_object kind]
        exact ((ih.entries [] rest).mono tail).bind fun _ suffix => within_finish source _ suffix
      | square =>
        rw [readValue_list kind]
        exact ((ih.items rest).mono tail).bind fun _ suffix => within_finish source _ suffix
      | round => exact other (by simp [kind])
    | string =>
      rw [readValue_string kind]
      exact within_finish source _ tail
    | number =>
      rw [readValue_number kind]
      exact (within_number source (by simp) kind).bind fun v _ => within_finish source _ tail
    | name =>
      rw [readValue_name kind]
      split
      · exact (ih.nested (t :: rest)).bind fun _ suffix => within_finish source _ suffix
      · exact within_readName source (t :: rest)
    | _ => exact other (by simp [kind])

theorem ReadsWithin.entries_succ {fuel : Nat} (ih : ReadsWithin source fuel) (before : Entries Raw)
    (ts : List Token) :
    Within source ts Prod.snd (readEntries source (fuel + 1) before ts).outcome := by
  cases ts with
  | nil =>
    rw [readEntries]
    exact within_errorAt List.mem_cons_self
  | cons t rest =>
    rw [readEntries_cons]
    split
    · exact .ok (List.suffix_cons t rest)
    · refine (ih.entry before (t :: rest)).bind fun read suffix => ?_
      have left : read.2.tail <:+ t :: rest := (List.tail_suffix read.2).trans suffix
      rw [moreEntries]
      split
      · exact (ih.entries read.1 read.2.tail).mono left
      split
      · exact .ok left
      · exact within_errorAt (Token.first_mem suffix)

theorem ReadsWithin.items_succ {fuel : Nat} (ih : ReadsWithin source fuel) (ts : List Token) :
    Within source ts Prod.snd (readItems source (fuel + 1) ts).outcome := by
  cases ts with
  | nil =>
    rw [readItems]
    exact within_errorAt List.mem_cons_self
  | cons t rest =>
    rw [readItems_cons]
    split
    · exact .ok (List.suffix_cons t rest)
    split
    · exact (ih.items rest).mono (List.suffix_cons t rest)
    · refine (ih.value (t :: rest)).bind fun read suffix => ?_
      have left : read.2.tail <:+ t :: rest := (List.tail_suffix read.2).trans suffix
      rw [moreItems]
      split
      · exact ((ih.items read.2.tail).mono left).bind fun _ suffix => .ok suffix
      split
      · exact .ok left
      · exact within_errorAt (Token.first_mem suffix)

theorem within_closeSchema {start : Token} {ts : List Token} {read : Entries Raw × List Token}
    (seen : start ∈ Token.eof 0 :: ts) (h : read.2 <:+ ts) :
    Within source ts Prod.snd (closeSchema source start read) := by
  have close {rest : List Token} (left : rest <:+ ts) : Within source ts Prod.snd
      (if (Token.first rest).kind = .closes .round then .ok (Raw.object read.1, rest.tail)
        else .error (errorAt source .expectedCloseOfSchema start)) := by
    split
    · exact .ok ((List.tail_suffix rest).trans left)
    · exact within_errorAt seen
  have options : Within source ts id
      (toDelimiter source 0 none read.2.tail >>= fun found => .ok found.2) :=
    ((within_toDelimiter source 0 none read.2.tail).mono ((List.tail_suffix read.2).trans h)).bind
      fun _ suffix => .ok suffix
  rw [closeSchema]
  split
  · exact options.bind fun _ suffix => close suffix
  · exact close h

theorem ReadsWithin.nested_succ {fuel : Nat} (ih : ReadsWithin source fuel) (ts : List Token) :
    Within source ts Prod.snd (readNestedSchema source (fuel + 1) ts).outcome := by
  rw [readNestedSchema_eq]
  refine (within_findSchemaObject source ts).bind fun object found => ?_
  refine ((ih.entries [] object.tail).mono ((List.tail_suffix object).trans found)).bind
    fun read suffix => ?_
  exact within_closeSchema (Token.first_mem (List.suffix_refl ts)) suffix

theorem ReadsWithin.skipComputed {fuel : Nat} (ih : ReadsWithin source fuel)
    (before : Entries Raw) {ts : List Token} {read : Token × List Token} (h : read.2 <:+ ts) :
    Within source ts Prod.snd (Declaration.skipComputed source fuel before read) := by
  rw [Declaration.skipComputed]
  split
  · exact ((ih.value read.2.tail).mono ((List.tail_suffix read.2).trans h)).bind
      fun _ suffix => .ok suffix
  · exact within_errorAt (Token.first_mem h)

theorem within_skipMethod (before : Entries Raw) {ts : List Token} {read : Token × List Token}
    (h : read.2 <:+ ts) : Within source ts Prod.snd (skipMethod source before read) := by
  rw [skipMethod]
  split
  · exact ((within_findCloser source read.2).mono h).bind fun _ suffix => .ok suffix
  · exact .ok h

theorem ReadsWithin.entry_succ {fuel : Nat} (ih : ReadsWithin source fuel) (before : Entries Raw)
    (ts : List Token) :
    Within source ts Prod.snd (readEntry source (fuel + 1) before ts).outcome := by
  cases ts with
  | nil =>
    rw [readEntry]
    exact within_errorAt List.mem_cons_self
  | cons t rest =>
    have tail := List.suffix_cons t rest
    rw [readEntry_cons]
    split
    · exact ((within_readOpaque source rest).mono tail).bind fun _ suffix => .ok suffix
    split
    · exact (within_findCloser source (t :: rest)).bind fun _ suffix =>
        ih.skipComputed before suffix
    split
    · split
      · exact ((ih.value rest.tail).mono ((List.tail_suffix rest).trans tail)).bind
          fun _ suffix => .ok suffix
      split
      · exact ((within_findCloser source rest).mono tail).bind
          fun _ suffix => within_skipMethod before suffix
      split
      · exact .ok tail
      · exact within_errorAt (Token.first_mem tail)
    · exact within_errorAt (by simp)

theorem readsWithin (fuel : Nat) : ReadsWithin source fuel := by
  induction fuel with
  | zero => exact .zero source
  | succ fuel ih =>
    exact ⟨ih.value_succ, ih.nested_succ, ih.entries_succ, ih.entry_succ, ih.items_succ⟩

/-- Any failure of the reader is that of one of the tokens. -/
theorem cause_of_ofTokens {text : Text} {ts : List Token} {e : ReadError}
    (h : (ofTokens text ts).outcome = .error e) : Cause text ts e := by
  have read : Within text ts (fun _ : Entries Raw => []) (ofTokens text ts).outcome := by
    rw [ofTokens_eq]
    refine (within_findSchemaObject text ts).bind fun object found => ?_
    exact (((readsWithin _).entries [] object.tail).mono
      ((List.tail_suffix object).trans found)).bind fun _ _ => .ok (List.nil_suffix ..)
  exact read.cause e h

/-- A declaration is refused as malformed, or for a number token without a value, or for an escape
that is too large. -/
theorem cause_of_readRaw {text : Text} {e : ReadError} (h : (readRaw text).outcome = .error e) :
    (∃ m, e = .malformed m) ∨
      (e = .badNumber ∧ ∃ ts, tokenize text = .ok ts ∧ Cause text ts .badNumber) ∨
      e = .escapeTooLarge ∧ ∃ le, tokenize text = .error le ∧ le.cause = .escapeTooLarge := by
  rw [readRaw] at h
  split at h
  · next le tokens =>
    cases h
    unfold ReadError.ofLexical
    split
    · next large => exact .inr (.inr ⟨rfl, le, tokens, large⟩)
    · exact .inl ⟨_, rfl⟩
  · next ts tokens =>
    cases cause_of_ofTokens h with
    | malformed => exact .inl ⟨_, rfl⟩
    | number mem number none => exact .inr (.inl ⟨rfl, ts, tokens, .number mem number none⟩)

/-! ### Declarations that are found -/

theorem error?_of_walkCall {error? : Option LexError} {stack : List Bracket} {argument : Bool}
    {ts : List Token} {e : LexError} (h : walkCall error? stack argument ts = .tokenError e) :
    error? = some e := by
  fun_induction walkCall error? stack argument ts
  case case1 =>
    cases h
    assumption
  case case2 | case3 | case4 | case6 | case7 | case8 => cases h
  case case5 ih | case9 ih | case10 ih => exact ih h

/-- The outcome of a search: a declaration that is found is a part of the source, and the search
fails only where the tokens of some call end at an escape that is too large. -/
structure Searched (source : Text) (x : Except LexError (Option Declaration)) : Prop where
  part : ∀ d, x = .ok (some d) → d.text <:+: source
  cause : ∀ e, x = .error e →
    e.cause = .escapeTooLarge ∧ ∃ start, (lexFrom source start).error? = some e

theorem Searched.none : Searched source (.ok none) := by
  constructor <;> rintro _ ⟨⟩

theorem cause_of_callEnd? {start : Nat} {e : LexError}
    (h : (callEnd? source start).outcome = .error e) :
    e.cause = .escapeTooLarge ∧ (lexFrom source start).error? = some e := by
  rw [callEnd?] at h
  split at h
  · cases h
  · cases h
  · next e' walk =>
    split at h
    · next large =>
      cases h
      exact ⟨large, error?_of_walkCall walk⟩
    · cases h

theorem searched_ofHeader? (start : Nat) (name rest : Text) :
    Searched source (ofHeader? source start name rest).outcome := by
  rw [ofHeader?]
  split
  · exact .none
  split
  · exact .none
  next call _ _ =>
  rw [Logged.outcome_bind]
  cases h : (callEnd? source (source.length - call.length)).outcome with
  | error e =>
    constructor
    · rintro d ⟨⟩
    · rintro e ⟨⟩
      obtain ⟨large, lexed⟩ := cause_of_callEnd? h
      exact ⟨large, _, lexed⟩
  | ok stop =>
    cases stop with
    | none => exact .none
    | some stop =>
      constructor
      · rintro d ⟨⟩
        exact (List.take_prefix ..).isInfix.trans (List.drop_suffix start source).isInfix
      · rintro e ⟨⟩

theorem Searched.bind {x : Logged LexError (Option Declaration)}
    {f : Option Declaration → Logged LexError (Option Declaration)}
    (hx : Searched source x.outcome) (found : ∀ d, f (some d) = pure (some d))
    (rest : Searched source (f Option.none).outcome) : Searched source (x >>= f).outcome := by
  rw [Logged.outcome_bind]
  cases h : x.outcome with
  | error e =>
    rw [h] at hx
    exact hx
  | ok d =>
    cases d with
    | none => exact rest
    | some d =>
      rw [h] at hx
      rw [ok_bind, found]
      exact hx

theorem searched_search (inWord : Bool) (rest : Text) :
    Searched source (search source inWord rest).outcome := by
  fun_induction search source inWord rest
  case case1 => exact .none
  case case2 ih => exact ih
  case case3 ih => exact (searched_ofHeader? ..).bind (fun _ => rfl) ih

end Declaration

end SchemaTypings
