import SchemaTypings.Proofs.Declaring
import SchemaTypings.Proofs.Failures

/-!
Tokens that have moved. What the searches of the lenient reader find in front of a closing bracket,
they find wherever those tokens stand and whatever follows the bracket.
-/

namespace SchemaTypings

namespace Declaration

/-- A part of a text does not depend on what stands around the text. -/
theorem slice_within {before text behind : Text} {start stop : Nat} (hs : before.length ≤ start)
    (he : stop ≤ before.length + text.length) :
    slice (before ++ (text ++ behind)) start stop =
      slice text (start - before.length) (stop - before.length) := by
  have drop : (before ++ (text ++ behind)).drop start =
      (text ++ behind).drop (start - before.length) := by
    rw [List.drop_append, List.drop_eq_nil_of_le hs, List.nil_append]
  have width : stop - start = stop - before.length - (start - before.length) := by omega
  rw [slice, slice, drop, width, List.drop_append, List.take_append_of_le_length]
  rw [List.length_drop]
  omega

/-- Whether the tokens are past all that a declaration says. -/
def IsOver (ts : List Token) : Prop :=
  (Token.first ts).kind = .semicolon ∨ (Token.first ts).kind = .eof

/-- The tokens `all` of a source stand `n` code points later in another. In the first they are in
front of the tokens `rest` and in the second in front of `rest'`, both of which start with the same
closing bracket; behind that of the first source nothing more is declared. -/
structure Moved (source source' : Text) (n : Nat) (all rest rest' : List Token) : Prop where
  slices : ∀ t ∈ all, ∀ u ∈ all, slice source' (t.pos + n) (u.stop + n) = slice source t.pos u.stop
  closes : ∃ b, (Token.first rest).kind = .closes b
  alike : (Token.first rest').kind = (Token.first rest).kind
  isOver : ∀ ts, ts <:+ rest.tail → IsOver ts

/-- Where one reader succeeds in front of `rest`, the other succeeds in front of `rest'`, and `f` is
what becomes of the value. -/
def Agrees {α β : Type} (n : Nat) (rest rest' : List Token) (f : α → β)
    (x : Except ReadError (α × List Token)) (y : Except ReadError (β × List Token)) : Prop :=
  ∀ a ts, x = .ok (a, ts ++ rest) → y = .ok (f a, ts.map (·.later n) ++ rest')

variable {source source' : Text} {n : Nat} {all rest rest' : List Token}

namespace Moved

theorem closes' (m : Moved source source' n all rest rest') :
    ∃ b, (Token.first rest').kind = .closes b := by
  rw [m.alike]
  exact m.closes

theorem exists_cons (m : Moved source source' n all rest rest') :
    ∃ b c more, rest = c :: more ∧ c.kind = .closes b := by
  obtain ⟨b, closes⟩ := m.closes
  cases rest with
  | nil => cases closes
  | cons c more => exact ⟨b, c, more, rfl, closes⟩

theorem exists_cons' (m : Moved source source' n all rest rest') :
    ∃ b c more, rest' = c :: more ∧ c.kind = .closes b := by
  obtain ⟨b, closes⟩ := m.closes'
  cases rest' with
  | nil => cases closes
  | cons c more => exact ⟨b, c, more, rfl, closes⟩

theorem ne (m : Moved source source' n all rest rest') {k : TokenKind} (hk : ∀ b, k ≠ .closes b) :
    (Token.first rest).kind ≠ k := by
  obtain ⟨b, closes⟩ := m.closes
  rw [closes]
  exact (hk b).symm

theorem ne' (m : Moved source source' n all rest rest') {k : TokenKind} (hk : ∀ b, k ≠ .closes b) :
    (Token.first rest').kind ≠ k := by
  rw [m.alike]
  exact m.ne hk

/-- A token and its moved one are of the same kind. -/
theorem kind_first (m : Moved source source' n all rest rest') (ts : List Token) :
    (Token.first (ts.map (·.later n) ++ rest')).kind = (Token.first (ts ++ rest)).kind := by
  cases ts with
  | nil => exact m.alike
  | cons t ts => rfl

theorem not_suffix (m : Moved source source' n all rest rest') (ts : List Token) :
    ¬ts ++ rest <:+ rest.tail := by
  obtain ⟨-, c, more, rfl, -⟩ := m.exists_cons
  intro h
  have short := h.length_le
  simp only [List.length_append, List.length_cons, List.tail_cons] at short
  omega

/-- What is left of the tokens is in front of `rest`, or else past all that is declared. -/
theorem left (m : Moved source source' n all rest rest') {us vs : List Token}
    (h : vs <:+ us ++ rest) : (∃ ts, vs = ts ++ rest ∧ ts <:+ us) ∨ vs <:+ rest.tail := by
  obtain ⟨-, c, more, rfl, -⟩ := m.exists_cons
  rcases List.suffix_or_suffix_of_suffix h (List.suffix_append us (c :: more)) with short | long
  · rcases List.suffix_cons_iff.1 short with rfl | short
    · exact .inl ⟨[], rfl, List.nil_suffix⟩
    · exact .inr short
  · obtain ⟨ts, rfl⟩ := long
    obtain ⟨before, eq⟩ := h
    rw [← List.append_assoc] at eq
    exact .inl ⟨ts, rfl, before, List.append_cancel_right eq⟩

end Moved

namespace Agrees

variable {α β α' β' : Type} {f : α → β} {g : α' → β'}

theorem of_error {x : Except ReadError (α × List Token)} {y : Except ReadError (β × List Token)}
    {e : ReadError} (h : x = .error e) : Agrees n rest rest' f x y := by
  rintro a ts rfl
  cases h

theorem of_eq {x : Except ReadError (α × List Token)} {y y' : Except ReadError (β × List Token)}
    (h : y' = y) (agree : Agrees n rest rest' f x y) : Agrees n rest rest' f x y' := by
  rw [h]
  exact agree

theorem ok {a : α} (ts : List Token) :
    Agrees n rest rest' f (.ok (a, ts ++ rest)) (.ok (f a, ts.map (·.later n) ++ rest')) := by
  intro b us h
  obtain ⟨rfl, eq⟩ := Prod.mk.inj (Except.ok.inj h)
  rw [List.append_cancel_right eq]

/-- What is read up to behind the bracket does not end in front of it. -/
theorem past (m : Moved source source' n all rest rest') {a : α}
    {y : Except ReadError (β × List Token)} : Agrees n rest rest' f (.ok (a, rest.tail)) y := by
  intro b ts h
  have eq : rest.tail = ts ++ rest := (Prod.mk.inj (Except.ok.inj h)).2
  exact absurd (eq ▸ List.suffix_refl rest.tail) (m.not_suffix ts)

/-- What is done to the values does not matter if it is the same. -/
theorem map {γ δ : Type} {k : γ → δ} {p : α → γ} {q : β → δ}
    {x : Except ReadError (α × List Token)} {y : Except ReadError (β × List Token)}
    (h : Agrees n rest rest' f x y) (same : ∀ a, q (f a) = k (p a)) :
    Agrees n rest rest' k (x >>= fun a => .ok (p a.1, a.2)) (y >>= fun b => .ok (q b.1, b.2)) := by
  intro c ts found
  obtain ⟨⟨a, vs⟩, read, eq⟩ := bind_eq_ok.1 found
  obtain ⟨rfl, rfl⟩ := Prod.mk.inj (Except.ok.inj eq)
  rw [h a ts read, ← same]
  rfl

/-- Readers in a row agree if each of them does. What comes after a reader that has left the
declaration behind must not go back. -/
theorem bind (m : Moved source source' n all rest rest') {us : List Token}
    {x : Except ReadError (α × List Token)} {y : Except ReadError (β × List Token)}
    {k : α × List Token → Except ReadError (α' × List Token)}
    {k' : β × List Token → Except ReadError (β' × List Token)}
    (h : Agrees n rest rest' f x y) (within : Within source (us ++ rest) Prod.snd x)
    (behind : ∀ a ts, IsOver ts → ∀ b vs, k (a, ts) = .ok (b, vs) → vs <:+ ts)
    (next : ∀ a ts, ts <:+ us →
      Agrees n rest rest' g (k (a, ts ++ rest)) (k' (f a, ts.map (·.later n) ++ rest'))) :
    Agrees n rest rest' g (x >>= k) (y >>= k') := by
  intro b vs found
  obtain ⟨⟨a, ts⟩, read, after⟩ := bind_eq_ok.1 found
  rcases m.left (within.suffix _ read) with ⟨ts, rfl, suffix⟩ | past
  · rw [h a ts read]
    exact next a ts suffix b vs after
  · have back := behind a ts (m.isOver ts past) b _ after
    exact absurd (back.trans past) (m.not_suffix vs)

end Agrees

/-! ### Searches -/

namespace Moved

theorem afterGenerics (m : Moved source source' n all rest rest') {depth : Int}
    {us ts : List Token}
    (h : Declaration.afterGenerics source depth (us ++ rest) = .ok (ts ++ rest)) :
    Declaration.afterGenerics source' depth (us.map (·.later n) ++ rest') =
      .ok (ts.map (·.later n) ++ rest') := by
  induction us generalizing depth with
  | nil =>
    obtain ⟨b, c, more, rfl, closes⟩ := m.exists_cons
    rw [List.nil_append, Declaration.afterGenerics, if_neg (by simp [closes]),
      if_neg (by simp [closes])] at h
    exact absurd ((within_afterGenerics source depth more).suffix _ h) (m.not_suffix ts)
  | cons t us ih =>
    rw [List.cons_append, Declaration.afterGenerics] at h
    rw [List.map_cons, List.cons_append, Declaration.afterGenerics]
    split at h
    · cases h
    next eof =>
    refine (if_neg eof).trans ?_
    split at h
    · next operator =>
      refine (if_pos operator).trans ?_
      dsimp only at h
      split at h
      · next closed =>
        refine (if_pos closed).trans ?_
        rw [List.append_cancel_right (Except.ok.inj h)]
      · next open_ => exact (if_neg open_).trans (ih h)
    · next other => exact (if_neg other).trans (ih h)

theorem skipGenerics (m : Moved source source' n all rest rest') {us ts : List Token}
    (h : Declaration.skipGenerics source (us ++ rest) = .ok (ts ++ rest)) :
    Declaration.skipGenerics source' (us.map (·.later n) ++ rest') =
      .ok (ts.map (·.later n) ++ rest') := by
  have same : (Token.first (us.map (·.later n) ++ rest')).isOperator "<" =
      (Token.first (us ++ rest)).isOperator "<" := by
    cases us with
    | nil =>
      obtain ⟨b, closes⟩ := m.closes
      simp [Token.isOperator, m.alike, closes]
    | cons t us => rfl
  rw [Declaration.skipGenerics] at h ⊢
  rw [same]
  split at h
  · next angle =>
    rw [if_pos angle]
    exact m.afterGenerics h
  · next plain =>
    rw [if_neg plain, List.append_cancel_right (Except.ok.inj h)]

theorem findCall_ne (m : Moved source source' n all rest rest') (ts : List Token) :
    Declaration.findCall source rest ≠ .ok (ts ++ rest) := by
  obtain ⟨b, c, more, rfl, closes⟩ := m.exists_cons
  rw [findCall_skip (by simp [closes]) (by simp [closes])]
  exact fun h => m.not_suffix ts ((within_findCall source more).suffix _ h)

theorem findCall (m : Moved source source' n all rest rest') {us ts : List Token}
    (h : Declaration.findCall source (us ++ rest) = .ok (ts ++ rest)) :
    Declaration.findCall source' (us.map (·.later n) ++ rest') =
      .ok (ts.map (·.later n) ++ rest') := by
  induction hn : us.length using Nat.strongRecOn generalizing us with
  | ind k ih =>
    cases us with
    | nil => exact absurd h (m.findCall_ne ts)
    | cons t us =>
      rw [List.length_cons] at hn
      rw [List.cons_append] at h
      rw [List.map_cons, List.cons_append]
      by_cases schema : t.kind = .name ∧ t.value = "Schema"
      · rw [findCall_word schema] at h
        rw [findCall_word (t := t.later n) schema]
        split at h
        · cases h
        · cases h
        next p inner skip =>
        have suffix : p :: inner <:+ us ++ rest := (within_skipGenerics source _).suffix _ skip
        -- What is found stands behind the generic arguments, so they end in front of `rest`.
        have found : ts ++ rest <:+ p :: inner := by
          split at h
          · split at h
            · rw [← Except.ok.inj h]
              exact List.suffix_cons p inner
            · exact ((within_findCall source inner).suffix _ h).trans (List.suffix_cons p inner)
          · exact (within_findCall source _).suffix _ h
        rcases m.left suffix with ⟨vs, eq, part⟩ | past
        · have short := part.length_le
          rw [eq] at skip
          rw [m.skipGenerics skip]
          cases vs with
          | nil =>
            have first : p = Token.first rest := congrArg Token.first eq
            rw [first, if_neg (m.ne (by simp)), ← first, eq] at h
            exact absurd h (m.findCall_ne ts)
          | cons q vs =>
            obtain ⟨rfl, rfl⟩ := List.cons.inj eq
            rw [List.length_cons] at short
            split at h
            · next round =>
              refine (if_pos round).trans ?_
              have same := m.kind_first vs
              split at h
              · next curly =>
                have eq : vs = ts := List.append_cancel_right (Except.ok.inj h)
                exact (if_pos (same.trans curly)).trans (by rw [eq]; rfl)
              · next other =>
                refine (if_neg fun no => other (same.symm.trans no)).trans ?_
                exact ih vs.length (by omega) h rfl
            · next other =>
              refine (if_neg other).trans ?_
              exact ih (p :: vs).length (by rw [List.length_cons]; omega) h rfl
        · exact absurd (found.trans past) (m.not_suffix ts)
      · by_cases eof : t.kind = .eof
        · rw [Declaration.findCall, if_pos eof] at h
          cases h
        · rw [findCall_skip eof schema] at h
          rw [findCall_skip (t := t.later n) eof schema]
          exact ih us.length (by omega) h rfl

theorem findSchemaObject (m : Moved source source' n all rest rest') {us ts : List Token}
    (h : Declaration.findSchemaObject source (us ++ rest) = .ok (ts ++ rest)) :
    Declaration.findSchemaObject source' (us.map (·.later n) ++ rest') =
      .ok (ts.map (·.later n) ++ rest') := by
  have same := m.kind_first us
  rw [Declaration.findSchemaObject] at h ⊢
  split at h
  · next curly =>
    rw [if_pos (same.trans curly), List.append_cancel_right (Except.ok.inj h)]
  · next other =>
    rw [if_neg fun no => other (same.symm.trans no)]
    exact m.findCall h

/-- The last token in front of a delimiter is one of those that were read. -/
theorem toDelimiter (m : Moved source source' n all rest rest') {depth : Nat}
    {last found : Option Token} {us ts : List Token}
    (h : Declaration.toDelimiter source depth last (us ++ rest) = .ok (found, ts ++ rest)) :
    Declaration.toDelimiter source' depth (last.map (·.later n)) (us.map (·.later n) ++ rest') =
        .ok (found.map (·.later n), ts.map (·.later n) ++ rest') ∧
      (found = last ∨ ∃ t ∈ us, found = some t) := by
  have stop {l : Option Token} (vs : List Token)
      (h : (Except.ok (l, vs ++ rest) : Except ReadError _) = .ok (found, ts ++ rest)) :
      l = found ∧ vs = ts := by
    obtain ⟨same, eq⟩ := Prod.mk.inj (Except.ok.inj h)
    exact ⟨same, List.append_cancel_right eq⟩
  induction us generalizing depth last with
  | nil =>
    obtain ⟨b, c, more, rfl, closes⟩ := m.exists_cons
    obtain ⟨b', c', more', rfl, closes'⟩ := m.exists_cons'
    by_cases zero : depth = 0
    · subst zero
      rw [List.nil_append, Declaration.toDelimiter, if_neg (by simp [closes]),
        if_pos (by simp [closes, TokenKind.isDelimiter])] at h
      obtain ⟨rfl, rfl⟩ := stop [] h
      rw [List.map_nil, List.nil_append, Declaration.toDelimiter, if_neg (by simp [closes']),
        if_pos (by simp [closes', TokenKind.isDelimiter])]
      exact ⟨rfl, .inl rfl⟩
    · rw [List.nil_append, Declaration.toDelimiter, if_neg (by simp [closes]),
        if_neg (by simp [zero]), closes] at h
      exact absurd ((within_toDelimiter source _ _ more).suffix _ h) (m.not_suffix ts)
  | cons t us ih =>
    by_cases eof : t.kind = .eof
    · rw [List.cons_append, Declaration.toDelimiter, if_pos eof] at h
      rw [List.map_cons, List.cons_append, Declaration.toDelimiter]
      split at h
      · next zero =>
        obtain ⟨rfl, rfl⟩ := stop (t :: us) h
        exact ⟨(if_pos eof).trans (if_pos zero), .inl rfl⟩
      · cases h
    by_cases delimiter : depth = 0 ∧ t.kind.isDelimiter = true
    · rw [List.cons_append, Declaration.toDelimiter, if_neg eof, if_pos delimiter] at h
      rw [List.map_cons, List.cons_append, Declaration.toDelimiter]
      obtain ⟨rfl, rfl⟩ := stop (t :: us) h
      exact ⟨(if_neg eof).trans (if_pos delimiter), .inl rfl⟩
    · rw [List.cons_append, toDelimiter_step eof delimiter] at h
      rw [List.map_cons, List.cons_append, toDelimiter_step (t := t.later n) eof delimiter]
      obtain ⟨moved, last⟩ := ih h
      refine ⟨moved, .inr ?_⟩
      rcases last with rfl | ⟨u, mem, rfl⟩
      · exact ⟨t, by simp, rfl⟩
      · exact ⟨u, by simp [mem], rfl⟩

theorem readOpaque (m : Moved source source' n all rest rest') {us : List Token}
    (part : us <:+ all) :
    Agrees n rest rest' id (Declaration.readOpaque source (us ++ rest))
      (Declaration.readOpaque source' (us.map (·.later n) ++ rest')) := by
  intro text ts h
  obtain ⟨⟨found, left⟩, read, eq⟩ := bind_eq_ok.1 h
  cases found with
  | none => cases eq
  | some t =>
    obtain ⟨rfl, rfl⟩ := Prod.mk.inj (Except.ok.inj eq)
    obtain ⟨moved, last⟩ := m.toDelimiter read
    obtain ⟨u, mem, same⟩ := last.resolve_left (by simp)
    cases same
    cases us with
    | nil => cases mem
    | cons f us =>
      have text := m.slices f (part.subset (by simp)) t (part.subset mem)
      rw [Declaration.readOpaque]
      refine bind_eq_ok.2 ⟨_, moved, ?_⟩
      exact congrArg (fun text => Except.ok (text, _)) text

theorem closer? (m : Moved source source' n all rest rest') {depth : Nat} {us ts : List Token}
    {t : Token} (h : Declaration.closer? depth (us ++ rest) = some (t, ts ++ rest)) :
    Declaration.closer? depth (us.map (·.later n) ++ rest') =
      some (t.later n, ts.map (·.later n) ++ rest') := by
  induction us generalizing depth with
  | nil =>
    obtain ⟨b, c, more, rfl, closes⟩ := m.exists_cons
    rw [List.nil_append, Declaration.closer?, closes] at h
    dsimp only at h
    split at h
    · have eq : more = ts ++ c :: more := (Prod.mk.inj (Option.some.inj h)).2
      exact absurd (eq ▸ List.suffix_refl more) (m.not_suffix ts)
    · exact absurd (suffix_of_closer? h) (m.not_suffix ts)
  | cons u us ih =>
    rw [List.cons_append] at h
    rw [List.map_cons, List.cons_append]
    by_cases last : depth = 1 ∧ ∃ b, u.kind = .closes b
    · rw [closer?_last last] at h
      rw [closer?_last (t := u.later n) last]
      obtain ⟨rfl, eq⟩ := Prod.mk.inj (Option.some.inj h)
      rw [List.append_cancel_right eq]
    · rw [closer?_step last] at h
      rw [closer?_step (t := u.later n) last]
      exact ih h

theorem findCloser (m : Moved source source' n all rest rest') (us : List Token) :
    Agrees n rest rest' (·.later n) (Declaration.findCloser source (us ++ rest))
      (Declaration.findCloser source' (us.map (·.later n) ++ rest')) := by
  intro t ts h
  rw [Declaration.findCloser] at h ⊢
  split at h
  · next found closer =>
    rw [Except.ok.inj h] at closer
    rw [m.closer? closer]
  · cases h

/-! ### Names -/

theorem namePath (m : Moved source source' n all rest rest') : ∀ (path : Text) (us : List Token),
    ∃ name ts, ts <:+ us ∧ Declaration.namePath path (us ++ rest) = (name, ts ++ rest) ∧
      Declaration.namePath path (us.map (·.later n) ++ rest') =
        (name, ts.map (·.later n) ++ rest')
  | path, [] =>
    ⟨path, [], List.suffix_refl _, namePath_stop path (m.ne (by simp)),
      namePath_stop path (m.ne' (by simp))⟩
  | path, [d] => by
    obtain ⟨b, c, more, rfl, closes⟩ := m.exists_cons
    obtain ⟨b', c', more', rfl, closes'⟩ := m.exists_cons'
    refine ⟨path, [d], List.suffix_refl _, ?_, ?_⟩
    · exact if_neg (by simp [closes])
    · exact if_neg (by simp [closes'])
  | path, d :: e :: us => by
    by_cases on : d.kind = .dot ∧ e.kind = .name
    · obtain ⟨name, ts, part, here, there⟩ := m.namePath (path ++ "." ++ e.value) us
      refine ⟨name, ts, ?_, (if_pos on).trans here, (if_pos on).trans there⟩
      exact (part.trans (List.suffix_cons e us)).trans (List.suffix_cons d _)
    · exact ⟨path, d :: e :: us, List.suffix_refl _, if_neg on, if_neg on⟩

theorem lastOfPath (m : Moved source source' n all rest rest') : ∀ us : List Token,
    Declaration.lastOfPath (us.map (·.later n) ++ rest') = Declaration.lastOfPath (us ++ rest)
  | [] => by
    rw [List.map_nil, List.nil_append, List.nil_append, lastOfPath_stop (m.ne' (by simp)),
      lastOfPath_stop (m.ne (by simp))]
  | [t] => by
    obtain ⟨b, c, more, rfl, closes⟩ := m.exists_cons
    obtain ⟨b', c', more', rfl, closes'⟩ := m.exists_cons'
    simp [Declaration.lastOfPath, closes, closes']
  | t :: d :: us => by
    simp only [List.map_cons, List.cons_append, Declaration.lastOfPath, m.lastOfPath us]
    rfl

theorem readName (m : Moved source source' n all rest rest') {t : Token} {us : List Token}
    (part : t :: us <:+ all) :
    Agrees n rest rest' id (Declaration.readName source (t :: us ++ rest))
      (Declaration.readName source' ((t :: us).map (·.later n) ++ rest')) := by
  obtain ⟨name, ts, left, here, there⟩ := m.namePath t.value us
  have same := m.kind_first ts
  have text := (m.readOpaque part).map (k := id) (p := Raw.text) (q := Raw.text) fun _ => rfl
  intro v vs h
  rw [Declaration.readName] at h ⊢
  have here' : Declaration.namePath (Token.first (t :: us ++ rest)).value (t :: us ++ rest).tail =
    _ := here
  have there' : Declaration.namePath (Token.first ((t :: us).map (·.later n) ++ rest')).value
    ((t :: us).map (·.later n) ++ rest').tail = _ := there
  rw [here'] at h
  rw [there']
  dsimp only at h ⊢
  rw [same]
  split at h
  · next delimiter =>
    rw [if_pos delimiter]
    exact Agrees.ok (f := id) ts v vs h
  · next other =>
    rw [if_neg other]
    exact text v vs h

theorem finish (m : Moved source source' n all rest rest') {start : List Token}
    (part : start <:+ all) (v : Raw) (us : List Token) :
    Agrees n rest rest' id (Declaration.finish source (start ++ rest) v (us ++ rest))
      (Declaration.finish source' (start.map (·.later n) ++ rest') v
        (us.map (·.later n) ++ rest')) := by
  have same := m.kind_first us
  have text := (m.readOpaque part).map (k := id) (p := Raw.text) (q := Raw.text) fun _ => rfl
  intro w ts h
  rw [Declaration.finish] at h ⊢
  dsimp only at h ⊢
  rw [same]
  split at h
  · next delimiter =>
    rw [if_pos delimiter]
    exact Agrees.ok (f := id) us w ts h
  next other =>
  rw [if_neg other]
  cases us with
  | nil =>
    obtain ⟨b, closes⟩ := m.closes
    rw [List.nil_append, closes] at other
    exact absurd rfl other
  | cons t us =>
    split at h
    · next assertion =>
      refine (if_pos assertion).trans ?_
      obtain ⟨⟨found, left⟩, read, eq⟩ := bind_eq_ok.1 h
      obtain ⟨rfl, rfl⟩ := Prod.mk.inj (Except.ok.inj eq)
      exact bind_eq_ok.2 ⟨_, (m.toDelimiter read).1, rfl⟩
    next other =>
    refine (if_neg other).trans ?_
    have same := m.kind_first us
    split at h
    · next mark =>
      refine (if_pos ⟨mark.1, ?_⟩).trans (Agrees.ok (f := id) us w ts h)
      exact (congrArg TokenKind.isDelimiter same).trans mark.2
    · next other =>
      refine (if_neg fun no => other ⟨no.1, ?_⟩).trans (text w ts h)
      exact (congrArg TokenKind.isDelimiter same).symm.trans no.2

end Moved

end Declaration

end SchemaTypings
