import SchemaTypings.Proofs.Locality

/-!
Tokens of a part of a source. Where a token starts, the source splits into a part in front of it,
which is read as the tokens before, and the rest; the part is read as the same tokens where the rest
is cut off, is another one, or stands at another offset.
-/

namespace SchemaTypings

/-! ### Places of tokens -/

/-- No token starts before the text does. -/
theorem pos_of_mem_lex {r : Bool} {p : Nat} {s : Text} {t : Token} (h : t ∈ (lex r p s).tokens) :
    p ≤ t.pos := by
  fun_induction lex r p s
  case case1 =>
    rw [List.mem_singleton.1 h]
    exact Nat.le_refl _
  case case2 => cases h
  case case3 ih => exact Nat.le_trans (Nat.le_add_right ..) (ih h)
  case case4 ih =>
    rcases List.mem_cons.1 h with rfl | h
    · exact Nat.le_refl _
    · exact Nat.le_trans (Nat.le_add_right ..) (ih h)

/-- Every token ends before the next one starts. -/
theorem pairwise_lex (r : Bool) (p : Nat) (s : Text) :
    (lex r p s).tokens.Pairwise fun t u => t.stop ≤ u.pos := by
  fun_induction lex r p s
  case case1 => exact List.pairwise_singleton _ _
  case case2 => exact List.Pairwise.nil
  case case3 ih => exact ih
  case case4 ih => exact List.pairwise_cons.2 ⟨fun u mem => pos_of_mem_lex mem, ih⟩

/-- Two tokens do not overlap. -/
theorem apart_of_mem_lex {r : Bool} {p : Nat} {s : Text} {t u : Token}
    (ht : t ∈ (lex r p s).tokens) (hu : u ∈ (lex r p s).tokens) :
    t = u ∨ t.stop ≤ u.pos ∨ u.stop ≤ t.pos := by
  have order := pairwise_lex r p s
  obtain ⟨before, behind, split⟩ := List.append_of_mem ht
  rw [split, List.pairwise_append, List.pairwise_cons] at order
  obtain ⟨-, ⟨later, -⟩, earlier⟩ := order
  rw [split] at hu
  rcases List.mem_append.1 hu with mem | mem
  · exact .inr (.inr (earlier u mem t (List.mem_cons_self ..)))
  · rcases List.mem_cons.1 mem with rfl | mem
    · exact .inl rfl
    · exact .inr (.inl (later u mem))

theorem pos_le_stop_of_mem_lex {r : Bool} {p : Nat} {s : Text} {t : Token}
    (h : t ∈ (lex r p s).tokens) : t.pos ≤ t.stop := by
  fun_induction lex r p s
  case case1 =>
    rw [List.mem_singleton.1 h]
    exact Nat.le_refl _
  case case2 => cases h
  case case3 ih => exact ih h
  case case4 ih =>
    rcases List.mem_cons.1 h with rfl | h
    · exact Nat.le_add_right ..
    · exact ih h

/-- Every token but the last one is a piece of the text. -/
theorem text_ne_nil_of_mem_lex {r : Bool} {p : Nat} {s : Text} {t : Token}
    (h : t ∈ (lex r p s).tokens) (eof : t.kind ≠ .eof) : s ≠ [] := by
  rintro rfl
  rw [lex_nil, List.mem_singleton] at h
  exact eof (h ▸ rfl)

/-! ### A part in front of a text -/

/-- In front of the text `x`, the text `s` is read as the tokens `ts`, given as they are at the start
of a source; a slash starts a regular expression there if `r` is true. -/
inductive LexesBefore (x : Text) : Bool → Text → List Token → Prop
  | nil (r : Bool) : LexesBefore x r [] []
  | skip {r : Bool} {c : CodePoint} {s : Text} {w : Nat} {ts : List Token}
      (read : Lexeme.read r c (s ++ x) = .ok (.skip w)) (inside : w ≤ s.length + 1)
      (rest : LexesBefore x r (s.drop (w - 1)) ts) : LexesBefore x r (c :: s) (ts.map (·.later w))
  | token {r : Bool} {c : CodePoint} {s : Text} {k : TokenKind} {v : Text} {w : Nat}
      {ts : List Token} (read : Lexeme.read r c (s ++ x) = .ok (.token k v w))
      (inside : w ≤ s.length + 1)
      (rest : LexesBefore x (Token.allowsRegex ⟨k, v, 0, w⟩) (s.drop (w - 1)) ts) :
      LexesBefore x r (c :: s) (⟨k, v, 0, w⟩ :: ts.map (·.later w))

namespace LexesBefore

variable {x y s s' : Text} {r : Bool} {ts ts' : List Token}

theorem slashAfter_cons (r : Bool) (t : Token) (ts : List Token) (n : Nat) :
    slashAfter r (t :: ts.map (·.later n)) = slashAfter t.allowsRegex ts :=
  slashAfter_append r [t] ts n

theorem slashAfter_later (r : Bool) (ts : List Token) (n : Nat) :
    slashAfter r (ts.map (·.later n)) = slashAfter r ts :=
  slashAfter_append r [] ts n

/-- Every lexeme of the part has a width. -/
theorem width_pos {c : CodePoint} {rest : Text} {l : Lexeme} {w : Nat}
    (read : Lexeme.read r c rest = .ok l) (h : l.width = w) : w - 1 + 1 = w := by
  have pos := Lexeme.width_pos read
  omega

/-- The part is read as its tokens wherever it stands in front of the text. -/
theorem lex_eq (h : LexesBefore x r s ts) (p : Nat) :
    lex r p (s ++ x) = (lex (slashAfter r ts) (p + s.length) x).behind (ts.map (·.later p)) := by
  induction h generalizing p with
  | nil r => rfl
  | @skip r c s w ts read inside _ ih =>
    have pos : w - 1 + 1 = w := width_pos read rfl
    have place : p + w + (s.drop (w - 1)).length = p + (c :: s).length := by
      rw [List.length_drop, List.length_cons]
      omega
    rw [List.cons_append, lex_skip read, List.drop_append_of_le_length (by omega), ih, place,
      slashAfter_later, Token.map_later_later, Nat.add_comm w]
  | @token r c s k v w ts read inside _ ih =>
    have pos : w - 1 + 1 = w := width_pos read rfl
    have place : p + w + (s.drop (w - 1)).length = p + (c :: s).length := by
      rw [List.length_drop, List.length_cons]
      omega
    have first : (⟨k, v, p, p + w⟩ : Token) = Token.later ⟨k, v, 0, w⟩ p := by
      simp [Token.later, Nat.add_comm]
    rw [List.cons_append, lex_token read, List.drop_append_of_le_length (by omega), first,
      Token.allowsRegex_later, ih, place, slashAfter_cons, Lexed.behind_behind, List.map_cons,
      Token.map_later_later, Nat.add_comm w, List.singleton_append]

/-- The tokens of the part are those in front of what is read behind it. -/
theorem eq_of_lex {us : List Token} (h : LexesBefore x r s ts)
    (read : lex r 0 (s ++ x) = (lex (slashAfter r ts) s.length x).behind us) : ts = us := by
  have here := h.lex_eq 0
  rw [read, Nat.zero_add, List.map_congr_left fun t _ => Token.later_zero t, List.map_id'] at here
  exact (List.append_cancel_right (congrArg Lexed.tokens here)).symm

/-- The part is read as the same tokens in front of another text that may replace the first. -/
theorem replace (h : LexesBefore x r s ts) (replaces : Text.Replaces x y) :
    LexesBefore y r s ts := by
  induction h with
  | nil r => exact .nil r
  | skip read inside _ ih => exact .skip (Lexeme.read_inside read inside replaces) inside ih
  | token read inside _ ih => exact .token (Lexeme.read_inside read inside replaces) inside ih

/-- Two parts in a row are read as the tokens of both. -/
theorem append (h : LexesBefore (s' ++ x) r s ts) (h' : LexesBefore x (slashAfter r ts) s' ts') :
    LexesBefore x r (s ++ s') (ts ++ ts'.map (·.later s.length)) := by
  induction h with
  | nil r => simpa using h'
  | @skip r c s w ts read inside _ ih =>
    have pos : w - 1 + 1 = w := width_pos read rfl
    rw [slashAfter_later] at h'
    have rest := ih h'
    rw [← List.drop_append_of_le_length (by omega)] at rest
    rw [← List.append_assoc] at read
    have all := LexesBefore.skip read (by rw [List.length_append]; omega) rest
    have place : (s.drop (w - 1)).length + w = s.length + 1 := by
      rw [List.length_drop]
      omega
    rw [List.map_append, Token.map_later_later, place] at all
    exact all
  | @token r c s k v w ts read inside _ ih =>
    have pos : w - 1 + 1 = w := width_pos read rfl
    rw [slashAfter_cons] at h'
    have rest := ih h'
    rw [← List.drop_append_of_le_length (by omega)] at rest
    rw [← List.append_assoc] at read
    have all := LexesBefore.token read (by rw [List.length_append]; omega) rest
    have place : (s.drop (w - 1)).length + w = s.length + 1 := by
      rw [List.length_drop]
      omega
    rw [List.map_append, Token.map_later_later, place] at all
    exact all

/-- One token is read in front of what is left behind it. -/
theorem single {c : CodePoint} {k : TokenKind} {v : Text} {w : Nat}
    (read : Lexeme.read r c (s ++ x) = .ok (.token k v w)) (whole : w = s.length + 1) :
    LexesBefore x r (c :: s) [⟨k, v, 0, w⟩] := by
  have rest : LexesBefore x (Token.allowsRegex ⟨k, v, 0, w⟩) (s.drop (w - 1)) [] := by
    rw [List.drop_eq_nil_of_le (by omega)]
    exact .nil _
  exact .token read (Nat.le_of_eq whole) rest

end LexesBefore

/-! ### Splitting a source at a token -/

/-- Where a token starts, the source splits into what is read as the tokens before it and what
starts with it. -/
theorem exists_before_of_lex {r : Bool} {p : Nat} {u : Text} {ts more : List Token} {t : Token}
    (h : (lex r p u).tokens = ts ++ t :: more) (eof : t.kind ≠ .eof) :
    ∃ s c rest us w, u = s ++ c :: rest ∧ t.pos = p + s.length ∧ ts = us.map (·.later p) ∧
      LexesBefore (c :: rest) r s us ∧
      Lexeme.read (slashAfter r us) c rest = .ok (.token t.kind t.value w) ∧ t.stop = t.pos + w ∧
      lex t.allowsRegex t.stop (rest.drop (w - 1)) = ⟨more, (lex r p u).error?⟩ := by
  -- A lexeme is a part of the text if a token stands behind it.
  have part {p w : Nat} {r : Bool} {rest : Text} {ts : List Token} (pos : w - 1 + 1 = w)
      (h : (lex r p (rest.drop (w - 1))).tokens = ts ++ t :: more) {s x : Text}
      (split : rest.drop (w - 1) = s ++ x) :
      ∃ a, rest = a ++ s ++ x ∧ (a ++ s).drop (w - 1) = s ∧ w ≤ (a ++ s).length + 1 ∧
        (a ++ s).length + 1 = w + s.length := by
    have mem : t ∈ (lex r p (rest.drop (w - 1))).tokens := by simp [h]
    have short := List.length_pos_iff.2 (text_ne_nil_of_mem_lex mem eof)
    rw [List.length_drop] at short
    have size : (rest.take (w - 1)).length = w - 1 := List.length_take_of_le (by omega)
    refine ⟨rest.take (w - 1), ?_, ?_, ?_, ?_⟩
    · rw [List.append_assoc, ← split, List.take_append_drop]
    · exact List.drop_left' size
    · rw [List.length_append]
      omega
    · rw [List.length_append]
      omega
  fun_induction lex r p u generalizing ts
  case case1 p =>
    have mem : t ∈ [Token.eof p] := by
      rw [show [Token.eof p] = _ from h]
      simp
    exact absurd (List.mem_singleton.1 mem ▸ rfl) eof
  case case2 => simp at h
  case case3 r p c rest w read ih =>
    have pos : w - 1 + 1 = w := LexesBefore.width_pos read rfl
    obtain ⟨s, d, x, us, v, split, place, tokens, front, first, stop, behind⟩ := ih h
    obtain ⟨a, rfl, tail, inside, size⟩ := part pos h split
    refine ⟨c :: (a ++ s), d, x, us.map (·.later w), v, rfl, ?_, ?_, ?_, ?_, stop, behind⟩
    · rw [place, List.length_cons]
      omega
    · rw [tokens, Token.map_later_later, Nat.add_comm w]
    · exact .skip read inside (tail.symm ▸ front)
    · rw [LexesBefore.slashAfter_later]
      exact first
  case case4 r p c rest k v w read token after ih =>
    have pos : w - 1 + 1 = w := LexesBefore.width_pos read rfl
    cases ts with
    | nil =>
      obtain ⟨rfl, rfl⟩ := List.cons.inj h
      exact ⟨[], c, rest, [], w, rfl, rfl, rfl, .nil r, read, rfl, rfl⟩
    | cons u ts =>
      obtain ⟨rfl, others⟩ := List.cons.inj h
      obtain ⟨s, d, x, us, v, split, place, tokens, front, first, stop, behind⟩ := ih others
      obtain ⟨a, rfl, tail, inside, size⟩ := part pos others split
      refine ⟨c :: (a ++ s), d, x, _ :: us.map (·.later w), v, rfl, ?_, ?_,
        .token read inside (tail.symm ▸ front), ?_, stop, behind⟩
      · rw [place, List.length_cons]
        omega
      · rw [tokens, List.map_cons, Token.map_later_later, Nat.add_comm w]
        simp [token, Token.later, Nat.add_comm]
      · rw [LexesBefore.slashAfter_cons]
        exact first

/-- A bracket is one code point wide. -/
theorem Lexeme.mark_of_read {r : Bool} {c : CodePoint} {rest v : Text} {k : TokenKind} {b : Bracket}
    {w : Nat} (h : Lexeme.read r c rest = .ok (.token k v w)) (bracket : k = .opens b ∨ k = .closes b) :
    Lexeme.mark? c = some k ∧ w = 1 := by
  have h := Lexeme.plain_of_read h (by rcases bracket with rfl | rfl <;> simp)
  unfold Lexeme.plain at h
  dsimp only at h
  split at h
  · cases h
    rcases bracket with no | no <;> cases no
  split at h
  · cases h
    rcases bracket with no | no <;> cases no
  split at h
  · next mark =>
    cases h
    exact ⟨mark, rfl⟩
  split at h
  · cases h
    rcases bracket with no | no <;> cases no
  · injection h with kind
    split at kind <;> subst kind <;> rcases bracket with no | no <;> cases no

/-- What is lexed moves with the text. -/
theorem lex_later (r : Bool) (p n : Nat) (s : Text) :
    lex r (p + n) s =
      ⟨(lex r p s).tokens.map (·.later n), (lex r p s).error?.map (·.later n)⟩ := by
  fun_induction lex r p s
  case case1 p => rw [lex_nil]; rfl
  case case2 p c rest e read =>
    rw [lex_error read]
    simp [LexError.later, Nat.add_assoc]
  case case3 r p c rest w read ih => rw [lex_skip read, Nat.add_right_comm, ih]
  case case4 r p c rest k v w read token more ih =>
    rw [lex_token read, Nat.add_right_comm]
    simp only [Token.allowsRegex] at ih ⊢
    rw [ih]
    simp [Lexed.behind, token, more, Token.later, Nat.add_right_comm, Token.allowsRegex]

/-! ### Up to a closing brace -/

/-- The closing brace at the offset `p`. -/
def Token.brace (p : Nat) : Token := ⟨.closes .curly, ['\x7d'], p, p + 1⟩

theorem lex_brace (r : Bool) (p : Nat) (x : Text) :
    lex r p (('\x7d' : CodePoint) :: x) = (lex false (p + 1) x).behind [Token.brace p] := by
  rw [lex_token (Lexeme.read_mark (c := '\x7d') rfl r x)]
  rfl

/-- The tokens up to a brace that is a token by itself are the same wherever the text stands and
whatever follows the brace. -/
theorem lex_closed {r : Bool} {p : Nat} {s x : Text} {ts more : List Token}
    (h : (lex r p (s.closed x)).tokens = ts ++ Token.brace (p + s.length) :: more)
    (hx : 2 ≤ x.length) (n : Nat) (y : Text) :
    lex r (p + n) (s.closed y) = (lex false (p + n + s.length + 1) y).behind
      ((ts ++ [Token.brace (p + s.length)]).map (·.later n)) := by
  obtain ⟨s', c, x', us, -, split, place, rfl, front, -⟩ := exists_before_of_lex h nofun
  have size : s.length = s'.length := Nat.add_left_cancel place
  obtain ⟨rfl, rest⟩ := List.append_inj split size
  obtain ⟨rfl, rfl⟩ := List.cons.inj rest
  have read := (front.replace (.closed hx y)).lex_eq (p + n)
  rw [Text.closed, read, lex_brace, Lexed.behind_behind, List.map_append, Token.map_later_later]
  simp [Token.brace, Token.later, Nat.add_right_comm]

end SchemaTypings
