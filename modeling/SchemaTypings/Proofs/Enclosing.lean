import SchemaTypings.Proofs.Balancing
import SchemaTypings.Proofs.Rendering

/-!
What stands inside something in code. A reader of code knows at each code point whether it is in a
string or a comment, and how many brackets are open there. A text is enclosed if it closes all that
it opens and nothing else; then all of it stands inside wherever brackets stand around it.
-/

namespace SchemaTypings

/-! ### A reader of code -/

/-- Where in code one is, but for brackets. -/
inductive Zone
  | code
  /-- Behind a slash, which may start a comment. -/
  | slash
  /-- Behind an equals sign, with which an angle bracket is an arrow. -/
  | equals
  | string (quote : CodePoint)
  /-- Behind a backslash in a string. -/
  | stroke (quote : CodePoint)
  | line
  | block
  /-- Behind a star in a block comment, which may end it. -/
  | star
deriving DecidableEq

namespace CodePoint

def isQuote (c : CodePoint) : Bool := List.contains ("\"\x27\x60" : Text) c

def opensBracket (c : CodePoint) : Bool := List.contains ("([\x7b<" : Text) c

def closesBracket (c : CodePoint) : Bool := List.contains (")]\x7d>" : Text) c

end CodePoint

namespace Zone

/-- Whether one is neither in a string nor in a comment. -/
def isCode : Zone → Bool
  | .code | .slash | .equals => true
  | _ => false

/-- The zone behind a code point of code. -/
def behind (c : CodePoint) : Zone :=
  if c.isQuote then .string c
  else if c = '/' then .slash
  else if c = '=' then .equals
  else .code

def next : Zone → CodePoint → Zone
  | .code, c | .equals, c => behind c
  | .slash, c => if c = '/' then .line else if c = '*' then .block else behind c
  | .string quote, c =>
    if c = '\\' then .stroke quote else if c = quote then .code else .string quote
  | .stroke quote, _ => .string quote
  | .line, c => if c = '\n' then .code else .line
  | .block, c => if c = '*' then .star else .block
  | .star, c => if c = '/' then .code else if c = '*' then .star else .block

end Zone

/-- Where in code one is, and how many brackets are open there. -/
structure Spot where
  zone : Zone
  depth : Nat
deriving DecidableEq

namespace Spot

/-- The spot behind `c`. Only brackets in code count, of which the end of an arrow is none. -/
def next (s : Spot) (c : CodePoint) : Spot where
  zone := s.zone.next c
  depth :=
    if !s.zone.isCode then s.depth
    else if c.opensBracket then s.depth + 1
    else if c.closesBracket && !(s.zone = .equals && c = '>') then s.depth - 1
    else s.depth

/-- Whether what stands there is outside strings, comments and brackets. -/
def isOutside (s : Spot) : Bool := s.zone.isCode && s.depth = 0

/-- The code points of a text, but for those in strings, comments and brackets. -/
def outer : Spot → Text → List (Option CodePoint)
  | _, [] => []
  | s, c :: rest => (if s.isOutside then some c else none) :: outer (s.next c) rest

/-- The spot behind a text, unless some of it stands outside. -/
def inside? : Spot → Text → Option Spot
  | s, [] => some s
  | s, c :: rest => if s.isOutside then none else inside? (s.next c) rest

/-- The spot with `n` more brackets around it. -/
def deeper (n : Nat) (s : Spot) : Spot := ⟨s.zone, s.depth + n⟩

variable {s s' : Spot} {t t' : Text}

theorem outer_append (s : Spot) (t t' : Text) :
    outer s (t ++ t') = outer s t ++ outer (t.foldl next s) t' := by
  induction t generalizing s with
  | nil => rfl
  | cons c t ih => rw [List.cons_append, outer, outer, ih, List.cons_append, List.foldl_cons]

theorem inside?_append (s : Spot) (t t' : Text) :
    inside? s (t ++ t') = (inside? s t).bind fun s => inside? s t' := by
  induction t generalizing s with
  | nil => rfl
  | cons c t ih =>
    rw [List.cons_append, inside?, inside?]
    split
    · rfl
    · exact ih _

theorem inside?_cons (h : s.isOutside = false) (c : CodePoint) (t : Text) :
    inside? s (c :: t) = inside? (s.next c) t := by
  rw [inside?, h]
  rfl

/-- Of what stands inside, nothing is outside. -/
theorem outer_of_inside? (h : inside? s t = some s') : ∀ o ∈ outer s t, o = none := by
  induction t generalizing s with
  | nil => simp [outer]
  | cons c t ih =>
    rw [inside?] at h
    split at h
    · cases h
    · next inside =>
      rw [outer, if_neg inside]
      exact List.forall_mem_cons.2 ⟨rfl, ih h⟩

theorem next_deeper (n : Nat) (h : s.isOutside = false) (c : CodePoint) :
    (s.deeper n).next c = (s.next c).deeper n := by
  obtain ⟨zone, depth⟩ := s
  have some : zone.isCode = true → depth ≠ 0 := by
    intro code
    simpa [isOutside, code] using h
  simp only [deeper, next, mk.injEq, true_and]
  grind

/-- What stands inside does so with more brackets around it. -/
theorem inside?_deeper (n : Nat) (h : inside? s t = some s') :
    inside? (s.deeper n) t = some (s'.deeper n) := by
  induction t generalizing s with
  | nil =>
    cases h
    rfl
  | cons c t ih =>
    rw [inside?] at h
    split at h
    · cases h
    · next inside =>
      rw [Bool.not_eq_true] at inside
      have inside' : (s.deeper n).isOutside = false := by
        simp only [isOutside, deeper] at inside ⊢
        grind
      rw [inside?_cons inside', next_deeper n inside, ih h]

end Spot

/-! ### Enclosed texts -/

namespace Text

/-- Whether the text, inside a bracket, stays inside and ends in code behind the same bracket. -/
def isEnclosed (t : Text) : Bool :=
  (Spot.inside? ⟨.code, 1⟩ t).any fun s => s.zone.isCode && s.depth = 1

/-- Wherever brackets stand around the text, all of it stands inside. -/
def StaysInside (t : Text) : Prop :=
  ∀ n, ∃ zone : Zone, zone.isCode = true ∧
    Spot.inside? ⟨.code, n + 1⟩ t = some ⟨zone, n + 1⟩

theorem staysInside_of_isEnclosed {t : Text} (h : t.isEnclosed = true) : t.StaysInside := by
  intro n
  obtain ⟨⟨zone, depth⟩, inside, code⟩ := (Option.any_eq_true _ _).1 h
  rw [Bool.and_eq_true, decide_eq_true_eq] at code
  refine ⟨zone, code.1, ?_⟩
  have deeper := Spot.inside?_deeper n inside
  rw [Spot.deeper, Spot.deeper, show depth = 1 from code.2, Nat.add_comm] at deeper
  exact deeper

namespace StaysInside

variable {s t : Text}

theorem nil : StaysInside [] := fun _ => ⟨.code, rfl, rfl⟩

/-- Behind code, most code points are read in the same way. -/
theorem next_of_isCode {c : CodePoint} (fresh : c ∉ ofString "/*>") {zone : Zone}
    (code : zone.isCode = true) (n : Nat) :
    Spot.next ⟨zone, n⟩ c = Spot.next ⟨.code, n⟩ c := by
  have other : c ≠ '/' ∧ c ≠ '*' ∧ c ≠ '>' := by simpa [ofString] using fresh
  cases zone with
  | code => rfl
  | slash | equals => simp [Spot.next, Zone.next, Zone.isCode, other]
  | _ => cases code

theorem append (hs : s.StaysInside) (ht : t.StaysInside)
    (fresh : ∀ c ∈ t.head?, c ∉ ofString "/*>") : StaysInside (s ++ t) := by
  intro n
  obtain ⟨zone, code, inside⟩ := hs n
  rw [Spot.inside?_append, inside, Option.bind_some]
  cases t with
  | nil => exact ⟨zone, code, rfl⟩
  | cons c t =>
    have here (zone : Zone) : Spot.isOutside ⟨zone, n + 1⟩ = false := by simp [Spot.isOutside]
    obtain ⟨last, code', inside'⟩ := ht n
    rw [Spot.inside?_cons (here _)] at inside'
    refine ⟨last, code', ?_⟩
    rw [Spot.inside?_cons (here _), next_of_isCode (fresh c rfl) code, inside']

/-- A bracket behind a text that stays inside closes the one in front of it. -/
theorem inside?_close (h : t.StaysInside) {c : CodePoint} (closes : c ∈ ofString ")]\x7d")
    (n : Nat) : Spot.inside? ⟨.code, n + 1⟩ (t ++ [c]) = some ⟨.code, n⟩ := by
  have mark : ∀ c ∈ ofString ")]\x7d", c ∉ ofString "/*>" ∧ Zone.behind c = .code ∧
      c.opensBracket = false ∧ (c.closesBracket && c ≠ '>') = true := by decide
  obtain ⟨fresh, behind, opens, close⟩ := mark c closes
  obtain ⟨zone, code, inside⟩ := h n
  have here : Spot.isOutside ⟨zone, n + 1⟩ = false := by simp [Spot.isOutside]
  rw [Bool.and_eq_true] at close
  rw [Spot.inside?_append, inside, Option.bind_some, Spot.inside?_cons here,
    next_of_isCode fresh code]
  simp [Spot.inside?, Spot.next, Zone.next, Zone.isCode, behind, opens, close.1]

theorem next_open {o : CodePoint} (opens : o ∈ ofString "([\x7b") (n : Nat) :
    Spot.next ⟨.code, n⟩ o = ⟨.code, n + 1⟩ := by
  have mark : ∀ c ∈ ofString "([\x7b", Zone.behind c = .code ∧ c.opensBracket = true := by decide
  obtain ⟨behind, opens⟩ := mark o opens
  simp [Spot.next, Zone.next, Zone.isCode, behind, opens]

theorem bracketed (h : t.StaysInside) {o c : CodePoint} (opens : o ∈ ofString "([\x7b")
    (closes : c ∈ ofString ")]\x7d") : StaysInside (o :: (t ++ [c])) := by
  intro n
  have here : Spot.isOutside ⟨.code, n + 1⟩ = false := by simp [Spot.isOutside]
  refine ⟨.code, rfl, ?_⟩
  rw [Spot.inside?_cons here, next_open opens, h.inside?_close closes]

end StaysInside

/-! ### Plain texts, strings and comments -/

end Text

/-- Whether `c` neither is a bracket nor can start a string, a comment or an arrow. -/
def CodePoint.isInert (c : CodePoint) : Bool :=
  !List.contains ("\"\x27\x60/=()[]\x7b\x7d<>" : Text) c

namespace Text

theorem inside?_of_isInert {s : Text} (h : s.all CodePoint.isInert = true) (n : Nat) :
    Spot.inside? ⟨.code, n + 1⟩ s = some ⟨.code, n + 1⟩ := by
  have step {c : CodePoint} (inert : c.isInert = true) :
      Spot.next ⟨.code, n + 1⟩ c = ⟨.code, n + 1⟩ := by
    have other : ∀ d ∈ ofString "\"\x27\x60/=()[]\x7b\x7d<>", c ≠ d := by
      rintro d hd rfl
      rw [CodePoint.isInert, List.contains_iff_mem.2 hd] at inert
      cases inert
    simp [ofString] at other
    simp [Spot.next, Zone.next, Zone.isCode, Zone.behind, CodePoint.isQuote, CodePoint.opensBracket,
      CodePoint.closesBracket, ofString, other]
  induction s with
  | nil => rfl
  | cons c s ih =>
    rw [List.all_cons, Bool.and_eq_true] at h
    have here : Spot.isOutside ⟨.code, n + 1⟩ = false := by simp [Spot.isOutside]
    rw [Spot.inside?_cons here, step h.1, ih h.2]

namespace StaysInside

variable {s t : Text}

theorem of_isInert (h : s.all CodePoint.isInert = true) : s.StaysInside :=
  fun n => ⟨.code, rfl, inside?_of_isInert h n⟩

/-- Behind an inert text code is read as at its start. -/
theorem behind (h : s.all CodePoint.isInert = true) (ht : t.StaysInside) :
    StaysInside (s ++ t) := by
  intro n
  obtain ⟨zone, code, inside⟩ := ht n
  refine ⟨zone, code, ?_⟩
  rw [Spot.inside?_append, inside?_of_isInert h, Option.bind_some, inside]

/-- A text behind another with a gap between them. -/
theorem apart (hs : s.StaysInside) {gap : Text} (inert : gap.all CodePoint.isInert = true)
    (space : gap.head? = some (' ' : CodePoint)) (ht : t.StaysInside) :
    StaysInside (s ++ (gap ++ t)) := by
  refine hs.append (behind inert ht) ?_
  obtain ⟨rest, rfl⟩ := List.head?_eq_some_iff.1 space
  rintro c ⟨⟩
  decide

theorem join {gap : Text} (inert : gap.all CodePoint.isInert = true)
    (space : gap.head? = some (' ' : CodePoint)) {texts : List Text}
    (all : ∀ s ∈ texts, StaysInside s) : StaysInside (Text.join gap texts) := by
  induction texts with
  | nil => exact nil
  | cons s rest ih =>
    rw [List.forall_mem_cons] at all
    cases rest with
    | nil =>
      rw [join_singleton]
      exact all.1
    | cons t rest =>
      rw [join_cons_cons]
      exact all.1.apart inert space (ih all.2)

end StaysInside

theorem inside?_string {s : Text} (h : ∀ c ∈ s, c ≠ '"' ∧ c ≠ '\\') (n : Nat) (rest : Text) :
    Spot.inside? ⟨.string '"', n⟩ (s ++ rest) = Spot.inside? ⟨.string '"', n⟩ rest := by
  induction s with
  | nil => rfl
  | cons c s ih =>
    rw [List.forall_mem_cons] at h
    rw [List.cons_append, Spot.inside?_cons rfl, ← ih h.2]
    simp [Spot.next, Zone.next, Zone.isCode, h.1.1, h.1.2]

theorem inside?_inDoubleQuotes (c : CodePoint) (n : Nat) (rest : Text) :
    Spot.inside? ⟨.string '"', n⟩ (c.inDoubleQuotes ++ rest) =
      Spot.inside? ⟨.string '"', n⟩ rest := by
  have stroke (d : CodePoint) (rest : Text) :
      Spot.inside? ⟨.string '"', n⟩ (('\\' : CodePoint) :: d :: rest) =
        Spot.inside? ⟨.string '"', n⟩ rest := rfl
  rcases c.inDoubleQuotes_shape with ⟨d, tail, eq, plain⟩ | plain
  · rw [eq, List.cons_append, List.cons_append, stroke, inside?_string plain]
  · exact inside?_string plain n rest

/-- Behind its opening quote all of a quoted text is in a string, at any depth. -/
theorem inside?_quoted (s : Text) (n : Nat) :
    Spot.inside? ⟨.string '"', n⟩ (s.flatMap CodePoint.inDoubleQuotes ++ [('"' : CodePoint)]) =
      some ⟨.code, n⟩ := by
  induction s with
  | nil => rfl
  | cons c s ih => rw [List.flatMap_cons, List.append_assoc, inside?_inDoubleQuotes, ih]

theorem quoted_eq (s : Text) : s.quoted =
    ('"' : CodePoint) :: (s.flatMap CodePoint.inDoubleQuotes ++ [('"' : CodePoint)]) := rfl

theorem StaysInside.quoted (s : Text) : StaysInside s.quoted := by
  intro n
  have here : Spot.isOutside ⟨.code, n + 1⟩ = false := by simp [Spot.isOutside]
  refine ⟨.code, rfl, ?_⟩
  rw [quoted_eq, Spot.inside?_cons here]
  exact inside?_quoted s (n + 1)

/-- A text without an end of a comment, and an end behind it. -/
theorem inside?_block {s : Text} (h : s.KeepsOpen) (n : Nat) :
    Spot.inside? ⟨.block, n⟩ (s ++ " */") = some ⟨.code, n⟩ := by
  have all : ∀ zone, zone = Zone.block ∨ zone = .star ∧ s.head? ≠ some ('/' : CodePoint) →
      Spot.inside? ⟨zone, n⟩ (s ++ " */") = some ⟨.code, n⟩ := by
    induction s with
    | nil => rintro zone (rfl | ⟨rfl, -⟩) <;> rfl
    | cons c s ih =>
      have behind : c = '*' → s.head? ≠ some ('/' : CodePoint) := by
        rintro rfl slash
        obtain ⟨rest, rfl⟩ := List.head?_eq_some_iff.1 slash
        exact h ⟨[], rest, rfl⟩
      intro zone open'
      have here : Spot.isOutside ⟨zone, n⟩ = false := by
        rcases open' with rfl | ⟨rfl, -⟩ <;> rfl
      have next : Spot.next ⟨zone, n⟩ c = ⟨if c = '*' then .star else .block, n⟩ := by
        rcases open' with rfl | ⟨rfl, other⟩
        · rfl
        · have other : c ≠ '/' := by simpa using other
          simp [Spot.next, Zone.next, Zone.isCode, other]
      rw [List.cons_append, Spot.inside?_cons here, next]
      refine ih h.tail _ ?_
      split
      · next star => exact .inr ⟨rfl, behind star⟩
      · exact .inl rfl
  exact all .block (.inl rfl)

/-- The comment of what did not resolve stays inside, behind a text that does. -/
theorem StaysInside.commented {s t : Text} (hs : s.StaysInside) (ht : t.KeepsOpen) :
    StaysInside (s ++ " /* unresolved: " ++ t ++ " */") := by
  intro n
  obtain ⟨zone, code, inside⟩ := hs n
  have opened : Spot.inside? ⟨zone, n + 1⟩ (" /* unresolved: " : Text) =
      some ⟨.block, n + 1⟩ := by
    cases zone with
    | code | slash | equals => rfl
    | _ => cases code
  refine ⟨.code, rfl, ?_⟩
  rw [List.append_assoc, Spot.inside?_append, Spot.inside?_append, inside, Option.bind_some, opened,
    Option.bind_some, inside?_block ht]

/-! ### Bars -/

/-- A bar between two spaces stands outside the strings, comments and brackets of the text. -/
def HasBar (t : Text) : Prop :=
  [some (' ' : CodePoint), some ('|' : CodePoint), some (' ' : CodePoint)] <:+:
    Spot.outer ⟨.code, 0⟩ t

instance (t : Text) : Decidable (HasBar t) := inferInstanceAs (Decidable (_ <:+: _))

theorem mem_of_mem_outer {s : Spot} {t : Text} {c : CodePoint} (h : some c ∈ Spot.outer s t) :
    c ∈ t := by
  induction t generalizing s with
  | nil => cases h
  | cons d t ih =>
    rw [Spot.outer, List.mem_cons] at h
    rcases h with h | h
    · split at h <;> cases h
      exact List.mem_cons_self
    · exact List.mem_cons_of_mem _ (ih h)

theorem not_hasBar {t : Text} (h : some (' ' : CodePoint) ∉ Spot.outer ⟨.code, 0⟩ t) :
    ¬t.HasBar :=
  fun bar => h (bar.subset List.mem_cons_self)

/-- What has no space has no part in a bar. -/
theorem hasBar_append {t rest : Text} (h : (' ' : CodePoint) ∉ rest) :
    HasBar (t ++ rest) ↔ t.HasBar := by
  rw [HasBar, Spot.outer_append]
  constructor
  · rintro ⟨before, behind, eq⟩
    rcases List.append_eq_append_iff.1 eq with ⟨tail, eq, -⟩ | ⟨tail, eq, eq'⟩
    · exact ⟨before, tail, eq.symm⟩
    · rcases List.eq_nil_or_concat tail with rfl | ⟨init, last, rfl⟩
      · exact ⟨before, [], by simpa using eq⟩
      · -- The last space would stand in the rest.
        have space : last = some (' ' : CodePoint) := by
          have ends := congrArg List.getLast? eq
          simpa using ends.symm
        refine absurd (mem_of_mem_outer (s := t.foldl Spot.next ⟨.code, 0⟩) ?_) h
        rw [eq', space]
        simp
  · exact fun bar => bar.trans (List.infix_append' [] _ _)

theorem not_hasBar_quoted (s : Text) : ¬HasBar s.quoted := by
  refine not_hasBar ?_
  have inside := Spot.outer_of_inside? (inside?_quoted s 0)
  rw [quoted_eq, Spot.outer, List.mem_cons, not_or]
  exact ⟨by decide, fun mem => by cases inside _ mem⟩

/-- Brackets hide the bars of what stays inside them. -/
theorem not_hasBar_bracketed {t : Text} (h : t.StaysInside) {o c : CodePoint}
    (opens : o ∈ ofString "([\x7b") (closes : c ∈ ofString ")]\x7d") :
    ¬HasBar (o :: (t ++ [c])) := by
  refine not_hasBar ?_
  have inside := Spot.outer_of_inside? (h.inside?_close closes 0)
  have mark : ∀ o ∈ ofString "([\x7b", o ≠ ' ' := by decide
  rw [Spot.outer, StaysInside.next_open opens, List.mem_cons, not_or]
  refine ⟨fun same => mark o opens ?_, fun mem => by cases inside _ mem⟩
  exact (Option.some.inj same).symm

end Text

end SchemaTypings
