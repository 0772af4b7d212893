/-!
Texts are lists of code points. Surrogates count as code points, because an escape inside a string
may denote a single one of them; every other text in the library comes from a `String`.
-/

namespace SchemaTypings

/-- A Unicode code point, surrogates included. -/
structure CodePoint where
  val : Nat
  val_lt : val < 0x110000
deriving DecidableEq, Repr

namespace CodePoint

/-- The code point of a character. -/
def ofChar (c : Char) : CodePoint :=
  ⟨c.toNat, by
    rcases c.valid with h | ⟨_, h⟩
    · exact Nat.lt_trans h (by decide)
    · exact h⟩

instance : Coe Char CodePoint := ⟨ofChar⟩

instance : Inhabited CodePoint := ⟨'?'⟩

/-- The code point of a number, if there is one. -/
def ofNat? (n : Nat) : Option CodePoint :=
  if h : n < 0x110000 then some ⟨n, h⟩ else none

/-- Half of a surrogate pair, which no encoded text holds on its own. -/
def isSurrogate (c : CodePoint) : Bool := 0xD800 ≤ c.val && c.val ≤ 0xDFFF

/-- The character of a code point; a surrogate is none. -/
def toChar? (c : CodePoint) : Option Char :=
  if c.isSurrogate then none else some (Char.ofNat c.val)

/-- Whether `c` lies between two characters, both included. -/
def isBetween (c : CodePoint) (low high : Char) : Bool :=
  low.toNat ≤ c.val && c.val ≤ high.toNat

def isAsciiLower (c : CodePoint) : Bool := c.isBetween 'a' 'z'

def isAsciiUpper (c : CodePoint) : Bool := c.isBetween 'A' 'Z'

def isAsciiDigit (c : CodePoint) : Bool := c.isBetween '0' '9'

def isAsciiLetter (c : CodePoint) : Bool := c.isAsciiLower || c.isAsciiUpper

@[simp] theorem val_ofChar (c : Char) : (ofChar c).val = c.toNat := rfl

theorem ext_val {c d : CodePoint} (h : c.val = d.val) : c = d := by
  cases c; cases d; cases h; rfl

@[simp] theorem ofChar_inj {c d : Char} : ofChar c = ofChar d ↔ c = d :=
  ⟨fun h => Char.toNat_inj.1 (congrArg val h), congrArg ofChar⟩

end CodePoint

/-- A text is a list of code points. -/
abbrev Text := List CodePoint

namespace Text

/-- The text of a string. -/
def ofString (s : String) : Text := s.toList.map CodePoint.ofChar

instance : Coe String Text := ⟨ofString⟩

/-- The string of a text, without surrogates. -/
def toString (s : Text) : String := String.ofList (s.filterMap CodePoint.toChar?)

/-- The decimal digits of a natural number. -/
def ofNat (n : Nat) : Text := (Nat.toDigits 10 n).map CodePoint.ofChar

/-- The decimal digits of an integer, after a minus sign if it is negative. They have no limit here,
while a runtime may refuse to write more than 4300. -/
def ofInt : Int → Text
  | .ofNat n => ofNat n
  | .negSucc n => '-' :: ofNat (n + 1)

/-- Whether `s` holds a surrogate, so that it has no encoding. -/
def hasSurrogate (s : Text) : Bool := s.any CodePoint.isSurrogate

/-- The offset of the first occurrence of `part` in `s`. -/
def find? (part : Text) : Text → Option Nat
  | [] => if part.isEmpty then some 0 else none
  | c :: rest => if part.isPrefixOf (c :: rest) then some 0 else (find? part rest).map (· + 1)

/-- The pieces of `s` between the code points of `p`: one piece more than there are of them. -/
def splitWhere (p : CodePoint → Bool) : Text → List Text
  | [] => [[]]
  | c :: rest =>
    match splitWhere p rest with
    | [] => [[c]]
    | piece :: pieces => if p c then [] :: piece :: pieces else (c :: piece) :: pieces

/-- The pieces of `s` between the occurrences of `c`. -/
def splitOn (c : CodePoint) (s : Text) : List Text := splitWhere (· = c) s

/-- The lines of `s`; a text without a line feed is one line. -/
def lines (s : Text) : List Text := splitOn '\n' s

/-- The texts in order with `separator` between neighbours. -/
def join (separator : Text) (parts : List Text) : Text := List.intercalate separator parts

/-- `s` without the code points of `p` at its end. -/
def trimRight (p : CodePoint → Bool) (s : Text) : Text := (s.reverse.dropWhile p).reverse

/-- `s` without the code points of `p` at either end. -/
def trim (p : CodePoint → Bool) (s : Text) : Text := trimRight p (s.dropWhile p)

/-- `s` with every `old` replaced by `new`, from left to right without overlap. -/
def replace (old new : Text) (s : Text) : Text :=
  if h : old = [] then s else go old h new s
where
  go (old : Text) (h : old ≠ []) (new : Text) (s : Text) : Text :=
    match s with
    | [] => []
    | c :: rest =>
      if old.isPrefixOf (c :: rest) then new ++ go old h new ((c :: rest).drop old.length)
      else c :: go old h new rest
  termination_by s.length
  decreasing_by
    · have := List.length_pos_iff.2 h
      simp only [List.length_drop, List.length_cons]
      omega
    · simp

/-- `s` with the code point `old` replaced by `new` everywhere. -/
def replaceOne (old new : CodePoint) (s : Text) : Text := s.map fun c => if c = old then new else c

/-- `n` times `c`. -/
def times (n : Nat) (c : CodePoint) : Text := List.replicate n c

/-- Whether `s` ends in `tail`. -/
def endsWith (s tail : Text) : Bool := tail.isSuffixOf s

/-- The width of the run at the start of a text: a code point of `first` and those of `more` behind
it; zero if it starts with none. -/
def runWidth (first more : CodePoint → Bool) : Text → Nat
  | [] => 0
  | c :: rest => if first c then 1 + (rest.takeWhile more).length else 0

/-- Whether `s` starts with `head`. -/
def startsWith (s head : Text) : Bool := head.isPrefixOf s

/-- The order of texts by their first different code point; a proper beginning comes first. -/
def le : Text → Text → Bool
  | [], _ => true
  | _ :: _, [] => false
  | c :: s, d :: t => c.val < d.val || (c = d && le s t)

theorem toChar?_ofChar (c : Char) : (CodePoint.ofChar c).toChar? = some c := by
  have h : (CodePoint.ofChar c).isSurrogate = false := by
    have hc : c.toNat < 0xD800 ∨ 0xDFFF < c.toNat ∧ c.toNat < 0x110000 := c.valid
    simp only [CodePoint.isSurrogate, CodePoint.val_ofChar]
    rcases hc with hc | hc
    · have : ¬0xD800 ≤ c.toNat := by omega
      simp [this]
    · have : ¬c.toNat ≤ 0xDFFF := by omega
      simp [this]
  simp [CodePoint.toChar?, h]

@[simp] theorem toString_ofString (s : String) : toString (ofString s) = s := by
  have back : CodePoint.toChar? ∘ CodePoint.ofChar = some := funext toChar?_ofChar
  rw [toString, ofString, List.filterMap_map, back, List.filterMap_some, String.ofList_toList]

@[simp] theorem ofString_empty : ofString "" = [] := by simp [ofString]

/-- The text of a string that is given by its characters, as a literal is. Evaluation of a long
literal is quick in this form only. -/
theorem ofString_ofList (cs : List Char) :
    ofString (String.ofList cs) = cs.map CodePoint.ofChar := by
  rw [ofString, String.toList_ofList]

theorem splitWhere_ne_nil (p : CodePoint → Bool) (s : Text) : splitWhere p s ≠ [] := by
  cases s with
  | nil => simp [splitWhere]
  | cons c rest => simp only [splitWhere]; split <;> (try split) <;> simp

@[simp] theorem length_replaceOne (old new : CodePoint) (s : Text) :
    (replaceOne old new s).length = s.length := by simp [replaceOne]

end Text

end SchemaTypings
