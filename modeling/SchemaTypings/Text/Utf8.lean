import SchemaTypings.Text.CodePoint

/-!
Texts as bytes in UTF-8, and the line ends of files. Decoding is strict: every code point has one
encoding, surrogates have none, and anything else is refused.
-/

namespace SchemaTypings

/-- A byte. -/
abbrev Byte := UInt8

namespace CodePoint

/-- The bytes of `c`; a surrogate has none. -/
def utf8? (c : CodePoint) : Option (List Byte) :=
  let n := c.val
  let tail := fun shift : Nat => UInt8.ofNat (0x80 + n / shift % 0x40)
  if n < 0x80 then some [UInt8.ofNat n]
  else if n < 0x800 then some [UInt8.ofNat (0xC0 + n / 0x40), tail 1]
  else if c.isSurrogate then none
  else if n < 0x10000 then some [UInt8.ofNat (0xE0 + n / 0x1000), tail 0x40, tail 1]
  else some [UInt8.ofNat (0xF0 + n / 0x40000), tail 0x1000, tail 0x40, tail 1]

end CodePoint

namespace Utf8

/-- The bytes of a text, unless it holds a surrogate. -/
def encode? (s : Text) : Option (List Byte) := (s.mapM CodePoint.utf8?).map List.flatten

/-- The six bits of a continuation byte. -/
def continuation? (b : Byte) : Option Nat :=
  if 0x80 ≤ b.toNat ∧ b.toNat < 0xC0 then some (b.toNat - 0x80) else none

/-- The code point of `bits`, which must be at least `least` and no surrogate. -/
def codePoint? (least bits : Nat) : Option CodePoint :=
  if bits < least then none else (CodePoint.ofNat? bits).filter (!·.isSurrogate)

/-- The text of bytes, if they are an encoding. -/
def decode? : List Byte → Option Text
  | [] => some []
  | b :: rest =>
    let n := b.toNat
    if n < 0x80 then do
      let c ← CodePoint.ofNat? n
      pure (c :: (← decode? rest))
    else if n < 0xC0 then none
    else if n < 0xE0 then
      match rest with
      | b1 :: rest => do
        let c ← codePoint? 0x80 ((n - 0xC0) * 0x40 + (← continuation? b1))
        pure (c :: (← decode? rest))
      | _ => none
    else if n < 0xF0 then
      match rest with
      | b1 :: b2 :: rest => do
        let c ← codePoint? 0x800
          ((n - 0xE0) * 0x1000 + (← continuation? b1) * 0x40 + (← continuation? b2))
        pure (c :: (← decode? rest))
      | _ => none
    else if n < 0xF8 then
      match rest with
      | b1 :: b2 :: b3 :: rest => do
        let c ← codePoint? 0x10000 ((n - 0xF0) * 0x40000 + (← continuation? b1) * 0x1000
          + (← continuation? b2) * 0x40 + (← continuation? b3))
        pure (c :: (← decode? rest))
      | _ => none
    else none

end Utf8

namespace Text

/-- `s` with every line end, of whatever style, as a line feed. -/
def unifyLineEnds : Text → Text
  | [] => []
  | c :: rest =>
    if c = '\r' then
      match rest with
      | [] => ['\n']
      | d :: more =>
        if d = '\n' then '\n' :: unifyLineEnds more else '\n' :: unifyLineEnds (d :: more)
    else c :: unifyLineEnds rest

/-- `s` with every line feed as `ending`. -/
def withLineEnds (s ending : Text) : Text :=
  s.flatMap fun c : CodePoint => if c = '\n' then ending else [c]

end Text

end SchemaTypings
