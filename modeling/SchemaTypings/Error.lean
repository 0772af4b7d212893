import SchemaTypings.Malformed

/-!
All ways in which an operation of the library fails.
-/

namespace SchemaTypings

/-- What befalls the device below a file that is open. -/
inductive StorageFault
  | inputOutput
  | fileTooLarge
  | noSpace
  | quotaExceeded
deriving DecidableEq, Repr

/-- What the file system refuses. -/
inductive SystemFault
  | notFound
  | exists
  | notADirectory
  | isADirectory
  | nameTooLong
  | storage (f : StorageFault)
deriving DecidableEq, Repr

/-- The number and the words of a fault of a device. -/
def StorageFault.described : StorageFault → Text
  | .inputOutput => "[Errno 5] Input/output error"
  | .fileTooLarge => "[Errno 27] File too large"
  | .noSpace => "[Errno 28] No space left on device"
  | .quotaExceeded => "[Errno 122] Disk quota exceeded"

/-- The number and the words of a fault. -/
def SystemFault.described : SystemFault → Text
  | .notFound => "[Errno 2] No such file or directory"
  | .exists => "[Errno 17] File exists"
  | .notADirectory => "[Errno 20] Not a directory"
  | .isADirectory => "[Errno 21] Is a directory"
  | .nameTooLong => "[Errno 36] File name too long"
  | .storage f => f.described

/-- A fault and the path that was asked for; a file that is open is not asked for by its path. -/
structure SystemError where
  fault : SystemFault
  path : Option Text
deriving DecidableEq, Repr

/-- The text of a system error. -/
def SystemError.message (e : SystemError) : Text :=
  match e.path with
  | some path => e.fault.described ++ ": " ++ path.shown
  | none => e.fault.described

/-- Why an operation fails. -/
inductive Error
  /-- A source has no tokens. -/
  | lexical (e : LexError)
  /-- A text has no value. -/
  | read (e : ReadError)
  /-- A code generator cannot work with its settings. -/
  | generation (message : Text)
  /-- Settings are invalid, or cannot be loaded or saved. -/
  | settings (message : Text)
  /-- A template cannot be rendered. -/
  | template (message : Text)
  /-- No generator can be made for a language. -/
  | catalog (message : Text)
  /-- A model file cannot be loaded. -/
  | source (message : Text)
  /-- There is no file or directory to start from. -/
  | missingSource (path : Text)
  /-- A directory holds no model files. -/
  | noModels (path : Text)
  /-- The file system refuses. -/
  | system (e : SystemError)
  /-- Bytes are no text. -/
  | undecodable
  /-- A text has no encoding. -/
  | unencodable
  /-- A path name holds U+0000, which ends one for the file system. -/
  | zeroInPath
  /-- A text would be longer than any can be. -/
  | tooLarge
  /-- A text does not fit into memory. -/
  | outOfMemory
  /-- A word is none of those that are allowed. -/
  | notAChoice
  /-- A value has a shape that an operation does not take. -/
  | wrongShape
  /-- A value lacks the part that an operation asks for. -/
  | missingPart
  /-- Console markup closes what is not open. -/
  | markup
deriving DecidableEq, Repr

/-- The text of an error, where it has one of its own. -/
def Error.message? : Error → Option Text
  | .lexical e => if e.cause = .escapeTooLarge then none else some e.cause.message
  | .read (.malformed m) => some m.described
  | .read _ => none
  | .generation m | .settings m | .template m | .catalog m | .source m => some m
  | .missingSource path => some ("Source not found: " ++ path)
  | .noModels path => some ("No model files found in " ++ path)
  | .system e => some e.message
  | .markup | .undecodable | .unencodable | .zeroInPath | .tooLarge | .outOfMemory | .notAChoice
  | .wrongShape | .missingPart => none

namespace Text

/-- The most code points that a text can have. -/
def longest : Nat := 0x7FFFFFFFFFFFFFFF

/-- `s` as often as `n` says. A memory of a limited size has room for texts up to a length only. -/
def repeated (memory : Option Nat) (s : Text) (n : Nat) : Except Error Text :=
  if memory.any (· < n * s.length) then
    .error (if longest < n * s.length then .tooLarge else .outOfMemory)
  else .ok (List.replicate n s).flatten

end Text

end SchemaTypings
