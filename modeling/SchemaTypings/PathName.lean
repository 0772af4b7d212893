import SchemaTypings.Text.Case
import SchemaTypings.Text.Casing

/-!
Path names: an optional root and the parts between slashes, of which empty ones and single dots do
not count. The last part is the file name; the base name of a schema comes from it.
-/

namespace SchemaTypings

/-- A path name. -/
structure PathName where
  root : Text
  parts : List Text
deriving DecidableEq, Repr

namespace PathName

/-- The parts of a text between slashes, without empty ones and single dots. -/
def partsOf (s : Text) : List Text :=
  (s.splitOn '/').filter fun part => !(part.isEmpty || part = ".")

/-- The path name that a text spells. Exactly two slashes make a root of their own. -/
def ofText (s : Text) : PathName :=
  let slashes := s.takeWhile fun c : CodePoint => c = '/'
  let root : Text := if slashes.isEmpty then [] else if slashes.length = 2 then "//" else "/"
  ⟨root, partsOf s⟩

/-- The text of a path name; one without parts is a dot. -/
def toText (p : PathName) : Text :=
  if p.root.isEmpty && p.parts.isEmpty then "." else p.root ++ Text.join "/" p.parts

/-- The last part; empty if there is none. -/
def name (p : PathName) : Text := p.parts.getLastD []

/-- The path name without its last part. -/
def parent (p : PathName) : PathName := ⟨p.root, p.parts.dropLast⟩

/-- The path name of `part` below `p`. -/
def child (p : PathName) (part : Text) : PathName := ⟨p.root, p.parts ++ [part]⟩

/-- The last dot of a file name and what follows it, unless the dot starts or ends the name. -/
def suffixOf (name : Text) : Text :=
  let extension := (name.reverse.takeWhile fun c : CodePoint => c ≠ '.').reverse
  if extension.isEmpty || name.length ≤ extension.length + 1 then [] else '.' :: extension

/-- The suffix of the file name. -/
def suffix (p : PathName) : Text := suffixOf p.name

/-- The file name up to its first dot; all of it if it starts with one. -/
def schemaName (p : PathName) : Text :=
  let head := p.name.takeWhile fun c : CodePoint => c ≠ '.'
  if head.isEmpty then p.name else head

/-- The base name of the schema in a file: `blog-post.model.ts` gives `BlogPost`. -/
def baseName (p : PathName) : Text := p.schemaName.toPascalCase

/-- The file name up to its last dot. -/
def stem (p : PathName) : Text :=
  if p.name.contains ('.' : CodePoint) then
    ((p.name.reverse.dropWhile fun c : CodePoint => c ≠ '.').drop 1).reverse
  else p.name

/-- The suffixes of model files. -/
def modelSuffixes : List Text := [".js", ".ts", ".mjs", ".cjs"]

/-- Whether the file name is that of a model: a script that is not a declaration file. -/
def isModel (p : PathName) : Bool :=
  !(p.name.lower.endsWith ".d.ts") && modelSuffixes.contains p.suffix.lower

end PathName

end SchemaTypings
