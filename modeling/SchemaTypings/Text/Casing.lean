import SchemaTypings.Text.CodePoint

/-!
Case styles of names. A name is first reduced to ASCII letters, digits, underscores and hyphens;
its words then lie between separators and at the step from a small letter or digit to a capital.
-/

namespace SchemaTypings

namespace CodePoint

/-- The small form of an ASCII letter. -/
def asciiLower (c : CodePoint) : CodePoint :=
  if h : c.isAsciiUpper then
    ⟨c.val + 32, by simp [isAsciiUpper, isBetween] at h; omega⟩
  else c

/-- The capital form of an ASCII letter. -/
def asciiUpper (c : CodePoint) : CodePoint :=
  if c.isAsciiLower then ⟨c.val - 32, Nat.lt_of_le_of_lt (Nat.sub_le ..) c.val_lt⟩ else c

end CodePoint

namespace Text

/-- `s` with everything but ASCII letters, digits and the two separators as an underscore, without
separators at its ends, and `schema` if nothing is left. -/
def clean (s : Text) : Text :=
  let kept : Text := s.map fun c : CodePoint =>
    if c.isAsciiLetter || c.isAsciiDigit || c = '_' || c = '-' then c else '_'
  let core := trim (fun c => c = '_' || c = '-') kept
  if core.isEmpty then "schema" else core

/-- Underscores put in where a capital follows a small letter or a digit. -/
def separateCapitals : Text → Text
  | [] => []
  | [c] => [c]
  | c :: d :: rest =>
    if (c.isAsciiLower || c.isAsciiDigit) && d.isAsciiUpper then
      c :: '_' :: separateCapitals (d :: rest)
    else c :: separateCapitals (d :: rest)

/-- One underscore for each run of them. -/
def squeezeBars : Text → Text
  | [] => []
  | [c] => [c]
  | c :: d :: rest =>
    if c = '_' ∧ d = '_' then squeezeBars (d :: rest) else c :: squeezeBars (d :: rest)

/-- A cleaned name in words of small letters with underscores between them. -/
def barred (s : Text) : Text :=
  trim (· = '_')
    (squeezeBars ((separateCapitals (replaceOne '-' '_' s)).map CodePoint.asciiLower))

/-- A word with a capital at its start and small letters after it. -/
def capitalized : Text → Text
  | [] => []
  | c :: rest => c.asciiUpper :: rest.map CodePoint.asciiLower

/-- A name as `blog_post`. -/
def toSnakeCase (s : Text) : Text := barred (clean s)

/-- A name as `blog-post`. -/
def toKebabCase (s : Text) : Text := replaceOne '_' '-' (toSnakeCase s)

/-- A name as `blogPost`. -/
def toCamelCase (s : Text) : Text :=
  match splitOn '_' (toSnakeCase s) with
  | [] => []
  | first :: rest => first ++ (rest.map capitalized).flatten

/-- A name as `BlogPost`; an underscore leads it if it would start with a digit. -/
def toPascalCase (s : Text) : Text :=
  let name := ((splitOn '_' (toSnakeCase s)).map capitalized).flatten
  match name with
  | c :: _ => if c.isAsciiDigit then '_' :: name else name
  | [] => []

end Text

end SchemaTypings
