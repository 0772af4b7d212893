import SchemaTypings.Literal

/-!
Dictionaries whose keys are values without parts, as lists of pairs spell them. Keys that are equal
as numbers are one key, and the truth values count as one and zero.
-/

namespace SchemaTypings

/-- Keys and their values, in order. -/
abbrev Dictionary := List (Literal × Literal)

namespace Dictionary

/-- A truth value as a number; any other value as it is. -/
def asNumber : Literal → Literal
  | .bool b => .int (if b then 1 else 0)
  | v => v

/-- Whether two values are one key. -/
def sameKey : Literal → Literal → Bool
  | .null, .null => true
  | k, l => Literal.sameScalar (asNumber k) (asNumber l)

/-- `value` under `key`, where a key that is the same stands if there is one, else at the end. -/
def put (d : Dictionary) (key value : Literal) : Dictionary :=
  match d with
  | [] => [(key, value)]
  | (k, v) :: rest => if sameKey k key then (k, value) :: rest else (k, v) :: put rest key value

/-- The dictionary with all of `more` put into it in order. -/
def update (d more : Dictionary) : Dictionary := more.foldl (fun acc e => acc.put e.1 e.2) d

/-- The dictionary of a list in which a key may repeat: first place, last value. -/
def ofList (list : List (Literal × Literal)) : Dictionary := update [] list

/-- Entries as a dictionary. -/
def ofEntries (entries : Entries Literal) : Dictionary := entries.map fun e => (.text e.1, e.2)

/-- The dictionary as entries, if every key is a text. -/
def entries? (d : Dictionary) : Option (Entries Literal) :=
  d.mapM fun e => e.1.text?.map fun name => (name, e.2)

/-- The entries under keys that are texts. -/
def named (d : Dictionary) : Entries Literal :=
  d.filterMap fun e => e.1.text?.map fun name => (name, e.2)

@[simp] theorem entries?_ofEntries (entries : Entries Literal) :
    entries? (ofEntries entries) = some entries := by
  induction entries with
  | nil => rfl
  | cons e rest ih =>
    have h : (ofEntries rest).mapM
        (fun e => e.1.text?.map fun name => (name, e.2)) = some rest := ih
    simp [entries?, ofEntries, Literal.text?] at h ⊢
    simp [h]

@[simp] theorem named_ofEntries (entries : Entries Literal) :
    named (ofEntries entries) = entries := by
  induction entries with
  | nil => rfl
  | cons e rest ih =>
    have step : named (ofEntries (e :: rest)) = e :: named (ofEntries rest) := rfl
    rw [step, ih]

end Dictionary

end SchemaTypings
