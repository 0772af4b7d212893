import SchemaTypings.Text.CodePoint

/-!
Ordered dictionaries: lists of key and value, in the order in which answers show them. A key is
either renewed where it stands (`put`) or moved to the end (`move`).
-/

namespace SchemaTypings

/-- Keys with their values, in order. -/
abbrev Entries (α : Type) := List (Text × α)

namespace Entries

variable {α : Type}

/-- The keys in order. -/
def keys (entries : Entries α) : List Text := entries.map (·.1)

/-- The value of the first entry of `key`. -/
def get? (entries : Entries α) (key : Text) : Option α :=
  match entries with
  | [] => none
  | (k, v) :: rest => if k = key then some v else get? rest key

/-- Whether there is an entry of `key`. -/
def has (entries : Entries α) (key : Text) : Bool := (entries.get? key).isSome

/-- `value` under `key`, where the key stands if it is there, else at the end. -/
def put (entries : Entries α) (key : Text) (value : α) : Entries α :=
  match entries with
  | [] => [(key, value)]
  | (k, v) :: rest => if k = key then (k, value) :: rest else (k, v) :: put rest key value

/-- The entries of other keys. -/
def erase (entries : Entries α) (key : Text) : Entries α := entries.filter (·.1 ≠ key)

/-- `value` under `key` at the end, and nowhere else. -/
def move (entries : Entries α) (key : Text) (value : α) : Entries α :=
  entries.erase key ++ [(key, value)]

/-- `entries` with all of `more` put into them in order. -/
def update (entries more : Entries α) : Entries α :=
  more.foldl (fun acc e => acc.put e.1 e.2) entries

/-- The dictionary of a list in which a key may repeat: first place, last value. -/
def ofList (list : List (Text × α)) : Entries α := update [] list

/-- The dictionary of a list in which a key may repeat: last place, last value. -/
def lastWins (list : List (Text × α)) : Entries α := list.foldl (fun acc e => acc.move e.1 e.2) []

@[simp] theorem keys_nil : keys ([] : Entries α) = [] := rfl

@[simp] theorem keys_cons (e : Text × α) (rest : Entries α) :
    keys (e :: rest) = e.1 :: keys rest := rfl

@[simp] theorem keys_append (a b : Entries α) : keys (a ++ b) = keys a ++ keys b := by simp [keys]

theorem keys_erase (entries : Entries α) (key : Text) :
    keys (entries.erase key) = (keys entries).filter (· ≠ key) := by
  simp [keys, erase, List.filter_map, Function.comp_def]

theorem keys_move (entries : Entries α) (key : Text) (value : α) :
    keys (entries.move key value) = (keys entries).filter (· ≠ key) ++ [key] := by
  simp [move, keys_erase]

theorem get?_put_self (entries : Entries α) (key : Text) (value : α) :
    (entries.put key value).get? key = some value := by
  induction entries with
  | nil => simp [put, get?]
  | cons e rest ih =>
    obtain ⟨k, v⟩ := e
    by_cases h : k = key <;> simp [put, get?, h, ih]

end Entries

end SchemaTypings
