/-!
Sets of numbers given by their edges: the ascending numbers at which membership flips.
-/

namespace SchemaTypings

/-- The ascending numbers at which membership in a set flips, starting outside. -/
abbrev Edges := List Nat

/-- Whether `n` is in the set: an odd number of edges lie at or below it. -/
def Edges.contains : Edges → Nat → Bool
  | [], _ => false
  | edge :: rest, n => if n < edge then false else !(contains rest n)

@[simp] theorem Edges.contains_nil (n : Nat) : Edges.contains [] n = false := rfl

theorem Edges.contains_of_lt {edge n : Nat} (rest : Edges) (h : n < edge) :
    Edges.contains (edge :: rest) n = false := by simp [Edges.contains, h]

end SchemaTypings
