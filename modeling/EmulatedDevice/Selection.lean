/-!
# Picking the one item that matches

A rule that wants exactly one match has three outcomes. None of them is an error
here: the caller knows what a missing or an ambiguous match means to it.
-/

namespace EmulatedDevice

/-- The outcome of looking for exactly one item. -/
inductive Selection (α : Type) where
  | found (item : α)
  | notFound
  | ambiguous (candidates : List α)
  deriving DecidableEq, Repr

/-- The only item that satisfies `p`, or all that do, in order. -/
def Selection.single {α : Type} (p : α → Bool) (items : List α) : Selection α :=
  match items.filter p with
  | [] => .notFound
  | [item] => .found item
  | candidates => .ambiguous candidates

end EmulatedDevice
