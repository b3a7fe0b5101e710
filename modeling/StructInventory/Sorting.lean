/-!
Sorting by insertion. It keeps the order of items that compare equal.
-/

namespace StructInventory

/-- Puts an item before the first one that it strictly precedes. -/
def insertBy {α : Type} (before : α → α → Bool) (item : α) : List α → List α
  | [] => [item]
  | other :: rest =>
    if before other item then other :: insertBy before item rest else item :: other :: rest

/-- Sorts by a strict order. -/
def sortBy {α : Type} (before : α → α → Bool) (items : List α) : List α :=
  items.foldr (insertBy before) []

end StructInventory
