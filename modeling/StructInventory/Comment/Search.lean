import StructInventory.Comment.Group

/-!
Which comment group belongs to a declaration: the last one before it, unless the end of another
declaration or the opening of a body lies between them or shares the group's line.
-/

namespace StructInventory

/-- Searches by halving for where `test` turns false: `window` begins at index `base`. -/
def partitionFrom {α : Type} (test : α → Bool) : Nat → Nat → List α → Nat
  | 0, base, _ => base
  | fuel + 1, base, window =>
    match window with
    | [] => base
    | [item] => if test item then base + 1 else base
    | _ =>
      let half := window.length / 2
      if (window[half]?).any test then partitionFrom test fuel (base + half) (window.drop half)
      else partitionFrom test fuel base (window.take (window.length - half))

/-- How many items come before the first that fails `test`, when none that passes comes after one
that fails. -/
def partitionPoint {α : Type} (test : α → Bool) (items : List α) : Nat :=
  partitionFrom test items.length 0 items

namespace CommentGroup

/-- The last boundary before a position. -/
def lastBoundary? (boundaries : List Pos) (pos : Pos) : Option Pos :=
  match partitionPoint (· < pos) boundaries with
  | 0 => none
  | count + 1 => boundaries[count]?

/-- The index of the group that belongs to what is declared at `pos`. -/
def search (groups : List CommentGroup) (boundaries : List Pos) (pos : Pos) : Option Nat :=
  match partitionPoint (fun group => group.stop ≤ pos) groups with
  | 0 => none
  | index + 1 => do
    let group ← groups[index]?
    match lastBoundary? boundaries pos with
    | some lower =>
      if group.start ≤ lower || group.start.line = lower.line then none else some index
    | none => some index

end CommentGroup

end StructInventory
