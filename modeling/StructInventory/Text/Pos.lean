/-!
Positions in a text: a line counted from one and a column counted from zero, in characters.
-/

namespace StructInventory

structure Pos where
  line : Nat
  column : Nat
  deriving DecidableEq, Repr, Inhabited

namespace Pos

/-- Where a text begins. -/
def first : Pos := ⟨1, 0⟩

/-- The position behind a character that stands at `pos`. -/
def next (pos : Pos) (c : Char) : Pos :=
  if c = '\n' then ⟨pos.line + 1, 0⟩ else ⟨pos.line, pos.column + 1⟩

/-- The position behind a run of characters that begins at `pos`. -/
def past (pos : Pos) (run : List Char) : Pos := run.foldl next pos

/-- Reading order: by line, then by column. -/
def before (p q : Pos) : Bool :=
  p.line < q.line || (p.line = q.line && p.column < q.column)

instance : LT Pos := ⟨fun p q => p.before q = true⟩

instance : LE Pos := ⟨fun p q => q.before p = false⟩

instance (p q : Pos) : Decidable (p < q) := inferInstanceAs (Decidable (p.before q = true))

instance (p q : Pos) : Decidable (p ≤ q) := inferInstanceAs (Decidable (q.before p = false))

/-- As messages print it: both numbers count from one. -/
def text (pos : Pos) : String := s!"{pos.line}:{pos.column + 1}"

end Pos

end StructInventory
