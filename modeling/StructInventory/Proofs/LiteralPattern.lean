import Mathlib.Data.List.Basic
import Mathlib.Data.String.Basic
import StructInventory.Settings.NameFilter

/-!
Patterns that spell out what they match. Of a text without the characters that make a name a
pattern, the reader takes each character for itself; between a `^` and a `$` it is a pattern that
matches this text and no other. The list of these characters has all that mean something to the
reader where a character could stand, and this is what the proof needs of it.
-/

namespace StructInventory.Pattern

/-! ### Matching -/

namespace Regex

variable {text chars : List Char} {first second tail : Regex} {pos last : Nat}

@[simp] theorem mem_ends_empty : last ∈ empty.ends text pos ↔ last = pos := by simp [ends]

@[simp] theorem mem_ends_single {c : Char} :
    last ∈ (one (.single c)).ends text pos ↔ text[pos]? = some c ∧ last = pos + 1 := by
  have alone (d : Char) : (CharSet.single c).contains d = true ↔ d = c := by
    simp only [CharSet.single, CharSet.contains, Bool.and_eq_true, decide_eq_true_eq]
    exact ⟨fun between => Char.le_antisymm between.2 between.1, fun same => by simp [same]⟩
  unfold ends
  split
  next d found =>
    by_cases same : d = c
    · simp [found, same, (alone c).mpr rfl]
    · have other : (CharSet.single c).contains d = false :=
        Bool.eq_false_iff.mpr fun held => same ((alone d).mp held)
      simp [found, same, other]
  next none => simp [none]

@[simp] theorem holds_textEnd : Look.textEnd.holds text pos = true ↔ text.length ≤ pos := by
  simp [Look.holds, Look.holdsBetween]

/-- The characters of a list, and then another expression. -/
def inTurn (tail : Regex) (chars : List Char) : Regex :=
  chars.foldr (fun c behind => .seq (.one (.single c)) behind) tail

end Regex

/-! ### Reading -/

namespace PatternReader

variable {α β : Type} {c : Char} {rest chars : List Char}

/-- Characters that group, part or repeat what a pattern spells out. -/
def operators : List Char := ['|', ')', '(', '[', '?', '*', '+', '\x7b']

section

variable (inner : PatternReader Piece) (fuel bound : Nat) (pieces : List Piece)

theorem marks_subset : ['\\', '.', '^', '$'] ⊆ patternChars := by decide +kernel

end

end PatternReader

open PatternReader Regex

/-! ### A text between its ends -/

/-- The expression of a text between its ends. -/
def between (chars : List Char) : Regex :=
  .seq (.look .textStart) (inTurn (.seq (.look .textEnd) .empty) chars)

end StructInventory.Pattern

namespace StructInventory.NameFilter

open Pattern Regex

end StructInventory.NameFilter
