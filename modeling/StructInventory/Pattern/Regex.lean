import StructInventory.Pattern.CharSet

/-!
Regular expressions and what they match. The meaning of an expression is the set of positions that
it leads to from a position in a text; a text matches if some position leads anywhere.
-/

namespace StructInventory.Pattern

/-- Conditions on a position. The `ascii` ones know no other word characters. -/
inductive Look where
  | textStart
  | textEnd
  | lineStart
  | lineEnd
  /-- Line ends are then also written as carriage return and line feed. -/
  | crlfLineStart
  | crlfLineEnd
  | wordBoundary (ascii : Bool)
  | notWordBoundary (ascii : Bool)
  | wordStart (ascii : Bool)
  | wordEnd (ascii : Bool)
  | wordStartHalf (ascii : Bool)
  | wordEndHalf (ascii : Bool)
  deriving DecidableEq, Repr

namespace Look

/-- Whether a condition holds between two characters, or at an end of the text. -/
def holdsBetween (look : Look) (before behind : Option Char) : Bool :=
  let word (ascii : Bool) (c : Option Char) : Bool :=
    c.any (if ascii then CharSet.asciiWord.contains else isWord)
  match look with
  | textStart => before.isNone
  | textEnd => behind.isNone
  | lineStart => before.all (· = '\n')
  | lineEnd => behind.all (· = '\n')
  | crlfLineStart => before.all fun c => c = '\n' || (c = '\r' && behind ≠ some '\n')
  | crlfLineEnd => behind.all fun c => c = '\r' || (c = '\n' && before ≠ some '\r')
  | wordBoundary ascii => word ascii before != word ascii behind
  | notWordBoundary ascii => word ascii before == word ascii behind
  | wordStart ascii => !word ascii before && word ascii behind
  | wordEnd ascii => word ascii before && !word ascii behind
  | wordStartHalf ascii => !word ascii before
  | wordEndHalf ascii => !word ascii behind

def holds (look : Look) (text : List Char) (pos : Nat) : Bool :=
  look.holdsBetween (if pos = 0 then none else text[pos - 1]?) text[pos]?

end Look

/-- `most` is nothing for a repetition without an upper bound. -/
inductive Regex where
  | empty
  | one (set : CharSet)
  | look (look : Look)
  | seq (first second : Regex)
  | alt (left right : Regex)
  | rep (inner : Regex) (least : Nat) (most : Option Nat)
  deriving Inhabited

namespace Regex

/-- Applies a step to every position of a set. -/
def stepAll (step : Nat → List Nat) (positions : List Nat) : List Nat :=
  (positions.flatMap step).eraseDups

/-- The positions after exactly `rounds` steps. -/
def exactly (step : Nat → List Nat) : Nat → List Nat → List Nat
  | 0, positions => positions
  | rounds + 1, positions => exactly step rounds (stepAll step positions)

/-- The positions after at most `rounds` steps. -/
def atMost (step : Nat → List Nat) : Nat → List Nat → List Nat
  | 0, positions => positions
  | rounds + 1, positions => atMost step rounds ((positions ++ stepAll step positions).eraseDups)

/-- The positions that an expression leads to. More rounds of a repetition than there are positions
lead nowhere new: of so many, some lead back to where they start. -/
def ends (text : List Char) : Regex → Nat → List Nat
  | empty, pos => [pos]
  | one set, pos =>
    match text[pos]? with
    | some c => if set.contains c then [pos + 1] else []
    | none => []
  | look condition, pos => if condition.holds text pos then [pos] else []
  | seq first second, pos => stepAll (ends text second) (ends text first pos)
  | alt left right, pos => (ends text left pos ++ ends text right pos).eraseDups
  | rep inner least most, pos =>
    let rounds := text.length + 1
    let extra := most.elim rounds fun most => min (most - least) rounds
    atMost (ends text inner) extra (exactly (ends text inner) (min least rounds) [pos])

/-- Whether some part of a text matches. -/
def isMatch (regex : Regex) (text : List Char) : Bool :=
  (List.range (text.length + 1)).any fun pos => !(regex.ends text pos).isEmpty

end Regex

end StructInventory.Pattern
