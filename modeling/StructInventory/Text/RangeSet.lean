/-!
Sets of characters given by ranges of code points. A table of such a set is written as text, in
increasing order: `41-5A` is a range and `5F` a single code point, both in hexadecimal.
-/

namespace StructInventory.Text

/-- The value of a hexadecimal digit. -/
def hexDigit? (c : Char) : Option Nat :=
  if '0' ≤ c && c ≤ '9' then some (c.toNat - '0'.toNat)
  else if 'a' ≤ c && c ≤ 'f' then some (c.toNat - 'a'.toNat + 10)
  else if 'A' ≤ c && c ≤ 'F' then some (c.toNat - 'A'.toNat + 10)
  else none

/-- The number that a run of hexadecimal digits denotes; other characters are skipped. -/
def hexValue (digits : List Char) : Nat :=
  digits.foldl (fun n c => (hexDigit? c).elim n (n * 16 + ·)) 0

/-- The pieces of a text between occurrences of `mark`. -/
def splitAt (mark : Char) (text : List Char) : List (List Char) :=
  text.foldr (fun c pieces =>
    if c = mark then [] :: pieces
    else match pieces with
      | [] => [[c]]
      | piece :: rest => (c :: piece) :: rest) [[]]

/-- The pieces of a text between spaces and line ends. -/
def words (text : String) : List (List Char) :=
  ((splitAt '\n' text.toList).flatMap (splitAt ' ')).filter (!·.isEmpty)

structure RangeSet where
  ranges : Array (Nat × Nat)
  deriving Repr, DecidableEq

namespace RangeSet

def readRange (word : List Char) : Nat × Nat :=
  match splitAt '-' word with
  | [first, last] => (hexValue first, hexValue last)
  | _ => (hexValue word, hexValue word)

def ofText (text : String) : RangeSet :=
  ⟨((words text).map readRange).toArray⟩

/-- Bisection between the indices `low` and `high`: the ranges are in increasing order. -/
def search (ranges : Array (Nat × Nat)) (code low high : Nat) : Bool :=
  if _ : low < high then
    let middle := (low + high) / 2
    match ranges[middle]? with
    | none => false
    | some (first, last) =>
      if code < first then search ranges code low middle
      else if last < code then search ranges code (middle + 1) high
      else true
  else false
termination_by high - low
decreasing_by all_goals omega

def contains (set : RangeSet) (c : Char) : Bool :=
  search set.ranges c.toNat 0 set.ranges.size

end RangeSet

end StructInventory.Text
