import StructInventory.Text.CaseMap
import StructInventory.Text.Property

/-!
Sets of characters as patterns write them.
-/

namespace StructInventory.Pattern

open Text

inductive CharSet where
  | none
  | range (first last : Char)
  | table (set : RangeSet)
  | word
  | digit
  | space
  | letter
  | union (left right : CharSet)
  | inter (left right : CharSet)
  | diff (left right : CharSet)
  | complement (set : CharSet)
  /-- All characters that differ from some member at most in case. -/
  | caseless (set : CharSet)
  deriving Inhabited

/-- Letters, marks, decimal digits, connectors and the two joiners. -/
def isWord (c : Char) : Bool :=
  if isAscii c then isAsciiLetter c || isAsciiDigit c || c = '_'
  else isAlphabetic c || isMark c || Category.decimalNumber.contains c ||
    Category.connectorPunctuation.contains c || c = '\u200c' || c = '\u200d'

namespace CharSet

def contains : CharSet → Char → Bool
  | none, _ => false
  | range first last, c => first ≤ c && c ≤ last
  | table set, c => set.contains c
  | word, c => isWord c
  | digit, c => if isAscii c then isAsciiDigit c else Category.decimalNumber.contains c
  | space, c => isBlank c
  | letter, c => isAlphabetic c
  | union left right, c => left.contains c || right.contains c
  | inter left right, c => left.contains c && right.contains c
  | diff left right, c => left.contains c && !right.contains c
  | complement set, c => !set.contains c
  | caseless set, c => (CaseMap.variants c).any set.contains

def single (c : Char) : CharSet := .range c c

def unions (sets : List CharSet) : CharSet := sets.foldl .union .none

def symmDiff (left right : CharSet) : CharSet := .diff (.union left right) (.inter left right)

def all : CharSet := .complement .none

/-- The set as it is, or widened to all variants in case. -/
def fold (ignoreCase : Bool) (set : CharSet) : CharSet := if ignoreCase then .caseless set else set

def negateIf (negated : Bool) (set : CharSet) : CharSet := if negated then .complement set else set

/-! ### Classes of plain ASCII characters -/

def asciiDigit : CharSet := .range '0' '9'

def asciiLower : CharSet := .range 'a' 'z'

def asciiUpper : CharSet := .range 'A' 'Z'

def asciiAlpha : CharSet := .union asciiLower asciiUpper

def asciiAlnum : CharSet := .union asciiAlpha asciiDigit

def asciiWord : CharSet := .union asciiAlnum (single '_')

def asciiSpace : CharSet := .union (.range '\t' '\r') (single ' ')

/-- The class that a name between `[:` and `:]` stands for. -/
def ofAsciiName? (name : String) : Option CharSet :=
  match name with
  | "alnum" => some asciiAlnum
  | "alpha" => some asciiAlpha
  | "ascii" => some (.range '\x00' '\x7f')
  | "blank" => some (.union (single '\t') (single ' '))
  | "cntrl" => some (.union (.range '\x00' '\x1f') (single '\x7f'))
  | "digit" => some asciiDigit
  | "graph" => some (.range '!' '~')
  | "lower" => some asciiLower
  | "print" => some (.range ' ' '~')
  | "punct" => some (unions [.range '!' '/', .range ':' '@', .range '[' '\x60', .range '\x7b' '~'])
  | "space" => some asciiSpace
  | "upper" => some asciiUpper
  | "word" => some asciiWord
  | "xdigit" => some (unions [asciiDigit, .range 'A' 'F', .range 'a' 'f'])
  | _ => Option.none

end CharSet

end StructInventory.Pattern
