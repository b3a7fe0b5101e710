import StructInventory.Text.Lowercase

/-!
Names of generated files: the casing of struct names.
-/

namespace StructInventory

open Text

/-- Puts an underscore before each capital that a run of small letters follows, when a character is
before it. `inRun` tells that the small letters of the last such run go on: they do not count as
that character. -/
def splitWords (inRun : Bool) : List Char → List Char
  | [] => []
  | c :: rest =>
    if inRun && isAsciiLower c then c :: splitWords true rest
    else match rest with
      | capital :: small :: behind =>
        if c ≠ '\n' && isAsciiUpper capital && isAsciiLower small then
          c :: '_' :: capital :: splitWords true (small :: behind)
        else c :: splitWords false (capital :: small :: behind)
      | rest => c :: splitWords false rest

/-- Puts an underscore between a small letter or digit and a capital. -/
def splitBoundaries : List Char → List Char
  | [] => []
  | [c] => [c]
  | c :: next :: rest =>
    if (isAsciiLower c || isAsciiDigit c) && isAsciiUpper next then
      c :: '_' :: splitBoundaries (next :: rest)
    else c :: splitBoundaries (next :: rest)

/-- A name in small letters with underscores between its words. -/
def underscoreCase (name : String) : String :=
  lowercase (String.ofList (splitBoundaries (splitWords false name.toList)))

/-- `camel` keeps a name as it is declared. -/
inductive Case where
  | camel
  | snake
  | underscore
  deriving DecidableEq, Repr, Inhabited

namespace Case

def text : Case → String
  | camel => "camel"
  | snake => "snake"
  | underscore => "underscore"

def ofText? (text : String) : Option Case :=
  if text = "camel" then some .camel
  else if text = "snake" then some .snake
  else if text = "underscore" then some .underscore
  else none

def apply (case : Case) (name : String) : String :=
  match case with
  | camel => name
  | snake | underscore => underscoreCase name

end Case

end StructInventory
