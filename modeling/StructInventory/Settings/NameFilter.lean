import StructInventory.Pattern.Reader

/-!
Filters on the names of structs. A name without any character that has a meaning in patterns selects
only itself; all else is a pattern, which has to match some part of a name.
-/

namespace StructInventory

/-- The characters that make a name a pattern. -/
def patternChars : List Char := "\\.+*?()|[]\x7b\x7d^$".toList

def isPattern (name : String) : Bool := name.toList.any patternChars.contains

/-- `source` is the pattern that the expression was read from. -/
structure NameFilter where
  source : String
  regex : Pattern.Regex

namespace NameFilter

open Pattern

def accepts (filter : NameFilter) (name : String) : Bool := filter.regex.isMatch name.toList

/-- The filter of a pattern, if it is one. -/
def ofPattern? (source : String) : Option NameFilter := (Pattern.read? source).map (⟨source, ·⟩)

/-- The expression that matches just the characters of a list. -/
def literal : List Char → Regex
  | [] => .look .textEnd
  | c :: rest => .seq (.one (.single c)) (literal rest)

/-- The filter that accepts one name. -/
def exact (name : String) : NameFilter :=
  ⟨"^" ++ name ++ "$", .seq (.look .textStart) (literal name.toList)⟩

/-- The filter that accepts every name. -/
def everything : NameFilter := ⟨".*", .rep (.one (.complement (.single '\n'))) 0 none⟩

end NameFilter

end StructInventory
