import StructInventory.Text.Property

/-!
Closing up the blanks of a printed token sequence: `dyn Fn (i32) -> bool` becomes
`dyn Fn(i32) -> bool`. Only spaces are dropped, and never one between two words.
-/

namespace StructInventory.Text

/-- Characters that take no space behind them. -/
def hugsNext (c : Char) : Bool :=
  c = '(' || c = '[' || c = '<' || c = '&' || c = ':'

/-- Characters that take no space before them. -/
def hugsPrevious (c : Char) : Bool :=
  c = ')' || c = ']' || c = '>' || c = ',' || c = ';' || c = ':'

/-- Characters that take no space between themselves and a word before them. -/
def hugsWord (c : Char) : Bool := c = '(' || c = '<'

/-- Whether a space is dropped, given the last character written and the one that follows it. -/
def dropsSpace (previous next : Option Char) : Bool :=
  previous.any hugsNext || next.any hugsPrevious || (previous.any isWordChar && next.any hugsWord)

def respaceFrom (previous : Option Char) : List Char → List Char
  | [] => []
  | c :: rest =>
    if c = ' ' && dropsSpace previous rest.head? then respaceFrom previous rest
    else c :: respaceFrom (some c) rest

def respace (text : String) : String := String.ofList (respaceFrom none text.toList)

end StructInventory.Text
