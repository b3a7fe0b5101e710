import StructInventory.Grammar.Nonterminal
import StructInventory.Token.TextValue

/-!
Attributes. Of an attribute only the build condition of `cfg(...)` is kept.
-/

namespace StructInventory.Grammar

open Reader

/-- Words that may be segments of a path beside identifiers. -/
def pathWords : List String := ["super", "self", "Self", "crate"]

def atPathWord (ahead : List Token) : Bool :=
  atIdent ahead || pathWords.any (atWord · ahead)

/-- A path of plain names. A leading `::` is an empty first segment. -/
def plainPath : Reader (List String) := do
  let leading ← punct? "::"
  let segments ← collect do
    if ← look atPathWord then return some ((← anyWord).text, ← punct? "::")
    else return none
  match segments.getLast? with
  | some (_, false) =>
    let names := segments.map Prod.fst
    return if leading then "" :: names else names
  | _ => fail

/-- The path that an attribute or a condition begins with. -/
def conditionPath : Reader (List String) := do
  if ← look (atWord "unsafe") then return [(← anyWord).text] else plainPath

def atAnyGroup (ahead : List Token) : Bool := atParen ahead || atBracket ahead || atBrace ahead

/-- An equals sign that stands by itself. -/
def atEquals (ahead : List Token) : Bool :=
  atPunct "=" ahead && !atPunct "==" ahead && !atPunct "=>" ahead

/-- A literal and then the end of the group. -/
def lastLiteral : Reader String := do
  let text ← literal
  if ← look atEnd then return text else fail

/-- The value behind a name and an equals sign: its text, if it is a string. -/
def settingValue (g : Grammar) : Reader (Option String) := do
  punct "="
  match ← attempt lastLiteral with
  | some text => return Literal.textValue? text
  | none =>
    if ← look fun ahead => atPunct "#" ahead && second atBracket ahead then fail
    match ← g.expr with
    | .literal text => return Literal.textValue? text
    | _ => return none

/-- The conditions that fill a token sequence, if they can be read. -/
def conditions? (g : Grammar) (tokens : List Token) : Option (List Condition) :=
  (complete (commaList (g .condition)) tokens .first).toOption.map (·.1)

def condition (g : Grammar) : Reader Condition := do
  let path ← conditionPath
  if ← look atAnyGroup then
    let (_, tokens) ← rawGroup
    match conditions? g tokens with
    | some items => return .list path items
    | none => return .unreadable path
  else if ← look atEquals then return .setting path (← settingValue g)
  else return .name path

/-- The inside of an attribute's brackets. -/
def attributeBody (g : Grammar) : Reader (Option Condition) := do
  let path ← conditionPath
  if ← look atAnyGroup then
    let (_, tokens) ← rawGroup
    if path = ["cfg"] then
      return (complete (g .condition) tokens .first).toOption.map (·.1)
    else return none
  else if ← look atEquals then
    discard (settingValue g)
    return none
  else return none

/-- The conditions among attributes in front of a declaration or expression. -/
def outerAttributes (g : Grammar) : Reader (List Condition) := do
  let found ← upTo (!atPunct "#" ·) do
    punct "#"
    brackets (attributeBody g)
  return found.filterMap id

/-- The conditions among attributes at the head of a body. -/
def innerAttributes (g : Grammar) : Reader (List Condition) := do
  let found ← upTo (fun ahead => !(atPunct "#" ahead && second (atPunct "!") ahead)) do
    punct "#"
    punct "!"
    brackets (attributeBody g)
  return found.filterMap id

end StructInventory.Grammar
