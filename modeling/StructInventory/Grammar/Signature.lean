import StructInventory.Grammar.Pattern
import StructInventory.Grammar.Field
import StructInventory.Token.Print
import StructInventory.Text.Respacing

/-!
Signatures of functions.
-/

namespace StructInventory.Grammar

open Reader

/-- The parameter that a method is called on. -/
def receiver : Reader Unit → Reader Unit := fun type => do
  let reference ← punct? "&"
  if reference then discard lifetime?
  discard (word? "mut")
  word "self"
  if !reference then
    if ← punct? ":" then type

/-- What a parameter list may hold. -/
inductive Param where
  | receiver
  | typed (decl : ParamDecl)
  | variadic
  deriving Inhabited

namespace Param

def isReceiver : Param → Bool
  | receiver => true
  | typed _ | variadic => false

def decl? : Param → Option ParamDecl
  | typed decl => some decl
  | receiver | variadic => none

end Param

/-- A parameter is named by its pattern as it is printed. -/
def patternName (form : PatternForm) (tokens : List Token) : String :=
  match form with
  | .ident name => name.bare
  | .wild => "_"
  | .openRange _ | .other => Text.respace (Token.print tokens)

/-- A type that stands for a whole parameter. -/
def atBareType (ahead : List Token) : Bool := atIdent ahead && second (atPunct "<") ahead

/-- Where the word `self` of a receiver stands. -/
def selfPos (start : Cursor) : Reader Pos := do
  let passed := start.rest.take (start.rest.length - (← cursor).rest.length)
  return ((passed.find? fun token => atWord "self" [token]).map Token.start).getD start.here

/-- One parameter; only the first may be a receiver. -/
def param (g : Grammar) (first : Bool) : Reader Param := do
  let pos ← here
  discard (outerAttributes g)
  if ← punct? "..." then return .variadic
  let start ← cursor
  if (← attempt (receiver (discard g.type))).isSome then
    if first then return .receiver else failAt (← selfPos start)
  if ← look atBareType then
    emit [.word .underscore .first .first, .punct ':' false .first .first]
    return .typed ⟨"_", (← g.type).type, pos⟩
  let (form, tokens) ← captured g.pattern
  punct ":"
  if ← punct? "..." then return .variadic
  return .typed ⟨patternName form tokens, (← g.type).type, pos⟩

/-- Parameters in parentheses, the last of which alone may be variadic. -/
def params (g : Grammar) : Reader (List Param) := do
  let found ← parens (iterate (fun (found, more) => do
    if !more || (← look atEnd) then return none
    let next ← param g found.isEmpty
    let ended ← look atEnd
    if !ended then punct ","
    let variadic := match next with
      | .variadic => true
      | _ => false
    return some (next :: found, !ended && !variadic)) ([], true))
  return found.1.reverse

/-- The words before `fn`. A foreign function may be called `safe`. -/
def functionHead (foreign : Bool) : Reader Unit := do
  discard (word? "const")
  discard (word? "async")
  let safe ← if foreign then word? "safe" else pure false
  if !safe then discard (word? "unsafe")
  callingConvention?

/-- Whether a function begins here. -/
def atFunction (foreign : Bool) : Reader Bool :=
  succeeds do
    functionHead foreign
    word "fn"

/-- A signature: the function's name and the types around it. -/
def signature (g : Grammar) (foreign : Bool) : Reader (String × SignatureDecl) := do
  functionHead foreign
  word "fn"
  let name ← ident
  let parameters ← generics g
  let inputs ← params g
  let output ← returnType g true
  discard (whereClause g)
  return (name.bare, {
    generics := parameters.names
    receiver := inputs.any Param.isReceiver
    params := inputs.filterMap Param.decl?
    output := output })

/-- A function's body, and the conditions among the attributes at its head. -/
def functionBody (g : Grammar) : Reader (List Condition) :=
  braces do
    let conditions ← innerAttributes g
    g.statements
    return conditions

end StructInventory.Grammar
