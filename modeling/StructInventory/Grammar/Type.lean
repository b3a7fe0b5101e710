import StructInventory.Grammar.Bound

/-!
Types.
-/

namespace StructInventory.Grammar

open Reader

/-- A type that is described by its tokens once they are known. -/
structure TypeSketch where
  build : List Token → TypeExpr
  head : TypeHead

namespace TypeSketch

def shown : TypeSketch := ⟨.other, .other⟩

def plain (type : TypeExpr) : TypeSketch := ⟨fun _ => type, .other⟩

def ofPath (path : Path) : TypeSketch :=
  { build := if path.plainStem then .named path.names path.lastArguments else .other
    head := if path.lone then .loneName else .path }

end TypeSketch

/-- Bounds of a trait object or an opaque type, the first of which begins at `start`. At least one
has to be a trait. -/
def traitBounds (g : Grammar) (plus : Bool) (rule : BoundRule) (start : Pos) : Reader Unit := do
  let kinds ← bounds g plus rule
  if !kinds.contains .trait then failAt start

/-- More bounds behind the first of a trait object without `dyn`. -/
def laterBounds (g : Grammar) : Reader (List Unit) := do
  let found ← collect do
    if !(← punct? "+") then return none
    if ← look (atBound ⟨false, false⟩) then
      discard (boundBy g ⟨false, false⟩)
      return some ((), true)
    else return some ((), false)
  return found.map Prod.fst

/-- What stands between the parentheses of a type. -/
inductive ParenInside where
  | empty
  | object (tokens : List Token)
  | optional
  | single (reading : TypeReading)
  | many (types : List TypeExpr)

def parenInside (g : Grammar) : Reader ParenInside := do
  if ← look atEnd then return .empty
  if ← look atLifetime then
    let start ← here
    let ((), tokens) ← captured (traitBounds g true ⟨false, false⟩ start)
    return .object tokens
  if ← look (atPunct "?") then
    discard (traitBound g ⟨false, true⟩)
    return .optional
  let first ← g.type
  if ← look (atPunct ",") then
    punct ","
    let rest ← commaList g.type
    return .many (first.type :: rest.map TypeReading.type)
  return .single first

/-- Bounds that each follow a `+`. -/
def plusBounds (g : Grammar) : Reader Unit :=
  discard (upTo (!atPunct "+" ·) do
    punct "+"
    discard (boundBy g ⟨false, false⟩))

def parenType (g : Grammar) (plus : Bool) : Reader TypeSketch := do
  match ← parens (parenInside g) with
  | .empty => return .plain (.tuple [])
  | .object tokens => return .plain (.paren (.other tokens))
  | .optional =>
    plusBounds g
    return .shown
  | .many types => return .plain (.tuple types)
  | .single reading =>
    if reading.head ≠ .other && plus && (← look (atPunct "+")) then
      plusBounds g
      return .shown
    else return .plain (.paren reading.type)

/-- The last member of a function type's parameters, `...` with or without a name. -/
def atVariadic (ahead : List Token) : Bool :=
  atPunct "..." ahead ||
    (atIdent ahead || atWord "_" ahead) && second (atPunct ":") ahead && third (atPunct "...") ahead

/-- One parameter of a function type behind its attributes. A first parameter may be `mut self`; the
answer tells whether it was. -/
def functionTypeParam (g : Grammar) (first : Bool) : Reader Bool := do
  let atMutSelf (ahead : List Token) := first && atWord "mut" ahead && second (atWord "self") ahead
  let mutSelf ← look atMutSelf
  if mutSelf then word "mut"
  let ownSelf ← look (first && atWord "self" ·)
  let named ← look fun ahead => (atIdent ahead || atWord "_" ahead || ownSelf) &&
    second (atPunct ":") ahead && !second (atPunct "::") ahead
  if named then
    discard anyWord
    punct ":"
  let hasSelf := named && ownSelf
  if !hasSelf && (← look atMutSelf) then
    word "mut"
    word "self"
    return true
  else if mutSelf && !named then
    word "self"
    return true
  else
    discard g.type
    return mutSelf

def functionTypeParams (g : Grammar) : Reader Unit := do
  let _ ← iterate (fun (first : Bool) => do
    if ← look atEnd then return none
    discard (outerAttributes g)
    if ← look atVariadic then
      if !(← look (atPunct "...")) then
        discard anyWord
        punct ":"
      punct "..."
      discard (punct? ",")
      return none
    discard (keepRaw id (functionTypeParam g first))
    if ← look atEnd then return none
    punct ","
    return some false) true

/-- `extern` with the name of a calling convention, which may be left out. -/
def callingConvention : Reader Unit := do
  word "extern"
  if ← look atText then discard literal

def callingConvention? : Reader Unit := do
  if ← look (atWord "extern") then callingConvention

def functionType (g : Grammar) : Reader Unit := do
  if ← look (atWord "for") then boundLifetimes g
  discard (word? "unsafe")
  callingConvention?
  word "fn"
  parens (functionTypeParams g)
  discard (returnType g false)

/-- A type that begins with a path. `bound` tells that lifetimes were introduced before it. -/
def pathType (g : Grammar) (plus bound : Bool) : Reader TypeSketch := do
  match ← qualifiedPath g false with
  | none => return .shown
  | some found =>
    if found.plain && (← look fun ahead => atPunct "!" ahead && !atPunct "!=" ahead) then
      punct "!"
      discard rawGroup
      return .shown
    if bound || plus && (← look (atPunct "+")) then
      let more ← if plus then laterBounds g else pure []
      return ⟨.other, if more.isEmpty then .loneBound else .other⟩
    return .ofPath found

def bracketType (g : Grammar) : Reader TypeSketch :=
  brackets do
    let item ← g.type
    if ← punct? ";" then
      let (_, length) ← captured g.expr
      return .plain (.array item.type length)
    else return .plain (.slice item.type)

def pointerType (g : Grammar) : Reader TypeSketch := do
  punct "*"
  let mutable ← word? "mut"
  if !mutable then word "const"
  return .plain (.pointer mutable (← g.tightType).type)

def referenceType (g : Grammar) : Reader TypeSketch := do
  punct "&"
  let lifetime ← lifetime?
  let mutable ← word? "mut"
  return .plain (.reference lifetime mutable (← g.tightType).type)

def dynType (g : Grammar) (plus : Bool) : Reader TypeSketch := do
  let start ← here
  discard (keepRaw id do
    word "dyn"
    let starred ← punct? "*"
    traitBounds g plus ⟨false, false⟩ start
    return starred)
  return .shown

def implType (g : Grammar) (plus : Bool) : Reader TypeSketch := do
  let start ← here
  word "impl"
  traitBounds g plus ⟨true, true⟩ start
  return .shown

/-- Words and marks that a path in type position may begin with. -/
def atPath (ahead : List Token) : Bool :=
  atPathWord ahead || atPunct "::" ahead || atPunct "<" ahead

def atFunctionType (ahead : List Token) : Bool :=
  atWord "fn" ahead || atWord "unsafe" ahead || atWord "extern" ahead

def typeSketch (g : Grammar) (plus : Bool) : Reader TypeSketch := do
  let bound ← look (atWord "for")
  if bound then
    boundLifetimes g
    if !(← look fun ahead => atPathWord ahead || atFunctionType ahead) then fail
  if ← look atParen then parenType g plus
  else if ← look atFunctionType then
    functionType g
    return ⟨.function, .other⟩
  else if ← look atPath then pathType g plus bound
  else if ← look (atWord "dyn") then dynType g plus
  else if ← look atBracket then bracketType g
  else if ← look (atPunct "*") then pointerType g
  else if ← look (atPunct "&") then referenceType g
  else if ← look fun ahead => atPunct "!" ahead && !atPunct "=" ahead then
    punct "!"
    return .plain .never
  else if ← look (atWord "impl") then implType g plus
  else if ← look (atWord "_") then
    discard anyWord
    return .shown
  else if ← look atLifetime then
    let start ← here
    traitBounds g true ⟨false, false⟩ start
    return .shown
  else fail

def typeExpr (g : Grammar) (plus : Bool) : Reader TypeReading := do
  let (sketch, tokens) ← captured (typeSketch g plus)
  return ⟨sketch.build tokens, sketch.head⟩

end StructInventory.Grammar
