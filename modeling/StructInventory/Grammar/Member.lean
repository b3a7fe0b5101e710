import StructInventory.Grammar.Signature

/-!
What stands between the braces of traits, `impl` blocks and blocks of foreign declarations. A
member that no finished program may hold is read all the same, and kept only as its tokens.
-/

namespace StructInventory.Grammar

open Reader

/-- A macro call in the place of a declaration. -/
def callMember : Reader Unit := do
  discard plainPath
  punct "!"
  let (delimiter, _) ← rawGroup
  if delimiter ≠ .brace then punct ";"

/-- Whether a path of plain names begins here. -/
def atCallPath (ahead : List Token) : Bool :=
  atIdent ahead || atWord "self" ahead || atWord "super" ahead || atWord "crate" ahead ||
    atPunct "::" ahead

def value? (g : Grammar) : Reader Bool := do
  if ← punct? "=" then
    discard g.expr
    return true
  else return false

/-- What a constant has beside its type. -/
structure ConstantParts where
  value : Bool
  generic : Bool

/-- A constant; its name may be left out. -/
def constant (g : Grammar) : Reader ConstantParts := do
  word "const"
  discard (identOr ["_"])
  let parameters ← generics g
  punct ":"
  discard g.type
  let value ← value? g
  let bounded ← whereClause g
  punct ";"
  return ⟨value, parameters.bracketed || bounded⟩

/-- Where the `where` clause of a type may stand. -/
inductive WherePlace where
  | before
  | behind
  | either
  deriving DecidableEq

/-- A type declaration; a type that is only announced has no target. -/
structure TypeParts where
  name : String
  generics : List String
  bounded : Bool
  target : Option TypeReading

def typeMember (g : Grammar) (place : WherePlace) : Reader TypeParts := do
  word "type"
  let name ← ident
  let parameters ← generics g
  let bounded ← punct? ":"
  if bounded then
    discard (terminated (fun ahead => atWord "where" ahead || atPunct "=" ahead ||
      atPunct ";" ahead) "+" (bound g))
  let early ← if place ≠ .behind then whereClause g else pure false
  let target ← if ← punct? "=" then some <$> g.type else pure none
  if place = .behind || place = .either && !early then discard (whereClause g)
  punct ";"
  return ⟨name.bare, parameters.names, bounded, target⟩

/-- Runs `member`, which answers a declaration or that it is to be kept as its tokens, and notes
its end. -/
def member? {α : Type} (member : DeclReader (Option α)) : DeclReader (Option α) :=
  ended (keepRaw Option.isNone member)

/-! ### Traits -/

def traitFunction (g : Grammar) (conditions : List Condition) : Reader FunctionDecl := do
  let pos ← here
  let (name, declared) ← signature g false
  let inner ←
    if ← look atBrace then functionBody g
    else do
      punct ";"
      pure []
  return ⟨name, false, pos, declared, conditions ++ inner⟩

/-- A `const` that cannot begin a constant. -/
def atConstFunction (ahead : List Token) : Bool :=
  atWord "const" ahead &&
    ["async", "unsafe", "extern"].any fun name => second (atWord name) ahead

/-- A member of a trait. One with a visibility or a `default` is kept as its tokens. -/
def traitMember (g : Grammar) : Reader (Option (Option FunctionDecl)) := do
  let conditions ← outerAttributes g
  let shown ← visibility
  let plain := !(← word? "default") && shown.inherited
  let kept {α : Type} (found : α) : Option α := if plain then some found else none
  if (← atFunction false) || (← look atConstFunction) then
    return kept (some (← traitFunction g conditions))
  else if ← look (atWord "const") then
    let parts ← constant g
    return if parts.generic then none else kept none
  else if ← look (atWord "type") then
    discard (typeMember g .behind)
    return kept none
  else if ← look (plain && atCallPath ·) then
    callMember
    return some none
  else fail

/-! ### Blocks of methods -/

def implFunction (g : Grammar) (conditions : List Condition) : Reader (Option FunctionDecl) := do
  let shown ← visibility
  let start ← here
  discard (word? "default")
  let (name, declared) ← signature g false
  if ← punct? ";" then return none
  let inner ← functionBody g
  return some ⟨name, shown.exported, shown.declStart start, declared, conditions ++ inner⟩

/-- A `default` that is no macro's name. -/
def atDefault (ahead : List Token) : Bool := atWord "default" ahead && !second (atPunct "!") ahead

def default? : Reader Unit := do
  if ← look atDefault then discard anyWord

/-- Whether a function comes, perhaps behind a visibility and a `default`. -/
def atMethod : Reader Bool :=
  glance do
    discard visibility
    default?
    atFunction false

/-- A constant or type of an `impl` block; the answer tells whether it is complete. -/
def implDefinition (g : Grammar) : Reader Bool := do
  discard visibility
  default?
  if ← look (atWord "const") then
    let parts ← constant g
    return parts.value && !parts.generic
  else
    let parts ← typeMember g .behind
    return parts.target.isSome && !parts.bounded

/-- A member of an `impl` block. -/
def implMember (g : Grammar) : Reader (Option (Option FunctionDecl)) := do
  let conditions ← outerAttributes g
  if ← atMethod then return (← implFunction g conditions).map some
  else if ← look fun ahead => atCallPath ahead && !atDefault ahead then
    callMember
    return some none
  else return if ← implDefinition g then some none else none

/-! ### Foreign declarations -/

def foreignFunction (g : Grammar) : Reader Bool := do
  discard visibility
  let safe ← succeeds do
    discard (word? "const")
    discard (word? "async")
    word "safe"
  discard (signature g true)
  if ← look atBrace then
    discard (functionBody g)
    return false
  else
    punct ";"
    return !safe

def foreignStatic (g : Grammar) : Reader Bool := do
  discard visibility
  let risky ← word? "unsafe"
  let safe ← if risky then pure false else word? "safe"
  word "static"
  discard (word? "mut")
  discard ident
  punct ":"
  discard g.type
  let value ← value? g
  punct ";"
  return !(risky || safe || value)

def atForeignStatic (ahead : List Token) : Bool :=
  atWord "static" ahead ||
    ((atWord "unsafe" ahead || atWord "safe" ahead) && second (atWord "static") ahead)

/-- Whether `test` holds behind a visibility. -/
def behindVisibility (test : Reader Bool) : Reader Bool :=
  glance do
    discard visibility
    test

/-- A member of a block of foreign declarations; the answer tells whether it is one that a finished
program may hold. -/
def foreignForm (g : Grammar) : Reader Bool := do
  discard (outerAttributes g)
  if ← behindVisibility (atFunction true) then foreignFunction g
  else if ← behindVisibility (look atForeignStatic) then foreignStatic g
  else if ← look atCallPath then
    callMember
    return true
  else
    discard visibility
    let parts ← typeMember g .either
    return parts.target.isNone && !parts.bounded

/-- A foreign declaration ends none of its own. -/
def foreignMember (g : Grammar) : Reader Unit := discard (keepRaw (!·) (foreignForm g))

end StructInventory.Grammar
