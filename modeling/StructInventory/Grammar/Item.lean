import StructInventory.Grammar.Member
import StructInventory.Grammar.Statement

/-!
Declarations. Reading one notes where it ends and where its body opens.
-/

namespace StructInventory.Grammar

open Reader

/-- What a reader of declarations answers: the declaration, or nothing when it is kept only as its
tokens. -/
abbrev ItemReader := DeclReader (Option Item)

/-- A declaration that declares no type and no method. -/
def plain (reader : Reader Unit) : ItemReader := do
  reader
  return some .other

def functionItem (g : Grammar) : ItemReader := do
  discard visibility
  discard (signature g false)
  if ← punct? ";" then return none
  discard (functionBody g)
  return some .other

def externCrate : Reader Unit := do
  discard visibility
  word "extern"
  word "crate"
  discard (identOr ["self"])
  if ← word? "as" then discard (identOr ["_"])
  punct ";"

def foreignBlock (g : Grammar) : Reader Unit := do
  discard (word? "unsafe")
  callingConvention
  braces do
    discard (innerAttributes g)
    discard (toEnd (foreignMember g))

/-- What follows `extern`, which is no function. -/
def externItem (g : Grammar) : ItemReader := do
  let crate ← glance do
    discard visibility
    word "extern"
    if ← look (atWord "crate") then return true
    if ← look atText then discard literal
    if ← look atBrace then return false else fail
  plain (if crate then externCrate else foreignBlock g)

/-! ### Imports -/

def useMembers (g : Grammar) (rooted : Bool) : Reader Bool := do
  let found ← braces (commaList do
    let root ← if rooted then punct? "::" else pure false
    return (← g (.useTree (rooted && !root))) || root)
  return found.any id

/-- A tree of imported names; the answer tells whether some member begins with `::`. -/
def useTree (g : Grammar) (rooted : Bool) : Reader Bool := do
  if ← look fun ahead => atIdent ahead || atBareWord ahead then
    discard anyWord
    if ← punct? "::" then g (.useTree false)
    else
      if ← word? "as" then discard (identOr ["_"])
      return false
  else if ← punct? "*" then return false
  else if ← look atBrace then useMembers g rooted
  else fail

def useItem (g : Grammar) : ItemReader := do
  discard visibility
  word "use"
  let root ← punct? "::"
  let rooted ← g (.useTree (!root))
  punct ";"
  return if rooted then none else some .other

/-! ### Constants and modules -/

def staticItem (g : Grammar) : ItemReader := do
  discard visibility
  word "static"
  discard (word? "mut")
  discard ident
  let typed := !(← look (atPunct "="))
  if typed then
    punct ":"
    discard g.type
  let complete := typed && !(← look (atPunct ";"))
  if complete || !typed then
    punct "="
    discard g.expr
  punct ";"
  return if complete then some .other else none

def constItem (g : Grammar) : ItemReader := do
  discard visibility
  let parts ← constant g
  return if parts.value && !parts.generic then some .other else none

def moduleItem (g : Grammar) : Reader Unit := do
  discard visibility
  discard (word? "unsafe")
  word "mod"
  discard (identOr ["try"])
  if ← look atBrace then
    body do
      discard (innerAttributes g)
      discard (toEnd (g .item))
  else punct ";"

/-! ### Types -/

def typeItem (g : Grammar) (conditions : List Condition) : ItemReader := do
  let shown ← visibility
  let pos := shown.declStart (← here)
  let parts ← typeMember g .before
  if parts.bounded then return none
  return parts.target.map fun target => .type {
    name := parts.name
    pos := pos
    exported := shown.exported
    generics := parts.generics
    conditions := conditions
    form := .alias target.type }

/-- The fields of a struct, with its `where` clause and closing semicolon. -/
def structBody (g : Grammar) : DeclReader (List FieldDecl) := do
  let bounded ← whereClause g
  if !bounded && (← look atParen) then
    let fields ← tupleFields g
    discard (whereClause g)
    punct ";"
    return fields
  else if ← look atBrace then g .fields
  else
    punct ";"
    return []

def structItem (g : Grammar) (conditions : List Condition) : ItemReader := do
  let shown ← visibility
  let pos := shown.declStart (← here)
  word "struct"
  let name ← ident
  let parameters ← generics g
  let fields ← structBody g
  return some (.type
    ⟨name.bare, pos, shown.exported, parameters.names, conditions, .struct fields⟩)

def variant (g : Grammar) : DeclReader Unit :=
  ended do
    discard (outerAttributes g)
    silent (discard visibility)
    discard ident
    if ← look atBrace then discard (g .fields)
    else if ← look atParen then discard (tupleFields g)
    discard (value? g)

def enumItem (g : Grammar) (conditions : List Condition) : ItemReader := do
  let shown ← visibility
  let pos := shown.declStart (← here)
  word "enum"
  let name ← ident
  let parameters ← generics g
  discard (whereClause g)
  body (discard (commaList (variant g)))
  return some (.type ⟨name.bare, pos, shown.exported, parameters.names, conditions, .enum⟩)

def unionItem (g : Grammar) : Reader Unit := do
  discard visibility
  word "union"
  discard ident
  discard (generics g)
  discard (whereClause g)
  discard (g .fields)

/-! ### Traits and methods -/

/-- The functions among the members of a body, and the conditions at its head. -/
def memberBody (g : Grammar) (member : Reader (Option (Option FunctionDecl))) :
    Reader (List FunctionDecl × List Condition) :=
  body do
    let conditions ← innerAttributes g
    let members ← toEnd (member? member)
    return (members.filterMap Option.join, conditions)

def atWhereOrBrace (ahead : List Token) : Bool := atWord "where" ahead || atBrace ahead

/-- A trait, or another name for a list of bounds; that declares no type. -/
def traitItem (g : Grammar) (conditions : List Condition) : ItemReader := do
  let shown ← visibility
  let risky ← word? "unsafe"
  let auto ← word? "auto"
  let pos := shown.declStart (← here)
  word "trait"
  let name ← ident
  let parameters ← generics g
  if !risky && !auto && (← look (atPunct "=")) then
    punct "="
    discard (terminated (fun ahead => atWord "where" ahead || atPunct ";" ahead) "+" (bound g))
    discard (whereClause g)
    punct ";"
    return some .other
  if ← punct? ":" then discard (terminated atWhereOrBrace "+" (bound g))
  discard (whereClause g)
  let (functions, inner) ← memberBody g (traitMember g)
  return some (.type {
    name := name.bare
    pos := pos
    exported := shown.exported
    generics := parameters.names
    conditions := conditions ++ inner
    form := .trait (functions.map fun found => { found with exported := shown.exported }) })

/-- The head of an `impl` block up to its `where` clause. -/
structure ImplHead where
  generics : List String
  target : TypeExpr
  ofTrait : Bool
  complete : Bool

def implHead (g : Grammar) : Reader ImplHead := do
  let shown ← visibility
  discard (word? "default")
  discard (word? "unsafe")
  word "impl"
  let parameters ← if ← look atGenerics then generics g else pure ⟨[], false⟩
  let isConst ← look fun ahead =>
    atWord "const" ahead || atPunct "?" ahead && second (atWord "const") ahead
  if isConst then
    discard (punct? "?")
    word "const"
  let start ← here
  let negative ← look fun ahead => atPunct "!" ahead && !second atBrace ahead
  if negative then punct "!"
  let first ← g.type
  let complete := shown.inherited && !isConst
  if ← word? "for" then
    let target ← g.type
    let isPath := first.head = .loneName || first.head = .path
    return ⟨parameters.names, target.type, true, complete && isPath⟩
  else if negative then failAt start
  else return ⟨parameters.names, first.type, false, complete⟩

def implItem (g : Grammar) (conditions : List Condition) : ItemReader := do
  let head ← implHead g
  discard (whereClause g)
  let (functions, inner) ← memberBody g (implMember g)
  if !head.complete then return none
  if head.ofTrait then return some .other
  return some (.methods {
    target := head.target
    generics := head.generics
    conditions := conditions ++ inner
    functions := functions })

/-! ### Macros -/

/-- A macro with parameters and a body of its own. -/
def macroDefinition : Reader Unit := do
  discard visibility
  word "macro"
  discard ident
  if ← look atParen then discard rawGroup
  if ← look atBrace then discard rawGroup else fail

/-- A macro call, which may name what it declares. -/
def callItem : Reader Unit := do
  discard plainPath
  punct "!"
  if ← look fun ahead => atIdent ahead || atWord "try" ahead then discard anyWord
  let (delimiter, _) ← rawGroup
  if delimiter ≠ .brace then punct ";"

/-! ### All declarations -/

/-- What follows `unsafe`, which is no function. -/
def unsafeItem (g : Grammar) (conditions : List Condition) : ItemReader := do
  let ahead ← glance do
    discard visibility
    word "unsafe"
    cursor
  if atWord "trait" ahead.rest ||
      atWord "auto" ahead.rest && second (atWord "trait") ahead.rest then
    traitItem g conditions
  else if atWord "impl" ahead.rest then implItem g conditions
  else if atWord "extern" ahead.rest then plain (foreignBlock g)
  else if atWord "mod" ahead.rest then plain (moduleItem g)
  else failAt ahead.here

/-- A declaration behind its attributes, chosen by what follows its visibility. -/
def itemForm (g : Grammar) (conditions : List Condition) : ItemReader := do
  let (behind, function, inherited) ← glance do
    let shown ← visibility
    return (← cursor, ← atFunction false, shown.inherited)
  let ahead := behind.rest
  if function then functionItem g
  else if atWord "extern" ahead then externItem g
  else if atWord "use" ahead then useItem g
  else if atWord "static" ahead then staticItem g
  else if atWord "const" ahead then constItem g
  else if atWord "unsafe" ahead then unsafeItem g conditions
  else if atWord "mod" ahead then plain (moduleItem g)
  else if atWord "type" ahead then typeItem g conditions
  else if atWord "struct" ahead then structItem g conditions
  else if atWord "enum" ahead then enumItem g conditions
  else if atWord "union" ahead && second atIdent ahead then plain (unionItem g)
  else if atWord "trait" ahead || atWord "auto" ahead && second (atWord "trait") ahead then
    traitItem g conditions
  else if atWord "impl" ahead || atDefault ahead then implItem g conditions
  else if atWord "macro" ahead then
    macroDefinition
    return none
  else if inherited && atCallPath ahead then plain callItem
  else failAt behind.here

def item (g : Grammar) : DeclReader Item := do
  let found ← member? do
    let conditions ← outerAttributes g
    itemForm g conditions
  return found.getD .other

end StructInventory.Grammar
