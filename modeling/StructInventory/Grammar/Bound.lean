import StructInventory.Grammar.Path

/-!
Bounds on types, generic parameters and `where` clauses.
-/

namespace StructInventory.Grammar

open Reader

/-- The lifetimes, types and constants that a declaration is generic over. `bracketed` tells that
angle brackets are there at all. -/
structure Generics where
  names : List String
  bracketed : Bool

def atAngleEnd (ahead : List Token) : Bool := atPunct ">" ahead

def lifetimeParam : Reader Unit := do
  discard lifetime
  if ← punct? ":" then
    discard (joined (fun ahead => atEnd ahead || atPunct "," ahead || atAngleEnd ahead) "+"
      lifetime)

def typeParam (g : Grammar) : Reader String := do
  let name ← ident
  if ← punct? ":" then
    discard (joined (fun ahead => atEnd ahead || atPunct "," ahead || atAngleEnd ahead ||
      atPunct "=" ahead) "+" (g .bound))
  if ← punct? "=" then discard g.type
  return name.text

def constParam (g : Grammar) : Reader String := do
  word "const"
  let name ← ident
  punct ":"
  discard g.type
  if ← punct? "=" then constArgument g
  return name.text

/-- A generic parameter: its name, unless it is a lifetime. -/
def genericParam (g : Grammar) : Reader (Option String) := do
  discard (outerAttributes g)
  if ← look atLifetime then
    lifetimeParam
    return none
  else if ← look atIdent then return some (← typeParam g)
  else if ← look (atWord "const") then return some (← constParam g)
  else fail

/-- A generic parameter of a declaration, where `_` may stand for a name. -/
def declaredParam (g : Grammar) : Reader (Option String) := do
  discard (outerAttributes g)
  if ← look (atWord "_") then return some (← anyWord).text else genericParam g

def generics (g : Grammar) : Reader Generics := do
  if !(← look (atPunct "<")) then return ⟨[], false⟩
  let (found, _) ← captured do
    let found ← silent do
      punct "<"
      let found ← terminatedPairs atAngleEnd "," (captured (declaredParam g))
      punct ">"
      return found
    if !found.isEmpty then
      emit [.punct '<' false .first .first]
      emit (lifetimesFirst
        (found.map fun ((name, tokens), followed) => ⟨tokens, name.isNone, followed⟩))
      emit [.punct '>' false .first .first]
    return found
  return ⟨found.filterMap fun ((name, _), _) => name, true⟩

/-- Lifetimes that a bound or a function type introduces. -/
def boundLifetimes (g : Grammar) : Reader Unit := do
  word "for"
  punct "<"
  discard (terminated atAngleEnd "," (genericParam g))
  punct ">"

def returnType (g : Grammar) (plus : Bool) : Reader (Option (TypeExpr × Pos)) := do
  if ← punct? "->" then
    let pos ← here
    return some ((← g (.type plus)).type, pos)
  else return none

/-- Argument types of a callable trait and its result. -/
def callArguments (g : Grammar) : Reader Unit := do
  parens (discard (commaList g.type))
  discard (returnType g false)

/-- The lifetimes and parameters that `use<...>` captures. -/
def capture : Reader Unit := do
  word "use"
  punct "<"
  let found ← silent (terminatedPairs atAngleEnd "," (captured do
    if ← look atLifetime then
      discard lifetime
      return true
    else
      discard (identOr ["Self"])
      return false))
  emit (lifetimesFirst
    (found.map fun ((lifetime, tokens), followed) => ⟨tokens, lifetime, followed⟩))
  punct ">"

/-- What a list of bounds asks of each: the places where `use<...>` and constant traits may
stand. -/
structure BoundRule where
  captures : Bool
  constants : Bool

/-- The trait of a bound, behind its parenthesis if it has one; the answer tells whether it is a
constant trait, which is printed as written. An optional trait introduces no lifetimes. -/
def traitBound (g : Grammar) (rule : BoundRule) : Reader Bool := do
  let ((), lifetimes) ← silent (captured do
    if ← look (atWord "for") then boundLifetimes g)
  let start ← here
  let constant ←
    if ← look atBracket then
      brackets (word "const")
      pure true
    else word? "const"
  if constant && !rule.constants then failAt start
  let optional ← here
  let modified ← punct? "?"
  let late ← if modified && lifetimes.isEmpty then look (atWord "for") else pure false
  if late then boundLifetimes g
  emit lifetimes
  let found ← path g false
  if found.lastArguments.isEmpty then
    if ← look atParen then callArguments g
    else if ← look fun ahead => atPunct "::" ahead && third atParen ahead then
      silent (punct "::")
      callArguments g
  if modified && (late || !lifetimes.isEmpty) then failAt optional
  return constant

/-- What kind of bound was read. -/
inductive BoundKind where
  | lifetime
  | capture
  | trait
  deriving DecidableEq

def boundBy (g : Grammar) (rule : BoundRule) : Reader BoundKind := do
  let start ← here
  if ← look atLifetime then
    discard lifetime
    return .lifetime
  else if ← look (atWord "use") then
    capture
    if rule.captures then return .capture else failAt start
  else
    discard (keepRaw id do
      if ← look atParen then parens (traitBound g rule) else traitBound g rule)
    return .trait

/-- A bound where constant traits may stand and captures may not. -/
def bound (g : Grammar) : Reader Unit := discard (boundBy g ⟨false, true⟩)

/-- Whether a bound may begin here. -/
def atBound (rule : BoundRule) (ahead : List Token) : Bool :=
  atAnyWord ahead || atPunct "::" ahead || atPunct "?" ahead || atLifetime ahead ||
    atParen ahead || (rule.constants && atBracket ahead)

/-- Bounds joined by `+`, where `plus` allows more than one; a last `+` may dangle. -/
def bounds (g : Grammar) (plus : Bool) (rule : BoundRule) : Reader (List BoundKind) := do
  let found ← collect do
    let kind ← boundBy g rule
    if !plus then return some (kind, false)
    if ← punct? "+" then return some (kind, ← look (atBound rule))
    else return some (kind, false)
  return found.map Prod.fst

/-- Whether an angle bracket opens generic parameters rather than a qualified path. -/
def atGenerics (ahead : List Token) : Bool :=
  atPunct "<" ahead &&
    (second (atPunct ">") ahead || second (atPunct "#") ahead ||
      (second atLifetime ahead || second atIdent ahead) &&
        (third (atPunct ">") ahead || third (atPunct ",") ahead ||
          (third (atPunct ":") ahead && !third (atPunct "::") ahead) ||
          third (atPunct "=") ahead) ||
      second (atWord "const") ahead)

/-- A colon that is no part of a `::`. -/
def atColon (ahead : List Token) : Bool := atPunct ":" ahead && !atPunct "::" ahead

/-- Where a `where` clause and the bounds in it end. -/
def atClauseEnd (ahead : List Token) : Bool :=
  atEnd ahead || atBrace ahead || atPunct "," ahead || atPunct ";" ahead || atColon ahead ||
    atPunct "=" ahead

def wherePredicate (g : Grammar) : Reader Unit := do
  if ← look fun ahead => atLifetime ahead && second (atPunct ":") ahead then
    discard lifetime
    punct ":"
    discard (joined (fun ahead => atClauseEnd ahead || atPunct ":" ahead) "+" lifetime)
  else
    if ← look (atWord "for") then boundLifetimes g
    discard g.type
    punct ":"
    discard (joined atClauseEnd "+" (bound g))

/-- A `where` clause, if there is one; without predicates it is not printed. -/
def whereClause (g : Grammar) : Reader Bool := do
  if !(← look (atWord "where")) then return false
  let (predicates, tokens) ← silent (captured do
    word "where"
    if ← look atGenerics then fail
    joined atClauseEnd "," (wherePredicate g))
  if !predicates.isEmpty then emit tokens
  return true

end StructInventory.Grammar
