import StructInventory.Grammar.Attribute

/-!
Paths with generic arguments, and the order in which such arguments are printed.
-/

namespace StructInventory.Grammar

open Reader

/-- `arguments` is nothing when the segment has no angle brackets. -/
structure Segment where
  name : String
  arguments : Option (List TypeArgument)

structure Path where
  leading : Bool
  segments : List Segment

namespace Path

/-- No segment has arguments. -/
def plain (path : Path) : Bool := path.segments.all (·.arguments.isNone)

/-- Only the last segment, if any, has arguments. -/
def plainStem (path : Path) : Bool := path.segments.dropLast.all (·.arguments.isNone)

def names (path : Path) : List String :=
  let names := path.segments.map Segment.name
  if path.leading then "" :: names else names

def lastArguments (path : Path) : List TypeArgument :=
  (path.segments.getLast?.bind Segment.arguments).getD []

def lone (path : Path) : Bool := !path.leading && path.segments.length = 1

end Path

/-- A comma that no source text wrote. -/
def comma : Token := .punct ',' false .first .first

/-- One member of a printed list: its tokens, whether it is a lifetime, and whether a comma follows
it in the source. -/
structure ListMember where
  tokens : List Token
  lifetime : Bool
  followed : Bool

/-- Prints members in order; `due` tells that a comma is due before the next one. -/
def printMembers (due : Bool) : List ListMember → List Token × Bool
  | [] => ([], due)
  | member :: rest =>
    let (tokens, final) := printMembers (!member.followed) rest
    ((if due then [comma] else []) ++ member.tokens ++ (if member.followed then [comma] else []) ++
      tokens, final)

/-- Lifetimes are printed before all other members. -/
def lifetimesFirst (members : List ListMember) : List Token :=
  let (lifetimes, due) := printMembers false (members.filter (·.lifetime))
  lifetimes ++ (printMembers due (members.filter (!·.lifetime))).1

/-- A block of statements with attributes of its own. -/
def innerBlock (g : Grammar) : Reader Unit :=
  braces do
    discard (innerAttributes g)
    g.statements

/-- An expression that may stand as a generic argument by itself. -/
def constArgument (g : Grammar) : Reader Unit := do
  if ← look atLiteral then discard literal
  else if ← look atIdent then discard ident
  else if ← look atBrace then innerBlock g
  else fail

/-- What a generic argument is, before its tokens are attached. -/
inductive ArgumentKind where
  | lifetime (name : String)
  | type (type : TypeExpr)
  | other

def ArgumentKind.isLifetime : ArgumentKind → Bool
  | lifetime _ => true
  | _ => false

def ArgumentKind.attach (tokens : List Token) : ArgumentKind → TypeArgument
  | .lifetime name => .lifetime name
  | .type written => .type written
  | .other => .other tokens

def argument (g : Grammar) : Reader ArgumentKind := do
  if ← look fun ahead => atLifetime ahead && !second (atPunct "+") ahead then
    return .lifetime (← lifetime)
  if ← look fun ahead => atLiteral ahead || atBrace ahead then
    constArgument g
    return .other
  let reading ← g.type
  if reading.head = .loneName then
    if ← punct? "=" then
      if ← look fun ahead => atLiteral ahead || atBrace ahead then constArgument g
      else discard g.type
      return .other
    if ← punct? ":" then
      discard (joined (fun ahead => atPunct "," ahead || atPunct ">" ahead) "+" (g .bound))
      return .other
  return .type reading.type

/-- Generic arguments between angle brackets. -/
def angleArguments (g : Grammar) : Reader (List TypeArgument) := do
  punct "<"
  let found ← silent
    (terminatedPairs (atPunct ">") "," (captured (argument g)))
  emit (lifetimesFirst
    (found.map fun ((kind, tokens), followed) => ⟨tokens, kind.isLifetime, followed⟩))
  punct ">"
  return found.map fun ((kind, tokens), _) => kind.attach tokens

/-- Segments that take no arguments. -/
def bareWords : List String := ["super", "self", "crate", "try"]

def atBareWord (ahead : List Token) : Bool := bareWords.any (atWord · ahead)

/-- An angle bracket that opens arguments directly behind a name. -/
def atArguments (ahead : List Token) : Bool :=
  atPunct "<" ahead && !atPunct "<=" ahead && !atPunct "<<=" ahead

/-- A segment of a path. In an expression (`inExpr`) arguments need a `::` before them. -/
def segment (g : Grammar) (inExpr : Bool) : Reader Segment := do
  if ← look atBareWord then return ⟨(← anyWord).text, none⟩
  let name ← identOr ["Self"]
  if ← look fun ahead => !inExpr && atArguments ahead ||
      atPunct "::" ahead && third (atPunct "<") ahead then
    discard (punct? "::")
    return ⟨name.text, some (← angleArguments g)⟩
  else return ⟨name.text, none⟩

/-- Segments that follow while `::` joins them; one before a parenthesis is left alone. -/
def moreSegments (g : Grammar) (inExpr : Bool) : Reader (List Segment) :=
  upTo (fun ahead => !(atPunct "::" ahead && !third atParen ahead)) do
    punct "::"
    segment g inExpr

def path (g : Grammar) (inExpr : Bool) : Reader Path := do
  let leading ← punct? "::"
  let first ← segment g inExpr
  return ⟨leading, first :: (← moreSegments g inExpr)⟩

/-- A path, or one that begins with a type in angle brackets; then the answer is `none`. -/
def qualifiedPath (g : Grammar) (inExpr : Bool) :
    Reader (Option Path) := do
  if ← look (atPunct "<") then
    punct "<"
    discard g.type
    if ← word? "as" then discard (path g false)
    punct ">"
    punct "::"
    discard (segment g inExpr)
    discard (upTo (!atPunct "::" ·) do
      punct "::"
      segment g inExpr)
    return none
  else return some (← path g inExpr)

end StructInventory.Grammar
