import StructInventory.TypeExpr
import StructInventory.Token.Print
import StructInventory.Text.Respacing

/-!
Type descriptors. A descriptor keeps enough of a written type to answer whether it is a named type
or a pointer to one, and prints back to the spelling of the source. What has no structure of
interest is kept as its text.
-/

namespace StructInventory

inductive PointerKind where
  | ref
  | refMut
  | constPtr
  | mutPtr
  | box
  | rc
  | arc
  deriving DecidableEq, Repr

/-- The pointer that a generic type of this name is. -/
def PointerKind.ofWrapper? (name : String) : Option PointerKind :=
  if name = "Box" then some .box
  else if name = "Rc" then some .rc
  else if name = "Arc" then some .arc
  else none

inductive TypeDesc where
  /-- A path; a leading `::` is an empty first segment. -/
  | named (path : List String) (args : List TypeDesc)
  /-- A generic parameter of the declaration around it. -/
  | param (name : String)
  | pointer (kind : PointerKind) (lifetime : Option String) (target : TypeDesc)
  | slice (item : TypeDesc)
  | array (item : TypeDesc) (length : String)
  | tuple (items : List TypeDesc)
  | shown (text : String)
  deriving Repr, Inhabited

/-- The names that a type may refer to beside declared types: generic parameters, and what `Self`
stands for. -/
structure TypeScope where
  params : List String := []
  selfName : Option String := none

namespace TypeDesc

/-- A type that is described by its tokens. -/
def ofTokens (tokens : List Token) : TypeDesc := .shown (Text.respace (Token.print tokens))

def isLifetime : TypeDesc → Bool
  | shown text => text.toList.head? = some '\''
  | _ => false

/-- The pointer that a path with one argument may be, by its last name. -/
def wrapped? (path : List String) (args : List TypeDesc) : Option TypeDesc :=
  match path.getLast?.bind PointerKind.ofWrapper?, args with
  | some kind, [target] => if target.isLifetime then none else some (.pointer kind none target)
  | _, _ => none

/-- A name by itself: a parameter, `Self`, or else a declared type. -/
def ofName (scope : TypeScope) (name : String) : TypeDesc :=
  if scope.params.contains name then .param name
  else if name = "Self" then .named [scope.selfName.getD name] []
  else .named [name] []

def ofPath (scope : TypeScope) (path : List String) (args : List TypeDesc) : TypeDesc :=
  match path, args with
  | [name], [] => ofName scope name
  | _, _ => (wrapped? path args).getD (.named path args)

mutual

/-- The descriptor of a written type. -/
def ofExpr (scope : TypeScope) : TypeExpr → TypeDesc
  | .named path arguments _ => ofPath scope path (ofArguments scope arguments)
  | .reference lifetime mutable target =>
    .pointer (if mutable then .refMut else .ref) lifetime (ofExpr scope target)
  | .pointer mutable target =>
    .pointer (if mutable then .mutPtr else .constPtr) none (ofExpr scope target)
  | .slice item => .slice (ofExpr scope item)
  | .array item length => .array (ofExpr scope item) (Text.respace (Token.print length))
  | .tuple items => .tuple (ofExprs scope items)
  | .paren inner => ofExpr scope inner
  | .never => .shown "!"
  | .function tokens | .other tokens => ofTokens tokens

def ofExprs (scope : TypeScope) : List TypeExpr → List TypeDesc
  | [] => []
  | type :: rest => ofExpr scope type :: ofExprs scope rest

def ofArgument (scope : TypeScope) : TypeArgument → TypeDesc
  | .lifetime name => .shown name
  | .type written => ofExpr scope written
  | .other tokens => ofTokens tokens

def ofArguments (scope : TypeScope) : List TypeArgument → List TypeDesc
  | [] => []
  | argument :: rest => ofArgument scope argument :: ofArguments scope rest

end

/-- What stands before a pointer's target and behind it. -/
def pointerFrame (kind : PointerKind) (lifetime : Option String) : String × String :=
  let lived := lifetime.elim "&" fun name => "&" ++ name ++ " "
  match kind with
  | .ref => (lived, "")
  | .refMut => (lived ++ "mut ", "")
  | .constPtr => ("*const ", "")
  | .mutPtr => ("*mut ", "")
  | .box => ("Box<", ">")
  | .rc => ("Rc<", ">")
  | .arc => ("Arc<", ">")

mutual

/-- The spelling of a type. -/
def text : TypeDesc → String
  | named path [] => String.intercalate "::" path
  | named path (first :: rest) =>
    String.intercalate "::" path ++ "<" ++ text first ++ textOfRest rest ++ ">"
  | param name | shown name => name
  | pointer kind lifetime target =>
    let (before, behind) := pointerFrame kind lifetime
    before ++ text target ++ behind
  | slice item => "[" ++ text item ++ "]"
  | array item length => "[" ++ text item ++ "; " ++ length ++ "]"
  | tuple [] => "()"
  | tuple [item] => "(" ++ text item ++ ",)"
  | tuple (first :: rest) => "(" ++ text first ++ textOfRest rest ++ ")"

/-- The members of a list behind its first one. -/
def textOfRest : List TypeDesc → String
  | [] => ""
  | item :: rest => ", " ++ text item ++ textOfRest rest

end

/-- The type behind at most one pointer. -/
def derefOnce : TypeDesc → TypeDesc
  | pointer _ _ target => target
  | type => type

/-- The name under which a type is looked up in its own package. -/
def localName? : TypeDesc → Option String
  | named [name] _ => some name
  | named ["self", name] _ => some name
  | _ => none

end TypeDesc

end StructInventory
