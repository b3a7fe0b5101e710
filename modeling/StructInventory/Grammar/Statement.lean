import StructInventory.Grammar.Expr

/-!
Statements. A statement that begins like a declaration is one.
-/

namespace StructInventory.Grammar

open Reader

/-- What a path and an exclamation mark begin: a macro call that declares a name, or one that is a
statement by itself. -/
inductive CallStatement where
  | none
  | declares
  | stands
  deriving DecidableEq

/-- What the path ahead begins, if it begins a macro call; nothing is read. -/
def callStatement : Reader CallStatement :=
  foresee plainPath fun
    | .error _ => .none
    | .ok (_, after) =>
      let ahead := after.rest
      if !atPunct "!" ahead then .none
      else if second atIdent ahead || second (atWord "try") ahead then .declares
      else if second atBrace ahead &&
          !(third (atPunct ".") ahead && !third (atPunct "..") ahead || third (atPunct "?") ahead)
      then .stands
      else .none

/-- Whether a declaration begins here, macro calls apart. -/
def atDeclaration (ahead : List Token) : Bool :=
  atWord "pub" ahead || (atWord "crate" ahead && !second (atPunct "::") ahead) ||
    atWord "extern" ahead || atWord "use" ahead ||
    (atWord "static" ahead && (second (atWord "mut") ahead || second atIdent ahead)) ||
    (atWord "const" ahead && !(second atBrace ahead || second (atWord "static") ahead ||
      (second (atWord "async") ahead && !(third (atWord "unsafe") ahead ||
        third (atWord "extern") ahead || third (atWord "fn") ahead)) ||
      second (atWord "move") ahead || second (atPunct "|") ahead)) ||
    (atWord "unsafe" ahead && !second atBrace ahead) ||
    (atWord "async" ahead && (second (atWord "unsafe") ahead || second (atWord "extern") ahead ||
      second (atWord "fn") ahead)) ||
    atWord "fn" ahead || atWord "mod" ahead || atWord "type" ahead || atWord "struct" ahead ||
    atWord "enum" ahead || (atWord "union" ahead && second atIdent ahead) ||
    (atWord "auto" ahead && second (atWord "trait") ahead) || atWord "trait" ahead ||
    (atWord "default" ahead && (second (atWord "unsafe") ahead || second (atWord "impl") ahead)) ||
    atWord "impl" ahead || atWord "macro" ahead

/-- Whether the token printed last closes a brace. -/
def afterBrace : Reader Bool := return atBrace (← cursor).printed

def letStatement (g : Grammar) : Reader Unit := do
  word "let"
  discard g.pattern
  if ← punct? ":" then discard g.type
  if ← punct? "=" then
    discard g.expr
    if !(← afterBrace) && (← look (atWord "else")) then
      word "else"
      block g
  punct ";"

/-- An expression; the answer tells whether another statement may follow it directly. -/
def exprStatement (g : Grammar) : Reader Bool := do
  let form ← g .bounded
  return (← punct? ";") || form = .block || form = .bracedCall

def callAsStatement : Reader Unit := do
  discard plainPath
  punct "!"
  discard rawGroup
  discard (punct? ";")

inductive StatementKind where
  | call
  | binding
  | declaration
  | expr

/-- What kind of statement comes, as far as one can tell behind its attributes. -/
def statementKind (g : Grammar) : Reader StatementKind :=
  glance do
    discard (outerAttributes g)
    let call ← callStatement
    if call = .stands then return .call
    else if ← look (atWord "let") then return .binding
    else if call = .declares || (← look atDeclaration) then return .declaration
    else return .expr

/-- One statement; the answer tells whether another may follow it directly. -/
def statement (g : Grammar) : DeclReader Bool := do
  match ← statementKind g with
  | .declaration =>
    discard (g .item)
    return true
  | .call =>
    discard (outerAttributes g)
    callAsStatement
    return true
  | .binding =>
    discard (outerAttributes g)
    letStatement g
    return true
  | .expr =>
    discard (outerAttributes g)
    exprStatement g

/-- The statements of a block, among them empty ones. -/
def statementSequence (g : Grammar) : DeclReader Unit := do
  let _ ← iterate (fun () => do
    discard (upTo (!atPunct ";" ·) (punct ";"))
    if ← look atEnd then return none
    let closed ← statement g
    if ← look atEnd then return none
    if closed then return some () else fail) ()

end StructInventory.Grammar
