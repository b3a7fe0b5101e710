import StructInventory.Grammar.Pattern

/-!
Expressions. A reader answers what the grammar asks of the expression; the expression itself is
kept as the tokens it prints.
-/

namespace StructInventory.Grammar

open Reader

/-! ### Operators -/

/-- Binary operators, longer spellings before those they begin with. -/
def binaryOperators : List (String × Precedence) :=
  [("+=", .assign), ("-=", .assign), ("*=", .assign), ("/=", .assign), ("%=", .assign),
    ("^=", .assign), ("&=", .assign), ("|=", .assign), ("<<=", .assign), (">>=", .assign),
    ("&&", .and), ("||", .or), ("<<", .shift), (">>", .shift), ("==", .compare), ("<=", .compare),
    ("!=", .compare), (">=", .compare), ("+", .sum), ("-", .sum), ("*", .product),
    ("/", .product), ("%", .product), ("^", .bitXor), ("&", .bitAnd), ("|", .bitOr),
    ("<", .compare), (">", .compare)]

def binaryOperator? (ahead : List Token) : Option (String × Precedence) :=
  binaryOperators.find? fun (marks, _) => atPunct marks ahead

def atAssign (ahead : List Token) : Bool := atPunct "=" ahead && !atPunct "=>" ahead

/-- How tightly what comes next binds; what is no operator binds loosest. -/
def nextPrecedence (ahead : List Token) : Precedence :=
  match binaryOperator? ahead with
  | some (_, precedence) => precedence
  | none =>
    if atAssign ahead then .assign
    else if atPunct ".." ahead then .range
    else if atWord "as" ahead then .cast
    else .loosest

/-- The right operand of an operator, with the tighter operators behind it. -/
def rightOperand (g : Grammar) (structs : Bool) (precedence : Precedence) : Reader ExprForm := do
  let first ← g (.unary structs)
  iterate (fun form => do
    let next := nextPrecedence (← cursor).rest
    if precedence.rank < next.rank || (next = precedence && precedence = .assign) then
      let before := (← cursor).rest.length
      let form' ← g (.operators form structs next)
      if (← cursor).rest.length = before then return none else return some form'
    else return none) first

/-- Places where a range has no upper end. -/
def atRangeEnd (structs : Bool) (ahead : List Token) : Bool :=
  atEnd ahead || atPunct "," ahead || atPunct ";" ahead ||
    (atPunct "." ahead && !atPunct ".." ahead) || atPunct "?" ahead || atPunct "=>" ahead ||
    (!structs && atBrace ahead) || atPunct "=" ahead || atPunct "+" ahead || atPunct "/" ahead ||
    atPunct "%" ahead || atPunct "^" ahead || atPunct ">" ahead || atPunct "<=" ahead ||
    atPunct "!=" ahead || atPunct "-=" ahead || atPunct "*=" ahead || atPunct "&=" ahead ||
    atPunct "|=" ahead || atPunct "<<=" ahead || atWord "as" ahead

/-- The dots of a range and its upper end; a closed range needs one. -/
def rangeTail (g : Grammar) (structs : Bool) : Reader Unit := do
  if ← look (atPunct "..=") then
    punct "..="
    discard (rightOperand g structs .range)
  else if ← look (atPunct "...") then fail
  else
    punct ".."
    if !(← look (atRangeEnd structs)) then discard (rightOperand g structs .range)

/-- A cast may not be followed by what would bind to its type. -/
def atCastTrailer (ahead : List Token) : Bool :=
  (atPunct "." ahead && !atPunct ".." ahead) || atPunct "?" ahead || atBracket ahead ||
    atParen ahead

/-- One more operator behind `left`, if one that binds at least as `base` comes. -/
def operatorStep (g : Grammar) (structs : Bool) (base : Precedence) (left : ExprForm) :
    Reader (Option ExprForm) := do
  if left = .range then return none
  match binaryOperator? (← cursor).rest with
  | some (marks, precedence) =>
    if precedence.rank < base.rank then return none
    if precedence = .compare && left = .comparison then fail
    punct marks
    discard (rightOperand g structs precedence)
    return some (if precedence = .compare then .comparison else .other)
  | none =>
    if base.rank ≤ Precedence.assign.rank && (← look atAssign) then
      punct "="
      discard (rightOperand g structs .assign)
      return some .other
    else if base.rank ≤ Precedence.range.rank && (← look (atPunct "..")) then
      rangeTail g structs
      return some .range
    else if ← look (atWord "as") then
      word "as"
      discard g.tightType
      if ← look atCastTrailer then fail
      return some .other
    else return none

def operators (g : Grammar) (left : ExprForm) (structs : Bool) (base : Precedence) :
    Reader ExprForm :=
  iterate (operatorStep g structs base) left

def wholeExpr (g : Grammar) (structs : Bool) : Reader ExprForm := do
  let left ← g (.unary structs)
  g (.operators left structs .loosest)

/-! ### Trailers -/

/-- The parts of a number between its dots, as indices; a last dot is left to the caller. -/
def indexParts? (text : String) : Option (List Nat × Bool) :=
  let chars := text.toList
  let dangling := chars.getLast? = some '.'
  let body := if dangling then chars.dropLast else chars
  let index? (part : List Char) : Option Nat :=
    if part.isEmpty then none else (indexValue? part).filter (· < 0x100000000)
  ((Text.splitAt '.' body).mapM index?).map (·, dangling)

def isFloat (text : String) : Bool :=
  isNumber text && match text.toList with
    | '0' :: 'x' :: _ | '0' :: 'o' :: _ | '0' :: 'b' :: _ => false
    | chars => chars.any fun c => c = '.' || c = 'e' || c = 'E'

def atFloat : Test
  | .literal text _ _ :: _ => isFloat text
  | _ => false

/-- Two indices in a row look like one number; answers whether the member is complete. -/
def floatMember : Reader Bool := do
  if !(← look atFloat) then return false
  else next fun
    | .literal text start stop => do
      let (parts, dangling) ← indexParts? text
      let dot := Token.punct '.' false start stop
      let number (n : Nat) := Token.literal (String.ofList (Nat.toDigits 10 n)) start stop
      let shown := (parts.map number).intersperse dot
      return (!dangling, if dangling then shown ++ [dot] else shown)
    | _ => none

def arguments (g : Grammar) : Reader Unit := parens (discard (commaList g.expr))

/-- What follows a dot: an index, `await`, a field or a method call. -/
def memberAccess (g : Grammar) : Reader Unit := do
  punct "."
  if ← floatMember then return
  if ← word? "await" then return
  let named ← member
  let turbofish ← if named && (← look (atPunct "::")) then do
      punct "::"
      discard (angleArguments g)
      pure true
    else pure false
  if named && (turbofish || (← look atParen)) then arguments g

/-- Calls, members, indices and question marks behind an expression. -/
def trailers (g : Grammar) (form : ExprForm) : Reader ExprForm :=
  iterate (fun form => do
    if ← look atParen then
      arguments g
      return some .other
    else if form ≠ .range && (← look fun ahead => atPunct "." ahead && !atPunct ".." ahead) then
      memberAccess g
      return some .other
    else if ← look atBracket then
      brackets (discard g.expr)
      return some .other
    else if form ≠ .range && (← look (atPunct "?")) then
      punct "?"
      return some .other
    else return none) form

/-! ### Blocks and control flow -/

/-- A block without attributes of its own. -/
def block (g : Grammar) : Reader Unit := braces g.statements

def ifExpr (g : Grammar) : Reader Unit := do
  let _ ← iterate (fun () => do
    word "if"
    discard g.head
    block g
    if !(← word? "else") then return none
    if ← look (atWord "if") then return some ()
    if ← look atBrace then
      block g
      return none
    else fail) ()

def whileExpr (g : Grammar) : Reader Unit := do
  word "while"
  discard g.head
  innerBlock g

def forExpr (g : Grammar) : Reader Unit := do
  word "for"
  discard (alternatives g)
  word "in"
  discard g.head
  innerBlock g

def loopExpr (g : Grammar) : Reader Unit := do
  word "loop"
  innerBlock g

/-- The arms of a match. An arm that does not end in a block needs a comma before the next. -/
def matchArms (g : Grammar) : Reader Unit :=
  discard (toEnd do
    discard (outerAttributes g)
    discard (alternatives g)
    if ← word? "if" then discard g.expr
    punct "=>"
    let form ← g .bounded
    if form ≠ .block && !(← look atEnd) then punct "," else discard (punct? ","))

def matchExpr (g : Grammar) : Reader Unit := do
  word "match"
  discard g.head
  braces do
    discard (innerAttributes g)
    matchArms g

/-- A loop or block behind its label. -/
def labeledExpr (g : Grammar) : Reader Unit := do
  discard lifetime
  punct ":"
  if ← look (atWord "while") then whileExpr g
  else if ← look (atWord "for") then forExpr g
  else if ← look (atWord "loop") then loopExpr g
  else if ← look atBrace then innerBlock g
  else fail

/-- A `for` that introduces generic parameters and no loop. -/
def atBinder (ahead : List Token) : Bool := atWord "for" ahead && second atGenerics ahead

/-- Expressions that end in a block, as far as a statement may begin with them. -/
def blockExpr? (g : Grammar) : Reader Bool := do
  if ← look (atWord "if") then ifExpr g
  else if ← look (atWord "while") then whileExpr g
  else if ← look fun ahead => atWord "for" ahead && !atBinder ahead then forExpr g
  else if ← look (atWord "loop") then loopExpr g
  else if ← look (atWord "match") then matchExpr g
  else if ← look fun ahead => atWord "try" ahead && second atBrace ahead then
    word "try"
    block g
  else if ← look (atWord "unsafe") then
    word "unsafe"
    innerBlock g
  else if ← look fun ahead => atWord "const" ahead && second atBrace ahead then
    word "const"
    innerBlock g
  else if ← look atBrace then innerBlock g
  else if ← look atLifetime then labeledExpr g
  else return false
  return true

/-- An expression as a statement or match arm begins with it: what ends in a block is complete
unless a member or a question mark follows. -/
def boundedExpr (g : Grammar) : Reader ExprForm := do
  discard (outerAttributes g)
  if ← blockExpr? g then
    if ← look fun ahead => (atPunct "." ahead && !atPunct ".." ahead) || atPunct "?" ahead then
      let form ← trailers g .block
      g (.operators form true .loosest)
    else return .block
  else
    let form ← g (.unary true)
    g (.operators form true .loosest)

/-! ### Atoms -/

/-- Whether an expression may begin here. -/
def atExpr (ahead : List Token) : Bool :=
  (atAnyWord ahead && !atWord "as" ahead) || atParen ahead || atBracket ahead || atBrace ahead ||
    atLiteral ahead || (atPunct "!" ahead && !atPunct "!=" ahead) ||
    (atPunct "-" ahead && !atPunct "-=" ahead && !atPunct "->" ahead) ||
    (atPunct "*" ahead && !atPunct "*=" ahead) || (atPunct "|" ahead && !atPunct "|=" ahead) ||
    (atPunct "&" ahead && !atPunct "&=" ahead) || atPunct ".." ahead ||
    (atPunct "<" ahead && !atPunct "<=" ahead && !atPunct "<<=" ahead) || atPunct "::" ahead ||
    atLifetime ahead || atPunct "#" ahead

/-- The value that a jump carries, if it does. -/
def jumpValue (g : Grammar) : Reader Unit := do
  if ← look atExpr then discard g.expr

def breakExpr (g : Grammar) (structs : Bool) : Reader Unit := do
  word "break"
  let start ← here
  if ← look fun ahead => atLifetime ahead && second (atPunct ":") ahead then
    discard g.expr
    failAt start
  discard lifetime?
  if ← look fun ahead => atExpr ahead && (structs || !atBrace ahead) then
    discard (g (.expr structs))

def closureParam (g : Grammar) : Reader Unit := do
  discard (outerAttributes g)
  discard g.pattern
  if ← punct? ":" then discard g.type

def closureExpr (g : Grammar) (structs : Bool) : Reader Unit := do
  if ← look (atWord "for") then boundLifetimes g
  discard (word? "const")
  discard (word? "static")
  discard (word? "async")
  discard (word? "move")
  punct "|"
  discard (terminated (atPunct "|") "," (closureParam g))
  punct "|"
  if ← punct? "->" then
    discard g.type
    block g
  else discard (g (.expr structs))

def atClosure (ahead : List Token) : Bool :=
  atPunct "|" ahead || atWord "move" ahead || atBinder ahead ||
    (atWord "const" ahead && !second atBrace ahead) || atWord "static" ahead ||
    (atWord "async" ahead && (second (atPunct "|") ahead || second (atWord "move") ahead))

def fieldValue (g : Grammar) : Reader Unit := do
  discard (outerAttributes g)
  let named ← member
  if !named || (← look (atPunct ":")) then
    punct ":"
    discard g.expr

def structExpr (g : Grammar) : Reader Unit :=
  braces do
    let _ ← iterate (fun () => do
      if ← look atEnd then return none
      if ← look (atPunct "..") then
        punct ".."
        if !(← look atEnd) then discard g.expr
        return none
      fieldValue g
      if ← look atEnd then return none
      punct ","
      return some ()) ()

/-- A path, and the macro call or struct literal that it may begin. -/
def pathExpr (g : Grammar) (structs : Bool) : Reader ExprForm := do
  let found ← qualifiedPath g true
  if found.any Path.plain && (← look atCall) then
    punct "!"
    let (delimiter, _) ← rawGroup
    return if delimiter = .brace then .bracedCall else .other
  if structs && (← look atBrace) then structExpr g
  return .other

def atPathExpr (ahead : List Token) : Bool :=
  atPath ahead ||
    (atWord "try" ahead && (second (atPunct "!") ahead || second (atPunct "::") ahead))

/-- An expression in parentheses, or a tuple. -/
def parenExpr (g : Grammar) : Reader Unit := parens (discard (commaList g.expr))

/-- The items of an array, or one item and a count. -/
def arrayExpr (g : Grammar) : Reader Unit :=
  brackets do
    if ← look atEnd then return
    discard g.expr
    if ← look fun ahead => atEnd ahead || atPunct "," ahead then
      if ← punct? "," then discard (commaList g.expr)
    else if ← punct? ";" then discard g.expr
    else fail

def letExpr (g : Grammar) (structs : Bool) : Reader Unit := do
  word "let"
  discard (alternatives g)
  punct "="
  let left ← g (.unary structs)
  discard (g (.operators left structs .compare))

/-- A form whose tokens are kept as they are. -/
def builtinExpr : Reader Unit :=
  rawly do
    word "builtin"
    punct "#"
    discard ident
    parens rawRest

def becomeExpr (g : Grammar) : Reader Unit :=
  rawly do
    word "become"
    discard g.expr

/-- An expression without operators and trailers. -/
def atom (g : Grammar) (structs : Bool) : Reader ExprForm := do
  if ← look atLiteral then return .literal (← literal)
  else if ← look fun ahead => atWord "async" ahead && (second atBrace ahead ||
      second (atWord "move") ahead && third atBrace ahead) then
    word "async"
    discard (word? "move")
    block g
    return .other
  else if ← look fun ahead => atWord "try" ahead && second atBrace ahead then
    word "try"
    block g
    return .block
  else if ← look atClosure then
    closureExpr g structs
    return .other
  else if ← look fun ahead => atWord "builtin" ahead && second (atPunct "#") ahead then
    builtinExpr
    return .other
  else if ← look atPathExpr then pathExpr g structs
  else if ← look atParen then
    parenExpr g
    return .other
  else if ← look (atWord "break") then
    breakExpr g structs
    return .other
  else if ← look (atWord "continue") then
    word "continue"
    discard lifetime?
    return .other
  else if ← look fun ahead => atWord "return" ahead || atWord "yield" ahead then
    discard anyWord
    jumpValue g
    return .other
  else if ← look (atWord "become") then
    becomeExpr g
    return .other
  else if ← look atBracket then
    arrayExpr g
    return .other
  else if ← look (atWord "let") then
    letExpr g structs
    return .other
  else if ← look (atPunct "..") then
    rangeTail g structs
    return .range
  else if ← look (atWord "_") then
    discard anyWord
    return .other
  else if ← blockExpr? g then return .block
  else fail

/-- An expression with its attributes, its signs in front and its trailers behind. -/
def unaryExpr (g : Grammar) (structs : Bool) : Reader ExprForm := do
  let start ← cursor
  discard (outerAttributes g)
  let attributed := (← cursor).rest.length < start.rest.length
  if ← look (atPunct "&") then
    punct "&"
    let raw ← look fun ahead => atWord "raw" ahead &&
      (second (atWord "mut") ahead || second (atWord "const") ahead)
    if raw then word "raw"
    let mutable ← word? "mut"
    if raw && !mutable then word "const"
    discard (g (.unary structs))
    return .other
  else if ← look fun ahead => atPunct "*" ahead || atPunct "!" ahead || atPunct "-" ahead then
    if ← look (atPunct "*") then punct "*"
    else if ← look (atPunct "!") then punct "!"
    else punct "-"
    discard (g (.unary structs))
    return .other
  else
    let dots ← here
    let form ← trailers g (← atom g structs)
    if attributed && form = .range then failAt dots
    return form

end StructInventory.Grammar
