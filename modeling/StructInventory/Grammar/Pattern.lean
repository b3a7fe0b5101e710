import StructInventory.Grammar.Type

/-!
Patterns.
-/

namespace StructInventory.Grammar

open Reader

/-- The range operators of patterns, of which `...` is an old spelling, printed as the new one; the
answer tells whether an upper bound has to follow. -/
def patternDots : Reader Bool := do
  if ← look (atPunct "..=") then
    punct "..="
    return true
  else if ← look (atPunct "...") then
    silent (punct "...")
    let mark (c : Char) (joint : Bool) := Token.punct c joint .first .first
    emit [mark '.' true, mark '.' true, mark '=' false]
    return true
  else
    punct ".."
    return false

def atNoBound (ahead : List Token) : Bool :=
  atEnd ahead || atPunct "|" ahead || atPunct "=" ahead || atColon ahead || atPunct "," ahead ||
    atPunct ";" ahead || atWord "if" ahead

/-- A bound of a range, if one comes; it is a literal, a path or a constant block. -/
def rangeBound (g : Grammar) : Reader Bool := do
  if ← look atNoBound then return false
  if ← look atLiteral then discard literal
  else if ← look atPath then discard (qualifiedPath g true)
  else if ← look (atWord "const") then
    word "const"
    innerBlock g
  else fail
  return true

/-- The upper end of a range behind its lower bound. -/
def rangeEnd (g : Grammar) : Reader PatternForm := do
  let pos ← here
  let closed ← patternDots
  if ← rangeBound g then return .other
  if closed then fail
  return .openRange pos

/-- A range without a lower bound, or the dots that stand for the rest. -/
def leadingRange (g : Grammar) : Reader PatternForm := do
  let pos ← here
  let closed ← if ← look (atPunct "..=") then do
      punct "..="
      pure true
    else do
      punct ".."
      pure false
  if ← rangeBound g then return .openRange pos
  if closed then fail
  return .other

/-- A bar between alternatives. -/
def atBar (ahead : List Token) : Bool :=
  atPunct "|" ahead && !atPunct "||" ahead && !atPunct "|=" ahead

/-- Alternatives, which may begin with a bar. -/
def alternatives (g : Grammar) : Reader PatternForm := do
  let led ← punct? "|"
  let first ← g.pattern
  let more ← upTo (!atBar ·) do
    punct "|"
    g.pattern
  return if led || !more.isEmpty then .other else first

/-- A field's name or, for a tuple, its index; the answer tells which. -/
def atIndex : List Token → Bool
  | .literal text _ _ :: _ => isNumber text
  | _ => false

/-- The value of an integer literal without a type suffix. -/
def indexValue? (text : List Char) : Option Nat :=
  let digits (base : Nat) (cs : List Char) : Option Nat :=
    cs.foldlM (fun n c =>
      if c = '_' then some n
      else match Text.hexDigit? c with
        | some d => if d < base then some (n * base + d) else none
        | none => none) 0
  match text with
  | '0' :: 'x' :: rest => digits 16 rest
  | '0' :: 'o' :: rest => digits 8 rest
  | '0' :: 'b' :: rest => digits 2 rest
  | _ => digits 10 text

/-- An index is printed as a plain number. -/
def index : Reader Unit :=
  next fun
    | .literal text start stop => do
      let n ← indexValue? text.toList
      if n < 0x100000000 then
        some ((), [.literal (String.ofList (Nat.toDigits 10 n)) start stop])
      else none
    | _ => none

/-- A field by name or index; the answer tells whether it has a name. -/
def member : Reader Bool := do
  if ← look atIdent then
    discard ident
    return true
  else if ← look atIndex then
    index
    return false
  else fail

/-- A field of a pattern; the answer tells whether it is boxed, and then kept as it is written. -/
def fieldPattern (g : Grammar) : Reader Bool := do
  let boxed ← word? "box"
  let byRef ← word? "ref"
  let mutable ← word? "mut"
  let modified := boxed || byRef || mutable
  let named ← if modified then do
      discard ident
      pure true
    else member
  if !modified && (← look (atPunct ":")) || !named then
    punct ":"
    discard (alternatives g)
    return false
  else return boxed

def structPattern (g : Grammar) : Reader Unit :=
  braces do
    let _ ← iterate (fun () => do
      if ← look atEnd then return none
      discard (outerAttributes g)
      if ← look (atPunct "..") then
        punct ".."
        return none
      discard (keepRaw id (fieldPattern g))
      if ← look atEnd then return none
      punct ","
      return some ()) ()

def tuplePattern (g : Grammar) : Reader Unit := parens (discard (commaList (alternatives g)))

/-- A range that lacks a bound needs parentheses inside brackets. -/
def slicePattern (g : Grammar) : Reader Unit :=
  brackets (discard (commaList do
    match ← alternatives g with
    | .openRange pos => failAt pos
    | _ => return))

def identPattern (g : Grammar) : Reader PatternForm := do
  discard (word? "ref")
  discard (word? "mut")
  let name ← identOr ["self"]
  if ← punct? "@" then discard g.pattern
  return .ident name

/-- A macro call behind its path. -/
def atCall (ahead : List Token) : Bool := atPunct "!" ahead && !atPunct "!=" ahead

def pathPattern (g : Grammar) : Reader PatternForm := do
  let found ← qualifiedPath g true
  if found.any Path.plain && (← look atCall) then
    punct "!"
    discard rawGroup
    return .other
  if ← look atBrace then
    structPattern g
    return .other
  else if ← look atParen then
    tuplePattern g
    return .other
  else if ← look (atPunct "..") then rangeEnd g
  else return .other

def atPathPattern (ahead : List Token) : Bool :=
  (atIdent ahead && (second (atPunct "::") ahead || second (atPunct "!") ahead ||
      second atBrace ahead || second atParen ahead || second (atPunct "..") ahead)) ||
    (atWord "self" ahead && second (atPunct "::") ahead) ||
    atPunct "::" ahead || atPunct "<" ahead || atWord "Self" ahead || atWord "super" ahead ||
    atWord "crate" ahead

def singlePattern (g : Grammar) : Reader PatternForm := do
  if ← look atPathPattern then pathPattern g
  else if ← look (atWord "_") then
    discard anyWord
    return .wild
  else if ← look (atWord "box") then
    rawly do
      word "box"
      discard g.pattern
    return .other
  else if ← look fun ahead => atPunct "-" ahead || atLiteral ahead || atWord "const" ahead then
    if !(← rangeBound g) then fail
    if ← look (atPunct "..") then rangeEnd g else return .other
  else if ← look fun ahead => atWord "ref" ahead || atWord "mut" ahead || atWord "self" ahead ||
      atIdent ahead then
    identPattern g
  else if ← look (atPunct "&") then
    punct "&"
    discard (word? "mut")
    discard g.pattern
    return .other
  else if ← look atParen then
    tuplePattern g
    return .other
  else if ← look atBracket then
    slicePattern g
    return .other
  else if ← look fun ahead => atPunct ".." ahead && !atPunct "..." ahead then leadingRange g
  else fail

end StructInventory.Grammar
