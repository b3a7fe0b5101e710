import StructInventory.Grammar.Bound

/-!
Visibility, and the fields of structs and variants. Each field ends a declaration, and the brace
before named fields is a place that no comment reaches across.
-/

namespace StructInventory.Grammar

open Reader

/-- `start` is where `pub` stands, if it does; only a `pub` without a restriction exports. -/
structure Visibility where
  start : Option Pos
  exported : Bool

namespace Visibility

def inherited (visibility : Visibility) : Bool := visibility.start.isNone

/-- Where a declaration begins whose keyword stands at `keyword`. -/
def declStart (visibility : Visibility) (keyword : Pos) : Pos := visibility.start.getD keyword

end Visibility

/-- What follows `pub` in parentheses. Parentheses that hold anything else belong to a type. -/
def restriction? : Reader Bool := do
  let restricts (inside : List Token) : Bool :=
    (atWord "crate" inside || atWord "self" inside || atWord "super" inside) && inside.length = 1
  match (← cursor).rest with
  | .group .paren inside _ _ _ :: _ =>
    if restricts inside then
      parens (discard anyWord)
      return true
    else if atWord "in" inside then
      parens do
        word "in"
        discard plainPath
      return true
    else return false
  | _ => return false

def visibility : Reader Visibility := do
  let start ← here
  if ← word? "pub" then return ⟨some start, !(← restriction?)⟩
  else return ⟨none, false⟩

/-- A list of fields in the place of a type. -/
def atInlineFields (ahead : List Token) : Bool :=
  atWord "struct" ahead || (atWord "union" ahead && second atBrace ahead)

/-- The type of a field without a name, which may be a list of fields, kept as it is written. -/
def inlineType (g : Grammar) : Reader TypeExpr := do
  let ((), tokens) ← captured (rawly do
    discard anyWord
    discard (g .fields))
  return .other tokens

def namedField (g : Grammar) : DeclReader FieldDecl :=
  ended do
    let conditions ← outerAttributes g
    let shown ← visibility
    let start ← here
    let blank ← look (atWord "_")
    let found ← if blank then anyWord else ident
    punct ":"
    let type ←
      if blank && (← look atInlineFields) then inlineType g else TypeReading.type <$> g.type
    return ⟨some found.name, type, shown.exported, shown.declStart start, conditions⟩

def namedFields (g : Grammar) : Reader (List FieldDecl) := body (commaList (namedField g))

def tupleField (g : Grammar) : DeclReader FieldDecl :=
  ended do
    let conditions ← outerAttributes g
    let shown ← visibility
    let start ← here
    let type := (← g.type).type
    return ⟨none, type, shown.exported, shown.declStart start, conditions⟩

def tupleFields (g : Grammar) : DeclReader (List FieldDecl) := parens (commaList (tupleField g))

end StructInventory.Grammar
