import StructInventory.Grammar.Item
import StructInventory.Token.Lexer

/-!
The grammar as a whole, and what it reads texts as. Phrases are tied together here: reading to a
depth bounded by the number of tokens, since every second level or so of nesting takes a token.
-/

namespace StructInventory

open Reader

namespace Grammar

/-- Reads phrases that nest at most `depth` deep. -/
def upToDepth : Nat → Grammar
  | 0 => fun _ => fail
  | depth + 1 => fun
    | .type plus => typeExpr (upToDepth depth) plus
    | .expr structs => wholeExpr (upToDepth depth) structs
    | .unary structs => unaryExpr (upToDepth depth) structs
    | .bounded => boundedExpr (upToDepth depth)
    | .operators left structs base => operators (upToDepth depth) left structs base
    | .pattern => singlePattern (upToDepth depth)
    | .statements => statementSequence (upToDepth depth)
    | .item => item (upToDepth depth)
    | .fields => namedFields (upToDepth depth)
    | .useTree rooted => useTree (upToDepth depth) rooted
    | .condition => condition (upToDepth depth)
    | .bound => bound (upToDepth depth)

/-- A grammar that reads every phrase among `tokens`: of the phrases that hold one another at most
eight begin at the same token. -/
def covering (tokens : List Token) : Grammar := upToDepth (8 * Token.count tokens + 16)

/-- What a file holds. -/
def file (g : Grammar) : DeclReader (List Condition × List Item) := do
  let conditions ← innerAttributes g
  return (conditions, ← toEnd (g .item))

/-- The conditions of a struct that stands alone. -/
def loneStruct (g : Grammar) : DeclReader (List Condition) := do
  let conditions ← outerAttributes g
  discard (structItem g conditions)
  return conditions

end Grammar

namespace TypeExpr

/-- The type that a text writes. -/
def read (text : String) : Except Pos TypeExpr := do
  let tokens ← Token.lex text
  let (reading, _) ← complete (Grammar.covering tokens).type tokens .first
  return reading.type

end TypeExpr

namespace Condition

/-- The conditions of the struct that a text declares. -/
def ofStruct (text : String) : Except Pos (List Condition) := do
  let tokens ← Token.lex text
  let (conditions, _) ← complete (Grammar.loneStruct (Grammar.covering tokens)) tokens .first
  return conditions

end Condition

namespace SourceFile

/-- Passes over blanks and plain comments. -/
def afterGap : Nat → List Char → List Char
  | 0, text => text
  | fuel + 1, text =>
    match Lexeme.comment? text with
    | some (.plain rest) => afterGap fuel rest
    | some _ => text
    | none =>
      match text with
      | c :: rest => if Lexeme.isGap c then afterGap fuel rest else text
      | [] => []

/-- Whether the text begins with a line that names its interpreter, and not with an attribute. -/
def hasInterpreterLine : List Char → Bool
  | '#' :: '!' :: rest => (afterGap rest.length rest).head? != some '['
  | _ => false

/-- The part of a text that the grammar reads: a byte order mark and an interpreter line are left
out, the line's end is not. -/
def body (text : String) : String :=
  let chars := match text.toList with
    | '\ufeff' :: rest => rest
    | chars => chars
  String.ofList (if hasInterpreterLine chars then chars.dropWhile (· != '\n') else chars)

/-- Adds a position to a sequence in reading order, unless it is there. -/
def insertPos (pos : Pos) : List Pos → List Pos
  | [] => [pos]
  | other :: rest =>
    if pos = other then other :: rest
    else if pos < other then pos :: other :: rest
    else other :: insertPos pos rest

def sortPositions (positions : List Pos) : List Pos := positions.foldr insertPos []

/-- The declarations of a text, or where it is no source file. -/
def read (text : String) : Except Pos SourceFile := do
  let tokens ← Token.lex (body text)
  let ((conditions, items), final) ← complete (Grammar.file (Grammar.covering tokens)) tokens .first
  return ⟨conditions, items, sortPositions final.marks⟩

end SourceFile

end StructInventory
