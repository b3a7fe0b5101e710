import StructInventory.Grammar.Reader
import StructInventory.SourceFile

/-!
The phrases of the grammar that contain one another. Every other reader is written over a
`Grammar`, which reads these phrases, and never calls itself; the knot is tied in one place, by
recursion on how deep phrases may nest.
-/

namespace StructInventory

/-- How tightly an operator binds, from the loosest on. -/
inductive Precedence where
  | loosest
  | assign
  | range
  | or
  | and
  | compare
  | bitOr
  | bitXor
  | bitAnd
  | shift
  | sum
  | product
  | cast
  deriving DecidableEq

namespace Precedence

def rank : Precedence → Nat
  | loosest => 0
  | assign => 1
  | range => 2
  | or => 3
  | and => 4
  | compare => 5
  | bitOr => 6
  | bitXor => 7
  | bitAnd => 8
  | shift => 9
  | sum => 10
  | product => 11
  | cast => 12

end Precedence

/-- What the grammar asks of an expression it has read. A `block` ends a statement by itself; a
`bracedCall` is a macro call with braces. -/
inductive ExprForm where
  | range
  | comparison
  | block
  | bracedCall
  | literal (text : String)
  | other
  deriving DecidableEq

/-- What the grammar asks of a pattern. An `openRange` lacks one of its bounds; its position is
that of the dots. -/
inductive PatternForm where
  | ident (name : Word)
  | wild
  | openRange (pos : Pos)
  | other

/-- What the grammar asks of a type: whether it is a path without a leading `::`, of one segment
(`loneName`) or any other unqualified path, or a single bound without `dyn`. -/
inductive TypeHead where
  | loneName
  | path
  | loneBound
  | other
  deriving DecidableEq

structure TypeReading where
  type : TypeExpr
  head : TypeHead

inductive Nonterminal where
  /-- A type; `plus` tells whether `+` may join bounds in it. -/
  | type (plus : Bool)
  /-- An expression; `structs` tells whether a brace behind a path opens a struct literal. -/
  | expr (structs : Bool)
  | unary (structs : Bool)
  /-- An expression as a statement or match arm begins with it. -/
  | bounded
  /-- The operators behind a left operand, down to those that bind as loosely as `base`. -/
  | operators (left : ExprForm) (structs : Bool) (base : Precedence)
  | pattern
  | statements
  | item
  /-- Named fields in braces. -/
  | fields
  /-- A tree of imported names; `rooted` tells whether members may begin with `::`. -/
  | useTree (rooted : Bool)
  | condition
  /-- One bound of a generic argument, as in `Item: Clone`. -/
  | bound

namespace Nonterminal

@[reducible] def Value : Nonterminal → Type
  | type _ => TypeReading
  | expr _ | unary _ | bounded | operators _ _ _ => ExprForm
  | pattern => PatternForm
  | statements | bound => Unit
  | item => Item
  | fields => List FieldDecl
  | useTree _ => Bool
  | condition => Condition

/-- Whether declarations end in a phrase outside of its braces. -/
@[reducible] def declares : Nonterminal → Bool
  | statements | item => true
  | type _ | expr _ | unary _ | bounded | operators _ _ _ | pattern | fields | useTree _
  | condition | bound => false

end Nonterminal

abbrev Grammar := (phrase : Nonterminal) → Reading phrase.declares phrase.Value

namespace Grammar

def type (g : Grammar) : Reader TypeReading := g (.type true)

/-- A type that no `+` may extend. -/
def tightType (g : Grammar) : Reader TypeReading := g (.type false)

def expr (g : Grammar) : Reader ExprForm := g (.expr true)

/-- An expression before a block: a brace behind a path opens that block. -/
def head (g : Grammar) : Reader ExprForm := g (.expr false)

def pattern (g : Grammar) : Reader PatternForm := g .pattern

def statements (g : Grammar) : DeclReader Unit := g .statements

end Grammar

end StructInventory
