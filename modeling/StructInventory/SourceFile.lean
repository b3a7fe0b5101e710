import StructInventory.Condition
import StructInventory.TypeExpr

/-!
What a source file declares: its types and the methods of its inherent `impl` blocks, with the
conditions under which each is built. Positions are those of a declaration's first token behind
its attributes.
-/

namespace StructInventory

/-- A tuple field has no name. -/
structure FieldDecl where
  name : Option Ident
  type : TypeExpr
  exported : Bool
  pos : Pos
  conditions : List Condition
  deriving Inhabited

/-- A parameter is named by its pattern. -/
structure ParamDecl where
  name : String
  type : TypeExpr
  pos : Pos
  deriving Inhabited

/-- `generics` names the type and constant parameters. -/
structure SignatureDecl where
  generics : List String
  receiver : Bool
  params : List ParamDecl
  output : Option (TypeExpr × Pos)
  deriving Inhabited

structure FunctionDecl where
  name : String
  exported : Bool
  pos : Pos
  signature : SignatureDecl
  conditions : List Condition
  deriving Inhabited

inductive TypeForm where
  | struct (fields : List FieldDecl)
  | enum
  | trait (functions : List FunctionDecl)
  | alias (target : TypeExpr)
  deriving Inhabited

structure TypeDecl where
  name : String
  pos : Pos
  exported : Bool
  generics : List String
  conditions : List Condition
  form : TypeForm
  deriving Inhabited

/-- An `impl` block of a type for itself. -/
structure ImplDecl where
  target : TypeExpr
  generics : List String
  conditions : List Condition
  functions : List FunctionDecl
  deriving Inhabited

inductive Item where
  | type (decl : TypeDecl)
  | methods (decl : ImplDecl)
  | other
  deriving Inhabited

/-- `boundaries` are the ends of declarations and the openings of their bodies, in reading order
and without repetition. -/
structure SourceFile where
  conditions : List Condition
  items : List Item
  boundaries : List Pos
  deriving Inhabited

end StructInventory
