import StructInventory.Token.Basic

/-!
Types as a source text writes them. Forms that are only ever shown are kept as their tokens.
-/

namespace StructInventory

mutual

inductive TypeExpr where
  /-- A path whose last segment alone may have arguments. A leading `::` is an empty segment. -/
  | named (segments : List String) (arguments : List TypeArgument) (tokens : List Token)
  | reference (lifetime : Option String) (mutable : Bool) (target : TypeExpr)
  | pointer (mutable : Bool) (target : TypeExpr)
  | slice (item : TypeExpr)
  | array (item : TypeExpr) (length : List Token)
  | tuple (items : List TypeExpr)
  | paren (inner : TypeExpr)
  | never
  | function (tokens : List Token)
  | other (tokens : List Token)

inductive TypeArgument where
  | lifetime (name : String)
  | type (type : TypeExpr)
  | other (tokens : List Token)

end

instance : Inhabited TypeExpr := ⟨.never⟩

end StructInventory
