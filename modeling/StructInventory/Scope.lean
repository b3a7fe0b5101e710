import StructInventory.PathText
import StructInventory.Text.Pos
import StructInventory.TypeDesc

/-!
Resolved types and the scope that holds them. A scope is an ordered map from names to types in
which the first declaration of a name wins.
-/

namespace StructInventory

/-- A struct field, a parameter or a result. -/
structure Variable where
  name : String
  type : TypeDesc
  exported : Bool
  pos : Pos
  deriving Inhabited

/-- A tuple as return type gives one result for each of its members. -/
structure Signature where
  params : List Variable
  results : List Variable
  receiver : Bool
  deriving Inhabited

structure Function where
  name : String
  exported : Bool
  file : PathText
  pos : Pos
  signature : Signature
  deriving Inhabited

/-- What a name stands for. -/
inductive Underlying where
  | struct (fields : List Variable)
  | enum
  | interface (functions : List Function)
  | signature (type : TypeDesc)
  | alias (target : TypeDesc)
  deriving Inhabited

/-- A type under its name, with its own methods in file-name and then source order. -/
structure NamedType where
  name : String
  file : PathText
  pos : Pos
  exported : Bool
  underlying : Underlying
  methods : List Function
  deriving Inhabited

namespace NamedType

def isStruct (named : NamedType) : Bool :=
  match named.underlying with
  | .struct _ => true
  | _ => false

end NamedType

/-- Types in the order of their declaration; no two have the same name. -/
structure Scope where
  types : List NamedType
  deriving Inhabited

namespace Scope

def empty : Scope := ⟨[]⟩

def lookup (scope : Scope) (name : String) : Option NamedType :=
  scope.types.find? (·.name = name)

def contains (scope : Scope) (name : String) : Bool := (scope.lookup name).isSome

/-- Adds a type unless its name is taken; the answer tells whether it was added. -/
def insert (scope : Scope) (named : NamedType) : Scope × Bool :=
  if scope.contains named.name then (scope, false) else (⟨scope.types ++ [named]⟩, true)

/-- Adds types in turn. -/
def insertAll (scope : Scope) (types : List NamedType) : Scope :=
  types.foldl (fun scope named => (scope.insert named).1) scope

def names (scope : Scope) : List String := scope.types.map NamedType.name

def size (scope : Scope) : Nat := scope.types.length

def isEmpty (scope : Scope) : Bool := scope.types.isEmpty

/-- Follows aliases from a name to a struct. No name is followed twice, so that a chain longer than
`fuel`, the number of types, cannot reach one. -/
def followAliases (scope : Scope) : Nat → List String → String → Option NamedType
  | 0, _, _ => none
  | fuel + 1, seen, name =>
    if seen.contains name then none
    else do
      let named ← scope.lookup name
      match named.underlying with
      | .struct _ => some named
      | .alias target =>
        let next ← target.derefOnce.localName?
        followAliases scope fuel (name :: seen) next
      | _ => none

/-- The struct of a name, or of what the name is an alias of. -/
def lookupStruct (scope : Scope) (name : String) : Option NamedType :=
  scope.followAliases scope.size [] name

end Scope

end StructInventory
