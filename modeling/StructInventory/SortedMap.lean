/-!
Finite maps from names to values, with the names in increasing order.
-/

namespace StructInventory

structure SortedMap (α : Type) where
  entries : List (String × α)
  deriving Repr, Inhabited

namespace SortedMap

variable {α : Type}

def empty : SortedMap α := ⟨[]⟩

/-- Binds a name in a sorted entry list; a binding that is there is replaced. -/
def insertEntry (key : String) (value : α) : List (String × α) → List (String × α)
  | [] => [(key, value)]
  | entry :: rest =>
    if key = entry.1 then (key, value) :: rest
    else if key < entry.1 then (key, value) :: entry :: rest
    else entry :: insertEntry key value rest

def insert (map : SortedMap α) (key : String) (value : α) : SortedMap α :=
  ⟨insertEntry key value map.entries⟩

/-- Binds names in turn, so that the last binding of a name is kept. -/
def ofList (bindings : List (String × α)) : SortedMap α :=
  bindings.foldl (fun map binding => map.insert binding.1 binding.2) empty

def get? (map : SortedMap α) (key : String) : Option α := map.entries.lookup key

/-- The map without a name. -/
def erase (map : SortedMap α) (key : String) : SortedMap α :=
  ⟨map.entries.filter fun entry => entry.1 ≠ key⟩

def keys (map : SortedMap α) : List String := map.entries.map Prod.fst

def size (map : SortedMap α) : Nat := map.entries.length

def isEmpty (map : SortedMap α) : Bool := map.entries.isEmpty

end SortedMap

end StructInventory
