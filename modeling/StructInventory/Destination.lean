import StructInventory.Descriptor
import StructInventory.Naming

/-!
Where the text about a struct is written.
-/

namespace StructInventory

namespace PathText

/-- Drops pieces up to and with the first `count` that stand for components. -/
def dropComponents : Nat → List String → List String
  | 0, pieces => pieces
  | _, [] => []
  | count + 1, piece :: rest =>
    if (component? piece).isNone then dropComponents (count + 1) rest
    else dropComponents count rest

/-- The part of a path behind another one that it begins with. -/
def below? (path base : PathText) : Option PathText :=
  if base.components.isPrefixOf path.components then
    let (head, pieces) := path.split
    match base.components.length with
    | 0 => some (unsplit head (dropIdle pieces))
    | count + 1 =>
      let count := if head = .none then count + 1 else count
      some (ofPieces (dropIdle ((dropComponents count pieces).dropWhile
        fun piece => (component? piece).isNone)))
  else none

end PathText

/-- One file for each struct under `baseDir`. With `keepTree` the directory of the struct's source,
as it lies below `sourceRoot`, is repeated there. A fixed `fileName` is used as it is. -/
structure Destination where
  baseDir : PathText
  case : Case
  keepTree : Bool
  sourceRoot : PathText
  fileName : Option String

namespace Destination

def nameFor (destination : Destination) (struct : StructDesc) (extension : String) : String :=
  destination.fileName.getD (destination.case.apply struct.name ++ "." ++ extension)

/-- The directory of a struct's file below `sourceRoot`; empty if it lies elsewhere. -/
def subdirectory (destination : Destination) (struct : StructDesc) : PathText :=
  ((struct.file.parent?.getD ⟨""⟩).below? destination.sourceRoot).getD ⟨""⟩

def pathFor (destination : Destination) (struct : StructDesc) (extension : String) : PathText :=
  let name : PathText := ⟨destination.nameFor struct extension⟩
  if destination.keepTree then
    (destination.baseDir.join (destination.subdirectory struct)).join name
  else destination.baseDir.join name

end Destination

end StructInventory
