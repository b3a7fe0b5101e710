import StructInventory.Comment.Search
import StructInventory.SourceFile

/-!
What one file contributes beside its types: the names it declares, and the comments that stand
before its declarations.
-/

namespace StructInventory

/-- `interfaces` are traits and names of function types. -/
structure FileScan where
  structs : List String
  interfaces : List String
  comments : List CommentGroup
  boundaries : List Pos
  deriving Inhabited

namespace TypeDecl

def isStruct (decl : TypeDecl) : Bool :=
  match decl.form with
  | .struct _ => true
  | _ => false

def isInterface (decl : TypeDecl) : Bool :=
  match decl.form with
  | .trait _ => true
  | .alias (.function _) => true
  | _ => false

end TypeDecl

namespace SourceFile

/-- The types that a file declares at its top level, whatever their conditions. -/
def typeDecls (file : SourceFile) : List TypeDecl :=
  file.items.filterMap fun
    | .type decl => some decl
    | .methods _ | .other => none

end SourceFile

namespace FileScan

/-- Scans a file: `text` is what it holds and `file` what that declares. -/
def ofFile (text : String) (file : SourceFile) : FileScan :=
  { structs := (file.typeDecls.filter TypeDecl.isStruct).map TypeDecl.name
    interfaces := (file.typeDecls.filter TypeDecl.isInterface).map TypeDecl.name
    comments := CommentGroup.collect text
    boundaries := file.boundaries }

/-- The text of the comment that belongs to what is declared at `pos`. -/
def commentFor (scan : FileScan) (pos : Pos) : Option String := do
  let index ← CommentGroup.search scan.comments scan.boundaries pos
  let group ← scan.comments[index]?
  return group.text

end FileScan

end StructInventory
