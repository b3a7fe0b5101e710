import StructInventory.FileTree
import StructInventory.Grammar.File
import StructInventory.Package
import StructInventory.Sorting

/-!
From a file to the package it belongs to: all source files of its directory that are no tests.
-/

namespace StructInventory

namespace PathText

/-- Whether a path names a source file that is no test. -/
def isEligible (path : PathText) : Bool :=
  path.extension? = some "rs" && path.stem?.any fun stem =>
    stem ≠ "tests" && !stem.endsWith "_test" && !stem.endsWith "_tests"

end PathText

/-- Why a file could not be read as a source file. -/
inductive Fault where
  | grammar (pos : Pos)
  | file (error : FileError)
  deriving DecidableEq

/-- A fault with the file or directory it was found in. -/
structure Diagnostic where
  path : PathText
  fault : Fault
  deriving DecidableEq

namespace Diagnostic

/-- The path, and then the position or the system's message. -/
def message (diagnostic : Diagnostic) : String :=
  match diagnostic.fault with
  | .grammar pos => diagnostic.path.text ++ ":" ++ pos.text
  | .file error => diagnostic.path.text ++ ": " ++ error.message

end Diagnostic

/-- The packages that a file belongs to and the files they are made of. -/
structure Resolution where
  packages : List Package
  files : List ParsedFile
  deriving Inhabited

namespace FileTree

/-- The source files of a directory, in order. -/
def eligibleFiles (tree : FileTree) (dir : PathText) : Except FileError (List PathText) := do
  let paths ← tree.list dir
  return sortBy PathText.before (paths.filter fun path => tree.isFile path && path.isEligible)

/-- A text without the byte order mark it may begin with. -/
def dropMark (text : String) : String :=
  match text.toList with
  | '\ufeff' :: rest => String.ofList rest
  | _ => text

def parseFile (tree : FileTree) (path : PathText) : Except Diagnostic ParsedFile :=
  match tree.readText path with
  | .error error => .error ⟨path, .file error⟩
  | .ok text =>
    match SourceFile.read (dropMark text) with
    | .error pos => .error ⟨path, .grammar pos⟩
    | .ok source => .ok ⟨path, dropMark text, source⟩

/-- The files among `paths` that are built; the first that cannot be read is reported. -/
def parseFiles (tree : FileTree) (features : List String) (paths : List PathText) :
    Except Diagnostic (List ParsedFile) := do
  let files ← paths.mapM tree.parseFile
  return files.filter fun file => Condition.enabled features file.source.conditions

/-- The package of a file; there is none if no file of it is built. -/
def resolveFile (tree : FileTree) (features : List String) (path : PathText) :
    Except Diagnostic Resolution :=
  let dir := path.directory
  match tree.eligibleFiles dir with
  | .error error => .error ⟨dir, .file error⟩
  | .ok paths => do
    let files ← tree.parseFiles features paths
    return ⟨if files.isEmpty then [] else [Package.ofFiles dir files features], files⟩

end FileTree

end StructInventory
