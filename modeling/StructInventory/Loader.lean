import StructInventory.FileScan
import StructInventory.Resolution

/-!
Loading packages. A loader goes through the source files of directories and asks a provider for the
package of each file that it has not seen; all files of a package are then seen, so that no file is
resolved twice.
-/

namespace StructInventory

/-- Why a command could not be carried out. -/
inductive InventoryError where
  /-- A directory could not be listed. -/
  | list (dir : PathText) (error : FileError)
  /-- A tree could not be walked because of the entry `path`. -/
  | walk (dir path : PathText) (error : FileError)
  | resolution (path : PathText) (diagnostic : Diagnostic)
  | ambiguous (path : PathText) (packages : List String)
  | structNotFound (name : String)
  | file (error : FileError)
  deriving DecidableEq

namespace InventoryError

def message : InventoryError → String
  | list dir error => "failed to list directory " ++ dir.text ++ ": " ++ error.message
  | walk dir path error =>
    "failed to list directory " ++ dir.text ++ ": IO error for operation on " ++ path.text ++
      ": " ++ error.message
  | resolution path diagnostic =>
    "failed to resolve " ++ path.text ++ ": " ++ diagnostic.message
  | ambiguous path packages =>
    "file " ++ path.text ++ " resolves to multiple packages: " ++
      String.intercalate ", " packages
  | structNotFound name => "struct not found: " ++ name
  | file error => "I/O error: " ++ error.message

end InventoryError

/-- A package with the scans of its files. -/
structure LoadedPackage where
  package : Package
  scans : List (PathText × FileScan)
  deriving Inhabited

namespace LoadedPackage

def ofResolution (package : Package) (files : List ParsedFile) : LoadedPackage :=
  ⟨package, files.map fun file => (file.path, FileScan.ofFile file.text file.source)⟩

/-- The scan of a file; of two for the same file the last one. -/
def scan? (loaded : LoadedPackage) (file : PathText) : Option FileScan :=
  (loaded.scans.reverse.find? fun scanned => scanned.1.same file).map Prod.snd

/-- The comment before what is declared at `pos` in a file. -/
def commentFor (loaded : LoadedPackage) (file : PathText) (pos : Pos) : Option String :=
  (loaded.scan? file).bind (·.commentFor pos)

end LoadedPackage

/-- Answers which packages a file belongs to. It is also told how many questions came before, so
that it may answer the same one differently each time. -/
abbrev Provider := Nat → PathText → Except Diagnostic Resolution

namespace Provider

/-- The provider that reads the source files of a tree. -/
def ofTree (tree : FileTree) (features : List String) : Provider :=
  fun _ => tree.resolveFile features

end Provider

/-- A file with the package that it was loaded with. -/
structure LoadedFile where
  file : PathText
  package : LoadedPackage
  deriving Inhabited

/-- `asked` holds the files that the provider was asked about, the last one first. -/
structure Loader where
  entries : List LoadedFile := []
  seen : List PathText := []
  asked : List PathText := []
  deriving Inhabited

namespace Loader

def hasSeen (loader : Loader) (file : PathText) : Bool := loader.seen.any (·.same file)

def see (loader : Loader) (file : PathText) : Loader :=
  if loader.hasSeen file then loader else { loader with seen := loader.seen ++ [file] }

/-- Takes up a file of a package, unless it has no scan or was seen before. -/
def takeUp (package : LoadedPackage) (loader : Loader) (file : PathText) : Loader :=
  if (package.scan? file).isNone || loader.hasSeen file then loader
  else { loader.see file with entries := loader.entries ++ [⟨file, package⟩] }

/-- What a provider's answer about `file` does to a loader. -/
def accept (loader : Loader) (file : PathText) (answer : Except Diagnostic Resolution) :
    Loader × Except InventoryError Unit :=
  match answer with
  | .error diagnostic => (loader, .error (.resolution file diagnostic))
  | .ok ⟨[], _⟩ => (loader.see file, .ok ())
  | .ok ⟨[package], files⟩ =>
    let loaded := LoadedPackage.ofResolution package files
    ((package.files.foldl (takeUp loaded) loader).see file, .ok ())
  | .ok ⟨packages, _⟩ => (loader, .error (.ambiguous file (packages.map Package.name)))

def loadFile (provider : Provider) (loader : Loader) (file : PathText) :
    Loader × Except InventoryError Unit :=
  let answer := provider loader.asked.length file
  { loader with asked := file :: loader.asked }.accept file answer

/-- Loads files in turn, those apart that were seen; the first error ends it. -/
def loadFiles (provider : Provider) (loader : Loader) :
    List PathText → Loader × Except InventoryError Unit
  | [] => (loader, .ok ())
  | file :: rest =>
    if loader.hasSeen file then loadFiles provider loader rest
    else match loader.loadFile provider file with
      | (loader, .ok ()) => loadFiles provider loader rest
      | (loader, .error error) => (loader, .error error)

/-- The directory that a path stands for: its own if it is a file. -/
def directoryOf (tree : FileTree) (path : PathText) : PathText :=
  if tree.isFile path then path.directory else path

/-- Loads the package of a directory, or that of a file. -/
def parse (tree : FileTree) (provider : Provider) (loader : Loader) (path : PathText) :
    Loader × Except InventoryError Unit :=
  let dir := directoryOf tree path
  match tree.eligibleFiles dir with
  | .error error => (loader, .error (.list dir error))
  | .ok files => loader.loadFiles provider files

/-- The traits and function types of all loaded files. -/
def interfaceNames (loader : Loader) : List String :=
  loader.entries.flatMap fun entry =>
    ((entry.package.scan? entry.file).map FileScan.interfaces).getD []

end Loader

end StructInventory
