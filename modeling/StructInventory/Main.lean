import StructInventory.CommandLine.Run

/-!
The command itself: it takes the files that its arguments are about from the disk, carries the
command out on them, and puts what it wrote and printed where they belong.
-/

namespace StructInventory.Disk

/-- The names on the way to a place. -/
def names (place : String) : List String := (place.splitOn "/").filter (· ≠ "")

/-- The names on the way to where a path leads on the disk. -/
def placeOf (path : String) : IO (List String) := do
  return names (← IO.FS.realPath path).toString

/-- The content of a file if it is wanted. -/
def readFile (wanted : Bool) (path : String) : IO FileNode := do
  if wanted then return .file (String.fromUTF8? (← IO.FS.readBinFile path))
  else return .file none

/-- What a path leads to. Of the files in a directory only the sources are read, and links in it are
not followed. -/
partial def readNode (wanted : Bool) (path : String) : IO FileNode := do
  let place ← IO.FS.realPath path
  if !(← place.isDir) then return ← readFile wanted path
  let mut entries := []
  for entry in ← place.readDir do
    let inner := place.toString ++ "/" ++ entry.fileName
    let type := (← entry.path.symlinkMetadata).type
    if type == .dir || type == .file then
      let node ← readNode (entry.fileName.endsWith ".rs") inner
      entries := (entry.fileName, node) :: entries
  return .dir entries

/-- The tree of what paths lead to, as far as there is anything. -/
def snapshot (paths : List PathText) : IO FileTree := do
  let mut tree := FileTree.empty (← placeOf ".")
  for path in paths do
    try
      let node ← readNode true path.text
      tree := { tree with root := tree.root.put (← placeOf path.text) node }
    catch _ => pure ()
  return tree

/-- Writes a file, for which directories are made as they are needed. -/
def write (path : PathText) (text : String) : IO Unit := do
  match path.parent? with
  | some parent => if parent.text ≠ "" then IO.FS.createDirAll parent.text
  | none => pure ()
  IO.FS.writeFile path.text text

end StructInventory.Disk

open StructInventory

def main (arguments : List String) : IO UInt32 := do
  let known ← Disk.snapshot (CommandLine.pathsOf (.empty []) arguments)
  let tree ← Disk.snapshot (CommandLine.pathsOf known arguments)
  let ending := CommandLine.execute tree arguments
  IO.print ending.printed
  for (path, text) in ending.written do
    Disk.write path text
  for complaint in ending.complaints do
    IO.eprintln complaint
  return ending.exitCode.toUInt32
