import StructInventory.PathText

/-!
A tree of directories and files, and the questions and changes that the inventory puts to it. A
relative path starts at the working directory; each of its pieces but the last has to be a
directory. Listing a directory keeps the order in which it holds its entries, which means nothing.
-/

namespace StructInventory

/-- Why a file or directory could not be used. -/
inductive FileError where
  | notFound
  | notDirectory
  | isDirectory
  | exists
  | notText
  deriving DecidableEq, Repr

namespace FileError

def message : FileError → String
  | notFound => "No such file or directory (os error 2)"
  | notDirectory => "Not a directory (os error 20)"
  | isDirectory => "Is a directory (os error 21)"
  | «exists» => "File exists (os error 17)"
  | notText => "stream did not contain valid UTF-8"

end FileError

/-- A file has no text if its bytes are no UTF-8. -/
inductive FileNode where
  | file (text : Option String)
  | dir (entries : List (String × FileNode))
  deriving Repr, Inhabited

namespace FileNode

def isDir : FileNode → Bool
  | dir _ => true
  | file _ => false

/-- The node that names lead to. -/
def find? : FileNode → List String → Option FileNode
  | node, [] => some node
  | dir entries, name :: rest => (entries.lookup name).bind (find? · rest)
  | file _, _ :: _ => none

/-- Binds a name among directory entries. -/
def setEntry (name : String) (node : FileNode) : List (String × FileNode) → List (String × FileNode)
  | [] => [(name, node)]
  | entry :: rest =>
    if entry.1 = name then (name, node) :: rest else entry :: setEntry name node rest

/-- Puts a node where names lead; directories on the way are made. -/
def put : FileNode → List String → FileNode → FileNode
  | _, [], node => node
  | dir entries, name :: rest, node =>
    dir (setEntry name (put ((entries.lookup name).getD (dir [])) rest node) entries)
  | file _, name :: rest, node => dir [(name, put (dir []) rest node)]

/-- Takes away the node that names lead to. -/
def erase : FileNode → List String → FileNode
  | dir entries, [name] => dir (entries.filter (·.1 ≠ name))
  | dir entries, name :: rest =>
    match entries.lookup name with
    | some node => dir (setEntry name (erase node rest) entries)
    | none => dir entries
  | node, _ => node

end FileNode

/-- `root` holds all there is, and `home` leads to the working directory. -/
structure FileTree where
  root : FileNode
  home : List String
  deriving Inhabited

namespace FileTree

/-- A tree with nothing in its working directory, to which names lead. -/
def empty (home : List String) : FileTree := ⟨FileNode.put (.dir []) home (.dir []), home⟩

/-- Puts a node where names lead from the working directory; directories on the way are made. -/
def plant (tree : FileTree) (names : List String) (node : FileNode) : FileTree :=
  { tree with root := tree.root.put (tree.home ++ names) node }

/-- Takes away what names lead to from the working directory. -/
def uproot (tree : FileTree) (names : List String) : FileTree :=
  { tree with root := tree.root.erase (tree.home ++ names) }

/-! ### Looking -/

/-- Where one more piece of a path leads, from a directory. -/
def step (tree : FileTree) (place : List String) (piece : String) :
    Except FileError (List String) :=
  match tree.root.find? place with
  | some (.dir entries) =>
    if piece = "" || piece = "." then .ok place
    else if piece = ".." then .ok place.dropLast
    else if (entries.lookup piece).isSome then .ok (place ++ [piece])
    else .error .notFound
  | some (.file _) => .error .notDirectory
  | none => .error .notFound

/-- Where the pieces of a path start. -/
def origin (tree : FileTree) (path : PathText) : List String :=
  if path.isAbsolute then [] else tree.home

/-- Where a path leads. -/
def locate (tree : FileTree) (path : PathText) : Except FileError (List String) :=
  if path.text = "" then .error .notFound
  else path.pieces.foldlM tree.step (tree.origin path)

/-- The absolute path of where a path leads. -/
def canonical (tree : FileTree) (path : PathText) : Except FileError PathText := do
  return ⟨"/" ++ String.intercalate "/" (← tree.locate path)⟩

def node (tree : FileTree) (path : PathText) : Except FileError FileNode := do
  let place ← tree.locate path
  match tree.root.find? place with
  | some node => .ok node
  | none => .error .notFound

def isFile (tree : FileTree) (path : PathText) : Bool :=
  match tree.node path with
  | .ok (.file _) => true
  | _ => false

def isDir (tree : FileTree) (path : PathText) : Bool :=
  match tree.node path with
  | .ok (.dir _) => true
  | _ => false

/-- The paths of a directory's entries, in no particular order. -/
def list (tree : FileTree) (dir : PathText) : Except FileError (List PathText) := do
  match ← tree.node dir with
  | .dir entries => .ok (entries.map fun entry => dir.join ⟨entry.1⟩)
  | .file _ => .error .notDirectory

def readText (tree : FileTree) (path : PathText) : Except FileError String := do
  match ← tree.node path with
  | .file (some text) => .ok text
  | .file none => .error .notText
  | .dir _ => .error .isDirectory

/-! ### Changing -/

/-- The entries of the directory at a place. -/
def entriesAt (tree : FileTree) (place : List String) :
    Except FileError (List (String × FileNode)) :=
  match tree.root.find? place with
  | some (.dir entries) => .ok entries
  | some (.file _) => .error .notDirectory
  | none => .error .notFound

/-- Where a new entry goes: the place of its directory, that directory's entries and the last piece
of the path. -/
def slot (tree : FileTree) (path : PathText) (pieces : List String) :
    Except FileError (List String × List (String × FileNode) × String) := do
  let place ← pieces.dropLast.foldlM tree.step (tree.origin path)
  let entries ← tree.entriesAt place
  return (place, entries, pieces.getLast?.getD "")

/-- Whether a piece can name an entry. -/
def isEntryName (piece : String) : Bool := piece ≠ "" && piece ≠ "." && piece ≠ ".."

/-- Makes one directory; slashes at the end of its path do not count. -/
def makeDir (tree : FileTree) (path : PathText) : Except FileError FileTree := do
  if path.text = "" then throw .notFound
  let (place, entries, name) ←
    tree.slot path (path.pieces.reverse.dropWhile (· = "")).reverse
  if !isEntryName name || (entries.lookup name).isSome then throw .exists
  return { tree with root := tree.root.put (place ++ [name]) (.dir []) }

/-- Makes a directory unless it is there. -/
def ensureDir (tree : FileTree) (path : PathText) : Except FileError FileTree :=
  match tree.makeDir path with
  | .ok tree => .ok tree
  | .error .exists => if tree.isDir path then .ok tree else .error .exists
  | .error error => .error error

/-- The paths above a path, itself first, as long as they name something. -/
def ancestors : Nat → PathText → List PathText
  | 0, _ => []
  | fuel + 1, path =>
    match path.parent? with
    | some parent => if path.text = "" then [] else path :: ancestors fuel parent
    | none => []

/-- Makes the directories of a list of ancestors, from the outermost that is missing on. -/
def ensureAll (tree : FileTree) : List PathText → Except FileError FileTree
  | [] => .ok tree
  | path :: above =>
    match tree.ensureDir path with
    | .error .notFound => do
      let tree ← tree.ensureAll above
      tree.ensureDir path
    | result => result

/-- Makes a directory and those above it that are missing. -/
def makeDirs (tree : FileTree) (path : PathText) : Except FileError FileTree :=
  tree.ensureAll (ancestors (path.text.length + 1) path)

/-- Writes a file anew. -/
def writeText (tree : FileTree) (path : PathText) (text : String) : Except FileError FileTree := do
  if path.text = "" then throw .notFound
  let pieces := (path.pieces.reverse.dropWhile (· = "")).reverse
  let (place, entries, name) ← tree.slot path pieces
  let ended := path.text.toList.getLast? = some '/'
  let occupied := (entries.lookup name).any FileNode.isDir
  if ended || !isEntryName name || occupied then throw .isDirectory
  return { tree with root := tree.root.put (place ++ [name]) (.file (some text)) }

end FileTree

end StructInventory
