import StructInventory.Text.RangeSet

/-!
Paths as they are written. A path keeps its text; two paths are the same when their components are,
so a doubled slash or a dot inside makes no difference.
-/

namespace StructInventory

inductive Component where
  | root
  | current
  | parent
  | name (text : String)
  deriving DecidableEq, Repr

namespace Component

/-- The order of components of different kinds. -/
def rank : Component → Nat
  | root => 0
  | current => 1
  | parent => 2
  | name _ => 3

/-- Names compare by their characters. -/
def before : Component → Component → Bool
  | name a, name b => a < b
  | a, b => a.rank < b.rank

end Component

structure PathText where
  text : String
  deriving DecidableEq, Repr, Inhabited

namespace PathText

/-- The pieces between slashes. -/
def pieces (path : PathText) : List String :=
  (Text.splitAt '/' path.text.toList).map String.ofList

def ofPieces (pieces : List String) : PathText := ⟨String.intercalate "/" pieces⟩

/-- What a path begins with before its names: a slash or a dot of its own. -/
inductive Head where
  | root
  | current
  | none
  deriving DecidableEq

/-- The head of a path and its pieces behind it. -/
def split (path : PathText) : Head × List String :=
  match path.pieces with
  | "" :: piece :: rest => (.root, piece :: rest)
  | "." :: rest => (.current, rest)
  | pieces => (.none, pieces)

/-- Undoes `split`. -/
def unsplit : Head → List String → PathText
  | .root, pieces => ofPieces ("" :: if pieces.isEmpty then [""] else pieces)
  | .current, pieces => ofPieces ("." :: pieces)
  | .none, pieces => ofPieces pieces

/-- The component that a piece behind the head stands for; empty pieces and dots are none. -/
def component? (piece : String) : Option Component :=
  if piece = "" || piece = "." then none
  else if piece = ".." then some .parent
  else some (.name piece)

def Head.components : Head → List Component
  | .root => [.root]
  | .current => [.current]
  | .none => []

def components (path : PathText) : List Component :=
  let (head, pieces) := path.split
  head.components ++ pieces.filterMap component?

/-- Whether two paths have the same components. -/
def same (p q : PathText) : Bool := p.components = q.components

/-- Lexicographic order of component lists. -/
def componentsBefore : List Component → List Component → Bool
  | [], [] => false
  | [], _ :: _ => true
  | _ :: _, [] => false
  | a :: as, b :: bs => a.before b || (a = b && componentsBefore as bs)

def before (p q : PathText) : Bool := componentsBefore p.components q.components

def isAbsolute (path : PathText) : Bool := path.text.toList.head? = some '/'

/-- A path behind another; an absolute one stands by itself. -/
def join (base path : PathText) : PathText :=
  if path.isAbsolute then path
  else match base.text.toList.getLast? with
    | none => path
    | some '/' => ⟨base.text ++ path.text⟩
    | some _ => ⟨base.text ++ "/" ++ path.text⟩

/-- Drops the pieces at the end that stand for no component. -/
def dropIdle (pieces : List String) : List String :=
  (pieces.reverse.dropWhile fun piece => (component? piece).isNone).reverse

/-- The path without its last component and what separates that from the one before. -/
def parent? (path : PathText) : Option PathText :=
  let (head, pieces) := path.split
  match (dropIdle pieces).reverse with
  | _ :: before => some (unsplit head (dropIdle before.reverse))
  | [] => if head = .current then some ⟨""⟩ else none

/-- The directory that holds a path; `.` if the path names none. -/
def directory (path : PathText) : PathText :=
  match path.parent? with
  | some dir => if dir.text = "" then ⟨"."⟩ else dir
  | none => ⟨"."⟩

/-- The last component, if it is a name. -/
def fileName? (path : PathText) : Option String :=
  match path.components.getLast? with
  | some (.name text) => some text
  | _ => none

/-- A file name cut at its last dot, which may not be its first character. -/
def cutName (name : String) : String × Option String :=
  match (Text.splitAt '.' name.toList).reverse with
  | last :: before :: rest =>
    if before.isEmpty && rest.isEmpty then (name, none)
    else
      (String.ofList (List.intercalate ['.'] (before :: rest).reverse), some (String.ofList last))
  | _ => (name, none)

def stem? (path : PathText) : Option String := path.fileName?.map fun name => (cutName name).1

def extension? (path : PathText) : Option String :=
  path.fileName?.bind fun name => (cutName name).2

end PathText

end StructInventory
