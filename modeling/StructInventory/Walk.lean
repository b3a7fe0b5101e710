import StructInventory.Descriptor
import StructInventory.Settings.NameFilter
import StructInventory.Sorting

/-!
Walking a tree. All directories of a walk are loaded first; an error there ends it. Only then are
the structs visited whose names the filter accepts, and a visit that fails does not keep the others
from being made.
-/

namespace StructInventory

namespace FileNode

/-- Entries below the base of a walk that it leaves out. -/
def isSkipped (name : String) (node : FileNode) : Bool :=
  name.startsWith "." || name.startsWith "_" || (node.isDir && name = "target")

mutual

/-- The paths of a directory and of those below it that are not left out, each before the ones below
it, and side by side in the order of their names. -/
def visibleDirs (path : PathText) : FileNode → List PathText
  | file _ => []
  | dir entries =>
    path :: (sortBy (fun a b => a.1 < b.1) (visibleEntries path entries)).flatMap Prod.snd

/-- The directories that each entry contributes, with its name. -/
def visibleEntries (path : PathText) : List (String × FileNode) → List (String × List PathText)
  | [] => []
  | (name, node) :: rest =>
    if isSkipped name node then visibleEntries path rest
    else (name, visibleDirs (path.join ⟨name⟩) node) :: visibleEntries path rest

end

end FileNode

/-- How a visit of a struct ended. -/
inductive VisitResult where
  | done
  /-- Rendering gave up for a reason; that is noted, and the visit counts as done. -/
  | gaveUp (reason : String)
  | failed (error : InventoryError)
  deriving DecidableEq

/-- A line of the error log. -/
inductive LogEvent where
  | gaveUp (reason : String)
  | failed (error : String)
  deriving DecidableEq

namespace LogEvent

def message (_ : LogEvent) : String := "unable to generate information"

def detail : LogEvent → String
  | gaveUp reason => "reason=" ++ reason
  | failed error => "error=" ++ error

def line (event : LogEvent) : String := "ERROR " ++ event.message ++ " " ++ event.detail

end LogEvent

namespace VisitResult

/-- What is logged about a visit. -/
def event? : VisitResult → Option LogEvent
  | done => none
  | gaveUp reason => some (.gaveUp reason)
  | failed error => some (.failed error.message)

end VisitResult

/-- Does something about a struct, and may change a state by it. -/
abbrev Visitor (σ : Type) := σ → StructDesc → σ × VisitResult

/-- What a walk has come to: the state, what became of each visit, and whether the name of any struct
was accepted. -/
structure WalkReport (σ : Type) where
  state : σ
  visits : List (StructDesc × VisitResult)
  matched : Bool

namespace WalkReport

variable {σ : Type}

/-- Visits a struct, whatever becomes of it. -/
def visit (visitor : Visitor σ) (report : WalkReport σ) (struct : StructDesc) : WalkReport σ :=
  let (state, result) := visitor report.state struct
  ⟨state, report.visits ++ [(struct, result)], true⟩

def events (report : WalkReport σ) : List LogEvent :=
  report.visits.filterMap fun visit => visit.2.event?

end WalkReport

/-- Finds the structs under `baseDir` whose names `filter` accepts, with `limitOne` only the
first. -/
structure Walker where
  baseDir : PathText
  recursive : Bool
  filter : NameFilter
  limitOne : Bool
  features : List String

namespace Walker

/-- The directories of a walk; none if its base is a file. -/
def directories (walker : Walker) (tree : FileTree) : Except InventoryError (List PathText) :=
  match tree.node walker.baseDir with
  | .error error => .error (.walk walker.baseDir walker.baseDir error)
  | .ok node =>
    let dirs := node.visibleDirs walker.baseDir
    .ok (if walker.recursive then dirs else dirs.take 1)

/-- Loads directories in turn; the first error ends it. -/
def loadDirs (tree : FileTree) (provider : Provider) :
    Loader → List PathText → Except InventoryError Loader
  | loader, [] => .ok loader
  | loader, dir :: rest =>
    match loader.parse tree provider dir with
    | (loader, .ok ()) => loadDirs tree provider loader rest
    | (_, .error error) => .error error

def load (walker : Walker) (tree : FileTree) : Except InventoryError Loader := do
  loadDirs tree (.ofTree tree walker.features) {} (← walker.directories tree)

variable {σ : Type}

/-- Goes through structs in turn and visits those whose names are accepted; with `limitOne` the
first visit ends it. -/
def visitAccepted (walker : Walker) (visitor : Visitor σ) :
    WalkReport σ → List StructDesc → WalkReport σ
  | report, [] => report
  | report, struct :: rest =>
    if walker.filter.accepts struct.name then
      let report := report.visit visitor struct
      if walker.limitOne then report else walker.visitAccepted visitor report rest
    else walker.visitAccepted visitor report rest

/-- A walk, which answers whether any name was accepted. There is a report also where an error ends
it. -/
def run (walker : Walker) (tree : FileTree) (visitor : Visitor σ) (state : σ) :
    WalkReport σ × Except InventoryError Bool :=
  let report : WalkReport σ := ⟨state, [], false⟩
  match walker.load tree with
  | .error error => (report, .error error)
  | .ok loader =>
    let report := walker.visitAccepted visitor report loader.structs
    (report, .ok report.matched)

/-- The report of a walk that no error ends. -/
def walk (walker : Walker) (tree : FileTree) (visitor : Visitor σ) (state : σ) :
    Except InventoryError (WalkReport σ) :=
  let (report, answer) := walker.run tree visitor state
  answer.map fun _ => report

end Walker

end StructInventory
