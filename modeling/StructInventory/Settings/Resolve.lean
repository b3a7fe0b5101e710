import StructInventory.Settings.Layer
import StructInventory.Settings.NameFilter

/-!
Settings: what a layer comes to once it is checked and its gaps are filled.
-/

namespace StructInventory

/-- Why there are no settings. -/
inductive SettingsError where
  | unreadable (path : PathText) (error : FileError)
  | malformed
  | nameAndAll
  | noSelection
  | fileNameWithAll
  | fileNameWithPattern
  | invalidPattern
  | zeroDepth
  deriving DecidableEq

namespace SettingsError

def message : SettingsError → String
  | unreadable path error => "failed to read config file " ++ path.text ++ ": " ++ error.message
  | malformed => "failed to parse config file"
  | nameAndAll => "Specify --name or --all, but not both"
  | noSelection => "Use --name to specify the name of the struct or --all for all structs found"
  | fileNameWithAll => "Cannot specify --filename with --all"
  | fileNameWithPattern => "Cannot specify --filename with regex in --name"
  | invalidPattern => "Invalid regular expression provided to --name"
  | zeroDepth => "--depth must be at least 1"

end SettingsError

/-- Which structs a run covers. `name` is what was asked for, if it was a name. With `limitOne` the
first struct is also the last. -/
structure Selection where
  name : Option String
  filter : NameFilter
  limitOne : Bool

structure Settings where
  selection : Selection
  dir : PathText
  recursive : Bool
  output : PathText
  case : Case
  keepTree : Bool
  fileName : Option String
  format : Format
  describe : DescribeOptions
  pretty : Bool
  print : Bool
  features : List String

namespace Layer

/-- The layer of a settings file. -/
def load (tree : FileTree) (path : PathText) : Except SettingsError Layer :=
  match tree.readText path with
  | .error error => .error (.unreadable path error)
  | .ok text => (read? text).elim (.error .malformed) .ok

/-- A text that says something. -/
def given (text : Option String) : Option String := text.filter (· ≠ "")

/-- The selection of a name: itself, or the structs that it matches as a pattern. -/
def selectName (name : String) (fileName : Option String) : Except SettingsError Selection :=
  if isPattern name then
    match NameFilter.ofPattern? name with
    | none => .error .invalidPattern
    | some filter =>
      if fileName.isSome then .error .fileNameWithPattern
      else .ok { name := some name, filter := filter, limitOne := false }
  else .ok { name := some name, filter := .exact name, limitOne := true }

/-- Either a name or all structs are selected. -/
def selection (layer : Layer) : Except SettingsError Selection :=
  let fileName := given layer.fileName
  match given layer.name, layer.all.getD false with
  | some _, true => .error .nameAndAll
  | none, false => .error .noSelection
  | none, true =>
    if fileName.isSome then .error .fileNameWithAll
    else .ok { name := none, filter := .everything, limitOne := false }
  | some name, false => selectName name fileName

/-- A shape with its own depth unless another one is set. -/
def describeOptions (layer : Layer) : Except SettingsError DescribeOptions :=
  let shape := layer.shape.getD .flat
  match layer.depth with
  | some 0 => .error .zeroDepth
  | some depth => .ok ⟨shape, depth⟩
  | none => .ok (.ofShape shape)

/-- Checks a layer and fills its gaps. All structs are looked for in subdirectories too. -/
def resolve (layer : Layer) : Except SettingsError Settings := do
  let selection ← layer.selection
  let describe ← layer.describeOptions
  return {
    selection := selection
    dir := layer.dir.getD ⟨"."⟩
    recursive := layer.all.getD false || layer.recursive.getD false
    output := layer.output.getD ⟨"./typeinfo"⟩
    case := layer.case.getD .camel
    keepTree := layer.keepTree.getD false
    fileName := given layer.fileName
    format := layer.format.getD .json
    describe := describe
    pretty := layer.pretty.getD false
    print := layer.print.getD false
    features := layer.features.getD [] }

end Layer

end StructInventory
