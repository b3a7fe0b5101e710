import StructInventory.FileTree
import StructInventory.OptionWord
import StructInventory.Text.Property
import StructInventory.Toml.Reader

/-!
Layers of settings. A file in the TOML format and the command line each make one; what a layer sets
stands over what the layers below it set.
-/

namespace StructInventory

/-- Every setting, each of which may be left open. -/
structure Layer where
  name : Option String := none
  all : Option Bool := none
  dir : Option PathText := none
  recursive : Option Bool := none
  output : Option PathText := none
  case : Option Case := none
  keepTree : Option Bool := none
  fileName : Option String := none
  format : Option Format := none
  shape : Option Shape := none
  depth : Option Nat := none
  pretty : Option Bool := none
  print : Option Bool := none
  features : Option (List String) := none
  logLevel : Option String := none
  quiet : Option Bool := none

namespace Layer

/-- A layer with another one over it. -/
def merge (below above : Layer) : Layer where
  name := above.name.or below.name
  all := above.all.or below.all
  dir := above.dir.or below.dir
  recursive := above.recursive.or below.recursive
  output := above.output.or below.output
  case := above.case.or below.case
  keepTree := above.keepTree.or below.keepTree
  fileName := above.fileName.or below.fileName
  format := above.format.or below.format
  shape := above.shape.or below.shape
  depth := above.depth.or below.depth
  pretty := above.pretty.or below.pretty
  print := above.print.or below.print
  features := above.features.or below.features
  logLevel := above.logLevel.or below.logLevel
  quiet := above.quiet.or below.quiet

end Layer

namespace Toml.Value

def text? : Value → Option String
  | .text content => some content
  | _ => none

def boolean? : Value → Option Bool
  | .boolean value => some value
  | _ => none

def natural? : Value → Option Nat
  | .integer (.ofNat value) => some value
  | _ => none

def texts? : Value → Option (List String)
  | .list values => values.mapM text?
  | _ => none

def isEmpty : Value → Bool
  | .list values => values.isEmpty
  | .table _ entries => entries.isEmpty
  | _ => false

/-- A word that makes a choice: a text, or a table whose only key it is, with nothing in it. -/
def word? : Value → Option String
  | .text content => some content
  | .table _ [(word, value)] => if value.isEmpty then some word else none
  | _ => none

end Toml.Value

namespace Layer

/-- Takes one entry of a file into a layer; there are no other keys than these. -/
def addEntry? (layer : Layer) (entry : String × Toml.Value) : Option Layer :=
  let (key, value) := entry
  match key with
  | "name" => do return { layer with name := some (← value.text?) }
  | "all" => do return { layer with all := some (← value.boolean?) }
  | "dir" => do return { layer with dir := some ⟨← value.text?⟩ }
  | "recursive" => do return { layer with recursive := some (← value.boolean?) }
  | "output" => do return { layer with output := some ⟨← value.text?⟩ }
  | "case" => do return { layer with case := some (← (← value.word?) |> Case.ofText?) }
  | "keeptree" => do return { layer with keepTree := some (← value.boolean?) }
  | "filename" => do return { layer with fileName := some (← value.text?) }
  | "format" => do return { layer with format := some (← (← value.word?) |> Format.ofText?) }
  | "shape" => do return { layer with shape := some (← (← value.word?) |> Shape.ofText?) }
  | "depth" => do return { layer with depth := some (← value.natural?) }
  | "pretty" => do return { layer with pretty := some (← value.boolean?) }
  | "print" => do return { layer with print := some (← value.boolean?) }
  | "tags" => do return { layer with features := some (← value.texts?) }
  | "log-level" => do return { layer with logLevel := some (← value.text?) }
  | "quiet" => do return { layer with quiet := some (← value.boolean?) }
  | _ => none

/-- The layer that a text in the TOML format describes. -/
def read? (text : String) : Option Layer := do
  (← Toml.read? text).foldlM addEntry? {}

/-- A text without the blanks at its ends. -/
def trimmed (text : String) : String :=
  let strip (cs : List Char) : List Char := (cs.dropWhile Text.isBlank).reverse
  String.ofList (strip (strip text.toList))

/-- What is to be logged, if anything. -/
def logFilter (layer : Layer) : Option String :=
  if layer.quiet = some true then none
  else
    let level := trimmed (layer.logLevel.getD "info")
    if level = "" then none else some level

end Layer

end StructInventory
