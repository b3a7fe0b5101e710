import StructInventory.Json

/-!
Rendering a struct as a text: its document as JSON, or a plain listing of one level of fields and
the signatures of methods.
-/

namespace StructInventory

inductive Format where
  | json
  | txt
  deriving DecidableEq, Repr, Inhabited

namespace Format

def text : Format → String
  | json => "json"
  | txt => "txt"

def ofText? (text : String) : Option Format :=
  if text = "json" then some .json
  else if text = "txt" || text = "text" then some .txt
  else none

/-- The extension of files in a format, without its dot. -/
def extension : Format → String
  | json => "json"
  | txt => "txt"

end Format

namespace FieldDesc

/-- A parameter without a name is shown by its type alone. -/
def paramText (field : FieldDesc) : String :=
  if field.name = "" then field.type.text else field.listing

end FieldDesc

namespace StructDesc

def methodLine (method : MethodDesc) : String :=
  "- " ++ method.name ++ ": (" ++
    String.intercalate ", " (method.params.map FieldDesc.paramText) ++ ") (" ++
    (method.returns.elim "" fun result => result.type.text) ++ ")"

/-- The plain listing of a struct. -/
def plainText (struct : StructDesc) : String :=
  let lines :=
    ["Generated in txt format", "Struct: " ++ struct.name] ++ struct.comment.toList ++
      ["Fields:"] ++ (struct.fields.map fun field => "- " ++ field.listing) ++
      ["Methods:"] ++ struct.methods.map methodLine
  String.intercalate "\n" lines ++ "\n"

end StructDesc

/-- How structs are rendered. -/
structure Renderer where
  format : Format
  options : DescribeOptions
  pretty : Bool

namespace Renderer

def render (renderer : Renderer) (struct : StructDesc) : String :=
  match renderer.format with
  | .txt => struct.plainText
  | .json =>
    let json := (struct.describe renderer.options).json
    if renderer.pretty then json.pretty else json.compact

end Renderer

end StructInventory
