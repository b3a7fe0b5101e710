import StructInventory.Descriptor
import StructInventory.SortedMap

/-!
Documents: what is written about a struct. Its exported fields appear by their types, and a field
that holds a struct of the same package by the fields of that struct, down to a bound on the depth.
Without the bound a struct that holds itself would have no finite document.
-/

namespace StructInventory

/-- How the fields of inner structs appear: under dotted paths, or as objects within objects. -/
inductive Shape where
  | flat
  | nested
  deriving DecidableEq, Repr, Inhabited

namespace Shape

def text : Shape → String
  | flat => "flat"
  | nested => "nested"

def ofText? (text : String) : Option Shape :=
  if text = "flat" then some .flat
  else if text = "nested" then some .nested
  else none

def defaultDepth : Shape → Nat
  | flat => 4
  | nested => 3

end Shape

/-- `depth` is where inner structs are no longer opened; the struct's own fields have depth one. -/
structure DescribeOptions where
  shape : Shape
  depth : Nat
  deriving DecidableEq, Repr

namespace DescribeOptions

def ofShape (shape : Shape) : DescribeOptions := ⟨shape, shape.defaultDepth⟩

end DescribeOptions

inductive FieldEntry where
  | type (text : String)
  | struct (fields : List (String × FieldEntry))
  deriving Repr, Inhabited

/-- Fields by name or path, in increasing order. -/
inductive FieldMap where
  | flat (fields : SortedMap String)
  | nested (fields : SortedMap FieldEntry)
  deriving Repr, Inhabited

namespace FieldMap

def size : FieldMap → Nat
  | flat fields => fields.size
  | nested fields => fields.size

def isEmpty (fields : FieldMap) : Bool := fields.size = 0

def isFlat : FieldMap → Bool
  | flat _ => true
  | nested _ => false

end FieldMap

structure VarDoc where
  name : String
  type : String
  deriving Repr, DecidableEq, Inhabited

structure MethodDoc where
  description : String
  params : List VarDoc
  returns : Option VarDoc
  deriving Repr, DecidableEq, Inhabited

structure Document where
  fields : FieldMap
  methods : SortedMap MethodDoc
  deriving Repr, Inhabited

namespace FieldDesc

/-- The exported fields of the struct that a field holds; none if it holds no struct. -/
def innerFields (field : FieldDesc) : List FieldDesc :=
  (field.asStruct.map StructDesc.fields).getD []

/-- The path of a field below another path. -/
def pathBelow (above : String) (field : FieldDesc) : String :=
  if above = "" then field.name else above ++ "." ++ field.name

/-- The paths of fields and the types at their ends, when inner structs may be opened `levels` deep.
A struct without exported fields is not opened. -/
def flatPaths : Nat → String → List FieldDesc → List (String × String)
  | 0, above, fields => fields.map fun field => (field.pathBelow above, field.type.text)
  | levels + 1, above, fields =>
    fields.flatMap fun field =>
      if field.innerFields.isEmpty then [(field.pathBelow above, field.type.text)]
      else flatPaths levels (field.pathBelow above) field.innerFields

/-- The fields as entries, when inner structs may be opened `levels` deep. -/
def nestedEntries : Nat → List FieldDesc → SortedMap FieldEntry
  | 0, fields => .ofList (fields.map fun field => (field.name, .type field.type.text))
  | levels + 1, fields =>
    .ofList (fields.map fun field =>
      (field.name, match field.asStruct with
        | some inner => .struct (nestedEntries levels inner.fields).entries
        | none => .type field.type.text))

def doc (field : FieldDesc) : VarDoc := ⟨field.name, field.type.text⟩

end FieldDesc

namespace MethodDesc

def doc (method : MethodDesc) : MethodDoc :=
  { description := method.comment.getD ""
    params := method.params.map FieldDesc.doc
    returns := method.returns.map FieldDesc.doc }

end MethodDesc

namespace StructDesc

/-- The fields of a struct's document. -/
def fieldMap (struct : StructDesc) (options : DescribeOptions) : FieldMap :=
  match options.shape with
  | .flat => .flat (.ofList (FieldDesc.flatPaths (options.depth - 1) "" struct.fields))
  | .nested => .nested (FieldDesc.nestedEntries (options.depth - 1) struct.fields)

/-- What is written about a struct. Of methods of one name the last is kept. -/
def describe (struct : StructDesc) (options : DescribeOptions) : Document :=
  { fields := struct.fieldMap options
    methods := .ofList (struct.methods.map fun method => (method.name, method.doc)) }

end StructDesc

end StructInventory
