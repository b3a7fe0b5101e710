import StructInventory.Loader
import StructInventory.Text.Escaped

/-!
Descriptors of structs, of their exported fields and of their exported methods. A descriptor is a
view of a loaded package: what it says is looked up when it is asked for.
-/

namespace StructInventory

structure StructDesc where
  named : NamedType
  package : LoadedPackage
  deriving Inhabited

/-- A field, a parameter or a result. `file` is where its comment is looked for, if it has one. -/
structure FieldDesc where
  member : Variable
  file : Option PathText
  package : LoadedPackage
  deriving Inhabited

structure MethodDesc where
  function : Function
  package : LoadedPackage
  deriving Inhabited

namespace FieldDesc

def name (field : FieldDesc) : String := field.member.name

def type (field : FieldDesc) : TypeDesc := field.member.type

def comment (field : FieldDesc) : Option String :=
  field.file.bind fun file => field.package.commentFor file field.member.pos

/-- The struct that the field's type names, by itself or behind one pointer. -/
def asStruct (field : FieldDesc) : Option StructDesc := do
  let name ← field.type.derefOnce.localName?
  let named ← field.package.package.scope.lookupStruct name
  return ⟨named, field.package⟩

/-- A field as a listing shows it. -/
def listing (field : FieldDesc) : String := field.name ++ ": " ++ field.type.text

end FieldDesc

namespace MethodDesc

def name (method : MethodDesc) : String := method.function.name

def comment (method : MethodDesc) : Option String :=
  method.package.commentFor method.function.file method.function.pos

/-- Whether the method is called on a value. -/
def receiver (method : MethodDesc) : Bool := method.function.signature.receiver

def field (method : MethodDesc) (member : Variable) : FieldDesc :=
  ⟨member, none, method.package⟩

def params (method : MethodDesc) : List FieldDesc :=
  method.function.signature.params.map method.field

/-- The first result; further members of a tuple are not reported. -/
def returns (method : MethodDesc) : Option FieldDesc :=
  method.function.signature.results.head?.map method.field

def bracketed (items : List String) : String := "[" ++ String.intercalate ", " items ++ "]"

/-- A method as a listing shows it. -/
def listing (method : MethodDesc) : String :=
  "Method \x7b name: " ++ Text.quoted method.name ++ ", params: " ++
    bracketed (method.params.map FieldDesc.listing) ++ ", returns: " ++
    (method.returns.elim "None" fun result => "Some(" ++ result.listing ++ ")") ++ " \x7d"

end MethodDesc

namespace StructDesc

def name (struct : StructDesc) : String := struct.named.name

def packageName (struct : StructDesc) : String := struct.package.package.name

/-- The name behind that of the package. -/
def qualifiedName (struct : StructDesc) : String := struct.packageName ++ "::" ++ struct.name

/-- The file that declares the struct. -/
def file (struct : StructDesc) : PathText := struct.named.file

def comment (struct : StructDesc) : Option String :=
  struct.package.commentFor struct.file struct.named.pos

/-- Exported fields, in order of declaration. -/
def fields (struct : StructDesc) : List FieldDesc :=
  match struct.named.underlying with
  | .struct members =>
    (members.filter (·.exported)).map fun member => ⟨member, some struct.file, struct.package⟩
  | _ => []

/-- Exported methods, in the order of the type's methods. -/
def methods (struct : StructDesc) : List MethodDesc :=
  (struct.named.methods.filter (·.exported)).map fun function => ⟨function, struct.package⟩

/-- A struct as a listing shows it. -/
def listing (struct : StructDesc) : String :=
  "Struct \x7b name: " ++ Text.quoted struct.qualifiedName ++ ", file: " ++
    Text.quotedStrictly struct.file.text ++ " \x7d"

end StructDesc

namespace Loader

/-- The items of a list without later repetitions. -/
def firsts : List String → List String → List String
  | _, [] => []
  | seen, name :: rest =>
    if seen.contains name then firsts seen rest else name :: firsts (name :: seen) rest

/-- The structs that a loaded file contributes: those of its package's scope that it declares. -/
def structsOf (entry : LoadedFile) : List StructDesc :=
  match entry.package.scan? entry.file with
  | none => []
  | some scan =>
    (firsts [] scan.structs).filterMap fun name => do
      let named ← entry.package.package.scope.lookup name
      if named.isStruct && named.file.same entry.file then some ⟨named, entry.package⟩ else none

/-- All structs of the loaded files, in loading order. -/
def structs (loader : Loader) : List StructDesc := loader.entries.flatMap structsOf

/-- The first struct of a name. -/
def find (loader : Loader) (name : String) : Except InventoryError StructDesc :=
  match loader.structs.find? (·.name = name) with
  | some struct => .ok struct
  | none => .error (.structNotFound name)

end Loader

end StructInventory
