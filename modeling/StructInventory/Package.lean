import StructInventory.Scope
import StructInventory.SortedMap
import StructInventory.SourceFile
import StructInventory.FileScan

/-!
Packages. A package is what the files of one directory declare together: its types in file and then
source order, each with the methods of all blocks that are written for it, wherever they stand.
Declarations whose conditions are false are left out. Since a block may stand before its type, the
methods are gathered before any type is declared.
-/

namespace StructInventory

/-- A file, its text and what that declares. -/
structure ParsedFile where
  path : PathText
  text : String
  source : SourceFile
  deriving Inhabited

structure Package where
  name : String
  dir : PathText
  files : List PathText
  scope : Scope
  deriving Inhabited

namespace FieldDecl

/-- A field of a struct; one without a name is called by its index. -/
def resolve (scope : TypeScope) (index : Nat) (field : FieldDecl) : Variable :=
  { name := (field.name.map Ident.text).getD (toString index)
    type := .ofExpr scope field.type
    exported := field.exported
    pos := field.pos }

end FieldDecl

namespace SignatureDecl

/-- What a signature returns: nothing, or the members of a tuple, or one value. -/
def results (scope : TypeScope) : Option (TypeExpr × Pos) → List Variable
  | none => []
  | some (.tuple items, pos) => items.map fun item => ⟨"", .ofExpr scope item, true, pos⟩
  | some (type, pos) => [⟨"", .ofExpr scope type, true, pos⟩]

/-- A signature within a declaration that is generic over `params` and in which `Self` stands for
`selfName`. -/
def resolve (params : List String) (selfName : String) (decl : SignatureDecl) : Signature :=
  let scope : TypeScope := ⟨params ++ decl.generics, some selfName⟩
  { params := decl.params.map fun param => ⟨param.name, .ofExpr scope param.type, true, param.pos⟩
    results := results scope decl.output
    receiver := decl.receiver }

end SignatureDecl

namespace FunctionDecl

def resolve (file : PathText) (params : List String) (selfName : String) (decl : FunctionDecl) :
    Function :=
  { name := decl.name
    exported := decl.exported
    file := file
    pos := decl.pos
    signature := decl.signature.resolve params selfName }

/-- The functions of a trait or block that are built. -/
def resolveAll (features : List String) (file : PathText) (params : List String)
    (selfName : String) (decls : List FunctionDecl) : List Function :=
  (decls.filter fun decl => Condition.enabled features decl.conditions).map
    (resolve file params selfName)

end FunctionDecl

namespace ImplDecl

/-- The type that a block is written for: a name, perhaps behind `self::`. -/
def targetName? (decl : ImplDecl) : Option String :=
  match decl.target with
  | .named ["", name] _ _ => some (unraw name)
  | .named [name] _ _ => some (unraw name)
  | .named ["self", name] _ _ => some (unraw name)
  | .named ["", "self", name] _ _ => some (unraw name)
  | _ => none

end ImplDecl

namespace TypeDecl

/-- The fields that are built, each numbered by its place among all of them. -/
def structFields (features : List String) (scope : TypeScope) (fields : List FieldDecl) :
    List Variable :=
  (fields.zipIdx.filter fun (field, _) => Condition.enabled features field.conditions).map
    fun (field, index) => field.resolve scope index

def underlying (features : List String) (file : PathText) (decl : TypeDecl) : Underlying :=
  match decl.form with
  | .struct fields =>
    .struct (structFields features ⟨decl.generics, some decl.name⟩ fields)
  | .enum => .enum
  | .trait functions =>
    .interface (FunctionDecl.resolveAll features file decl.generics decl.name functions)
  | .alias (.function tokens) => .signature (.ofExpr ⟨decl.generics, none⟩ (.function tokens))
  | .alias target => .alias (.ofExpr ⟨decl.generics, none⟩ target)

end TypeDecl

namespace Package

/-- The methods that a file's blocks give to types, with the type's name. -/
def methodsOfFile (features : List String) (file : ParsedFile) : List (String × List Function) :=
  file.source.items.filterMap fun
    | .methods decl =>
      if Condition.enabled features decl.conditions then
        decl.targetName?.map fun name =>
          (name, FunctionDecl.resolveAll features file.path decl.generics name decl.functions)
      else none
    | .type _ | .other => none

/-- Adds what a block gives to a type behind what it was given before. -/
def addMethods (table : SortedMap (List Function)) (given : String × List Function) :
    SortedMap (List Function) :=
  table.insert given.1 ((table.get? given.1).getD [] ++ given.2)

/-- The methods that all files give to types. -/
def methodTable (features : List String) (files : List ParsedFile) : SortedMap (List Function) :=
  (files.flatMap (methodsOfFile features)).foldl addMethods .empty

/-- The type declarations that are built, each with its file. -/
def declarations (features : List String) (files : List ParsedFile) :
    List (ParsedFile × TypeDecl) :=
  files.flatMap fun file =>
    (file.source.typeDecls.filter fun decl => Condition.enabled features decl.conditions).map
      fun decl => (file, decl)

/-- A scope that is being filled, and the methods that no type has taken yet. -/
structure Assembly where
  scope : Scope
  methods : SortedMap (List Function)

namespace Assembly

/-- Declares a type, which takes the methods that are there for its name. -/
def declare (features : List String) (assembly : Assembly) (found : ParsedFile × TypeDecl) :
    Assembly :=
  let (file, decl) := found
  let named : NamedType :=
    { name := decl.name
      file := file.path
      pos := decl.pos
      exported := decl.exported
      underlying := decl.underlying features file.path
      methods := (assembly.methods.get? decl.name).getD [] }
  ⟨(assembly.scope.insert named).1, assembly.methods.erase decl.name⟩

end Assembly

/-- The package that files make up. It is named for its directory. -/
def ofFiles (dir : PathText) (files : List ParsedFile) (features : List String) : Package :=
  { name := dir.fileName?.getD "crate"
    dir := dir
    files := files.map ParsedFile.path
    scope := ((declarations features files).foldl (Assembly.declare features)
      ⟨.empty, methodTable features files⟩).scope }

end Package

end StructInventory
