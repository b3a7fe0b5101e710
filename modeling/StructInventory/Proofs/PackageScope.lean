import Mathlib.Data.List.Nodup
import StructInventory.Grammar.File
import StructInventory.Package
import StructInventory.Proofs.SortedMap

/-!
The scope of a package. Methods are gathered before any type is declared, and go to the first
declaration that asks for them; a name goes to its first declaration as well. The two are always the
same, so a package lists the names that are declared, each once, with what its first declaration
says and with the methods of all blocks for it.
-/

namespace StructInventory

/-! ### Items without repetitions -/

section

variable {α : Type} [DecidableEq α]

theorem eraseDups_concat (items : List α) (item : α) :
    (items ++ [item]).eraseDups =
      if item ∈ items then items.eraseDups else items.eraseDups ++ [item] := by
  rw [List.eraseDups_append, List.removeAll, List.filter_singleton]
  by_cases repeated : item ∈ items <;> simp [repeated, List.eraseDups_cons]

theorem nodup_eraseDups (items : List α) : items.eraseDups.Nodup := by
  induction items using List.reverseRecOn with
  | nil => exact List.nodup_nil
  | append_singleton items item ih =>
    rw [eraseDups_concat]
    split
    · exact ih
    next fresh =>
      rw [← List.mem_eraseDups] at fresh
      simpa using List.Nodup.concat fresh ih

theorem eraseDups_of_nodup {items : List α} (nodup : items.Nodup) : items.eraseDups = items := by
  induction items using List.reverseRecOn with
  | nil => rfl
  | append_singleton items item ih =>
    obtain ⟨fresh, others⟩ := (List.nodup_concat items item).mp (by simpa using nodup)
    rw [eraseDups_concat, if_neg fresh, ih others]

end

/-! ### Scopes -/

namespace Scope

theorem lookup_insert (scope : Scope) (named : NamedType) (name : String) :
    (scope.insert named).1.lookup name =
      (scope.lookup name).or (if named.name = name then some named else none) := by
  unfold insert contains
  split
  next taken =>
    split
    next same =>
      rw [same] at taken
      exact (Option.or_of_isSome taken).symm
    next => exact (Option.or_none).symm
  next =>
    simp only [lookup, List.find?_append, List.find?_singleton]
    congr 1
    by_cases same : named.name = name <;> simp [same]

/-- The first of the types with a name is found, unless there was one before. -/
theorem lookup_insertAll (scope : Scope) (types : List NamedType) (name : String) :
    (scope.insertAll types).lookup name =
      (scope.lookup name).or (types.find? (·.name = name)) := by
  induction types generalizing scope with
  | nil => exact Option.or_none.symm
  | cons first rest ih =>
    show ((scope.insert first).1.insertAll rest).lookup name = _
    rw [ih, lookup_insert, Option.or_assoc, List.find?_cons]
    congr 1
    by_cases same : first.name = name <;> simp [same]

theorem contains_iff {scope : Scope} {name : String} :
    scope.contains name = true ↔ name ∈ scope.names := by
  simp [contains, lookup, names]

theorem names_insert (scope : Scope) (named : NamedType) :
    (scope.insert named).1.names =
      if scope.contains named.name then scope.names else scope.names ++ [named.name] := by
  unfold insert
  split <;> simp [names]

theorem insertAll_append (scope : Scope) (types more : List NamedType) :
    scope.insertAll (types ++ more) = (scope.insertAll types).insertAll more :=
  List.foldl_append

theorem insertAll_concat (scope : Scope) (types : List NamedType) (named : NamedType) :
    scope.insertAll (types ++ [named]) = ((scope.insertAll types).insert named).1 := by
  simp [insertAll, List.foldl_append]

theorem names_insertAll (types : List NamedType) :
    (empty.insertAll types).names = (types.map NamedType.name).eraseDups := by
  induction types using List.reverseRecOn with
  | nil => rfl
  | append_singleton types named ih =>
    have listed : (empty.insertAll types).contains named.name = true ↔
        named.name ∈ types.map NamedType.name := by
      rw [contains_iff, ih, List.mem_eraseDups]
    rw [insertAll_concat, names_insert, ih, List.map_append, List.map_singleton, eraseDups_concat]
    exact if_congr listed rfl rfl

/-- A scope without repeated names finds just what it holds. -/
theorem lookup_eq_some_iff {scope : Scope} (nodup : scope.names.Nodup) {name : String}
    {named : NamedType} :
    scope.lookup name = some named ↔ named ∈ scope.types ∧ named.name = name := by
  constructor
  · intro found
    exact ⟨List.mem_of_find?_eq_some found, by simpa using List.find?_some found⟩
  · rintro ⟨member, rfl⟩
    cases looked : scope.lookup named.name with
    | none => simpa using List.find?_eq_none.mp looked named member
    | some other =>
      have same : other.name = named.name := by simpa using List.find?_some looked
      rw [List.inj_on_of_nodup_map nodup (List.mem_of_find?_eq_some looked) member same]

end Scope

/-! ### What a package should hold -/

namespace SourceFile

/-- The blocks of methods in a file. -/
def blocks (file : SourceFile) : List ImplDecl :=
  file.items.filterMap fun
    | .methods decl => some decl
    | .type _ | .other => none

end SourceFile

namespace ImplDecl

/-- Whether a block is written for a type: its target is the type's name, which may stand behind
`self`, and either may stand behind a `::`. -/
def isFor (block : ImplDecl) (name : String) : Bool :=
  match block.target with
  | .named segments _ _ =>
    segments.dropLast ∈ [[], ["self"], [""], ["", "self"]] &&
      segments.getLast?.map unraw = some name
  | _ => false

theorem targetName?_eq_some_iff {block : ImplDecl} {name : String} :
    block.targetName? = some name ↔ block.isFor name = true := by
  unfold targetName? isFor
  cases block.target with
  | named segments arguments tokens =>
    rcases segments with _ | ⟨first, _ | ⟨second, _ | ⟨third, _ | ⟨fourth, rest⟩⟩⟩⟩
    · simp
    · simp
    · by_cases rooted : first = ""
      · simp [rooted]
      · by_cases behindSelf : first = "self" <;> simp [rooted, behindSelf]
    · by_cases rooted : first = ""
      · by_cases behindSelf : second = "self" <;> simp [rooted, behindSelf]
      · simp [rooted]
    · simp
  | _ => simp

end ImplDecl

namespace Package

/-- The functions that are built, of all blocks that are built and are written for a type. -/
def methodsOf (features : List String) (files : List ParsedFile) (name : String) : List Function :=
  files.flatMap fun file =>
    (file.source.blocks.filter fun block =>
        Condition.enabled features block.conditions && block.isFor name).flatMap fun block =>
      (block.functions.filter fun decl => Condition.enabled features decl.conditions).map
        (FunctionDecl.resolve file.path block.generics name)

/-- A declaration as a type, with its methods from all `files`. -/
def declaredType (features : List String) (files : List ParsedFile)
    (found : ParsedFile × TypeDecl) : NamedType :=
  { name := found.2.name
    file := found.1.path
    pos := found.2.pos
    exported := found.2.exported
    underlying := found.2.underlying features found.1.path
    methods := methodsOf features files found.2.name }

/-! ### Gathering methods -/

/-- What the table has for a name. -/
def waiting (table : SortedMap (List Function)) (name : String) : List Function :=
  (table.get? name).getD []

theorem waiting_addMethods (table : SortedMap (List Function)) (given : String × List Function)
    (name : String) :
    waiting (addMethods table given) name =
      waiting table name ++ if given.1 = name then given.2 else [] := by
  unfold waiting addMethods
  rw [SortedMap.get?_insert]
  by_cases same : given.1 = name
  · simp [same]
  · simp [same, Ne.symm same]

theorem waiting_foldl_addMethods (table : SortedMap (List Function))
    (given : List (String × List Function)) (name : String) :
    waiting (given.foldl addMethods table) name =
      waiting table name ++ (given.filter (·.1 = name)).flatMap Prod.snd := by
  induction given generalizing table with
  | nil => simp
  | cons first rest ih =>
    rw [List.foldl_cons, ih, waiting_addMethods, List.append_assoc]
    congr 1
    by_cases same : first.1 = name <;> simp [same]

/-- What one file gives to a type. -/
theorem methodsOfFile_filter (features : List String) (file : ParsedFile) (name : String) :
    ((methodsOfFile features file).filter (·.1 = name)).flatMap Prod.snd =
      methodsOf features [file] name := by
  unfold methodsOfFile methodsOf SourceFile.blocks
  rw [List.flatMap_singleton]
  -- One block after another: it is not built, has no target, or is for this name or another.
  generalize file.source.items = items
  induction items with
  | nil => rfl
  | cons item rest ih =>
    cases item with
    | type decl => simpa using ih
    | other => simpa using ih
    | methods block =>
      simp only [List.filterMap_cons]
      by_cases built : Condition.enabled features block.conditions = true
      · cases target : block.targetName? with
        | none =>
          have other : block.isFor name = false := by
            rw [← Bool.not_eq_true, ← ImplDecl.targetName?_eq_some_iff, target]
            simp
          simpa [built, other] using ih
        | some found =>
          by_cases same : found = name
          · subst same
            have own := ImplDecl.targetName?_eq_some_iff.mp target
            simpa [built, own, FunctionDecl.resolveAll] using ih
          · have other : block.isFor name = false := by
              rw [← Bool.not_eq_true, ← ImplDecl.targetName?_eq_some_iff, target]
              simpa using same
            simpa [built, other, same] using ih
      · simpa [built] using ih

/-- Before any type is declared, the table has for each name the methods of its type. -/
theorem waiting_methodTable (features : List String) (files : List ParsedFile) (name : String) :
    waiting (methodTable features files) name = methodsOf features files name := by
  rw [methodTable, waiting_foldl_addMethods]
  show [] ++ _ = _
  rw [List.nil_append]
  induction files with
  | nil => rfl
  | cons file rest ih =>
    rw [List.flatMap_cons, List.filter_append, List.flatMap_append, ih, methodsOfFile_filter]
    simp [methodsOf]

/-! ### Declaring types -/

namespace Assembly

/-- The methods of a name that is not in scope have not been taken. -/
def Untaken (features : List String) (files : List ParsedFile) (assembly : Assembly) : Prop :=
  ∀ name, assembly.scope.contains name = false →
    waiting assembly.methods name = methodsOf features files name

variable {features : List String} {files : List ParsedFile}

/-- A type that comes into scope takes all its methods. One that comes too late takes none, and is
not kept. -/
theorem Untaken.declare_scope {assembly : Assembly} (untaken : assembly.Untaken features files)
    (found : ParsedFile × TypeDecl) :
    (assembly.declare features found).scope =
      (assembly.scope.insert (declaredType features files found)).1 := by
  cases taken : assembly.scope.contains found.2.name with
  | true => simp [declare, Scope.insert, declaredType, taken]
  | false =>
    have methods := untaken found.2.name taken
    unfold waiting at methods
    simp only [declare, declaredType, methods]

theorem Untaken.declare {assembly : Assembly} (untaken : assembly.Untaken features files)
    (found : ParsedFile × TypeDecl) : (assembly.declare features found).Untaken features files := by
  intro name absent
  -- The name declared now is in scope from here on, so only other names have to keep theirs.
  rw [untaken.declare_scope] at absent
  have other : found.2.name ≠ name := by
    rintro rfl
    simp [Scope.contains, Scope.lookup_insert, declaredType] at absent
  have before : assembly.scope.contains name = false := by
    simpa [Scope.contains, Scope.lookup_insert, declaredType, other] using absent
  rw [← untaken name before]
  unfold waiting
  rw [show (assembly.declare features found).methods = assembly.methods.erase found.2.name from rfl,
    SortedMap.get?_erase, if_neg other.symm]

/-- Declaring types in turn comes to inserting each with all its methods. -/
theorem Untaken.foldl_declare {assembly : Assembly} (untaken : assembly.Untaken features files)
    (declared : List (ParsedFile × TypeDecl)) :
    (declared.foldl (Assembly.declare features) assembly).scope =
      assembly.scope.insertAll (declared.map (declaredType features files)) := by
  induction declared generalizing assembly with
  | nil => rfl
  | cons first rest ih =>
    rw [List.foldl_cons, ih (untaken.declare first), untaken.declare_scope]
    rfl

end Assembly

theorem ofFiles_scope (dir : PathText) (files : List ParsedFile) (features : List String) :
    (ofFiles dir files features).scope =
      Scope.empty.insertAll ((declarations features files).map (declaredType features files)) := by
  have untaken : Assembly.Untaken features files ⟨.empty, methodTable features files⟩ :=
    fun name _ => waiting_methodTable features files name
  exact untaken.foldl_declare (declarations features files)

/-! ### What names stand for -/

theorem ofFiles_names (dir : PathText) (files : List ParsedFile) (features : List String) :
    (ofFiles dir files features).scope.names =
      ((declarations features files).map fun found => found.2.name).eraseDups := by
  rw [ofFiles_scope, Scope.names_insertAll, List.map_map]
  rfl

theorem ofFiles_names_nodup (dir : PathText) (files : List ParsedFile) (features : List String) :
    (ofFiles dir files features).scope.names.Nodup := by
  rw [ofFiles_names]
  exact nodup_eraseDups _

theorem ofFiles_lookup (dir : PathText) (files : List ParsedFile) (features : List String)
    (name : String) :
    (ofFiles dir files features).scope.lookup name =
      ((declarations features files).find? (·.2.name = name)).map
        (declaredType features files) := by
  rw [ofFiles_scope, Scope.lookup_insertAll, List.find?_map]
  rfl

theorem mem_declarations {features : List String} {files : List ParsedFile}
    {found : ParsedFile × TypeDecl} (member : found ∈ declarations features files) :
    found.1 ∈ files ∧ found.2 ∈ found.1.source.typeDecls := by
  obtain ⟨file, listed, inside⟩ := List.mem_flatMap.mp member
  obtain ⟨decl, declared, rfl⟩ := List.mem_map.mp inside
  exact ⟨listed, List.mem_of_mem_filter declared⟩

/-- What is in scope comes from the first declaration of its name. -/
theorem exists_declaration {dir : PathText} {files : List ParsedFile} {features : List String}
    {named : NamedType} (member : named ∈ (ofFiles dir files features).scope.types) :
    ∃ found, (declarations features files).find? (·.2.name = named.name) = some found ∧
      declaredType features files found = named := by
  have looked := (Scope.lookup_eq_some_iff (ofFiles_names_nodup dir files features)).mpr
    ⟨member, rfl⟩
  rw [ofFiles_lookup] at looked
  exact Option.map_eq_some_iff.mp looked

theorem declaredType_isStruct (features : List String) (files : List ParsedFile)
    (found : ParsedFile × TypeDecl) :
    (declaredType features files found).isStruct = found.2.isStruct := by
  unfold NamedType.isStruct TypeDecl.isStruct declaredType TypeDecl.underlying
  rcases found.2.form with _ | _ | _ | target
  · rfl
  · rfl
  · rfl
  · cases target <;> rfl

end Package

/-- A member of a struct that a field, which has an index among all fields, is resolved to. -/
structure FieldDecl.Resolves (scope : TypeScope) (field : FieldDecl × Nat) (member : Variable) :
    Prop where
  name : member.name = field.1.name.elim (toString field.2) Ident.text
  type : member.type = .ofExpr scope field.1.type
  exported : member.exported = field.1.exported
  pos : member.pos = field.1.pos

/-- What a form of declaration is resolved to. A struct has the fields that are built, in order; a
name for a function type is a signature and no alias. -/
inductive TypeDecl.Forms (features : List String) (file : PathText) (decl : TypeDecl) :
    TypeForm → Underlying → Prop where
  | struct {fields : List FieldDecl} {members : List Variable}
      (each : List.Forall₂ (FieldDecl.Resolves ⟨decl.generics, some decl.name⟩)
        (fields.zipIdx.filter fun field => Condition.enabled features field.1.conditions) members) :
      Forms features file decl (.struct fields) (.struct members)
  | enum : Forms features file decl .enum .enum
  | trait (functions : List FunctionDecl) :
      Forms features file decl (.trait functions) (.interface
        ((functions.filter fun found => Condition.enabled features found.conditions).map
          (FunctionDecl.resolve file decl.generics decl.name)))
  | signature (tokens : List Token) :
      Forms features file decl (.alias (.function tokens))
        (.signature (.ofExpr ⟨decl.generics, none⟩ (.function tokens)))
  | alias {target : TypeExpr} (other : ∀ tokens, target ≠ .function tokens) :
      Forms features file decl (.alias target) (.alias (.ofExpr ⟨decl.generics, none⟩ target))

theorem TypeDecl.forms_underlying (features : List String) (file : PathText) (decl : TypeDecl) :
    decl.Forms features file decl.form (decl.underlying features file) := by
  unfold underlying
  split
  next fields form =>
    rw [form]
    refine .struct (List.forall₂_map_right_iff.mpr (List.forall₂_same.mpr ?_))
    rintro ⟨field, index⟩ -
    cases named : field.name <;> exact ⟨by simp [FieldDecl.resolve, named], rfl, rfl, rfl⟩
  next form => rw [form]; exact .enum
  next functions form => rw [form]; exact .trait functions
  next tokens form => rw [form]; exact .signature tokens
  next target other form => rw [form]; exact .alias other

/-- A type that a declaration is resolved to, with the methods that `files` have for it. -/
structure TypeDecl.Resolves (features : List String) (files : List ParsedFile)
    (found : ParsedFile × TypeDecl) (named : NamedType) : Prop where
  name : named.name = found.2.name
  file : named.file = found.1.path
  pos : named.pos = found.2.pos
  exported : named.exported = found.2.exported
  form : found.2.Forms features found.1.path found.2.form named.underlying
  methods : named.methods = Package.methodsOf features files found.2.name

namespace Package

/-- A package has the names that are declared, in the order in which they first are. A name stands
for its first declaration, and has the methods of all blocks for it in all files. -/
theorem scope_holds_first_declarations (dir : PathText) (files : List ParsedFile)
    (features : List String) :
    (ofFiles dir files features).scope.names =
      ((declarations features files).map fun found => found.2.name).eraseDups ∧
    ∀ name, Option.Rel (TypeDecl.Resolves features files)
      ((declarations features files).find? (·.2.name = name))
      ((ofFiles dir files features).scope.lookup name) := by
  refine ⟨ofFiles_names dir files features, fun name => ?_⟩
  rw [ofFiles_lookup]
  cases (declarations features files).find? (·.2.name = name) with
  | none => exact .none
  | some found =>
    exact .some ⟨rfl, rfl, rfl, rfl, found.2.forms_underlying features found.1.path, rfl⟩

/-- A block for the path `::P`, which is neither `P` nor `self::P`, gives methods to the type. -/
theorem rooted_block_gives_methods :
    (SourceFile.read "pub struct P;\nimpl ::P \x7b pub fn f(&self) \x7b\x7d \x7d\n").toOption.map
      (fun source =>
        (source.blocks.map fun block => match block.target with
          | .named segments _ _ => segments
          | _ => [],
        (ofFiles ⟨"p"⟩ [⟨⟨"p/a.rs"⟩, "", source⟩] []).scope.types.map fun named =>
          (named.name, named.methods.map Function.name))) =
      some ([["", "P"]], [("P", ["f"])]) := by
  decide +kernel

end Package

end StructInventory
