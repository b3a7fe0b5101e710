import StructInventory.Proofs.AcceptedItem
import StructInventory.Proofs.AliasChain

/-!
Fields that are written with the name of a struct. A struct is declared by an identifier, and a field
whose type is that name, or a pointer to it, holds the struct; generic arguments make no difference.
The names of smart pointers are the exception: with one argument such a name is a pointer, whatever is
declared under it.
-/

namespace StructInventory

namespace TypeExpr

/-- The name and the arguments of a type that is a single name, perhaps in parentheses. -/
def single? : TypeExpr → Option (String × List TypeArgument)
  | .named segments arguments _ =>
    if segments.length = 1 then segments.head?.map fun name => (name, arguments) else none
  | .paren inner => inner.single?
  | .reference _ _ _ | .pointer _ _ | .slice _ | .array _ _ | .tuple _ | .never | .function _ | .other _ =>
    none

/-- The name and the arguments of a type that is a name by itself or behind one reference or raw
pointer. -/
def pointed? : TypeExpr → Option (String × List TypeArgument)
  | .reference _ _ target | .pointer _ target => target.single?
  | .paren inner => inner.pointed?
  | .named segments arguments tokens => (named segments arguments tokens).single?
  | .slice _ | .array _ _ | .tuple _ | .never | .function _ | .other _ => none

end TypeExpr

/-- The fields of a struct; no other declaration has any. -/
def TypeDecl.fields (decl : TypeDecl) : List FieldDecl :=
  match decl.form with
  | .struct fields => fields
  | .enum | .trait _ | .alias _ => []

/-- A name of a smart pointer with one argument, which is no lifetime. -/
structure SmartPointer (scope : TypeScope) (name : String) (arguments : List TypeArgument) : Prop where
  wrapper : name ∈ ["Box", "Rc", "Arc"]
  target : ∃ argument, arguments = [argument] ∧ (TypeDesc.ofArgument scope argument).isLifetime = false

/-- A field that a package shows: it belongs to the first declaration of its struct's name, is built
and is exported. -/
structure ShownField (features : List String) (files : List ParsedFile) (file : ParsedFile)
    (decl : TypeDecl) (field : FieldDecl) (index : Nat) : Prop where
  first : (Package.declarations features files).find? (·.2.name = decl.name) = some (file, decl)
  member : decl.fields[index]? = some field
  built : Condition.enabled features field.conditions = true
  exported : field.exported = true

namespace TypeDesc

variable {scope : TypeScope} {name : String} {arguments : List TypeArgument} {type : TypeExpr}

theorem ofWrapper?_eq_none (other : name ∉ ["Box", "Rc", "Arc"]) : PointerKind.ofWrapper? name = none := by
  simp only [List.mem_cons, List.not_mem_nil, or_false, not_or] at other
  simp [PointerKind.ofWrapper?, other]

theorem wrapped?_eq_none (plain : ¬SmartPointer scope name arguments) :
    wrapped? [name] (ofArguments scope arguments) = none := by
  -- A pointer needs both the name and exactly one argument that is no lifetime.
  by_cases wrapper : name ∈ ["Box", "Rc", "Arc"]
  · match arguments with
    | [] => simp [ofArguments, wrapped?]
    | [argument] =>
      have lifetime : (ofArgument scope argument).isLifetime = true := by
        by_contra other
        exact plain ⟨wrapper, argument, rfl, by simpa using other⟩
      cases kind : PointerKind.ofWrapper? name <;> simp [ofArguments, wrapped?, kind, lifetime]
    | first :: second :: rest => simp [ofArguments, wrapped?]
  · simp [wrapped?, ofWrapper?_eq_none wrapper]

/-- A name that is not read as a pointer is kept, with its arguments. -/
theorem ofPath_name (concrete : name ∉ scope.params) (declared : name ≠ "Self")
    (plain : ¬SmartPointer scope name arguments) :
    ofPath scope [name] (ofArguments scope arguments) = .named [name] (ofArguments scope arguments) := by
  have kept := wrapped?_eq_none plain
  cases arguments with
  | nil => simp [ofArguments, ofPath, ofName, concrete, declared]
  | cons first rest =>
    rw [ofArguments] at kept ⊢
    rw [ofPath, kept, Option.getD_none]
    simp

theorem ofExpr_single (written : type.single? = some (name, arguments)) :
    ofExpr scope type = ofPath scope [name] (ofArguments scope arguments) := by
  -- Parentheses are dropped from the descriptor as they are from the name.
  fun_induction TypeExpr.single? type with
  | case1 segments arguments' tokens one =>
    obtain ⟨only, rfl⟩ := List.length_eq_one_iff.mp one
    cases written
    rfl
  | case2 => cases written
  | case3 inner ih => exact ih written
  | _ => cases written

/-- A type leads to the name that it is written with. -/
theorem leadsTo_of_pointed (written : type.pointed? = some (name, arguments))
    (concrete : name ∉ scope.params) (declared : name ≠ "Self")
    (plain : ¬SmartPointer scope name arguments) : (ofExpr scope type).LeadsTo name := by
  have isLocal {target : TypeExpr} (named : target.single? = some (name, arguments)) :
      (ofExpr scope target).IsLocal name := by
    rw [ofExpr_single named, ofPath_name concrete declared plain]
    exact ⟨_, .inl rfl⟩
  -- One reference or raw pointer is seen through, and any parentheses around it.
  fun_induction TypeExpr.pointed? type with
  | case1 lifetime mutable target => exact .pointer (isLocal written)
  | case2 mutable target => exact .pointer (isLocal written)
  | case3 inner ih => exact ih written
  | case4 segments arguments' tokens => exact .plain (isLocal written)
  | _ => cases written

end TypeDesc

namespace FieldDesc

variable {dir : PathText} {files : List ParsedFile} {features : List String} {loaded : LoadedPackage}
  {file : ParsedFile} {decl : TypeDecl} {field : FieldDecl} {index : Nat} {name : String}
  {arguments : List TypeArgument} {target : NamedType}

/-- A declared field that is built and exported is a field of the struct. -/
theorem mem_fields (made : loaded.package = .ofFiles dir files features)
    (shown : ShownField features files file decl field index) :
    ∃ struct : StructDesc, struct.package = loaded ∧
      loaded.package.scope.lookup decl.name = some struct.named ∧
      ⟨field.resolve ⟨decl.generics, some decl.name⟩ index, some file.path, loaded⟩ ∈ struct.fields := by
  obtain ⟨fields, form, member⟩ : ∃ fields, decl.form = .struct fields ∧ fields[index]? = some field := by
    have member := shown.member
    unfold TypeDecl.fields at member
    split at member
    next fields form => exact ⟨fields, form, member⟩
    all_goals cases member
  refine ⟨⟨Package.declaredType features files (file, decl), loaded⟩, rfl, ?_, ?_⟩
  · rw [made, Package.ofFiles_lookup, shown.first]
    rfl
  · simp only [StructDesc.fields, Package.declaredType, TypeDecl.underlying, form]
    refine List.mem_map.mpr ⟨_, List.mem_filter.mpr ⟨?_, shown.exported⟩, rfl⟩
    refine List.mem_map.mpr ⟨(field, index), List.mem_filter.mpr ⟨?_, shown.built⟩, rfl⟩
    exact List.mem_zipIdx_iff_getElem?.mpr member

/-- What the fields of a package's structs hold. -/
def heldStructs (loaded : LoadedPackage) : List (String × List (String × Option String)) :=
  (loaded.package.scope.types.filter NamedType.isStruct).map fun named =>
    (named.name, (StructDesc.mk named loaded).fields.map fun field =>
      (field.name, field.asStruct.map StructDesc.name))

/-- A field whose type is written with the name of a struct, by itself or behind one pointer, holds
that struct, whatever the arguments are. The name is no generic parameter of the struct around the
field, and it is not the name of a smart pointer with what that points to. -/
theorem asStruct_of_struct_name (made : loaded.package = .ofFiles dir files features)
    (sources : ∀ file ∈ files, SourceFile.read file.text = .ok file.source)
    (shown : ShownField features files file decl field index)
    (written : field.type.pointed? = some (name, arguments)) (concrete : name ∉ decl.generics)
    (plain : ¬SmartPointer ⟨decl.generics, some decl.name⟩ name arguments)
    (inScope : target ∈ loaded.package.scope.types) (isStruct : target.isStruct = true)
    (named : target.name = name) :
    ∃ struct : StructDesc, struct.package = loaded ∧
      loaded.package.scope.lookup decl.name = some struct.named ∧
      ∃ found ∈ struct.fields, found.member = field.resolve ⟨decl.generics, some decl.name⟩ index ∧
        found.asStruct = some ⟨target, loaded⟩ := by
  obtain ⟨struct, same, declared, listed⟩ := mem_fields made shown
  refine ⟨struct, same, declared, _, listed, rfl, ?_⟩
  -- No declaration is called `Self`, so the name is not replaced.
  have other : name ≠ "Self" := by
    rw [made] at inScope
    exact named ▸ (Package.declarable_of_mem sources inScope).ne_self
  -- Names are bound once in a scope, so the struct is what the name is bound to.
  have binds : loaded.package.scope.Binds name target := by
    constructor
    · rw [made] at inScope ⊢
      exact (Scope.lookup_eq_some_iff (Package.ofFiles_names_nodup dir files features)).mpr ⟨inScope, named⟩
    · unfold NamedType.isStruct at isStruct
      split at isStruct
      next fields form => exact ⟨fields, form⟩
      · cases isStruct
  refine asStruct_eq_some_iff.mpr ⟨rfl, [name], ⟨name, rfl, ?_⟩, Scope.follows_singleton.mpr binds⟩
  exact TypeDesc.leadsTo_of_pointed written concrete other plain

/-- The struct was declared with a raw identifier, and its name stands behind a reference and has an
argument. -/
theorem asStruct_of_struct_name_raw :
    let text := "pub struct r#V<T>(pub T);\npub struct S<T> \x7b pub a: &'static V<T> \x7d"
    ∃ source, SourceFile.read text = .ok source ∧
      let loaded := LoadedPackage.ofResolution (.ofFiles ⟨"p"⟩ [⟨⟨"p/a.rs"⟩, text, source⟩] []) []
      ∃ struct : StructDesc, loaded.package.scope.lookup "S" = some struct.named ∧
        ∃ found ∈ struct.fields, ∃ target : NamedType, target.name = "V" ∧
          found.asStruct = some ⟨target, loaded⟩ := by
  intro text
  obtain ⟨source, done, view⟩ := SourceFile.exists_read
    (show (SourceFile.read text).toOption.map (fun source => source.typeDecls.map fun decl =>
      (decl.name, decl.fields.map fun field => field.type.pointed?.map Prod.fst,
        decl.isStruct && Condition.enabled [] decl.conditions && !decl.generics.contains "V" &&
          decl.fields.all fun field => field.exported && Condition.enabled [] field.conditions)) =
      some [("V", [some "T"], true), ("S", [some "V"], true)] by decide +kernel)
  refine ⟨source, done, ?_⟩
  intro loaded
  obtain ⟨held, _, decls, heldView, rest⟩ := List.map_eq_cons_iff.mp view
  obtain ⟨holder, _, rfl, holderView, rest⟩ := List.map_eq_cons_iff.mp rest
  cases List.map_eq_nil_iff.mp rest
  simp only [Prod.mk.injEq, Bool.and_eq_true] at heldView holderView
  obtain ⟨heldName, -, ⟨⟨heldStruct, heldBuilt⟩, -⟩, -⟩ := heldView
  obtain ⟨holderName, holderFields, ⟨⟨-, holderBuilt⟩, concrete⟩, kept⟩ := holderView
  obtain ⟨field, _, fields, fieldView, -⟩ := List.map_eq_cons_iff.mp holderFields
  obtain ⟨⟨name, arguments⟩, written, rfl⟩ := Option.map_eq_some_iff.mp fieldView
  have made : loaded.package = .ofFiles ⟨"p"⟩ [⟨⟨"p/a.rs"⟩, text, source⟩] [] := rfl
  -- Both declarations are built, so they are listed as they stand in the file.
  have listed : Package.declarations [] [⟨⟨"p/a.rs"⟩, text, source⟩] =
      [(⟨⟨"p/a.rs"⟩, text, source⟩, held), (⟨⟨"p/a.rs"⟩, text, source⟩, holder)] := by
    simp [Package.declarations, decls, heldBuilt, holderBuilt]
  have shown : ShownField [] [⟨⟨"p/a.rs"⟩, text, source⟩] ⟨⟨"p/a.rs"⟩, text, source⟩ holder field 0 := by
    simp only [fields, List.all_cons, Bool.and_eq_true] at kept
    constructor
    · simp [listed, holderName, heldName]
    · simp [fields]
    · exact kept.1.2
    · exact kept.1.1
  obtain ⟨target, found, isStruct⟩ : ∃ target, loaded.package.scope.lookup "V" = some target ∧
      target.isStruct = true := by
    rw [made, Package.ofFiles_lookup, listed, List.find?_cons_of_pos (by simpa using heldName)]
    exact ⟨_, rfl, (Package.declaredType_isStruct ..).trans heldStruct⟩
  obtain ⟨inScope, named⟩ :=
    (Scope.lookup_eq_some_iff (made ▸ Package.ofFiles_names_nodup ⟨"p"⟩ _ [])).mp found
  obtain ⟨struct, -, declared, found, member, -, holds⟩ := asStruct_of_struct_name made
    (by simpa using done) shown written (by simpa using concrete)
    (fun pointer => absurd pointer.wrapper (by decide)) inScope isStruct named
  exact ⟨struct, holderName ▸ declared, found, member, target, named, holds⟩

/-- With one argument, `Box` is a pointer to that, although a struct of this name is declared. -/
theorem declared_box_not_held :
    (SourceFile.read
        "pub struct Box<T> \x7b pub v: T \x7d\npub struct S \x7b pub b: Box<u8> \x7d\n").toOption.map
      (fun source => heldStructs (.ofResolution (.ofFiles ⟨"p"⟩ [⟨⟨"p/a.rs"⟩, "", source⟩] []) [])) =
      some [("Box", [("v", none)]), ("S", [("b", none)])] := by
  decide +kernel

end FieldDesc

end StructInventory
