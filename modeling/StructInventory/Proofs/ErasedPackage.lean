import Mathlib
import StructInventory.Proofs.PackageScope

/-!
Packages of files from which everything is erased that is not built. Such files make up the same
package, with one exception: fields without names are numbered before they are chosen, so that a
field behind one that is not built has another number once that is erased.
-/

namespace StructInventory

/-! ### Erasing what is not built -/

/-- A form of declaration without the struct fields that are not built. -/
def TypeForm.erase (features : List String) : TypeForm → TypeForm
  | .struct fields =>
    .struct (fields.filter fun field => Condition.enabled features field.conditions)
  | form => form

def TypeDecl.erase (features : List String) (decl : TypeDecl) : TypeDecl :=
  { decl with form := decl.form.erase features }

/-- A block without the functions that are not built. -/
def ImplDecl.erase (features : List String) (block : ImplDecl) : ImplDecl :=
  { block with
    functions := block.functions.filter fun decl => Condition.enabled features decl.conditions }

/-- What is left of an item, if it is built. Items that declare neither a type nor methods are no
part of a package, and stay. -/
def Item.erase? (features : List String) : Item → Option Item
  | .type decl =>
    if Condition.enabled features decl.conditions then some (.type (decl.erase features)) else none
  | .methods block =>
    if Condition.enabled features block.conditions then some (.methods (block.erase features))
    else none
  | .other => some .other

namespace ParsedFile

/-- A file without what is not built. -/
def erase (features : List String) (file : ParsedFile) : ParsedFile :=
  { file with
    source := { file.source with items := file.source.items.filterMap (Item.erase? features) } }

theorem erase_typeDecls (features : List String) (file : ParsedFile) :
    (file.erase features).source.typeDecls =
      (file.source.typeDecls.filter fun decl => Condition.enabled features decl.conditions).map
        (TypeDecl.erase features) := by
  unfold erase SourceFile.typeDecls
  rw [List.filterMap_filterMap, List.filter_filterMap, List.map_filterMap]
  refine List.filterMap_congr fun item _ => ?_
  cases item with
  | type decl =>
    cases built : Condition.enabled features decl.conditions <;>
      simp [Item.erase?, built, Option.filter_some]
  | methods block =>
    cases built : Condition.enabled features block.conditions <;>
      simp [Item.erase?, built]
  | other => rfl

theorem erase_blocks (features : List String) (file : ParsedFile) :
    (file.erase features).source.blocks =
      (file.source.blocks.filter fun block => Condition.enabled features block.conditions).map
        (ImplDecl.erase features) := by
  unfold erase SourceFile.blocks
  rw [List.filterMap_filterMap, List.filter_filterMap, List.map_filterMap]
  refine List.filterMap_congr fun item _ => ?_
  cases item with
  | type decl =>
    cases built : Condition.enabled features decl.conditions <;>
      simp [Item.erase?, built]
  | methods block =>
    cases built : Condition.enabled features block.conditions <;>
      simp [Item.erase?, built, Option.filter_some]
  | other => rfl

end ParsedFile

namespace Package

/-- No declaration that is built is erased. -/
theorem declarations_erase (features : List String) (files : List ParsedFile) :
    declarations features (files.map (ParsedFile.erase features)) =
      (declarations features files).map fun found =>
        (found.1.erase features, found.2.erase features) := by
  unfold declarations
  rw [List.flatMap_map, List.map_flatMap]
  refine List.flatMap_congr fun file _ => ?_
  rw [file.erase_typeDecls, List.filter_map, List.filter_filter, List.map_map, List.map_map]
  congr 1
  exact List.filter_congr fun decl _ => by simp [TypeDecl.erase]

theorem methodsOf_erase (features : List String) (files : List ParsedFile) (name : String) :
    methodsOf features (files.map (ParsedFile.erase features)) name =
      methodsOf features files name := by
  unfold methodsOf
  rw [List.flatMap_map]
  refine List.flatMap_congr fun file _ => ?_
  have chosen : ∀ block ∈ file.source.blocks,
      ((Condition.enabled features (block.erase features).conditions &&
          (block.erase features).isFor name) && Condition.enabled features block.conditions) =
        (Condition.enabled features block.conditions && block.isFor name) := by
    intro block _
    show ((Condition.enabled features block.conditions && block.isFor name) &&
      Condition.enabled features block.conditions) = _
    cases Condition.enabled features block.conditions <;> simp
  rw [file.erase_blocks, List.filter_map, List.filter_filter, List.flatMap_map]
  simp only [Function.comp_apply]
  rw [List.filter_congr chosen]
  refine List.flatMap_congr fun block _ => ?_
  simp [ImplDecl.erase, ParsedFile.erase, List.filter_filter]

end Package

/-! ### Numbers of fields -/

/-- No field of a struct that is built and has no name stands behind one that is not built. -/
def TypeForm.KeepsNumbers (features : List String) : TypeForm → Prop
  | .struct fields => fields.Pairwise fun earlier later => later.name = none →
      Condition.enabled features later.conditions = true →
        Condition.enabled features earlier.conditions = true
  | _ => True

namespace TypeDecl

theorem resolve_eq_resolve_iff {scope : TypeScope} {index other : Nat} {field : FieldDecl} :
    field.resolve scope index = field.resolve scope other ↔
      (field.name = none → index = other) := by
  unfold FieldDecl.resolve
  cases field.name with
  | none => simp [Nat.repr_inj]
  | some ident => simp

variable {features : List String}

theorem structFields_concat (scope : TypeScope) (fields : List FieldDecl) (field : FieldDecl) :
    structFields features scope (fields ++ [field]) = structFields features scope fields ++
      if Condition.enabled features field.conditions then [field.resolve scope fields.length]
      else [] := by
  unfold structFields
  rw [List.zipIdx_append, List.filter_append, List.map_append]
  congr 1
  cases built : Condition.enabled features field.conditions <;> simp [built]

theorem structFields_filter_eq_iff (scope : TypeScope) (fields : List FieldDecl) :
    structFields features scope
        (fields.filter fun field => Condition.enabled features field.conditions) =
      structFields features scope fields ↔ (TypeForm.struct fields).KeepsNumbers features := by
  simp only [TypeForm.KeepsNumbers]
  -- From the right, since a field's number is the count of the fields before it.
  induction fields using List.reverseRecOn with
  | nil => simp
  | append_singleton fields field ih =>
    rw [List.pairwise_append, List.filter_append, structFields_concat]
    cases built : Condition.enabled features field.conditions with
    | false => simp [built, ih]
    | true =>
      have kept : ([field].filter fun field => Condition.enabled features field.conditions) =
          [field] := by simp [built]
      rw [kept, structFields_concat, built, if_pos rfl, if_pos rfl, List.append_singleton_inj, ih,
        resolve_eq_resolve_iff, List.length_filter_eq_length_iff]
      -- The new field keeps its number if all fields before it are built.
      refine and_congr_right fun _ => ?_
      simp only [List.pairwise_singleton, true_and, List.mem_singleton, forall_eq, built,
        true_imp_iff]
      exact ⟨fun all earlier member unnamed => all unnamed earlier member,
        fun each unnamed earlier member => each earlier member unnamed⟩

/-- Erasing fields changes nothing just when it keeps the numbers. -/
theorem underlying_erase_eq_iff (file : PathText) (decl : TypeDecl) :
    (decl.erase features).underlying features file = decl.underlying features file ↔
      decl.form.KeepsNumbers features := by
  unfold underlying erase
  cases decl.form with
  | struct fields =>
    simp only [TypeForm.erase, Underlying.struct.injEq]
    exact structFields_filter_eq_iff _ fields
  | _ => simp [TypeForm.erase, TypeForm.KeepsNumbers]

end TypeDecl

/-! ### What does not depend on numbers -/

/-- What a name stands for, without the names of struct fields. -/
def Underlying.withoutNames : Underlying → Underlying
  | .struct members => .struct (members.map fun member => { member with name := "" })
  | underlying => underlying

def NamedType.withoutFieldNames (named : NamedType) : NamedType :=
  { named with underlying := named.underlying.withoutNames }

theorem TypeDecl.structFields_withoutNames (features : List String) (scope : TypeScope)
    (fields : List FieldDecl) :
    (structFields features scope fields).map (fun member => { member with name := "" }) =
      (fields.filter fun field => Condition.enabled features field.conditions).map fun field =>
        ⟨"", .ofExpr scope field.type, field.exported, field.pos⟩ := by
  induction fields using List.reverseRecOn with
  | nil => rfl
  | append_singleton fields field ih =>
    rw [structFields_concat, List.map_append, ih, List.filter_append, List.map_append]
    cases built : Condition.enabled features field.conditions <;> simp [built, FieldDecl.resolve]

theorem TypeDecl.underlying_erase_withoutNames (features : List String) (file : PathText)
    (decl : TypeDecl) :
    ((decl.erase features).underlying features file).withoutNames =
      (decl.underlying features file).withoutNames := by
  unfold underlying erase
  cases decl.form with
  | struct fields =>
    simp only [TypeForm.erase, Underlying.withoutNames, structFields_withoutNames,
      List.filter_filter, Bool.and_self]
  | _ => rfl

/-- Which types are kept depends on their names only. -/
theorem Scope.insertAll_map (change : NamedType → NamedType)
    (keeps : ∀ named, (change named).name = named.name) (types : List NamedType) :
    (empty.insertAll (types.map change)).types = (empty.insertAll types).types.map change := by
  induction types using List.reverseRecOn with
  | nil => rfl
  | append_singleton types named ih =>
    have known : (empty.insertAll (types.map change)).contains (change named).name =
        (empty.insertAll types).contains named.name := by
      rw [Bool.eq_iff_iff, contains_iff, contains_iff, names, names, ih, keeps, List.map_map]
      simp [keeps]
    rw [List.map_append, List.map_singleton, insertAll_concat, insertAll_concat, insert, insert,
      known]
    split
    · exact ih
    · simp [ih]

namespace Package

theorem declaredType_erase (features : List String) (files : List ParsedFile)
    (found : ParsedFile × TypeDecl) :
    declaredType features (files.map (ParsedFile.erase features))
        (found.1.erase features, found.2.erase features) =
      { declaredType features files found with
        underlying := (found.2.erase features).underlying features found.1.path } := by
  simp only [declaredType, methodsOf_erase]
  rfl

/-- Files without what is not built make up the same package, up to the names of struct fields:
the same types in the same order, with the same fields and methods. Just those types stay the same
altogether in which no field without a name has a field before it that is not built. -/
theorem erased_files_make_same_package (dir : PathText) (files : List ParsedFile)
    (features : List String) :
    let package := ofFiles dir files features
    let erased := ofFiles dir (files.map (ParsedFile.erase features)) features
    erased.scope.types.map NamedType.withoutFieldNames =
      package.scope.types.map NamedType.withoutFieldNames ∧
    ∀ name, erased.scope.lookup name = package.scope.lookup name ↔
      ∀ found ∈ (declarations features files).find? (·.2.name = name),
        found.2.form.KeepsNumbers features := by
  intro package erased
  refine ⟨?_, fun name => ?_⟩
  · have keeps (named : NamedType) : named.withoutFieldNames.name = named.name := rfl
    rw [ofFiles_scope, ofFiles_scope, ← Scope.insertAll_map _ keeps, ← Scope.insertAll_map _ keeps,
      declarations_erase, List.map_map, List.map_map, List.map_map]
    congr 2
    refine List.map_congr_left fun found _ => ?_
    simp only [Function.comp_apply, declaredType_erase, NamedType.withoutFieldNames,
      TypeDecl.underlying_erase_withoutNames]
    rfl
  · rw [ofFiles_lookup, ofFiles_lookup, declarations_erase, List.find?_map]
    show Option.map _ (Option.map _ ((declarations features files).find? (·.2.name = name))) = _ ↔ _
    cases (declarations features files).find? (·.2.name = name) with
    | none => simp
    | some found =>
      simp only [Option.map_some, Option.some.injEq, declaredType_erase, Option.mem_def, forall_eq']
      rw [← TypeDecl.underlying_erase_eq_iff found.1.path]
      simp [declaredType]

/-- The second field of the struct is called `1`, and `0` once the first field is erased, which is
not built. -/
theorem erased_field_shifts_number :
    (SourceFile.read "pub struct P(#[cfg(test)] u8, pub u16);\n").toOption.map (fun source =>
      let file : ParsedFile := ⟨⟨"p/a.rs"⟩, "", source⟩
      [file, file.erase []].map fun file =>
        (ofFiles ⟨"p"⟩ [file] []).scope.types.map fun named => match named.underlying with
          | .struct members => members.map Variable.name
          | _ => []) =
      some [[["1"]], [["0"]]] := by
  decide +kernel

end Package

end StructInventory
