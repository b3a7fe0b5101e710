import StructInventory.Proofs.LoaderRun
import StructInventory.Proofs.PackageScope

/-!
Packages as they come from source files. Whatever a loader holds after reading trees is such a
package. Its structs lead to one another by their fields, and the names of fields are plain: never
empty and without a dot, so that dots can join them.
-/

namespace StructInventory

/-- A package made of parsed files. -/
def LoadedPackage.FromSource (loaded : LoadedPackage) : Prop :=
  ∃ dir files features, loaded = .ofResolution (.ofFiles dir files features) files

/-- A struct of a package that was made of parsed files. -/
structure StructDesc.Declared (struct : StructDesc) : Prop where
  loaded : struct.package.FromSource
  member : struct.named ∈ struct.package.package.scope.types

/-! ### What loaders hold -/

theorem FileTree.resolveFile_fromSource (tree : FileTree) (features : List String)
    (path : PathText) (resolution : Resolution)
    (returned : tree.resolveFile features path = .ok resolution) :
    ∀ package ∈ resolution.packages,
      (LoadedPackage.ofResolution package resolution.files).FromSource := by
  unfold resolveFile at returned
  dsimp only at returned
  split at returned
  · cases returned
  next paths _ =>
    cases parsed : tree.parseFiles features paths with
    | error diagnostic => simp [parsed, bind, Except.bind] at returned
    | ok files =>
      simp only [parsed, bind, Except.bind, pure, Except.pure, Except.ok.injEq] at returned
      subst returned
      intro package member
      dsimp only at member ⊢
      split at member
      · simp at member
      · rw [List.mem_singleton.mp member]
        exact ⟨path.directory, files, features, rfl⟩

namespace Loader

/-- Everything that a loader holds was made of parsed files. -/
def FromSource (loader : Loader) : Prop := ∀ entry ∈ loader.entries, entry.package.FromSource

/-- Reading a directory of a tree, whether it succeeds or fails, leaves a loader with packages made
of parsed files. -/
theorem FromSource.parse {loader : Loader} (held : loader.FromSource) (tree : FileTree)
    (features : List String) (path : PathText) :
    (loader.parse tree (.ofTree tree features) path).1.FromSource := by
  refine forall_parse (fun _ _ file _ _ package files answered _ _ => ?_) held
  exact tree.resolveFile_fromSource features file _ answered package (by simp)

/-- The structs that such a loader lists are those of packages made of parsed files. -/
theorem FromSource.structs {loader : Loader} (held : loader.FromSource) :
    ∀ struct ∈ loader.structs, struct.Declared := by
  intro struct listed
  obtain ⟨entry, member, listed⟩ := List.mem_flatMap.mp listed
  obtain ⟨samePackage, looked, _⟩ := lookup_of_mem_structsOf listed
  rw [← samePackage] at looked
  exact ⟨samePackage ▸ held entry member, List.mem_of_find?_eq_some looked⟩

end Loader

/-! ### From field to struct -/

/-- Aliases are followed to a struct of the scope, or nowhere. -/
theorem Scope.followAliases_eq_some {scope : Scope} {fuel : Nat} {seen : List String} {name : String}
    {named : NamedType} (found : scope.followAliases fuel seen name = some named) :
    named ∈ scope.types ∧ named.isStruct = true := by
  induction fuel generalizing seen name with
  | zero => simp [followAliases] at found
  | succ fuel ih =>
    unfold followAliases at found
    split at found
    · cases found
    · obtain ⟨declared, looked, rest⟩ := Option.bind_eq_some_iff.mp found
      split at rest
      next fields isStruct =>
        cases rest
        exact ⟨List.mem_of_find?_eq_some looked, by simp [NamedType.isStruct, isStruct]⟩
      next target _ =>
        obtain ⟨next, _, further⟩ := Option.bind_eq_some_iff.mp rest
        exact ih further
      · cases rest

namespace FieldDesc

theorem asStruct_eq_some {field : FieldDesc} {inner : StructDesc}
    (holds : field.asStruct = some inner) :
    inner.package = field.package ∧ inner.named ∈ field.package.package.scope.types ∧
      inner.named.isStruct = true := by
  unfold asStruct at holds
  obtain ⟨name, _, rest⟩ := Option.bind_eq_some_iff.mp holds
  obtain ⟨named, found, made⟩ := Option.bind_eq_some_iff.mp rest
  cases made
  exact ⟨rfl, Scope.followAliases_eq_some found⟩

end FieldDesc

namespace StructDesc

theorem package_of_mem_fields {struct : StructDesc} {field : FieldDesc}
    (member : field ∈ struct.fields) : field.package = struct.package := by
  unfold fields at member
  split at member
  · obtain ⟨found, _, rfl⟩ := List.mem_map.mp member
    rfl
  · simp at member

/-- What a field of a declared struct holds is declared in the same package. -/
theorem Declared.inner {struct : StructDesc} (declared : struct.Declared) {field : FieldDesc}
    (member : field ∈ struct.fields) {inner : StructDesc} (holds : field.asStruct = some inner) :
    inner.Declared ∧ inner.package = struct.package := by
  obtain ⟨samePackage, found, -⟩ := FieldDesc.asStruct_eq_some holds
  have same := samePackage.trans (package_of_mem_fields member)
  exact ⟨⟨same ▸ declared.loaded, by rw [samePackage]; exact found⟩, same⟩

end StructDesc

/-! ### Names of fields -/

/-- A name that dots can join with others. -/
structure PlainName (name : String) : Prop where
  nonempty : name ≠ ""
  undotted : '.' ∉ name.toList

theorem Ident.plain (ident : Ident) : PlainName ident.text where
  nonempty := by
    intro empty
    exact ident.nonempty (by simp [empty])
  undotted := by
    intro dot
    have continues := List.all_eq_true.mp ident.spelled '.' dot
    exact absurd continues (by decide)

private theorem toString_plain (index : Nat) : PlainName (toString index) where
  nonempty := Nat.repr_ne_empty
  undotted := by
    intro dot
    have digits : '.' ∈ Nat.toDigits 10 index := Nat.toList_repr ▸ dot
    exact absurd (Nat.isDigit_of_mem_toDigits (by decide) (by decide) digits) (by decide)

/-- A field has the name that its declaration spells, or else the number of its place. -/
theorem FieldDecl.resolve_plain (scope : TypeScope) (index : Nat) (field : FieldDecl) :
    PlainName (field.resolve scope index).name := by
  unfold FieldDecl.resolve
  cases field.name with
  | none => exact toString_plain index
  | some ident => exact ident.plain

theorem Scope.mem_insertAll (scope : Scope) (types : List NamedType) (named : NamedType)
    (member : named ∈ (scope.insertAll types).types) : named ∈ scope.types ∨ named ∈ types := by
  induction types generalizing scope with
  | nil => exact Or.inl member
  | cons first rest ih =>
    rcases ih (scope.insert first).1 member with inside | later
    · unfold Scope.insert at inside
      split at inside
      · exact Or.inl inside
      · rcases List.mem_append.mp inside with old | new
        · exact Or.inl old
        · exact Or.inr (List.mem_cons.mpr (Or.inl (List.mem_singleton.mp new)))
    · exact Or.inr (List.mem_cons_of_mem first later)

theorem TypeDecl.underlying_plain (features : List String) (file : PathText) (decl : TypeDecl)
    (members : List Variable) (struct : decl.underlying features file = .struct members) :
    ∀ member ∈ members, PlainName member.name := by
  unfold underlying at struct
  split at struct
  next fields _ =>
    cases struct
    intro member listed
    obtain ⟨⟨field, index⟩, _, rfl⟩ := List.mem_map.mp listed
    exact field.resolve_plain _ index
  all_goals cases struct

/-- The fields of a declared struct have plain names. -/
theorem StructDesc.Declared.plain {struct : StructDesc} (declared : struct.Declared) :
    ∀ field ∈ struct.fields, PlainName field.name := by
  intro field member
  obtain ⟨⟨dir, files, features, made⟩, inScope⟩ := declared
  rw [made] at inScope
  -- What is in scope was declared in one of the files.
  change struct.named ∈ (Package.ofFiles dir files features).scope.types at inScope
  rw [Package.ofFiles_scope] at inScope
  have typed := (Scope.mem_insertAll _ _ _ inScope).resolve_left (by simp [Scope.empty])
  obtain ⟨⟨file, decl⟩, _, same⟩ := List.mem_map.mp typed
  unfold fields at member
  split at member
  next members isStruct =>
    obtain ⟨found, listed, rfl⟩ := List.mem_map.mp member
    rw [← same] at isStruct
    exact decl.underlying_plain features file.path members isStruct found
      (List.mem_filter.mp listed).1
  · simp at member

/-! ### A package to try statements on

A struct that holds itself behind a pointer, a struct without fields, and a field that is not
exported. -/

namespace Sample

def field (name : Ident) (type : TypeExpr) (exported : Bool) : FieldDecl :=
  ⟨some name, type, exported, .first, []⟩

def node : TypeDecl :=
  ⟨"Node", .first, true, [], [], .struct [
    field ⟨"id", by decide, by decide⟩ (.named ["u64"] [] []) true,
    field ⟨"mark", by decide, by decide⟩ (.named ["Mark"] [] []) true,
    field ⟨"next", by decide, by decide⟩ (.named ["Box"] [.type (.named ["Node"] [] [])] []) true,
    field ⟨"secret", by decide, by decide⟩ (.named ["u8"] [] []) false]⟩

def mark : TypeDecl := ⟨"Mark", .first, true, [], [], .struct []⟩

def file : ParsedFile := ⟨⟨"p/lib.rs"⟩, "", ⟨[], [.type node, .type mark], []⟩⟩

def package : LoadedPackage := .ofResolution (.ofFiles ⟨"p"⟩ [file] []) [file]

def nodeDesc : StructDesc := ⟨(package.package.scope.lookup "Node").getD default, package⟩

theorem nodeDesc_declared : nodeDesc.Declared where
  loaded := ⟨⟨"p"⟩, [file], [], rfl⟩
  member := List.mem_cons.mpr (Or.inl rfl)

end Sample

end StructInventory
