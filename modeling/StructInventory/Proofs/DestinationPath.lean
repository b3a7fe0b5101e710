import StructInventory.Proofs.WalkedStruct

/-!
The files that texts about structs are written to, when the source tree is kept. The path of each
has the components of the output directory, those of the source directory below the base of the
walk, and the name of the file. So two structs share a file only if they share their directory and
the casing makes their names the same.
-/

namespace StructInventory

namespace Destination

/-- The tree below a base is kept, and each struct has a file name of its own. -/
structure Mirrors (destination : Destination) (base : PathText) : Prop where
  keepTree : destination.keepTree = true
  unfixed : destination.fileName = none
  rooted : destination.sourceRoot.same base = true

variable {destination : Destination} {base dir : PathText} {below : List String}
  {struct : StructDesc} {extension : String}

/-- The directory of a struct is repeated below the output directory. -/
theorem Mirrors.pathFor_components (mirrors : destination.Mirrors base) (some : base.text ≠ "")
    (undivided : '/' ∉ extension.toList) (reached : base.Reached dir below)
    (found : struct.FoundIn dir) :
    (destination.pathFor struct extension).components =
      destination.baseDir.components ++ below.map .name ++
        [.name (destination.case.apply struct.name ++ "." ++ extension)] := by
  have rooted := PathText.same_iff.mp mirrors.rooted
  have rootText : destination.sourceRoot.text ≠ "" := by
    intro empty
    rw [PathText.components_of_empty empty] at rooted
    exact PathText.components_ne_nil some rooted.symm
  have within : dir.components = destination.sourceRoot.components ++ below.map .name := by
    rw [rooted, reached.components some]
  obtain ⟨tail, behind, headless, shown⟩ := PathText.exists_below rootText within
  have subdirectory : destination.subdirectory struct = tail := by
    rw [Destination.subdirectory, found.parent, Option.getD_some, behind, Option.getD_some]
  -- The name of the file is a single component, since that of the struct is an identifier.
  obtain ⟨ident, spelled⟩ := found.spelled
  have isName : PathText.IsName (destination.case.apply struct.name ++ "." ++ extension) := by
    rw [spelled]
    exact (ident.fileStem.apply destination.case).isName undivided
  rw [pathFor, if_pos mirrors.keepTree, subdirectory, nameFor, mirrors.unfixed, Option.getD_none,
    PathText.components_join_name isName, headless.components_join, shown]

end Destination

namespace Walker

variable {walker : Walker} {tree : FileTree} {loader : Loader} {destination : Destination}
  {extension : String}

/-- The path of a struct's file, beside that of the directory it was found in. -/
theorem Loaded.exists_placed (loaded : walker.Loaded tree loader)
    (named : tree.root.NamedThroughout) (mirrors : destination.Mirrors walker.baseDir)
    (undivided : '/' ∉ extension.toList) :
    ∀ struct ∈ loader.structs, ∃ below : List String,
      struct.file.directory.components = walker.baseDir.components ++ below.map .name ∧
      (destination.pathFor struct extension).components =
        destination.baseDir.components ++ below.map .name ++
          [.name (destination.case.apply struct.name ++ "." ++ extension)] := by
  intro struct listed
  obtain ⟨entry, member, listed⟩ := List.mem_flatMap.mp listed
  obtain ⟨dir, below, reached, _, found⟩ := loaded.foundIn named member
  have some := loaded.base_text_ne
  refine ⟨below, ?_, ?_⟩
  · rw [(found struct listed).directory, reached.components some]
  · exact mirrors.pathFor_components some undivided reached (found struct listed)

theorem Loaded.pathFor_same_iff (loaded : walker.Loaded tree loader)
    (named : tree.root.NamedThroughout) (mirrors : destination.Mirrors walker.baseDir)
    (undivided : '/' ∉ extension.toList) {struct other : StructDesc}
    (listed : struct ∈ loader.structs) (listed' : other ∈ loader.structs) :
    (destination.pathFor struct extension).same (destination.pathFor other extension) = true ↔
      struct.file.directory.same other.file.directory = true ∧
        destination.case.apply struct.name = destination.case.apply other.name := by
  obtain ⟨below, directory, path⟩ := loaded.exists_placed named mirrors undivided struct listed
  obtain ⟨below', directory', path'⟩ := loaded.exists_placed named mirrors undivided other listed'
  rw [PathText.same_iff, PathText.same_iff, path, path', directory, directory',
    List.append_cancel_left_eq]
  constructor
  · intro same
    obtain ⟨front, file⟩ := List.append_inj' same rfl
    rw [List.append_cancel_left_eq] at front
    rw [List.singleton_inj, Component.name.injEq, fileName_inj] at file
    exact ⟨front, file⟩
  · rintro ⟨front, name⟩
    rw [front, name]

/-- Files do not overwrite one another unless the casing of names makes them. Each stands below the
output directory as the directory of its struct stands below the base of the walk, by names alone.
Two are the same just when the structs are of one directory and their names are cased alike; when
names are kept as they are, no two are. -/
theorem destinations_apart (named : tree.root.NamedThroughout)
    (loaded : walker.Loaded tree loader) (mirrors : destination.Mirrors walker.baseDir)
    (undivided : '/' ∉ extension.toList) :
    (∀ struct ∈ loader.structs, ∃ below : List String,
      struct.file.directory.components = walker.baseDir.components ++ below.map .name ∧
      (destination.pathFor struct extension).components =
        destination.baseDir.components ++ below.map .name ++
          [.name (destination.case.apply struct.name ++ "." ++ extension)]) ∧
    (∀ struct ∈ loader.structs, ∀ other ∈ loader.structs,
      (destination.pathFor struct extension).same (destination.pathFor other extension) = true ↔
        struct.file.directory.same other.file.directory = true ∧
          destination.case.apply struct.name = destination.case.apply other.name) ∧
    (destination.case = .camel → loader.structs.Pairwise fun struct other =>
      (destination.pathFor struct extension).same (destination.pathFor other extension) =
        false) := by
  refine ⟨loaded.exists_placed named mirrors undivided, fun struct listed other listed' =>
    loaded.pathFor_same_iff named mirrors undivided listed listed', fun camel => ?_⟩
  refine (loaded.structs_apart named).imp_of_mem fun listed listed' differ => ?_
  refine Bool.eq_false_iff.mpr fun same => differ ?_
  obtain ⟨directory, name⟩ :=
    (loaded.pathFor_same_iff named mirrors undivided listed listed').mp same
  rw [camel] at name
  exact ⟨directory, name⟩

/-- A walk of two directories, the base of which is written with slashes and a dot of its own. -/
theorem destinations_apart_nested :
    let tree : FileTree := ⟨.dir [("p", .dir [
      ("a.rs", .file (some "struct Foo; struct Bar;")),
      ("q", .dir [("b.rs", .file (some "struct Foo;"))])])], []⟩
    let walker : Walker := ⟨⟨"./p//"⟩, true, .everything, false, []⟩
    let destination : Destination := ⟨⟨"out"⟩, .camel, true, ⟨"./p"⟩, none⟩
    ∃ loader, tree.root.NamedThroughout ∧ walker.Loaded tree loader ∧
      destination.Mirrors walker.baseDir ∧
      (loader.structs.map fun struct => (destination.pathFor struct "json").text) =
        ["out/Foo.json", "out/Bar.json", "out/q/Foo.json"] ∧
      loader.structs.Pairwise fun struct other =>
        (destination.pathFor struct "json").same (destination.pathFor other "json") = false := by
  intro tree walker destination
  have isName : ∀ name ∈ ["p", "a.rs", "q", "b.rs"], PathText.IsName name := by
    intro name member
    exact ⟨by revert name; decide, by revert name; decide⟩
  have named : tree.root.NamedThroughout :=
    .entry (isName "p" (by simp))
      (.entry (isName "a.rs" (by simp)) (.file _)
        (.entry (isName "q" (by simp)) (.entry (isName "b.rs" (by simp)) (.file _) .empty) .empty))
      .empty
  have loaded : walker.Loaded tree
      ((Loader.parse tree (.ofTree tree []) {} ⟨"./p//"⟩).1.parse tree (.ofTree tree [])
        ⟨"./p//q"⟩).1 :=
    ⟨[⟨"./p//"⟩, ⟨"./p//q"⟩], by decide +kernel,
      .next (by decide +kernel) (.next (by decide +kernel) (.done _))⟩
  have mirrors : destination.Mirrors walker.baseDir := ⟨rfl, rfl, by decide +kernel⟩
  have undivided : '/' ∉ "json".toList := by decide
  have apart := destinations_apart named loaded mirrors undivided
  exact ⟨_, named, loaded, mirrors, by decide +kernel, apart.2.2 rfl⟩

end Walker

end StructInventory
