import StructInventory.Proofs.LoadedStruct

/-!
Qualified names. A struct is named behind its package, and a package has the last name of its
directory. The name of a struct is an identifier, so its qualified name can be taken apart again. It
follows that a loader lists structs under the same qualified name just when they have the same name
and their directories have the same last name.
-/

namespace StructInventory

namespace StructDesc

/-- The last name of the directory that a struct was found in, or what stands for it. -/
def directoryName (struct : StructDesc) : String := struct.file.directory.fileName?.getD "crate"

end StructDesc

theorem Ident.uncoloned (ident : Ident) : ':' ∉ ident.text.toList := by
  intro colon
  have continues := List.all_eq_true.mp ident.spelled ':' colon
  exact absurd continues (by decide)

/-- What stands behind the last pair of colons is found again. -/
theorem append_colons_inj {front front' name name' : List Char} (clean : ':' ∉ name)
    (clean' : ':' ∉ name') :
    front ++ ':' :: ':' :: name = front' ++ ':' :: ':' :: name' ↔
      front = front' ∧ name = name' := by
  constructor
  · intro same
    -- If one front were longer, a colon of the other side would stand in its name.
    have longer {more name name' : List Char} (clean : ':' ∉ name)
        (split : ':' :: ':' :: name = more ++ ':' :: ':' :: name') : more = [] := by
      rcases more with _ | ⟨c, _ | ⟨d, more⟩⟩
      · rfl
      · simp_all
      · simp_all
    rcases List.append_eq_append_iff.mp same with ⟨more, rfl, split⟩ | ⟨more, rfl, split⟩
    · obtain rfl := longer clean split
      simp_all
    · obtain rfl := longer clean' split
      simp_all
  · rintro ⟨rfl, rfl⟩
    rfl

namespace StructDesc

/-- A qualified name determines the package's name and the struct's. -/
theorem qualifiedName_eq_iff {struct other : StructDesc} (spelled : Grammar.Spelled struct.name)
    (spelled' : Grammar.Spelled other.name) :
    struct.qualifiedName = other.qualifiedName ↔
      struct.packageName = other.packageName ∧ struct.name = other.name := by
  obtain ⟨ident, name⟩ := spelled
  obtain ⟨ident', name'⟩ := spelled'
  have clean : ':' ∉ struct.name.toList := name ▸ ident.uncoloned
  have clean' : ':' ∉ other.name.toList := name' ▸ ident'.uncoloned
  rw [← String.toList_inj, ← String.toList_inj, ← String.toList_inj, ← append_colons_inj clean clean']
  simp [qualifiedName]

end StructDesc

namespace Loader

variable {tree : FileTree} {features : List String} {dirs : List PathText} {last : Loader}

/-- A package has the last name of its directory. -/
theorem EntryOf.packageName_eq {dir : PathText} {entry : LoadedFile} {struct : StructDesc}
    (entryOf : EntryOf tree features dir entry) (listed : struct ∈ structsOf entry)
    (found : struct.FoundIn dir) : struct.packageName = struct.directoryName := by
  obtain ⟨package, built, answered, loaded⟩ := entryOf.resolved
  obtain ⟨rfl, _⟩ := FileTree.of_resolveFile answered
  rw [StructDesc.packageName, (lookup_of_mem_structsOf listed).1, loaded,
    StructDesc.directoryName, found.directory, entryOf.directory]
  rfl

theorem qualifiedName_eq_iff_of_loads (wellNamed : tree.WellNamed)
    (loads : Walker.Loads tree (.ofTree tree features) {} dirs last) {struct other : StructDesc}
    (listed : struct ∈ last.structs) (listed' : other ∈ last.structs) :
    struct.qualifiedName = other.qualifiedName ↔
      struct.directoryName = other.directoryName ∧ struct.name = other.name := by
  obtain ⟨entry, member, listed⟩ := List.mem_flatMap.mp listed
  obtain ⟨entry', member', listed'⟩ := List.mem_flatMap.mp listed'
  obtain ⟨dir, entryOf, found⟩ := loads.exists_entryOf wellNamed entry member
  obtain ⟨dir', entryOf', found'⟩ := loads.exists_entryOf wellNamed entry' member'
  rw [StructDesc.qualifiedName_eq_iff (found struct listed).spelled (found' other listed').spelled,
    entryOf.packageName_eq listed (found struct listed),
    entryOf'.packageName_eq listed' (found' other listed')]

/-- When qualified names are unique. Structs that a loader lists share their qualified name just when
they share their name and their directories have the same last name; they are then of directories
that are different as paths, for no two share both directory and name. So the qualified names are
all different if directories with the same last name are the same. -/
theorem qualifiedNames_shared_iff (wellNamed : tree.WellNamed)
    (loads : Walker.Loads tree (.ofTree tree features) {} dirs last) :
    (last.structs.Pairwise fun struct other =>
      (struct.qualifiedName = other.qualifiedName ↔
        struct.directoryName = other.directoryName ∧ struct.name = other.name) ∧
      ¬(struct.file.directory.same other.file.directory = true ∧ struct.name = other.name)) ∧
    ((last.structs.Pairwise fun struct other => struct.directoryName = other.directoryName →
        struct.file.directory.same other.file.directory = true) →
      (last.structs.map StructDesc.qualifiedName).Nodup) := by
  have apart := loads.structs_apart wellNamed
  constructor
  · refine apart.imp_of_mem fun listed listed' differ => ⟨?_, differ⟩
    exact qualifiedName_eq_iff_of_loads wellNamed loads listed listed'
  · intro onlyOne
    rw [List.Nodup, List.pairwise_map]
    refine (apart.and onlyOne).imp_of_mem fun listed listed' ⟨differ, one⟩ sameName => ?_
    obtain ⟨sameLast, sameName⟩ :=
      (qualifiedName_eq_iff_of_loads wellNamed loads listed listed').mp sameName
    exact differ ⟨one sameLast, sameName⟩

/-- One directory that is loaded by two paths, and another with the same last name. -/
theorem qualifiedNames_shared_iff_detour :
    let tree : FileTree := ⟨.dir [
      ("p", .dir [("a.rs", .file (some "struct A; struct B;"))]),
      ("q", .dir [("p", .dir [("c.rs", .file (some "struct C;"))])])], []⟩
    ∃ last, tree.WellNamed ∧
      Walker.Loads tree (.ofTree tree []) {} [⟨"p"⟩, ⟨"./p"⟩, ⟨"p//."⟩, ⟨"q/p"⟩] last ∧
      last.structs.map (fun struct => (struct.qualifiedName, struct.file.text)) =
        [("p::A", "p/a.rs"), ("p::B", "p/a.rs"), ("p::A", "./p/a.rs"), ("p::B", "./p/a.rs"),
          ("p::C", "q/p/c.rs")] ∧
      last.structs.Pairwise fun struct other =>
        (struct.qualifiedName = other.qualifiedName ↔
          struct.directoryName = other.directoryName ∧ struct.name = other.name) ∧
        ¬(struct.file.directory.same other.file.directory = true ∧ struct.name = other.name) := by
  intro tree
  have isName : ∀ name ∈ ["p", "q", "a.rs", "c.rs"], PathText.IsName name := by
    intro name member
    exact ⟨by revert name; decide, by revert name; decide⟩
  have inner (name text : String) (plain : PathText.IsName name) :
      FileNode.WellNamed (.dir [(name, .file (some text))]) :=
    FileNode.wellNamed_dir (by simpa using ⟨plain, FileNode.wellNamed_file _⟩)
  have below : FileNode.WellNamed (.dir [("p", .dir [("c.rs", .file (some "struct C;"))])]) :=
    FileNode.wellNamed_dir (by simpa using ⟨isName "p" (by simp), inner _ _ (isName "c.rs" (by simp))⟩)
  have wellNamed : tree.WellNamed := by
    refine FileNode.wellNamed_dir ?_
    rw [List.forall_mem_cons, List.forall_mem_singleton]
    exact ⟨⟨isName "p" (by simp), inner _ _ (isName "a.rs" (by simp))⟩, isName "q" (by simp), below⟩
  have loads : Walker.Loads tree (.ofTree tree []) {} [⟨"p"⟩, ⟨"./p"⟩, ⟨"p//."⟩, ⟨"q/p"⟩] _ :=
    .next (by decide +kernel) (.next (by decide +kernel) (.next (by decide +kernel)
      (.next (by decide +kernel) (.done _))))
  exact ⟨_, wellNamed, loads, by decide +kernel, (qualifiedNames_shared_iff wellNamed loads).1⟩

/-- Different structs with one qualified name. -/
theorem qualifiedName_shared_by_siblings :
    let tree : FileTree := ⟨.dir [
      ("a", .dir [("x", .dir [("l.rs", .file (some "struct P;"))])]),
      ("b", .dir [("x", .dir [("l.rs", .file (some "struct P;"))])])], []⟩
    ∃ last, Walker.Loads tree (.ofTree tree []) {} [⟨"a/x"⟩, ⟨"b/x"⟩] last ∧
      last.structs.map (fun struct => (struct.qualifiedName, struct.file.text)) =
        [("x::P", "a/x/l.rs"), ("x::P", "b/x/l.rs")] :=
  ⟨_, .next (by decide +kernel) (.next (by decide +kernel) (.done _)), by decide +kernel⟩

end Loader

end StructInventory
