import StructInventory.Proofs.SourcePackage
import StructInventory.Proofs.WalkedStruct

/-!
Several directories and one loader. What a loader has seen of other directories makes no difference
to the loading of a directory: files of directories with different paths have different paths, and
whether a file is taken up depends on its own path alone. So the directories can be loaded by one
loader or each by its own, and the structs are the same. None of them leads to a struct of another
directory, since a field is looked up in the package that it belongs to.
-/

namespace StructInventory

/-! ### Loading beside other files -/

namespace Loader

/-- `combined` holds what `base` holds and behind it what `loader` does. -/
structure Beside (base loader combined : Loader) : Prop where
  entries : combined.entries = base.entries ++ loader.entries
  seen : combined.seen = base.seen ++ loader.seen

namespace Beside

variable {base loader combined : Loader} {file : PathText}

theorem fresh (base : Loader) : Beside base {} base := ⟨by simp, by simp⟩

theorem hasSeen (beside : Beside base loader combined) (unseen : base.hasSeen file = false) :
    combined.hasSeen file = loader.hasSeen file := by
  unfold Loader.hasSeen at unseen ⊢
  rw [beside.seen, List.any_append, unseen, Bool.false_or]

theorem see (beside : Beside base loader combined) (unseen : base.hasSeen file = false) :
    Beside base (loader.see file) (combined.see file) := by
  unfold Loader.see
  rw [beside.hasSeen unseen]
  split
  · exact beside
  · exact ⟨beside.entries, by simp [beside.seen]⟩

theorem takeUp (beside : Beside base loader combined) (package : LoadedPackage)
    (unseen : base.hasSeen file = false) :
    Beside base (Loader.takeUp package loader file) (Loader.takeUp package combined file) := by
  unfold Loader.takeUp
  rw [beside.hasSeen unseen]
  split
  · exact beside
  · exact ⟨by simp [beside.entries], (beside.see unseen).seen⟩

theorem takeUpAll (beside : Beside base loader combined) (package : LoadedPackage)
    {files : List PathText} (unseen : ∀ file ∈ files, base.hasSeen file = false) :
    Beside base (files.foldl (Loader.takeUp package) loader)
      (files.foldl (Loader.takeUp package) combined) := by
  induction files generalizing loader combined with
  | nil => exact beside
  | cons file rest ih =>
    obtain ⟨first, others⟩ := List.forall_mem_cons.mp unseen
    exact ih (beside.takeUp package first) others

/-- An answer whose files `base` has not seen is taken in the same way with and without `base`. -/
theorem accept (beside : Beside base loader combined) {answer : Except Diagnostic Resolution}
    (unseen : base.hasSeen file = false)
    (members : ∀ package built, answer = .ok ⟨[package], built⟩ →
      ∀ member ∈ package.files, base.hasSeen member = false) :
    Beside base (loader.accept file answer).1 (combined.accept file answer).1 ∧
      (combined.accept file answer).2 = (loader.accept file answer).2 := by
  unfold Loader.accept
  split
  · exact ⟨beside, rfl⟩
  · exact ⟨beside.see unseen, rfl⟩
  next package built =>
    exact ⟨(beside.takeUpAll _ (members package built rfl)).see unseen, rfl⟩
  · exact ⟨beside, rfl⟩

/-- A file that `base` has seen nothing of, and neither of those that it is resolved to. -/
structure Unknown (tree : FileTree) (features : List String) (base : Loader) (file : PathText) :
    Prop where
  unseen : base.hasSeen file = false
  members : ∀ package built, tree.resolveFile features file = .ok ⟨[package], built⟩ →
    ∀ member ∈ package.files, base.hasSeen member = false

variable {tree : FileTree} {features : List String}

theorem loadFile (beside : Beside base loader combined)
    (unknown : Unknown tree features base file) :
    Beside base (loader.loadFile (.ofTree tree features) file).1
        (combined.loadFile (.ofTree tree features) file).1 ∧
      (combined.loadFile (.ofTree tree features) file).2 =
        (loader.loadFile (.ofTree tree features) file).2 := by
  -- The tree answers both with the same, whatever was asked before.
  have asked : Beside base { loader with asked := file :: loader.asked }
      { combined with asked := file :: combined.asked } := ⟨beside.entries, beside.seen⟩
  exact asked.accept unknown.unseen unknown.members

theorem loadFiles (beside : Beside base loader combined) {files : List PathText}
    (unknown : ∀ file ∈ files, Unknown tree features base file) :
    Beside base (loader.loadFiles (.ofTree tree features) files).1
        (combined.loadFiles (.ofTree tree features) files).1 ∧
      (combined.loadFiles (.ofTree tree features) files).2 =
        (loader.loadFiles (.ofTree tree features) files).2 := by
  induction files generalizing loader combined with
  | nil => exact ⟨beside, rfl⟩
  | cons file rest ih =>
    obtain ⟨first, others⟩ := List.forall_mem_cons.mp unknown
    unfold Loader.loadFiles
    rw [beside.hasSeen first.unseen]
    split
    · exact ih beside others
    · obtain ⟨held, outcome⟩ := beside.loadFile first
      rcases step : loader.loadFile (.ofTree tree features) file with ⟨next, _ | _⟩ <;>
        rcases step' : combined.loadFile (.ofTree tree features) file with ⟨next', _ | _⟩ <;>
        simp only [step, step'] at held outcome ⊢
      · exact ⟨held, outcome⟩
      · cases outcome
      · cases outcome
      · exact ih held others

end Beside

/-! ### What has been seen -/

section

variable {holds : PathText → Prop} {loader : Loader}

theorem forall_seen_see {file : PathText} (own : holds file)
    (held : ∀ known ∈ loader.seen, holds known) : ∀ known ∈ (loader.see file).seen, holds known := by
  unfold see
  split
  · exact held
  · intro known member
    rcases List.mem_append.mp member with old | new
    · exact held known old
    · rw [List.mem_singleton.mp new]
      exact own

theorem forall_seen_takeUpAll {package : LoadedPackage} {files : List PathText}
    (taken : ∀ file ∈ files, holds file) (held : ∀ known ∈ loader.seen, holds known) :
    ∀ known ∈ (files.foldl (takeUp package) loader).seen, holds known := by
  induction files generalizing loader with
  | nil => exact held
  | cons file rest ih =>
    obtain ⟨first, others⟩ := List.forall_mem_cons.mp taken
    refine ih others ?_
    unfold takeUp
    split
    · exact held
    · exact forall_seen_see first held

/-- What loading files leaves seen are these files and those of the packages they belong to. -/
theorem forall_seen_loadFiles {provider : Provider} {files : List PathText}
    (own : ∀ file ∈ files, holds file)
    (members : ∀ file ∈ files, ∀ count package built,
      provider count file = .ok ⟨[package], built⟩ → ∀ member ∈ package.files, holds member)
    (held : ∀ known ∈ loader.seen, holds known) :
    ∀ known ∈ (loader.loadFiles provider files).1.seen, holds known := by
  induction files generalizing loader with
  | nil => exact held
  | cons file rest ih =>
    obtain ⟨first, others⟩ := List.forall_mem_cons.mp own
    obtain ⟨firstMembers, otherMembers⟩ := List.forall_mem_cons.mp members
    -- Of the four kinds of answers two are errors, and leave what was seen as it is.
    have step : ∀ known ∈ (loader.loadFile provider file).1.seen, holds known := by
      unfold loadFile accept
      dsimp only
      split
      · exact held
      · exact forall_seen_see first held
      next package built answered =>
        exact forall_seen_see first
          (forall_seen_takeUpAll (firstMembers _ package built answered) held)
      · exact held
    unfold loadFiles
    split
    · exact ih others otherMembers held
    · split
      next after done => exact ih others otherMembers (by simpa only [done] using step)
      next after error failed => simpa only [failed] using step

end

end Loader

/-! ### Files of a directory -/

namespace PathText

/-- A file whose path is that of a directory and one name more. -/
def Inside (dir file : PathText) : Prop := ∃ name, file.components = dir.components ++ [.name name]

/-- No file is inside two directories. -/
theorem Inside.unique {dir other file : PathText} (inside : dir.Inside file)
    (inside' : other.Inside file) : dir.same other = true := by
  obtain ⟨name, components⟩ := inside
  obtain ⟨name', components'⟩ := inside'
  rw [components] at components'
  exact same_iff.mpr (List.append_inj_left' components' rfl)

theorem Inside.congr {dir file other : PathText} (inside : dir.Inside file)
    (same : file.components = other.components) : dir.Inside other := by
  obtain ⟨name, components⟩ := inside
  exact ⟨name, same ▸ components⟩

end PathText

namespace FileTree

variable {tree : FileTree} {dir : PathText} {files : List PathText}

theorem inside_of_mem_eligibleFiles (wellNamed : tree.WellNamed)
    (listed : tree.eligibleFiles dir = .ok files) : ∀ file ∈ files, dir.Inside file := by
  intro file member
  obtain ⟨name, isName, rfl⟩ := exists_name_of_mem_eligibleFiles wellNamed listed file member
  exact ⟨name, PathText.components_join_name isName dir⟩

/-- The files that a source file is resolved with are inside its directory, under whatever path that
was listed. -/
theorem inside_of_resolveFile (wellNamed : tree.WellNamed) {features : List String}
    (listed : tree.eligibleFiles dir = .ok files) {file : PathText} (member : file ∈ files)
    {package : Package} {built : List ParsedFile}
    (answered : tree.resolveFile features file = .ok ⟨[package], built⟩) :
    ∀ path ∈ package.files, dir.Inside path := by
  obtain ⟨_, _, _, _, some⟩ := exists_place listed
  obtain ⟨name, isName, rfl⟩ := exists_name_of_mem_eligibleFiles wellNamed listed file member
  obtain ⟨rfl, paths, again, parsed⟩ := of_resolveFile answered
  intro path inside
  obtain ⟨source, held, rfl⟩ := List.mem_map.mp inside
  rw [PathText.directory_join_name some isName] at again
  obtain ⟨name', components⟩ :=
    inside_of_mem_eligibleFiles wellNamed again _ (parsed source held).1
  exact ⟨name', by rw [components, PathText.trimmed_components some]⟩

theorem isFile_of_isDir (found : tree.isDir dir = true) : tree.isFile dir = false := by
  unfold isDir at found
  unfold isFile
  split at found
  next entries held => rw [held]
  · cases found

end FileTree

/-! ### Loading one directory -/

namespace Loader

variable {tree : FileTree} {features : List String} {dir : PathText}

theorem parse_eq (isDir : tree.isDir dir = true) {files : List PathText}
    (listed : tree.eligibleFiles dir = .ok files) (provider : Provider) (loader : Loader) :
    loader.parse tree provider dir = loader.loadFiles provider files := by
  simp only [parse, directoryOf, FileTree.isFile_of_isDir isDir, Bool.false_eq_true, if_false, listed]

theorem exists_listed (isDir : tree.isDir dir = true) {provider : Provider} {loader : Loader}
    (done : (loader.parse tree provider dir).2 = .ok ()) :
    ∃ files, tree.eligibleFiles dir = .ok files := by
  cases listed : tree.eligibleFiles dir with
  | ok files => exact ⟨files, rfl⟩
  | error error =>
    simp [parse, directoryOf, FileTree.isFile_of_isDir isDir, listed] at done

/-- A directory whose files a loader has seen nothing of is loaded as by a new loader. -/
theorem parse_beside (wellNamed : tree.WellNamed) (isDir : tree.isDir dir = true)
    (done : (parse tree (.ofTree tree features) {} dir).2 = .ok ()) {base : Loader}
    (elsewhere : ∀ known ∈ base.seen, ¬dir.Inside known) :
    Beside base (parse tree (.ofTree tree features) {} dir).1
        (base.parse tree (.ofTree tree features) dir).1 ∧
      (base.parse tree (.ofTree tree features) dir).2 = .ok () := by
  obtain ⟨files, listed⟩ := exists_listed isDir done
  have unseen {file : PathText} (inside : dir.Inside file) : base.hasSeen file = false := by
    rw [Bool.eq_false_iff]
    intro seen
    obtain ⟨known, member, same⟩ := hasSeen_iff.mp seen
    exact elsewhere known member (inside.congr same.symm)
  have unknown : ∀ file ∈ files, Beside.Unknown tree features base file := by
    intro file member
    refine ⟨unseen (FileTree.inside_of_mem_eligibleFiles wellNamed listed file member), ?_⟩
    intro package built answered path inside
    exact unseen (FileTree.inside_of_resolveFile wellNamed listed member answered path inside)
  rw [parse_eq isDir listed] at done ⊢
  rw [parse_eq isDir listed]
  obtain ⟨beside, outcome⟩ := (Beside.fresh base).loadFiles unknown
  exact ⟨beside, outcome.trans done⟩

theorem seen_inside (wellNamed : tree.WellNamed) (isDir : tree.isDir dir = true)
    (done : (parse tree (.ofTree tree features) {} dir).2 = .ok ()) :
    ∀ known ∈ (parse tree (.ofTree tree features) {} dir).1.seen, dir.Inside known := by
  obtain ⟨files, listed⟩ := exists_listed isDir done
  rw [parse_eq isDir listed]
  refine forall_seen_loadFiles (FileTree.inside_of_mem_eligibleFiles wellNamed listed) ?_ (by simp)
  intro file member _ package built answered
  exact FileTree.inside_of_resolveFile wellNamed listed member answered

/-- The structs that a new loader lists of a directory are those of one package, which is made of
files of the directory. -/
theorem exists_package (wellNamed : tree.WellNamed) (isDir : tree.isDir dir = true)
    (done : (parse tree (.ofTree tree features) {} dir).2 = .ok ()) :
    ∃ parent built, ToldApart built ∧ (∀ file ∈ built, dir.Inside file.path) ∧
      (parse tree (.ofTree tree features) {} dir).1.structs =
        packageStructs (.ofResolution (.ofFiles parent built features) built) := by
  obtain ⟨files, parent, built, listed, answered, structs⟩ := exists_answered wellNamed done
  have directory : directoryOf tree dir = dir := by
    simp [directoryOf, FileTree.isFile_of_isDir isDir]
  rw [directory] at listed
  refine ⟨parent, built, answered.apart, ?_, structs⟩
  intro file member
  obtain ⟨first, chosen, answer⟩ := answered.exists_resolveFile (List.ne_nil_of_mem member)
  exact FileTree.inside_of_resolveFile wellNamed listed chosen answer _ (List.mem_map_of_mem member)

/-! ### Loading several directories -/

/-- Directories with different paths are loaded in turn, each to the entries that a new loader has
of it. -/
theorem exists_loads (wellNamed : tree.WellNamed) {dirs : List PathText}
    (apart : dirs.Pairwise fun dir other => dir.same other = false)
    (areDirs : ∀ dir ∈ dirs, tree.isDir dir = true)
    (loadable : ∀ dir ∈ dirs, (parse tree (.ofTree tree features) {} dir).2 = .ok ())
    (base : Loader) (elsewhere : ∀ known ∈ base.seen, ∀ dir ∈ dirs, ¬dir.Inside known) :
    ∃ last, Walker.Loads tree (.ofTree tree features) base dirs last ∧
      last.structs = base.structs ++
        dirs.flatMap fun dir => (parse tree (.ofTree tree features) {} dir).1.structs := by
  induction dirs generalizing base with
  | nil => exact ⟨base, .done base, by simp⟩
  | cons dir rest ih =>
    obtain ⟨different, laterApart⟩ := List.pairwise_cons.mp apart
    obtain ⟨isDir, laterDirs⟩ := List.forall_mem_cons.mp areDirs
    obtain ⟨done, laterDone⟩ := List.forall_mem_cons.mp loadable
    obtain ⟨beside, parsed⟩ := parse_beside wellNamed isDir done fun known member =>
      elsewhere known member dir List.mem_cons_self
    -- What has been seen now is inside `dir` or was seen before, and in no later directory.
    have stillElsewhere : ∀ known ∈ (base.parse tree (.ofTree tree features) dir).1.seen,
        ∀ other ∈ rest, ¬other.Inside known := by
      intro known member other later inside
      rw [beside.seen] at member
      rcases List.mem_append.mp member with old | new
      · exact elsewhere known old other (List.mem_cons_of_mem _ later) inside
      · have same := (seen_inside wellNamed isDir done known new).unique inside
        rw [different other later] at same
        cases same
    obtain ⟨last, loads, structs⟩ := ih laterApart laterDirs laterDone _ stillElsewhere
    refine ⟨last, .next parsed loads, ?_⟩
    rw [structs, List.flatMap_cons, ← List.append_assoc]
    simp only [Loader.structs, beside.entries, List.flatMap_append]

end Loader

/-! ### Structs that a struct leads to -/

namespace StructDesc

/-- The fields of a struct, with the parameters and results of its methods. -/
def members (struct : StructDesc) : List FieldDesc :=
  struct.fields ++ struct.methods.flatMap fun method => method.params ++ method.returns.toList

theorem package_of_mem_members {struct : StructDesc} {field : FieldDesc}
    (member : field ∈ struct.members) : field.package = struct.package := by
  rcases List.mem_append.mp member with own | given
  · exact package_of_mem_fields own
  · obtain ⟨method, listed, inside⟩ := List.mem_flatMap.mp given
    obtain ⟨function, _, rfl⟩ := List.mem_map.mp listed
    rcases List.mem_append.mp inside with param | result
    · obtain ⟨found, _, rfl⟩ := List.mem_map.mp param
      rfl
    · obtain ⟨found, _, rfl⟩ := Option.map_eq_some_iff.mp (Option.mem_toList.mp result)
      rfl

end StructDesc

namespace Loader

variable {tree : FileTree} {features : List String}

/-- Directories with different paths, each of which can be loaded by itself, are loaded one after the
other by a single loader. It then lists what new loaders list of each, one after the other: the same
structs, with all that can be asked of them. A struct of a directory is declared in a file inside it,
and whatever its fields and methods lead to is a struct of the same directory. -/
theorem directories_load_apart (wellNamed : tree.WellNamed) (features : List String)
    {dirs : List PathText} (apart : dirs.Pairwise fun dir other => dir.same other = false)
    (areDirs : ∀ dir ∈ dirs, tree.isDir dir = true)
    (loadable : ∀ dir ∈ dirs, (parse tree (.ofTree tree features) {} dir).2 = .ok ()) :
    (∃ last, Walker.Loads tree (.ofTree tree features) {} dirs last ∧
      last.structs =
        dirs.flatMap fun dir => (parse tree (.ofTree tree features) {} dir).1.structs) ∧
    ∀ dir ∈ dirs, ∀ struct ∈ (parse tree (.ofTree tree features) {} dir).1.structs,
      dir.Inside struct.file ∧
      ∀ field ∈ struct.members, ∀ inner, field.asStruct = some inner →
        inner ∈ (parse tree (.ofTree tree features) {} dir).1.structs := by
  refine ⟨exists_loads wellNamed apart areDirs loadable {} (List.forall_mem_nil _), ?_⟩
  intro dir member struct listed
  obtain ⟨parent, built, toldApart, inside, structs⟩ :=
    exists_package wellNamed (areDirs dir member) (loadable dir member)
  rw [structs] at listed ⊢
  obtain ⟨samePackage, inScope, isStruct⟩ := (mem_packageStructs_iff toldApart).mp listed
  constructor
  · obtain ⟨found, first, declared⟩ := Package.exists_declaration inScope
    have held := (Package.mem_declarations (List.mem_of_find?_eq_some first)).1
    rw [StructDesc.file, ← declared]
    exact inside found.1 held
  · intro field reached inner holds
    obtain ⟨innerPackage, innerScope, innerStruct⟩ := FieldDesc.asStruct_eq_some holds
    have same := StructDesc.package_of_mem_members reached
    rw [same, samePackage] at innerPackage innerScope
    exact (mem_packageStructs_iff toldApart).mpr ⟨innerPackage, innerScope, innerStruct⟩

/-- Three directories, of which one lies in another and one is come to by a detour. -/
theorem nested_directories_load_apart :
    let tree : FileTree := ⟨.dir [("p", .dir [
      ("a.rs", .file (some "struct A \x7b pub b: B \x7d struct B;")),
      ("q", .dir [("c.rs", .file (some "struct B;"))])])], []⟩
    let dirs : List PathText := [⟨"p"⟩, ⟨"p/q"⟩, ⟨"p/q/.."⟩]
    tree.WellNamed ∧ dirs.Pairwise (fun dir other => dir.same other = false) ∧
      (∀ dir ∈ dirs, (parse tree (.ofTree tree []) {} dir).2 = .ok ()) ∧
      ∃ last, Walker.Loads tree (.ofTree tree []) {} dirs last ∧
        last.structs.map (fun struct => (struct.name, struct.file.text)) =
          [("A", "p/a.rs"), ("B", "p/a.rs"), ("B", "p/q/c.rs"),
            ("A", "p/q/../a.rs"), ("B", "p/q/../a.rs")] := by
  intro tree dirs
  have wellNamed : tree.WellNamed := by
    have inner : FileNode.WellNamed (.dir [("c.rs", .file (some "struct B;"))]) :=
      FileNode.wellNamed_dir (by
        simpa using ⟨⟨by decide, by decide⟩, FileNode.wellNamed_file _⟩)
    have outer : FileNode.WellNamed (.dir [
        ("a.rs", .file (some "struct A \x7b pub b: B \x7d struct B;")),
        ("q", .dir [("c.rs", .file (some "struct B;"))])]) :=
      FileNode.wellNamed_dir (by
        simp only [List.forall_mem_cons, FileNode.wellNamed_file, and_true]
        exact ⟨⟨by decide, by decide⟩, ⟨⟨by decide, by decide⟩, inner⟩, by simp⟩)
    exact FileNode.wellNamed_dir (by simpa using ⟨⟨by decide, by decide⟩, outer⟩)
  have apart : dirs.Pairwise fun dir other => dir.same other = false := by decide +kernel
  have areDirs : ∀ dir ∈ dirs, tree.isDir dir = true := by decide +kernel
  have loadable : ∀ dir ∈ dirs, (parse tree (.ofTree tree []) {} dir).2 = .ok () := by
    decide +kernel
  obtain ⟨⟨last, loads, structs⟩, -⟩ := directories_load_apart wellNamed [] apart areDirs loadable
  refine ⟨wellNamed, apart, loadable, last, loads, ?_⟩
  rw [structs]
  decide +kernel

end Loader

end StructInventory
