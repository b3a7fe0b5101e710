import StructInventory.Proofs.LoadedStruct

/-!
Where the structs of a walk come from. The directories of a walk are reached from its base by names
of entries, and what is loaded from one of them stands in it.
-/

namespace StructInventory

/-! ### Directories -/

/-- A name that a directory below the base of a walk can have without being left out. -/
structure PathText.IsShown (name : String) : Prop extends IsName name where
  first : ∀ c ∈ name.toList.head?, c ≠ '.' ∧ c ≠ '_'
  target : name ≠ "target"

namespace FileNode

/-- What a directory hands down to all its entries holds wherever names lead. -/
theorem of_find? {holds : FileNode → Prop}
    (down : ∀ entries, holds (.dir entries) → ∀ entry ∈ entries, holds entry.2)
    {node inner : FileNode} {place : List String} (found : node.find? place = some inner)
    (above : holds node) : holds inner := by
  induction place generalizing node with
  | nil =>
    cases node <;> cases found <;> exact above
  | cons name rest ih =>
    cases node with
    | file text => cases found
    | dir entries =>
      obtain ⟨below, held, deeper⟩ := Option.bind_eq_some_iff.mp found
      obtain ⟨front, back, rfl, _⟩ := List.lookup_eq_some_iff.mp held
      exact ih deeper (down _ above (name, below) (by simp))

/-- Every entry below has a name of one component, also one that another of its name hides. -/
inductive NamedThroughout : FileNode → Prop where
  | file (text : Option String) : NamedThroughout (.file text)
  | dir {entries : List (String × FileNode)}
      (names : ∀ entry ∈ entries, PathText.IsName entry.1)
      (within : ∀ entry ∈ entries, NamedThroughout entry.2) : NamedThroughout (.dir entries)

namespace NamedThroughout

variable {node : FileNode}

theorem empty : NamedThroughout (.dir []) := .dir (by simp) (by simp)

theorem entry {name : String} {entries : List (String × FileNode)} (isName : PathText.IsName name)
    (inner : node.NamedThroughout) (others : NamedThroughout (.dir entries)) :
    NamedThroughout (.dir ((name, node) :: entries)) := by
  cases others with
  | dir names within =>
    exact .dir (List.forall_mem_cons.mpr ⟨isName, names⟩) (List.forall_mem_cons.mpr ⟨inner, within⟩)

theorem wellNamed (named : node.NamedThroughout) : node.WellNamed := by
  induction named with
  | file text => exact wellNamed_file text
  | dir names _ ih => exact wellNamed_dir fun entry member => ⟨names entry member, ih entry member⟩

theorem find? (named : node.NamedThroughout) {place : List String} {inner : FileNode}
    (found : node.find? place = some inner) : inner.NamedThroughout := by
  refine of_find? (fun entries above => ?_) found named
  cases above with
  | dir _ within => exact within

end NamedThroughout

theorem startsWith_eq_false_iff {name mark : String} {c : Char} (single : mark.toList = [c]) :
    name.startsWith mark = false ↔ name.toList.head? ≠ some c := by
  rw [← Bool.not_eq_true, String.startsWith_string_iff, single]
  cases name.toList with
  | nil => simp
  | cons first rest => simp [List.cons_prefix_cons, eq_comm]

theorem isSkipped_eq_false_iff {name : String} {node : FileNode} (isDir : node.isDir = true) :
    isSkipped name node = false ↔
      (∀ c ∈ name.toList.head?, c ≠ '.' ∧ c ≠ '_') ∧ name ≠ "target" := by
  have dot : ".".toList = ['.'] := rfl
  have underscore : "_".toList = ['_'] := rfl
  simp only [isSkipped, isDir, Bool.true_and, Bool.or_eq_false_iff, decide_eq_false_iff_not,
    startsWith_eq_false_iff dot, startsWith_eq_false_iff underscore]
  cases name.toList.head? <;> simp

/-- The entries of a directory that a walk does not leave out, in the order of their names. -/
def keptEntries (entries : List (String × FileNode)) : List (String × FileNode) :=
  sortBy (fun a b => a.1 < b.1) (entries.filter fun entry => !isSkipped entry.1 entry.2)

theorem mem_keptEntries {entries : List (String × FileNode)} {entry : String × FileNode} :
    entry ∈ keptEntries entries ↔ entry ∈ entries ∧ isSkipped entry.1 entry.2 = false := by
  rw [keptEntries, (sortBy_perm _).mem_iff, List.mem_filter, Bool.not_eq_true']

theorem visibleEntries_eq (path : PathText) (entries : List (String × FileNode)) :
    visibleEntries path entries =
      (entries.filter fun entry => !isSkipped entry.1 entry.2).map fun entry =>
        (entry.1, visibleDirs (path.join ⟨entry.1⟩) entry.2) := by
  induction entries with
  | nil => rw [visibleEntries, List.filter_nil, List.map_nil]
  | cons first rest ih =>
    rw [visibleEntries, ih, List.filter_cons]
    cases isSkipped first.1 first.2 <;> rfl

/-- A directory comes first, and behind it what each entry contributes. -/
theorem visibleDirs_dir (path : PathText) (entries : List (String × FileNode)) :
    visibleDirs path (.dir entries) = path :: (keptEntries entries).flatMap fun entry =>
      visibleDirs (path.join ⟨entry.1⟩) entry.2 := by
  let below (entry : String × FileNode) := (entry.1, visibleDirs (path.join ⟨entry.1⟩) entry.2)
  let kept := entries.filter fun entry => !isSkipped entry.1 entry.2
  have sorted : sortBy (fun a b => a.1 < b.1) (kept.map below) =
      (sortBy (fun a b => a.1 < b.1) kept).map below := sortBy_map below kept fun _ _ _ _ => rfl
  rw [visibleDirs, visibleEntries_eq, sorted, List.flatMap_map]
  rfl

theorem isDir_of_mem_visibleDirs {path dir : PathText} {node : FileNode}
    (member : dir ∈ node.visibleDirs path) : node.isDir = true := by
  cases node with
  | file text => simp [visibleDirs] at member
  | dir entries => rfl

/-- Names of entries lead from the base of a walk to each of its directories, none of them left
out. -/
theorem NamedThroughout.exists_descend {node : FileNode} (named : node.NamedThroughout)
    (path : PathText) :
    ∀ dir ∈ node.visibleDirs path,
      ∃ below, (∀ name ∈ below, PathText.IsShown name) ∧ dir = path.descend below := by
  induction named generalizing path with
  | file => simp [visibleDirs]
  | dir names _ ih =>
    intro dir member
    rw [visibleDirs_dir] at member
    rcases List.mem_cons.mp member with rfl | member
    · exact ⟨[], by simp, rfl⟩
    · obtain ⟨entry, kept, inside⟩ := List.mem_flatMap.mp member
      obtain ⟨held, shown⟩ := mem_keptEntries.mp kept
      obtain ⟨first, target⟩ := (isSkipped_eq_false_iff (isDir_of_mem_visibleDirs inside)).mp shown
      obtain ⟨below, plain, rfl⟩ := ih entry held _ dir inside
      exact ⟨entry.1 :: below,
        List.forall_mem_cons.mpr ⟨⟨names entry held, first, target⟩, plain⟩, rfl⟩

end FileNode

/-- A directory that names of entries lead to from a base. -/
structure PathText.Reached (base dir : PathText) (below : List String) : Prop where
  named : ∀ name ∈ below, IsName name
  leads : dir = (base.descend below).trimmed

namespace PathText.Reached

variable {base dir : PathText} {below : List String}

theorem text_ne (reached : base.Reached dir below) (some : base.text ≠ "") : dir.text ≠ "" := by
  rw [reached.leads]
  exact trimmed_text_ne (descend_text_ne some reached.named)

theorem components (reached : base.Reached dir below) (some : base.text ≠ "") :
    dir.components = base.components ++ below.map .name := by
  rw [reached.leads, trimmed_components (descend_text_ne some reached.named),
    descend_components base reached.named]

theorem trimmed (reached : base.Reached dir below) (some : base.text ≠ "") : dir.trimmed = dir := by
  rw [reached.leads, trimmed_trimmed (descend_text_ne some reached.named)]

end PathText.Reached

/-! ### Walks -/

namespace Walker

section

variable {walker : Walker} {tree : FileTree} {dirs : List PathText}

/-- The base of a walk is found, and it is a directory if there is any directory to load. -/
theorem exists_base (listed : walker.directories tree = .ok dirs) :
    walker.baseDir.text ≠ "" ∧ ∃ node place, tree.node walker.baseDir = .ok node ∧
      tree.root.find? place = some node ∧ dirs ⊆ node.visibleDirs walker.baseDir := by
  unfold directories at listed
  cases found : tree.node walker.baseDir with
  | error error =>
    rw [found] at listed
    cases listed
  | ok node =>
    rw [found] at listed
    cases listed
    obtain ⟨place, _, held⟩ := FileTree.node_eq_ok_iff.mp found
    refine ⟨FileTree.text_ne_of_node found, node, place, rfl, held, ?_⟩
    split
    · exact List.Subset.refl _
    · exact List.take_subset 1 _

/-- The source files that are read for a directory of the walk stand in a directory that names lead
to, none of them left out. -/
theorem exists_reached (named : tree.root.NamedThroughout)
    (listed : walker.directories tree = .ok dirs) {dir : PathText} (member : dir ∈ dirs)
    {files : List PathText}
    (eligible : tree.eligibleFiles (Loader.directoryOf tree dir) = .ok files) :
    ∀ file ∈ files, ∃ below, walker.baseDir.Reached file.directory below ∧
      ∀ name ∈ below, PathText.IsShown name := by
  intro file chosen
  obtain ⟨some, node, place, found, held, subset⟩ := exists_base listed
  obtain ⟨below, shown, rfl⟩ := (named.find? held).exists_descend _ dir (subset member)
  have plain : ∀ name ∈ below, PathText.IsName name := fun name member =>
    (shown name member).toIsName
  obtain ⟨name, isName, rfl⟩ :=
    FileTree.exists_name_of_mem_eligibleFiles named.wellNamed eligible file chosen
  unfold Loader.directoryOf
  split
  next isFile =>
    -- Where a file hides the directory of its name, the directory above is read once more.
    rcases List.eq_nil_or_concat below with rfl | ⟨init, last, rfl⟩
    · have isDir : ∃ entries, node = .dir entries := by
        cases node with
        | file text => exact absurd (subset member) (by simp [FileNode.visibleDirs])
        | dir entries => exact ⟨entries, rfl⟩
      obtain ⟨entries, rfl⟩ := isDir
      simp [FileTree.isFile, PathText.descend, found] at isFile
    · have shownInit : ∀ name ∈ init, PathText.IsShown name := fun name member =>
        shown name (by simp [member])
      have plainInit : ∀ name ∈ init, PathText.IsName name := fun name member =>
        (shownInit name member).toIsName
      have above := PathText.descend_text_ne some plainInit
      rw [List.concat_eq_append, PathText.descend_concat,
        PathText.directory_join_name above (plain last (by simp)),
        PathText.directory_join_name (PathText.trimmed_text_ne above) isName,
        PathText.trimmed_trimmed above]
      exact ⟨init, ⟨plainInit, rfl⟩, shownInit⟩
  next =>
    rw [PathText.directory_join_name (PathText.descend_text_ne some plain) isName]
    exact ⟨below, ⟨plain, rfl⟩, shown⟩

/-- Everything that a walk has loaded comes from directories that names lead to, none of them left
out. -/
theorem Loaded.entries {loader : Loader} (named : tree.root.NamedThroughout)
    (loaded : walker.Loaded tree loader) : ∀ entry ∈ loader.entries, ∃ dir below,
      walker.baseDir.Reached dir below ∧ (∀ name ∈ below, PathText.IsShown name) ∧
        Loader.EntryOf tree walker.features dir entry := by
  obtain ⟨dirs, listed, loads⟩ := loaded
  have some := (exists_base listed).1
  refine loads.forall_entries ?_ (by simp)
  intro dir member files eligible file chosen _ package built answered path inside
  obtain ⟨below, reached, shown⟩ := exists_reached named listed member eligible file chosen
  obtain ⟨rfl, paths, again, parsed⟩ := FileTree.of_resolveFile answered
  obtain ⟨source, held, rfl⟩ := List.mem_map.mp inside
  obtain ⟨name, isName, path⟩ := FileTree.exists_name_of_mem_eligibleFiles named.wellNamed again
    source.path (parsed source held).1
  have directory : source.path.directory = file.directory := by
    rw [path, PathText.directory_join_name (reached.text_ne some) isName, reached.trimmed some]
  refine ⟨file.directory, below, reached, shown, directory, _, built, ?_, rfl⟩
  exact (FileTree.resolveFile_congr directory).trans answered

theorem Loaded.base_text_ne {loader : Loader} (loaded : walker.Loaded tree loader) :
    walker.baseDir.text ≠ "" := by
  obtain ⟨dirs, listed, _⟩ := loaded
  exact (exists_base listed).1

theorem Loaded.foundIn {loader : Loader} (named : tree.root.NamedThroughout)
    (loaded : walker.Loaded tree loader) {entry : LoadedFile} (member : entry ∈ loader.entries) :
    ∃ dir below, walker.baseDir.Reached dir below ∧
      Loader.EntryOf tree walker.features dir entry ∧
      ∀ struct ∈ Loader.structsOf entry, struct.FoundIn dir := by
  obtain ⟨dir, below, reached, _, entryOf⟩ := loaded.entries named entry member
  have some := loaded.base_text_ne
  refine ⟨dir, below, reached, entryOf, fun struct listed => ?_⟩
  exact entryOf.foundIn named.wellNamed (reached.text_ne some) (reached.trimmed some) listed

/-- No two structs of a walk have both their directory and their name in common. -/
theorem Loaded.structs_apart {loader : Loader} (named : tree.root.NamedThroughout)
    (loaded : walker.Loaded tree loader) :
    loader.structs.Pairwise fun struct other =>
      ¬(struct.file.directory.same other.file.directory = true ∧ struct.name = other.name) := by
  obtain ⟨dirs, _, loads⟩ := loaded
  exact loads.structs_apart named.wellNamed

end

end Walker

end StructInventory
