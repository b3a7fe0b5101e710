import StructInventory.Proofs.LoaderRun
import StructInventory.Proofs.VisibleDirectory

/-!
The order in which directories list their entries. It means nothing: where a path leads is a matter
of names, and wherever a directory is listed its entries are sorted before anything is done with
them. Since no two entries of a directory have the same name, sorting leaves only one order. So two
trees that differ in nothing but these orders have the same source files, packages, diagnostics and
walks.
-/

namespace StructInventory

/-- Items with different keys have only one order by these. -/
theorem sortBy_eq_of_perm {α : Type} (key : α → String) {items items' : List α}
    (perm : items.Perm items') (apart : ∀ a ∈ items, ∀ b ∈ items, key a = key b → a = b) :
    sortBy (fun a b => decide (key a < key b)) items =
      sortBy (fun a b => decide (key a < key b)) items' := by
  -- Both results are sorted and hold the same items, and no two of these compare as equal.
  have sorted := sortBy_pairwise_le key items
  have sorted' := sortBy_pairwise_le key items'
  refine List.Perm.eq_of_pairwise (fun a b member member' first second => ?_) sorted sorted'
    ((sortBy_perm items).trans (perm.trans (sortBy_perm items').symm))
  exact apart a ((sortBy_perm items).mem_iff.mp member) b
    (perm.mem_iff.mpr ((sortBy_perm items').mem_iff.mp member')) (String.le_antisymm first second)

/-! ### Nodes -/

namespace FileNode

/-- The same names on every level, with the same files behind them; each directory lists its entries
in an order of its own. -/
inductive Reordered : FileNode → FileNode → Prop where
  | file (text : Option String) : Reordered (.file text) (.file text)
  | dir {entries entries' : List (String × FileNode)}
      (names : (entries.map Prod.fst).Perm (entries'.map Prod.fst))
      (within : ∀ name node node', (name, node) ∈ entries → (name, node') ∈ entries' →
        Reordered node node') : Reordered (.dir entries) (.dir entries')

section

variable {node node' : FileNode} {entries entries' : List (String × FileNode)} {name : String}

theorem mem_of_lookup (found : entries.lookup name = some node) : (name, node) ∈ entries := by
  obtain ⟨front, back, rfl, _⟩ := List.lookup_eq_some_iff.mp found
  simp

theorem isSome_lookup_iff : (entries.lookup name).isSome = true ↔ name ∈ entries.map Prod.fst := by
  simp [List.lookup_isSome_iff]

theorem exists_entry_of_perm (names : (entries.map Prod.fst).Perm (entries'.map Prod.fst))
    (member : (name, node) ∈ entries) : ∃ node', (name, node') ∈ entries' := by
  simpa using names.mem_iff.mp (List.mem_map_of_mem member)

theorem isSome_lookup_of_perm (names : (entries.map Prod.fst).Perm (entries'.map Prod.fst))
    (name : String) : (entries.lookup name).isSome = (entries'.lookup name).isSome := by
  rw [Bool.eq_iff_iff, isSome_lookup_iff, isSome_lookup_iff, names.mem_iff]

theorem Proper.wellNamed (proper : node.Proper) : node.WellNamed := by
  intro place entries found
  cases proper.find? found with
  | dir names _ _ => exact names

theorem entry_unique (apart : (entries.map Prod.fst).Nodup) (member : (name, node) ∈ entries)
    (member' : (name, node') ∈ entries) : node = node' :=
  Option.some.inj (((lookup_eq_some_iff_mem apart).mpr member).symm.trans
    ((lookup_eq_some_iff_mem apart).mpr member'))

theorem Proper.reordered_self (proper : node.Proper) : node.Reordered node := by
  induction proper with
  | file text => exact .file text
  | dir _ apart _ ih =>
    -- Two entries of one name are one entry, since names are distinct.
    refine .dir (.refl _) fun name node node' member member' => ?_
    obtain rfl := entry_unique apart member member'
    exact ih (name, node) member

/-- The entries of a directory may be listed in any order. -/
theorem Proper.reordered_of_perm (proper : Proper (.dir entries)) (perm : entries.Perm entries') :
    Reordered (.dir entries) (.dir entries') := by
  cases proper with
  | dir _ apart within =>
    refine .dir (perm.map Prod.fst) fun name node node' member member' => ?_
    obtain rfl := entry_unique apart member (perm.mem_iff.mpr member')
    exact (within (name, node) member).reordered_self

namespace Reordered

theorem proper (reordered : node.Reordered node') (proper : node.Proper) : node'.Proper := by
  induction reordered with
  | file text => exact .file text
  | dir perm _ ih =>
    cases proper with
    | dir names apart within =>
      refine .dir (fun entry member => ?_) (perm.nodup_iff.mp apart) fun entry member => ?_
      · obtain ⟨other, held⟩ := exists_entry_of_perm perm.symm member
        exact names (entry.1, other) held
      · obtain ⟨other, held⟩ := exists_entry_of_perm perm.symm member
        exact ih entry.1 other entry.2 held member (within _ held)

/-- Names lead nowhere in both, or to the same in both. -/
theorem find? (reordered : node.Reordered node') (place : List String) :
    (node.find? place = none ∧ node'.find? place = none) ∨
      ∃ inner inner', node.find? place = some inner ∧ node'.find? place = some inner' ∧
        inner.Reordered inner' := by
  induction place generalizing node node' with
  | nil => exact .inr ⟨node, node', rfl, rfl, reordered⟩
  | cons name rest ih =>
    cases reordered with
    | file text => exact .inl ⟨rfl, rfl⟩
    | @dir entries entries' names within =>
      -- The first name is held by both directories or by neither.
      have held := isSome_lookup_of_perm names name
      cases first : entries.lookup name <;> cases second : entries'.lookup name
      · simp [find?_dir_cons, first, second]
      · simp [first, second] at held
      · simp [first, second] at held
      next inner inner' =>
        rw [find?_dir_cons, find?_dir_cons, first, second]
        exact ih (within name inner inner' (mem_of_lookup first) (mem_of_lookup second))

theorem isSkipped (reordered : node.Reordered node') (name : String) :
    isSkipped name node = isSkipped name node' := by
  cases reordered <;> rfl

end Reordered

theorem mem_visibleEntries {path : PathText} {shown : String × List PathText} :
    shown ∈ visibleEntries path entries ↔ ∃ node, (shown.1, node) ∈ entries ∧
      FileNode.isSkipped shown.1 node = false ∧
        shown.2 = visibleDirs (path.join ⟨shown.1⟩) node := by
  simp only [visibleEntries_eq, List.mem_map, List.mem_filter, Bool.not_eq_true']
  constructor
  · rintro ⟨entry, ⟨held, kept⟩, rfl⟩
    exact ⟨entry.2, held, kept, rfl⟩
  · rintro ⟨node, held, kept, dirs⟩
    exact ⟨(shown.1, node), ⟨held, kept⟩, by rw [← dirs]⟩

theorem visibleEntries_nodup (apart : (entries.map Prod.fst).Nodup) (path : PathText) :
    ((visibleEntries path entries).map Prod.fst).Nodup := by
  rw [visibleEntries_eq, List.map_map]
  exact apart.sublist (List.filter_sublist.map Prod.fst)

/-- What one entry contributes to a walk, the other entry of its name does. -/
theorem visibleEntries_subset (names : (entries.map Prod.fst).Perm (entries'.map Prod.fst))
    {path : PathText} (within : ∀ name node node', (name, node) ∈ entries →
      (name, node') ∈ entries' → FileNode.isSkipped name node = FileNode.isSkipped name node' ∧
        visibleDirs (path.join ⟨name⟩) node = visibleDirs (path.join ⟨name⟩) node') :
    visibleEntries path entries ⊆ visibleEntries path entries' := by
  intro shown member
  obtain ⟨node, held, kept, dirs⟩ := mem_visibleEntries.mp member
  obtain ⟨node', held'⟩ := exists_entry_of_perm names held
  obtain ⟨skipped, same⟩ := within _ node node' held held'
  exact mem_visibleEntries.mpr ⟨node', held', skipped ▸ kept, dirs.trans same⟩

theorem Reordered.visibleDirs (reordered : node.Reordered node') (proper : node.Proper)
    (path : PathText) : node.visibleDirs path = node'.visibleDirs path := by
  induction reordered generalizing path with
  | file text => rfl
  | @dir entries entries' names inner ih =>
    cases proper with
    | dir _ apart within =>
      have alike : ∀ name node node', (name, node) ∈ entries → (name, node') ∈ entries' →
          FileNode.isSkipped name node = FileNode.isSkipped name node' ∧
            node.visibleDirs (path.join ⟨name⟩) = node'.visibleDirs (path.join ⟨name⟩) := by
        intro name node node' held held'
        exact ⟨(inner name node node' held held').isSkipped name,
          ih name node node' held held' (within _ held) _⟩
      have distinct := visibleEntries_nodup apart path
      have distinct' := visibleEntries_nodup (names.nodup_iff.mp apart) path
      -- The entries of the two walks are the same ones, so sorting them by name leaves one list.
      have perm : (visibleEntries path entries).Perm (visibleEntries path entries') := by
        refine (List.perm_ext_iff_of_nodup distinct.of_map distinct'.of_map).mpr fun shown =>
          ⟨?_, ?_⟩
        · exact fun member => visibleEntries_subset names alike member
        · refine fun member => visibleEntries_subset names.symm ?_ member
          intro name node node' held held'
          obtain ⟨skipped, dirs⟩ := alike name node' node held' held
          exact ⟨skipped.symm, dirs.symm⟩
      rw [FileNode.visibleDirs, FileNode.visibleDirs, sortBy_eq_of_perm Prod.fst perm]
      exact fun a member b member' same => List.inj_on_of_nodup_map distinct member member' same

end

end FileNode

/-! ### Trees -/

namespace FileTree

/-- Two trees that differ only in the orders in which directories list their entries. -/
structure Reordered (tree other : FileTree) : Prop where
  root : tree.root.Reordered other.root
  home : tree.home = other.home

namespace Reordered

variable {tree other : FileTree}

theorem step (reordered : tree.Reordered other) : tree.step = other.step := by
  funext place piece
  unfold FileTree.step
  rcases reordered.root.find? place with ⟨none, none'⟩ | ⟨inner, inner', found, found', alike⟩
  · rw [none, none']
  · rw [found, found']
    cases alike with
    | file text => rfl
    | dir names _ => simp only [FileNode.isSome_lookup_of_perm names]

theorem locate (reordered : tree.Reordered other) (path : PathText) :
    tree.locate path = other.locate path := by
  rw [FileTree.locate, FileTree.locate, origin, origin, reordered.step, reordered.home]

/-- A path leads nowhere in both, for the same reason, or to the same in both. -/
theorem node (reordered : tree.Reordered other) (path : PathText) :
    (∃ error, tree.node path = .error error ∧ other.node path = .error error) ∨
      ∃ node node', tree.node path = .ok node ∧ other.node path = .ok node' ∧
        node.Reordered node' := by
  unfold FileTree.node
  rw [← reordered.locate path]
  cases tree.locate path with
  | error error => exact .inl ⟨error, rfl, rfl⟩
  | ok place =>
    simp only [bind, Except.bind]
    rcases reordered.root.find? place with ⟨none, none'⟩ | ⟨inner, inner', found, found', alike⟩
    · exact .inl ⟨.notFound, by rw [none], by rw [none']⟩
    · exact .inr ⟨inner, inner', by rw [found], by rw [found'], alike⟩

theorem isFile (reordered : tree.Reordered other) (path : PathText) :
    tree.isFile path = other.isFile path := by
  unfold FileTree.isFile
  rcases reordered.node path with ⟨error, failed, failed'⟩ | ⟨node, node', found, found', alike⟩
  · rw [failed, failed']
  · rw [found, found']
    cases alike <;> rfl

theorem readText (reordered : tree.Reordered other) (path : PathText) :
    tree.readText path = other.readText path := by
  unfold FileTree.readText
  rcases reordered.node path with ⟨error, failed, failed'⟩ | ⟨node, node', found, found', alike⟩
  · rw [failed, failed']
  · rw [found, found']
    cases alike <;> rfl

theorem sourceNames (reordered : tree.Reordered other) (place : List String)
    {entries entries' : List (String × FileNode)}
    (names : (entries.map Prod.fst).Perm (entries'.map Prod.fst)) :
    tree.sourceNames place entries = other.sourceNames place entries' := by
  have isFileAt (place : List String) : tree.isFileAt place = other.isFileAt place := by
    unfold FileTree.isFileAt
    rcases reordered.root.find? place with ⟨none, none'⟩ | ⟨inner, inner', found, found', alike⟩
    · rw [none, none']
    · rw [found, found']
      cases alike <;> rfl
  unfold FileTree.sourceNames
  simp only [isFileAt]
  exact sortBy_eq_of_perm id (names.filter _) fun a _ b _ same => same

/-- The one place where the source files of a directory are listed. -/
theorem eligibleFiles (reordered : tree.Reordered other) (proper : tree.root.Proper)
    (dir : PathText) : tree.eligibleFiles dir = other.eligibleFiles dir := by
  have proper' := reordered.root.proper proper
  rcases reordered.node dir with ⟨error, failed, failed'⟩ | ⟨node, node', found, found', alike⟩
  · simp only [FileTree.eligibleFiles, list, failed, failed', bind, Except.bind]
  · cases alike with
    | file text => simp only [FileTree.eligibleFiles, list, found, found', bind, Except.bind]
    | dir names _ =>
      -- The path leads to one place in both trees, and what is listed there is sorted by name.
      obtain ⟨place, located, dirAt⟩ := node_eq_ok_iff.mp found
      obtain ⟨place', located', dirAt'⟩ := node_eq_ok_iff.mp found'
      rw [← reordered.locate, located] at located'
      cases located'
      obtain ⟨piece, rest, stem⟩ := PathText.exists_stem (text_ne_of_node found)
      rw [eligibleFiles_eq proper.wellNamed stem located dirAt,
        eligibleFiles_eq proper'.wellNamed stem (reordered.locate dir ▸ located) dirAt',
        reordered.sourceNames place names]

theorem resolveFile (reordered : tree.Reordered other) (proper : tree.root.Proper)
    (features : List String) (path : PathText) :
    tree.resolveFile features path = other.resolveFile features path := by
  have parseFile : tree.parseFile = other.parseFile := by
    funext file
    rw [FileTree.parseFile, FileTree.parseFile, reordered.readText]
  simp only [FileTree.resolveFile, parseFiles, parseFile, reordered.eligibleFiles proper]

theorem provider (reordered : tree.Reordered other) (proper : tree.root.Proper)
    (features : List String) : Provider.ofTree tree features = Provider.ofTree other features := by
  funext count path
  exact reordered.resolveFile proper features path

theorem parse (reordered : tree.Reordered other) (proper : tree.root.Proper)
    (features : List String) (loader : Loader) (path : PathText) :
    loader.parse tree (.ofTree tree features) path =
      loader.parse other (.ofTree other features) path := by
  simp only [Loader.parse, Loader.directoryOf, reordered.isFile, reordered.eligibleFiles proper,
    reordered.provider proper]

theorem parseAll (reordered : tree.Reordered other) (proper : tree.root.Proper)
    (features : List String) (paths : List PathText) (loader : Loader) :
    Loader.parseAll (.ofTree tree features) loader (paths.map (tree, ·)) =
      Loader.parseAll (.ofTree other features) loader (paths.map (other, ·)) := by
  unfold Loader.parseAll
  induction paths generalizing loader with
  | nil => simp only [List.map_nil, List.foldl_nil]
  | cons path rest ih =>
    simp only [List.map_cons, List.foldl_cons, reordered.parse proper, ih]

theorem directories (reordered : tree.Reordered other) (proper : tree.root.Proper)
    (walker : Walker) : walker.directories tree = walker.directories other := by
  unfold Walker.directories
  rcases reordered.node walker.baseDir with
    ⟨error, failed, failed'⟩ | ⟨node, node', found, found', alike⟩
  · rw [failed, failed']
  · obtain ⟨place, _, nodeAt⟩ := node_eq_ok_iff.mp found
    simp only [found, found', alike.visibleDirs (proper.find? nodeAt)]

theorem loadDirs (reordered : tree.Reordered other) (proper : tree.root.Proper)
    (features : List String) (dirs : List PathText) (loader : Loader) :
    Walker.loadDirs tree (.ofTree tree features) loader dirs =
      Walker.loadDirs other (.ofTree other features) loader dirs := by
  induction dirs generalizing loader with
  | nil => rw [Walker.loadDirs, Walker.loadDirs]
  | cons dir rest ih =>
    rw [Walker.loadDirs_cons, Walker.loadDirs_cons, reordered.parse proper, ih]

theorem run (reordered : tree.Reordered other) (proper : tree.root.Proper) (walker : Walker)
    {σ : Type} (visitor : Visitor σ) (state : σ) :
    walker.run tree visitor state = walker.run other visitor state := by
  -- A visitor is shown only what was loaded, and never the tree itself.
  have load : walker.load tree = walker.load other := by
    unfold Walker.load
    rw [reordered.directories proper]
    exact bind_congr fun dirs => reordered.loadDirs proper walker.features dirs {}
  simp only [Walker.run, load]

end Reordered

/-- The orders in which directories list their entries make no difference: not to the source files
of a directory, nor to what a file is resolved to, be it a package or a diagnostic, nor to what
loaders hold and list, nor to a walk. -/
theorem listing_order_does_not_matter {tree other : FileTree} (proper : tree.root.Proper)
    (reordered : tree.Reordered other) :
    (∀ dir, tree.eligibleFiles dir = other.eligibleFiles dir) ∧
    (∀ features path, tree.resolveFile features path = other.resolveFile features path) ∧
    (∀ features (loader : Loader) path, loader.parse tree (.ofTree tree features) path =
      loader.parse other (.ofTree other features) path) ∧
    (∀ features (paths : List PathText),
      (Loader.parseAll (.ofTree tree features) {} (paths.map (tree, ·))).structs =
        (Loader.parseAll (.ofTree other features) {} (paths.map (other, ·))).structs) ∧
    ∀ (walker : Walker) (σ : Type) (visitor : Visitor σ) (state : σ),
      walker.run tree visitor state = walker.run other visitor state := by
  refine ⟨reordered.eligibleFiles proper, reordered.resolveFile proper, reordered.parse proper,
    fun features paths => ?_, fun walker σ visitor state => ?_⟩
  · rw [reordered.parseAll proper]
  · exact reordered.run proper walker visitor state

/-- A directory with two declarations of one name, and below it one with two files that are no
texts, each listed in two orders. -/
theorem listing_order_does_not_matter_duplicates :
    let bad : FileNode := .file none
    let first : FileNode := .file (some "struct S;")
    let second : FileNode := .file (some "enum S \x7b\x7d struct T;")
    let tree : FileTree := ⟨.dir [("b.rs", second), ("d", .dir [("z.rs", bad), ("y.rs", bad)]),
      ("a.rs", first)], []⟩
    let other : FileTree := ⟨.dir [("a.rs", first), ("b.rs", second),
      ("d", .dir [("y.rs", bad), ("z.rs", bad)])], []⟩
    let call (tree : FileTree) (path : PathText) := Loader.parse tree (.ofTree tree []) {} path
    let refused : InventoryError := .resolution ⟨"d/y.rs"⟩ ⟨⟨"d/y.rs"⟩, .file .notText⟩
    tree.root.Proper ∧ tree.Reordered other ∧ tree.list ⟨"."⟩ ≠ other.list ⟨"."⟩ ∧
      tree.eligibleFiles ⟨"."⟩ = other.eligibleFiles ⟨"."⟩ ∧
      (call tree ⟨"d"⟩).2 = .error refused ∧ (call other ⟨"d"⟩).2 = .error refused ∧
      (call tree ⟨"."⟩).1.structs.map StructDesc.name = ["S", "T"] ∧
      (call other ⟨"."⟩).1.structs.map StructDesc.name = ["S", "T"] := by
  intro bad first second tree other call refused
  have isName : ∀ name ∈ ["a.rs", "b.rs", "d", "y.rs", "z.rs"], PathText.IsName name := by
    intro name member
    exact ⟨by revert name; decide, by revert name; decide⟩
  have lower : FileNode.Proper (.dir [("z.rs", bad), ("y.rs", bad)]) :=
    .entry (isName "z.rs" (by simp)) (.file none) (by simp)
      (.entry (isName "y.rs" (by simp)) (.file none) (by simp) .empty)
  have proper : tree.root.Proper :=
    .entry (isName "b.rs" (by simp)) (.file _) (by simp)
      (.entry (isName "d" (by simp)) lower (by simp)
        (.entry (isName "a.rs" (by simp)) (.file _) (by simp) .empty))
  have below := lower.reordered_of_perm (List.Perm.swap ("y.rs", bad) ("z.rs", bad) [])
  have reordered : tree.Reordered other := by
    refine ⟨.dir (by decide) fun name node node' member member' => ?_, rfl⟩
    simp only [List.mem_cons, Prod.mk.injEq, List.not_mem_nil, or_false] at member member'
    rcases member with ⟨rfl, rfl⟩ | ⟨rfl, rfl⟩ | ⟨rfl, rfl⟩
    · obtain rfl : node' = second := by simpa using member'
      exact .file _
    · obtain rfl : node' = .dir [("y.rs", bad), ("z.rs", bad)] := by simpa using member'
      exact below
    · obtain rfl : node' = first := by simpa using member'
      exact .file _
  obtain ⟨files, _, parsed, _⟩ := listing_order_does_not_matter proper reordered
  have failed : (call tree ⟨"d"⟩).2 = .error refused := by decide +kernel
  have listed : (call tree ⟨"."⟩).1.structs.map StructDesc.name = ["S", "T"] := by decide +kernel
  refine ⟨proper, reordered, by decide +kernel, files _, failed, ?_, listed, ?_⟩
  · exact (congrArg Prod.snd (parsed [] {} ⟨"d"⟩)).symm.trans failed
  · rw [← listed]
    exact congrArg (fun call => call.1.structs.map StructDesc.name) (parsed [] {} ⟨"."⟩).symm

end FileTree

end StructInventory
