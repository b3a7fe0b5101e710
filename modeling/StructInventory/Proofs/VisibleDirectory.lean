import StructInventory.Proofs.ByteOrder
import StructInventory.Proofs.WalkedStruct

/-!
The directories of a walk. Each is known by the names that lead to it from the base. A walk over all
directories covers exactly those whose names it does not leave out, each once; every one comes
before those below it, and side by side they are in the order of the bytes of their names.
-/

namespace StructInventory

/-- Names that come before others: by the bytes of the first that differ, and where none differ the
fewer, so that a directory comes before those below it. -/
def PathText.Before : List String → List String → Prop :=
  List.Lex fun name other => Text.bytes name < Text.bytes other

namespace FileNode

/-! ### Nodes -/

/-- The entries of every directory have names of one component, no two of them the same. -/
inductive Proper : FileNode → Prop where
  | file (text : Option String) : Proper (.file text)
  | dir {entries : List (String × FileNode)} (names : ∀ entry ∈ entries, PathText.IsName entry.1)
      (apart : (entries.map Prod.fst).Nodup) (within : ∀ entry ∈ entries, Proper entry.2) :
      Proper (.dir entries)

section

variable {node : FileNode} {entries : List (String × FileNode)} {name : String}

theorem lookup_eq_some_iff_mem (apart : (entries.map Prod.fst).Nodup) :
    entries.lookup name = some node ↔ (name, node) ∈ entries := by
  rw [List.lookup_eq_some_iff]
  constructor
  · rintro ⟨front, back, rfl, _⟩
    simp
  · intro member
    obtain ⟨front, back, rfl⟩ := List.append_of_mem member
    refine ⟨front, back, rfl, fun entry earlier => bne_iff_ne.mpr ?_⟩
    rintro rfl
    rw [List.map_append, List.nodup_append] at apart
    exact apart.2.2 _ (List.mem_map_of_mem earlier) _ (by simp) rfl

theorem find?_dir_cons (entries : List (String × FileNode)) (name : String) (rest : List String) :
    (FileNode.dir entries).find? (name :: rest) = (entries.lookup name).bind (find? · rest) := rfl

theorem isDir_of_find? {names : List String} (found : node.find? names = some (.dir entries)) :
    node.isDir = true := by
  cases node with
  | dir => rfl
  | file text => cases names <;> cases found

theorem find?_concat (node : FileNode) (names : List String) (name : String) :
    node.find? (names ++ [name]) = (node.find? names).bind (find? · [name]) := by
  induction names generalizing node with
  | nil => rfl
  | cons first rest ih =>
    cases node with
    | file text => rfl
    | dir entries =>
      rw [List.cons_append, find?_dir_cons, find?_dir_cons, Option.bind_assoc]
      congr 1
      funext inner
      exact ih inner

theorem Proper.find? {names : List String} {inner : FileNode} (proper : node.Proper)
    (found : node.find? names = some inner) : inner.Proper := by
  refine of_find? (fun entries above => ?_) found proper
  cases above with
  | dir _ _ within => exact within

theorem Proper.empty : Proper (.dir []) := .dir (by simp) (by simp) (by simp)

theorem Proper.entry (isName : PathText.IsName name) (inner : node.Proper)
    (fresh : name ∉ entries.map Prod.fst) (others : Proper (.dir entries)) :
    Proper (.dir ((name, node) :: entries)) := by
  cases others with
  | dir names apart within =>
    exact .dir (List.forall_mem_cons.mpr ⟨isName, names⟩) (List.nodup_cons.mpr ⟨fresh, apart⟩)
      (List.forall_mem_cons.mpr ⟨inner, within⟩)

/-- Entries of different names are kept in the order of these. -/
theorem keptEntries_pairwise (apart : (entries.map Prod.fst).Nodup) :
    (keptEntries entries).Pairwise fun entry later => entry.1 < later.1 := by
  have inOrder : (keptEntries entries).Pairwise fun a b => a.1 ≤ b.1 :=
    sortBy_pairwise_le Prod.fst _
  have distinct : (keptEntries entries).Pairwise fun a b => a.1 ≠ b.1 := by
    have kept : (entries.filter fun entry => !isSkipped entry.1 entry.2).Pairwise
        fun a b => a.1 ≠ b.1 := (List.pairwise_map.mp apart).filter _
    exact (sortBy_perm _).symm.pairwise kept fun differ same => differ same.symm
  exact (inOrder.and distinct).imp fun ⟨before, differ⟩ => lt_of_le_of_ne before differ

end

/-- What the directories of a walk from a node are, as the names that lead to them. -/
structure PreOrder (node : FileNode) (places : List (List String)) : Prop where
  paths : ∀ path, node.visibleDirs path = places.map path.descend
  members : ∀ names, names ∈ places ↔ (∀ name ∈ names, PathText.IsShown name) ∧
    ∃ entries, node.find? names = some (.dir entries)
  inOrder : places.Pairwise PathText.Before

theorem preOrder_file (text : Option String) : PreOrder (.file text) [] where
  paths := fun path => by simp [visibleDirs]
  members := by
    intro names
    have none : ¬∃ entries, (FileNode.file text).find? names = some (.dir entries) := by
      rintro ⟨entries, found⟩
      cases isDir_of_find? found
    simp [none]
  inOrder := .nil

section

variable {entries : List (String × FileNode)} {below : String × FileNode → List (List String)}

/-- The names that lead to the directories of a walk from a directory, by those from its entries. -/
def places (entries : List (String × FileNode)) (below : String × FileNode → List (List String)) :
    List (List String) :=
  [] :: (keptEntries entries).flatMap fun entry => (below entry).map (List.cons entry.1)

theorem cons_mem_places {name : String} {rest : List String} :
    name :: rest ∈ places entries below ↔
      ∃ node, (name, node) ∈ keptEntries entries ∧ rest ∈ below (name, node) := by
  simp [places]

/-- One more level: a directory, and what is known of each of its entries. -/
theorem preOrder_dir (names : ∀ entry ∈ entries, PathText.IsName entry.1)
    (apart : (entries.map Prod.fst).Nodup)
    (within : ∀ entry ∈ entries, entry.2.PreOrder (below entry)) :
    PreOrder (.dir entries) (places entries below) where
  paths := by
    intro path
    rw [visibleDirs_dir, places, List.map_cons, List.map_flatMap]
    congr 1
    refine List.flatMap_congr fun entry kept => ?_
    rw [(within entry (mem_keptEntries.mp kept).1).paths, List.map_map]
    rfl
  members := by
    rintro (_ | ⟨name, rest⟩)
    · simp [places, find?]
    · rw [cons_mem_places, List.forall_mem_cons]
      -- Names lead through directories only, and of these the name alone tells which are left out.
      constructor
      · rintro ⟨node, kept, inside⟩
        obtain ⟨held, shown⟩ := mem_keptEntries.mp kept
        obtain ⟨others, inner, found⟩ := ((within _ held).members rest).mp inside
        obtain ⟨first, target⟩ := (isSkipped_eq_false_iff (isDir_of_find? found)).mp shown
        refine ⟨⟨⟨names _ held, first, target⟩, others⟩, inner, ?_⟩
        rw [find?_dir_cons, (lookup_eq_some_iff_mem apart).mpr held]
        exact found
      · rintro ⟨⟨first, others⟩, inner, found⟩
        obtain ⟨node, held, deeper⟩ := Option.bind_eq_some_iff.mp found
        have member := (lookup_eq_some_iff_mem apart).mp held
        have shown := (isSkipped_eq_false_iff (isDir_of_find? deeper)).mpr
          ⟨first.first, first.target⟩
        exact ⟨node, mem_keptEntries.mpr ⟨member, shown⟩,
          ((within _ member).members rest).mpr ⟨others, inner, deeper⟩⟩
  inOrder := by
    refine List.pairwise_cons.mpr ⟨?_, List.pairwise_flatMap.mpr ⟨?_, ?_⟩⟩
    · intro names member
      obtain ⟨entry, _, inside⟩ := List.mem_flatMap.mp member
      obtain ⟨rest, _, rfl⟩ := List.mem_map.mp inside
      exact .nil
    · intro entry kept
      have deeper := (within entry (mem_keptEntries.mp kept).1).inOrder
      exact List.pairwise_map.mpr (deeper.imp .cons)
    · -- What different entries contribute is told apart by the first name.
      refine (keptEntries_pairwise apart).imp fun earlier names member names' member' => ?_
      obtain ⟨rest, _, rfl⟩ := List.mem_map.mp member
      obtain ⟨rest', _, rfl⟩ := List.mem_map.mp member'
      exact .rel (Text.bytes_lt earlier)

end

theorem Proper.exists_preOrder {node : FileNode} (proper : node.Proper) :
    ∃ places, node.PreOrder places := by
  induction proper with
  | file text => exact ⟨[], preOrder_file text⟩
  | dir names apart _ ih =>
    choose! below within using ih
    exact ⟨_, preOrder_dir names apart within⟩

end FileNode

/-! ### Trees -/

namespace FileTree

variable {tree : FileTree} {dir : PathText} {name : String}

theorem step_name_eq_ok_iff {place last : List String} (named : PathText.IsName name) :
    tree.step place name = .ok last ↔ ∃ entries, tree.root.find? place = some (.dir entries) ∧
      (entries.lookup name).isSome = true ∧ last = place ++ [name] := by
  have ordinary := named.ordinary
  simp only [isEntryName, Bool.and_eq_true, decide_eq_true_eq] at ordinary
  obtain ⟨⟨some, dot⟩, dots⟩ := ordinary
  unfold step
  split
  next entries dirAt =>
    rw [if_neg (by simp [some, dot]), if_neg dots]
    constructor
    · intro leads
      split at leads
      next held =>
        cases leads
        exact ⟨entries, dirAt, held, rfl⟩
      next => cases leads
    · rintro ⟨others, same, held, rfl⟩
      cases dirAt.symm.trans same
      rw [if_pos held]
  next fileAt => simp [fileAt]
  next nothing => simp [nothing]

/-- A path with one more name leads a step further than the path. -/
theorem locate_join_eq_ok_iff {last : List String} (some : dir.text ≠ "")
    (named : PathText.IsName name) : tree.locate (dir.join ⟨name⟩) = .ok last ↔
      ∃ place, tree.locate dir = .ok place ∧ tree.step place name = .ok last := by
  obtain ⟨piece, rest, stem⟩ := PathText.exists_stem some
  constructor
  · intro located
    rw [locate_eq (stem.join name named) (by simp), ← List.cons_append,
      foldlM_step_concat] at located
    cases first : (piece :: rest).foldlM tree.step (if piece = "" then [] else tree.home) with
    | error error => simp [first, bind, Except.bind] at located
    | ok place =>
      rw [first] at located
      obtain ⟨entries, dirAt, _⟩ := (step_name_eq_ok_iff named).mp located
      refine ⟨place, ?_, located⟩
      rcases stem.written with ⟨written, filled⟩ | written
      · rwa [locate_eq written filled]
      · -- A slash at the end asks for a directory, as a name behind it does.
        rw [locate_eq written (by simp), ← List.cons_append, foldlM_step_concat, first]
        exact step_empty dirAt
  · rintro ⟨place, located, leads⟩
    rwa [locate_join stem located named]

theorem node_join_eq_ok_iff {inner : FileNode} (some : dir.text ≠ "")
    (named : PathText.IsName name) : tree.node (dir.join ⟨name⟩) = .ok inner ↔
      ∃ node, tree.node dir = .ok node ∧ node.find? [name] = .some inner := by
  simp only [node_eq_ok_iff, locate_join_eq_ok_iff some named]
  constructor
  · rintro ⟨last, ⟨place, located, leads⟩, found⟩
    obtain ⟨entries, dirAt, _, rfl⟩ := (step_name_eq_ok_iff named).mp leads
    rw [FileNode.find?_concat, dirAt] at found
    exact ⟨_, ⟨place, located, dirAt⟩, found⟩
  · rintro ⟨node, ⟨place, located, nodeAt⟩, found⟩
    refine ⟨place ++ [name], ⟨place, located, ?_⟩, ?_⟩
    · cases node with
      | file text => cases found
      | dir entries =>
        obtain ⟨below, held, _⟩ := Option.bind_eq_some_iff.mp found
        exact (step_name_eq_ok_iff named).mpr ⟨entries, nodeAt, by simp [held], rfl⟩
    · rw [FileNode.find?_concat, nodeAt]
      exact found

/-- What paths of names below a base lead to is what the names lead to from the node at the base. -/
theorem node_descend_eq_ok_iff {base : PathText} {node inner : FileNode} (some : base.text ≠ "")
    (found : tree.node base = .ok node) {names : List String}
    (named : ∀ name ∈ names, PathText.IsName name) :
    tree.node (base.descend names) = .ok inner ↔ node.find? names = .some inner := by
  induction names using List.reverseRecOn generalizing inner with
  | nil =>
    have nowhere : base.descend [] = base := rfl
    rw [nowhere, found, Except.ok.injEq, FileNode.find?, Option.some.injEq]
  | append_singleton names name ih =>
    have above : ∀ name ∈ names, PathText.IsName name := fun other member =>
      named other (List.mem_append_left _ member)
    rw [PathText.descend_concat, node_join_eq_ok_iff (PathText.descend_text_ne some above)
      (named name (by simp)), FileNode.find?_concat, Option.bind_eq_some_iff]
    simp only [ih above]

theorem isDir_iff {path : PathText} :
    tree.isDir path = true ↔ ∃ entries, tree.node path = .ok (.dir entries) := by
  unfold FileTree.isDir
  split
  next entries found => simp [found]
  next other =>
    simp only [Bool.false_eq_true, false_iff]
    rintro ⟨entries, found⟩
    exact other entries found

/-- The directories at and below a base that a walk does not leave out, by the names that lead to
them, each once and in order. -/
structure Covers (tree : FileTree) (base : PathText) (places : List (List String))
    (dirs : List PathText) : Prop where
  paths : dirs = places.map base.descend
  members : ∀ names, names ∈ places ↔
    (∀ name ∈ names, PathText.IsShown name) ∧ tree.isDir (base.descend names) = true
  inOrder : places.Pairwise PathText.Before
  once : dirs.Pairwise fun dir later => dir.same later = false

theorem before_ne {names later : List String} (before : PathText.Before names later) :
    names ≠ later := by
  induction before with
  | nil => simp
  | cons _ ih => simpa using ih
  | rel less =>
    intro same
    rw [(List.cons.inj same).1] at less
    exact List.lt_irrefl _ less

theorem covers_of_preOrder {base : PathText} {node : FileNode} {places : List (List String)}
    (found : tree.node base = .ok node) (preOrder : node.PreOrder places) :
    tree.Covers base places (node.visibleDirs base) where
  paths := preOrder.paths base
  members := by
    intro names
    rw [preOrder.members names]
    refine and_congr_right fun shown => ?_
    have named : ∀ name ∈ names, PathText.IsName name := fun name member =>
      (shown name member).toIsName
    simp only [isDir_iff, node_descend_eq_ok_iff (text_ne_of_node found) found named]
  inOrder := preOrder.inOrder
  once := by
    rw [preOrder.paths base, List.pairwise_map]
    refine preOrder.inOrder.imp_of_mem fun {names later} member member' before => ?_
    have named : ∀ name ∈ names, PathText.IsName name := fun name inside =>
      (((preOrder.members names).mp member).1 name inside).toIsName
    have named' : ∀ name ∈ later, PathText.IsName name := fun name inside =>
      (((preOrder.members later).mp member').1 name inside).toIsName
    rw [PathText.same, decide_eq_false_iff_not, PathText.descend_components base named,
      PathText.descend_components base named', List.append_cancel_left_eq]
    intro same
    exact before_ne before (List.map_injective_iff.mpr (fun _ _ => Component.name.inj) same)

end FileTree

/-! ### Walks -/

namespace Walker

/-- A walk whose base is not there loads nothing. Any other loads, in this order, with `recursive`
the directories that `Covers` describes, and else the base alone, or nothing if that is a file. -/
theorem walks_visible_directories (walker : Walker) {tree : FileTree} (proper : tree.root.Proper) :
    (∃ error, tree.node walker.baseDir = .error error ∧
      walker.load tree = .error (.walk walker.baseDir walker.baseDir error)) ∨
    ∃ dirs, walker.directories tree = .ok dirs ∧
      walker.load tree = loadDirs tree (.ofTree tree walker.features) {} dirs ∧
      (walker.recursive = true → ∃ places, tree.Covers walker.baseDir places dirs) ∧
      (walker.recursive = false →
        dirs = if tree.isDir walker.baseDir then [walker.baseDir] else []) := by
  unfold load directories
  cases found : tree.node walker.baseDir with
  | error error => exact .inl ⟨error, rfl, rfl⟩
  | ok node =>
    refine .inr ⟨_, rfl, rfl, ?_, ?_⟩
    · intro recursive
      obtain ⟨place, _, nodeAt⟩ := FileTree.node_eq_ok_iff.mp found
      obtain ⟨places, preOrder⟩ := (proper.find? nodeAt).exists_preOrder
      rw [if_pos recursive]
      exact ⟨places, FileTree.covers_of_preOrder found preOrder⟩
    · intro single
      rw [if_neg (by simp [single]), FileTree.isDir, found]
      cases node with
      | file text => simp [FileNode.visibleDirs]
      | dir entries => simp [FileNode.visibleDirs_dir]

/-- A walk that leaves out directories on two levels, from a base whose own name does not count. -/
theorem walks_visible_directories_nested :
    let tree : FileTree := ⟨.dir [("target", .dir [
      ("é", .dir []),
      ("z", .dir [("_d", .dir [("e", .dir [])]), ("target", .file none), ("d", .dir [])]),
      (".git", .dir []),
      ("target", .dir [("e", .dir [])])])], []⟩
    let walker : Walker := ⟨⟨"target/"⟩, true, .everything, false, []⟩
    let dirs : List PathText := [⟨"target/"⟩, ⟨"target/z"⟩, ⟨"target/z/d"⟩, ⟨"target/é"⟩]
    tree.root.Proper ∧ walker.directories tree = .ok dirs ∧
      ∃ places, tree.Covers walker.baseDir places dirs := by
  intro tree walker dirs
  have isName : ∀ name ∈ ["target", "é", "z", "_d", "e", "d", ".git"], PathText.IsName name := by
    intro name member
    exact ⟨by revert name; decide, by revert name; decide⟩
  have single {name : String} (member : name ∈ ["target", "é", "z", "_d", "e", "d", ".git"])
      {node : FileNode} (inner : node.Proper) : FileNode.Proper (.dir [(name, node)]) :=
    .entry (isName name member) inner (by simp) .empty
  have z : FileNode.Proper
      (.dir [("_d", .dir [("e", .dir [])]), ("target", .file none), ("d", .dir [])]) :=
    .entry (isName "_d" (by simp)) (single (by simp) .empty) (by simp)
      (.entry (isName "target" (by simp)) (.file none) (by simp) (single (by simp) .empty))
  have proper : tree.root.Proper :=
    single (by simp) (.entry (isName "é" (by simp)) .empty (by simp)
      (.entry (isName "z" (by simp)) z (by simp) (.entry (isName ".git" (by simp)) .empty (by simp)
        (single (by simp) (single (by simp) .empty)))))
  have listed : walker.directories tree = .ok dirs := by decide +kernel
  refine ⟨proper, listed, ?_⟩
  rcases walks_visible_directories walker proper with ⟨error, missing, _⟩ | ⟨_, same, _, covers, _⟩
  · simp [directories, missing] at listed
  · cases listed.symm.trans same
    exact covers rfl

end Walker

end StructInventory
