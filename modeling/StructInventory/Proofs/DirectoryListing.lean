import StructInventory.Proofs.EntryPath

/-!
The source files of a directory. They are the same, in the same order, whether they are listed by
the path that was given or by that of the directory that one of their own paths names.
-/

namespace StructInventory

/-! ### Sorting -/

section

variable {α β : Type} {before : α → α → Bool}

theorem insertBy_perm (item : α) (items : List α) :
    (insertBy before item items).Perm (item :: items) := by
  induction items with
  | nil => exact List.Perm.refl _
  | cons other rest ih =>
    unfold insertBy
    split
    · exact (ih.cons other).trans (List.Perm.swap item other rest)
    · exact List.Perm.refl _

theorem sortBy_perm (items : List α) : (sortBy before items).Perm items := by
  induction items with
  | nil => exact List.Perm.refl _
  | cons item rest ih => exact (insertBy_perm item _).trans (ih.cons item)

theorem insertBy_map {before' : β → β → Bool} (f : α → β) (item : α) (items : List α)
    (same : ∀ other ∈ items, before' (f other) (f item) = before other item) :
    insertBy before' (f item) (items.map f) = (insertBy before item items).map f := by
  induction items with
  | nil => rfl
  | cons other rest ih =>
    obtain ⟨first, others⟩ := List.forall_mem_cons.mp same
    rw [List.map_cons, insertBy, insertBy, first]
    split
    · rw [ih others, List.map_cons]
    · rfl

/-- Sorting follows a renaming that keeps the order. -/
theorem sortBy_map {before' : β → β → Bool} (f : α → β) (items : List α)
    (same : ∀ a ∈ items, ∀ b ∈ items, before' (f a) (f b) = before a b) :
    sortBy before' (items.map f) = (sortBy before items).map f := by
  induction items with
  | nil => rfl
  | cons item rest ih =>
    have later := ih fun a memberA b memberB =>
      same a (List.mem_cons_of_mem _ memberA) b (List.mem_cons_of_mem _ memberB)
    show insertBy before' (f item) (sortBy before' (rest.map f)) =
      (insertBy before item (sortBy before rest)).map f
    rw [later]
    refine insertBy_map f item _ fun other member => ?_
    exact same other (List.mem_cons_of_mem _ ((sortBy_perm rest).mem_iff.mp member)) item
      List.mem_cons_self

theorem insertBy_pairwise (antisymm : ∀ a b, before a b = true → before b a = false)
    (negTrans : ∀ a b c, before b a = false → before c b = false → before c a = false)
    (item : α) {sorted : List α} (inOrder : sorted.Pairwise fun a b => before b a = false) :
    (insertBy before item sorted).Pairwise fun a b => before b a = false := by
  induction sorted with
  | nil => exact List.pairwise_singleton _ _
  | cons other rest ih =>
    obtain ⟨first, others⟩ := List.pairwise_cons.mp inOrder
    unfold insertBy
    split
    next earlier =>
      refine List.pairwise_cons.mpr ⟨fun b member => ?_, ih others⟩
      rcases List.mem_cons.mp ((insertBy_perm item rest).mem_iff.mp member) with rfl | later
      · exact antisymm _ _ earlier
      · exact first b later
    next later =>
      rw [Bool.not_eq_true] at later
      refine List.pairwise_cons.mpr ⟨fun b member => ?_, inOrder⟩
      rcases List.mem_cons.mp member with rfl | member
      · exact later
      · exact negTrans _ _ _ later (first b member)

/-- No item of a sorted list precedes one that stands before it, if the order is one. -/
theorem sortBy_pairwise (antisymm : ∀ a b, before a b = true → before b a = false)
    (negTrans : ∀ a b c, before b a = false → before c b = false → before c a = false)
    (items : List α) : (sortBy before items).Pairwise fun a b => before b a = false := by
  induction items with
  | nil => exact List.Pairwise.nil
  | cons item rest ih => exact insertBy_pairwise antisymm negTrans item ih

theorem sortBy_pairwise_le (key : α → String) (items : List α) :
    (sortBy (fun a b => decide (key a < key b)) items).Pairwise fun a b => key a ≤ key b := by
  refine (sortBy_pairwise ?_ ?_ _).imp ?_
  · intro a b earlier
    simp only [decide_eq_true_eq, decide_eq_false_iff_not] at earlier ⊢
    exact String.lt_asymm earlier
  · intro a b c first second
    simp only [decide_eq_false_iff_not, String.not_lt] at first second ⊢
    exact String.le_trans first second
  · intro a b notBefore
    exact String.not_lt.mp (of_decide_eq_false notBefore)

end

/-! ### Where paths lead -/

namespace FileNode

/-- Every entry below has a name of one component. -/
def WellNamed (node : FileNode) : Prop :=
  ∀ place entries, node.find? place = some (.dir entries) →
    ∀ entry ∈ entries, PathText.IsName entry.1

theorem wellNamed_file (text : Option String) : WellNamed (file text) := by
  rintro (_ | _) entries found <;> cases found

theorem wellNamed_dir {entries : List (String × FileNode)}
    (within : ∀ entry ∈ entries, PathText.IsName entry.1 ∧ entry.2.WellNamed) :
    WellNamed (dir entries) := by
  intro place inner found
  cases place with
  | nil =>
    cases found
    exact fun entry member => (within entry member).1
  | cons name rest =>
    obtain ⟨node, held, below⟩ := Option.bind_eq_some_iff.mp found
    obtain ⟨front, back, rfl, _⟩ := List.lookup_eq_some_iff.mp held
    exact (within (name, node) (by simp)).2 rest inner below

end FileNode

namespace FileTree

variable {tree : FileTree} {place : List String} {entries : List (String × FileNode)}

theorem origin_eq {path : PathText} {piece : String} {rest : List String}
    (written : path.pieces = piece :: rest) (filled : piece = "" → rest ≠ []) :
    tree.origin path = if piece = "" then [] else tree.home := by
  have absolute := PathText.isAbsolute_iff written filled
  unfold origin
  by_cases root : piece = ""
  · rw [if_pos (absolute.mpr root), if_pos root]
  · rw [if_neg (mt absolute.mp root), if_neg root]

theorem locate_eq {path : PathText} {piece : String} {rest : List String}
    (written : path.pieces = piece :: rest) (filled : piece = "" → rest ≠ []) :
    tree.locate path =
      (piece :: rest).foldlM tree.step (if piece = "" then [] else tree.home) := by
  have some : path.text ≠ "" := by
    intro empty
    rw [PathText.pieces_eq, empty] at written
    simp only [String.toList_empty, List.splitOn_nil, List.map_singleton,
      List.cons.injEq] at written
    exact filled written.1.symm written.2.symm
  rw [locate, if_neg some, origin_eq written filled, written]

theorem node_eq_ok_iff {path : PathText} {node : FileNode} :
    tree.node path = .ok node ↔
      ∃ place, tree.locate path = .ok place ∧ tree.root.find? place = some node := by
  rw [FileTree.node]
  cases tree.locate path with
  | error error => simp [bind, Except.bind]
  | ok place => cases found : tree.root.find? place <;> simp [bind, Except.bind, found]

theorem text_ne_of_node {path : PathText} {node : FileNode} (found : tree.node path = .ok node) :
    path.text ≠ "" := by
  obtain ⟨place, located, _⟩ := node_eq_ok_iff.mp found
  intro empty
  simp [locate, empty] at located

/-- A piece that stands for no component leads nowhere else. -/
theorem step_idle {piece : String} (idle : PathText.component? piece = none)
    {place' : List String} (leads : tree.step place piece = .ok place') : place' = place := by
  have nothing : (piece = "" || piece = ".") = true := by
    unfold PathText.component? at idle
    split at idle
    next nothing => exact nothing
    next => split at idle <;> cases idle
  unfold step at leads
  split at leads
  · rw [if_pos nothing] at leads
    exact (Except.ok.inj leads).symm
  · cases leads
  · cases leads

theorem step_empty (dirAt : tree.root.find? place = some (.dir entries)) :
    tree.step place "" = .ok place := by
  simp [step, dirAt]

theorem foldlM_step_concat {start pieces : List String} {piece : String} :
    (pieces ++ [piece]).foldlM tree.step start =
      pieces.foldlM tree.step start >>= fun before => tree.step before piece := by
  rw [List.foldlM_append]
  congr 1
  funext before
  exact bind_pure _

theorem foldlM_step_dropIdle {start : List String} {pieces : List String}
    (leads : pieces.foldlM tree.step start = .ok place) :
    (PathText.dropIdle pieces).foldlM tree.step start = .ok place := by
  induction pieces using List.reverseRecOn with
  | nil => exact leads
  | append_singleton pieces piece ih =>
    rw [PathText.dropIdle_concat]
    split
    next idle =>
      rw [foldlM_step_concat] at leads
      cases first : pieces.foldlM tree.step start with
      | error error => simp [first, bind, Except.bind] at leads
      | ok before =>
        rw [first] at leads
        exact ih (by rw [first, step_idle (Option.isNone_iff_eq_none.mp idle) leads])
    next => exact leads

/-- What the path of a directory leads to, less a slash at its end. -/
theorem stem_leads {dir : PathText} {piece : String} {rest : List String}
    (stem : PathText.Stem dir piece rest) (located : tree.locate dir = .ok place) :
    (piece :: rest).foldlM tree.step (if piece = "" then [] else tree.home) = .ok place := by
  rcases stem.written with ⟨written, filled⟩ | written
  · rwa [locate_eq written filled] at located
  · rw [locate_eq written (by simp), ← List.cons_append, foldlM_step_concat] at located
    cases first : (piece :: rest).foldlM tree.step (if piece = "" then [] else tree.home) with
    | error error => simp [first, bind, Except.bind] at located
    | ok before =>
      rw [first] at located
      rw [step_idle rfl located]

theorem locate_join {dir : PathText} {piece : String} {rest : List String}
    (stem : PathText.Stem dir piece rest) (located : tree.locate dir = .ok place) {name : String}
    (named : PathText.IsName name) : tree.locate (dir.join ⟨name⟩) = tree.step place name := by
  rw [locate_eq (stem.join name named) (by simp), ← List.cons_append, foldlM_step_concat,
    stem_leads stem located]
  rfl

/-- The directory of an entry is the place that the entry was listed from. -/
theorem locate_parent {dir : PathText} {piece : String} {rest : List String}
    (stem : PathText.Stem dir piece rest) (located : tree.locate dir = .ok place)
    (dirAt : tree.root.find? place = some (.dir entries)) :
    tree.locate (PathText.Stem.parent piece rest) = .ok place := by
  obtain ⟨others, spelled, filled, kept⟩ := stem.parent_pieces
  have leads := stem_leads stem located
  rw [List.foldlM_cons] at leads
  rw [locate_eq spelled filled, List.foldlM_cons]
  cases first : tree.step (if piece = "" then [] else tree.home) piece with
  | error error => simp [first, bind, Except.bind] at leads
  | ok before =>
    rw [first] at leads
    have idle := foldlM_step_dropIdle leads
    -- The root alone is written with an empty piece behind it, which leads nowhere else.
    rcases kept with rfl | ⟨rfl, bare⟩
    · exact idle
    · rw [bare] at idle
      obtain rfl : before = place := Except.ok.inj idle
      show [""].foldlM tree.step before = .ok before
      rw [← List.nil_append [""], foldlM_step_concat]
      exact step_empty dirAt

/-! ### The source files of a directory -/

/-- Every entry of the tree has a name of one component. -/
def WellNamed (tree : FileTree) : Prop := tree.root.WellNamed

/-- What stands at a place is all that can be asked about an entry, however its path is written. -/
theorem node_join {dir : PathText} {piece : String} {rest : List String}
    (stem : PathText.Stem dir piece rest) (located : tree.locate dir = .ok place)
    (dirAt : tree.root.find? place = some (.dir entries)) {name : String}
    (named : PathText.IsName name) (member : name ∈ entries.map Prod.fst) :
    tree.node (dir.join ⟨name⟩) =
      match tree.root.find? (place ++ [name]) with
      | some node => .ok node
      | none => .error .notFound := by
  have listed : (entries.lookup name).isSome = true := by
    obtain ⟨entry, inside, rfl⟩ := List.mem_map.mp member
    rw [Option.isSome_iff_ne_none]
    intro missing
    simpa using List.lookup_eq_none_iff.mp missing entry inside
  have ordinary := named.ordinary
  simp only [isEntryName, Bool.and_eq_true, decide_eq_true_eq] at ordinary
  obtain ⟨⟨some, dot⟩, dots⟩ := ordinary
  rw [node, locate_join stem located named]
  simp only [step, dirAt, some, dot, dots, listed]
  rfl

/-- Whether a file stands at a place. -/
def isFileAt (tree : FileTree) (place : List String) : Bool :=
  match tree.root.find? place with
  | some (.file _) => true
  | _ => false

/-- The names of the source files among the entries at a place, in order. -/
def sourceNames (tree : FileTree) (place : List String) (entries : List (String × FileNode)) :
    List String :=
  sortBy (fun name other => decide (name < other)) <| (entries.map Prod.fst).filter fun name =>
    tree.isFileAt (place ++ [name]) && (PathText.mk name).isEligible

/-- What is listed has been found, and its path is not empty. -/
theorem exists_place {dir : PathText} {files : List PathText}
    (listed : tree.eligibleFiles dir = .ok files) :
    ∃ place entries, tree.locate dir = .ok place ∧
      tree.root.find? place = some (.dir entries) ∧ dir.text ≠ "" := by
  have nonempty : dir.text ≠ "" := by
    intro empty
    simp [eligibleFiles, list, node, locate, empty, bind, Except.bind] at listed
  cases located : tree.locate dir with
  | error error => simp [eligibleFiles, list, node, located, bind, Except.bind] at listed
  | ok place =>
    cases found : tree.root.find? place with
    | none => simp [eligibleFiles, list, node, located, found, bind, Except.bind] at listed
    | some found' =>
      cases found' with
      | file text => simp [eligibleFiles, list, node, located, found, bind, Except.bind] at listed
      | dir entries => exact ⟨place, entries, rfl, found, nonempty⟩

/-- The source files of a directory are those at its place, however its path is written. -/
theorem eligibleFiles_eq (wellNamed : tree.WellNamed) {dir : PathText} {piece : String}
    {rest : List String} (stem : PathText.Stem dir piece rest)
    (located : tree.locate dir = .ok place)
    (dirAt : tree.root.find? place = some (.dir entries)) :
    tree.eligibleFiles dir =
      .ok ((tree.sourceNames place entries).map fun name => dir.join ⟨name⟩) := by
  have named : ∀ name ∈ entries.map Prod.fst, PathText.IsName name := by
    intro name member
    obtain ⟨entry, inside, rfl⟩ := List.mem_map.mp member
    exact wellNamed place entries dirAt entry inside
  have listed : tree.list dir =
      .ok ((entries.map Prod.fst).map fun name => dir.join ⟨name⟩) := by
    simp [list, node, located, dirAt, bind, Except.bind, Function.comp_def]
  -- Whether an entry is chosen can be told from the place and its name.
  have chosen : ∀ name ∈ entries.map Prod.fst,
      (tree.isFile (dir.join ⟨name⟩) && (dir.join ⟨name⟩).isEligible) =
        (tree.isFileAt (place ++ [name]) && (PathText.mk name).isEligible) := by
    intro name member
    rw [stem.isEligible_join (named name member), isFile,
      node_join stem located dirAt (named name member) member, isFileAt]
    cases tree.root.find? (place ++ [name]) with
    | none => rfl
    | some found => cases found <;> rfl
  rw [eligibleFiles, listed]
  simp only [bind, Except.bind, pure, Except.pure, Except.ok.injEq]
  rw [List.filter_map, List.filter_congr (by simpa using chosen), sourceNames]
  refine sortBy_map _ _ fun a memberA b memberB => ?_
  exact stem.before_join (named a (List.mem_of_mem_filter memberA))
    (named b (List.mem_of_mem_filter memberB))

theorem named_of_mem_sourceNames (wellNamed : tree.WellNamed)
    (dirAt : tree.root.find? place = some (.dir entries)) :
    ∀ name ∈ tree.sourceNames place entries,
      PathText.IsName name ∧ name ∈ entries.map Prod.fst := by
  intro name chosen
  have inside := List.mem_of_mem_filter ((sortBy_perm _).mem_iff.mp chosen)
  obtain ⟨entry, held, rfl⟩ := List.mem_map.mp inside
  exact ⟨wellNamed place entries dirAt entry held, inside⟩

theorem exists_name_of_mem_eligibleFiles (wellNamed : tree.WellNamed) {dir : PathText}
    {files : List PathText} (listed : tree.eligibleFiles dir = .ok files) :
    ∀ file ∈ files, ∃ name, PathText.IsName name ∧ file = dir.join ⟨name⟩ := by
  obtain ⟨place, entries, located, dirAt, nonempty⟩ := exists_place listed
  obtain ⟨piece, rest, stem⟩ := PathText.exists_stem nonempty
  rw [eligibleFiles_eq wellNamed stem located dirAt] at listed
  cases listed
  intro file member
  obtain ⟨name, chosen, rfl⟩ := List.mem_map.mp member
  exact ⟨name, (named_of_mem_sourceNames wellNamed dirAt name chosen).1, rfl⟩

/-- How the source files of `dir` are listed from the directory that their paths name. -/
structure Relisted (tree : FileTree) (dir parent : PathText) (names : List String) : Prop where
  listed : tree.eligibleFiles dir = .ok (names.map fun name => dir.join ⟨name⟩)
  again : tree.eligibleFiles parent = .ok (names.map fun name => parent.join ⟨name⟩)
  directory : ∀ name ∈ names, (dir.join ⟨name⟩).directory = parent
  node : ∀ name ∈ names, tree.node (parent.join ⟨name⟩) = tree.node (dir.join ⟨name⟩)
  same : ∀ name ∈ names, (parent.join ⟨name⟩).components = (dir.join ⟨name⟩).components
  fileName : ∀ name ∈ names, (dir.join ⟨name⟩).fileName? = some name
  inOrder : names.Pairwise fun name other => name ≤ other

theorem Relisted.files_eq {dir parent : PathText} {names : List String}
    (relisted : Relisted tree dir parent names) {files : List PathText}
    (listed : tree.eligibleFiles dir = .ok files) :
    names.map (fun name => dir.join ⟨name⟩) = files :=
  Except.ok.inj (relisted.listed.symm.trans listed)

/-- The directory that the paths of source files name has the same source files, in the same
order. -/
theorem exists_relisted (wellNamed : tree.WellNamed) {dir : PathText} {files : List PathText}
    (listed : tree.eligibleFiles dir = .ok files) : ∃ parent names, Relisted tree dir parent names := by
  obtain ⟨place, entries, located, dirAt, nonempty⟩ := exists_place listed
  obtain ⟨piece, rest, stem⟩ := PathText.exists_stem nonempty
  -- Both paths lead to one place, and what is listed depends on the place only.
  have located' := locate_parent stem located dirAt
  have nonempty' : (PathText.Stem.parent piece rest).text ≠ "" := by
    intro empty
    simp [locate, empty] at located'
  obtain ⟨piece', rest', stem'⟩ := PathText.exists_stem nonempty'
  have named := named_of_mem_sourceNames wellNamed dirAt
  refine ⟨PathText.Stem.parent piece rest, tree.sourceNames place entries,
    eligibleFiles_eq wellNamed stem located dirAt, eligibleFiles_eq wellNamed stem' located' dirAt,
    ?_, ?_, ?_, ?_, ?_⟩
  · exact fun name chosen => stem.directory_join (named name chosen).1
  · intro name chosen
    obtain ⟨isName, inside⟩ := named name chosen
    rw [node_join stem' located' dirAt isName inside, node_join stem located dirAt isName inside]
  · intro name chosen
    obtain ⟨isName, _⟩ := named name chosen
    rw [stem'.components_join isName, stem.components_join isName, stem.parent_components]
  · exact fun name chosen => stem.fileName_join (named name chosen).1
  · exact sortBy_pairwise_le id _

/-- Whatever the path of a directory is written like, the path of an entry names that directory
again; and from the directory that the path of one of its source files names, the same source files
are listed in the same order. -/
theorem own_directory_lists_same_files :
    (∀ (dir : PathText) (name : String), dir.text ≠ "" → PathText.IsName name →
      (dir.join ⟨name⟩).directory.same dir = true) ∧
    ∀ tree : FileTree, tree.WellNamed → ∀ (dir : PathText) (files : List PathText),
      tree.eligibleFiles dir = .ok files → ∀ file ∈ files, ∃ again,
        tree.eligibleFiles file.directory = .ok again ∧
          again.map PathText.components = files.map PathText.components := by
  refine ⟨fun dir name some named => ?_, fun tree wellNamed dir files listed file member => ?_⟩
  · obtain ⟨piece, rest, stem⟩ := PathText.exists_stem some
    rw [stem.directory_join named]
    exact decide_eq_true stem.parent_components
  · obtain ⟨parent, names, relisted⟩ := exists_relisted wellNamed listed
    obtain rfl := relisted.files_eq listed
    obtain ⟨name, chosen, rfl⟩ := List.mem_map.mp member
    refine ⟨_, by rw [relisted.directory name chosen, relisted.again], ?_⟩
    rw [List.map_map, List.map_map]
    exact List.map_congr_left relisted.same

/-- A directory whose path has a dot of its own, doubled and trailing slashes and a detour. -/
theorem own_directory_lists_same_files_detour :
    let tree : FileTree := ⟨.dir [("p", .dir [
      ("q", .dir []), ("b.rs", .file none), ("a.rs", .file (some ""))])], []⟩
    let dir : PathText := ⟨".//p/q/.././"⟩
    let files : List PathText := [⟨".//p/q/.././a.rs"⟩, ⟨".//p/q/.././b.rs"⟩]
    let own : PathText := ⟨".//p/q/.."⟩
    tree.WellNamed ∧ tree.eligibleFiles dir = .ok files ∧
      files.map PathText.directory = [own, own] ∧ own.same dir = true ∧
      ∃ again, tree.eligibleFiles own = .ok again ∧
        again.map PathText.components = files.map PathText.components := by
  intro tree dir files own
  have wellNamed : tree.WellNamed := by
    refine FileNode.wellNamed_dir ?_
    simp only [List.forall_mem_singleton]
    refine ⟨⟨by decide, by decide⟩, FileNode.wellNamed_dir ?_⟩
    simp only [List.forall_mem_cons, FileNode.wellNamed_file, and_true]
    exact ⟨⟨⟨by decide, by decide⟩, FileNode.wellNamed_dir (by simp)⟩, ⟨by decide, by decide⟩,
      ⟨by decide, by decide⟩, by simp⟩
  have listed : tree.eligibleFiles dir = .ok files := by decide +kernel
  have written : files.map PathText.directory = [own, own] := by decide +kernel
  have last : (dir.join ⟨"b.rs"⟩).directory = own := by decide +kernel
  obtain ⟨joined, relisted⟩ := own_directory_lists_same_files
  have same := joined dir "b.rs" (by decide) ⟨by decide, by decide⟩
  have again := relisted tree wellNamed dir files listed (dir.join ⟨"b.rs"⟩) (by decide +kernel)
  rw [last] at same again
  exact ⟨wellNamed, listed, written, same, again⟩

end FileTree

end StructInventory
