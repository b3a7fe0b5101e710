import StructInventory.Proofs.ListingOrder

/-!
How often the provider is asked when a directory is loaded first. Its answer brings in all files
that are built, and beside them marks only the file that was asked about as seen. So the first file
is asked about, and behind it just those that are not built, wherever these stand among the others.
-/

namespace StructInventory

/-! ### Files that are built -/

namespace FileTree

variable {tree : FileTree} {features : List String}

/-- Whether the conditions at the head of a file hold, so that it is a member of its package. -/
def isBuilt (tree : FileTree) (features : List String) (file : PathText) : Bool :=
  match tree.parseFile file with
  | .ok parsed => Condition.enabled features parsed.source.conditions
  | .error _ => false

theorem isBuilt_eq {file : PathText} {parsed : ParsedFile}
    (read : tree.parseFile file = .ok parsed) :
    tree.isBuilt features file = Condition.enabled features parsed.source.conditions := by
  rw [isBuilt, read]

theorem isBuilt_congr {file file' : PathText} (same : tree.node file = tree.node file')
    (good : tree.isBad file = false) :
    tree.isBuilt features file = tree.isBuilt features file' := by
  obtain ⟨parsed, read⟩ := parseFile_of_not_isBad good
  obtain ⟨parsed', read', source⟩ := parseFile_of_node same read
  rw [isBuilt_eq read, isBuilt_eq read', source]

/-- Of files that can all be read, those are left that are built. -/
theorem paths_of_mapM (features : List String) {paths : List PathText} {files : List ParsedFile}
    (read : paths.mapM tree.parseFile = .ok files) :
    (files.filter fun file => Condition.enabled features file.source.conditions).map
      ParsedFile.path = paths.filter (tree.isBuilt features) := by
  induction paths generalizing files with
  | nil =>
    cases read
    rfl
  | cons path rest ih =>
    obtain ⟨file, others, first, later, rfl⟩ := exists_of_mapM_cons read
    rw [List.filter_cons, List.filter_cons, isBuilt_eq first, ← ih later]
    split
    · rw [List.map_cons, parseFile_path first]
    · rfl

/-- The source files of a directory have different paths. -/
theorem eligibleFiles_nodup (proper : tree.root.Proper) {dir : PathText} {files : List PathText}
    (listed : tree.eligibleFiles dir = .ok files) : (files.map PathText.components).Nodup := by
  obtain ⟨place, entries, located, dirAt, nonempty⟩ := exists_place listed
  obtain ⟨piece, rest, stem⟩ := PathText.exists_stem nonempty
  rw [eligibleFiles_eq proper.wellNamed stem located dirAt, Except.ok.injEq] at listed
  subst listed
  have named := named_of_mem_sourceNames proper.wellNamed dirAt
  have distinct : (tree.sourceNames place entries).Nodup := by
    cases proper.find? dirAt with
    | dir _ apart _ => exact (sortBy_perm _).nodup_iff.mpr (apart.filter _)
  rw [List.map_map]
  refine distinct.map_on fun name chosen name' chosen' same => ?_
  simpa [stem.components_join (named name chosen).1,
    stem.components_join (named name' chosen').1] using same

/-- They are listed by name. -/
theorem exists_names_of_eligibleFiles (proper : tree.root.Proper) {dir : PathText}
    {files : List PathText} (listed : tree.eligibleFiles dir = .ok files) :
    ∃ names : List String,
      files.map PathText.fileName? = names.map some ∧ names.Pairwise (· < ·) := by
  obtain ⟨parent, names, relisted⟩ := exists_relisted proper.wellNamed listed
  have apart := eligibleFiles_nodup proper listed
  obtain rfl := relisted.files_eq listed
  refine ⟨names, ?_, ?_⟩
  · rw [List.map_map]
    exact List.map_congr_left relisted.fileName
  · have distinct : names.Nodup := .of_map _ (.of_map _ apart)
    exact (relisted.inOrder.and distinct).imp fun ⟨le, ne⟩ => lt_of_le_of_ne le ne

/-- What the source files of a directory are resolved to if all of them can be read. -/
theorem exists_built (wellNamed : tree.WellNamed) (features : List String) {dir : PathText}
    {files : List PathText} (listed : tree.eligibleFiles dir = .ok files)
    (good : ∀ file ∈ files, tree.isBad file = false) :
    ∃ (parent : PathText) (built : List ParsedFile),
      built.map (fun file => file.path.components) =
        (files.filter (tree.isBuilt features)).map PathText.components ∧
      ∀ file ∈ files, tree.resolveFile features file =
        .ok ⟨if built.isEmpty then [] else [Package.ofFiles parent built features], built⟩ := by
  obtain ⟨parent, names, relisted⟩ := exists_relisted wellNamed listed
  obtain rfl := relisted.files_eq listed
  -- The provider reads the files by the paths it lists itself, which lead to the same nodes.
  have again : ∀ file ∈ names.map fun name => parent.join ⟨name⟩, tree.isBad file = false := by
    intro file listed
    obtain ⟨name, chosen, rfl⟩ := List.mem_map.mp listed
    rw [isBad_congr (relisted.node name chosen)]
    exact good _ (List.mem_map_of_mem chosen)
  obtain ⟨parsed, read⟩ := mapM_parseFile_of_good again
  refine ⟨parent, parsed.filter fun file => Condition.enabled features file.source.conditions,
    ?_, ?_⟩
  · have kept : (names.filter fun name => tree.isBuilt features (parent.join ⟨name⟩)) =
        names.filter fun name => tree.isBuilt features (dir.join ⟨name⟩) := by
      refine List.filter_congr fun name chosen => ?_
      exact isBuilt_congr (relisted.node name chosen) (again _ (List.mem_map_of_mem chosen))
    calc (parsed.filter fun file => Condition.enabled features file.source.conditions).map
          (fun file => file.path.components)
        = ((names.map fun name => parent.join ⟨name⟩).filter (tree.isBuilt features)).map
            PathText.components := by rw [← paths_of_mapM features read, List.map_map]; rfl
      _ = (names.filter fun name => tree.isBuilt features (parent.join ⟨name⟩)).map
            fun name => (parent.join ⟨name⟩).components := by
          rw [List.filter_map, List.map_map]; rfl
      _ = (names.filter fun name => tree.isBuilt features (dir.join ⟨name⟩)).map
            fun name => (dir.join ⟨name⟩).components := by
          rw [kept]
          exact List.map_congr_left fun name chosen =>
            relisted.same name (List.mem_of_mem_filter chosen)
      _ = ((names.map fun name => dir.join ⟨name⟩).filter (tree.isBuilt features)).map
            PathText.components := by rw [List.filter_map, List.map_map]; rfl
  · intro file listed
    obtain ⟨other, chosen, rfl⟩ := List.mem_map.mp listed
    rw [resolveFile_eq (relisted.directory other chosen) relisted.again, parseFiles, read]
    rfl

end FileTree

/-! ### Questions in turn -/

namespace Loader

variable {provider : Provider} {loader : Loader}

theorem hasSeen_see_iff {file other : PathText} :
    (loader.see file).hasSeen other = true ↔
      loader.hasSeen other = true ∨ file.components = other.components := by
  unfold see
  split
  next known =>
    refine ⟨.inl, fun either => either.elim id fun same => ?_⟩
    obtain ⟨first, member, earlier⟩ := hasSeen_iff.mp known
    exact hasSeen_iff.mpr ⟨first, member, earlier.trans same⟩
  next => simp [hasSeen_iff, or_and_right, exists_or]

/-- The first question of a loader brings in the files that are built. Beside these only the file
that was asked about has been seen then, whether it is built or not. -/
theorem loadFile_of_built (noEntries : loader.entries = []) (noSeen : loader.seen = [])
    {file parent : PathText} {built : List ParsedFile} {features : List String}
    (answered : provider loader.asked.length file =
      .ok ⟨if built.isEmpty then [] else [Package.ofFiles parent built features], built⟩)
    (apart : (built.map fun file => file.path.components).Nodup) :
    ∃ after, loader.loadFile provider file = (after, .ok ()) ∧
      after.entries.map LoadedFile.file = built.map ParsedFile.path ∧
      ∀ other, after.hasSeen other = true ↔
        other.components ∈ built.map (fun file => file.path.components) ∨
          file.components = other.components := by
  cases built with
  | nil =>
    -- No file is built, so there is no package and nothing to take up.
    refine ⟨_, loadFile_of_seen_packages answered (by simp) (by simp), ?_, fun other => ?_⟩
    · rw [see_entries, noEntries]
      rfl
    · rw [hasSeen_see_iff]
      simp [hasSeen, noSeen]
  | cons first rest =>
    have told : ToldApart (first :: rest) := fun a member b member' same =>
      List.inj_on_of_nodup_map apart member member' (PathText.same_iff.mp same)
    have distinct : ((first :: rest).map ParsedFile.path).Nodup :=
      List.Nodup.of_map PathText.components (by rwa [List.map_map])
    obtain ⟨taken, step, entries, seen⟩ := loadFile_of_fresh noEntries noSeen answered rfl told
    have members : (Package.ofFiles parent (first :: rest) features).files =
        (first :: rest).map ParsedFile.path := rfl
    rw [members, eraseDups_of_nodup distinct] at entries seen
    refine ⟨_, step, ?_, fun other => ?_⟩
    · rw [see_entries, entries, List.map_map, Function.comp_def, List.map_id']
    · rw [hasSeen_see_iff, hasSeen_iff, seen]
      simp [eq_comm]

/-- Behind a question that brought in all files of the package, each file that it has not shown is
asked about, and noted as seen by that. -/
theorem loadFiles_of_members_seen {resolution : Resolution} {files : List PathText}
    (answered : ∀ count, ∀ file ∈ files, provider count file = .ok resolution)
    (single : resolution.packages.length ≤ 1)
    (seen : ∀ package ∈ resolution.packages, ∀ member ∈ package.files,
      loader.hasSeen member = true)
    (apart : (files.map PathText.components).Nodup) :
    loader.loadFiles provider files =
      let unseen := files.filter fun file => !loader.hasSeen file
      (⟨loader.entries, loader.seen ++ unseen, unseen.reverse ++ loader.asked⟩, .ok ()) := by
  induction files generalizing loader with
  | nil => simp [loadFiles]
  | cons file rest ih =>
    obtain ⟨fresh, others⟩ := List.nodup_cons.mp apart
    have later := fun count other (member : other ∈ rest) =>
      answered count other (List.mem_cons_of_mem _ member)
    -- A file that was shown is passed over. Any other is asked about, and the answer is old news.
    by_cases known : loader.hasSeen file = true
    · rw [loadFiles, if_pos known, ih later seen others]
      simp [known]
    · let next : Loader := ⟨loader.entries, loader.seen ++ [file], file :: loader.asked⟩
      have step : loader.loadFile provider file = (next, .ok ()) := by
        rw [loadFile_of_seen_packages (answered _ file List.mem_cons_self) single seen, see, if_neg]
        exact known
      have grows : loader.Grows next := ⟨List.prefix_rfl, List.prefix_append _ _⟩
      -- Of the files behind it none has this one's path, so none is seen because of it.
      have same : ∀ other ∈ rest, next.hasSeen other = loader.hasSeen other := by
        intro other member
        have differ : file.components ≠ other.components := fun same =>
          fresh (same ▸ List.mem_map_of_mem member)
        simp [hasSeen, next, PathText.same, differ]
      rw [loadFiles, if_neg known, step]
      dsimp only
      rw [ih later (fun package answer member listed =>
        grows.hasSeen (seen package answer member listed)) others]
      have unseen : (rest.filter fun other => !next.hasSeen other) =
          rest.filter fun other => !loader.hasSeen other :=
        List.filter_congr fun other member => by rw [same other member]
      simp [unseen, known, next]

/-- The first file is asked about in any case, and behind it those that are not built. -/
theorem loadFiles_of_built (noEntries : loader.entries = []) (noSeen : loader.seen = [])
    {file parent : PathText} {rest : List PathText} {built : List ParsedFile}
    {features : List String} {isBuilt : PathText → Bool}
    (answered : ∀ count, ∀ other ∈ file :: rest, provider count other =
      .ok ⟨if built.isEmpty then [] else [Package.ofFiles parent built features], built⟩)
    (apart : ((file :: rest).map PathText.components).Nodup)
    (members : built.map (fun file => file.path.components) =
      ((file :: rest).filter isBuilt).map PathText.components) :
    ∃ after, loader.loadFiles provider (file :: rest) = (after, .ok ()) ∧
      after.entries.map LoadedFile.file = built.map ParsedFile.path ∧
      after.asked = (rest.filter fun other => !isBuilt other).reverse ++ file :: loader.asked := by
  have distinct : (built.map fun file => file.path.components).Nodup := by
    rw [members]
    exact apart.sublist (List.filter_sublist.map _)
  obtain ⟨next, step, entries, seen⟩ :=
    loadFile_of_built noEntries noSeen (answered _ file List.mem_cons_self) distinct
  have asked : next.asked = file :: loader.asked := by
    rw [← loadFile_asked provider loader file, step]
  obtain ⟨fresh, others⟩ := List.nodup_cons.mp apart
  -- The answer has shown all that are built; the file asked about is not among the others.
  have shown : ∀ other ∈ rest, next.hasSeen other = isBuilt other := by
    intro other member
    have listed := List.mem_cons_of_mem file member
    rw [Bool.eq_iff_iff, seen, members]
    constructor
    · rintro (among | same)
      · obtain ⟨found, kept, same⟩ := List.mem_map.mp among
        obtain ⟨listed', enabled⟩ := List.mem_filter.mp kept
        rwa [← List.inj_on_of_nodup_map apart listed' listed same]
      · exact absurd (same ▸ List.mem_map_of_mem member) fresh
    · exact fun enabled => .inl (List.mem_map_of_mem (List.mem_filter.mpr ⟨listed, enabled⟩))
  have unseen : (rest.filter fun other => !next.hasSeen other) =
      rest.filter fun other => !isBuilt other :=
    List.filter_congr fun other member => by rw [shown other member]
  have brought : ∀ package ∈ if built.isEmpty then [] else [Package.ofFiles parent built features],
      ∀ member ∈ package.files, next.hasSeen member = true := by
    intro package answer member listed
    split at answer
    · cases answer
    · obtain rfl := List.mem_singleton.mp answer
      obtain ⟨file, chosen, rfl⟩ := List.mem_map.mp listed
      exact (seen file.path).mpr (.inl (List.mem_map_of_mem chosen))
  have first : loader.loadFiles provider (file :: rest) = next.loadFiles provider rest := by
    have unknown : ¬loader.hasSeen file = true := by simp [hasSeen, noSeen]
    rw [loadFiles, if_neg unknown, step]
  have later := loadFiles_of_members_seen
    (fun count other member => answered count other (List.mem_cons_of_mem file member))
    (by dsimp only; split <;> simp) brought others
  exact ⟨_, first.trans later, entries, by rw [← unseen, ← asked]⟩

/-- A loader that holds nothing yet asks once for each source file that is not built, and once more
just if there is a first source file and it is built. All source files are seen then, and those that
are built are the entries, by name. -/
theorem first_load_asks_for_unbuilt {tree : FileTree} (proper : tree.root.Proper)
    (features : List String) (noEntries : loader.entries = []) (noSeen : loader.seen = [])
    {path : PathText} {files : List PathText}
    (listed : tree.eligibleFiles (directoryOf tree path) = .ok files)
    (good : ∀ file ∈ files, tree.isBad file = false) :
    ∃ after, loader.parse tree (.ofTree tree features) path = (after, .ok ()) ∧
      after.asked.length = loader.asked.length +
        files.countP (fun file => !tree.isBuilt features file) +
          (if files.head?.any (tree.isBuilt features) then 1 else 0) ∧
      (∀ file ∈ files, after.hasSeen file = true) ∧
      after.entries.map (fun entry => entry.file.components) =
        (files.filter (tree.isBuilt features)).map PathText.components ∧
      ∃ names : List String,
        files.map PathText.fileName? = names.map some ∧ names.Pairwise (· < ·) := by
  obtain ⟨parent, built, members, resolved⟩ :=
    FileTree.exists_built proper.wellNamed features listed good
  have apart := FileTree.eligibleFiles_nodup proper listed
  have named := FileTree.exists_names_of_eligibleFiles proper listed
  have parsed : loader.parse tree (.ofTree tree features) path =
      loader.loadFiles (.ofTree tree features) files := by rw [parse, listed]
  rw [parsed]
  cases files with
  | nil => exact ⟨loader, rfl, by simp, by simp, by simp [noEntries], named⟩
  | cons file rest =>
    obtain ⟨after, loaded, entries, asked⟩ := loadFiles_of_built noEntries noSeen
      (fun _ other member => resolved other member) apart members
    refine ⟨after, loaded, ?_, ?_, ?_, named⟩
    · rw [asked]
      cases enabled : tree.isBuilt features file <;>
        simp [enabled, List.countP_eq_length_filter] <;> omega
    · have seen := hasSeen_of_loadFiles (congrArg Prod.snd loaded)
      rwa [loaded] at seen
    · rw [← members]
      simpa only [List.map_map, Function.comp_def] using
        congrArg (List.map PathText.components) entries

/-- Files that are built only with a flag stand first and among others: without it both of them are
asked about, with it only the first file is. -/
theorem first_load_asks_for_unbuilt_flag :
    let plain : FileNode := .file (some "struct S;")
    let flagged : FileNode := .file (some "#![cfg(feature = r\"f\")]")
    let tree : FileTree :=
      ⟨.dir [("d.rs", plain), ("c.rs", flagged), ("b.rs", plain), ("a.rs", flagged)], []⟩
    let files : List PathText := [⟨"./a.rs"⟩, ⟨"./b.rs"⟩, ⟨"./c.rs"⟩, ⟨"./d.rs"⟩]
    let call (features : List String) := Loader.parse tree (.ofTree tree features) {} ⟨"."⟩
    tree.root.Proper ∧ tree.eligibleFiles (directoryOf tree ⟨"."⟩) = .ok files ∧
      (∀ file ∈ files, tree.isBad file = false) ∧
      files.filter (tree.isBuilt []) = [⟨"./b.rs"⟩, ⟨"./d.rs"⟩] ∧
      (call []).1.asked.length = 2 ∧ (∀ file ∈ files, (call []).1.hasSeen file = true) ∧
      (call []).1.entries.length = 2 ∧
      (call ["f"]).1.asked.length = 1 ∧ (call ["f"]).1.entries.length = 4 := by
  intro plain flagged tree files call
  have isName : ∀ name ∈ ["a.rs", "b.rs", "c.rs", "d.rs"], PathText.IsName name := by
    intro name member
    exact ⟨by revert name; decide, by revert name; decide⟩
  have proper : tree.root.Proper :=
    .entry (isName "d.rs" (by simp)) (.file _) (by simp)
      (.entry (isName "c.rs" (by simp)) (.file _) (by simp)
        (.entry (isName "b.rs" (by simp)) (.file _) (by simp)
          (.entry (isName "a.rs" (by simp)) (.file _) (by simp) .empty)))
  have listed : tree.eligibleFiles (directoryOf tree ⟨"."⟩) = .ok files := by decide +kernel
  have good : ∀ file ∈ files, tree.isBad file = false := by decide +kernel
  have without : files.map (tree.isBuilt []) = [false, true, false, true] := by decide +kernel
  have within : files.map (tree.isBuilt ["f"]) = [true, true, true, true] := by decide +kernel
  simp only [files, List.map_cons, List.map_nil, List.cons.injEq, and_true] at without within
  have fresh : Loader.entries {} = [] ∧ Loader.seen {} = [] := ⟨rfl, rfl⟩
  obtain ⟨after, done, asked, seen, entries, _⟩ :=
    first_load_asks_for_unbuilt proper [] fresh.1 fresh.2 listed good
  obtain ⟨after', done', asked', _, entries', _⟩ :=
    first_load_asks_for_unbuilt proper ["f"] fresh.1 fresh.2 listed good
  refine ⟨proper, listed, good, by simp [files, without], ?_, ?_, ?_, ?_, ?_⟩
  · simpa [call, done, files, without] using asked
  · simpa only [call, done] using seen
  · simpa [call, done, files, without] using congrArg List.length entries
  · simpa [call, done', files, within] using asked'
  · simpa [call, done', files, within] using congrArg List.length entries'

end Loader

end StructInventory
