import StructInventory.Proofs.DirectoryStructs
import StructInventory.Proofs.PathBelow
import StructInventory.Proofs.StructName
import StructInventory.Proofs.WalkRun

/-!
Where the structs of a loader come from. The files that are loaded from a directory belong to one
package, which is that of its path. Directories with the same components are one directory, and a
declaration of it is found in the same file under either path. So a struct is told apart from all
others by its directory and its name, however often and by whatever paths the directory is come to.
-/

namespace StructInventory

/-! ### Places -/

namespace Component

/-- Where a component leads from a place, if it leads anywhere. -/
def lead (place : List String) : Component → List String
  | root => []
  | current => place
  | parent => place.dropLast
  | name text => place ++ [text]

end Component

namespace FileTree

open PathText

variable {tree : FileTree}

theorem step_lead {place place' : List String} {piece : String} {component : Component}
    (visible : component? piece = some component) (leads : tree.step place piece = .ok place') :
    place' = component.lead place := by
  unfold component? at visible
  unfold step at leads
  -- Pieces that stand for no component are not steps; two dots go up, and a name goes down.
  split at visible
  · cases visible
  next idle =>
    split at leads
    · rw [if_neg idle] at leads
      split at visible
      next up =>
        rw [if_pos up] at leads
        cases visible
        exact (Except.ok.inj leads).symm
      next down =>
        rw [if_neg down] at leads
        cases visible
        split at leads
        · exact (Except.ok.inj leads).symm
        · cases leads
    · cases leads
    · cases leads

theorem foldlM_step_lead {pieces : List String} {start place : List String}
    (leads : pieces.foldlM tree.step start = .ok place) :
    place = (pieces.filterMap component?).foldl Component.lead start := by
  induction pieces generalizing start with
  | nil => exact (Except.ok.inj leads).symm
  | cons piece rest ih =>
    rw [List.foldlM_cons] at leads
    cases first : tree.step start piece with
    | error error => simp [first, bind, Except.bind] at leads
    | ok next =>
      rw [first] at leads
      cases visible : component? piece with
      | none =>
        rw [List.filterMap_cons_none visible, ← step_idle visible first]
        exact ih leads
      | some component =>
        rw [List.filterMap_cons_some visible, List.foldl_cons, ← step_lead visible first]
        exact ih leads

/-- Components alone decide where a path leads, if it leads anywhere. -/
theorem locate_lead {path : PathText} {place : List String}
    (located : tree.locate path = .ok place) :
    place = path.components.foldl Component.lead tree.home := by
  have some : path.text ≠ "" := by
    intro empty
    simp [locate, empty] at located
  obtain ⟨piece, rest, stem⟩ := exists_stem some
  have leads := foldlM_step_lead (stem_leads stem located)
  rw [leads, stem.components, List.foldl_append, behindHead, Head.ofPiece]
  by_cases root : piece = ""
  · simp [root, Head.components, component?, Component.lead]
  · by_cases current : piece = "."
    · simp [current, Head.components, component?, Component.lead]
    · simp [root, current, Head.components]

/-- Directories with the same components have the same source files, under their own paths. -/
theorem exists_names (wellNamed : tree.WellNamed) {dir dir' : PathText}
    {paths paths' : List PathText} (listed : tree.eligibleFiles dir = .ok paths)
    (listed' : tree.eligibleFiles dir' = .ok paths') (same : dir.components = dir'.components) :
    ∃ names : List String, paths = names.map (fun name => dir.join ⟨name⟩) ∧
      paths' = names.map (fun name => dir'.join ⟨name⟩) ∧
      ∀ name ∈ names, IsName name ∧
        tree.node (dir.join ⟨name⟩) = tree.node (dir'.join ⟨name⟩) := by
  obtain ⟨place, entries, located, dirAt, some⟩ := exists_place listed
  obtain ⟨place', entries', located', dirAt', some'⟩ := exists_place listed'
  obtain rfl : place = place' := by rw [locate_lead located, locate_lead located', same]
  obtain rfl : entries = entries' := by
    rw [dirAt] at dirAt'
    cases dirAt'
    rfl
  obtain ⟨piece, rest, stem⟩ := exists_stem some
  obtain ⟨piece', rest', stem'⟩ := exists_stem some'
  rw [eligibleFiles_eq wellNamed stem located dirAt] at listed
  rw [eligibleFiles_eq wellNamed stem' located' dirAt] at listed'
  refine ⟨tree.sourceNames place entries, (Except.ok.inj listed).symm, (Except.ok.inj listed').symm, ?_⟩
  intro name chosen
  obtain ⟨isName, inside⟩ := named_of_mem_sourceNames wellNamed dirAt name chosen
  refine ⟨isName, ?_⟩
  rw [node_join stem located dirAt isName inside, node_join stem' located' dirAt isName inside]

end FileTree

/-! ### Packages of directories -/

namespace FileTree

variable {tree : FileTree} {features : List String}

theorem read_of_parseFile {path : PathText} {file : ParsedFile}
    (parsed : tree.parseFile path = .ok file) :
    ∃ text, SourceFile.read text = .ok file.source := by
  unfold parseFile at parsed
  split at parsed
  · cases parsed
  · split at parsed
    · cases parsed
    next read =>
      cases parsed
      exact ⟨_, read⟩

theorem resolveFile_congr {file other : PathText} (same : file.directory = other.directory) :
    tree.resolveFile features file = tree.resolveFile features other := by
  rw [resolveFile, resolveFile, same]

/-- A package that is answered is that of the file's directory, and made of those of its source
files that are built. -/
theorem exists_files_of_resolveFile {file : PathText} {package : Package}
    {built : List ParsedFile}
    (answered : tree.resolveFile features file = .ok ⟨[package], built⟩) :
    package = .ofFiles file.directory built features ∧
      ∃ paths files, tree.eligibleFiles file.directory = .ok paths ∧
        paths.mapM tree.parseFile = .ok files ∧
        built = files.filter fun file => Condition.enabled features file.source.conditions := by
  cases listed : tree.eligibleFiles file.directory with
  | error error =>
    rw [resolveFile, listed] at answered
    cases answered
  | ok paths =>
    rw [resolveFile_eq rfl listed] at answered
    cases read : paths.mapM tree.parseFile with
    | error diagnostic => simp [parseFiles, read, bind, Except.bind] at answered
    | ok files =>
      simp only [parseFiles, read, bind, Except.bind, pure, Except.pure, Except.ok.injEq,
        Resolution.mk.injEq] at answered
      obtain ⟨made, rfl⟩ := answered
      refine ⟨?_, paths, files, rfl, read, rfl⟩
      split at made
      · cases made
      · exact (List.singleton_inj.mp made).symm

theorem of_resolveFile {file : PathText} {package : Package} {built : List ParsedFile}
    (answered : tree.resolveFile features file = .ok ⟨[package], built⟩) :
    package = .ofFiles file.directory built features ∧
      ∃ paths, tree.eligibleFiles file.directory = .ok paths ∧
        ∀ parsed ∈ built, parsed.path ∈ paths ∧ tree.parseFile parsed.path = .ok parsed := by
  obtain ⟨made, paths, files, listed, read, rfl⟩ := exists_files_of_resolveFile answered
  refine ⟨made, paths, listed, fun parsed member => ?_⟩
  exact parseFile_of_mem_mapM read parsed (List.mem_of_mem_filter member)

end FileTree

/-- The same source file, read under paths with the same components. -/
structure ParsedFile.Alike (file file' : ParsedFile) : Prop where
  source : file.source = file'.source
  path : file.path.components = file'.path.components

/-- Whether a file is built can be told from its source. -/
theorem ParsedFile.Alike.filter {files files' : List ParsedFile}
    (alike : List.Forall₂ Alike files files') (features : List String) :
    List.Forall₂ Alike
      (files.filter fun file => Condition.enabled features file.source.conditions)
      (files'.filter fun file => Condition.enabled features file.source.conditions) := by
  refine List.rel_filter (fun file file' same => ?_) alike
  simp only [same.source]

namespace FileTree

variable {tree : FileTree}

theorem alike_of_mapM {dir dir' : PathText} (same : dir.components = dir'.components)
    {names : List String} (named : ∀ name ∈ names, PathText.IsName name ∧
      tree.node (dir.join ⟨name⟩) = tree.node (dir'.join ⟨name⟩))
    {files files' : List ParsedFile}
    (parsed : (names.map fun name => dir.join ⟨name⟩).mapM tree.parseFile = .ok files)
    (parsed' : (names.map fun name => dir'.join ⟨name⟩).mapM tree.parseFile = .ok files') :
    List.Forall₂ ParsedFile.Alike files files' := by
  induction names generalizing files files' with
  | nil =>
    cases parsed
    cases parsed'
    exact .nil
  | cons name rest ih =>
    obtain ⟨⟨isName, node⟩, later⟩ := List.forall_mem_cons.mp named
    obtain ⟨file, others, first, more, rfl⟩ := exists_of_mapM_cons parsed
    obtain ⟨file', others', first', more', rfl⟩ := exists_of_mapM_cons parsed'
    obtain ⟨again, reread, source⟩ := parseFile_of_node node first
    cases reread.symm.trans first'
    refine .cons ⟨source.symm, ?_⟩ (ih later more more')
    rw [parseFile_path first, parseFile_path first', PathText.components_join_name isName,
      PathText.components_join_name isName, same]

end FileTree

namespace Package

variable {features : List String}

theorem find?_declarations (files : List ParsedFile) (name : String) :
    (declarations features files).find? (·.2.name = name) =
      files.findSome? fun file => (((file.source.typeDecls.filter fun decl =>
        Condition.enabled features decl.conditions).find? (·.name = name)).map fun decl =>
          (file, decl)) := by
  unfold declarations
  rw [List.find?_flatMap]
  congr 1
  funext file
  rw [List.find?_map]
  rfl

/-- Alike files declare a name in files that are alike. -/
theorem alike_of_find? {files files' : List ParsedFile}
    (alike : List.Forall₂ ParsedFile.Alike files files') {name : String}
    {found found' : ParsedFile × TypeDecl}
    (first : (declarations features files).find? (·.2.name = name) = some found)
    (first' : (declarations features files').find? (·.2.name = name) = some found') :
    found.1.Alike found'.1 := by
  rw [find?_declarations] at first first'
  induction alike with
  | nil => cases first
  | @cons file file' files files' same _ ih =>
    rw [List.findSome?_cons] at first first'
    rw [← same.source] at first'
    cases here : (file.source.typeDecls.filter fun decl =>
        Condition.enabled features decl.conditions).find? (·.name = name) with
    | none =>
      rw [here] at first first'
      exact ih first first'
    | some decl =>
      rw [here] at first first'
      cases first
      cases first'
      exact same

end Package

/-! ### Files with their packages -/

/-- A struct whose file stands in a directory, under a name that is an identifier. -/
structure StructDesc.FoundIn (struct : StructDesc) (dir : PathText) : Prop where
  parent : struct.file.parent? = some dir
  directory : struct.file.directory = dir
  spelled : Grammar.Spelled struct.name

namespace Loader

/-- The structs of one file are told apart by their names. -/
theorem eq_of_mem_structsOf {entry : LoadedFile} {struct struct' : StructDesc}
    (listed : struct ∈ structsOf entry) (listed' : struct' ∈ structsOf entry)
    (sameName : struct.name = struct'.name) : struct = struct' := by
  obtain ⟨package, looked, _, _⟩ := lookup_of_mem_structsOf listed
  obtain ⟨package', looked', _, _⟩ := lookup_of_mem_structsOf listed'
  rw [sameName, looked', Option.some.injEq] at looked
  obtain ⟨named, held⟩ := struct
  obtain ⟨named', held'⟩ := struct'
  obtain rfl : named' = named := looked
  obtain rfl : held = held' := package.trans package'.symm
  rfl

/-- A file that was loaded with the package of a directory, which is its own. -/
structure EntryOf (tree : FileTree) (features : List String) (dir : PathText) (entry : LoadedFile) :
    Prop where
  directory : entry.file.directory = dir
  resolved : ∃ package built, tree.resolveFile features entry.file = .ok ⟨[package], built⟩ ∧
    entry.package = .ofResolution package built

namespace EntryOf

variable {tree : FileTree} {features : List String} {dir : PathText} {entry entry' : LoadedFile}
  {struct struct' : StructDesc}

/-- What such an entry lists has the first declaration of its name among the built files of the
directory. -/
theorem exists_declaration (entryOf : EntryOf tree features dir entry)
    (listed : struct ∈ structsOf entry) :
    ∃ paths files found, tree.eligibleFiles dir = .ok paths ∧
      paths.mapM tree.parseFile = .ok files ∧
      (Package.declarations features (files.filter fun file =>
        Condition.enabled features file.source.conditions)).find? (·.2.name = struct.name) =
          some found ∧
      found.2.isStruct = true ∧ found.2.name = struct.name ∧ found.1.path = struct.file := by
  obtain ⟨package, built, answered, loaded⟩ := entryOf.resolved
  obtain ⟨rfl, paths, files, eligible, read, rfl⟩ :=
    FileTree.exists_files_of_resolveFile answered
  rw [entryOf.directory] at eligible loaded
  obtain ⟨_, looked, isStruct, _⟩ := lookup_of_mem_structsOf listed
  rw [loaded] at looked
  obtain ⟨found, first, declared⟩ :=
    Package.exists_declaration (List.mem_of_find?_eq_some looked)
  rw [← declared, Package.declaredType_isStruct] at isStruct
  refine ⟨paths, files, found, eligible, read, first, isStruct, ?_, ?_⟩
  · rw [StructDesc.name, ← declared]
    rfl
  · rw [StructDesc.file, ← declared]
    rfl

/-- What such an entry lists was declared in a file of the directory. -/
theorem foundIn (entryOf : EntryOf tree features dir entry) (wellNamed : tree.WellNamed)
    (some : dir.text ≠ "") (trimmed : dir.trimmed = dir) (listed : struct ∈ structsOf entry) :
    struct.FoundIn dir := by
  obtain ⟨paths, files, found, eligible, read, first, -, named, file⟩ :=
    entryOf.exists_declaration listed
  obtain ⟨inside, typed⟩ := Package.mem_declarations (List.mem_of_find?_eq_some first)
  obtain ⟨held, parsed⟩ :=
    FileTree.parseFile_of_mem_mapM read found.1 (List.mem_of_mem_filter inside)
  obtain ⟨name, isName, path⟩ :=
    FileTree.exists_name_of_mem_eligibleFiles wellNamed eligible _ held
  refine ⟨?_, ?_, ?_⟩
  · rw [← file, path, PathText.parent?_join_name some isName, trimmed]
  · rw [← file, path, PathText.directory_join_name some isName, trimmed]
  · obtain ⟨text, source⟩ := FileTree.read_of_parseFile parsed
    rw [← named]
    exact SourceFile.name_spelled source found.2 typed

/-- Structs of the same name from directories with the same components have their files in
common. -/
theorem file_same {dir' : PathText} (entryOf : EntryOf tree features dir entry)
    (entryOf' : EntryOf tree features dir' entry') (wellNamed : tree.WellNamed)
    (same : dir.components = dir'.components) (listed : struct ∈ structsOf entry)
    (listed' : struct' ∈ structsOf entry') (sameName : struct.name = struct'.name) :
    entry.file.same entry'.file = true := by
  obtain ⟨paths, files, found, eligible, read, first, _, _, file⟩ :=
    entryOf.exists_declaration listed
  obtain ⟨paths', files', found', eligible', read', first', _, _, file'⟩ :=
    entryOf'.exists_declaration listed'
  obtain ⟨names, rfl, rfl, named⟩ := FileTree.exists_names wellNamed eligible eligible' same
  have alike := ParsedFile.Alike.filter (FileTree.alike_of_mapM same named read read') features
  rw [← sameName] at first'
  have declaredAlike := Package.alike_of_find? alike first first'
  obtain ⟨_, _, _, held⟩ := lookup_of_mem_structsOf listed
  obtain ⟨_, _, _, held'⟩ := lookup_of_mem_structsOf listed'
  rw [PathText.same_iff] at held held' ⊢
  rw [← held, ← held', ← file, ← file', declaredAlike.path]

end EntryOf

/-! ### Directories that are loaded first -/

/-- The source files of a directory have one answer, which is the package of `built`. -/
structure Answered (tree : FileTree) (features : List String) (files : List PathText)
    (parent : PathText) (built : List ParsedFile) : Prop where
  apart : ToldApart built
  noFiles : files = [] → built = []
  each : ∀ file ∈ files, tree.resolveFile features file =
    .ok ⟨if built.isEmpty then [] else [.ofFiles parent built features], built⟩

section

variable {tree : FileTree} {features : List String} {files : List PathText} {parent : PathText}
  {built : List ParsedFile}

/-- Where a file is built there is a package, with which some source file was answered. -/
theorem Answered.exists_resolveFile (answered : Answered tree features files parent built)
    (some : built ≠ []) :
    ∃ file ∈ files,
      tree.resolveFile features file = .ok ⟨[.ofFiles parent built features], built⟩ := by
  obtain ⟨file, member⟩ := List.exists_mem_of_ne_nil files (mt answered.noFiles some)
  refine ⟨file, member, ?_⟩
  rw [answered.each file member, if_neg (by simpa using some)]

theorem Answered.exists_read (answered : Answered tree features files parent built) :
    ∀ file ∈ built, ∃ text, SourceFile.read text = .ok file.source := by
  intro file member
  obtain ⟨_, _, resolved⟩ := answered.exists_resolveFile (List.ne_nil_of_mem member)
  obtain ⟨_, _, _, parsed⟩ := FileTree.of_resolveFile resolved
  exact FileTree.read_of_parseFile (parsed file member).2

/-- A new loader that comes through a directory's source files has listed the structs of their
package. -/
theorem Answered.structs_eq (answered : Answered tree features files parent built) :
    (loadFiles (.ofTree tree features) {} files).1.structs =
      packageStructs (.ofResolution (.ofFiles parent built features) built) := by
  have each := answered.each
  cases built with
  | nil =>
    have entries : (loadFiles (.ofTree tree features) {} files).1.entries = [] :=
      loadFiles_of_seen_packages (fun _ => each) (Nat.zero_le 1) (List.forall_mem_nil _)
    rw [structs, entries]
    rfl
  | cons file rest =>
    have entries : (loadFiles (.ofTree tree features) {} files).1.entries = _ :=
      loadFiles_of_fresh (mt answered.noFiles (List.cons_ne_nil file rest)) (fun _ => each) rfl
        answered.apart
    rw [structs, entries, List.flatMap_map]
    rfl

theorem exists_answered (wellNamed : tree.WellNamed) {path : PathText}
    (done : (parse tree (.ofTree tree features) {} path).2 = .ok ()) :
    ∃ files parent built, tree.eligibleFiles (directoryOf tree path) = .ok files ∧
      Answered tree features files parent built ∧
      (parse tree (.ofTree tree features) {} path).1.structs =
        packageStructs (.ofResolution (.ofFiles parent built features) built) := by
  cases listed : tree.eligibleFiles (directoryOf tree path) with
  | error refused => simp [parse, listed] at done
  | ok files =>
    have loaded : parse tree (.ofTree tree features) {} path =
        loadFiles (.ofTree tree features) {} files := by
      simp only [parse, listed]
    rw [loaded] at done ⊢
    obtain ⟨parent, names, relisted⟩ := FileTree.exists_relisted wellNamed listed
    obtain rfl := relisted.files_eq listed
    rcases relisted.resolveFile_cases features with
      ⟨nonempty, diagnostic, refused⟩ | ⟨built, apart, noFiles, each⟩
    · -- A new loader has seen no file, so the first one would have ended the call.
      obtain ⟨name, rest, rfl⟩ := List.exists_cons_of_ne_nil nonempty
      have call : loadFiles (.ofTree tree features) {} _ = _ :=
        loadFiles_of_refused fun _ => refused
      rw [call] at done
      simp [hasSeen] at done
    · have answered : Answered tree features _ parent built :=
        ⟨apart, fun none => noFiles (List.map_eq_nil_iff.mp none), each⟩
      exact ⟨_, parent, built, rfl, answered, answered.structs_eq⟩

end

end Loader

/-! ### Loaded structs -/

namespace Walker

theorem Loads.consistent {tree : FileTree} {provider : Provider} {loader last : Loader}
    {dirs : List PathText} (loads : Loads tree provider loader dirs last)
    (before : loader.Consistent) : last.Consistent := by
  induction loads with
  | done => exact before
  | @next loader last dir rest _ _ ih =>
    obtain ⟨questions, asks⟩ := Loader.parse_asks tree provider loader dir
    exact ih (asks.consistent before)

theorem Loads.forall_entries {tree : FileTree} {provider : Provider} {loader last : Loader}
    {dirs : List PathText} {holds : LoadedFile → Prop}
    (loads : Loads tree provider loader dirs last)
    (brings : ∀ dir ∈ dirs, ∀ files,
      tree.eligibleFiles (Loader.directoryOf tree dir) = .ok files →
        ∀ file ∈ files, Loader.Brings provider holds file)
    (held : ∀ entry ∈ loader.entries, holds entry) : ∀ entry ∈ last.entries, holds entry := by
  induction loads with
  | done => exact held
  | next _ _ ih =>
    obtain ⟨first, others⟩ := List.forall_mem_cons.mp brings
    exact ih others (Loader.forall_parse first held)

section

variable {tree : FileTree} {features : List String} {dirs : List PathText} {last : Loader}

/-- Every entry is one of a directory that its own path names. -/
theorem Loads.exists_entryOf (wellNamed : tree.WellNamed)
    (loads : Loads tree (.ofTree tree features) {} dirs last) :
    ∀ entry ∈ last.entries, ∃ dir, Loader.EntryOf tree features dir entry ∧
      ∀ struct ∈ Loader.structsOf entry, struct.FoundIn dir := by
  refine loads.forall_entries ?_ (by simp)
  intro _ _ files eligible file chosen _ package built answered path inside
  -- The path of a listed file names a directory without a slash at its end.
  obtain ⟨name, isName, rfl⟩ :=
    FileTree.exists_name_of_mem_eligibleFiles wellNamed eligible file chosen
  obtain ⟨_, _, _, _, nonempty⟩ := FileTree.exists_place eligible
  have directory := PathText.directory_join_name nonempty isName
  have some := PathText.trimmed_text_ne nonempty
  have trimmed := PathText.trimmed_trimmed nonempty
  rw [← directory] at some trimmed
  obtain ⟨rfl, paths, again, parsed⟩ := FileTree.of_resolveFile answered
  obtain ⟨source, held, rfl⟩ := List.mem_map.mp inside
  obtain ⟨inner, isInner, path⟩ := FileTree.exists_name_of_mem_eligibleFiles wellNamed again
    source.path (parsed source held).1
  have within := PathText.directory_join_name some isInner
  rw [← path, trimmed] at within
  have entryOf : Loader.EntryOf tree features _ ⟨source.path, _⟩ :=
    ⟨within, _, built, (FileTree.resolveFile_congr within).trans answered, rfl⟩
  exact ⟨_, entryOf, fun struct listed => entryOf.foundIn wellNamed some trimmed listed⟩

/-- No two structs that are listed have both their directory and their name in common. -/
theorem Loads.structs_apart (wellNamed : tree.WellNamed)
    (loads : Loads tree (.ofTree tree features) {} dirs last) :
    last.structs.Pairwise fun struct other =>
      ¬(struct.file.directory.same other.file.directory = true ∧ struct.name = other.name) := by
  refine List.pairwise_flatMap.mpr ⟨fun entry member => ?_, ?_⟩
  · obtain ⟨dir, entryOf, _⟩ := loads.exists_entryOf wellNamed entry member
    refine (Loader.structsOf_nodup entry).imp_of_mem ?_
    rintro struct other listed listed' differ ⟨_, sameName⟩
    exact differ (Loader.eq_of_mem_structsOf listed listed' sameName)
  · refine (loads.consistent Loader.consistent_empty).distinct.imp_of_mem ?_
    rintro entry other member member' differ struct listed struct' listed' ⟨sameDir, sameName⟩
    obtain ⟨dir, entryOf, found⟩ := loads.exists_entryOf wellNamed entry member
    obtain ⟨dir', entryOf', found'⟩ := loads.exists_entryOf wellNamed other member'
    rw [(found struct listed).directory, (found' struct' listed').directory,
      PathText.same_iff] at sameDir
    have sameFile := entryOf.file_same entryOf' wellNamed sameDir listed listed' sameName
    rw [sameFile] at differ
    cases differ

end

end Walker

end StructInventory
