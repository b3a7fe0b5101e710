import StructInventory.Proofs.FailedLoad
import StructInventory.Proofs.PackageScope

/-!
The structs of a directory that is loaded first. They are the struct types of its package, each once
and grouped by file. The names that a file declares are listed without regard to conditions, and the
scope is filled with regard to them; a name is listed where its winning declaration stands, and only
there.
-/

namespace StructInventory

/-! ### Files with their paths -/

/-- Files that are told apart by their paths. -/
def ToldApart (files : List ParsedFile) : Prop :=
  ∀ file ∈ files, ∀ other ∈ files, file.path.same other.path = true → file = other

namespace FileTree

variable {tree : FileTree}

theorem parseFile_path {path : PathText} {file : ParsedFile}
    (parsed : tree.parseFile path = .ok file) : file.path = path := by
  unfold parseFile at parsed
  split at parsed
  · cases parsed
  · split at parsed
    · cases parsed
    · cases parsed
      rfl

/-- What a file declares does not depend on how its path is written. -/
theorem parseFile_of_node {path path' : PathText} (same : tree.node path = tree.node path')
    {file : ParsedFile} (parsed : tree.parseFile path = .ok file) :
    ∃ file', tree.parseFile path' = .ok file' ∧ file'.source = file.source := by
  have text : tree.readText path = tree.readText path' := by rw [readText, readText, same]
  unfold parseFile at parsed ⊢
  rw [text] at parsed
  split at parsed
  · cases parsed
  next found =>
    split at parsed
    · cases parsed
    next source read =>
      cases parsed
      exact ⟨⟨path', _, source⟩, rfl, rfl⟩

theorem parseFile_of_mem_mapM {paths : List PathText} {files : List ParsedFile}
    (parsed : paths.mapM tree.parseFile = .ok files) :
    ∀ file ∈ files, file.path ∈ paths ∧ tree.parseFile file.path = .ok file := by
  induction paths generalizing files with
  | nil =>
    cases parsed
    simp
  | cons path rest ih =>
    obtain ⟨first, others, read, later, rfl⟩ := exists_of_mapM_cons parsed
    refine List.forall_mem_cons.mpr ⟨?_, fun file member => ?_⟩
    · rw [parseFile_path read]
      exact ⟨List.mem_cons_self, read⟩
    · obtain ⟨listed, again⟩ := ih later file member
      exact ⟨List.mem_cons_of_mem _ listed, again⟩

/-- Files of one directory have different names, or are the same file. -/
theorem Relisted.toldApart {dir parent : PathText} {names : List String}
    (relisted : Relisted tree dir parent names) {files : List ParsedFile}
    (parsed : (names.map fun name => parent.join ⟨name⟩).mapM tree.parseFile = .ok files) :
    ToldApart files := by
  intro file member other member' same
  obtain ⟨listed, read⟩ := parseFile_of_mem_mapM parsed file member
  obtain ⟨listed', read'⟩ := parseFile_of_mem_mapM parsed other member'
  obtain ⟨name, chosen, path⟩ := List.mem_map.mp listed
  obtain ⟨name', chosen', path'⟩ := List.mem_map.mp listed'
  have named {name : String} (chosen : name ∈ names) :
      (parent.join ⟨name⟩).fileName? = some name := by
    have fileName := relisted.fileName name chosen
    unfold PathText.fileName? at fileName ⊢
    rwa [relisted.same name chosen]
  have sameName : some name = some name' := by
    rw [← named chosen, ← named chosen', path, path']
    unfold PathText.fileName?
    rw [PathText.same_iff.mp same]
  have samePath : file.path = other.path := by rw [← path, ← path', Option.some.inj sameName]
  rw [samePath, read'] at read
  exact (Except.ok.inj read).symm

/-- The source files of a directory have one answer: they are refused together, or belong to the
package of those among them that are built. -/
theorem Relisted.resolveFile_cases {dir parent : PathText} {names : List String}
    (relisted : Relisted tree dir parent names) (features : List String) :
    (names ≠ [] ∧ ∃ diagnostic, ∀ file ∈ names.map fun name => dir.join ⟨name⟩,
      tree.resolveFile features file = .error diagnostic) ∨
    ∃ built, ToldApart built ∧ (names = [] → built = []) ∧
      ∀ file ∈ names.map fun name => dir.join ⟨name⟩, tree.resolveFile features file =
        .ok ⟨if built.isEmpty then [] else [Package.ofFiles parent built features], built⟩ := by
  -- Whichever file is asked about, the same paths are listed and read.
  have answer : ∀ file ∈ names.map fun name => dir.join ⟨name⟩, tree.resolveFile features file = do
      let built ← tree.parseFiles features (names.map fun name => parent.join ⟨name⟩)
      return ⟨if built.isEmpty then [] else [Package.ofFiles parent built features], built⟩ := by
    intro file member
    obtain ⟨name, chosen, rfl⟩ := List.mem_map.mp member
    exact resolveFile_eq (relisted.directory name chosen) relisted.again features
  cases parsed : (names.map fun name => parent.join ⟨name⟩).mapM tree.parseFile with
  | error diagnostic =>
    refine .inl ⟨?_, diagnostic, fun file member => ?_⟩
    · rintro rfl
      cases parsed
    · rw [answer file member, parseFiles, parsed]
      rfl
  | ok files =>
    refine .inr ⟨files.filter fun file => Condition.enabled features file.source.conditions, ?_, ?_,
      fun file member => ?_⟩
    · intro file member other member'
      exact relisted.toldApart parsed file (List.mem_of_mem_filter member) other
        (List.mem_of_mem_filter member')
    · rintro rfl
      cases parsed
      rfl
    · rw [answer file member, parseFiles, parsed]
      rfl

end FileTree

/-! ### Scans of a package's files -/

theorem LoadedPackage.scan?_ofResolution (package : Package) {files : List ParsedFile}
    (apart : ToldApart files) {file : ParsedFile} (member : file ∈ files) :
    (ofResolution package files).scan? file.path = some (.ofFile file.text file.source) := by
  unfold scan? ofResolution
  cases found : List.find? (fun scanned => scanned.1.same file.path)
      (files.map fun file => (file.path, FileScan.ofFile file.text file.source)).reverse with
  | none =>
    have missing := List.find?_eq_none.mp found (file.path, FileScan.ofFile file.text file.source)
      (by simpa using ⟨file, member, rfl, rfl⟩)
    simp [PathText.same] at missing
  | some scanned =>
    obtain ⟨other, listed, rfl⟩ :=
      List.mem_map.mp (List.mem_reverse.mp (List.mem_of_find?_eq_some found))
    have same : other.path.same file.path = true := by simpa using List.find?_some found
    rw [apart other listed file member same]
    rfl

/-! ### Names without repetitions -/

/-- Lists of items with different keys, one behind another, are found again by their keys. -/
theorem filter_flatMap_key {α β : Type} [DecidableEq α] {keys : List α} {group : α → List β}
    {key : β → α} (nodup : keys.Nodup) (keyed : ∀ k ∈ keys, ∀ item ∈ group k, key item = k)
    {chosen : α} (member : chosen ∈ keys) :
    (keys.flatMap group).filter (key · = chosen) = group chosen := by
  induction keys with
  | nil => cases member
  | cons first rest ih =>
    obtain ⟨fresh, others⟩ := List.nodup_cons.mp nodup
    obtain ⟨own, later⟩ := List.forall_mem_cons.mp keyed
    rw [List.flatMap_cons, List.filter_append]
    rcases List.mem_cons.mp member with rfl | member
    · have none : (rest.flatMap group).filter (key · = chosen) = [] := by
        refine List.filter_eq_nil_iff.mpr fun item inside => ?_
        obtain ⟨k, listed, found⟩ := List.mem_flatMap.mp inside
        rw [later k listed item found, decide_eq_true_eq]
        rintro rfl
        exact fresh listed
      rw [none, List.append_nil]
      exact List.filter_eq_self.mpr fun item inside => by simpa using own item inside
    · have none : (group first).filter (key · = chosen) = [] := by
        refine List.filter_eq_nil_iff.mpr fun item inside => ?_
        rw [own item inside, decide_eq_true_eq]
        rintro rfl
        exact fresh member
      rw [none, List.nil_append]
      exact ih others later member

namespace Loader

theorem mem_firsts {seen names : List String} {name : String} :
    name ∈ firsts seen names ↔ name ∈ names ∧ name ∉ seen := by
  induction names generalizing seen with
  | nil => simp [firsts]
  | cons first rest ih =>
    unfold firsts
    split
    next known =>
      rw [List.contains_iff_mem] at known
      rw [ih, List.mem_cons]
      constructor
      · exact fun found => ⟨.inr found.1, found.2⟩
      · rintro ⟨rfl | later, fresh⟩
        · exact absurd known fresh
        · exact ⟨later, fresh⟩
    next fresh =>
      rw [List.contains_iff_mem] at fresh
      rw [List.mem_cons, ih, List.mem_cons, List.mem_cons]
      by_cases same : name = first
      · simp [same, fresh]
      · simp [same]

theorem firsts_nodup (seen names : List String) : (firsts seen names).Nodup := by
  induction names generalizing seen with
  | nil => exact List.nodup_nil
  | cons first rest ih =>
    unfold firsts
    split
    · exact ih seen
    · refine List.nodup_cons.mpr ⟨fun repeated => ?_, ih _⟩
      exact (mem_firsts.mp repeated).2 List.mem_cons_self

/-! ### The structs of one package -/

theorem structsOf_nodup (entry : LoadedFile) : (structsOf entry).Nodup := by
  unfold structsOf
  split
  · exact List.nodup_nil
  next scan _ =>
    refine (firsts_nodup [] scan.structs).filterMap fun name other struct found found' => ?_
    have named {name : String} (found : struct ∈ (do
        let named ← entry.package.package.scope.lookup name
        if named.isStruct && named.file.same entry.file then
          some (⟨named, entry.package⟩ : StructDesc)
        else none)) : struct.named.name = name := by
      obtain ⟨named, looked, chosen⟩ := Option.bind_eq_some_iff.mp found
      split at chosen
      · cases chosen
        simpa using List.find?_some looked
      · cases chosen
    rw [← named found, ← named found']

section

variable {dir : PathText} {files : List ParsedFile} {features : List String}

/-- A file lists the structs whose winning declarations stand in it. -/
theorem mem_structsOf_iff (apart : ToldApart files) {file : ParsedFile} (member : file ∈ files)
    {struct : StructDesc} :
    let loaded := LoadedPackage.ofResolution (.ofFiles dir files features) files
    struct ∈ structsOf ⟨file.path, loaded⟩ ↔
      struct.package = loaded ∧ struct.named ∈ loaded.package.scope.types ∧
        struct.named.isStruct = true ∧ struct.file = file.path := by
  intro loaded
  have nodup : loaded.package.scope.names.Nodup := Package.ofFiles_names_nodup dir files features
  unfold structsOf
  rw [LoadedPackage.scan?_ofResolution _ apart member]
  dsimp only
  rw [List.mem_filterMap]
  constructor
  · rintro ⟨name, _, found⟩
    obtain ⟨named, looked, chosen⟩ := Option.bind_eq_some_iff.mp found
    split at chosen
    next kept =>
      cases chosen
      rw [Bool.and_eq_true] at kept
      have inScope := ((Scope.lookup_eq_some_iff nodup).mp looked).1
      refine ⟨rfl, inScope, kept.1, ?_⟩
      obtain ⟨declared, first, rfl⟩ := Package.exists_declaration inScope
      have inside := (Package.mem_declarations (List.mem_of_find?_eq_some first)).1
      exact congrArg ParsedFile.path (apart _ inside _ member kept.2)
    next => cases chosen
  · rintro ⟨samePackage, inScope, isStruct, sameFile⟩
    obtain ⟨declared, first, same⟩ := Package.exists_declaration inScope
    obtain ⟨inside, listed⟩ := Package.mem_declarations (List.mem_of_find?_eq_some first)
    have own : declared.1 = file := by
      refine apart _ inside _ member (PathText.same_iff.mpr (congrArg PathText.components ?_))
      rw [← sameFile, StructDesc.file, ← same]
      rfl
    refine ⟨struct.named.name, mem_firsts.mpr ⟨?_, by simp⟩, ?_⟩
    · -- The winning declaration is one of a struct, so the scan has its name.
      rw [own] at listed
      rw [← same, Package.declaredType_isStruct] at isStruct
      refine List.mem_map.mpr ⟨declared.2, List.mem_filter.mpr ⟨listed, isStruct⟩, ?_⟩
      rw [← same]
      rfl
    · rw [(Scope.lookup_eq_some_iff nodup).mpr ⟨inScope, rfl⟩]
      have kept : (struct.named.isStruct && struct.named.file.same file.path) = true := by
        rw [isStruct, show struct.named.file = file.path from sameFile]
        simp [PathText.same]
      show (if _ then _ else _) = _
      rw [if_pos kept, ← samePackage]

/-- What the files of a package list together, each of them once. -/
def packageStructs (loaded : LoadedPackage) : List StructDesc :=
  loaded.package.files.eraseDups.flatMap fun file => structsOf ⟨file, loaded⟩

theorem mem_packageStructs_iff (apart : ToldApart files) {struct : StructDesc} :
    let loaded := LoadedPackage.ofResolution (.ofFiles dir files features) files
    struct ∈ packageStructs loaded ↔
      struct.package = loaded ∧ struct.named ∈ loaded.package.scope.types ∧
        struct.named.isStruct = true := by
  intro loaded
  unfold packageStructs
  rw [List.mem_flatMap]
  constructor
  · rintro ⟨path, listed, found⟩
    obtain ⟨file, member, rfl⟩ := List.mem_map.mp (List.mem_eraseDups.mp listed)
    obtain ⟨samePackage, inScope, isStruct, _⟩ := (mem_structsOf_iff apart member).mp found
    exact ⟨samePackage, inScope, isStruct⟩
  · rintro ⟨samePackage, inScope, isStruct⟩
    obtain ⟨declared, first, same⟩ := Package.exists_declaration inScope
    have inside := (Package.mem_declarations (List.mem_of_find?_eq_some first)).1
    refine ⟨declared.1.path, List.mem_eraseDups.mpr (List.mem_map_of_mem inside), ?_⟩
    refine (mem_structsOf_iff apart inside).mpr ⟨samePackage, inScope, isStruct, ?_⟩
    rw [StructDesc.file, ← same]
    rfl

theorem file_of_mem_structsOf (apart : ToldApart files) {path : PathText} {struct : StructDesc}
    (listed : path ∈ (Package.ofFiles dir files features).files.eraseDups)
    (found : struct ∈ structsOf ⟨path, .ofResolution (.ofFiles dir files features) files⟩) :
    struct.file = path := by
  obtain ⟨file, member, rfl⟩ := List.mem_map.mp (List.mem_eraseDups.mp listed)
  exact ((mem_structsOf_iff apart member).mp found).2.2.2

theorem packageStructs_nodup (apart : ToldApart files) :
    (packageStructs (.ofResolution (.ofFiles dir files features) files)).Nodup := by
  refine List.nodup_flatMap.mpr ⟨fun path _ => structsOf_nodup _, ?_⟩
  refine (nodup_eraseDups _).imp_of_mem fun listed listed' differ => ?_
  intro struct found found'
  exact differ ((file_of_mem_structsOf apart listed found).symm.trans
    (file_of_mem_structsOf apart listed' found'))

/-- Each struct type of the package is listed once, and nothing else is. -/
theorem packageStructs_perm (apart : ToldApart files) :
    let loaded := LoadedPackage.ofResolution (.ofFiles dir files features) files
    (packageStructs loaded).Perm
      ((loaded.package.scope.types.filter NamedType.isStruct).map
        fun named => ⟨named, loaded⟩) := by
  intro loaded
  have distinct : loaded.package.scope.types.Nodup :=
    (Package.ofFiles_names_nodup dir files features).of_map
  have nodup : ((loaded.package.scope.types.filter NamedType.isStruct).map fun named =>
      (⟨named, loaded⟩ : StructDesc)).Nodup :=
    (distinct.filter _).map fun _ _ same => congrArg StructDesc.named same
  refine (List.perm_ext_iff_of_nodup (packageStructs_nodup apart) nodup).mpr fun struct => ?_
  refine (mem_packageStructs_iff apart).trans ?_
  rw [List.mem_map]
  constructor
  · rintro ⟨samePackage, inScope, isStruct⟩
    exact ⟨struct.named, List.mem_filter.mpr ⟨inScope, isStruct⟩,
      by rw [show loaded = struct.package from samePackage.symm]⟩
  · rintro ⟨named, kept, rfl⟩
    obtain ⟨inScope, isStruct⟩ := List.mem_filter.mp kept
    exact ⟨rfl, inScope, isStruct⟩

end

/-! ### Loading one package -/

theorem takeUp_of_seen {package : LoadedPackage} {loader : Loader} {file : PathText}
    (seen : loader.hasSeen file = true) : takeUp package loader file = loader := by
  unfold takeUp
  rw [seen, Bool.or_true, if_pos rfl]

theorem takeUp_of_new {package : LoadedPackage} {loader : Loader} {file : PathText}
    (scanned : (package.scan? file).isSome = true) (new : loader.hasSeen file = false) :
    (takeUp package loader file).entries = loader.entries ++ [⟨file, package⟩] ∧
      (takeUp package loader file).seen = loader.seen ++ [file] := by
  unfold takeUp see
  rw [new, Option.isNone_eq_false_iff.mpr scanned]
  exact ⟨rfl, rfl⟩

theorem takeUpAll_of_seen {package : LoadedPackage} {loader : Loader} {files : List PathText}
    (seen : ∀ file ∈ files, loader.hasSeen file = true) :
    files.foldl (takeUp package) loader = loader := by
  induction files with
  | nil => rfl
  | cons file rest ih =>
    obtain ⟨first, others⟩ := List.forall_mem_cons.mp seen
    rw [List.foldl_cons, takeUp_of_seen first, ih others]

/-- A loader that has seen nothing takes up all files of a package. -/
theorem takeUpAll_of_fresh {package : LoadedPackage} {loader : Loader}
    (noEntries : loader.entries = []) (noSeen : loader.seen = []) {files : List PathText}
    (scanned : ∀ file ∈ files, (package.scan? file).isSome = true)
    (apart : ∀ file ∈ files, ∀ other ∈ files, file.same other = true → file = other) :
    (files.foldl (takeUp package) loader).entries = files.eraseDups.map (⟨·, package⟩) ∧
      (files.foldl (takeUp package) loader).seen = files.eraseDups := by
  -- From the end, since what a loader does with a file depends on those before it.
  induction files using List.reverseRecOn with
  | nil => exact ⟨noEntries, noSeen⟩
  | append_singleton files file ih =>
    obtain ⟨entries, seen⟩ := ih (fun other member => scanned other (by simp [member]))
      fun other member another member' =>
        apart other (by simp [member]) another (by simp [member'])
    have known : (files.foldl (takeUp package) loader).hasSeen file = true ↔ file ∈ files := by
      rw [hasSeen_iff, seen]
      constructor
      · rintro ⟨other, listed, same⟩
        have member := List.mem_eraseDups.mp listed
        rwa [← apart other (by simp [member]) file (by simp) (PathText.same_iff.mpr same)]
      · exact fun member => ⟨file, List.mem_eraseDups.mpr member, rfl⟩
    rw [List.foldl_append, List.foldl_cons, List.foldl_nil, eraseDups_concat]
    cases repeated : (files.foldl (takeUp package) loader).hasSeen file with
    | true =>
      rw [takeUp_of_seen repeated, if_pos (known.mp repeated)]
      exact ⟨entries, seen⟩
    | false =>
      have new : file ∉ files := fun member => by simp [known.mpr member] at repeated
      rw [if_neg new, List.map_append, List.map_singleton, ← entries, ← seen]
      exact takeUp_of_new (scanned file (by simp)) repeated

/-- A file that is answered with packages seen before has been seen itself, and that is all. -/
theorem loadFile_of_seen_packages {provider : Provider} {resolution : Resolution}
    {loader : Loader} {file : PathText}
    (answered : provider loader.asked.length file = .ok resolution)
    (single : resolution.packages.length ≤ 1)
    (seen : ∀ package ∈ resolution.packages, ∀ member ∈ package.files,
      loader.hasSeen member = true) :
    loader.loadFile provider file =
      (see { loader with asked := file :: loader.asked } file, .ok ()) := by
  let asked : Loader := { loader with asked := file :: loader.asked }
  rw [loadFile, answered]
  rcases resolution with ⟨_ | ⟨package, _ | ⟨second, others⟩⟩, built⟩
  · rfl
  · have taken : package.files.foldl (takeUp (.ofResolution package built)) asked = asked :=
      takeUpAll_of_seen (seen package List.mem_cons_self)
    show (see (package.files.foldl (takeUp (.ofResolution package built)) asked) file, _) = _
    rw [taken]
  · simp at single

/-- Files that are all answered with packages seen before leave no entries. -/
theorem loadFiles_of_seen_packages {provider : Provider} {resolution : Resolution}
    {files : List PathText} {loader : Loader}
    (answered : ∀ count, ∀ file ∈ files, provider count file = .ok resolution)
    (single : resolution.packages.length ≤ 1)
    (seen : ∀ package ∈ resolution.packages, ∀ member ∈ package.files,
      loader.hasSeen member = true) :
    (loader.loadFiles provider files).1.entries = loader.entries := by
  induction files generalizing loader with
  | nil => rfl
  | cons file rest ih =>
    have later := fun count other (member : other ∈ rest) =>
      answered count other (List.mem_cons_of_mem _ member)
    unfold loadFiles
    split
    · exact ih later seen
    · let asked : Loader := { loader with asked := file :: loader.asked }
      rw [loadFile_of_seen_packages (answered _ file List.mem_cons_self) single seen]
      dsimp only
      rw [ih later fun package answer member listed =>
        (see_grows asked file).hasSeen (seen package answer member listed)]
      exact see_entries asked file

/-- The first file that a loader asks about brings in all files of the package. -/
theorem loadFile_of_fresh {provider : Provider} {package : Package} {built : List ParsedFile}
    {loader : Loader} (noEntries : loader.entries = []) (noSeen : loader.seen = [])
    {file : PathText} (answered : provider loader.asked.length file = .ok ⟨[package], built⟩)
    (members : package.files = built.map ParsedFile.path) (apart : ToldApart built) :
    ∃ taken, loader.loadFile provider file = (see taken file, .ok ()) ∧
      taken.entries = package.files.eraseDups.map (⟨·, .ofResolution package built⟩) ∧
      taken.seen = package.files.eraseDups := by
  have scanned : ∀ member ∈ package.files,
      ((LoadedPackage.ofResolution package built).scan? member).isSome = true := by
    rw [members]
    intro path listed
    obtain ⟨parsed, inside, rfl⟩ := List.mem_map.mp listed
    rw [LoadedPackage.scan?_ofResolution package apart inside]
    rfl
  have distinct : ∀ path ∈ package.files, ∀ other ∈ package.files,
      path.same other = true → path = other := by
    rw [members]
    intro path listed other listed' same
    obtain ⟨parsed, inside, rfl⟩ := List.mem_map.mp listed
    obtain ⟨parsed', inside', rfl⟩ := List.mem_map.mp listed'
    rw [apart parsed inside parsed' inside' same]
  let asked : Loader := { loader with asked := file :: loader.asked }
  have fresh : asked.entries = [] ∧ asked.seen = [] := ⟨noEntries, noSeen⟩
  refine ⟨package.files.foldl (takeUp (.ofResolution package built)) asked, ?_,
    takeUpAll_of_fresh fresh.1 fresh.2 scanned distinct⟩
  rw [loadFile, answered]
  rfl

/-- A new loader has all files of the package after its first question, and no others later. -/
theorem loadFiles_of_fresh {provider : Provider} {package : Package} {built : List ParsedFile}
    {files : List PathText} (nonempty : files ≠ [])
    (answered : ∀ count, ∀ file ∈ files, provider count file = .ok ⟨[package], built⟩)
    (members : package.files = built.map ParsedFile.path) (apart : ToldApart built) :
    (loadFiles provider {} files).1.entries =
      package.files.eraseDups.map (⟨·, .ofResolution package built⟩) := by
  obtain ⟨file, rest, rfl⟩ := List.exists_cons_of_ne_nil nonempty
  have fresh : Loader.entries {} = [] ∧ Loader.seen {} = [] := ⟨rfl, rfl⟩
  obtain ⟨taken, step, entries, seen⟩ :=
    loadFile_of_fresh fresh.1 fresh.2 (answered _ file List.mem_cons_self) members apart
  have all : ∀ other ∈ [package], ∀ member ∈ other.files,
      (taken.see file).hasSeen member = true := by
    rw [List.forall_mem_singleton]
    intro member listed
    refine (see_grows taken file).hasSeen (hasSeen_iff.mpr ⟨member, ?_, rfl⟩)
    rw [seen]
    exact List.mem_eraseDups.mpr listed
  unfold loadFiles
  rw [if_neg (by simp [hasSeen]), step]
  dsimp only
  rw [loadFiles_of_seen_packages
    (fun count other member => answered count other (List.mem_cons_of_mem _ member)) le_rfl all,
    see_entries, entries]

/-! ### Loading a directory -/

/-- What is listed of a resolved file's package: its struct types, each once, by the files of the
package in their order. A struct comes from the file of its winning declaration. -/
structure ListsStructs (features : List String) (resolution : Resolution)
    (structs : List StructDesc) : Prop where
  exact : structs.Perm (resolution.packages.flatMap fun package =>
    (package.scope.types.filter NamedType.isStruct).map fun named =>
      ⟨named, .ofResolution package resolution.files⟩)
  once : (structs.map StructDesc.name).Nodup
  grouped : structs = (resolution.packages.flatMap Package.files).eraseDups.flatMap fun file =>
    structs.filter (·.file = file)
  winning : ∀ struct ∈ structs, ∃ file decl,
    (Package.declarations features resolution.files).find? (·.2.name = struct.name) =
        some (file, decl) ∧ decl.isStruct = true ∧ struct.file = file.path

theorem listsStructs_nil (features : List String) (files : List ParsedFile) :
    ListsStructs features ⟨[], files⟩ [] :=
  ⟨.nil, List.nodup_nil, rfl, (List.forall_mem_nil _)⟩

theorem listsStructs_package (dir : PathText) (features : List String) {files : List ParsedFile}
    (apart : ToldApart files) :
    ListsStructs features ⟨[.ofFiles dir files features], files⟩
      (packageStructs (.ofResolution (.ofFiles dir files features) files)) := by
  have exact := @packageStructs_perm dir files features apart
  refine ⟨?_, ?_, ?_, ?_⟩
  · rw [List.flatMap_singleton]
    exact exact
  · rw [(exact.map StructDesc.name).nodup_iff, List.map_map]
    exact (Package.ofFiles_names_nodup dir files features).sublist
      (List.filter_sublist.map NamedType.name)
  · rw [List.flatMap_singleton]
    refine List.flatMap_congr fun path listed => ?_
    exact (filter_flatMap_key (nodup_eraseDups _)
      (fun _ listed _ found => file_of_mem_structsOf apart listed found) listed).symm
  · intro struct listed
    obtain ⟨_, inScope, isStruct⟩ := (mem_packageStructs_iff apart).mp listed
    obtain ⟨⟨file, decl⟩, first, same⟩ := Package.exists_declaration inScope
    rw [← same, Package.declaredType_isStruct] at isStruct
    exact ⟨file, decl, first, isStruct, by rw [StructDesc.file, ← same]; rfl⟩

variable {tree : FileTree}

/-- A new loader that has loaded a directory lists the structs of its package, which is what every
source file of the directory is resolved to. -/
theorem structs_of_loaded_directory (wellNamed : tree.WellNamed) (features : List String)
    (path : PathText) (done : (parse tree (.ofTree tree features) {} path).2 = .ok ()) :
    ∃ files resolution, tree.eligibleFiles (directoryOf tree path) = .ok files ∧
      (∀ file ∈ files, tree.resolveFile features file = .ok resolution) ∧
      (files = [] → resolution.packages = []) ∧
      ListsStructs features resolution (parse tree (.ofTree tree features) {} path).1.structs := by
  cases listed : tree.eligibleFiles (directoryOf tree path) with
  | error refused => simp [parse, listed] at done
  | ok files =>
    have loaded : parse tree (.ofTree tree features) {} path =
        loadFiles (.ofTree tree features) {} files := by
      simp only [parse, listed]
    rw [loaded] at done ⊢
    obtain ⟨parent, names, relisted⟩ := FileTree.exists_relisted wellNamed listed
    obtain rfl : names.map (fun name => (directoryOf tree path).join ⟨name⟩) = files := by
      rw [relisted.listed] at listed
      exact Except.ok.inj listed
    rcases relisted.resolveFile_cases features with
      ⟨nonempty, diagnostic, refused⟩ | ⟨built, apart, noFiles, answered⟩
    · -- A new loader has seen no file, so the first one would have ended the call.
      obtain ⟨name, rest, rfl⟩ := List.exists_cons_of_ne_nil nonempty
      have call : loadFiles (.ofTree tree features) {} _ = _ :=
        loadFiles_of_refused fun _ => refused
      rw [call] at done
      simp [hasSeen] at done
    · refine ⟨_, _, rfl, answered, fun none => ?_, ?_⟩
      · rw [noFiles (List.map_eq_nil_iff.mp none)]
        rfl
      · cases built with
        | nil =>
          have entries : (loadFiles (.ofTree tree features) {} _).1.entries = [] :=
            loadFiles_of_seen_packages (fun _ => answered) (Nat.zero_le 1) (List.forall_mem_nil _)
          rw [structs, entries]
          exact listsStructs_nil features []
        | cons file rest =>
          have nonempty : names ≠ [] := fun none => List.cons_ne_nil file rest (noFiles none)
          have entries : (loadFiles (.ofTree tree features) {} _).1.entries = _ :=
            loadFiles_of_fresh (mt List.map_eq_nil_iff.mp nonempty) (fun _ => answered) rfl apart
          have listing := listsStructs_package parent features apart
          rw [structs, entries, List.flatMap_map]
          exact listing

/-- Two files that declare the same names. In the first the struct `A` is not built, `B` is an enum
and `C` is declared twice, so that the second file keeps `A` only. -/
theorem alternate_declarations_listed_once :
    let tree : FileTree := ⟨.dir [("p", .dir [
      ("b.rs", .file (some "struct A; struct B; struct C;")),
      ("a.rs", .file (some "#[cfg(test)] struct A; enum B \x7b\x7d struct C; struct C;"))])], []⟩
    let call := parse tree (.ofTree tree []) {} ⟨"p"⟩
    tree.WellNamed ∧ call.2 = .ok () ∧
      (call.1.structs.map fun struct => (struct.name, struct.file.text)) =
        [("C", "p/a.rs"), ("A", "p/b.rs")] ∧
      ∃ resolution, ListsStructs [] resolution call.1.structs := by
  intro tree call
  have wellNamed : tree.WellNamed := by
    have package : FileNode.WellNamed (.dir [
        ("b.rs", .file (some "struct A; struct B; struct C;")),
        ("a.rs", .file (some "#[cfg(test)] struct A; enum B \x7b\x7d struct C; struct C;"))]) :=
      FileNode.wellNamed_dir (by
        simp only [List.forall_mem_cons, FileNode.wellNamed_file, and_true]
        exact ⟨⟨by decide, by decide⟩, ⟨by decide, by decide⟩, by simp⟩)
    exact FileNode.wellNamed_dir (by simpa using ⟨⟨by decide, by decide⟩, package⟩)
  have ran : (call.2, call.1.structs.map fun struct => (struct.name, struct.file.text)) =
      (.ok (), [("C", "p/a.rs"), ("A", "p/b.rs")]) := by decide +kernel
  obtain ⟨done, shown⟩ := Prod.mk.inj ran
  obtain ⟨_, resolution, _, _, _, lists⟩ := structs_of_loaded_directory wellNamed [] ⟨"p"⟩ done
  exact ⟨wellNamed, done, shown, resolution, lists⟩

end Loader

end StructInventory
