import Mathlib.Data.List.Find
import StructInventory.Proofs.DirectoryListing
import StructInventory.Proofs.LoaderRun

/-!
Loading a directory of a tree fails as a whole. All source files of a directory have the same
answer, since the provider reads all of them for each; so the first file that has not been seen
decides, and when it is refused nothing has been taken up. It is refused just when some source file
of the directory is bad, and the diagnostic names the first such file.
-/

namespace StructInventory

namespace FileTree

variable {tree : FileTree}

/-- A file that cannot be read as text, or whose text is no source file. -/
def isBad (tree : FileTree) (file : PathText) : Bool :=
  match tree.readText file with
  | .error _ => true
  | .ok text =>
    match SourceFile.read (dropMark text) with
    | .error _ => true
    | .ok _ => false

/-- The fault of a bad file is reported with its path. -/
theorem parseFile_of_isBad {file : PathText} (bad : tree.isBad file = true) :
    ∃ fault, tree.parseFile file = .error ⟨file, fault⟩ := by
  cases held : tree.readText file with
  | error error => exact ⟨.file error, by simp only [parseFile, held]⟩
  | ok text =>
    cases read : SourceFile.read (dropMark text) with
    | error pos => exact ⟨.grammar pos, by simp only [parseFile, held, read]⟩
    | ok source => simp [isBad, held, read] at bad

theorem parseFile_of_not_isBad {file : PathText} (good : tree.isBad file = false) :
    ∃ parsed, tree.parseFile file = .ok parsed := by
  cases held : tree.readText file with
  | error error => simp [isBad, held] at good
  | ok text =>
    cases read : SourceFile.read (dropMark text) with
    | error pos => simp [isBad, held, read] at good
    | ok source => exact ⟨⟨file, dropMark text, source⟩, by simp only [parseFile, held, read]⟩

/-- Files are parsed up to the first bad one. -/
theorem mapM_parseFile_of_bad {files : List PathText} {bad : PathText}
    (first : files.find? tree.isBad = some bad) :
    ∃ fault, files.mapM tree.parseFile = .error ⟨bad, fault⟩ := by
  induction files with
  | nil => cases first
  | cons file rest ih =>
    rw [List.find?_cons] at first
    rw [List.mapM_cons]
    cases isBad : tree.isBad file with
    | true =>
      rw [isBad] at first
      obtain rfl : file = bad := Option.some.inj first
      obtain ⟨fault, refused⟩ := parseFile_of_isBad isBad
      exact ⟨fault, by rw [refused]; rfl⟩
    | false =>
      rw [isBad] at first
      obtain ⟨parsed, read⟩ := parseFile_of_not_isBad isBad
      obtain ⟨fault, refused⟩ := ih first
      exact ⟨fault, by rw [read, refused]; rfl⟩

theorem mapM_parseFile_of_good {files : List PathText}
    (good : ∀ file ∈ files, tree.isBad file = false) :
    ∃ parsed, files.mapM tree.parseFile = .ok parsed := by
  induction files with
  | nil => exact ⟨[], rfl⟩
  | cons file rest ih =>
    obtain ⟨first, others⟩ := List.forall_mem_cons.mp good
    obtain ⟨parsed, read⟩ := parseFile_of_not_isBad first
    obtain ⟨more, readMore⟩ := ih others
    exact ⟨parsed :: more, by rw [List.mapM_cons, read, readMore]; rfl⟩

/-- Files that have all been parsed, taken apart at the first. -/
theorem exists_of_mapM_cons {path : PathText} {rest : List PathText} {files : List ParsedFile}
    (parsed : (path :: rest).mapM tree.parseFile = .ok files) :
    ∃ file others, tree.parseFile path = .ok file ∧ rest.mapM tree.parseFile = .ok others ∧
      files = file :: others := by
  rw [List.mapM_cons] at parsed
  cases first : tree.parseFile path with
  | error diagnostic => simp [first, bind, Except.bind] at parsed
  | ok file =>
    cases later : rest.mapM tree.parseFile with
    | error diagnostic => simp [first, later, bind, Except.bind] at parsed
    | ok others =>
      rw [first, later] at parsed
      cases parsed
      exact ⟨file, others, rfl, rfl, rfl⟩

theorem isBad_congr {file file' : PathText} (same : tree.node file = tree.node file') :
    tree.isBad file = tree.isBad file' := by
  simp only [isBad, readText, same]

theorem resolveFile_eq {file parent : PathText} (within : file.directory = parent)
    {files : List PathText} (listed : tree.eligibleFiles parent = .ok files)
    (features : List String) :
    tree.resolveFile features file = do
      let built ← tree.parseFiles features files
      return ⟨if built.isEmpty then [] else [Package.ofFiles parent built features], built⟩ := by
  simp only [resolveFile, within, listed]

namespace Relisted

variable {dir parent : PathText} {names : List String}

/-- With a bad file in the directory, every file is refused for the first one. -/
theorem resolveFile_of_bad (relisted : Relisted tree dir parent names) (features : List String)
    {bad : PathText}
    (first : (names.map fun name => dir.join ⟨name⟩).find? tree.isBad = some bad) :
    ∃ diagnostic, diagnostic.path.same bad = true ∧
      ∀ file ∈ names.map fun name => dir.join ⟨name⟩,
        tree.resolveFile features file = .error diagnostic := by
  rw [List.find?_map] at first
  obtain ⟨name, found, rfl⟩ := Option.map_eq_some_iff.mp first
  have member : name ∈ names := List.mem_of_find?_eq_some found
  have again : (names.map fun name => parent.join ⟨name⟩).find? tree.isBad =
      some (parent.join ⟨name⟩) := by
    rw [List.find?_map, Option.map_eq_some_iff]
    refine ⟨name, ?_, rfl⟩
    rw [← found]
    exact List.find?_congr fun other listed => isBad_congr (relisted.node other listed)
  obtain ⟨fault, refused⟩ := mapM_parseFile_of_bad again
  refine ⟨⟨parent.join ⟨name⟩, fault⟩, PathText.same_iff.mpr (relisted.same name member), ?_⟩
  intro file listed
  obtain ⟨other, chosen, rfl⟩ := List.mem_map.mp listed
  rw [resolveFile_eq (relisted.directory other chosen) relisted.again, parseFiles, refused]
  rfl

/-- Without a bad file, every file is answered, with one package or none. -/
theorem resolveFile_of_good (relisted : Relisted tree dir parent names) (features : List String)
    (good : ∀ file ∈ names.map fun name => dir.join ⟨name⟩, tree.isBad file = false) :
    ∃ resolution : Resolution, resolution.packages.length ≤ 1 ∧
      ∀ file ∈ names.map fun name => dir.join ⟨name⟩,
        tree.resolveFile features file = .ok resolution := by
  have again : ∀ file ∈ names.map fun name => parent.join ⟨name⟩, tree.isBad file = false := by
    intro file listed
    obtain ⟨name, chosen, rfl⟩ := List.mem_map.mp listed
    rw [isBad_congr (relisted.node name chosen)]
    exact good _ (List.mem_map_of_mem chosen)
  obtain ⟨parsed, read⟩ := mapM_parseFile_of_good again
  let built := parsed.filter fun file => Condition.enabled features file.source.conditions
  have answer : ∀ file ∈ names.map fun name => dir.join ⟨name⟩, tree.resolveFile features file =
      .ok ⟨if built.isEmpty then [] else [Package.ofFiles parent built features], built⟩ := by
    intro file listed
    obtain ⟨other, chosen, rfl⟩ := List.mem_map.mp listed
    rw [resolveFile_eq (relisted.directory other chosen) relisted.again, parseFiles, read]
    rfl
  refine ⟨_, ?_, answer⟩
  split <;> simp

end Relisted

end FileTree

namespace Loader

/-! ### One answer for all files -/

variable {provider : Provider}

/-- If all files are refused, then the first one that has not been seen is, and nothing is taken
up. -/
theorem loadFiles_of_refused {loader : Loader} {files : List PathText} {diagnostic : Diagnostic}
    (refused : ∀ count, ∀ file ∈ files, provider count file = .error diagnostic) :
    loader.loadFiles provider files =
      match files.find? fun file => !loader.hasSeen file with
      | some file =>
        ({ loader with asked := file :: loader.asked }, .error (.resolution file diagnostic))
      | none => (loader, .ok ()) := by
  induction files with
  | nil => rfl
  | cons file rest ih =>
    unfold loadFiles
    rw [List.find?_cons]
    -- Files that have been seen are passed over; the first other one is refused.
    cases seen : loader.hasSeen file with
    | true => simpa using ih fun count other member => refused count other (by simp [member])
    | false =>
      have answer := refused loader.asked.length file List.mem_cons_self
      simp [loadFile, answer, accept]

theorem loadFiles_of_answered {loader : Loader} {files : List PathText} {resolution : Resolution}
    (single : resolution.packages.length ≤ 1)
    (answered : ∀ count, ∀ file ∈ files, provider count file = .ok resolution) :
    (loader.loadFiles provider files).2 = .ok () := by
  induction files generalizing loader with
  | nil => rfl
  | cons file rest ih =>
    have later := fun count other (member : other ∈ rest) =>
      answered count other (List.mem_cons_of_mem _ member)
    unfold loadFiles
    split
    · exact ih later
    · have answer := answered loader.asked.length file List.mem_cons_self
      have done : (loader.loadFile provider file).2 = .ok () := by
        rw [loadFile, answer]
        obtain ⟨_ | ⟨package, _ | ⟨other, more⟩⟩, built⟩ := resolution
        · rfl
        · rfl
        · simp at single
      split
      next next step => exact ih later
      next next error step =>
        rw [step] at done
        cases done

/-! ### Questions leave no trace -/

/-- A loader without the record of its questions. -/
def forget (loader : Loader) : Loader := { loader with asked := [] }

theorem forget_see (loader : Loader) (file : PathText) :
    (loader.see file).forget = loader.forget.see file := by
  unfold see hasSeen forget
  split <;> rfl

theorem forget_takeUp (package : LoadedPackage) (loader : Loader) (file : PathText) :
    (takeUp package loader file).forget = takeUp package loader.forget file := by
  unfold takeUp
  have seen : loader.forget.hasSeen file = loader.hasSeen file := rfl
  rw [seen]
  split
  · rfl
  · rw [← forget_see]
    rfl

theorem forget_takeUpAll (package : LoadedPackage) (files : List PathText) (loader : Loader) :
    (files.foldl (takeUp package) loader).forget = files.foldl (takeUp package) loader.forget := by
  induction files generalizing loader with
  | nil => rfl
  | cons file rest ih => rw [List.foldl_cons, ih, forget_takeUp, List.foldl_cons]

theorem forget_accept (loader : Loader) (file : PathText) (answer : Except Diagnostic Resolution) :
    (loader.accept file answer).1.forget = (loader.forget.accept file answer).1 ∧
      (loader.accept file answer).2 = (loader.forget.accept file answer).2 := by
  unfold accept
  split
  · exact ⟨rfl, rfl⟩
  · exact ⟨forget_see loader file, rfl⟩
  · exact ⟨by rw [forget_see, forget_takeUpAll], rfl⟩
  · exact ⟨rfl, rfl⟩

/-- What a tree's files are loaded as does not depend on the questions before. -/
theorem loadFiles_congr {tree : FileTree} {features : List String} (files : List PathText)
    {loader other : Loader} (same : loader.forget = other.forget) :
    (loader.loadFiles (.ofTree tree features) files).1.forget =
        (other.loadFiles (.ofTree tree features) files).1.forget ∧
      (loader.loadFiles (.ofTree tree features) files).2 =
        (other.loadFiles (.ofTree tree features) files).2 := by
  induction files generalizing loader other with
  | nil => exact ⟨same, rfl⟩
  | cons file rest ih =>
    have seen : loader.hasSeen file = other.hasSeen file := by
      have : loader.forget.hasSeen file = other.forget.hasSeen file := by rw [same]
      exact this
    unfold loadFiles
    rw [seen]
    split
    · exact ih same
    · -- Both are asked the same question and take the answer in the same way.
      have first := forget_accept { loader with asked := file :: loader.asked } file
        (tree.resolveFile features file)
      have second := forget_accept { other with asked := file :: other.asked } file
        (tree.resolveFile features file)
      have alike : forget { loader with asked := file :: loader.asked } =
          forget { other with asked := file :: other.asked } := same
      rw [alike, ← second.1, ← second.2] at first
      change _ ∧ (loader.loadFile (.ofTree tree features) file).2 =
        (other.loadFile (.ofTree tree features) file).2 at first
      change (loader.loadFile (.ofTree tree features) file).1.forget =
        (other.loadFile (.ofTree tree features) file).1.forget ∧ _ at first
      obtain ⟨held, outcome⟩ := first
      rcases step : loader.loadFile (.ofTree tree features) file with ⟨next, _ | _⟩ <;>
        rcases step' : other.loadFile (.ofTree tree features) file with ⟨next', _ | _⟩ <;>
        simp only [step, step'] at held outcome ⊢
      · exact ⟨held, outcome⟩
      · cases outcome
      · cases outcome
      · exact ih held

theorem parse_congr {tree : FileTree} {features : List String} (path : PathText)
    {loader other : Loader} (same : loader.forget = other.forget) :
    (loader.parse tree (.ofTree tree features) path).1.forget =
        (other.parse tree (.ofTree tree features) path).1.forget ∧
      (loader.parse tree (.ofTree tree features) path).2 =
        (other.parse tree (.ofTree tree features) path).2 := by
  unfold parse
  dsimp only
  split
  · exact ⟨same, rfl⟩
  next files _ => exact loadFiles_congr files same

theorem forget_eq_iff {loader other : Loader} :
    loader.forget = other.forget ↔ loader.entries = other.entries ∧ loader.seen = other.seen := by
  simp [forget]

/-! ### Loading from a tree -/

variable {tree : FileTree} {dir parent : PathText} {names : List String}

/-- How the source files of a directory are loaded: they are refused together, at the first that
has not been seen, or none is. -/
theorem loadFiles_relisted (relisted : tree.Relisted dir parent names) (features : List String)
    (loader : Loader) :
    let files := names.map fun name => dir.join ⟨name⟩
    (∃ file bad diagnostic, files.find? (fun file => !loader.hasSeen file) = some file ∧
        files.find? tree.isBad = some bad ∧ diagnostic.path.same bad = true ∧
        loader.loadFiles (.ofTree tree features) files =
          ({ loader with asked := file :: loader.asked }, .error (.resolution file diagnostic))) ∨
      ((files.find? (fun file => !loader.hasSeen file) = none ∨ files.find? tree.isBad = none) ∧
        (loader.loadFiles (.ofTree tree features) files).2 = .ok ()) := by
  intro files
  cases found : files.find? tree.isBad with
  | none =>
    have good : ∀ file ∈ files, tree.isBad file = false := by
      simpa using List.find?_eq_none.mp found
    obtain ⟨resolution, single, answered⟩ := relisted.resolveFile_of_good features good
    exact .inr ⟨.inr rfl, loadFiles_of_answered single fun _ => answered⟩
  | some bad =>
    obtain ⟨diagnostic, named, refused⟩ := relisted.resolveFile_of_bad features found
    have loaded : loader.loadFiles (.ofTree tree features) files = _ :=
      loadFiles_of_refused fun _ => refused
    cases unseen : files.find? fun file => !loader.hasSeen file with
    | none => exact .inr ⟨.inl rfl, by rw [loaded, unseen]⟩
    | some file => exact .inl ⟨file, bad, diagnostic, rfl, rfl, named, by rw [loaded, unseen]⟩

/-- What a call on a tree comes to: the directory cannot be listed, or its source files are refused
together, or all of them are loaded. -/
theorem parse_cases (wellNamed : tree.WellNamed) (features : List String) (loader : Loader)
    (path : PathText) :
    (∃ refused, tree.eligibleFiles (directoryOf tree path) = .error refused ∧
      loader.parse tree (.ofTree tree features) path =
        (loader, .error (.list (directoryOf tree path) refused))) ∨
    ∃ (files : List PathText) (names : List String),
      tree.eligibleFiles (directoryOf tree path) = .ok files ∧
      files.map PathText.fileName? = names.map some ∧
      names.Pairwise (fun name other => name ≤ other) ∧
      ((∃ file bad diagnostic, files.find? (fun file => !loader.hasSeen file) = some file ∧
          files.find? tree.isBad = some bad ∧ diagnostic.path.same bad = true ∧
          loader.parse tree (.ofTree tree features) path =
            ({ loader with asked := file :: loader.asked }, .error (.resolution file diagnostic))) ∨
        ((files.find? (fun file => !loader.hasSeen file) = none ∨ files.find? tree.isBad = none) ∧
          (loader.parse tree (.ofTree tree features) path).2 = .ok ())) := by
  cases listed : tree.eligibleFiles (directoryOf tree path) with
  | error refused => exact .inl ⟨refused, rfl, by simp only [parse, listed]⟩
  | ok files =>
    -- The provider lists the directory again, under another path, for each of its files.
    obtain ⟨parent, names, relisted⟩ := FileTree.exists_relisted wellNamed listed
    obtain rfl := relisted.files_eq listed
    have loaded : loader.parse tree (.ofTree tree features) path =
        loader.loadFiles (.ofTree tree features)
          (names.map fun name => (directoryOf tree path).join ⟨name⟩) := by
      simp only [parse, relisted.listed]
    have ordered : (names.map fun name => (directoryOf tree path).join ⟨name⟩).map
        PathText.fileName? = names.map some := by
      rw [List.map_map]
      exact List.map_congr_left relisted.fileName
    rw [loaded]
    exact .inr ⟨_, names, rfl, ordered, relisted.inOrder, loadFiles_relisted relisted features loader⟩

theorem parse_failed_keeps (wellNamed : tree.WellNamed) {features : List String} {loader : Loader}
    {path : PathText} {error : InventoryError}
    (failed : (loader.parse tree (.ofTree tree features) path).2 = .error error) :
    (loader.parse tree (.ofTree tree features) path).1.entries = loader.entries ∧
      (loader.parse tree (.ofTree tree features) path).1.seen = loader.seen := by
  rcases parse_cases wellNamed features loader path with
    ⟨_, _, call⟩ | ⟨_, _, _, _, _, ⟨_, _, _, _, _, _, call⟩ | ⟨_, done⟩⟩
  · simp [call]
  · simp [call]
  · rw [done] at failed
    cases failed

theorem parse_refused_iff (wellNamed : tree.WellNamed) (features : List String) (loader : Loader)
    (path : PathText) :
    (∃ file diagnostic, (loader.parse tree (.ofTree tree features) path).2 =
        .error (.resolution file diagnostic)) ↔
      ∃ files, tree.eligibleFiles (directoryOf tree path) = .ok files ∧
        (∃ file ∈ files, loader.hasSeen file = false) ∧ ∃ file ∈ files, tree.isBad file = true := by
  rcases parse_cases wellNamed features loader path with ⟨refused, unlisted, call⟩ |
    ⟨files, _, listed, _, _, ⟨file, bad, diagnostic, unseen, isBad, _, call⟩ | ⟨harmless, done⟩⟩
  · simp [call, unlisted]
  · rw [call]
    refine ⟨fun _ => ⟨files, listed, ?_, ?_⟩, fun _ => ⟨file, diagnostic, rfl⟩⟩
    · exact ⟨file, List.mem_of_find?_eq_some unseen, by simpa using List.find?_some unseen⟩
    · exact ⟨bad, List.mem_of_find?_eq_some isBad, List.find?_some isBad⟩
  · rw [done, listed]
    constructor
    · rintro ⟨_, _, impossible⟩
      cases impossible
    · rintro ⟨_, same, ⟨file, member, unseen⟩, ⟨bad, member', isBad⟩⟩
      cases same
      rcases harmless with none | none
      · have := List.find?_eq_none.mp none file member
        simp [unseen] at this
      · exact absurd isBad (List.find?_eq_none.mp none bad member')

/-- A call that fails leaves the files and what has been seen as they were, so that any later call,
on any tree, ends as it would have without it. It fails on a package just when the directory can be
listed, one of its source files has not been seen and one is bad. Of both kinds it then names the
first in the order of file names. -/
theorem failed_parse_changes_nothing (wellNamed : tree.WellNamed) (features : List String)
    (loader : Loader) (path : PathText) :
    let call := loader.parse tree (.ofTree tree features) path
    (∀ error, call.2 = .error error →
      call.1.entries = loader.entries ∧ call.1.seen = loader.seen ∧
        ∀ (repaired : FileTree) (chosen : List String) (later : PathText),
          let after := call.1.parse repaired (.ofTree repaired chosen) later
          let without := loader.parse repaired (.ofTree repaired chosen) later
          after.2 = without.2 ∧ after.1.entries = without.1.entries ∧
            after.1.seen = without.1.seen) ∧
    ((∃ file diagnostic, call.2 = .error (.resolution file diagnostic)) ↔
      ∃ files, tree.eligibleFiles (directoryOf tree path) = .ok files ∧
        (∃ file ∈ files, loader.hasSeen file = false) ∧ ∃ file ∈ files, tree.isBad file = true) ∧
    ∀ file diagnostic, call.2 = .error (.resolution file diagnostic) →
      ∃ (files : List PathText) (bad : PathText) (ordered : List String),
        tree.eligibleFiles (directoryOf tree path) = .ok files ∧
        files.map PathText.fileName? = ordered.map some ∧
        ordered.Pairwise (fun name other => name ≤ other) ∧
        files.find? (fun file => !loader.hasSeen file) = some file ∧
        files.find? tree.isBad = some bad ∧ diagnostic.path.same bad = true := by
  intro call
  refine ⟨fun error failed => ?_, parse_refused_iff wellNamed features loader path, ?_⟩
  · obtain ⟨entries, seen⟩ := parse_failed_keeps wellNamed failed
    refine ⟨entries, seen, fun repaired chosen later => ?_⟩
    obtain ⟨alike, outcome⟩ := parse_congr later (forget_eq_iff.mpr ⟨entries, seen⟩)
    exact ⟨outcome, forget_eq_iff.mp alike⟩
  · intro file diagnostic failed
    rcases parse_cases wellNamed features loader path with ⟨_, _, ended⟩ |
      ⟨files, names, listed, ordered, inOrder, ⟨_, bad, _, unseen, isBad, named, ended⟩ | ⟨_, done⟩⟩
    · rw [show call = _ from ended] at failed
      cases failed
    · rw [show call = _ from ended] at failed
      cases failed
      exact ⟨files, bad, names, listed, ordered, inOrder, unseen, isBad, named⟩
    · rw [show call.2 = _ from done] at failed
      cases failed

/-- A directory whose second source file is no text: loading it fails at the first. -/
theorem bad_neighbour_fails_first :
    let tree : FileTree :=
      ⟨.dir [("p", .dir [("b.rs", .file none), ("a.rs", .file (some ""))])], []⟩
    tree.WellNamed ∧
      (∃ diagnostic, (Loader.parse tree (.ofTree tree []) {} ⟨"p"⟩).2 =
        .error (.resolution ⟨"p/a.rs"⟩ diagnostic)) ∧
      ∀ file diagnostic, (Loader.parse tree (.ofTree tree []) {} ⟨"p"⟩).2 =
          .error (.resolution file diagnostic) →
        ∃ bad, diagnostic.path.same bad = true ∧ tree.isBad bad = true := by
  intro tree
  have wellNamed : tree.WellNamed := by
    have package : FileNode.WellNamed (.dir [("b.rs", .file none), ("a.rs", .file (some ""))]) :=
      FileNode.wellNamed_dir (by
        simp only [List.forall_mem_cons, FileNode.wellNamed_file, and_true]
        exact ⟨⟨by decide, by decide⟩, ⟨by decide, by decide⟩, by simp⟩)
    exact FileNode.wellNamed_dir (by simpa using ⟨⟨by decide, by decide⟩, package⟩)
  refine ⟨wellNamed, ⟨⟨⟨"p/b.rs"⟩, .file .notText⟩, by decide +kernel⟩, ?_⟩
  · intro file diagnostic failed
    obtain ⟨_, bad, _, _, _, _, _, isBad, named⟩ :=
      (failed_parse_changes_nothing wellNamed [] {} ⟨"p"⟩).2.2 file diagnostic failed
    exact ⟨bad, named, List.find?_some isBad⟩

end Loader

end StructInventory
