import StructInventory.Proofs.DirectoryStructs
import StructInventory.Proofs.WalkRun

/-!
Features that no condition mentions. A condition asks only whether the features in it are enabled,
and every place that looks at the enabled features does so through the conditions of a file, of a
declaration or of a field. So two sets of features that agree on what the conditions of the files
mention build the same files, and these make up the same package; all that is listed, described or
visited afterwards is taken from packages alone.
-/

namespace StructInventory

/-- Two sets of features have the same members among `mentioned`. -/
def AgreeOn (features others mentioned : List String) : Prop :=
  ∀ feature ∈ mentioned, feature ∈ features ↔ feature ∈ others

namespace AgreeOn

variable {features others mentioned more : List String}

theorem subset (agree : AgreeOn features others mentioned) (fewer : more ⊆ mentioned) :
    AgreeOn features others more :=
  fun feature member => agree feature (fewer member)

theorem of_append (agree : AgreeOn features others (mentioned ++ more)) :
    AgreeOn features others mentioned ∧ AgreeOn features others more :=
  ⟨agree.subset (List.subset_append_left _ _), agree.subset (List.subset_append_right _ _)⟩

theorem of_flatMap {α : Type} {items : List α} {mentions : α → List String}
    (agree : AgreeOn features others (items.flatMap mentions)) :
    ∀ item ∈ items, AgreeOn features others (mentions item) :=
  fun item member => agree.subset fun _ mentioned => List.mem_flatMap.mpr ⟨item, member, mentioned⟩

end AgreeOn

/-! ### What conditions mention -/

namespace Condition

mutual

/-- The features that a condition names anywhere. -/
def mentions : Condition → List String
  | name _ | unreadable _ => []
  | setting path value => if path = ["feature"] then value.toList else []
  | list _ items => mentionsOf items

def mentionsOf : List Condition → List String
  | [] => []
  | item :: rest => item.mentions ++ mentionsOf rest

end

variable {features others : List String}

mutual

theorem eval_congr : (condition : Condition) → AgreeOn features others condition.mentions →
    condition.eval features = condition.eval others
  | name _, _ => rfl
  | unreadable _, _ => rfl
  | setting path value, agree => by
    unfold mentions at agree
    unfold eval
    split
    next isFeature =>
      rw [if_pos isFeature] at agree
      cases value with
      | none => rfl
      | some value =>
        -- The one place where the features are looked at.
        have same := agree value (by simp)
        simp [same]
    next => rfl
  | list path items, agree => by
    unfold eval
    rw [evalAll_congr items agree]

theorem evalAll_congr : (items : List Condition) → AgreeOn features others (mentionsOf items) →
    evalAll features items = evalAll others items
  | [], _ => rfl
  | item :: rest, agree => by
    obtain ⟨first, later⟩ := agree.of_append
    rw [evalAll, evalAll, eval_congr item first, evalAll_congr rest later]

end

theorem enabled_congr {conditions : List Condition}
    (agree : AgreeOn features others (mentionsOf conditions)) :
    enabled features conditions = enabled others conditions := by
  unfold enabled
  induction conditions with
  | nil => rfl
  | cons condition rest ih =>
    obtain ⟨first, later⟩ := agree.of_append
    rw [List.all_cons, List.all_cons, eval_congr condition first, ih later]

/-- Of items with conditions, those are kept that were. -/
theorem filter_enabled_congr {α : Type} {items : List α} {conditions : α → List Condition}
    (agree : ∀ item ∈ items, AgreeOn features others (mentionsOf (conditions item))) :
    (items.filter fun item => enabled features (conditions item)) =
      items.filter fun item => enabled others (conditions item) :=
  List.filter_congr fun item member => enabled_congr (agree item member)

end Condition

open Condition

/-! ### What declarations mention -/

namespace FunctionDecl

def mentions (decl : FunctionDecl) : List String := mentionsOf decl.conditions

end FunctionDecl

namespace TypeForm

def mentions : TypeForm → List String
  | struct fields => fields.flatMap fun field => mentionsOf field.conditions
  | .trait functions => functions.flatMap FunctionDecl.mentions
  | _ => []

end TypeForm

namespace TypeDecl

def mentions (decl : TypeDecl) : List String := mentionsOf decl.conditions ++ decl.form.mentions

end TypeDecl

namespace ImplDecl

def mentions (decl : ImplDecl) : List String :=
  mentionsOf decl.conditions ++ decl.functions.flatMap FunctionDecl.mentions

end ImplDecl

namespace SourceFile

/-- The features that a file mentions in a condition of its own, of a type, a block of methods, a
function in a block or trait, or a field. -/
def mentions (file : SourceFile) : List String :=
  mentionsOf file.conditions ++
    (file.typeDecls.flatMap TypeDecl.mentions ++ file.blocks.flatMap ImplDecl.mentions)

end SourceFile

section

variable {features others : List String}

theorem FunctionDecl.filter_congr {decls : List FunctionDecl}
    (agree : AgreeOn features others (decls.flatMap FunctionDecl.mentions)) :
    (decls.filter fun decl => enabled features decl.conditions) =
      decls.filter fun decl => enabled others decl.conditions :=
  filter_enabled_congr agree.of_flatMap

theorem TypeDecl.structFields_congr {fields : List FieldDecl} (scope : TypeScope)
    (agree : AgreeOn features others (TypeForm.struct fields).mentions) :
    structFields features scope fields = structFields others scope fields := by
  have same : (fields.zipIdx.filter fun field => enabled features field.1.conditions) =
      fields.zipIdx.filter fun field => enabled others field.1.conditions := by
    refine filter_enabled_congr fun field member => ?_
    exact agree.of_flatMap field.1 (List.fst_mem_of_mem_zipIdx member)
  exact congrArg (List.map fun field : FieldDecl × Nat => field.1.resolve scope field.2) same

theorem TypeDecl.underlying_congr {decl : TypeDecl} (file : PathText)
    (agree : AgreeOn features others decl.form.mentions) :
    decl.underlying features file = decl.underlying others file := by
  unfold underlying
  split
  next fields form =>
    rw [form] at agree
    rw [structFields_congr _ agree]
  · rfl
  next functions form =>
    rw [form] at agree
    rw [FunctionDecl.resolveAll, FunctionDecl.resolveAll, FunctionDecl.filter_congr agree]
  · rfl
  · rfl

namespace Package

variable {files : List ParsedFile}

theorem methodsOf_congr
    (agree : ∀ file ∈ files, AgreeOn features others file.source.mentions) (name : String) :
    methodsOf features files name = methodsOf others files name := by
  unfold methodsOf
  refine List.flatMap_congr fun file member => ?_
  have blocks := (agree file member).of_append.2.of_append.2.of_flatMap
  have same : (file.source.blocks.filter fun block =>
      enabled features block.conditions && block.isFor name) =
      file.source.blocks.filter fun block =>
        enabled others block.conditions && block.isFor name := by
    refine List.filter_congr fun block listed => ?_
    rw [enabled_congr (blocks block listed).of_append.1]
  rw [same]
  refine List.flatMap_congr fun block kept => ?_
  rw [FunctionDecl.filter_congr (blocks block (List.mem_of_mem_filter kept)).of_append.2]

theorem declarations_congr
    (agree : ∀ file ∈ files, AgreeOn features others file.source.mentions) :
    declarations features files = declarations others files := by
  refine List.flatMap_congr fun file member => ?_
  have types := (agree file member).of_append.2.of_append.1.of_flatMap
  rw [filter_enabled_congr fun decl listed => (types decl listed).of_append.1]

/-- Files make up the same package with features that agree on what the files mention. -/
theorem ofFiles_congr (dir : PathText)
    (agree : ∀ file ∈ files, AgreeOn features others file.source.mentions) :
    ofFiles dir files features = ofFiles dir files others := by
  have types : (declarations features files).map (declaredType features files) =
      (declarations others files).map (declaredType others files) := by
    rw [declarations_congr agree]
    refine List.map_congr_left fun found member => ?_
    obtain ⟨inside, listed⟩ := mem_declarations member
    have types := (agree found.1 inside).of_append.2.of_append.1.of_flatMap
    have form := (types found.2 listed).of_append.2
    simp only [declaredType, methodsOf_congr agree, TypeDecl.underlying_congr _ form]
  have scope : (ofFiles dir files features).scope = (ofFiles dir files others).scope := by
    rw [ofFiles_scope, ofFiles_scope, types]
  exact congrArg (Package.mk _ dir (files.map ParsedFile.path)) scope

/-- The files that are members of their package. -/
def built (features : List String) (files : List ParsedFile) : List ParsedFile :=
  files.filter fun file => enabled features file.source.conditions

theorem built_congr (agree : ∀ file ∈ files, AgreeOn features others file.source.mentions) :
    built features files = built others files :=
  filter_enabled_congr fun file member => (agree file member).of_append.1

end Package

/-! ### Loading -/

namespace FileTree

variable {tree : FileTree}

/-- A file that is read when the source files of a directory are. -/
def Source (tree : FileTree) (dir : PathText) (file : ParsedFile) : Prop :=
  ∃ files, tree.eligibleFiles dir = .ok files ∧ ∃ path ∈ files, tree.parseFile path = .ok file

theorem parseFiles_congr {paths : List PathText}
    (agree : ∀ path ∈ paths, ∀ file, tree.parseFile path = .ok file →
      AgreeOn features others file.source.mentions) :
    tree.parseFiles features paths = tree.parseFiles others paths ∧
      ∀ files, tree.parseFiles features paths = .ok files →
        ∀ file ∈ files, AgreeOn features others file.source.mentions := by
  unfold parseFiles
  cases parsed : paths.mapM tree.parseFile with
  | error diagnostic => exact ⟨rfl, nofun⟩
  | ok files =>
    have each : ∀ file ∈ files, AgreeOn features others file.source.mentions := by
      intro file member
      obtain ⟨listed, read⟩ := parseFile_of_mem_mapM parsed file member
      exact agree file.path listed file read
    refine ⟨congrArg Except.ok (Package.built_congr each), ?_⟩
    rintro _ ⟨⟩ file member
    exact each file (List.mem_of_mem_filter member)

/-- A source file of a directory is resolved to the same with features that agree on what the source
files of the directory mention. -/
theorem resolveFile_agree (wellNamed : tree.WellNamed) {dir : PathText} {files : List PathText}
    (listed : tree.eligibleFiles dir = .ok files)
    (agree : ∀ file, tree.Source dir file → AgreeOn features others file.source.mentions) :
    ∀ path ∈ files, tree.resolveFile features path = tree.resolveFile others path := by
  obtain ⟨parent, names, relisted⟩ := exists_relisted wellNamed listed
  obtain rfl := relisted.files_eq listed
  -- The files are read under the path of their directory, with the same texts.
  have again : ∀ path ∈ names.map (fun name => parent.join ⟨name⟩), ∀ file,
      tree.parseFile path = .ok file → AgreeOn features others file.source.mentions := by
    intro path member file parsed
    obtain ⟨name, chosen, rfl⟩ := List.mem_map.mp member
    obtain ⟨file', parsed', same⟩ := parseFile_of_node (relisted.node name chosen) parsed
    have source : tree.Source dir file' :=
      ⟨_, listed, dir.join ⟨name⟩, List.mem_map.mpr ⟨name, chosen, rfl⟩, parsed'⟩
    exact same ▸ agree file' source
  obtain ⟨sameFiles, each⟩ := parseFiles_congr again
  intro path member
  obtain ⟨name, chosen, rfl⟩ := List.mem_map.mp member
  have within := relisted.directory name chosen
  rw [resolveFile_eq within relisted.again, resolveFile_eq within relisted.again, ← sameFiles]
  cases parsed : tree.parseFiles features (names.map fun name => parent.join ⟨name⟩) with
  | error diagnostic => simp only [bind, Except.bind]
  | ok built =>
    have same := Package.ofFiles_congr parent (each built parsed)
    simp only [bind, Except.bind, same]

end FileTree

namespace Loader

theorem loadFiles_provider_congr {provider provider' : Provider} {files : List PathText}
    (same : ∀ file ∈ files, ∀ count, provider count file = provider' count file)
    (loader : Loader) : loader.loadFiles provider files = loader.loadFiles provider' files := by
  induction files generalizing loader with
  | nil => rfl
  | cons file rest ih =>
    obtain ⟨first, others⟩ := List.forall_mem_cons.mp same
    have step : loader.loadFile provider file = loader.loadFile provider' file := by
      unfold loadFile
      rw [first]
    unfold loadFiles
    rw [step, ih others]
    split
    · rfl
    · split
      · exact ih others _
      · rfl

theorem parse_agree {tree : FileTree} (wellNamed : tree.WellNamed) {path : PathText}
    (agree : ∀ file, tree.Source (directoryOf tree path) file →
      AgreeOn features others file.source.mentions) (loader : Loader) :
    loader.parse tree (.ofTree tree features) path =
      loader.parse tree (.ofTree tree others) path := by
  unfold parse
  dsimp only
  split
  · rfl
  next files listed =>
    refine loadFiles_provider_congr (fun file member _ => ?_) loader
    exact FileTree.resolveFile_agree wellNamed listed agree file member

end Loader

namespace Walker

variable {tree : FileTree}

theorem loadDirs_agree (wellNamed : tree.WellNamed) {dirs : List PathText}
    (agree : ∀ dir ∈ dirs, ∀ file, tree.Source (Loader.directoryOf tree dir) file →
      AgreeOn features others file.source.mentions) (loader : Loader) :
    loadDirs tree (.ofTree tree features) loader dirs =
      loadDirs tree (.ofTree tree others) loader dirs := by
  induction dirs generalizing loader with
  | nil => rw [loadDirs, loadDirs]
  | cons dir rest ih =>
    obtain ⟨first, later⟩ := List.forall_mem_cons.mp agree
    rw [loadDirs_cons, loadDirs_cons, Loader.parse_agree wellNamed first, ih later]

/-- Which structs are visited is a matter of their names. -/
theorem visitAccepted_features {σ : Type} (walker : Walker) (others : List String)
    (visitor : Visitor σ) (structs : List StructDesc) (report : WalkReport σ) :
    { walker with features := others }.visitAccepted visitor report structs =
      walker.visitAccepted visitor report structs := by
  induction structs generalizing report with
  | nil => rw [visitAccepted, visitAccepted]
  | cons struct rest ih => simp only [visitAccepted, ih]

theorem run_agree (wellNamed : tree.WellNamed) (walker : Walker)
    (agree : ∀ dirs, walker.directories tree = .ok dirs → ∀ dir ∈ dirs, ∀ file,
      tree.Source (Loader.directoryOf tree dir) file →
        AgreeOn walker.features others file.source.mentions)
    {σ : Type} (visitor : Visitor σ) (state : σ) :
    walker.run tree visitor state = { walker with features := others }.run tree visitor state := by
  have listed : { walker with features := others }.directories tree = walker.directories tree := by
    unfold directories
    rfl
  have load : walker.load tree = { walker with features := others }.load tree := by
    unfold load
    rw [listed]
    cases dirs : walker.directories tree with
    | error error => simp only [bind, Except.bind]
    | ok dirs =>
      simp only [bind, Except.bind]
      exact loadDirs_agree wellNamed (agree _ ‹_›) {}
  unfold run
  simp only [load, visitAccepted_features]

end Walker

end

/-! ### All that comes of loading -/

/-- Features that no condition of the files mentions make no difference. The same files are built,
and make up the same package; loading a directory ends in the same way and leaves the same loader,
from which all structs and descriptions are read; and a walk makes the same visits with the same
answer. -/
theorem unmentioned_features_do_not_matter (features others : List String) :
    (∀ files : List ParsedFile, (∀ file ∈ files, AgreeOn features others file.source.mentions) →
      Package.built features files = Package.built others files ∧
      ∀ dir, Package.ofFiles dir (Package.built features files) features =
        Package.ofFiles dir (Package.built others files) others) ∧
    ∀ tree : FileTree, tree.WellNamed →
      (∀ path, (∀ file, tree.Source (Loader.directoryOf tree path) file →
          AgreeOn features others file.source.mentions) →
        ∀ loader : Loader, loader.parse tree (.ofTree tree features) path =
          loader.parse tree (.ofTree tree others) path) ∧
      ∀ walker : Walker, (∀ dirs, walker.directories tree = .ok dirs → ∀ dir ∈ dirs, ∀ file,
          tree.Source (Loader.directoryOf tree dir) file →
            AgreeOn features others file.source.mentions) →
        ∀ (σ : Type) (visitor : Visitor σ) (state : σ),
          { walker with features := features }.run tree visitor state =
            { walker with features := others }.run tree visitor state := by
  refine ⟨fun files agree => ?_, fun tree wellNamed => ⟨?_, ?_⟩⟩
  · have same := Package.built_congr agree
    refine ⟨same, fun dir => ?_⟩
    rw [← same]
    exact Package.ofFiles_congr dir fun file member => agree file (List.mem_of_mem_filter member)
  · intro path agree loader
    exact Loader.parse_agree wellNamed agree loader
  · intro walker agree σ visitor state
    exact Walker.run_agree wellNamed { walker with features := features } agree visitor state

/-- Of three features one is mentioned nowhere, and enabling it changes nothing. -/
theorem unmentioned_net :
    let tree : FileTree := ⟨.dir [("p", .dir [
      ("a.rs", .file (some
        "struct A \x7b #[cfg(feature = r\"on\")] x: u8, #[cfg(not(feature = r\"on\"))] y: u8 \x7d")),
      ("b.rs", .file (some "#![cfg(any(unix, feature = r\"off\"))] struct B;"))])], []⟩
    tree.WellNamed ∧
      (∀ file, tree.Source (Loader.directoryOf tree ⟨"p"⟩) file →
        AgreeOn ["net", "on"] ["on"] file.source.mentions) ∧
      Loader.parse tree (.ofTree tree ["net", "on"]) {} ⟨"p"⟩ =
        Loader.parse tree (.ofTree tree ["on"]) {} ⟨"p"⟩ := by
  intro tree
  have wellNamed : tree.WellNamed := by
    refine FileNode.wellNamed_dir ?_
    simp only [List.forall_mem_singleton]
    refine ⟨⟨by decide, by decide⟩, FileNode.wellNamed_dir ?_⟩
    simp only [List.forall_mem_cons, FileNode.wellNamed_file, and_true]
    exact ⟨⟨by decide, by decide⟩, ⟨by decide, by decide⟩, by simp⟩
  have mentioned : (tree.eligibleFiles (Loader.directoryOf tree ⟨"p"⟩)).toOption.all (fun files =>
      files.all fun path => (tree.parseFile path).toOption.all fun file =>
        "net" ∉ file.source.mentions) = true := by
    decide +kernel
  have agree : ∀ file, tree.Source (Loader.directoryOf tree ⟨"p"⟩) file →
      AgreeOn ["net", "on"] ["on"] file.source.mentions := by
    rintro file ⟨files, listed, path, member, parsed⟩ feature asked
    rw [listed] at mentioned
    have each := List.all_eq_true.mp mentioned path member
    rw [parsed] at each
    have other : feature ≠ "net" := by
      rintro rfl
      exact of_decide_eq_true each asked
    simp [other]
  exact ⟨wellNamed, agree,
    ((unmentioned_features_do_not_matter ["net", "on"] ["on"]).2 tree wellNamed).1 ⟨"p"⟩ agree {}⟩

end StructInventory
