import StructInventory.Proofs.SourcePackage
import StructInventory.Proofs.WalkedStruct

/-!
Where that comes from which a walk shows. A struct is shown with its methods and with the structs
that its fields lead to. All of them belong to one package, and that is made of the source files of
one directory, to which only names lead that the walk does not leave out. The names of the files
themselves are not looked at in this way: a source file is read whatever its name begins with.
-/

namespace StructInventory

/-! ### Packages -/

/-- The files that declare a struct, its methods and, in the same way, the structs that its fields
hold. -/
inductive StructDesc.ShownFile : StructDesc → PathText → Prop where
  | declared (struct : StructDesc) : ShownFile struct struct.file
  | method {struct : StructDesc} {method : MethodDesc} (member : method ∈ struct.methods) :
      ShownFile struct method.function.file
  | field {struct inner : StructDesc} {field : FieldDesc} {path : PathText}
      (member : field ∈ struct.fields) (holds : field.asStruct = some inner)
      (deeper : ShownFile inner path) : ShownFile struct path

section

variable {dir : PathText} {files : List ParsedFile} {features : List String}

theorem Package.exists_file_of_mem_methodsOf {name : String} {function : Function}
    (member : function ∈ methodsOf features files name) :
    ∃ file ∈ files, file.path = function.file := by
  obtain ⟨file, listed, inside⟩ := List.mem_flatMap.mp member
  obtain ⟨block, _, given⟩ := List.mem_flatMap.mp inside
  obtain ⟨decl, _, rfl⟩ := List.mem_map.mp given
  exact ⟨file, listed, rfl⟩

/-- Whatever is shown of a struct of a package was declared in one of the files of the package. -/
theorem StructDesc.ShownFile.exists_file {struct : StructDesc} {path : PathText}
    (shown : struct.ShownFile path)
    (made : struct.package = .ofResolution (.ofFiles dir files features) files)
    (inScope : struct.named ∈ (Package.ofFiles dir files features).scope.types) :
    ∃ file ∈ files, file.path = path := by
  -- The structs that fields lead to are in the scope of the same package.
  induction shown with
  | declared struct =>
    obtain ⟨found, first, declared⟩ := Package.exists_declaration inScope
    obtain ⟨listed, _⟩ := Package.mem_declarations (List.mem_of_find?_eq_some first)
    refine ⟨found.1, listed, ?_⟩
    rw [StructDesc.file, ← declared]
    rfl
  | method member =>
    obtain ⟨function, listed, rfl⟩ := List.mem_map.mp member
    obtain ⟨found, _, declared⟩ := Package.exists_declaration inScope
    rw [← declared] at listed
    exact Package.exists_file_of_mem_methodsOf (List.mem_of_mem_filter listed)
  | field member holds _ ih =>
    obtain ⟨samePackage, found, -⟩ := FieldDesc.asStruct_eq_some holds
    have same := StructDesc.package_of_mem_fields member
    refine ih (by rw [samePackage, same, made]) ?_
    rwa [same, made] at found

end

/-! ### Walks -/

/-- A source file below a base. No directory on the way from the base to it has a name that a walk
leaves out. -/
structure FileTree.SourceBelow (tree : FileTree) (base : PathText) (below : List String)
    (file : ParsedFile) : Prop where
  read : tree.parseFile file.path = .ok file
  eligible : file.path.isEligible = true
  shown : ∀ name ∈ below, PathText.IsShown name
  placed : ∃ name, PathText.IsName name ∧
    file.path.components = base.components ++ (below ++ [name]).map .name

theorem FileTree.isEligible_of_mem {tree : FileTree} {dir file : PathText} {files : List PathText}
    (listed : tree.eligibleFiles dir = .ok files) (member : file ∈ files) :
    file.isEligible = true := by
  unfold eligibleFiles at listed
  cases held : tree.list dir with
  | error error => simp [held, bind, Except.bind] at listed
  | ok paths =>
    simp only [held, bind, Except.bind, pure, Except.pure, Except.ok.injEq] at listed
    rw [← listed, (sortBy_perm _).mem_iff, List.mem_filter, Bool.and_eq_true] at member
    exact member.2.2

namespace Walker

variable {walker : Walker} {tree : FileTree}

theorem Loaded.exists_sources {loader : Loader} (named : tree.root.NamedThroughout)
    (loaded : walker.Loaded tree loader) : ∀ struct ∈ loader.structs, ∃ dir below files,
      struct.package = .ofResolution (.ofFiles dir files walker.features) files ∧
      struct.named ∈ (Package.ofFiles dir files walker.features).scope.types ∧
      ∀ file ∈ files, tree.SourceBelow walker.baseDir below file := by
  intro struct listed
  obtain ⟨entry, member, inside⟩ := List.mem_flatMap.mp listed
  obtain ⟨dir, below, reached, shown, entryOf⟩ := loaded.entries named entry member
  obtain ⟨_, built, answered, package⟩ := entryOf.resolved
  obtain ⟨rfl, paths, eligible, parsed⟩ := FileTree.of_resolveFile answered
  rw [entryOf.directory] at package eligible
  obtain ⟨samePackage, looked, _⟩ := Loader.lookup_of_mem_structsOf inside
  rw [package] at samePackage looked
  refine ⟨dir, below, built, samePackage, List.mem_of_find?_eq_some looked, fun file held => ?_⟩
  obtain ⟨chosen, read⟩ := parsed file held
  obtain ⟨name, isName, path⟩ :=
    FileTree.exists_name_of_mem_eligibleFiles named.wellNamed eligible _ chosen
  refine ⟨read, FileTree.isEligible_of_mem eligible chosen, shown, name, isName, ?_⟩
  rw [path, PathText.components_join_name isName, reached.components loaded.base_text_ne,
    List.map_append, List.append_assoc]
  rfl

theorem mem_of_mem_selected {structs : List StructDesc} {struct : StructDesc}
    (member : struct ∈ walker.selected structs) : struct ∈ structs := by
  unfold selected at member
  split at member
  · exact List.mem_of_mem_filter (List.mem_of_mem_take member)
  · exact List.mem_of_mem_filter member

variable {σ : Type}

/-- Only loaded structs are visited. -/
theorem exists_loaded_of_visit {visitor : Visitor σ} {state : σ} {visit : StructDesc × VisitResult}
    (member : visit ∈ (walker.run tree visitor state).1.visits) :
    ∃ loader, walker.Loaded tree loader ∧ visit.1 ∈ loader.structs := by
  rcases loaded_or_unloadable walker tree with ⟨loader, loaded⟩ | ⟨error, unloadable⟩
  · refine ⟨loader, loaded, ?_⟩
    obtain ⟨made, added⟩ := visitAccepted_adds walker visitor loader.structs ⟨state, [], false⟩
    simp only [run, loaded.load, added.visits, List.nil_append] at member
    apply mem_of_mem_selected
    rw [← added.chosen]
    exact List.mem_map_of_mem member
  · simp [run, unloadable.load] at member

/-- All that a walk shows comes from directories that it does not leave out. The package of a struct
that is visited is made of source files to which, below the base, only such names of directories
lead, and these files declare whatever is shown of the struct. -/
theorem shown_files_in_shown_directories (walker : Walker) (named : tree.root.NamedThroughout)
    (visitor : Visitor σ) (state : σ) :
    ∀ visit ∈ (walker.run tree visitor state).1.visits, ∃ dir below files,
      visit.1.package = .ofResolution (.ofFiles dir files walker.features) files ∧
      (∀ file ∈ files, tree.SourceBelow walker.baseDir below file) ∧
      ∀ path, visit.1.ShownFile path → ∃ file ∈ files, file.path = path := by
  intro visit member
  obtain ⟨loader, loaded, listed⟩ := exists_loaded_of_visit member
  obtain ⟨dir, below, files, made, inScope, sources⟩ := loaded.exists_sources named visit.1 listed
  exact ⟨dir, below, files, made, sources, fun path shown => shown.exists_file made inScope⟩

/-- A walk that leaves out two directories. The struct that it visits first holds one of another
file, which also gives it a method. -/
theorem shown_files_in_shown_directories_split :
    let tree : FileTree := ⟨.dir [("p", .dir [
      ("_d", .dir [("x.rs", .file (some "pub struct X;"))]),
      ("target", .dir [("y.rs", .file (some "pub struct Y;"))]),
      ("q", .dir [
        ("a.rs", .file (some "pub struct A \x7b pub b: B \x7d")),
        ("b.rs", .file (some "pub struct B; impl A \x7b pub fn f(&self) \x7b\x7d \x7d"))])])], []⟩
    let walker : Walker := ⟨⟨"p"⟩, true, .everything, false, []⟩
    let visits := (walker.run tree (fun count _ => (count + 1, .done)) 0).1.visits
    tree.root.NamedThroughout ∧
      (visits.map fun visit => (visit.1.file.text,
        visit.1.methods.map fun method => method.function.file.text)) =
          [("p/q/a.rs", ["p/q/b.rs"]), ("p/q/b.rs", [])] ∧
      ∀ visit ∈ visits, ∃ dir below files,
        visit.1.package = .ofResolution (.ofFiles dir files walker.features) files ∧
        (∀ file ∈ files, tree.SourceBelow walker.baseDir below file) ∧
        ∀ path, visit.1.ShownFile path → ∃ file ∈ files, file.path = path := by
  intro tree walker visits
  have isName : ∀ name ∈ ["p", "_d", "x.rs", "target", "y.rs", "q", "a.rs", "b.rs"],
      PathText.IsName name := by
    intro name member
    exact ⟨by revert name; decide, by revert name; decide⟩
  have named : tree.root.NamedThroughout :=
    .entry (isName "p" (by simp))
      (.entry (isName "_d" (by simp)) (.entry (isName "x.rs" (by simp)) (.file _) .empty)
        (.entry (isName "target" (by simp)) (.entry (isName "y.rs" (by simp)) (.file _) .empty)
          (.entry (isName "q" (by simp)) (.entry (isName "a.rs" (by simp)) (.file _)
            (.entry (isName "b.rs" (by simp)) (.file _) .empty)) .empty)))
      .empty
  exact ⟨named, by decide +kernel, shown_files_in_shown_directories walker named _ _⟩

/-- The names of files are not left out: of two that begin with an underscore and with a dot, one
declares the struct that is visited and the other its method. -/
theorem hidden_files_shown :
    let tree : FileTree := ⟨.dir [("p", .dir [
      ("_x.rs", .file (some "pub struct P;")),
      (".m.rs", .file (some "impl P \x7b pub fn f(&self) \x7b\x7d \x7d"))])], []⟩
    let walker : Walker := ⟨⟨"p"⟩, true, .everything, false, []⟩
    let visits := (walker.run tree (fun count _ => (count + 1, .done)) 0).1.visits
    (visits.map fun visit => (visit.1.file.components,
      visit.1.methods.map fun method => method.function.file.components)) =
        [([.name "p", .name "_x.rs"], [[.name "p", .name ".m.rs"]])] := by
  decide +kernel

end Walker

end StructInventory
