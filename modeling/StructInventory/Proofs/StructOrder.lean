import StructInventory.Proofs.DeclarationOrder
import StructInventory.Proofs.LoadedStruct

/-!
The order in which structs are listed. A file lists a struct where its name is first declared,
whether or not that declaration is built, and the scope of the package has it where its first built
declaration stands. So positions increase along the list of a file, as they do in the scope, unless
a declaration that is not built takes its struct past others.
-/

namespace StructInventory

/-! ### Struct declarations of a file -/

namespace SourceFile

/-- The structs that a file declares at its top level, whatever their conditions. -/
def structDecls (file : SourceFile) : List TypeDecl := file.typeDecls.filter TypeDecl.isStruct

theorem structDecls_sublist (file : SourceFile) :
    (file.structDecls.map Declaration.struct).Sublist file.declarations := by
  unfold structDecls typeDecls declarations
  generalize file.items = items
  induction items with
  | nil => exact .slnil
  | cons item rest ih =>
    rw [List.flatMap_cons]
    have passed := ih.trans (List.sublist_append_right item.declarations _)
    cases item with
    | methods _ => exact passed
    | other => exact passed
    | type decl =>
      simp only [List.filterMap_cons, List.filter_cons]
      split
      next isStruct =>
        -- A struct is declared ahead of its own fields.
        cases form : decl.form <;>
          simp only [TypeDecl.isStruct, form, Bool.false_eq_true] at isStruct
        simp only [Item.declarations, TypeDecl.declarations, form, List.map_cons, List.cons_append]
        exact (ih.trans (List.sublist_append_right _ _)).cons_cons _
      next => exact passed

/-- The structs of a file stand in order. -/
def StructsInOrder (file : SourceFile) : Prop :=
  file.structDecls.Pairwise fun decl other => decl.pos < other.pos

theorem structsInOrder_of_read {text : String} {file : SourceFile} (done : read text = .ok file) :
    file.StructsInOrder := by
  have apart := (declarations_inOrder done).sublist file.structDecls_sublist
  exact (List.pairwise_map.mp apart).imp And.left

/-- A struct declaration that stands ahead of all those of a name. -/
structure Leads (file : SourceFile) (decl : TypeDecl) (name : String) : Prop where
  declared : decl ∈ file.structDecls
  ahead : ∀ other ∈ file.structDecls, other.name = name → decl.pos < other.pos

/-- The first of the struct declarations of one name that are built. -/
structure FirstBuilt (features : List String) (file : SourceFile) (decl : TypeDecl) : Prop where
  declared : decl ∈ file.structDecls
  built : Condition.enabled features decl.conditions = true
  first : ∀ other ∈ file.structDecls, Condition.enabled features other.conditions = true →
    other.name = decl.name → decl.pos ≤ other.pos

/-- Why a struct is listed ahead of another one of its file: a declaration of it leads those of the
other. Unless it stands ahead itself, that declaration is one which is not built. -/
def ListsAhead (features : List String) (file : SourceFile) (struct other : StructDesc) : Prop :=
  ∃ decl, file.Leads decl other.name ∧ decl.name = struct.name ∧
    (struct.named.pos < other.named.pos ∨
      other.named.pos < struct.named.pos ∧ Condition.enabled features decl.conditions = false)

variable {features : List String} {file : SourceFile}

theorem firstBuilt_of_find? (inOrder : file.StructsInOrder) {decl : TypeDecl} {name : String}
    (isStruct : decl.isStruct = true) (found : (file.typeDecls.filter fun decl =>
      Condition.enabled features decl.conditions).find? (·.name = name) = some decl) :
    file.FirstBuilt features decl := by
  obtain ⟨named, front, back, split, others⟩ := List.find?_eq_some_iff_append.mp found
  have member := List.mem_filter.mp (List.mem_of_find?_eq_some found)
  refine ⟨List.mem_filter.mpr ⟨member.1, isStruct⟩, member.2, fun other declared built same => ?_⟩
  obtain ⟨listed, otherIsStruct⟩ := List.mem_filter.mp declared
  have inside : other ∈ front ++ decl :: back := by
    rw [← split]
    exact List.mem_filter.mpr ⟨listed, built⟩
  rcases List.mem_append.mp inside with early | late
  · -- What stands in front has another name.
    have differs : other.name ≠ name := by simpa using others other early
    exact absurd (same.trans (of_decide_eq_true named)) differs
  · rcases List.mem_cons.mp late with rfl | late
    · exact le_refl _
    · have pairwise := (List.pairwise_filter.mp inOrder).sublist
        (List.filter_sublist (p := fun decl => Condition.enabled features decl.conditions))
      rw [split] at pairwise
      have follows := List.rel_of_pairwise_cons (List.pairwise_append.mp pairwise).2.1 late
      exact le_of_lt (follows isStruct otherIsStruct)

end SourceFile

/-! ### What one file lists -/

namespace Loader

/-- Of two names, the one with the leading declaration comes first. -/
theorem firsts_inOrder {decls : List TypeDecl}
    (inOrder : decls.Pairwise fun decl other => decl.pos < other.pos) (seen : List String) :
    (firsts seen (decls.map TypeDecl.name)).Pairwise fun name other =>
      ∃ decl ∈ decls, decl.name = name ∧
        ∀ later ∈ decls, later.name = other → decl.pos < later.pos := by
  induction decls generalizing seen with
  | nil => exact .nil
  | cons first rest ih =>
    obtain ⟨behind, later⟩ := List.pairwise_cons.mp inOrder
    -- The first declaration may be passed over for names that it does not have.
    have widen {seen : List String} (known : first.name ∈ seen) :
        (firsts seen (rest.map TypeDecl.name)).Pairwise fun name other =>
          ∃ decl ∈ first :: rest, decl.name = name ∧
            ∀ later ∈ first :: rest, later.name = other → decl.pos < later.pos := by
      refine (ih later seen).imp_of_mem ?_
      rintro name other - listed ⟨decl, declared, named, ahead⟩
      refine ⟨decl, List.mem_cons_of_mem _ declared, named, List.forall_mem_cons.mpr ⟨?_, ahead⟩⟩
      rintro rfl
      exact absurd known (mem_firsts.mp listed).2
    rw [List.map_cons, firsts]
    split
    next known => exact widen (List.contains_iff_mem.mp known)
    next =>
      refine List.pairwise_cons.mpr ⟨fun other listed => ?_, widen List.mem_cons_self⟩
      refine ⟨first, List.mem_cons_self, rfl, List.forall_mem_cons.mpr ⟨?_, ?_⟩⟩
      · rintro rfl
        exact absurd List.mem_cons_self (mem_firsts.mp listed).2
      · exact fun later member _ => behind later member

/-- A file passes over names, and lists the others in their order. -/
theorem names_structsOf_sublist (entry : LoadedFile) {scan : FileScan}
    (scanned : entry.package.scan? entry.file = some scan) :
    ((structsOf entry).map StructDesc.name).Sublist (firsts [] scan.structs) := by
  unfold structsOf
  rw [scanned]
  dsimp only
  induction firsts [] scan.structs with
  | nil => exact .slnil
  | cons name rest ih =>
    rw [List.filterMap_cons]
    split
    · exact ih.cons name
    next struct found =>
      obtain ⟨named, looked, chosen⟩ := Option.bind_eq_some_iff.mp found
      split at chosen
      · cases chosen
        obtain rfl : named.name = name := by simpa using List.find?_some looked
        exact ih.cons_cons named.name
      · cases chosen

section

variable {dir : PathText} {files : List ParsedFile} {features : List String} {file : ParsedFile}

/-- A struct that a file lists is the first built declaration of its name there. -/
theorem exists_firstBuilt (apart : ToldApart files) (member : file ∈ files)
    (inOrder : file.source.StructsInOrder)
    {struct : StructDesc}
    (listed : struct ∈ structsOf ⟨file.path, .ofResolution (.ofFiles dir files features) files⟩) :
    ∃ decl, file.source.FirstBuilt features decl ∧ decl.name = struct.name ∧
      decl.pos = struct.named.pos := by
  obtain ⟨_, inScope, isStruct, path⟩ := (mem_structsOf_iff apart member).mp listed
  obtain ⟨found, first, declared⟩ := Package.exists_declaration inScope
  have inside := (Package.mem_declarations (List.mem_of_find?_eq_some first)).1
  obtain rfl : found.1 = file := by
    refine apart _ inside _ member (PathText.same_iff.mpr (congrArg PathText.components ?_))
    rw [← path, StructDesc.file, ← declared]
    rfl
  rw [Package.find?_declarations] at first
  obtain ⟨own, _, here⟩ := List.exists_of_findSome?_eq_some first
  obtain ⟨decl, found, rfl⟩ := Option.map_eq_some_iff.mp here
  rw [← declared, Package.declaredType_isStruct] at isStruct
  refine ⟨decl, SourceFile.firstBuilt_of_find? inOrder isStruct found, ?_, ?_⟩
  · rw [StructDesc.name, ← declared]
    rfl
  · rw [← declared]
    rfl

/-- The structs of a file are listed by their leading declarations. -/
theorem structsOf_inOrder (apart : ToldApart files) (member : file ∈ files)
    (inOrder : file.source.StructsInOrder) :
    (structsOf ⟨file.path, .ofResolution (.ofFiles dir files features) files⟩).Pairwise
      (file.source.ListsAhead features) := by
  have kept := names_structsOf_sublist
    ⟨file.path, .ofResolution (.ofFiles dir files features) files⟩
    (LoadedPackage.scan?_ofResolution _ apart member)
  have names := (firsts_inOrder inOrder []).sublist kept
  have positions : (file.source.structDecls.map TypeDecl.pos).Nodup :=
    List.pairwise_map.mpr (inOrder.imp ne_of_lt)
  refine (List.pairwise_map.mp names).imp_of_mem ?_
  rintro struct other listed listed' ⟨decl, declared, named, ahead⟩
  refine ⟨decl, ⟨declared, ahead⟩, named, ?_⟩
  obtain ⟨own, ownFirst, ownName, ownPos⟩ := exists_firstBuilt apart member inOrder listed
  obtain ⟨its, itsFirst, itsName, itsPos⟩ := exists_firstBuilt apart member inOrder listed'
  rw [← ownPos, ← itsPos]
  have leads : decl.pos < its.pos := ahead its itsFirst.declared itsName
  rcases lt_trichotomy own.pos its.pos with before | same | behind
  · exact .inl before
  · -- At one place there is one declaration, so the names would be the same.
    obtain rfl := List.inj_on_of_nodup_map positions ownFirst.declared itsFirst.declared same
    exact absurd (ahead decl declared (by rw [named, ← ownName, itsName])) (lt_irrefl _)
  · -- If the leading declaration were built, it would be the one that is listed.
    refine .inr ⟨behind, Bool.eq_false_iff.mpr fun built => ?_⟩
    have first := ownFirst.first decl declared built (named.trans ownName.symm)
    exact absurd (lt_of_le_of_lt first leads) (lt_asymm behind)

end

end Loader

/-! ### The order of a package -/

theorem idxOf_lt_idxOf {α : Type} [DecidableEq α] {front : List α} {item other : α}
    (inside : item ∈ front) (outside : other ∉ front) (back : List α) :
    (front ++ back).idxOf item < (front ++ back).idxOf other := by
  rw [List.idxOf_append_of_mem inside, List.idxOf_append_of_notMem outside]
  exact Nat.lt_add_right _ (List.idxOf_lt_length_iff.mpr inside)

theorem eraseDups_inOrder {α : Type} [DecidableEq α] (items : List α) :
    items.eraseDups.Pairwise fun item other => items.idxOf item < items.idxOf other := by
  induction items using List.reverseRecOn with
  | nil => exact .nil
  | append_singleton items last ih =>
    have kept : items.eraseDups.Pairwise fun item other =>
        (items ++ [last]).idxOf item < (items ++ [last]).idxOf other := by
      refine ih.imp_of_mem fun {item other} listed listed' before => ?_
      rwa [List.idxOf_append_of_mem (List.mem_eraseDups.mp listed),
        List.idxOf_append_of_mem (List.mem_eraseDups.mp listed')]
    rw [eraseDups_concat]
    split
    · exact kept
    next fresh =>
      refine List.pairwise_append.mpr ⟨kept, List.pairwise_singleton _ _, ?_⟩
      intro item listed other single
      rw [List.mem_singleton.mp single]
      exact idxOf_lt_idxOf (List.mem_eraseDups.mp listed) fresh [last]

/-- Ahead by file, and then by position. -/
def NamedType.Ahead (paths : List PathText) (named other : NamedType) : Prop :=
  paths.idxOf named.file < paths.idxOf other.file ∨ named.file = other.file ∧ named.pos < other.pos

namespace NamedType.Ahead

variable {paths : List PathText} {named other : NamedType}

theorem pos_lt (ahead : Ahead paths named other) (same : named.file = other.file) :
    named.pos < other.pos := by
  rcases ahead with before | ⟨_, before⟩
  · rw [same] at before
    exact absurd before (lt_irrefl _)
  · exact before

theorem asymm (ahead : Ahead paths named other) : ¬Ahead paths other named := by
  intro back
  rcases ahead with before | ⟨same, before⟩
  · rcases back with after | ⟨same, _⟩
    · exact absurd after (lt_asymm before)
    · rw [same] at before
      exact absurd before (lt_irrefl _)
  · exact absurd (back.pos_lt same.symm) (lt_asymm before)

end NamedType.Ahead

/-- Adding types to a scope keeps some of them, behind what was there and under new names. -/
theorem Scope.exists_added (scope : Scope) (types : List NamedType) :
    ∃ added, (scope.insertAll types).types = scope.types ++ added ∧ added.Sublist types ∧
      ∀ named ∈ added, named.name ∉ scope.names := by
  induction types generalizing scope with
  | nil => exact ⟨[], (List.append_nil _).symm, .slnil, List.forall_mem_nil _⟩
  | cons first rest ih =>
    obtain ⟨added, types, kept, new⟩ := ih (scope.insert first).1
    -- The first type is added just if its name is new; all others come behind it.
    cases taken : scope.contains first.name with
    | true =>
      have same : (scope.insert first).1 = scope := by simp [insert, taken]
      rw [same] at types new
      refine ⟨added, ?_, kept.cons first, new⟩
      rw [← types]
      show ((scope.insert first).1.insertAll rest).types = _
      rw [same]
    | false =>
      have more : (scope.insert first).1.types = scope.types ++ [first] := by simp [insert, taken]
      refine ⟨first :: added, ?_, kept.cons_cons first, List.forall_mem_cons.mpr ⟨?_, ?_⟩⟩
      · rw [List.append_cons, ← more, ← types]
        rfl
      · rw [← contains_iff, taken]
        exact Bool.false_ne_true
      · intro named member listed
        refine new named member ?_
        rw [names, more, List.map_append]
        exact List.mem_append_left _ listed

namespace Package

variable {features : List String}

theorem mem_declarations_singleton {file : ParsedFile} {found : ParsedFile × TypeDecl}
    (member : found ∈ declarations features [file]) : found.1 = file :=
  List.mem_singleton.mp (mem_declarations member).1

/-- The structs of one file are declared in order. -/
theorem fileTypes_inOrder (files : List ParsedFile) {file : ParsedFile}
    (inOrder : file.source.StructsInOrder) :
    (((declarations features [file]).map (declaredType features files)).filter
      NamedType.isStruct).Pairwise fun named other => named.pos < other.pos := by
  rw [List.pairwise_filter, List.pairwise_map, declarations, List.flatMap_singleton,
    List.pairwise_map]
  refine ((List.pairwise_filter.mp inOrder).sublist List.filter_sublist).imp ?_
  intro decl other before isStruct isStruct'
  rw [declaredType_isStruct] at isStruct isStruct'
  exact before isStruct isStruct'

theorem file_of_mem_types {front files : List ParsedFile} {named : NamedType}
    (member : named ∈ (Scope.empty.insertAll
      ((declarations features front).map (declaredType features files))).types) :
    named.file ∈ front.map ParsedFile.path := by
  obtain ⟨added, types, kept, _⟩ := Scope.exists_added Scope.empty
    ((declarations features front).map (declaredType features files))
  rw [types] at member
  obtain ⟨found, declared, rfl⟩ := List.mem_map.mp (kept.subset member)
  exact List.mem_map_of_mem (mem_declarations declared).1

/-- A file that has been there before has nothing to add. -/
theorem path_notMem_of_new {front files : List ParsedFile} {file : ParsedFile} {decl : TypeDecl}
    (apart : ToldApart (front ++ [file])) (declared : (file, decl) ∈ declarations features [file])
    (new : decl.name ∉ (Scope.empty.insertAll
      ((declarations features front).map (declaredType features files))).names) :
    file.path ∉ front.map ParsedFile.path := by
  intro again
  obtain ⟨twin, inside, path⟩ := List.mem_map.mp again
  have same : twin.path.same file.path = true :=
    PathText.same_iff.mpr (congrArg PathText.components path)
  obtain rfl := apart twin (List.mem_append_left _ inside) file (by simp) same
  rw [declarations, List.flatMap_singleton] at declared
  have before : (twin, decl) ∈ declarations features front :=
    List.mem_flatMap.mpr ⟨twin, inside, declared⟩
  rw [Scope.names_insertAll, List.mem_eraseDups] at new
  exact new (List.mem_map_of_mem (List.mem_map_of_mem before))

/-- Structs come into the scope ahead of those that later files have, and of those that are declared
behind them. -/
theorem structTypes_inOrder (dir : PathText) (features : List String) {files : List ParsedFile}
    (apart : ToldApart files) (inOrder : ∀ file ∈ files, file.source.StructsInOrder) :
    ((ofFiles dir files features).scope.types.filter NamedType.isStruct).Pairwise
      (NamedType.Ahead (files.map ParsedFile.path)) := by
  rw [ofFiles_scope]
  -- File by file: what the first ones have is in order, and the next adds to it.
  suffices upTo : ∀ front back, files = front ++ back →
      ((Scope.empty.insertAll ((declarations features front).map
        (declaredType features files))).types.filter NamedType.isStruct).Pairwise
          (NamedType.Ahead (files.map ParsedFile.path)) from
    upTo files [] (List.append_nil _).symm
  intro front
  induction front using List.reverseRecOn with
  | nil => exact fun _ _ => .nil
  | append_singleton front file ih =>
    intro back split
    rw [List.append_assoc, List.singleton_append] at split
    have member : file ∈ files := by simp [split]
    have earlier : ToldApart (front ++ [file]) := by
      have kept : front ++ [file] ⊆ files := by simp [split]
      exact fun first listed second listed' => apart first (kept listed) second (kept listed')
    have blocks : declarations features (front ++ [file]) =
        declarations features front ++ declarations features [file] := List.flatMap_append
    rw [blocks, List.map_append, Scope.insertAll_append]
    obtain ⟨added, types, kept, new⟩ := Scope.exists_added
      (Scope.empty.insertAll ((declarations features front).map (declaredType features files)))
      ((declarations features [file]).map (declaredType features files))
    have own : ∀ named ∈ added, ∃ decl, (file, decl) ∈ declarations features [file] ∧
        declaredType features files (file, decl) = named := by
      intro named listed
      obtain ⟨⟨_, decl⟩, declared, rfl⟩ := List.mem_map.mp (kept.subset listed)
      obtain rfl := mem_declarations_singleton declared
      exact ⟨decl, declared, rfl⟩
    rw [types, List.filter_append]
    refine List.pairwise_append.mpr ⟨ih (file :: back) split, ?_, ?_⟩
    · refine ((fileTypes_inOrder files (inOrder file member)).sublist
        (kept.filter _)).imp_of_mem ?_
      intro named other listed listed' before
      obtain ⟨_, _, rfl⟩ := own named (List.mem_of_mem_filter listed)
      obtain ⟨_, _, rfl⟩ := own other (List.mem_of_mem_filter listed')
      exact .inr ⟨rfl, before⟩
    · intro named listed other listed'
      have early := file_of_mem_types (List.mem_of_mem_filter listed)
      obtain ⟨decl, declared, rfl⟩ := own other (List.mem_of_mem_filter listed')
      -- The type is new, so its file is not one of those before.
      have late := path_notMem_of_new earlier declared (new _ (List.mem_of_mem_filter listed'))
      rw [split, List.map_append]
      exact .inl (idxOf_lt_idxOf early late _)

end Package

/-! ### Loading a directory -/

namespace Loader

/-- The order of what is listed of a resolved file's package. All its struct types are listed; those
of one file stand as their leading declarations do. This is the order of the scope if, and only if,
it is also that of their positions. -/
structure ListsInOrder (features : List String) (resolution : Resolution)
    (structs : List StructDesc) : Prop where
  all : (structs.map StructDesc.named).Perm (resolution.packages.flatMap fun package =>
    package.scope.types.filter NamedType.isStruct)
  ahead : ∀ file ∈ resolution.files,
    (structs.filter (·.file = file.path)).Pairwise (file.source.ListsAhead features)
  follows : (structs.map StructDesc.named = resolution.packages.flatMap fun package =>
      package.scope.types.filter NamedType.isStruct) ↔
    ∀ file ∈ resolution.files, (structs.filter (·.file = file.path)).Pairwise
      fun struct other => struct.named.pos < other.named.pos

section

variable {dir : PathText} {files : List ParsedFile} {features : List String}

theorem filter_packageStructs (apart : ToldApart files) {file : ParsedFile}
    (member : file ∈ files) :
    (packageStructs (.ofResolution (.ofFiles dir files features) files)).filter
        (·.file = file.path) =
      structsOf ⟨file.path, .ofResolution (.ofFiles dir files features) files⟩ :=
  filter_flatMap_key (nodup_eraseDups _)
    (fun _ listed _ found => file_of_mem_structsOf apart listed found)
    (List.mem_eraseDups.mpr (List.mem_map_of_mem member))

/-- Where positions increase along the list of every file, the whole list is in order. -/
theorem packageStructs_inOrder (apart : ToldApart files)
    (increasing : ∀ file ∈ files,
      (structsOf ⟨file.path, .ofResolution (.ofFiles dir files features) files⟩).Pairwise
        fun struct other => struct.named.pos < other.named.pos) :
    (packageStructs (.ofResolution (.ofFiles dir files features) files)).Pairwise
      fun struct other => struct.named.Ahead (files.map ParsedFile.path) other.named := by
  refine List.pairwise_flatMap.mpr ⟨fun path listed => ?_, ?_⟩
  · obtain ⟨file, member, rfl⟩ := List.mem_map.mp (List.mem_eraseDups.mp listed)
    refine (increasing file member).imp_of_mem fun found found' before => .inr ⟨?_, before⟩
    exact (file_of_mem_structsOf apart listed found).trans
      (file_of_mem_structsOf apart listed found').symm
  · refine (eraseDups_inOrder (files.map ParsedFile.path)).imp_of_mem ?_
    intro path path' listed listed' before struct found other found'
    rw [← file_of_mem_structsOf apart listed found,
      ← file_of_mem_structsOf apart listed' found'] at before
    exact .inl before

theorem listsInOrder_package (dir : PathText) (features : List String) (apart : ToldApart files)
    (inOrder : ∀ file ∈ files, file.source.StructsInOrder) :
    ListsInOrder features ⟨[.ofFiles dir files features], files⟩
      (packageStructs (.ofResolution (.ofFiles dir files features) files)) := by
  have all := (@packageStructs_perm dir files features apart).map StructDesc.named
  rw [List.map_map, List.map_id'' (fun _ => by rfl)] at all
  have scope := Package.structTypes_inOrder dir features apart inOrder
  refine ⟨?_, ?_, ?_⟩
  · rw [List.flatMap_singleton]
    exact all
  · intro file member
    rw [filter_packageStructs apart member]
    exact structsOf_inOrder apart member (inOrder file member)
  · rw [List.flatMap_singleton]
    constructor
    · intro same file member
      rw [← same, List.pairwise_map] at scope
      refine (scope.filter _).imp_of_mem fun {struct other} listed listed' ahead => ?_
      have here := (List.mem_filter.mp listed).2
      have here' := (List.mem_filter.mp listed').2
      rw [decide_eq_true_eq] at here here'
      exact ahead.pos_lt (here.trans here'.symm)
    · -- The same types are in both lists, and there is one way to have them in order.
      intro increasing
      have listed := packageStructs_inOrder apart fun file member => by
        rw [← filter_packageStructs apart member]
        exact increasing file member
      refine List.Perm.eq_of_pairwise ?_ (List.pairwise_map.mpr listed) scope all
      exact fun named other _ _ ahead back => absurd back ahead.asymm

end

variable {tree : FileTree}

/-- A new loader that has loaded a directory lists the structs of each file by their leading
declarations, be these built or not. -/
theorem structs_by_leading_declaration (wellNamed : tree.WellNamed) (features : List String)
    (path : PathText) (done : (parse tree (.ofTree tree features) {} path).2 = .ok ()) :
    ∃ files resolution, tree.eligibleFiles (directoryOf tree path) = .ok files ∧
      (∀ file ∈ files, tree.resolveFile features file = .ok resolution) ∧
      (files = [] → resolution.packages = []) ∧
      ListsInOrder features resolution (parse tree (.ofTree tree features) {} path).1.structs := by
  obtain ⟨files, parent, built, listed, answered, structs⟩ := exists_answered wellNamed done
  refine ⟨files, _, listed, answered.each, fun none => ?_, ?_⟩
  · rw [answered.noFiles none]
    rfl
  · rw [structs]
    cases built with
    | nil => exact ⟨.nil, List.forall_mem_nil _, iff_of_true rfl (List.forall_mem_nil _)⟩
    | cons file rest =>
      refine listsInOrder_package parent features answered.apart fun source member => ?_
      obtain ⟨text, read⟩ := answered.exists_read source member
      exact SourceFile.structsInOrder_of_read read

/-- A declaration that is not built takes `B` ahead of `A`. -/
theorem passed_struct_listed_by_leading_declaration :
    let tree : FileTree := ⟨.dir [("p", .dir [
      ("a.rs", .file (some "#[cfg(test)] struct B; struct A; struct B;"))])], []⟩
    let call := parse tree (.ofTree tree []) {} ⟨"p"⟩
    tree.WellNamed ∧ call.2 = .ok () ∧
      call.1.structs.map StructDesc.name = ["B", "A"] ∧
      ∃ resolution, ListsInOrder [] resolution call.1.structs := by
  intro tree call
  have wellNamed : tree.WellNamed := by
    have package : FileNode.WellNamed (.dir [
        ("a.rs", .file (some "#[cfg(test)] struct B; struct A; struct B;"))]) :=
      FileNode.wellNamed_dir (by
        simpa using ⟨⟨by decide, by decide⟩, FileNode.wellNamed_file _⟩)
    exact FileNode.wellNamed_dir (by simpa using ⟨⟨by decide, by decide⟩, package⟩)
  have ran : (call.2, call.1.structs.map StructDesc.name) = (.ok (), ["B", "A"]) := by
    decide +kernel
  obtain ⟨done, shown⟩ := Prod.mk.inj ran
  obtain ⟨_, resolution, _, _, _, lists⟩ := structs_by_leading_declaration wellNamed [] ⟨"p"⟩ done
  exact ⟨wellNamed, done, shown, resolution, lists⟩

/-- A struct is listed ahead of one that the scope has ahead of it, and its position is not. -/
theorem unbuilt_declaration_listed_early :
    let tree : FileTree := ⟨.dir [("p", .dir [("a.rs", .file (some
      "#[cfg(feature = \"f\")]\nstruct B;\nstruct A;\n#[cfg(not(feature = \"f\"))]\nstruct B;\n"
      ))])], []⟩
    let call := parse tree (.ofTree tree []) {} ⟨"p"⟩
    (call.2, call.1.structs.map fun struct =>
        (struct.name, struct.named.pos, struct.package.package.scope.names)) =
      (.ok (), [("B", ⟨5, 0⟩, ["A", "B"]), ("A", ⟨3, 0⟩, ["A", "B"])]) := by
  decide +kernel

end Loader

end StructInventory
