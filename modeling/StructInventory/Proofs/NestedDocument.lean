import Mathlib.Data.List.Nodup
import StructInventory.Proofs.FlatDocument

/-!
What a nested document holds, against the flat one of the same bound. Its leaves are the types at
the ends of its objects and the objects without fields. Where no struct has two fields of one name,
the paths of its leaves are the paths of the flat document, with the same types.
-/

namespace StructInventory

namespace FieldEntry

mutual

/-- The leaves of an entry, each with the names that lead to it: types, and objects without
fields. -/
def leaves : FieldEntry → List (List String × FieldEntry)
  | .type text => [([], .type text)]
  | .struct fields => if fields.isEmpty then [([], .struct [])] else leavesOf fields

/-- The leaves below the fields of an object. -/
def leavesOf : List (String × FieldEntry) → List (List String × FieldEntry)
  | [] => []
  | (name, entry) :: rest =>
    entry.leaves.map (fun leaf => (name :: leaf.1, leaf.2)) ++ leavesOf rest

end

theorem mem_leavesOf_iff (fields : List (String × FieldEntry)) (path : List String)
    (leaf : FieldEntry) :
    (path, leaf) ∈ leavesOf fields ↔
      ∃ name entry rest, (name, entry) ∈ fields ∧ (rest, leaf) ∈ entry.leaves ∧
        path = name :: rest := by
  induction fields with
  | nil => simp [leavesOf]
  | cons field fields ih =>
    obtain ⟨name, entry⟩ := field
    rw [leavesOf, List.mem_append, ih]
    constructor
    · rintro (here | ⟨name', entry', rest, later, found, same⟩)
      · obtain ⟨⟨rest, leaf'⟩, found, same⟩ := List.mem_map.mp here
        cases same
        exact ⟨name, entry, rest, List.mem_cons_self, found, rfl⟩
      · exact ⟨name', entry', rest, List.mem_cons_of_mem _ later, found, same⟩
    · rintro ⟨name', entry', rest, member, found, rfl⟩
      rcases List.mem_cons.mp member with same | later
      · cases same
        exact Or.inl (List.mem_map.mpr ⟨(rest, leaf), found, rfl⟩)
      · exact Or.inr ⟨name', entry', rest, later, found, rfl⟩

end FieldEntry

namespace FieldDesc

/-- A field as an entry, when inner structs may be opened `levels` deep. -/
def entry : Nat → FieldDesc → FieldEntry
  | 0, field => .type field.type.text
  | levels + 1, field =>
    match field.asStruct with
    | some inner => .struct (nestedEntries levels inner.fields).entries
    | none => .type field.type.text

theorem nestedEntries_eq (levels : Nat) (fields : List FieldDesc) :
    nestedEntries levels fields =
      .ofList (fields.map fun field => (field.name, field.entry levels)) := by
  cases levels <;> rfl

/-- The entry under a name is that of the last field of this name. -/
theorem nestedEntries_get? (levels : Nat) (fields : List FieldDesc) (name : String) :
    (nestedEntries levels fields).get? name =
      (fields.reverse.find? fun field => field.name = name).map (entry levels) := by
  rw [nestedEntries_eq]
  exact SortedMap.get?_ofList_map fields FieldDesc.name (entry levels) name

theorem mem_nestedEntries_iff (levels : Nat) (fields : List FieldDesc) (name : String)
    (shown : FieldEntry) :
    (name, shown) ∈ (nestedEntries levels fields).entries ↔
      (fields.reverse.find? fun field => field.name = name).map (entry levels) = some shown := by
  have ordered : (nestedEntries levels fields).Ordered := by
    rw [nestedEntries_eq]
    exact SortedMap.ofList_ordered _
  rw [ordered.mem_entries_iff, nestedEntries_get?]

/-- Every field has its entry, if no two fields have one name. -/
theorem entry_mem_nestedEntries (levels : Nat) {fields : List FieldDesc} {field : FieldDesc}
    (distinct : (fields.map FieldDesc.name).Nodup) (member : field ∈ fields) :
    (field.name, field.entry levels) ∈ (nestedEntries levels fields).entries := by
  rw [mem_nestedEntries_iff]
  refine Option.map_eq_some_iff.mpr ⟨field, ?_, rfl⟩
  cases found : fields.reverse.find? fun other => other.name = field.name with
  | none =>
    have differ := List.find?_eq_none.mp found field (List.mem_reverse.mpr member)
    simp at differ
  | some other =>
    have listed := List.mem_reverse.mp (List.mem_of_find?_eq_some found)
    have same : other.name = field.name := by simpa using List.find?_some found
    rw [List.inj_on_of_nodup_map distinct listed member same]

theorem nestedEntries_eq_nil_iff (levels : Nat) (fields : List FieldDesc) :
    (nestedEntries levels fields).entries = [] ↔ fields = [] := by
  have names : ∀ name, name ∈ (nestedEntries levels fields).keys ↔
      name ∈ fields.map FieldDesc.name := by
    intro name
    rw [nestedEntries_eq, SortedMap.mem_keys_ofList, List.map_map]
    rfl
  rw [← List.map_eq_nil_iff (f := Prod.fst), ← List.map_eq_nil_iff (f := FieldDesc.name),
    List.eq_nil_iff_forall_not_mem, List.eq_nil_iff_forall_not_mem]
  exact forall_congr' fun name => not_congr (names name)

/-- A field that is not opened is a leaf: its type, or an object without fields. -/
theorem leaves_entry_closed (levels : Nat) {field : FieldDesc} (closed : field.innerFields = []) :
    ∃ leaf, (field.entry (levels + 1)).leaves = [([], leaf)] ∧
      (leaf = .type field.type.text ∨ leaf = .struct []) := by
  rcases (StructDesc.innerFields_eq_nil_iff field).mp closed with none | ⟨inner, holds, empty⟩
  · exact ⟨.type field.type.text, by simp [entry, none, FieldEntry.leaves], Or.inl rfl⟩
  · have entries := (nestedEntries_eq_nil_iff levels inner.fields).mpr empty
    exact ⟨.struct [], by simp [entry, holds, entries, FieldEntry.leaves], Or.inr rfl⟩

theorem leaves_entry_opened (levels : Nat) {field : FieldDesc} {inner : StructDesc}
    (holds : field.asStruct = some inner) (some : inner.fields ≠ []) :
    (field.entry (levels + 1)).leaves =
      FieldEntry.leavesOf (nestedEntries levels inner.fields).entries := by
  have entries := mt (nestedEntries_eq_nil_iff levels inner.fields).mp some
  simp [entry, holds, entries, FieldEntry.leaves]

end FieldDesc

namespace StructDesc

theorem exists_step {struct : StructDesc} {field : FieldDesc} (member : field ∈ struct.fields) :
    ∃ step ∈ struct.fields.zipIdx, step.1 = field := by
  obtain ⟨place, atPlace⟩ := List.mem_iff_getElem?.mp member
  exact ⟨(field, place), List.mem_zipIdx_iff_getElem?.mpr atPlace, rfl⟩

/-- The names to a leaf begin with that of a field, whose entry has the leaf. -/
theorem exists_step_of_leaf {struct : StructDesc} {levels : Nat} {path : List String}
    {leaf : FieldEntry}
    (shown : (path, leaf) ∈ FieldEntry.leavesOf
      (FieldDesc.nestedEntries levels struct.fields).entries) :
    ∃ step ∈ struct.fields.zipIdx, ∃ rest, path = step.1.name :: rest ∧
      (rest, leaf) ∈ (step.1.entry levels).leaves := by
  obtain ⟨name, _, rest, member, found, rfl⟩ := (FieldEntry.mem_leavesOf_iff _ _ _).mp shown
  obtain ⟨field, last, rfl⟩ :=
    Option.map_eq_some_iff.mp ((FieldDesc.mem_nestedEntries_iff _ _ _ _).mp member)
  have named : field.name = name := by simpa using List.find?_some last
  obtain ⟨step, isStep, rfl⟩ :=
    exists_step (List.mem_reverse.mp (List.mem_of_find?_eq_some last))
  exact ⟨step, isStep, rest, by rw [named], found⟩

/-- Every leaf of a nested document is reached by a leaf chain. -/
theorem exists_leafChain_of_leaf (struct : StructDesc) (levels : Nat) {path : List String}
    {leaf : FieldEntry}
    (shown : (path, leaf) ∈ FieldEntry.leavesOf
      (FieldDesc.nestedEntries levels struct.fields).entries) :
    ∃ steps, struct.LeafChain (levels + 1) steps ∧ Step.names steps = path ∧
      (leaf = .type (Step.endType steps) ∨ leaf = .struct []) := by
  induction levels generalizing struct path leaf with
  | zero =>
    obtain ⟨step, isStep, rest, rfl, found⟩ := exists_step_of_leaf shown
    have ends : rest = [] ∧ leaf = .type step.1.type.text := by
      simpa [FieldDesc.entry, FieldEntry.leaves] using found
    obtain ⟨rfl, rfl⟩ := ends
    exact ⟨[step], (leafChain_one_iff _ _).mpr ⟨step, isStep, rfl⟩, rfl, Or.inl rfl⟩
  | succ levels ih =>
    obtain ⟨step, isStep, rest, rfl, found⟩ := exists_step_of_leaf shown
    by_cases closed : step.1.innerFields = []
    · obtain ⟨leaf', single, shape⟩ := FieldDesc.leaves_entry_closed levels closed
      rw [single, List.mem_singleton] at found
      cases found
      exact ⟨[step], (leafChain_succ_iff _ _ _).mpr ⟨step, isStep, Or.inl ⟨closed, rfl⟩⟩, rfl,
        shape⟩
    · -- The leaf stands in the object of the inner struct, which has one level less.
      obtain ⟨inner, holds⟩ := exists_inner closed
      rw [innerFields_eq holds] at closed
      rw [FieldDesc.leaves_entry_opened levels holds closed] at found
      obtain ⟨steps, leafChain, rfl, shape⟩ := ih inner found
      refine ⟨step :: steps, (leafChain_succ_iff _ _ _).mpr
        ⟨step, isStep, Or.inr ⟨inner, steps, holds, leafChain, rfl⟩⟩, rfl, ?_⟩
      rwa [Step.endType_cons step steps leafChain.chain.ne_nil]

/-- Every leaf chain leads to a leaf of the nested document, if no struct has two fields of one
name: none of its fields is then hidden behind a later one. -/
theorem LeafChain.exists_leaf {struct : StructDesc} {levels : Nat} {steps : List Step}
    (leafChain : struct.LeafChain (levels + 1) steps) (declared : struct.Declared)
    (distinct : struct.package.DistinctFields) :
    ∃ leaf, (Step.names steps, leaf) ∈ FieldEntry.leavesOf
      (FieldDesc.nestedEntries levels struct.fields).entries := by
  have unique := declared.distinct distinct
  induction levels generalizing struct steps with
  | zero =>
    obtain ⟨step, isStep, rfl⟩ := (leafChain_one_iff _ _).mp leafChain
    have member := FieldDesc.entry_mem_nestedEntries 0 unique
      (List.fst_mem_of_mem_zipIdx isStep)
    refine ⟨.type step.1.type.text, (FieldEntry.mem_leavesOf_iff _ _ _).mpr
      ⟨_, _, [], member, ?_, rfl⟩⟩
    simp [FieldDesc.entry, FieldEntry.leaves]
  | succ levels ih =>
    obtain ⟨step, isStep, ends⟩ := (leafChain_succ_iff _ _ _).mp leafChain
    have listed := List.fst_mem_of_mem_zipIdx isStep
    have member := FieldDesc.entry_mem_nestedEntries (levels + 1) unique listed
    rcases ends with ⟨closed, rfl⟩ | ⟨inner, rest, holds, below, rfl⟩
    · obtain ⟨leaf, single, _⟩ := FieldDesc.leaves_entry_closed levels closed
      exact ⟨leaf, (FieldEntry.mem_leavesOf_iff _ _ _).mpr
        ⟨_, _, [], member, by rw [single]; exact List.mem_singleton_self _, rfl⟩⟩
    · -- The inner struct is of the same package, so its names are distinct as well.
      obtain ⟨declared', samePackage⟩ := declared.inner listed holds
      have distinct' : inner.package.DistinctFields := samePackage ▸ distinct
      obtain ⟨leaf, found⟩ := ih below declared' distinct' (declared'.distinct distinct')
      refine ⟨leaf, (FieldEntry.mem_leavesOf_iff _ _ _).mpr ⟨_, _, _, member, ?_, rfl⟩⟩
      rwa [FieldDesc.leaves_entry_opened levels holds below.chain.fields_ne_nil]

/-- The fields of the nested document of a struct. -/
def nestedFields (struct : StructDesc) (depth : Nat) : SortedMap FieldEntry :=
  FieldDesc.nestedEntries (depth - 1) struct.fields

theorem describe_nested (struct : StructDesc) (depth : Nat) :
    (struct.describe ⟨.nested, depth⟩).fields = .nested (struct.nestedFields depth) := rfl

/-- The two shapes of a document agree. The paths of the flat one are those of the leaves of the
nested one, it has the types that the nested one has, and at the path of an object without fields
it has the type of the field there. -/
theorem flat_agrees_with_nested (struct : StructDesc) (declared : struct.Declared)
    (distinct : struct.package.DistinctFields) (depth : Nat) :
    ∃ flat nested, (struct.describe ⟨.flat, depth⟩).fields = .flat flat ∧
      (struct.describe ⟨.nested, depth⟩).fields = .nested nested ∧
      (∀ key, key ∈ flat.keys ↔
        ∃ path leaf, (path, leaf) ∈ FieldEntry.leavesOf nested.entries ∧ dotted path = key) ∧
      (∀ path text, (path, .type text) ∈ FieldEntry.leavesOf nested.entries →
        flat.get? (dotted path) = some text) ∧
      ∀ path, (path, .struct []) ∈ FieldEntry.leavesOf nested.entries →
        (∃ steps, struct.Chain steps ∧ Step.names steps = path) ∧
        ∀ steps, struct.Chain steps → Step.names steps = path →
          flat.get? (dotted path) = some (Step.endType steps) := by
  -- Both documents are read off the leaf chains.
  have reached : ∀ path leaf, (path, leaf) ∈ FieldEntry.leavesOf
      (struct.nestedFields depth).entries → ∃ steps, struct.LeafChain depth steps ∧
        Step.names steps = path ∧ (leaf = .type (Step.endType steps) ∨ leaf = .struct []) := by
    intro path leaf shown
    obtain ⟨steps, leafChain, ends⟩ := exists_leafChain_of_leaf struct (depth - 1) shown
    exact ⟨steps, (leafChain_pred_succ struct depth steps).mp leafChain, ends⟩
  refine ⟨struct.flatFields depth, struct.nestedFields depth, describe_flat struct depth,
    describe_nested struct depth, ?_, ?_, ?_⟩
  · intro key
    rw [mem_flatFields_iff struct declared]
    constructor
    · rintro ⟨steps, leafChain, rfl⟩
      obtain ⟨leaf, shown⟩ := LeafChain.exists_leaf
        ((leafChain_pred_succ struct depth steps).mpr leafChain) declared distinct
      exact ⟨Step.names steps, leaf, shown, rfl⟩
    · rintro ⟨path, leaf, shown, rfl⟩
      obtain ⟨steps, leafChain, rfl, _⟩ := reached path leaf shown
      exact ⟨steps, leafChain, rfl⟩
  · intro path text shown
    obtain ⟨steps, leafChain, rfl, same | empty⟩ := reached path _ shown
    · cases same
      exact leafChain.flatFields_get? declared distinct
    · cases empty
  · intro path shown
    obtain ⟨steps, leafChain, rfl, _⟩ := reached path _ shown
    refine ⟨⟨steps, leafChain.chain, rfl⟩, fun others chain same => ?_⟩
    rw [chain.eq_of_path leafChain.chain declared distinct (congrArg dotted same)]
    exact leafChain.flatFields_get? declared distinct

/-- A field that holds a struct without fields is an object without fields in the nested document,
and has its type in the flat one. -/
theorem flat_agrees_with_nested_node :
    Sample.nodeDesc.Declared ∧ Sample.nodeDesc.package.DistinctFields ∧
      (["mark"], .struct []) ∈ FieldEntry.leavesOf (Sample.nodeDesc.nestedFields 2).entries ∧
      ∃ steps, Sample.nodeDesc.Chain steps ∧ Step.names steps = ["mark"] ∧
        (Sample.nodeDesc.flatFields 2).get? "mark" = some (Step.endType steps) := by
  have leaves : FieldEntry.leavesOf (Sample.nodeDesc.nestedFields 2).entries =
      [(["id"], .type "u64"), (["mark"], .struct []), (["next", "id"], .type "u64"),
        (["next", "mark"], .type "Mark"), (["next", "next"], .type "Box<Node>")] := by rfl
  have shown : (["mark"], .struct []) ∈ FieldEntry.leavesOf
      (Sample.nodeDesc.nestedFields 2).entries := by simp [leaves]
  obtain ⟨flat, nested, shownFlat, shownNested, _, _, objects⟩ :=
    flat_agrees_with_nested Sample.nodeDesc Sample.nodeDesc_declared Sample.package_distinct 2
  cases shownFlat
  cases shownNested
  obtain ⟨⟨steps, chain, names⟩, types⟩ := objects ["mark"] shown
  exact ⟨Sample.nodeDesc_declared, Sample.package_distinct, shown, steps, chain, names,
    types steps chain names⟩

end StructDesc

end StructInventory
