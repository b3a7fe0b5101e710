import Mathlib.Data.List.Chain
import Mathlib.Data.List.Duplicate
import Mathlib.Data.List.Perm.Subperm
import Mathlib.Logic.Relation
import StructInventory.Proofs.NestedDocument

/-!
Structs that lead back to themselves. Nothing remembers which structs a document has opened; the
bound on the depth alone ends it. Where the fields of a struct lead into no cycle, a bound of as
many levels as there are structs already opens everything, since a longer chain would meet some
struct twice. Where they do lead into one, every larger bound opens a struct that the bound before
it left closed.
-/

namespace StructInventory

namespace StructDesc

/-- An exported field of one struct holds the other. -/
def Holds (struct inner : StructDesc) : Prop := ∃ field ∈ struct.fields, field.asStruct = some inner

/-- The fields of a struct lead to one, perhaps to itself, whose fields lead back to it. -/
def MeetsCycle (struct : StructDesc) : Prop :=
  ∃ inner, Relation.ReflTransGen Holds struct inner ∧ Relation.TransGen Holds inner inner

/-- From a struct one can go on into a held struct so many times. -/
def Descends : Nat → StructDesc → Prop
  | 0, _ => True
  | times + 1, struct => ∃ inner, struct.Holds inner ∧ inner.Descends times

/-- A held struct is one of the struct types in the scope of its holder. -/
theorem Holds.kept {struct inner : StructDesc} (holds : struct.Holds inner)
    (declared : struct.Declared) :
    inner.Declared ∧ inner.package = struct.package ∧ inner.named.isStruct = true := by
  obtain ⟨field, member, found⟩ := holds
  obtain ⟨declared', samePackage⟩ := declared.inner member found
  exact ⟨declared', samePackage, (FieldDesc.asStruct_eq_some found).2.2⟩

/-! ### Cycles are descents without end -/

/-- From a struct that meets a cycle, some field goes on to one that meets it as well. -/
theorem MeetsCycle.next {struct : StructDesc} (meets : struct.MeetsCycle) :
    ∃ inner, struct.Holds inner ∧ inner.MeetsCycle := by
  obtain ⟨turn, reaches, returns⟩ := meets
  rcases Relation.ReflTransGen.cases_head reaches with rfl | ⟨inner, holds, further⟩
  · obtain ⟨inner, holds, back⟩ := Relation.TransGen.head'_iff.mp returns
    exact ⟨inner, holds, struct, back, returns⟩
  · exact ⟨inner, holds, turn, further, returns⟩

theorem MeetsCycle.descends {struct : StructDesc} (meets : struct.MeetsCycle) (times : Nat) :
    struct.Descends times := by
  induction times generalizing struct with
  | zero => trivial
  | succ times ih =>
    obtain ⟨inner, holds, meets'⟩ := meets.next
    exact ⟨inner, holds, ih meets'⟩

/-- A descent goes through a list of structs, each held by the one before it, and all of them are
struct types of one scope. -/
theorem Descends.exists_list {struct : StructDesc} {times : Nat} (descends : struct.Descends times)
    (declared : struct.Declared) :
    ∃ inners, inners.length = times ∧ List.IsChain Holds (struct :: inners) ∧
      ∀ inner ∈ inners, inner.package = struct.package ∧
        inner.named ∈ struct.package.package.scope.types ∧ inner.named.isStruct = true := by
  induction times generalizing struct with
  | zero => exact ⟨[], rfl, List.isChain_singleton struct, List.forall_mem_nil _⟩
  | succ times ih =>
    obtain ⟨inner, holds, further⟩ := descends
    obtain ⟨declared', samePackage, isStruct⟩ := holds.kept declared
    obtain ⟨inners, count, chain, within⟩ := ih further declared'
    rw [samePackage] at within
    refine ⟨inner :: inners, by simp [count], List.isChain_cons_cons.mpr ⟨holds, chain⟩, ?_⟩
    refine List.forall_mem_cons.mpr ⟨⟨samePackage, ?_, isStruct⟩, within⟩
    rw [← samePackage]
    exact declared'.member

/-- A list of structs that repeats one runs through a cycle. -/
theorem meetsCycle_of_duplicate {struct repeated : StructDesc} {inners : List StructDesc}
    (chain : List.IsChain Holds (struct :: inners))
    (twice : List.Duplicate repeated (struct :: inners)) : struct.MeetsCycle := by
  have ordered : (struct :: inners).Pairwise (Relation.TransGen Holds) :=
    (chain.imp fun _ _ holds => Relation.TransGen.single holds).pairwise
  -- Its two places are in order, so it leads to itself; and the first struct leads to everything.
  have returns : Relation.TransGen Holds repeated repeated := by
    have both := ordered.sublist (List.duplicate_iff_sublist.mp twice)
    exact List.rel_of_pairwise_cons both List.mem_cons_self
  refine ⟨repeated, ?_, returns⟩
  rcases List.mem_cons.mp twice.mem with rfl | later
  · exact Relation.ReflTransGen.refl
  · exact (List.rel_of_pairwise_cons ordered later).to_reflTransGen

/-- As many descents as there are struct types pass through one more struct than that, so that some
struct is met twice. -/
theorem Descends.meetsCycle {struct : StructDesc} (declared : struct.Declared)
    (isStruct : struct.named.isStruct = true)
    (descends : struct.Descends
      (struct.package.package.scope.types.countP NamedType.isStruct)) : struct.MeetsCycle := by
  obtain ⟨inners, count, chain, within⟩ := descends.exists_list declared
  by_cases nodup : (struct :: inners).Nodup
  · -- The structs on the way would be more than there are in scope.
    exfalso
    let all := (struct.package.package.scope.types.filter NamedType.isStruct).map
      fun named => StructDesc.mk named struct.package
    have covered : struct :: inners ⊆ all := by
      intro inner member
      rcases List.mem_cons.mp member with rfl | later
      · exact List.mem_map.mpr
          ⟨inner.named, List.mem_filter.mpr ⟨declared.member, isStruct⟩, rfl⟩
      · obtain ⟨samePackage, inScope, isStruct'⟩ := within inner later
        refine List.mem_map.mpr ⟨inner.named, List.mem_filter.mpr ⟨inScope, isStruct'⟩, ?_⟩
        rw [← samePackage]
    have fits := (nodup.subperm covered).length_le
    rw [List.length_cons, count, List.length_map, ← List.countP_eq_length_filter] at fits
    omega
  · obtain ⟨repeated, twice⟩ := List.exists_duplicate_iff_not_nodup.mpr nodup
    exact meetsCycle_of_duplicate chain twice

/-! ### Bounds that open everything -/

/-- Where no descent is deeper than the bound, every held struct allows one level less. -/
theorem not_descends_inner {struct inner : StructDesc} {levels : Nat}
    (shallow : ¬ struct.Descends (levels + 1)) (holds : struct.Holds inner) :
    ¬ inner.Descends levels :=
  fun deep => shallow ⟨inner, holds, deep⟩

/-- Where there is nothing to descend into, no number of levels opens a field. -/
theorem asStruct_of_shallow {struct : StructDesc} (shallow : ¬ struct.Descends 1) :
    ∀ field ∈ struct.fields, field.asStruct = none := by
  intro field member
  by_contra opened
  obtain ⟨inner, holds⟩ := Option.ne_none_iff_exists'.mp opened
  exact not_descends_inner shallow ⟨field, member, holds⟩ trivial

end StructDesc

namespace FieldDesc

open StructDesc

/-- More levels than there are descents add nothing to a flat document. -/
theorem flatPaths_of_shallow {struct : StructDesc} {levels more : Nat} (le : levels ≤ more)
    (shallow : ¬ struct.Descends (levels + 1)) (above : String) :
    flatPaths more above struct.fields = flatPaths levels above struct.fields := by
  induction levels generalizing struct more above with
  | zero =>
    cases more with
    | zero => rfl
    | succ more =>
      rw [flatPaths, flatPaths, ← List.flatMap_pure_eq_map]
      refine List.flatMap_congr fun field member => ?_
      simp [innerFields, asStruct_of_shallow shallow field member]
  | succ levels ih =>
    obtain ⟨more, rfl⟩ : ∃ less, more = less + 1 := ⟨more - 1, by omega⟩
    rw [flatPaths, flatPaths]
    refine List.flatMap_congr fun field member => ?_
    cases holds : field.asStruct with
    | none => simp [innerFields, holds]
    | some inner =>
      have shallow' := not_descends_inner shallow ⟨field, member, holds⟩
      rw [innerFields_eq holds, ih (Nat.le_of_succ_le_succ le) shallow']

theorem nestedEntries_of_shallow {struct : StructDesc} {levels more : Nat} (le : levels ≤ more)
    (shallow : ¬ struct.Descends (levels + 1)) :
    nestedEntries more struct.fields = nestedEntries levels struct.fields := by
  induction levels generalizing struct more with
  | zero =>
    cases more with
    | zero => rfl
    | succ more =>
      rw [nestedEntries, nestedEntries]
      congr 1
      refine List.map_congr_left fun field member => ?_
      rw [asStruct_of_shallow shallow field member]
  | succ levels ih =>
    obtain ⟨more, rfl⟩ : ∃ less, more = less + 1 := ⟨more - 1, by omega⟩
    rw [nestedEntries, nestedEntries]
    congr 1
    refine List.map_congr_left fun field member => ?_
    cases holds : field.asStruct with
    | none => rfl
    | some inner =>
      have shallow' := not_descends_inner shallow ⟨field, member, holds⟩
      simp only [ih (Nat.le_of_succ_le_succ le) shallow']

end FieldDesc

namespace StructDesc

/-- A document whose bound no descent passes stays the same at every larger bound. -/
theorem describe_of_shallow {struct : StructDesc} {bound depth : Nat} (some : 1 ≤ bound)
    (le : bound ≤ depth) (shallow : ¬ struct.Descends bound) (shape : Shape) :
    struct.describe ⟨shape, depth⟩ = struct.describe ⟨shape, bound⟩ := by
  obtain ⟨levels, rfl⟩ : ∃ levels, bound = levels + 1 := ⟨bound - 1, by omega⟩
  have le' : levels ≤ depth - 1 := by omega
  have fields : struct.fieldMap ⟨shape, depth⟩ = struct.fieldMap ⟨shape, levels + 1⟩ := by
    cases shape with
    | flat => simp only [fieldMap, FieldDesc.flatPaths_of_shallow le' shallow, Nat.add_sub_cancel]
    | nested =>
      simp only [fieldMap, FieldDesc.nestedEntries_of_shallow le' shallow, Nat.add_sub_cancel]
  simp only [describe, fields]

/-! ### Bounds that leave something closed -/

/-- Below a deep enough struct there is a chain of any length whose last field holds a struct with
fields of its own. -/
theorem Descends.exists_chain {struct : StructDesc} {levels : Nat}
    (descends : struct.Descends (levels + 2)) :
    ∃ steps last inner, struct.Chain steps ∧ steps.length = levels + 1 ∧
      steps.getLast? = some last ∧ last.1.asStruct = some inner ∧ inner.fields ≠ [] := by
  induction levels generalizing struct with
  | zero =>
    obtain ⟨inner, ⟨field, member, holds⟩, innermost, ⟨below, member', _⟩, _⟩ := descends
    obtain ⟨step, isStep, rfl⟩ := exists_step member
    exact ⟨[step], step, inner, .last isStep, rfl, rfl, holds, List.ne_nil_of_mem member'⟩
  | succ levels ih =>
    obtain ⟨inner, ⟨field, member, holds⟩, further⟩ := descends
    obtain ⟨step, isStep, rfl⟩ := exists_step member
    obtain ⟨steps, last, innermost, chain, long, isLast, holds', opened⟩ := ih further
    refine ⟨step :: steps, last, innermost, .more isStep holds chain, by simp [long], ?_, holds',
      opened⟩
    obtain ⟨second, others, rfl⟩ := List.exists_cons_of_ne_nil chain.ne_nil
    rw [List.getLast?_cons_cons]
    exact isLast

/-- A chain as long as the bound is a leaf chain there. With one level more its last field is
opened, and no leaf chain has its names. -/
theorem exists_leafChain_lost {struct : StructDesc} {depth : Nat} (some : 1 ≤ depth)
    (declared : struct.Declared) (distinct : struct.package.DistinctFields)
    (descends : struct.Descends (depth + 1)) :
    ∃ steps, struct.LeafChain depth steps ∧
      ∀ others, struct.LeafChain (depth + 1) others → Step.names others ≠ Step.names steps := by
  obtain ⟨levels, rfl⟩ : ∃ levels, depth = levels + 1 := ⟨depth - 1, by omega⟩
  obtain ⟨steps, last, inner, chain, long, isLast, holds, opened⟩ := descends.exists_chain
  refine ⟨steps, ⟨chain, by omega, fun _ _ => Or.inr (Or.inl (by omega))⟩, ?_⟩
  intro others leaf same
  obtain rfl := leaf.chain.eq_of_path chain declared distinct (congrArg dotted same)
  rcases leaf.ends last isLast with none | bound | ⟨inner', holds', empty⟩
  · simp [holds] at none
  · omega
  · rw [holds] at holds'
    cases holds'
    exact opened empty

/-- Whatever the shape, a document that can be opened further is not the same with one level
more. -/
theorem describe_ne_of_descends {struct : StructDesc} {depth : Nat} (some : 1 ≤ depth)
    (declared : struct.Declared) (distinct : struct.package.DistinctFields)
    (descends : struct.Descends (depth + 1)) (shape : Shape) :
    struct.describe ⟨shape, depth⟩ ≠ struct.describe ⟨shape, depth + 1⟩ := by
  obtain ⟨steps, leaf, lost⟩ := exists_leafChain_lost some declared distinct descends
  intro same
  have fields := congrArg Document.fields same
  cases shape with
  | flat =>
    rw [describe_flat, describe_flat, FieldMap.flat.injEq] at fields
    have member := (mem_flatFields_iff struct declared depth _).mpr ⟨steps, leaf, rfl⟩
    rw [fields] at member
    obtain ⟨others, other, path⟩ := (mem_flatFields_iff struct declared _ _).mp member
    -- Where no struct has two fields of one name, the path gives the chain.
    have equal := other.chain.eq_of_path leaf.chain declared distinct path
    exact lost others other (by rw [equal])
  | nested =>
    rw [describe_nested, describe_nested, FieldMap.nested.injEq] at fields
    obtain ⟨shown, found⟩ := LeafChain.exists_leaf
      ((leafChain_pred_succ struct depth steps).mpr leaf) declared distinct
    rw [← nestedFields, fields] at found
    obtain ⟨others, other, names, _⟩ := exists_leafChain_of_leaf struct depth found
    exact lost others other names

/-! ### Cycles and documents -/

/-- A bound as large as the number of struct types opens everything, unless the fields lead into a
cycle. If they do, no bound does: each is told from the next by its document. A document exists at
every bound all the same, and no path in it is longer than the bound. -/
theorem expansion_settles_without_cycle (struct : StructDesc) (declared : struct.Declared)
    (isStruct : struct.named.isStruct = true) (distinct : struct.package.DistinctFields) :
    let count := struct.package.package.scope.types.countP NamedType.isStruct
    (¬ struct.MeetsCycle → ∀ depth, count ≤ depth → ∀ shape,
      struct.describe ⟨shape, depth⟩ = struct.describe ⟨shape, count⟩) ∧
    (struct.MeetsCycle → ∀ depth, 1 ≤ depth → ∀ shape,
      struct.describe ⟨shape, depth⟩ ≠ struct.describe ⟨shape, depth + 1⟩) ∧
    ∀ depth, ∃ flat nested, (struct.describe ⟨.flat, depth⟩).fields = .flat flat ∧
      (struct.describe ⟨.nested, depth⟩).fields = .nested nested ∧
      (∀ key ∈ flat.keys, (key.toList.splitOn '.').length ≤ max 1 depth) ∧
      ∀ path shown, (path, shown) ∈ FieldEntry.leavesOf nested.entries →
        path.length ≤ max 1 depth := by
  intro count
  refine ⟨fun acyclic depth le shape => ?_, fun meets depth some shape => ?_, fun depth => ?_⟩
  · have some : 1 ≤ count := List.countP_pos_iff.mpr ⟨struct.named, declared.member, isStruct⟩
    have shallow := fun deep => acyclic (Descends.meetsCycle declared isStruct deep)
    exact describe_of_shallow some le shallow shape
  · exact describe_ne_of_descends some declared distinct (meets.descends _) shape
  · refine ⟨struct.flatFields depth, struct.nestedFields depth, describe_flat struct depth,
      describe_nested struct depth, fun key member => ?_, fun path shown found => ?_⟩
    · obtain ⟨steps, leaf, rfl⟩ := (mem_flatFields_iff struct declared depth key).mp member
      rw [splitOn_dotted _ (leaf.chain.plain declared) leaf.chain.names_ne_nil]
      simpa [Step.names] using leaf.length_le
    · obtain ⟨steps, leaf, rfl, _⟩ := exists_leafChain_of_leaf struct (depth - 1) found
      have leaf' := (leafChain_pred_succ struct depth steps).mp leaf
      simpa [Step.names] using leaf'.length_le

/-- A struct that holds itself behind a pointer has another document at every bound, and one without
fields has the same at all of them. -/
theorem expansion_settles_without_cycle_node :
    let mark : StructDesc := ⟨(Sample.package.package.scope.lookup "Mark").getD default,
      Sample.package⟩
    Sample.nodeDesc.Declared ∧ mark.Declared ∧ Sample.package.DistinctFields ∧
      Sample.nodeDesc.MeetsCycle ∧ ¬ mark.MeetsCycle ∧
      (∀ depth, 1 ≤ depth → ∀ shape,
        Sample.nodeDesc.describe ⟨shape, depth⟩ ≠ Sample.nodeDesc.describe ⟨shape, depth + 1⟩) ∧
      ∀ depth, 2 ≤ depth → ∀ shape,
        mark.describe ⟨shape, depth⟩ = mark.describe ⟨shape, 2⟩ := by
  intro mark
  have declared : mark.Declared :=
    ⟨Sample.nodeDesc_declared.loaded, List.mem_cons_of_mem _ List.mem_cons_self⟩
  have meets : Sample.nodeDesc.MeetsCycle := by
    have holds : Sample.nodeDesc.Holds Sample.nodeDesc :=
      ⟨Sample.nodeDesc.fields[2], List.getElem_mem _, rfl⟩
    exact ⟨Sample.nodeDesc, .refl, .single holds⟩
  have acyclic : ¬ mark.MeetsCycle := by
    intro meets
    obtain ⟨inner, ⟨field, member, _⟩, _⟩ := meets.next
    exact absurd member (by simp [show mark.fields = [] from rfl])
  refine ⟨Sample.nodeDesc_declared, declared, Sample.package_distinct, meets, acyclic, ?_, ?_⟩
  · exact (expansion_settles_without_cycle Sample.nodeDesc Sample.nodeDesc_declared (by decide)
      Sample.package_distinct).2.1 meets
  · exact (expansion_settles_without_cycle mark declared (by decide) Sample.package_distinct).1
      acyclic

end StructDesc

end StructInventory
