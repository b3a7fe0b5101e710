import Mathlib.Data.List.Basic
import StructInventory.Proofs.FieldChain
import StructInventory.Proofs.SortedMap

/-!
What a flat document holds. Its paths are the names along the leaf chains at its bound, joined by
dots, and the type at a path is that at the end of the last such chain in the order of declaration:
where two chains have the same path, the later one overwrites the earlier.
-/

namespace StructInventory

/-- Names joined by dots. -/
def dotted (names : List String) : String := String.intercalate "." names

theorem dotted_append (names names' : List String) (some : names ≠ []) (some' : names' ≠ []) :
    dotted (names ++ names') = dotted names ++ "." ++ dotted names' :=
  String.intercalate_append_of_ne_nil some some'

/-- Plain names can be read back from their joined form. -/
theorem splitOn_dotted (names : List String) (plain : ∀ name ∈ names, PlainName name)
    (some : names ≠ []) : (dotted names).toList.splitOn '.' = names.map String.toList := by
  rw [dotted, String.toList_intercalate]
  refine List.splitOn_intercalate '.' ?_ (by simpa using some)
  intro chars member
  obtain ⟨name, listed, rfl⟩ := List.mem_map.mp member
  exact (plain name listed).undotted

/-- A path that is another one or goes on from it after a dot. -/
def AtOrBelow (path above : String) : Prop := path = above ∨ ∃ rest, path = above ++ "." ++ rest

/-- Of plain names, some begin others just when the path of the others goes on from theirs. -/
theorem dotted_atOrBelow_iff (names names' : List String)
    (plain : ∀ name ∈ names, PlainName name) (plain' : ∀ name ∈ names', PlainName name)
    (some : names ≠ []) (some' : names' ≠ []) :
    AtOrBelow (dotted names') (dotted names) ↔ names <+: names' := by
  constructor
  · intro joined
    have pieces : ∃ more, names'.map String.toList = names.map String.toList ++ more := by
      rw [← splitOn_dotted names plain some, ← splitOn_dotted names' plain' some']
      rcases joined with same | ⟨rest, same⟩
      · exact ⟨[], by rw [same, List.append_nil]⟩
      · refine ⟨rest.toList.splitOn '.', ?_⟩
        rw [same, String.toList_append, String.toList_append, List.append_assoc]
        exact List.splitOn_append_cons_self _ _
    obtain ⟨more, split⟩ := pieces
    obtain ⟨front, rest, rfl, fronts, _⟩ := List.map_eq_append_iff.mp split
    have same : front = names :=
      (List.map_inj_right fun a b equal => String.toList_inj.mp equal).mp fronts
    exact ⟨rest, by rw [same]⟩
  · rintro ⟨rest, rfl⟩
    by_cases further : rest = []
    · exact Or.inl (by rw [further, List.append_nil])
    · exact Or.inr ⟨dotted rest, dotted_append names rest some further⟩

namespace FieldDesc

/-- A path below another one, which may be empty. -/
def below (above path : String) : String := if above = "" then path else above ++ "." ++ path

private theorem below_below (above name path : String) (named : name ≠ "") :
    below (below above name) path = below above (name ++ "." ++ path) := by
  unfold below
  by_cases top : above = ""
  · simp [top, named]
  · simp [top, String.append_assoc]

/-- Flat paths are the enumerated leaf chains, each with its names joined and its last type. -/
theorem flatPaths_eq (struct : StructDesc) (declared : struct.Declared) (levels : Nat)
    (above : String) :
    flatPaths levels above struct.fields =
      (StructDesc.leafChains levels struct.fields).map fun steps =>
        (below above (dotted (Step.names steps)), Step.endType steps) := by
  induction levels generalizing struct above with
  | zero =>
    rw [flatPaths, StructDesc.leafChains, List.map_map]
    conv_lhs => rw [← List.zipIdx_map_fst 0 struct.fields, List.map_map]
    refine List.map_congr_left fun step _ => ?_
    simp [dotted, Step.names, pathBelow, below]
  | succ levels ih =>
    rw [flatPaths, StructDesc.leafChains, List.map_flatMap]
    conv_lhs => rw [← List.zipIdx_map_fst 0 struct.fields, List.flatMap_map]
    refine List.flatMap_congr fun step member => ?_
    have field := List.fst_mem_of_mem_zipIdx member
    by_cases closed : step.1.innerFields = []
    · simp [closed, dotted, Step.names, pathBelow, below]
    · -- The name of the field goes before the paths of the fields below it.
      obtain ⟨inner, holds⟩ := StructDesc.exists_inner closed
      have named := (declared.plain step.1 field).nonempty
      rw [StructDesc.innerFields_eq holds] at closed ⊢
      simp only [List.isEmpty_iff, closed, if_false, List.map_map]
      rw [ih inner (declared.inner field holds).1]
      refine List.map_congr_left fun rest listed => ?_
      have chain := ((StructDesc.mem_leafChains_iff inner levels rest).mp listed).chain
      have joined : dotted (step.1.name :: Step.names rest) =
          step.1.name ++ "." ++ dotted (Step.names rest) :=
        dotted_append [step.1.name] (Step.names rest) (by simp) chain.names_ne_nil
      simp only [Function.comp_apply, Step.names_cons, joined,
        Step.endType_cons step rest chain.ne_nil]
      exact congrArg (·, _) (below_below above step.1.name _ named)

end FieldDesc

namespace StructDesc

/-- The fields of the flat document of a struct. -/
def flatFields (struct : StructDesc) (depth : Nat) : SortedMap String :=
  .ofList (FieldDesc.flatPaths (depth - 1) "" struct.fields)

theorem describe_flat (struct : StructDesc) (depth : Nat) :
    (struct.describe ⟨.flat, depth⟩).fields = .flat (struct.flatFields depth) := rfl

theorem flatFields_eq (struct : StructDesc) (declared : struct.Declared) (depth : Nat) :
    struct.flatFields depth = .ofList ((leafChains (depth - 1) struct.fields).map fun steps =>
      (dotted (Step.names steps), Step.endType steps)) := by
  rw [flatFields, FieldDesc.flatPaths_eq struct declared]
  rfl

theorem mem_leafChains_pred_iff (struct : StructDesc) (depth : Nat) (steps : List Step) :
    steps ∈ leafChains (depth - 1) struct.fields ↔ struct.LeafChain depth steps :=
  (mem_leafChains_iff struct (depth - 1) steps).trans (leafChain_pred_succ struct depth steps)

/-- Where no struct has two fields of one name, a chain begins those with paths below its own. -/
theorem Chain.prefix_of_path {struct : StructDesc} {steps others : List Step}
    (chain : struct.Chain steps) (other : struct.Chain others) (declared : struct.Declared)
    (distinct : struct.package.DistinctFields)
    (below : AtOrBelow (dotted (Step.names others)) (dotted (Step.names steps))) :
    steps <+: others := by
  refine chain.prefix_of_names other declared distinct ?_
  exact (dotted_atOrBelow_iff _ _ (chain.plain declared) (other.plain declared)
    chain.names_ne_nil other.names_ne_nil).mp below

theorem Chain.eq_of_path {struct : StructDesc} {steps others : List Step}
    (chain : struct.Chain steps) (other : struct.Chain others) (declared : struct.Declared)
    (distinct : struct.package.DistinctFields)
    (same : dotted (Step.names steps) = dotted (Step.names others)) : steps = others := by
  have begins := chain.prefix_of_path other declared distinct (Or.inl same.symm)
  have begins' := other.prefix_of_path chain declared distinct (Or.inl same)
  exact begins.eq_of_length_le begins'.length_le

/-- The paths of a flat document are those of the leaf chains. -/
theorem mem_flatFields_iff (struct : StructDesc) (declared : struct.Declared) (depth : Nat)
    (key : String) :
    key ∈ (struct.flatFields depth).keys ↔
      ∃ steps, struct.LeafChain depth steps ∧ dotted (Step.names steps) = key := by
  rw [flatFields_eq struct declared, SortedMap.mem_keys_ofList, List.map_map, List.mem_map]
  simp only [mem_leafChains_pred_iff, Function.comp_apply]

/-- Of the leaf chains with a path, the last in the order of declaration. -/
structure LastLeaf (struct : StructDesc) (depth : Nat) (key : String) (steps : List Step) :
    Prop where
  leaf : struct.LeafChain depth steps
  path : dotted (Step.names steps) = key
  last : ∀ others, struct.LeafChain depth others → dotted (Step.names others) = key →
    ¬ Step.places steps < Step.places others

/-- The type at a path of a flat document is that at the end of the last leaf chain. -/
theorem flatFields_get?_iff (struct : StructDesc) (declared : struct.Declared) (depth : Nat)
    (key text : String) :
    (struct.flatFields depth).get? key = some text ↔
      ∃ steps, struct.LastLeaf depth key steps ∧ Step.endType steps = text := by
  have ordered := leafChains_ordered (depth - 1) struct.fields
  have listed := mem_leafChains_pred_iff struct depth
  rw [flatFields_eq struct declared, SortedMap.get?_ofList, ← List.map_reverse,
    List.lookup_eq_some_iff]
  constructor
  · rintro ⟨later, earlier, split, differ⟩
    obtain ⟨after, rest, enumerated, rfl, atKey⟩ := List.map_eq_append_iff.mp split
    obtain ⟨steps, before, rfl, binding, rfl⟩ := List.map_eq_cons_iff.mp atKey
    obtain ⟨path, ends⟩ := Prod.mk.inj binding
    rw [List.reverse_eq_iff, List.reverse_append, List.reverse_cons, List.append_assoc,
      List.singleton_append] at enumerated
    rw [enumerated, List.pairwise_append, List.pairwise_cons] at ordered
    have member : steps ∈ leafChains (depth - 1) struct.fields := by simp [enumerated]
    refine ⟨steps, ⟨(listed steps).mp member, path, ?_⟩, ends⟩
    intro others leaf samePath
    -- A chain with this path is not enumerated later, or it would have been found instead.
    have present := (listed others).mpr leaf
    simp only [enumerated, List.mem_append, List.mem_cons, List.mem_reverse] at present
    rcases present with sooner | rfl | beyond
    · exact List.lt_asymm
        (ordered.2.2 others (List.mem_reverse.mpr sooner) steps List.mem_cons_self)
    · exact List.lt_irrefl _
    · exact absurd samePath.symm (by simpa using differ _ (List.mem_map_of_mem beyond))
  · rintro ⟨steps, ⟨leaf, path, last⟩, ends⟩
    obtain ⟨before, after, enumerated⟩ := List.append_of_mem ((listed steps).mpr leaf)
    rw [enumerated, List.pairwise_append, List.pairwise_cons] at ordered
    refine ⟨after.reverse.map fun steps => (dotted (Step.names steps), Step.endType steps),
      before.reverse.map fun steps => (dotted (Step.names steps), Step.endType steps), ?_, ?_⟩
    · simp [enumerated, path, ends]
    · intro binding member
      obtain ⟨others, beyond, rfl⟩ := List.mem_map.mp member
      have inside := List.mem_reverse.mp beyond
      have present : others ∈ leafChains (depth - 1) struct.fields := by simp [enumerated, inside]
      have larger := ordered.2.1.1 others inside
      refine bne_iff_ne.mpr fun samePath => ?_
      exact absurd larger (last others ((listed others).mp present) samePath.symm)

/-- Where no struct has two fields of one name, every leaf chain gives the type at its path. -/
theorem LeafChain.flatFields_get? {struct : StructDesc} {depth : Nat} {steps : List Step}
    (leaf : struct.LeafChain depth steps) (declared : struct.Declared)
    (distinct : struct.package.DistinctFields) :
    (struct.flatFields depth).get? (dotted (Step.names steps)) = some (Step.endType steps) := by
  refine (flatFields_get?_iff struct declared depth _ _).mpr ⟨steps, ⟨leaf, rfl, ?_⟩, rfl⟩
  intro others other same
  cases leaf.chain.eq_of_path other.chain declared distinct same.symm
  exact List.lt_irrefl _

/-- A leaf chain has no more steps than its bound, except for the one that is always shown. -/
theorem LeafChain.length_le {struct : StructDesc} {depth : Nat} {steps : List Step}
    (leaf : struct.LeafChain depth steps) : steps.length ≤ max 1 depth := by
  by_cases long : 1 < steps.length
  · have below := leaf.within (steps.length - 1) (by omega) (by omega)
    omega
  · omega

/-- A flat document is exact: its paths are those of the leaf chains at its bound, of chains with
one path the last gives the type, no field that is not exported has a part in it, and no path has
more names than the bound allows. -/
theorem flat_document_exact (struct : StructDesc) (declared : struct.Declared) (depth : Nat) :
    ∃ fields, (struct.describe ⟨.flat, depth⟩).fields = .flat fields ∧
      (∀ key, key ∈ fields.keys ↔
        ∃ steps, struct.LeafChain depth steps ∧ dotted (Step.names steps) = key) ∧
      (∀ key text, fields.get? key = some text ↔
        ∃ steps, struct.LastLeaf depth key steps ∧ Step.endType steps = text) ∧
      (∀ steps, struct.LeafChain depth steps → ∀ step ∈ steps, step.1.member.exported = true) ∧
      ∀ key ∈ fields.keys, (key.toList.splitOn '.').length ≤ max 1 depth := by
  refine ⟨struct.flatFields depth, describe_flat struct depth,
    mem_flatFields_iff struct declared depth, flatFields_get?_iff struct declared depth,
    fun steps leaf => leaf.chain.exported, ?_⟩
  intro key member
  obtain ⟨steps, leaf, rfl⟩ := (mem_flatFields_iff struct declared depth key).mp member
  rw [splitOn_dotted _ (leaf.chain.plain declared) leaf.chain.names_ne_nil]
  simpa [Step.names] using leaf.length_le

/-- A struct that holds itself is cut at the bound, where its type is shown instead. -/
theorem flat_document_exact_node :
    Sample.nodeDesc.Declared ∧
      ∃ steps, Sample.nodeDesc.LastLeaf 2 "next.next" steps ∧ Step.endType steps = "Box<Node>" := by
  obtain ⟨fields, shown, _, types, _⟩ :=
    flat_document_exact Sample.nodeDesc Sample.nodeDesc_declared 2
  cases shown
  exact ⟨Sample.nodeDesc_declared, (types "next.next" "Box<Node>").mp (by decide)⟩

end StructDesc

end StructInventory
