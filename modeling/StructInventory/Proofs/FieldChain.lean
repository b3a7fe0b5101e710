import StructInventory.Document
import StructInventory.Proofs.SourcePackage

/-!
Chains of fields. A chain leads from a struct to one of its exported fields, from there to an
exported field of the struct that this field holds, and so on. The leaf chains at a bound are those
that a document with this bound follows to their end. They can be enumerated depth first in the
order of declaration, although the structs may hold one another in circles: each step into a struct
uses up one level of the bound.
-/

namespace StructInventory

/-- A field and its place among the exported fields of its struct. -/
abbrev Step := FieldDesc × Nat

namespace Step

def names (steps : List Step) : List String := steps.map fun step => step.1.name

def places (steps : List Step) : List Nat := steps.map Prod.snd

/-- The spelling of the type at the end of a chain. -/
def endType (steps : List Step) : String :=
  (steps.getLast?.map fun step => step.1.type.text).getD ""

@[simp] theorem names_cons (step : Step) (steps : List Step) :
    names (step :: steps) = step.1.name :: names steps := rfl

@[simp] theorem endType_singleton (step : Step) : endType [step] = step.1.type.text := rfl

theorem endType_cons (step : Step) (steps : List Step) (more : steps ≠ []) :
    endType (step :: steps) = endType steps := by
  obtain ⟨second, rest, rfl⟩ := List.exists_cons_of_ne_nil more
  simp [endType, List.getLast?_cons_cons]

end Step

/-- No struct of the package has two exported fields of one name. -/
def LoadedPackage.DistinctFields (loaded : LoadedPackage) : Prop :=
  ∀ named ∈ loaded.package.scope.types,
    ((StructDesc.mk named loaded).fields.map FieldDesc.name).Nodup

theorem Sample.package_distinct : Sample.package.DistinctFields := by
  unfold LoadedPackage.DistinctFields
  decide

namespace StructDesc

/-- Each step goes to an exported field of the struct that the field before it holds. -/
inductive Chain : StructDesc → List Step → Prop where
  | last {struct : StructDesc} {step : Step} (member : step ∈ struct.fields.zipIdx) :
      Chain struct [step]
  | more {struct inner : StructDesc} {step : Step} {steps : List Step}
      (member : step ∈ struct.fields.zipIdx) (holds : step.1.asStruct = some inner)
      (rest : Chain inner steps) : Chain struct (step :: steps)

/-- A chain that stays within a bound and cannot or may not be followed further. -/
structure LeafChain (struct : StructDesc) (depth : Nat) (steps : List Step) : Prop where
  chain : struct.Chain steps
  within : ∀ i, 1 ≤ i → i < steps.length → i < depth
  ends : ∀ last, steps.getLast? = some last →
    last.1.asStruct = none ∨ depth ≤ steps.length ∨
      ∃ inner, last.1.asStruct = some inner ∧ inner.fields = []

theorem Chain.ne_nil {struct : StructDesc} {steps : List Step} (chain : struct.Chain steps) :
    steps ≠ [] := by
  cases chain <;> simp

theorem Chain.names_ne_nil {struct : StructDesc} {steps : List Step} (chain : struct.Chain steps) :
    Step.names steps ≠ [] := by
  simpa [Step.names] using chain.ne_nil

/-- Only exported fields are on a chain. -/
theorem Chain.exported {struct : StructDesc} {steps : List Step} (chain : struct.Chain steps) :
    ∀ step ∈ steps, step.1.member.exported = true := by
  have ofMember : ∀ {struct : StructDesc} {step : Step}, step ∈ struct.fields.zipIdx →
      step.1.member.exported = true := by
    intro struct step member
    have field := List.fst_mem_of_mem_zipIdx member
    unfold fields at field
    split at field
    · obtain ⟨found, listed, same⟩ := List.mem_map.mp field
      rw [← same]
      exact (List.mem_filter.mp listed).2
    · simp at field
  induction chain with
  | last member =>
    intro step listed
    rw [List.mem_singleton.mp listed]
    exact ofMember member
  | more member _ _ ih =>
    intro step listed
    rcases List.mem_cons.mp listed with rfl | later
    · exact ofMember member
    · exact ih step later

/-- The names along a chain from a declared struct are plain. -/
theorem Chain.plain {struct : StructDesc} {steps : List Step} (chain : struct.Chain steps)
    (declared : struct.Declared) : ∀ name ∈ Step.names steps, PlainName name := by
  induction chain with
  | last member =>
    intro name listed
    rw [List.mem_singleton.mp listed]
    exact declared.plain _ (List.fst_mem_of_mem_zipIdx member)
  | more member holds _ ih =>
    intro name listed
    have field := List.fst_mem_of_mem_zipIdx member
    rcases List.mem_cons.mp listed with rfl | later
    · exact declared.plain _ field
    · exact ih (declared.inner field holds).1 name later

/-! ### Leaf chains, one step at a time -/

theorem innerFields_eq_nil_iff (field : FieldDesc) :
    field.innerFields = [] ↔
      field.asStruct = none ∨ ∃ inner, field.asStruct = some inner ∧ inner.fields = [] := by
  unfold FieldDesc.innerFields
  cases field.asStruct <;> simp

/-- No bound below one is different from one: the fields of the struct itself are always shown. -/
theorem leafChain_pred_succ (struct : StructDesc) (depth : Nat) (steps : List Step) :
    struct.LeafChain (depth - 1 + 1) steps ↔ struct.LeafChain depth steps := by
  cases depth with
  | succ depth => exact Iff.rfl
  | zero =>
    constructor
    · rintro ⟨chain, within, _⟩
      refine ⟨chain, fun i first inside => ?_, fun _ _ => Or.inr (Or.inl (Nat.zero_le _))⟩
      have below := within i first inside
      omega
    · rintro ⟨chain, within, _⟩
      refine ⟨chain, fun i first inside => ?_, fun _ _ => Or.inr (Or.inl ?_)⟩
      · exact absurd (within i first inside) (Nat.not_lt_zero i)
      · exact List.length_pos_iff.mpr chain.ne_nil

theorem leafChain_one_iff (struct : StructDesc) (steps : List Step) :
    struct.LeafChain 1 steps ↔ ∃ step ∈ struct.fields.zipIdx, steps = [step] := by
  constructor
  · rintro ⟨chain, within, _⟩
    cases chain with
    | @last _ step member => exact ⟨step, member, rfl⟩
    | more _ _ rest =>
      have long := List.length_pos_iff.mpr rest.ne_nil
      have below := within 1 (Nat.le_refl 1) (by simpa using long)
      omega
  · rintro ⟨step, member, rfl⟩
    exact ⟨.last member, fun i first inside => inside, fun _ _ => Or.inr (Or.inl (Nat.le_refl 1))⟩

/-- Below a bound of at least two, a leaf chain stops at a field with nothing to open, or goes on
as a leaf chain of the inner struct with one level less. -/
theorem leafChain_succ_iff (struct : StructDesc) (levels : Nat) (steps : List Step) :
    struct.LeafChain (levels + 2) steps ↔ ∃ step ∈ struct.fields.zipIdx,
      (step.1.innerFields = [] ∧ steps = [step]) ∨
      ∃ inner rest, step.1.asStruct = some inner ∧ inner.LeafChain (levels + 1) rest ∧
        steps = step :: rest := by
  constructor
  · rintro ⟨chain, within, ends⟩
    cases chain with
    | @last _ step member =>
      refine ⟨step, member, Or.inl ⟨?_, rfl⟩⟩
      rw [innerFields_eq_nil_iff]
      rcases ends step rfl with none | bound | empty
      · exact Or.inl none
      · simp at bound
      · exact Or.inr empty
    | @more _ inner step rest member holds tail =>
      -- The first step uses up one level of the bound.
      refine ⟨step, member, Or.inr ⟨inner, rest, holds, ⟨tail, ?_, ?_⟩, rfl⟩⟩
      · intro i first inside
        have below := within (i + 1) (by omega) (by simpa using inside)
        omega
      · intro last isLast
        obtain ⟨second, others, rfl⟩ := List.exists_cons_of_ne_nil tail.ne_nil
        rcases ends last (by rw [List.getLast?_cons_cons]; exact isLast) with none | bound | empty
        · exact Or.inl none
        · refine Or.inr (Or.inl ?_)
          simp only [List.length_cons] at bound ⊢
          omega
        · exact Or.inr (Or.inr empty)
  · rintro ⟨step, member, ⟨closed, rfl⟩ | ⟨inner, rest, holds, ⟨chain, within, ends⟩, rfl⟩⟩
    · refine ⟨.last member, fun i first inside => ?_, ?_⟩
      · simp at inside
        omega
      · intro last isLast
        obtain rfl : step = last := by simpa using isLast
        rcases (innerFields_eq_nil_iff step.1).mp closed with none | empty
        · exact Or.inl none
        · exact Or.inr (Or.inr empty)
    · refine ⟨.more member holds chain, ?_, ?_⟩
      · intro i first inside
        rcases Nat.lt_or_ge 1 i with later | first'
        · have below := within (i - 1) (by omega) (by simp at inside; omega)
          omega
        · omega
      · intro last isLast
        obtain ⟨second, others, rfl⟩ := List.exists_cons_of_ne_nil chain.ne_nil
        rw [List.getLast?_cons_cons] at isLast
        rcases ends last isLast with none | bound | empty
        · exact Or.inl none
        · refine Or.inr (Or.inl ?_)
          simp only [List.length_cons] at bound ⊢
          omega
        · exact Or.inr (Or.inr empty)

theorem Chain.fields_ne_nil {struct : StructDesc} {steps : List Step}
    (chain : struct.Chain steps) : struct.fields ≠ [] := by
  intro empty
  cases chain with
  | last member => simp [empty] at member
  | more member _ _ => simp [empty] at member

theorem innerFields_eq {field : FieldDesc} {inner : StructDesc}
    (holds : field.asStruct = some inner) : field.innerFields = inner.fields := by
  simp [FieldDesc.innerFields, holds]

theorem exists_inner {field : FieldDesc} (opened : field.innerFields ≠ []) :
    ∃ inner, field.asStruct = some inner := by
  cases holds : field.asStruct with
  | none => exact absurd ((innerFields_eq_nil_iff field).mpr (Or.inl holds)) opened
  | some inner => exact ⟨inner, rfl⟩

/-! ### Enumeration -/

/-- The leaf chains of fields, depth first and in the order of declaration, when inner structs may
be opened `levels` deep. -/
def leafChains : Nat → List FieldDesc → List (List Step)
  | 0, fields => fields.zipIdx.map fun step => [step]
  | levels + 1, fields =>
    fields.zipIdx.flatMap fun step =>
      if step.1.innerFields.isEmpty then [[step]]
      else (leafChains levels step.1.innerFields).map (step :: ·)

/-- The enumeration holds exactly the leaf chains. -/
theorem mem_leafChains_iff (struct : StructDesc) (levels : Nat) (steps : List Step) :
    steps ∈ leafChains levels struct.fields ↔ struct.LeafChain (levels + 1) steps := by
  induction levels generalizing struct steps with
  | zero =>
    rw [leafChain_one_iff]
    simp only [leafChains, List.mem_map, eq_comm]
  | succ levels ih =>
    rw [leafChain_succ_iff]
    simp only [leafChains, List.mem_flatMap]
    refine exists_congr fun step => and_congr_right fun _ => ?_
    by_cases closed : step.1.innerFields = []
    · -- An inner struct without fields has no leaf chains of its own.
      simp only [closed, List.isEmpty_nil, if_true, List.mem_singleton, true_and]
      refine ⟨Or.inl, fun alternatives => alternatives.resolve_right ?_⟩
      rintro ⟨inner, rest, holds, leaf, _⟩
      exact leaf.chain.fields_ne_nil ((innerFields_eq holds).symm.trans closed)
    · obtain ⟨inner, holds⟩ := exists_inner closed
      rw [innerFields_eq holds] at closed ⊢
      simp only [List.isEmpty_iff, closed, if_false, List.mem_map, ih, false_and, false_or, holds,
        Option.some.injEq]
      constructor
      · rintro ⟨rest, leaf, same⟩
        exact ⟨inner, rest, rfl, leaf, same.symm⟩
      · rintro ⟨_, rest, rfl, leaf, same⟩
        exact ⟨rest, leaf, same.symm⟩

private theorem zipIdx_ordered (fields : List FieldDesc) :
    fields.zipIdx.Pairwise fun step later => step.2 < later.2 := by
  have indices : (fields.zipIdx.map Prod.snd).Pairwise (· < ·) := by
    rw [List.zipIdx_map_snd]
    exact List.pairwise_lt_range'
  exact List.pairwise_map.mp indices

/-- The enumeration is in the order of declaration: earlier chains have the smaller places where
they first differ. -/
theorem leafChains_ordered (levels : Nat) (fields : List FieldDesc) :
    (leafChains levels fields).Pairwise fun steps later =>
      Step.places steps < Step.places later := by
  induction levels generalizing fields with
  | zero =>
    refine List.pairwise_map.mpr ((zipIdx_ordered fields).imp fun before => ?_)
    exact List.cons_lt_cons_iff.mpr (Or.inl before)
  | succ levels ih =>
    have starts : ∀ step : Step, ∀ steps ∈ (if step.1.innerFields.isEmpty then [[step]]
        else (leafChains levels step.1.innerFields).map (step :: ·)),
        ∃ rest, steps = step :: rest := by
      intro step steps member
      split at member
      · exact ⟨[], List.mem_singleton.mp member⟩
      · obtain ⟨rest, _, same⟩ := List.mem_map.mp member
        exact ⟨rest, same.symm⟩
    refine List.pairwise_flatMap.mpr ⟨?_, (zipIdx_ordered fields).imp ?_⟩
    · -- Chains through one field differ behind it, those through two fields at once.
      intro step _
      split
      · exact List.pairwise_singleton _ _
      · refine List.pairwise_map.mpr ((ih step.1.innerFields).imp fun before => ?_)
        exact List.cons_lt_cons_iff.mpr (Or.inr ⟨rfl, before⟩)
    · intro step step' before steps member later member'
      obtain ⟨rest, rfl⟩ := starts step steps member
      obtain ⟨rest', rfl⟩ := starts step' later member'
      exact List.cons_lt_cons_iff.mpr (Or.inl before)

/-! ### Chains by their names -/

/-- Where no struct has two fields of one name, a step is known by its name. -/
theorem step_eq_of_name {struct : StructDesc} (distinct : (struct.fields.map FieldDesc.name).Nodup)
    {step step' : Step} (member : step ∈ struct.fields.zipIdx)
    (member' : step' ∈ struct.fields.zipIdx) (same : step.1.name = step'.1.name) :
    step = step' := by
  rw [List.mem_zipIdx_iff_getElem?] at member member'
  have inside : step.2 < struct.fields.length := (List.getElem?_eq_some_iff.mp member).1
  -- A name that stands at one place only gives the place, and the place gives the field.
  have place : step.2 = step'.2 := by
    refine (List.getElem?_inj (by simpa using inside) distinct).mp ?_
    rw [List.getElem?_map, List.getElem?_map, member, member']
    exact congrArg some same
  rw [place, member'] at member
  exact Prod.ext (Option.some.inj member).symm place

theorem Declared.distinct {struct : StructDesc} (declared : struct.Declared)
    (distinct : struct.package.DistinctFields) : (struct.fields.map FieldDesc.name).Nodup :=
  distinct struct.named declared.member

/-- Of two chains where the names of one begin those of the other, the chain itself begins the
other, if no struct has two fields of one name. -/
theorem Chain.prefix_of_names {struct : StructDesc} {steps others : List Step}
    (chain : struct.Chain steps) (other : struct.Chain others) (declared : struct.Declared)
    (distinct : struct.package.DistinctFields)
    (begins : Step.names steps <+: Step.names others) : steps <+: others := by
  have unique := declared.distinct distinct
  induction chain generalizing others with
  | @last struct step member =>
    cases other with
    | @last _ step' member' =>
      have same : step.1.name = step'.1.name := by simpa [Step.names] using begins
      obtain rfl := step_eq_of_name unique member member' same
      exact List.prefix_rfl
    | @more _ inner' step' rest' member' _ _ =>
      have same : step.1.name = step'.1.name := by simpa [Step.names] using begins
      obtain rfl := step_eq_of_name unique member member' same
      exact List.cons_prefix_cons.mpr ⟨rfl, List.nil_prefix⟩
  | @more struct inner step rest member holds tail ih =>
    cases other with
    | last member' =>
      have short := begins.length_le
      simp [Step.names] at short
      exact absurd short tail.ne_nil
    | @more _ inner' step' rest' member' holds' tail' =>
      obtain ⟨same, further⟩ := List.cons_prefix_cons.mp begins
      -- The same name is the same field, which holds one struct: both chains go on from there.
      obtain rfl := step_eq_of_name unique member member' same
      obtain rfl : inner = inner' := Option.some.inj (holds.symm.trans holds')
      obtain ⟨declared', samePackage⟩ :=
        declared.inner (List.fst_mem_of_mem_zipIdx member) holds
      have distinct' : inner.package.DistinctFields := samePackage ▸ distinct
      exact List.cons_prefix_cons.mpr
        ⟨rfl, ih tail' declared' distinct' further (declared'.distinct distinct')⟩

/-- Where a chain goes on, the field before holds a struct, from which the rest is a chain. -/
theorem Chain.append_inv {struct : StructDesc} {steps rest : List Step}
    (chain : struct.Chain (steps ++ rest)) (some : steps ≠ []) (further : rest ≠ []) :
    ∃ last inner, steps.getLast? = .some last ∧ last.1.asStruct = .some inner ∧
      inner.Chain rest := by
  induction steps generalizing struct with
  | nil => exact absurd rfl some
  | cons step steps ih =>
    rw [List.cons_append] at chain
    generalize joined : steps ++ rest = tail at chain
    cases chain with
    | last _ => exact absurd (List.append_eq_nil_iff.mp joined).2 further
    | @more _ inner _ _ _ holds after =>
      subst joined
      cases steps with
      | nil => exact ⟨step, inner, rfl, holds, after⟩
      | cons second others =>
        obtain ⟨last, innermost, isLast, found⟩ := ih after (by simp)
        exact ⟨last, innermost, by rw [List.getLast?_cons_cons]; exact isLast, found⟩

/-- No leaf chain goes on where another one ends. -/
theorem LeafChain.eq_of_prefix {struct : StructDesc} {depth : Nat} {steps others : List Step}
    (leaf : struct.LeafChain depth steps) (other : struct.LeafChain depth others)
    (begins : steps <+: others) : steps = others := by
  obtain ⟨rest, rfl⟩ := begins
  by_cases further : rest = []
  · simp [further]
  · have longer := List.length_pos_iff.mpr further
    have some := List.length_pos_iff.mpr leaf.chain.ne_nil
    have below := other.within steps.length some (by rw [List.length_append]; omega)
    -- The longer chain opens the field where the shorter one ends, which none of its reasons
    -- to end there allows.
    obtain ⟨last, inner, isLast, holds, after⟩ :=
      other.chain.append_inv leaf.chain.ne_nil further
    rcases leaf.ends last isLast with none | bound | ⟨inner', holds', empty⟩
    · simp [holds] at none
    · omega
    · obtain rfl : inner = inner' := Option.some.inj (holds.symm.trans holds')
      exact absurd empty after.fields_ne_nil

end StructDesc

end StructInventory
