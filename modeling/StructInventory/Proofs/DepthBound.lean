import StructInventory.Proofs.NestedDocument

/-!
What a larger bound on the depth does to a document: it only expands it. Every path of the flat
document is kept or goes on, nothing is added elsewhere, and in the nested document every object
stays with the same names, while a type may give way to an object.
-/

namespace StructInventory

namespace StructDesc

/-! ### Leaf chains at two bounds -/

/-- A struct with exported fields has a leaf chain at every bound. -/
theorem exists_leafChain (struct : StructDesc) (levels : Nat) (some : struct.fields ≠ []) :
    ∃ steps, struct.LeafChain (levels + 1) steps := by
  induction levels generalizing struct with
  | zero =>
    obtain ⟨field, listed⟩ := List.exists_mem_of_ne_nil _ some
    obtain ⟨step, isStep, _⟩ := exists_step listed
    exact ⟨[step], (leafChain_one_iff _ _).mpr ⟨step, isStep, rfl⟩⟩
  | succ levels ih =>
    obtain ⟨field, listed⟩ := List.exists_mem_of_ne_nil _ some
    obtain ⟨step, isStep, _⟩ := exists_step listed
    by_cases closed : step.1.innerFields = []
    · exact ⟨[step], (leafChain_succ_iff _ _ _).mpr ⟨step, isStep, Or.inl ⟨closed, rfl⟩⟩⟩
    · obtain ⟨inner, holds⟩ := exists_inner closed
      obtain ⟨rest, below⟩ := ih inner (innerFields_eq holds ▸ closed)
      exact ⟨step :: rest, (leafChain_succ_iff _ _ _).mpr
        ⟨step, isStep, Or.inr ⟨inner, rest, holds, below, rfl⟩⟩⟩

private theorem raise_levels {struct : StructDesc} {low high : Nat} {steps : List Step}
    (le : low ≤ high) (leaf : struct.LeafChain (low + 1) steps) :
    ∃ rest, struct.LeafChain (high + 1) (steps ++ rest) := by
  induction low generalizing struct high steps with
  | zero =>
    obtain ⟨step, isStep, rfl⟩ := (leafChain_one_iff _ _).mp leaf
    cases high with
    | zero => exact ⟨[], (leafChain_one_iff _ _).mpr ⟨step, isStep, rfl⟩⟩
    | succ high =>
      -- A field that can be opened goes on with any leaf chain of its struct.
      by_cases closed : step.1.innerFields = []
      · exact ⟨[], (leafChain_succ_iff _ _ _).mpr ⟨step, isStep, Or.inl ⟨closed, rfl⟩⟩⟩
      · obtain ⟨inner, holds⟩ := exists_inner closed
        obtain ⟨rest, below⟩ := exists_leafChain inner high (innerFields_eq holds ▸ closed)
        exact ⟨rest, (leafChain_succ_iff _ _ _).mpr
          ⟨step, isStep, Or.inr ⟨inner, rest, holds, below, rfl⟩⟩⟩
  | succ low ih =>
    obtain ⟨high, rfl⟩ : ∃ less, high = less + 1 := ⟨high - 1, by omega⟩
    obtain ⟨step, isStep, ⟨closed, rfl⟩ | ⟨inner, tail, holds, below, rfl⟩⟩ :=
      (leafChain_succ_iff _ _ _).mp leaf
    · exact ⟨[], (leafChain_succ_iff _ _ _).mpr ⟨step, isStep, Or.inl ⟨closed, rfl⟩⟩⟩
    · obtain ⟨rest, raised⟩ := ih (Nat.le_of_succ_le_succ le) below
      exact ⟨rest, (leafChain_succ_iff _ _ _).mpr
        ⟨step, isStep, Or.inr ⟨inner, tail ++ rest, holds, raised, rfl⟩⟩⟩

/-- A leaf chain can be completed to one at a larger bound. -/
theorem LeafChain.raise {struct : StructDesc} {low high : Nat} {steps : List Step}
    (leaf : struct.LeafChain low steps) (le : low ≤ high) :
    ∃ rest, struct.LeafChain high (steps ++ rest) := by
  obtain ⟨rest, raised⟩ := raise_levels (Nat.sub_le_sub_right le 1)
    ((leafChain_pred_succ struct low steps).mpr leaf)
  exact ⟨rest, (leafChain_pred_succ struct high _).mp raised⟩

private theorem lower_levels {struct : StructDesc} {low high : Nat} {steps : List Step}
    (le : low ≤ high) (leaf : struct.LeafChain (high + 1) steps) :
    ∃ kept, kept <+: steps ∧ struct.LeafChain (low + 1) kept := by
  induction low generalizing struct high steps with
  | zero =>
    cases leaf.chain with
    | @last _ step isStep =>
      exact ⟨[step], List.prefix_rfl, (leafChain_one_iff _ _).mpr ⟨step, isStep, rfl⟩⟩
    | @more _ _ step rest isStep _ _ =>
      exact ⟨[step], ⟨rest, rfl⟩, (leafChain_one_iff _ _).mpr ⟨step, isStep, rfl⟩⟩
  | succ low ih =>
    obtain ⟨high, rfl⟩ : ∃ less, high = less + 1 := ⟨high - 1, by omega⟩
    obtain ⟨step, isStep, ⟨closed, rfl⟩ | ⟨inner, tail, holds, below, rfl⟩⟩ :=
      (leafChain_succ_iff _ _ _).mp leaf
    · exact ⟨[step], List.prefix_rfl,
        (leafChain_succ_iff _ _ _).mpr ⟨step, isStep, Or.inl ⟨closed, rfl⟩⟩⟩
    · obtain ⟨kept, begins, lowered⟩ := ih (Nat.le_of_succ_le_succ le) below
      exact ⟨step :: kept, List.cons_prefix_cons.mpr ⟨rfl, begins⟩, (leafChain_succ_iff _ _ _).mpr
        ⟨step, isStep, Or.inr ⟨inner, kept, holds, lowered, rfl⟩⟩⟩

/-- A leaf chain begins with one at a smaller bound. -/
theorem LeafChain.lower {struct : StructDesc} {low high : Nat} {steps : List Step}
    (leaf : struct.LeafChain high steps) (le : low ≤ high) :
    ∃ kept, kept <+: steps ∧ struct.LeafChain low kept := by
  obtain ⟨kept, begins, lowered⟩ := lower_levels (Nat.sub_le_sub_right le 1)
    ((leafChain_pred_succ struct high steps).mpr leaf)
  exact ⟨kept, begins, (leafChain_pred_succ struct low kept).mp lowered⟩

end StructDesc

/-! ### Entries at two bounds -/

namespace FieldEntry

/-- The entry that names lead to. -/
def at? : List String → FieldEntry → Option FieldEntry
  | [], entry => some entry
  | name :: path, .struct fields => (fields.lookup name).bind (at? path)
  | _ :: _, .type _ => none

/-- What may become of an entry when more structs are opened: an object keeps its names, and a type
stays or gives way to an object. -/
inductive Expands : FieldEntry → FieldEntry → Prop where
  | type (text : String) : Expands (.type text) (.type text)
  | opened (text : String) (fields : List (String × FieldEntry)) :
      Expands (.type text) (.struct fields)
  | object {fields fields' : List (String × FieldEntry)}
      (names : fields'.map Prod.fst = fields.map Prod.fst) :
      Expands (.struct fields) (.struct fields')

end FieldEntry

namespace FieldDesc

/-- With more levels a struct that was opened stays so, and a type is expanded. -/
theorem entry_expands (field : FieldDesc) {low high : Nat} (le : low ≤ high) :
    (∃ (inner : StructDesc) (low' high' : Nat), low' ≤ high' ∧
      field.entry low = .struct (nestedEntries low' inner.fields).entries ∧
      field.entry high = .struct (nestedEntries high' inner.fields).entries) ∨
    field.entry low = .type field.type.text ∧ (field.entry low).Expands (field.entry high) := by
  cases holds : field.asStruct with
  | none =>
    have same : ∀ levels, field.entry levels = .type field.type.text := by
      intro levels
      cases levels <;> simp [entry, holds]
    exact Or.inr ⟨same low, by rw [same low, same high]; exact .type _⟩
  | some inner =>
    cases low with
    | zero =>
      refine Or.inr ⟨rfl, ?_⟩
      cases high with
      | zero => exact .type _
      | succ high =>
        simp only [entry, holds]
        exact .opened _ _
    | succ low =>
      obtain ⟨high, rfl⟩ : ∃ less, high = less + 1 := ⟨high - 1, by omega⟩
      exact Or.inl ⟨inner, low, high, Nat.le_of_succ_le_succ le, by simp [entry, holds],
        by simp [entry, holds]⟩

/-- Whatever a path leads to is expanded when more levels are opened. -/
theorem nestedEntries_expands (path : List String) (fields : List FieldDesc) {low high : Nat}
    (le : low ≤ high) {shown : FieldEntry}
    (found : FieldEntry.at? path (.struct (nestedEntries low fields).entries) = some shown) :
    ∃ wider, FieldEntry.at? path (.struct (nestedEntries high fields).entries) = some wider ∧
      shown.Expands wider := by
  induction path generalizing fields low high with
  | nil =>
    cases found
    refine ⟨_, rfl, .object ?_⟩
    have names : ∀ levels, (fields.map fun field => (field.name, field.entry levels)).map
        Prod.fst = fields.map FieldDesc.name := by
      intro levels
      rw [List.map_map]
      rfl
    rw [nestedEntries_eq, nestedEntries_eq]
    exact SortedMap.keys_ofList_eq _ _ ((names high).trans (names low).symm)
  | cons name path ih =>
    -- At both bounds the name leads to the entry of the same field.
    have reads : ∀ levels, FieldEntry.at? (name :: path)
        (.struct (nestedEntries levels fields).entries) =
          ((fields.reverse.find? fun field => field.name = name).map (entry levels)).bind
            (FieldEntry.at? path) := by
      intro levels
      rw [← nestedEntries_get?]
      rfl
    rw [reads] at found ⊢
    cases last : fields.reverse.find? fun field => field.name = name with
    | none => simp [last] at found
    | some field =>
      rw [last, Option.map_some, Option.bind_some] at found
      rw [Option.map_some, Option.bind_some]
      rcases field.entry_expands le with ⟨inner, low', high', le', lower, higher⟩ | ⟨type, expands⟩
      · rw [lower] at found
        rw [higher]
        exact ih inner.fields le' found
      · rw [type] at found expands
        cases path with
        | nil =>
          cases found
          exact ⟨_, rfl, expands⟩
        | cons _ _ => cases found

end FieldDesc

namespace StructDesc

/-! ### Documents at two bounds -/

theorem Chain.atOrBelow_of_begins {struct : StructDesc} {steps others : List Step}
    (chain : struct.Chain steps) (other : struct.Chain others) (declared : struct.Declared)
    (begins : steps <+: others) :
    AtOrBelow (dotted (Step.names others)) (dotted (Step.names steps)) :=
  (dotted_atOrBelow_iff _ _ (chain.plain declared) (other.plain declared) chain.names_ne_nil
    other.names_ne_nil).mpr (begins.map _)

section

variable {struct : StructDesc} {low high : Nat} {key : String}

/-- Every path is kept or goes on. -/
theorem exists_flat_below (declared : struct.Declared) (le : low ≤ high)
    (member : key ∈ (struct.flatFields low).keys) :
    ∃ key' ∈ (struct.flatFields high).keys, AtOrBelow key' key := by
  obtain ⟨steps, leaf, rfl⟩ := (mem_flatFields_iff struct declared low key).mp member
  obtain ⟨rest, raised⟩ := leaf.raise le
  exact ⟨_, (mem_flatFields_iff struct declared high _).mpr ⟨_, raised, rfl⟩,
    leaf.chain.atOrBelow_of_begins raised.chain declared (List.prefix_append steps rest)⟩

/-- Every path comes from one at the smaller bound. -/
theorem exists_flat_above (declared : struct.Declared) (le : low ≤ high)
    (member : key ∈ (struct.flatFields high).keys) :
    ∃ key' ∈ (struct.flatFields low).keys, AtOrBelow key key' := by
  obtain ⟨steps, leaf, rfl⟩ := (mem_flatFields_iff struct declared high key).mp member
  obtain ⟨kept, begins, lowered⟩ := leaf.lower le
  exact ⟨_, (mem_flatFields_iff struct declared low _).mpr ⟨_, lowered, rfl⟩,
    lowered.chain.atOrBelow_of_begins leaf.chain declared begins⟩

theorem flat_above_unique (declared : struct.Declared) (distinct : struct.package.DistinctFields)
    (member : key ∈ (struct.flatFields high).keys) {first second : String}
    (isFirst : first ∈ (struct.flatFields low).keys) (above : AtOrBelow key first)
    (isSecond : second ∈ (struct.flatFields low).keys) (above' : AtOrBelow key second) :
    first = second := by
  obtain ⟨steps, leaf, rfl⟩ := (mem_flatFields_iff struct declared high key).mp member
  obtain ⟨one, leafOne, rfl⟩ := (mem_flatFields_iff struct declared low first).mp isFirst
  obtain ⟨two, leafTwo, rfl⟩ := (mem_flatFields_iff struct declared low second).mp isSecond
  have begins := leafOne.chain.prefix_of_path leaf.chain declared distinct above
  have begins' := leafTwo.chain.prefix_of_path leaf.chain declared distinct above'
  -- Two beginnings of one chain are comparable, and no leaf chain goes on where another ends.
  rcases List.prefix_or_prefix_of_prefix begins begins' with shorter | longer
  · rw [leafOne.eq_of_prefix leafTwo shorter]
  · rw [leafTwo.eq_of_prefix leafOne longer]

theorem flat_type_kept (declared : struct.Declared) (distinct : struct.package.DistinctFields)
    (member : key ∈ (struct.flatFields low).keys) (member' : key ∈ (struct.flatFields high).keys) :
    (struct.flatFields high).get? key = (struct.flatFields low).get? key := by
  obtain ⟨steps, leaf, rfl⟩ := (mem_flatFields_iff struct declared low key).mp member
  obtain ⟨others, other, same⟩ := (mem_flatFields_iff struct declared high _).mp member'
  obtain rfl := other.chain.eq_of_path leaf.chain declared distinct same
  rw [other.flatFields_get? declared distinct, leaf.flatFields_get? declared distinct]

end

/-- A larger bound only expands a document. Every path of the flat document is kept or goes on, and
every path comes from one that was there, of which there is only one if no struct has two fields of
one name; a path that is kept then keeps its type. In the nested document, objects keep their
names, and types stay or give way to objects. -/
theorem larger_bound_expands (struct : StructDesc) (declared : struct.Declared) (low high : Nat)
    (le : low ≤ high) :
    ∃ flat flat' nested nested', (struct.describe ⟨.flat, low⟩).fields = .flat flat ∧
      (struct.describe ⟨.flat, high⟩).fields = .flat flat' ∧
      (struct.describe ⟨.nested, low⟩).fields = .nested nested ∧
      (struct.describe ⟨.nested, high⟩).fields = .nested nested' ∧
      (∀ key ∈ flat.keys, ∃ key' ∈ flat'.keys, AtOrBelow key' key) ∧
      (∀ key' ∈ flat'.keys, ∃ key ∈ flat.keys, AtOrBelow key' key) ∧
      (struct.package.DistinctFields →
        (∀ key' ∈ flat'.keys, ∃! key, key ∈ flat.keys ∧ AtOrBelow key' key) ∧
        ∀ key ∈ flat.keys, key ∈ flat'.keys → flat'.get? key = flat.get? key) ∧
      ∀ path shown, FieldEntry.at? path (.struct nested.entries) = some shown →
        ∃ wider, FieldEntry.at? path (.struct nested'.entries) = some wider ∧
          shown.Expands wider := by
  refine ⟨struct.flatFields low, struct.flatFields high, struct.nestedFields low,
    struct.nestedFields high, describe_flat struct low, describe_flat struct high,
    describe_nested struct low, describe_nested struct high,
    fun _ member => exists_flat_below declared le member,
    fun _ member => exists_flat_above declared le member, ?_, ?_⟩
  · intro distinct
    refine ⟨fun key' member => ?_, fun key member member' =>
      flat_type_kept declared distinct member member'⟩
    obtain ⟨key, isAbove, above⟩ := exists_flat_above declared le member
    exact ⟨key, ⟨isAbove, above⟩, fun other ⟨isOther, above'⟩ =>
      flat_above_unique declared distinct member isOther above' isAbove above⟩
  · intro path shown found
    exact FieldDesc.nestedEntries_expands path struct.fields (Nat.sub_le_sub_right le 1) found

/-- The type of a field at the smaller bound gives way to the fields of its struct. -/
theorem larger_bound_expands_node :
    Sample.nodeDesc.Declared ∧ 1 ≤ 2 ∧ Sample.nodeDesc.package.DistinctFields ∧
      ∃ flat, (Sample.nodeDesc.describe ⟨.flat, 1⟩).fields = .flat flat ∧
        ∃! key, key ∈ flat.keys ∧ AtOrBelow "next.id" key := by
  obtain ⟨flat, flat', _, _, shown, shown', _, _, _, _, unique, _⟩ :=
    larger_bound_expands Sample.nodeDesc Sample.nodeDesc_declared 1 2 (by decide)
  cases shown'
  exact ⟨Sample.nodeDesc_declared, by decide, Sample.package_distinct, flat, shown,
    (unique Sample.package_distinct).1 "next.id" (by decide)⟩

end StructDesc

end StructInventory
