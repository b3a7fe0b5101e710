import Mathlib.Data.List.Forall2
import StructInventory.Condition

/-!
What conditions say about builds. Features and `test` are the same in all builds that are asked for;
every other part of a condition may hold in one build and not in another. The value of a condition
is known just when all builds agree on it, so a declaration is left out only if no build has it.
-/

namespace StructInventory

/-- A build, by the truth of what is not decided. A part of a condition is told by its place, the
indices that lead to it, so that parts which are written alike may still differ. -/
abbrev Build := List Nat → Bool

namespace Build

/-- The build as the first item of a list sees it. -/
def first (build : Build) : Build := fun place => build (0 :: place)

/-- The build as the list without its first item sees it. -/
def others (build : Build) : Build
  | [] => build []
  | index :: place => build ((index + 1) :: place)

/-- The build of which `build` is what the first item sees, and `rest` what the others do. -/
def cons (build rest : Build) : Build
  | [] => rest []
  | 0 :: place => build place
  | (index + 1) :: place => rest (index :: place)

theorem first_cons (build rest : Build) : (build.cons rest).first = build := rfl

theorem others_cons (build rest : Build) : (build.cons rest).others = rest := by
  funext place
  cases place <;> rfl

end Build

namespace Condition

/-- The truth of a list, given that of its items; a list that says nothing known is `undecided`. -/
def combineIn (path : List String) (undecided : Bool) (values : List Bool) : Bool :=
  if path = ["not"] then
    match values with
    | [value] => !value
    | _ => undecided
  else if path = ["all"] then values.all id
  else if path = ["any"] then values.any id
  else undecided

mutual

/-- Whether a condition holds in a build with exactly `features`. -/
def holdsIn (features : List String) (build : Build) : Condition → Bool
  | name path => if path = ["test"] then false else build []
  | setting path (some value) => if path = ["feature"] then decide (value ∈ features) else build []
  | setting _ none => build []
  | list path items => combineIn path (build []) (valuesIn features build items)
  | unreadable _ => build []

def valuesIn (features : List String) (build : Build) : List Condition → List Bool
  | [] => []
  | item :: rest => item.holdsIn features build.first :: valuesIn features build.others rest

end

/-! ### Connectives -/

theorem allOf_cons (value : Option Bool) (rest : List (Option Bool)) :
    allOf (value :: rest) = match value, allOf rest with
      | some false, _ => some false
      | _, some false => some false
      | some true, known => known
      | none, _ => none := by
  rcases value with _ | _ | _ <;> simp only [allOf, List.contains_cons] <;>
    cases rest.contains (some false) <;> cases rest.contains none <;> rfl

theorem anyOf_cons (value : Option Bool) (rest : List (Option Bool)) :
    anyOf (value :: rest) = match value, anyOf rest with
      | some true, _ => some true
      | _, some true => some true
      | some false, known => known
      | none, _ => none := by
  rcases value with _ | _ | _ <;> simp only [anyOf, List.contains_cons] <;>
    cases rest.contains (some true) <;> cases rest.contains none <;> rfl

theorem map_not_allOf (values : List (Option Bool)) :
    (allOf values).map (!·) = anyOf (values.map (·.map (!·))) := by
  induction values with
  | nil => rfl
  | cons value rest ih =>
    rw [List.map_cons, allOf_cons, anyOf_cons, ← ih]
    rcases value with _ | _ | _ <;> rcases allOf rest with _ | _ | _ <;> rfl

/-- A value that is known is the one there is. -/
def Agrees (known : Option Bool) (value : Bool) : Prop := ∀ decided ∈ known, value = decided

theorem agrees_none (value : Bool) : Agrees none value := nofun

theorem agrees_some {decided value : Bool} : Agrees (some decided) value ↔ value = decided := by
  simp [Agrees, eq_comm]

theorem Agrees.allOf {known : List (Option Bool)} {values : List Bool}
    (agree : List.Forall₂ Agrees known values) : Agrees (allOf known) (values.all id) := by
  induction agree with
  | nil => exact agrees_some.mpr rfl
  | @cons value actual rest others first _ ih =>
    rw [allOf_cons, List.all_cons]
    generalize Condition.allOf rest = known, others.all id = holds at ih ⊢
    rcases value with _ | _ | _ <;> rcases known with _ | _ | _ <;> simp_all [Agrees]

theorem Agrees.anyOf {known : List (Option Bool)} {values : List Bool}
    (agree : List.Forall₂ Agrees known values) : Agrees (anyOf known) (values.any id) := by
  induction agree with
  | nil => exact agrees_some.mpr rfl
  | @cons value actual rest others first _ ih =>
    rw [anyOf_cons, List.any_cons]
    generalize Condition.anyOf rest = known, others.any id = holds at ih ⊢
    rcases value with _ | _ | _ <;> rcases known with _ | _ | _ <;> simp_all [Agrees]

theorem Agrees.combine {known : List (Option Bool)} {values : List Bool}
    (agree : List.Forall₂ Agrees known values) (path : List String) (undecided : Bool) :
    Agrees (combine path known) (combineIn path undecided values) := by
  unfold Condition.combine combineIn
  split
  · cases agree with
    | nil => exact agrees_none _
    | @cons value actual rest others first later =>
      cases later with
      | nil => cases value <;> simp_all [Agrees]
      | cons => exact agrees_none _
  · split
    · exact Agrees.allOf agree
    · split
      · exact Agrees.anyOf agree
      · exact agrees_none _

/-! ### Known values hold in every build -/

mutual

theorem eval_agrees (features : List String) (build : Build) (condition : Condition) :
    Agrees (condition.eval features) (condition.holdsIn features build) := by
  match condition with
  | name path =>
    unfold eval holdsIn
    split
    · exact agrees_some.mpr rfl
    · exact agrees_none _
  | setting path (some value) =>
    unfold eval holdsIn
    split
    · exact agrees_some.mpr (by simp)
    · exact agrees_none _
  | setting path none =>
    unfold eval
    split <;> exact agrees_none _
  | list path items =>
    unfold eval holdsIn
    exact Agrees.combine (evalAll_agrees features build items) path _
  | unreadable path => exact agrees_none _

theorem evalAll_agrees (features : List String) (build : Build) (items : List Condition) :
    List.Forall₂ Agrees (evalAll features items) (valuesIn features build items) := by
  match items with
  | [] => exact .nil
  | item :: rest =>
    exact .cons (eval_agrees features build.first item) (evalAll_agrees features build.others rest)

end

/-! ### Unknown values differ between builds -/

theorem all_getD (values : List (Option Bool)) (chosen : Bool) :
    (values.map (·.getD chosen)).all id = (allOf values).getD chosen := by
  induction values with
  | nil => rfl
  | cons value rest ih =>
    rw [List.map_cons, List.all_cons, ih, allOf_cons]
    rcases value with _ | _ | _ <;> rcases allOf rest with _ | _ | _ <;> cases chosen <;> rfl

theorem any_getD (values : List (Option Bool)) (chosen : Bool) :
    (values.map (·.getD chosen)).any id = (anyOf values).getD chosen := by
  induction values with
  | nil => rfl
  | cons value rest ih =>
    rw [List.map_cons, List.any_cons, ih, anyOf_cons]
    rcases value with _ | _ | _ <;> rcases anyOf rest with _ | _ | _ <;> cases chosen <;> rfl

/-- What the items of a list should be, where that is open, for the list to be `chosen`. -/
def wanted (path : List String) (chosen : Bool) : Bool := if path = ["not"] then !chosen else chosen

theorem combineIn_getD (path : List String) (values : List (Option Bool)) (chosen : Bool) :
    combineIn path chosen (values.map (·.getD (wanted path chosen))) =
      (combine path values).getD chosen := by
  unfold combineIn combine wanted
  split
  · match values with
    | [] => rfl
    | [value] => rcases value with _ | _ | _ <;> simp
    | _ :: _ :: _ => rfl
  · split
    · exact all_getD values chosen
    · split
      · exact any_getD values chosen
      · rfl

mutual

/-- An unknown value may be either. -/
theorem exists_holdsIn (features : List String) (chosen : Bool) (condition : Condition) :
    ∃ build, condition.holdsIn features build = (condition.eval features).getD chosen := by
  match condition with
  | name path =>
    refine ⟨fun _ => chosen, ?_⟩
    unfold eval holdsIn
    split <;> rfl
  | setting path (some value) =>
    refine ⟨fun _ => chosen, ?_⟩
    unfold eval holdsIn
    split <;> simp
  | setting path none =>
    refine ⟨fun _ => chosen, ?_⟩
    unfold eval holdsIn
    split <;> rfl
  | list path items =>
    -- The items of `not` are chosen the other way; the list's own place serves if it is undecided.
    obtain ⟨build, undecided, values⟩ :=
      exists_valuesIn features chosen (wanted path chosen) items
    refine ⟨build, ?_⟩
    unfold eval holdsIn
    rw [undecided, values, combineIn_getD]
  | unreadable path => exact ⟨fun _ => chosen, rfl⟩

/-- Places in different items differ, so that the items can be chosen apart. -/
theorem exists_valuesIn (features : List String) (undecided chosen : Bool)
    (items : List Condition) :
    ∃ build : Build, build [] = undecided ∧
      valuesIn features build items = (evalAll features items).map (·.getD chosen) := by
  match items with
  | [] => exact ⟨fun _ => undecided, rfl, rfl⟩
  | item :: rest =>
    obtain ⟨build, value⟩ := exists_holdsIn features chosen item
    obtain ⟨others, root, values⟩ := exists_valuesIn features undecided chosen rest
    refine ⟨build.cons others, root, ?_⟩
    rw [valuesIn, Build.first_cons, Build.others_cons, value, values]
    rfl

end

/-! ### Conditions of declarations -/

theorem eval_eq_some_iff {features : List String} {condition : Condition} {value : Bool} :
    condition.eval features = some value ↔
      ∀ build, condition.holdsIn features build = value := by
  constructor
  · intro known build
    exact eval_agrees features build condition value known
  · intro always
    -- If the value were open, some build would have the other one.
    obtain ⟨build, found⟩ := exists_holdsIn features (!value) condition
    rw [always build] at found
    cases known : condition.eval features with
    | none => simp [known] at found
    | some decided =>
      rw [known, Option.getD_some] at found
      rw [found]

theorem allOf_eq_some_false_iff {values : List (Option Bool)} :
    allOf values = some false ↔ some false ∈ values := by
  unfold allOf
  split
  next found => simpa using found
  next missing =>
    rw [List.contains_iff_mem] at missing
    split <;> simp [missing]

/-- A declaration is left out when its conditions together are known to be false. -/
theorem enabled_eq_false_iff {features : List String} {conditions : List Condition} :
    enabled features conditions = false ↔
      (list ["all"] conditions).eval features = some false := by
  show _ ↔ allOf (evalAll features conditions) = some false
  rw [allOf_eq_some_false_iff]
  induction conditions with
  | nil => simp [enabled, evalAll]
  | cons condition rest ih =>
    rw [evalAll, List.mem_cons, ← ih]
    simp only [enabled, List.all_cons, Bool.and_eq_false_iff, bne_eq_false_iff_eq]
    exact or_congr_left eq_comm

/-- With given features, the value of a condition is known just when it is the same in all builds. A
declaration is left out just when every build has a condition of it that does not hold. Not all
conditions hold, as far as that is known, when one of them does not. -/
theorem known_iff_same_in_all_builds (features : List String) :
    (∀ (condition : Condition) (value : Bool), condition.eval features = some value ↔
      ∀ build, condition.holdsIn features build = value) ∧
    (∀ conditions, enabled features conditions = false ↔
      ∀ build, false ∈ valuesIn features build conditions) ∧
    ∀ items, (list ["not"] [list ["all"] items]).eval features =
      (list ["any"] (items.map fun item => list ["not"] [item])).eval features := by
  refine ⟨fun condition value => eval_eq_some_iff, fun conditions => ?_, fun items => ?_⟩
  · rw [enabled_eq_false_iff, eval_eq_some_iff]
    refine forall_congr' fun build => ?_
    show (valuesIn features build conditions).all id = false ↔ _
    simp
  · have denied : evalAll features (items.map fun item => list ["not"] [item]) =
        (evalAll features items).map (·.map (!·)) := by
      induction items with
      | nil => rfl
      | cons item rest ih =>
        rw [List.map_cons, evalAll, ih]
        rfl
    show (allOf (evalAll features items)).map (!·) = anyOf (evalAll features _)
    rw [denied, map_not_allOf]

end Condition

end StructInventory
