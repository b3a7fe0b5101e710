import StructInventory.Proofs.PackageScope

/-!
The history of a scope. Whatever is inserted into an empty scope, its names are those of the history
without repetitions, each name stands for the first type that came under it, and an insertion that
is turned down leaves no trace, then or later. A scope may also keep the order of its names apart
from its types by name: the two parts stay in step, and show the same.
-/

namespace StructInventory

/-! ### One insertion -/

namespace Scope

variable {scope : Scope} {named : NamedType}

theorem insert_snd (scope : Scope) (named : NamedType) :
    (scope.insert named).2 = !scope.contains named.name := by
  unfold insert
  cases scope.contains named.name <;> rfl

theorem insert_fst_of_rejected (rejected : (scope.insert named).2 = false) :
    (scope.insert named).1 = scope := by
  rw [insert_snd, Bool.not_eq_false'] at rejected
  rw [insert, if_pos rejected]

/-! ### Histories -/

theorem contains_insertAll (history : List NamedType) (name : String) :
    (empty.insertAll history).contains name = true ↔ name ∈ history.map NamedType.name := by
  rw [contains_iff, names_insertAll, List.mem_eraseDups]

/-- A history may be told without an insertion that was turned down. -/
theorem insertAll_of_rejected {history : List NamedType}
    (rejected : ((scope.insertAll history).insert named).2 = false) (later : List NamedType) :
    scope.insertAll (history ++ named :: later) = scope.insertAll (history ++ later) := by
  rw [insertAll_append, insertAll_append]
  show ((scope.insertAll history).insert named).1.insertAll later = _
  rw [insert_fst_of_rejected rejected]

/-- The answers of a scope, as its history gives them. -/
structure Recalls (scope : Scope) (history : List NamedType) : Prop where
  names : scope.names = (history.map NamedType.name).eraseDups
  size : scope.size = scope.names.length
  isEmpty : scope.isEmpty = true ↔ scope.names = []
  lookup : ∀ name, scope.lookup name = history.find? (·.name = name)
  name_of_lookup : ∀ name named, scope.lookup name = some named → named.name = name

theorem recalls_insertAll (history : List NamedType) :
    (empty.insertAll history).Recalls history where
  names := names_insertAll history
  size := by simp [Scope.size, Scope.names]
  isEmpty := by simp [Scope.isEmpty, Scope.names]
  lookup := lookup_insertAll empty history
  name_of_lookup name named found := by simpa using List.find?_some found

end Scope

/-! ### A scope in two parts -/

/-- The names of a scope in their order, and its types by name. -/
structure IndexedScope where
  order : List String
  types : SortedMap NamedType

namespace IndexedScope

def empty : IndexedScope := ⟨[], .empty⟩

/-- Adds a type to both parts unless its name is bound; the answer tells whether it was added. -/
def insert (index : IndexedScope) (named : NamedType) : IndexedScope × Bool :=
  if (index.types.get? named.name).isSome then (index, false)
  else (⟨index.order ++ [named.name], index.types.insert named.name named⟩, true)

def insertAll (index : IndexedScope) (types : List NamedType) : IndexedScope :=
  types.foldl (fun index named => (index.insert named).1) index

theorem insert_fst_of_rejected {index : IndexedScope} {named : NamedType}
    (rejected : (index.insert named).2 = false) : (index.insert named).1 = index := by
  unfold insert at rejected ⊢
  split
  next => rfl
  next fresh => simp [fresh] at rejected

/-- The two parts show the same as one list of types. -/
structure InStep (index : IndexedScope) (scope : Scope) : Prop where
  order : index.order = scope.names
  types : ∀ name, index.types.get? name = scope.lookup name

namespace InStep

variable {index : IndexedScope} {scope : Scope}

theorem insert_snd (inStep : index.InStep scope) (named : NamedType) :
    (index.insert named).2 = (scope.insert named).2 := by
  rw [Scope.insert_snd, IndexedScope.insert, inStep.types, ← Scope.contains]
  cases scope.contains named.name <;> rfl

theorem insert_fst (inStep : index.InStep scope) (named : NamedType) :
    (index.insert named).1.InStep (scope.insert named).1 := by
  unfold IndexedScope.insert
  rw [inStep.types, ← Scope.contains]
  cases taken : scope.contains named.name with
  | true =>
    have rejected : (scope.insert named).2 = false := by rw [Scope.insert_snd, taken]; rfl
    rw [Scope.insert_fst_of_rejected rejected]
    exact inStep
  | false =>
    constructor
    · rw [Scope.names_insert, taken, ← inStep.order]
      rfl
    · intro name
      show (index.types.insert named.name named).get? name = _
      rw [SortedMap.get?_insert, Scope.lookup_insert, inStep.types]
      by_cases same : name = named.name
      · -- The name was not bound before, so the type is the first under it.
        subst same
        rw [Scope.contains, Option.isSome_eq_false_iff, Option.isNone_iff_eq_none] at taken
        simp [taken]
      · simp [same, Ne.symm same]

end InStep

theorem inStep_insertAll (history : List NamedType) :
    (empty.insertAll history).InStep (Scope.empty.insertAll history) := by
  have start : empty.InStep Scope.empty := ⟨rfl, fun _ => rfl⟩
  generalize empty = index, Scope.empty = scope at start ⊢
  induction history generalizing index scope with
  | nil => exact start
  | cons named later ih => exact ih _ _ (start.insert_fst named)

end IndexedScope

/-! ### First insertions -/

namespace Scope

/-- In every history the first insertion of a name wins. The scope answers as the history says. The
next insertion is accepted if its name is new; if not, it changes no answer, also none that is given
after later insertions. A scope in two parts stays in step, accepts the same insertions, and is not
changed by the others. -/
theorem first_insertion_of_name_wins (history : List NamedType) (named : NamedType) :
    (empty.insertAll history).Recalls history ∧
    (((empty.insertAll history).insert named).2 = true ↔
      named.name ∉ history.map NamedType.name) ∧
    (((empty.insertAll history).insert named).2 = false →
      ((empty.insertAll history).insert named).1 = empty.insertAll history ∧
      (∀ name, ((empty.insertAll history).insert named).1.lookupStruct name =
        (empty.insertAll history).lookupStruct name) ∧
      (∀ later, empty.insertAll (history ++ named :: later) = empty.insertAll (history ++ later)) ∧
      ((IndexedScope.empty.insertAll history).insert named).1 =
        IndexedScope.empty.insertAll history) ∧
    (IndexedScope.empty.insertAll history).InStep (empty.insertAll history) ∧
    ((IndexedScope.empty.insertAll history).insert named).2 =
      ((empty.insertAll history).insert named).2 := by
  have inStep := IndexedScope.inStep_insertAll history
  have answers := inStep.insert_snd named
  refine ⟨recalls_insertAll history, ?_, fun rejected => ?_, inStep, answers⟩
  · rw [insert_snd, Bool.not_eq_true', ← Bool.not_eq_true, contains_insertAll]
  · have same := insert_fst_of_rejected rejected
    exact ⟨same, fun name => by rw [same], insertAll_of_rejected rejected,
      IndexedScope.insert_fst_of_rejected (answers.trans rejected)⟩

/-- An enum comes too late under the name of a struct, which an alias still leads to. -/
theorem first_insertion_of_name_wins_alias :
    let point : NamedType := ⟨"Point", ⟨"lib.rs"⟩, ⟨1, 0⟩, true, .struct [], []⟩
    let coord : NamedType := ⟨"Coord", ⟨"lib.rs"⟩, ⟨2, 0⟩, true, .alias (.named ["Point"] []), []⟩
    let late : NamedType := ⟨"Point", ⟨"lib.rs"⟩, ⟨3, 0⟩, true, .enum, []⟩
    let scope := empty.insertAll [point, coord]
    (scope.insert late).2 = false ∧ scope.names = ["Point", "Coord"] ∧
      (scope.insert late).1 = scope ∧ (scope.insert late).1.lookupStruct "Coord" = some point := by
  intro point coord late scope
  obtain ⟨recalls, -, rejects, -⟩ := first_insertion_of_name_wins [point, coord] late
  have rejected : (scope.insert late).2 = false := by decide
  obtain ⟨same, structs, -⟩ := rejects rejected
  exact ⟨rejected, recalls.names.trans (by decide), same, (structs "Coord").trans rfl⟩

end Scope

end StructInventory
