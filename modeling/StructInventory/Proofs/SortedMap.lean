import Mathlib.Data.List.Induction
import StructInventory.SortedMap

/-!
What a sorted map holds. A map that is made from bindings answers with the last one of a name, its
names are in increasing order, and they do not depend on the values bound to them.
-/

namespace StructInventory.SortedMap

variable {α β : Type}

/-! ### One binding -/

private theorem lookup_entry (key : String) (entry : String × α) (rest : List (String × α)) :
    (entry :: rest).lookup key = if key = entry.1 then some entry.2 else rest.lookup key := by
  rw [List.lookup_cons]
  by_cases same : key = entry.1
  · simp [same]
  · simp [beq_eq_false_iff_ne.mpr same, same]

private theorem lookup_insertEntry (key other : String) (value : α)
    (entries : List (String × α)) :
    (insertEntry key value entries).lookup other =
      if other = key then some value else entries.lookup other := by
  induction entries with
  | nil => simp [insertEntry, lookup_entry]
  | cons entry rest ih =>
    unfold insertEntry
    split
    next found =>
      rw [lookup_entry, lookup_entry, found]
      split <;> rfl
    · split
      · exact lookup_entry other (key, value) (entry :: rest)
      next differs _ =>
        -- The entry is passed over, and its name is not the one that is bound.
        rw [lookup_entry, ih, lookup_entry]
        by_cases same : other = key
        · simp [same, differs]
        · simp [same]

theorem get?_insert (map : SortedMap α) (key other : String) (value : α) :
    (map.insert key value).get? other = if other = key then some value else map.get? other :=
  lookup_insertEntry key other value map.entries

theorem get?_erase (map : SortedMap α) (key other : String) :
    (map.erase key).get? other = if other = key then none else map.get? other := by
  unfold erase get?
  induction map.entries with
  | nil => simp
  | cons entry rest ih =>
    rw [lookup_entry]
    by_cases erased : entry.1 = key
    · rw [List.filter_cons_of_neg (by simpa using erased), ih, erased]
      by_cases same : other = key <;> simp [same]
    · rw [List.filter_cons_of_pos (by simpa using erased), lookup_entry, ih]
      by_cases same : other = entry.1 <;> simp [same, erased]

private theorem mem_insertEntry_keys (key other : String) (value : α)
    (entries : List (String × α)) :
    other ∈ (insertEntry key value entries).map Prod.fst ↔
      other = key ∨ other ∈ entries.map Prod.fst := by
  induction entries with
  | nil => simp [insertEntry]
  | cons entry rest ih =>
    unfold insertEntry
    split
    next found => simp [found]
    · split
      · simp
      · simp only [List.map_cons, List.mem_cons, ih]
        exact or_left_comm

/-! ### Order of the names -/

/-- The names of a map come in strictly increasing order. -/
def Ordered (map : SortedMap α) : Prop := map.keys.Pairwise (· < ·)

private theorem insertEntry_ordered (key : String) (value : α) (entries : List (String × α))
    (ordered : (entries.map Prod.fst).Pairwise (· < ·)) :
    ((insertEntry key value entries).map Prod.fst).Pairwise (· < ·) := by
  induction entries with
  | nil => simp [insertEntry]
  | cons entry rest ih =>
    obtain ⟨first, tail⟩ := List.pairwise_cons.mp ordered
    unfold insertEntry
    split
    next found =>
      rw [found]
      exact List.pairwise_cons.mpr ⟨first, tail⟩
    · split
      next below =>
        refine List.pairwise_cons.mpr ⟨?_, ordered⟩
        intro other member
        rcases List.mem_cons.mp member with rfl | later
        · exact below
        · exact String.lt_trans below (first other later)
      next differs notBelow =>
        -- Neither the same name nor below it: the entry stays in front.
        have above : entry.1 < key := by
          rcases String.le_total key entry.1 with below | above
          · exact absurd (String.le_antisymm below (String.not_lt.mp notBelow)) differs
          · exact String.not_le.mp fun below => differs (String.le_antisymm below above)
        refine List.pairwise_cons.mpr ⟨?_, ih tail⟩
        intro other member
        rcases (mem_insertEntry_keys key other value rest).mp member with rfl | later
        · exact above
        · exact first other later

theorem Ordered.insert {map : SortedMap α} (ordered : map.Ordered) (key : String) (value : α) :
    (map.insert key value).Ordered :=
  insertEntry_ordered key value map.entries ordered

/-- In an ordered map no name is bound twice. -/
theorem Ordered.mem_entries_iff {map : SortedMap α} (ordered : map.Ordered) (key : String)
    (value : α) : (key, value) ∈ map.entries ↔ map.get? key = some value := by
  constructor
  · intro member
    obtain ⟨before, after, split⟩ := List.append_of_mem member
    refine List.lookup_eq_some_iff.mpr ⟨before, after, split, ?_⟩
    intro entry earlier
    have below : entry.1 < key := by
      have all : ((before ++ (key, value) :: after).map Prod.fst).Pairwise (· < ·) :=
        split ▸ ordered
      rw [List.map_append, List.pairwise_append] at all
      exact all.2.2 entry.1 (List.mem_map_of_mem earlier) key (by simp)
    simpa using (String.ne_of_lt below).symm
  · intro found
    obtain ⟨before, after, split, _⟩ := List.lookup_eq_some_iff.mp found
    rw [split]
    simp

/-! ### Bindings in turn -/

theorem ofList_concat (bindings : List (String × α)) (binding : String × α) :
    ofList (bindings ++ [binding]) = (ofList bindings).insert binding.1 binding.2 := by
  simp [ofList, List.foldl_append]

/-- Of bindings of one name the last is kept. -/
theorem get?_ofList (bindings : List (String × α)) (key : String) :
    (ofList bindings).get? key = bindings.reverse.lookup key := by
  induction bindings using List.reverseRecOn with
  | nil => rfl
  | append_singleton bindings binding ih =>
    rw [ofList_concat, get?_insert, ih, List.reverse_append, List.reverse_singleton,
      List.singleton_append, lookup_entry]

/-- Of items with one key the last gives the value. -/
theorem get?_ofList_map (items : List β) (key : β → String) (value : β → α) (name : String) :
    (ofList (items.map fun item => (key item, value item))).get? name =
      (items.reverse.find? fun item => key item = name).map value := by
  rw [get?_ofList, ← List.map_reverse]
  induction items.reverse with
  | nil => rfl
  | cons item rest ih =>
    rw [List.map_cons, lookup_entry, List.find?_cons]
    by_cases same : key item = name
    · simp [same]
    · simp [same, Ne.symm same, ih]

theorem ofList_ordered (bindings : List (String × α)) : (ofList bindings).Ordered := by
  induction bindings using List.reverseRecOn with
  | nil => exact .nil
  | append_singleton bindings binding ih =>
    rw [ofList_concat]
    exact ih.insert binding.1 binding.2

theorem mem_keys_ofList (bindings : List (String × α)) (key : String) :
    key ∈ (ofList bindings).keys ↔ key ∈ bindings.map Prod.fst := by
  induction bindings using List.reverseRecOn with
  | nil => exact Iff.rfl
  | append_singleton bindings binding ih =>
    rw [ofList_concat]
    refine (mem_insertEntry_keys binding.1 key binding.2 _).trans ?_
    rw [show key ∈ List.map Prod.fst (ofList bindings).entries ↔ _ from ih]
    simp [or_comm]

private theorem insertEntry_keys_eq (key : String) (value : α) (value' : β)
    (entries : List (String × α)) (entries' : List (String × β))
    (same : entries.map Prod.fst = entries'.map Prod.fst) :
    (insertEntry key value entries).map Prod.fst =
      (insertEntry key value' entries').map Prod.fst := by
  induction entries generalizing entries' with
  | nil =>
    cases entries' with
    | nil => rfl
    | cons entry' rest' => simp at same
  | cons entry rest ih =>
    cases entries' with
    | nil => simp at same
    | cons entry' rest' =>
      obtain ⟨first, tail⟩ := List.cons.inj same
      unfold insertEntry
      rw [first]
      split
      · simp [tail]
      · split
        · simp [first, tail]
        · simp [first, ih rest' tail]

/-- The names of a map depend on the names bound alone, not on their values. -/
theorem keys_ofList_eq (bindings : List (String × α)) (bindings' : List (String × β))
    (same : bindings.map Prod.fst = bindings'.map Prod.fst) :
    (ofList bindings).keys = (ofList bindings').keys := by
  induction bindings using List.reverseRecOn generalizing bindings' with
  | nil =>
    have none : bindings' = [] := by simpa using same.symm
    rw [none]
    rfl
  | append_singleton bindings binding ih =>
    -- The last binding of one list has its counterpart at the end of the other.
    obtain ⟨init', last', rfl, inits, lasts⟩ :
        ∃ init' last', bindings' = init' ++ [last'] ∧
          bindings.map Prod.fst = init'.map Prod.fst ∧ binding.1 = last'.1 := by
      rw [List.map_append, List.map_singleton] at same
      obtain ⟨init', last, rfl, inits, lasts⟩ := List.map_eq_append_iff.mp same.symm
      obtain ⟨last', rfl, name⟩ := List.map_eq_singleton_iff.mp lasts
      exact ⟨init', last', rfl, inits.symm, name.symm⟩
    rw [ofList_concat, ofList_concat, lasts]
    exact insertEntry_keys_eq last'.1 binding.2 last'.2 _ _ (ih init' inits)

end StructInventory.SortedMap
