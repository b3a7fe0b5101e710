import Mathlib.Order.Defs.LinearOrder
import StructInventory.Comment.Search
import StructInventory.Grammar.File

/-!
Positions in reading order. The order is linear, a run of characters never leads back, and the
searches that rely on sorted positions find what they look for.
-/

namespace StructInventory

namespace Pos

theorem lt_iff {p q : Pos} : p < q ↔ p.line < q.line ∨ p.line = q.line ∧ p.column < q.column := by
  change p.before q = true ↔ _
  simp [before]

theorem le_iff {p q : Pos} : p ≤ q ↔ p.line < q.line ∨ p.line = q.line ∧ p.column ≤ q.column := by
  change q.before p = false ↔ _
  simp only [before, Bool.or_eq_false_iff, Bool.and_eq_false_iff, decide_eq_false_iff_not]
  omega

instance : LinearOrder Pos where
  le_refl p := by simp [le_iff]
  le_trans p q r := by
    simp only [le_iff]
    omega
  lt_iff_le_not_ge p q := by
    simp only [lt_iff, le_iff]
    omega
  le_antisymm p q := by
    obtain ⟨line, column⟩ := p
    obtain ⟨line', column'⟩ := q
    simp only [le_iff, Pos.mk.injEq]
    omega
  le_total p q := by
    simp only [le_iff]
    omega
  toDecidableLE := inferInstance
  toDecidableEq := inferInstance
  toDecidableLT := inferInstance

theorem lt_next (pos : Pos) (c : Char) : pos < pos.next c := by
  rw [lt_iff, next]
  split <;> simp

theorem lt_succ (pos : Pos) : pos < ⟨pos.line, pos.column + 1⟩ := by simp [lt_iff]

theorem le_past (pos : Pos) (run : List Char) : pos ≤ pos.past run := by
  induction run generalizing pos with
  | nil => exact le_refl pos
  | cons c rest ih => exact le_trans (le_of_lt (pos.lt_next c)) (ih _)

theorem lt_past (pos : Pos) {run : List Char} (some : run ≠ []) : pos < pos.past run := by
  obtain ⟨c, rest, rfl⟩ := List.exists_cons_of_ne_nil some
  exact lt_of_lt_of_le (pos.lt_next c) (le_past _ rest)

end Pos

/-! ### Sorted positions -/

namespace SourceFile

theorem mem_insertPos {pos other : Pos} {positions : List Pos} :
    other ∈ insertPos pos positions ↔ other = pos ∨ other ∈ positions := by
  induction positions with
  | nil => simp [insertPos]
  | cons first rest ih =>
    rw [insertPos]
    split
    next same => simp [same]
    next =>
      split
      · simp
      · rw [List.mem_cons, ih, List.mem_cons, or_left_comm]

theorem mem_sortPositions {pos : Pos} {positions : List Pos} :
    pos ∈ sortPositions positions ↔ pos ∈ positions := by
  induction positions with
  | nil => rfl
  | cons first rest ih =>
    rw [show sortPositions (first :: rest) = insertPos first (sortPositions rest) from rfl,
      mem_insertPos, ih, List.mem_cons]

theorem insertPos_sorted {pos : Pos} {positions : List Pos}
    (sorted : positions.Pairwise fun p q => p < q) :
    (insertPos pos positions).Pairwise fun p q => p < q := by
  induction sorted with
  | nil => simp [insertPos]
  | @cons first rest before sorted ih =>
    rw [insertPos]
    split
    · exact sorted.cons before
    next other =>
      split
      next earlier =>
        refine (sorted.cons before).cons fun q member => ?_
        rcases List.mem_cons.mp member with rfl | member
        · exact earlier
        · exact lt_trans earlier (before q member)
      next later =>
        refine ih.cons fun q member => ?_
        rcases mem_insertPos.mp member with rfl | member
        · exact lt_of_le_of_ne (not_lt.mp later) fun same => other same.symm
        · exact before q member

theorem sortPositions_sorted (positions : List Pos) :
    (sortPositions positions).Pairwise fun p q => p < q := by
  induction positions with
  | nil => exact .nil
  | cons first rest ih => exact insertPos_sorted ih

end SourceFile

/-! ### Searching by halving -/

section

variable {α : Type} {test : α → Bool}

/-- Where a test that holds up to some place turns false. -/
theorem partitionFrom_eq (fuel base : Nat) {front back : List α} (enough : (front ++ back).length ≤ fuel)
    (holds : ∀ item ∈ front, test item = true) (fails : ∀ item ∈ back, test item = false) :
    partitionFrom test fuel base (front ++ back) = base + front.length := by
  induction fuel generalizing base front back with
  | zero =>
    obtain ⟨rfl, rfl⟩ : front = [] ∧ back = [] := by
      simpa using List.length_eq_zero_iff.mp (Nat.le_zero.mp enough)
    rfl
  | succ fuel ih =>
    unfold partitionFrom
    split
    next none =>
      obtain ⟨rfl, rfl⟩ := List.append_eq_nil_iff.mp none
      rfl
    next item single =>
      rcases List.append_eq_singleton_iff.mp single with ⟨rfl, rfl⟩ | ⟨rfl, rfl⟩
      · simp [fails]
      · simp [holds]
    next long more =>
      have several : 2 ≤ (front ++ back).length := by
        match front ++ back, long, more with
        | [], long, _ => exact absurd rfl long
        | [item], _, more => exact absurd rfl (more item)
        | _ :: _ :: _, _, _ => simp
      have halved : (front ++ back).length / 2 < (front ++ back).length := by omega
      dsimp only
      rw [List.getElem?_eq_getElem halved, Option.any_some]
      -- The element in the middle tells in which half the boundary of the two parts lies.
      generalize half_eq : (front ++ back).length / 2 = half at *
      by_cases within : half < front.length
      · have passes : test ((front ++ back)[half]) = true := by
          rw [List.getElem_append_left within]
          exact holds _ (List.getElem_mem within)
        have fewer : (front.drop half ++ back).length ≤ fuel := by
          rw [List.length_append, List.length_drop]
          rw [List.length_append] at *
          omega
        rw [if_pos passes, List.drop_append_of_le_length (Nat.le_of_lt within),
          ih (base + half) fewer (fun item member => holds item (List.mem_of_mem_drop member)) fails,
          List.length_drop]
        omega
      · have stops : test ((front ++ back)[half]) = false := by
          rw [List.getElem_append_right (by omega)]
          exact fails _ (List.getElem_mem _)
        have kept : front.length ≤ (front ++ back).length - half := by omega
        have fewer : (front ++ back.take ((front ++ back).length - half - front.length)).length ≤
            fuel := by
          rw [List.length_append, List.length_take]
          rw [List.length_append] at *
          omega
        rw [if_neg (by simp [stops]), List.take_append, List.take_of_length_le kept,
          ih base fewer holds fun item member => fails item (List.mem_of_mem_take member)]

/-- If no item that passes comes after one that fails, the items that pass are a beginning. -/
theorem exists_partition {items : List α}
    (ordered : items.Pairwise fun item later => test later = true → test item = true) :
    ∃ front back, items = front ++ back ∧ (∀ item ∈ front, test item = true) ∧
      ∀ item ∈ back, test item = false := by
  induction ordered with
  | nil => exact ⟨[], [], rfl, by simp, by simp⟩
  | @cons first rest before _ ih =>
    cases passes : test first with
    | true =>
      obtain ⟨front, back, rfl, holds, fails⟩ := ih
      exact ⟨first :: front, back, rfl, by simpa [passes] using holds, fails⟩
    | false =>
      refine ⟨[], first :: rest, rfl, by simp, List.forall_mem_cons.mpr ⟨passes, ?_⟩⟩
      intro later member
      cases test_later : test later with
      | true => rw [before later member test_later] at passes; cases passes
      | false => rfl

/-- The items before the first that fails are counted, if none behind it passes. -/
theorem partitionPoint_eq {front back : List α} (holds : ∀ item ∈ front, test item = true)
    (fails : ∀ item ∈ back, test item = false) :
    partitionPoint test (front ++ back) = front.length := by
  rw [partitionPoint, partitionFrom_eq _ 0 (Nat.le_refl _) holds fails, Nat.zero_add]

end

/-- Sorted positions before and behind a given one. -/
theorem exists_split_at {positions : List Pos} (sorted : positions.Pairwise fun p q => p ≤ q)
    (pos : Pos) : ∃ front back, positions = front ++ back ∧ (∀ p ∈ front, p < pos) ∧
      ∀ p ∈ back, pos ≤ p := by
  have ordered : positions.Pairwise fun p q => decide (q < pos) = true → decide (p < pos) = true := by
    refine sorted.imp fun {p q} earlier passes => ?_
    exact decide_eq_true (lt_of_le_of_lt earlier (of_decide_eq_true passes))
  obtain ⟨front, back, rfl, holds, fails⟩ := exists_partition ordered
  exact ⟨front, back, rfl, by simpa using holds, by simpa using fails⟩

end StructInventory
