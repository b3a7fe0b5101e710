import Mathlib.Data.List.Chain
import Mathlib.Order.Bounds.Basic
import StructInventory.Proofs.CommentSearch

/-!
The search for a comment as a rule about positions. It looks at two elements only, which it finds by
halving: the last group that ends before a position, and the last boundary before it. On groups and
boundaries in order it answers what going through both lists would, later positions have later
groups, and a boundary keeps a group from being found again behind it.
-/

namespace StructInventory

/-! ### Going through a list -/

section

variable {α : Type}

/-- The last item that passes, with its index. -/
def lastPassing? (test : α → Bool) (items : List α) : Option (α × Nat) :=
  items.zipIdx.foldl (fun kept item => if test item.1 then some item else kept) none

theorem lastPassing?_concat (test : α → Bool) (items : List α) (item : α) :
    lastPassing? test (items ++ [item]) =
      if test item then some (item, items.length) else lastPassing? test items := by
  simp [lastPassing?, List.zipIdx_append]

/-- If no item behind the first that fails passes, the last that passes stands before it. -/
theorem lastPassing?_append {test : α → Bool} {front back : List α}
    (holds : ∀ item ∈ front, test item = true) (fails : ∀ item ∈ back, test item = false) :
    lastPassing? test (front ++ back) = front.getLast?.map fun item => (item, front.length - 1) := by
  -- From the end: what fails is dropped, until the last of those that pass is met.
  induction back using List.reverseRecOn with
  | nil =>
    rcases List.eq_nil_or_concat front with rfl | ⟨init, last, rfl⟩
    · rfl
    · have passes : test last = true := holds last (by simp)
      simp [lastPassing?_concat, passes]
  | append_singleton back item ih =>
    have stops : test item = false := fails item (by simp)
    rw [← List.append_assoc, lastPassing?_concat, stops, if_neg (by simp)]
    exact ih fun other member => fails other (by simp [member])

end

namespace CommentGroup

/-- The search without halving: both lists are gone through from the front. -/
def linearSearch (groups : List CommentGroup) (boundaries : List Pos) (pos : Pos) : Option Nat := do
  let (group, index) ← lastPassing? (fun group => group.stop ≤ pos) groups
  match lastPassing? (fun boundary => boundary < pos) boundaries with
  | some (lower, _) =>
    if group.start ≤ lower || group.start.line = lower.line then none else some index
  | none => some index

/-- Groups in increasing order: none is empty, and none reaches into the next. -/
structure Increasing (groups : List CommentGroup) : Prop where
  solid : ∀ group ∈ groups, group.start < group.stop
  apart : groups.IsChain fun group next => group.stop ≤ next.start

/-- The rule for what is declared at a position: the group at `index` is the last that ends there or
before, and the greatest boundary before the position, if there is one, is before the group and on
another line. -/
structure BelongsAt (groups : List CommentGroup) (boundaries : List Pos) (pos : Pos) (index : Nat)
    (group : CommentGroup) : Prop where
  at_index : groups[index]? = some group
  ends : group.stop ≤ pos
  last : ∀ place later, index < place → groups[place]? = some later → pos < later.stop
  apart : ∀ lower, IsGreatest {b | b ∈ boundaries ∧ b < pos} lower →
    lower < group.start ∧ lower.line ≠ group.start.line

variable {groups : List CommentGroup} {boundaries : List Pos} {pos : Pos}

/-! ### Groups in order -/

/-- Not only neighbours are apart. -/
theorem Increasing.pairwise (increasing : Increasing groups) :
    groups.Pairwise fun group later => group.stop ≤ later.start := by
  obtain ⟨solid, apart⟩ := increasing
  induction groups with
  | nil => exact .nil
  | cons first rest ih =>
    cases rest with
    | nil => exact List.pairwise_singleton _ _
    | cons next rest =>
      rw [List.forall_mem_cons] at solid
      obtain ⟨near, apart⟩ := List.isChain_cons_cons.mp apart
      have pairwise := ih solid.2 apart
      refine List.pairwise_cons.mpr ⟨fun later member => ?_, pairwise⟩
      rcases List.mem_cons.mp member with rfl | behind
      · exact near
      · calc
          first.stop ≤ next.start := near
          _ ≤ next.stop := le_of_lt (solid.2 next (by simp))
          _ ≤ later.start := (List.pairwise_cons.mp pairwise).1 later behind

theorem Increasing.ordered (increasing : Increasing groups) : ∃ upper, Ordered groups upper := by
  have solid : ∀ group ∈ groups, group.start ≤ group.stop := fun group member =>
    le_of_lt (increasing.solid group member)
  rcases List.eq_nil_or_concat' groups with rfl | ⟨init, last, rfl⟩
  · exact ⟨.first, .nil, solid, by simp⟩
  · -- The last group ends last.
    refine ⟨last.stop, increasing.pairwise, solid, fun group member => ?_⟩
    rcases List.mem_append.mp member with earlier | same
    · have apart := (List.pairwise_append.mp increasing.pairwise).2.2 group earlier last (by simp)
      exact le_trans apart (solid last (by simp))
    · exact le_of_eq (congrArg stop (List.mem_singleton.mp same))

/-! ### The rule -/

/-- The greatest boundary before a position is the one that is searched for. -/
theorem isGreatest_iff (sorted : boundaries.Pairwise fun p q => p ≤ q) {lower : Pos} :
    IsGreatest {b | b ∈ boundaries ∧ b < pos} lower ↔ lastBoundary? boundaries pos = some lower := by
  constructor
  · rintro ⟨⟨member, early⟩, greatest⟩
    cases found : lastBoundary? boundaries pos with
    | none => exact absurd early (not_lt.mpr (lastBoundary?_eq_none sorted found lower member))
    | some other =>
      obtain ⟨member', early', greatest'⟩ := lastBoundary?_eq_some sorted found
      exact congrArg some (le_antisymm (greatest ⟨member', early'⟩) (greatest' lower member early))
  · intro found
    obtain ⟨member, early, greatest⟩ := lastBoundary?_eq_some sorted found
    exact ⟨⟨member, early⟩, fun b ⟨listed, before⟩ => greatest b listed before⟩

theorem clear_iff_isGreatest (sorted : boundaries.Pairwise fun p q => p ≤ q) {start : Pos} :
    Clear boundaries pos start.line ↔
      ∀ lower, IsGreatest {b | b ∈ boundaries ∧ b < pos} lower →
        lower < start ∧ lower.line ≠ start.line := by
  simp only [clear_iff sorted, isGreatest_iff sorted, Option.mem_def]
  refine forall₂_congr fun lower _ => ?_
  rw [Pos.lt_iff]
  omega

theorem search_eq_some_iff_belongsAt (increasing : Increasing groups)
    (sorted : boundaries.Pairwise fun p q => p ≤ q) {index : Nat} :
    search groups boundaries pos = some index ↔
      ∃ group, BelongsAt groups boundaries pos index group := by
  obtain ⟨upper, ordered⟩ := increasing.ordered
  rw [search_eq_some_iff ordered sorted]
  constructor
  · rintro ⟨front, group, back, rfl, rfl, ends, behind, clear⟩
    refine ⟨group, by simp, ends, fun place later beyond found => ?_,
      (clear_iff_isGreatest sorted).mp clear⟩
    have past : (front ++ [group]).length ≤ place := by
      rw [List.length_append, List.length_singleton]
      omega
    rw [List.append_cons, List.getElem?_append_right past] at found
    exact behind later (List.mem_of_getElem? found)
  · rintro ⟨group, found, ends, last, apart⟩
    -- The list is divided at the index: no group behind it ends before the position.
    obtain ⟨inside, rfl⟩ := List.getElem?_eq_some_iff.mp found
    refine ⟨groups.take index, groups[index], groups.drop (index + 1), ?_, ?_, ends, ?_,
      (clear_iff_isGreatest sorted).mpr apart⟩
    · rw [← List.drop_eq_getElem_cons inside, List.take_append_drop]
    · rw [List.length_take]
      omega
    · intro later member
      obtain ⟨place, listed⟩ := List.getElem?_of_mem member
      rw [List.getElem?_drop] at listed
      exact last _ later (by omega) listed

/-! ### Without halving -/

theorem lastBoundary?_eq_lastPassing? (sorted : boundaries.Pairwise fun p q => p ≤ q) :
    lastBoundary? boundaries pos =
      (lastPassing? (fun boundary => boundary < pos) boundaries).map Prod.fst := by
  obtain ⟨front, back, rfl, before, behind⟩ := exists_split_at sorted pos
  rw [lastBoundary?_append before behind,
    lastPassing?_append (by simpa using before) (by simpa using behind), Option.map_map]
  exact Option.map_id'.symm

theorem search_eq_linearSearch (increasing : Increasing groups)
    (sorted : boundaries.Pairwise fun p q => p ≤ q) :
    search groups boundaries pos = linearSearch groups boundaries pos := by
  obtain ⟨upper, ordered⟩ := increasing.ordered
  -- A group that ends in time has only such groups before it, so halving finds the last.
  have passing : groups.Pairwise fun group later =>
      decide (later.stop ≤ pos) = true → decide (group.stop ≤ pos) = true :=
    ordered.stops.imp fun {group later} early passes =>
      decide_eq_true (le_trans early (of_decide_eq_true passes))
  obtain ⟨front, back, rfl, holds, fails⟩ := exists_partition passing
  rw [search, linearSearch, partitionPoint_eq holds fails, lastPassing?_append holds fails,
    lastBoundary?_eq_lastPassing? sorted]
  rcases List.eq_nil_or_concat front with rfl | ⟨init, group, rfl⟩
  · rfl
  · simp only [List.concat_eq_append, List.length_append, List.length_singleton, List.append_assoc]
    cases lastPassing? (fun boundary => decide (boundary < pos)) boundaries <;> simp

/-! ### Later positions -/

theorem search_mono (increasing : Increasing groups) (sorted : boundaries.Pairwise fun p q => p ≤ q)
    {later : Pos} (le : pos ≤ later) {index place : Nat}
    (found : search groups boundaries pos = some index)
    (found' : search groups boundaries later = some place) : index ≤ place := by
  obtain ⟨group, belongs⟩ := (search_eq_some_iff_belongsAt increasing sorted).mp found
  obtain ⟨_, belongs'⟩ := (search_eq_some_iff_belongsAt increasing sorted).mp found'
  by_contra beyond
  -- The group of the earlier position would still end too late for the later one.
  have late := belongs'.last index group (by omega) belongs.at_index
  exact absurd (lt_of_lt_of_le late belongs.ends) (not_lt_of_ge le)

/-- What a search finds is a matter of positions: it follows the rule, and so agrees with going
through the lists; the groups of later positions do not come earlier; and no group is found on both
sides of a boundary. -/
theorem search_positional (increasing : Increasing groups)
    (sorted : boundaries.Pairwise fun p q => p ≤ q) :
    (∀ pos index, search groups boundaries pos = some index ↔
      ∃ group, BelongsAt groups boundaries pos index group) ∧
    (∀ pos, search groups boundaries pos = linearSearch groups boundaries pos) ∧
    (∀ pos later index place, pos ≤ later → search groups boundaries pos = some index →
      search groups boundaries later = some place → index ≤ place) ∧
    ∀ pos later b, pos < later → b ∈ boundaries → pos ≤ b → b < later → ∀ index,
      search groups boundaries pos = some index → search groups boundaries later ≠ some index := by
  refine ⟨fun _ _ => search_eq_some_iff_belongsAt increasing sorted,
    fun _ => search_eq_linearSearch increasing sorted,
    fun _ _ _ _ le found found' => search_mono increasing sorted le found found', ?_⟩
  intro pos later b _ member after before index found
  obtain ⟨upper, ordered⟩ := increasing.ordered
  exact search_ne_of_boundary ordered sorted member after before found

/-- A comment, the declaration behind it that ends at 2:10, and another comment on that line. -/
def touching : List CommentGroup := [⟨⟨1, 0⟩, ⟨1, 5⟩, []⟩, ⟨⟨2, 11⟩, ⟨2, 15⟩, []⟩]

/-- The comment is found up to where the declaration ends. Behind it neither comment is found, the
second because it stands on the line of the boundary. -/
theorem search_positional_touching :
    Increasing touching ∧ [(⟨2, 10⟩ : Pos), ⟨2, 10⟩].Pairwise (fun p q => p ≤ q) ∧
      search touching [⟨2, 10⟩, ⟨2, 10⟩] ⟨2, 10⟩ = some 0 ∧
      search touching [⟨2, 10⟩, ⟨2, 10⟩] ⟨3, 0⟩ = none ∧
      linearSearch touching [⟨2, 10⟩, ⟨2, 10⟩] ⟨2, 10⟩ = some 0 ∧
      search touching [⟨2, 10⟩, ⟨2, 10⟩] ⟨2, 11⟩ ≠ some 0 := by
  have increasing : Increasing touching := ⟨by decide, by decide⟩
  have sorted : [(⟨2, 10⟩ : Pos), ⟨2, 10⟩].Pairwise (fun p q => p ≤ q) := by decide
  obtain ⟨_, linear, _, apart⟩ := search_positional increasing sorted
  have found : search touching [⟨2, 10⟩, ⟨2, 10⟩] ⟨2, 10⟩ = some 0 := by decide
  refine ⟨increasing, sorted, found, by decide, (linear _).symm.trans found, ?_⟩
  exact apart ⟨2, 10⟩ ⟨2, 11⟩ ⟨2, 10⟩ (by decide) (by simp) (by decide) (by decide) 0 found

end CommentGroup

end StructInventory
