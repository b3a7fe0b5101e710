import StructInventory.FileScan
import StructInventory.Proofs.Position

/-!
Which comment group a search finds. The groups of a text follow one another, so the group found for
a position is the last that ends before it, and it is found just when all boundaries before the
position lie on earlier lines than the group.
-/

namespace StructInventory

namespace CommentGroup

/-- Groups that follow one another and end at `upper` at the latest. -/
structure Ordered (groups : List CommentGroup) (upper : Pos) : Prop where
  apart : groups.Pairwise fun group later => group.stop ≤ later.start
  solid : ∀ group ∈ groups, group.start ≤ group.stop
  before : ∀ group ∈ groups, group.stop ≤ upper

theorem Ordered.mono {groups : List CommentGroup} {upper upper' : Pos}
    (ordered : Ordered groups upper) (later : upper ≤ upper') : Ordered groups upper' :=
  { ordered with before := fun group member => le_trans (ordered.before group member) later }

theorem Ordered.concat {groups : List CommentGroup} {lower : Pos} (ordered : Ordered groups lower)
    (group : CommentGroup) (after : lower ≤ group.start) (solid : group.start ≤ group.stop) :
    Ordered (groups ++ [group]) group.stop where
  apart := by
    rw [List.pairwise_append]
    refine ⟨ordered.apart, by simp, fun earlier member later last => ?_⟩
    rw [List.mem_singleton.mp last]
    exact le_trans (ordered.before earlier member) after
  solid := by
    simp only [List.mem_append, List.mem_singleton]
    rintro other (member | rfl)
    · exact ordered.solid other member
    · exact solid
  before := by
    simp only [List.mem_append, List.mem_singleton]
    rintro other (member | rfl)
    · exact le_trans (ordered.before other member) (le_trans after solid)
    · exact le_refl _

/-- The last group may end later. -/
theorem Ordered.extend {groups : List CommentGroup} {group : CommentGroup} {upper : Pos}
    (ordered : Ordered (groups ++ [group]) upper) {longer : CommentGroup}
    (start : longer.start = group.start) (later : group.stop ≤ longer.stop) :
    Ordered (groups ++ [longer]) longer.stop := by
  obtain ⟨apart, _, last⟩ := List.pairwise_append.mp ordered.apart
  have bounded : ∀ earlier ∈ groups, earlier.stop ≤ group.start := fun earlier member =>
    last earlier member group (by simp)
  have solid := ordered.solid group (by simp)
  have kept : Ordered groups group.start :=
    ⟨apart, fun other member => ordered.solid other (by simp [member]), bounded⟩
  exact kept.concat longer (le_of_eq start.symm) (start ▸ le_trans solid later)

theorem Ordered.stops {groups : List CommentGroup} {upper : Pos} (ordered : Ordered groups upper) :
    groups.Pairwise fun group later => group.stop ≤ later.stop := by
  refine ordered.apart.imp_of_mem fun {group later} _ member apart => ?_
  exact le_trans apart (ordered.solid later member)

theorem Ordered.before_of_ends {front back : List CommentGroup} {group : CommentGroup}
    {upper pos : Pos} (ordered : Ordered (front ++ group :: back) upper) (ends : group.stop ≤ pos) :
    ∀ earlier ∈ front, earlier.stop ≤ pos := fun earlier member =>
  le_trans ((List.pairwise_append.mp ordered.stops).2.2 earlier member group (by simp)) ends

namespace Collector

theorem groups_eq (collector : Collector) :
    collector.groups = collector.closed.reverse ++ collector.current.toList := by
  cases current : collector.current <;> simp [groups, current]

/-- A comment begins a new last group, which is the first one or has code or a line feed before it,
or it joins the last group. -/
theorem groups_addComment (collector : Collector) (placed : Placed) :
    ((collector.addComment placed).groups =
        collector.groups ++ [⟨placed.start, placed.stop, [kept placed.chars]⟩] ∧
      (collector.current = none ∨ collector.code = true ∨ 0 < collector.lineFeeds)) ∨
      ∃ front group, collector.groups = front ++ [group] ∧
        (collector.addComment placed).groups = front ++ [⟨group.start, placed.stop,
          group.comments ++ [kept placed.chars]⟩] := by
  unfold addComment
  dsimp only
  split
  next group current =>
    split
    · exact .inr ⟨collector.closed.reverse, group, by simp [groups_eq, current], by simp [groups_eq]⟩
    next apart =>
      refine .inl ⟨by simp [groups_eq, current], .inr ?_⟩
      cases code : collector.code with
      | true => exact .inl rfl
      | false =>
        simp only [code, Bool.not_false, Bool.true_and, decide_eq_true_eq] at apart
        exact .inr (by omega)
  next current => exact .inl ⟨by simp [groups_eq, current], .inl current⟩

theorem ordered_addComment {collector : Collector} {placed : Placed}
    (ordered : Ordered collector.groups placed.start) (solid : placed.start ≤ placed.stop) :
    Ordered (collector.addComment placed).groups placed.stop := by
  rcases groups_addComment collector placed with ⟨fresh, _⟩ | ⟨front, group, split, joined⟩
  · rw [fresh]
    exact ordered.concat ⟨_, _, _⟩ (le_refl _) solid
  · rw [split] at ordered
    rw [joined]
    exact ordered.extend rfl (le_trans (ordered.before group (by simp)) solid)

theorem ordered_add {collector : Collector} {placed : Placed}
    (ordered : Ordered collector.groups placed.start) (solid : placed.start ≤ placed.stop) :
    Ordered (collector.add placed).groups placed.stop := by
  unfold add
  split
  · split
    · exact ordered.mono solid
    · exact ordered_addComment ordered solid
  all_goals exact ordered.mono solid

/-- Pieces in turn keep the groups in order. -/
theorem ordered_scan (fuel : Nat) (inWord : Bool) (pos : Pos) (text : List Char)
    {collector : Collector} (ordered : Ordered collector.groups pos) :
    ∃ upper, Ordered ((Placed.scan fuel inWord pos text).foldl add collector).groups upper := by
  induction fuel generalizing inWord pos text collector with
  | zero => exact ⟨pos, ordered⟩
  | succ fuel ih =>
    cases text with
    | nil => exact ⟨pos, ordered⟩
    | cons c rest =>
      rw [Placed.scan, List.foldl_cons]
      exact ih _ _ _ (ordered_add ordered (Pos.le_past pos _))

end Collector

theorem collect_ordered (text : String) : ∃ upper, Ordered (collect text) upper :=
  Collector.ordered_scan _ _ .first _ ⟨by simp [Collector.groups], by simp [Collector.groups],
    by simp [Collector.groups]⟩

/-! ### Searching -/

variable {boundaries : List Pos} {pos : Pos}

theorem lastBoundary?_append {front back : List Pos} (before : ∀ b ∈ front, b < pos)
    (behind : ∀ b ∈ back, pos ≤ b) : lastBoundary? (front ++ back) pos = front.getLast? := by
  have point : partitionPoint (· < pos) (front ++ back) = front.length :=
    partitionPoint_eq (by simpa using before) (by simpa using behind)
  rw [lastBoundary?, point]
  rcases List.eq_nil_or_concat front with rfl | ⟨init, lower, rfl⟩
  · rfl
  · simp

/-- The last boundary before a position is not behind another one before it. -/
theorem lastBoundary?_eq_some (sorted : boundaries.Pairwise fun p q => p ≤ q) {lower : Pos}
    (found : lastBoundary? boundaries pos = some lower) :
    lower ∈ boundaries ∧ lower < pos ∧ ∀ b ∈ boundaries, b < pos → b ≤ lower := by
  obtain ⟨front, back, rfl, before, behind⟩ := exists_split_at sorted pos
  rw [lastBoundary?_append before behind] at found
  obtain ⟨init, rfl⟩ := List.getLast?_eq_some_iff.mp found
  refine ⟨by simp, before lower (by simp), fun b member early => ?_⟩
  have inFront : b ∈ init ++ [lower] :=
    (List.mem_append.mp member).resolve_right fun late => absurd early (not_lt.mpr (behind b late))
  rcases List.mem_append.mp inFront with earlier | last
  · exact (List.pairwise_append.mp (List.pairwise_append.mp sorted).1).2.2 b earlier lower (by simp)
  · exact le_of_eq (List.mem_singleton.mp last)

theorem lastBoundary?_eq_none (sorted : boundaries.Pairwise fun p q => p ≤ q)
    (found : lastBoundary? boundaries pos = none) : ∀ b ∈ boundaries, pos ≤ b := by
  obtain ⟨front, back, rfl, before, behind⟩ := exists_split_at sorted pos
  rw [lastBoundary?_append before behind, List.getLast?_eq_none_iff] at found
  subst found
  exact behind

/-- All boundaries before a position are on lines before `line`. -/
def Clear (boundaries : List Pos) (pos : Pos) (line : Nat) : Prop :=
  ∀ b ∈ boundaries, b < pos → b.line < line

theorem clear_iff (sorted : boundaries.Pairwise fun p q => p ≤ q) {line : Nat} :
    Clear boundaries pos line ↔ ∀ lower ∈ lastBoundary? boundaries pos, lower.line < line := by
  constructor
  · intro clear lower found
    obtain ⟨member, early, _⟩ := lastBoundary?_eq_some sorted found
    exact clear lower member early
  · intro last b member early
    cases found : lastBoundary? boundaries pos with
    | none => exact absurd early (not_lt.mpr (lastBoundary?_eq_none sorted found b member))
    | some lower =>
      have behind := (lastBoundary?_eq_some sorted found).2.2 b member early
      have below := last lower found
      rw [Pos.le_iff] at behind
      omega

theorem search_append {front back : List CommentGroup} {group : CommentGroup}
    (sorted : boundaries.Pairwise fun p q => p ≤ q)
    (before : ∀ earlier ∈ front, earlier.stop ≤ pos) (ends : group.stop ≤ pos)
    (behind : ∀ later ∈ back, pos < later.stop) {index : Nat} :
    search (front ++ group :: back) boundaries pos = some index ↔
      front.length = index ∧ Clear boundaries pos group.start.line := by
  -- Halving stops right behind the group, whatever the boundaries are.
  have point : partitionPoint (fun group => decide (group.stop ≤ pos)) (front ++ group :: back) =
      front.length + 1 := by
    have passes : ∀ earlier ∈ front ++ [group], decide (earlier.stop ≤ pos) = true := by
      simp only [List.mem_append, List.mem_singleton, decide_eq_true_eq]
      rintro earlier (member | rfl)
      · exact before earlier member
      · exact ends
    rw [List.append_cons, partitionPoint_eq passes (by simpa using behind)]
    simp
  rw [search, point, clear_iff sorted]
  simp only [List.getElem?_append_right (Nat.le_refl _), Nat.sub_self, List.getElem?_cons_zero]
  cases lastBoundary? boundaries pos with
  | none => simp
  | some lower =>
    have apart : ¬(group.start ≤ lower ∨ group.start.line = lower.line) ↔
        lower.line < group.start.line := by
      rw [Pos.le_iff]
      omega
    by_cases hidden : group.start ≤ lower ∨ group.start.line = lower.line
    · simp [← apart, hidden]
    · simp [← apart, hidden]

/-- A group is found for a position just when it is the last that ends before it and every boundary
before the position is on an earlier line. -/
theorem search_eq_some_iff {groups : List CommentGroup} {upper : Pos}
    (ordered : Ordered groups upper) (sorted : boundaries.Pairwise fun p q => p ≤ q) {index : Nat} :
    search groups boundaries pos = some index ↔
      ∃ front group back, groups = front ++ group :: back ∧ front.length = index ∧
        group.stop ≤ pos ∧ (∀ later ∈ back, pos < later.stop) ∧
        Clear boundaries pos group.start.line := by
  constructor
  · intro found
    have passing : groups.Pairwise fun group later =>
        decide (later.stop ≤ pos) = true → decide (group.stop ≤ pos) = true :=
      ordered.stops.imp fun {group later} early passes =>
        decide_eq_true (le_trans early (of_decide_eq_true passes))
    -- The groups that end before the position come first, and the last of them is searched for.
    obtain ⟨passed, back, rfl, holds, fails⟩ := exists_partition passing
    have behind : ∀ later ∈ back, pos < later.stop := by simpa using fails
    rcases List.eq_nil_or_concat passed with rfl | ⟨front, group, rfl⟩
    · have none : partitionPoint (fun group => decide (group.stop ≤ pos)) back = 0 :=
        partitionPoint_eq holds fails
      simp [search, none] at found
    · have before : ∀ earlier ∈ front, earlier.stop ≤ pos := fun earlier member =>
        of_decide_eq_true (holds earlier (by simp [member]))
      have ends : group.stop ≤ pos := of_decide_eq_true (holds group (by simp))
      rw [List.concat_eq_append, List.append_assoc] at found
      obtain ⟨length, clear⟩ := (search_append sorted before ends behind).mp found
      exact ⟨front, group, back, by simp, length, ends, behind, clear⟩
  · rintro ⟨front, group, back, rfl, length, ends, behind, clear⟩
    exact (search_append sorted (ordered.before_of_ends ends) ends behind).mpr ⟨length, clear⟩

/-- A group that is found for a position is not found again behind a boundary at it or later. -/
theorem search_ne_of_boundary {groups : List CommentGroup} {upper : Pos}
    (ordered : Ordered groups upper) (sorted : boundaries.Pairwise fun p q => p ≤ q) {later b : Pos}
    (member : b ∈ boundaries) (after : pos ≤ b) (before : b < later) {index : Nat}
    (found : search groups boundaries pos = some index) :
    search groups boundaries later ≠ some index := by
  intro again
  obtain ⟨front, group, back, split, rfl, ends, -, -⟩ := (search_eq_some_iff ordered sorted).mp found
  obtain ⟨front', group', back', split', length, -, -, clear⟩ :=
    (search_eq_some_iff ordered sorted).mp again
  obtain ⟨rfl, rest⟩ := List.append_inj (split'.symm.trans split) length
  obtain ⟨rfl, -⟩ := List.cons.inj rest
  -- The boundary would lie both before the group, for the later position, and behind it.
  have solid := ordered.solid group' (by simp [split])
  have above := clear b member before
  have : b < group'.start := Pos.lt_iff.mpr (.inl above)
  exact absurd (lt_of_lt_of_le this (le_trans solid ends)) (not_lt_of_ge after)

/-- Two positions with a boundary between them do not share a group. -/
theorem search_apart {groups : List CommentGroup} {upper : Pos} (ordered : Ordered groups upper)
    (sorted : boundaries.Pairwise fun p q => p ≤ q) {later b : Pos} (member : b ∈ boundaries)
    (after : pos < b) (before : b < later) {index : Nat}
    (found : search groups boundaries pos = some index) :
    search groups boundaries later ≠ some index :=
  search_ne_of_boundary ordered sorted member (le_of_lt after) before found

end CommentGroup

end StructInventory
