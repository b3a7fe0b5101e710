import Mathlib.Data.List.DropRight
import StructInventory.Proofs.CommentGroup
import StructInventory.Proofs.DocComment
import StructInventory.Proofs.PositionalSearch

/-!
Where the comment groups of a text stand. Whatever the text is, it is read to its end, a group
begins at a comment marker and ends behind a character, and between two groups there is at least one
character. So the groups are always in the order that the search for a comment relies on.
-/

namespace StructInventory

/-! ### Positions in a text -/

/-- The position behind a beginning of a text: its lines are counted by their line feeds, and the
column by the characters behind the last of them. -/
def Pos.behind (front : List Char) : Pos :=
  ⟨front.count '\n' + 1, (front.rtakeWhile (· ≠ '\n')).length⟩

theorem Pos.behind_concat (front : List Char) (c : Char) :
    behind (front ++ [c]) = (behind front).next c := by
  by_cases line : c = '\n'
  · simp [behind, next, line]
  · simp [behind, next, line]

theorem Pos.behind_append (front chars : List Char) :
    behind (front ++ chars) = (behind front).past chars := by
  induction chars using List.reverseRecOn with
  | nil => simp [past]
  | append_singleton chars c ih =>
    rw [← List.append_assoc, behind_concat, ih, past_append]
    rfl

theorem Pos.behind_lt_append (front : List Char) {chars : List Char} (some : chars ≠ []) :
    behind front < behind (front ++ chars) := by
  rw [behind_append]
  exact lt_past _ some

/-- Both characters of a comment marker stand in a text, the first of them at `pos`. -/
def MarkerAt (text : List Char) (pos : Pos) : Prop :=
  ∃ front second after, text = front ++ '/' :: second :: after ∧ (second = '/' ∨ second = '*') ∧
    pos = .behind front

/-- A character of a text stands right before `pos`. -/
def EndAt (text : List Char) (pos : Pos) : Prop :=
  ∃ front c after, text = front ++ c :: after ∧ pos = .behind (front ++ [c])

theorem MarkerAt.append {text : List Char} {pos : Pos} (marker : MarkerAt text pos)
    (more : List Char) : MarkerAt (text ++ more) pos := by
  obtain ⟨front, second, after, rfl, kind, place⟩ := marker
  exact ⟨front, second, after ++ more, by simp, kind, place⟩

theorem EndAt.append {text : List Char} {pos : Pos} (ends : EndAt text pos) (more : List Char) :
    EndAt (text ++ more) pos := by
  obtain ⟨front, c, after, rfl, place⟩ := ends
  exact ⟨front, c, after ++ more, by simp, place⟩

theorem endAt_behind (front : List Char) {chars : List Char} (some : chars ≠ []) :
    EndAt (front ++ chars) (.behind (front ++ chars)) := by
  obtain ⟨init, c, rfl⟩ := (List.eq_nil_or_concat' chars).resolve_left some
  exact ⟨front ++ init, c, [], by simp, by simp⟩

/-! ### Pieces of a text -/

/-- The pieces of a text are all of it. -/
theorem Placed.scan_chars (fuel : Nat) (inWord : Bool) (pos : Pos) (text : List Char)
    (enough : text.length ≤ fuel) : (scan fuel inWord pos text).flatMap Placed.chars = text := by
  induction fuel generalizing inWord pos text with
  | zero =>
    rw [List.length_eq_zero_iff.mp (Nat.le_zero.mp enough)]
    rfl
  | succ fuel ih =>
    cases text with
    | nil => rfl
    | cons c rest =>
      have progress := Piece.measure_pos inWord (List.cons_ne_nil c rest)
      rw [scan]
      dsimp only
      rw [List.flatMap_cons, ih, List.take_append_drop]
      rw [List.length_drop]
      omega

namespace CommentGroup

/-- How the groups of a text stand in it. -/
structure WellPlaced (text : List Char) (groups : List CommentGroup) : Prop where
  solid : ∀ group ∈ groups, group.start < group.stop
  apart : groups.IsChain fun group next => group.stop < next.start
  starts : ∀ group ∈ groups, MarkerAt text group.start
  stops : ∀ group ∈ groups, EndAt text group.stop

namespace WellPlaced

variable {text : List Char} {groups : List CommentGroup}

theorem nil (text : List Char) : WellPlaced text [] := ⟨by simp, .nil, by simp, by simp⟩

theorem append (placed : WellPlaced text groups) (more : List Char) :
    WellPlaced (text ++ more) groups where
  solid := placed.solid
  apart := placed.apart
  starts group member := (placed.starts group member).append more
  stops group member := (placed.stops group member).append more

/-- A group behind all others, or in the place of the last one. -/
theorem concat (placed : WellPlaced text groups) {group : CommentGroup}
    (behind : ∀ last ∈ groups.getLast?, last.stop < group.start) (solid : group.start < group.stop)
    (starts : MarkerAt text group.start) (stops : EndAt text group.stop) :
    WellPlaced text (groups ++ [group]) where
  solid := List.forall_mem_append.mpr ⟨placed.solid, List.forall_mem_singleton.mpr solid⟩
  apart := by
    refine List.isChain_append.mpr ⟨placed.apart, List.isChain_singleton group, ?_⟩
    rintro last isLast _ ⟨⟩
    exact behind last isLast
  starts := List.forall_mem_append.mpr ⟨placed.starts, List.forall_mem_singleton.mpr starts⟩
  stops := List.forall_mem_append.mpr ⟨placed.stops, List.forall_mem_singleton.mpr stops⟩

theorem extend {group : CommentGroup} (placed : WellPlaced text (groups ++ [group])) {stop : Pos}
    (later : group.stop ≤ stop) (ends : EndAt text stop) (comments : List (List Char)) :
    WellPlaced text (groups ++ [⟨group.start, stop, comments⟩]) := by
  obtain ⟨apart, _, behind⟩ := List.isChain_append.mp placed.apart
  have others : WellPlaced text groups :=
    ⟨fun other member => placed.solid other (by simp [member]), apart,
      fun other member => placed.starts other (by simp [member]),
      fun other member => placed.stops other (by simp [member])⟩
  refine others.concat (fun last isLast => behind last isLast group rfl) ?_
    (placed.starts group (by simp)) ends
  exact lt_of_lt_of_le (placed.solid group (by simp)) later

/-- Groups that stand well are in the order that a search relies on. -/
theorem increasing (placed : WellPlaced text groups) : Increasing groups :=
  ⟨placed.solid, placed.apart.imp fun _ _ => le_of_lt⟩

end WellPlaced

namespace Collector

/-- What a collector knows behind a beginning of a text. Only directly behind a comment may the next
one touch the last group, and there it joins it. -/
structure Reached (collector : Collector) (front : List Char) : Prop where
  placed : WellPlaced front collector.groups
  before : ∀ group ∈ collector.groups, group.stop ≤ .behind front
  gap : collector.code = true ∨ 0 < collector.lineFeeds →
    ∀ group ∈ collector.groups, group.stop < .behind front
  opened : collector.current = none → collector.groups = []

variable {collector : Collector} {front chars : List Char}

/-- A piece that is no comment of a group leaves room behind the last group. -/
theorem Reached.pass (reached : collector.Reached front) (some : chars ≠ [])
    {passed : Collector} (closed : passed.closed = collector.closed)
    (current : passed.current = collector.current) : passed.Reached (front ++ chars) := by
  have groups : passed.groups = collector.groups := by rw [groups_eq, groups_eq, closed, current]
  have room : ∀ group ∈ passed.groups, group.stop < .behind (front ++ chars) := by
    rw [groups]
    exact fun group member =>
      lt_of_le_of_lt (reached.before group member) (Pos.behind_lt_append front some)
  refine ⟨?_, fun group member => le_of_lt (room group member), fun _ => room, ?_⟩
  · rw [groups]
    exact reached.placed.append chars
  · rw [current, groups]
    exact reached.opened

/-- A comment that begins a group has room before it. -/
theorem Reached.apart (reached : collector.Reached front)
    (fresh : collector.current = none ∨ collector.code = true ∨ 0 < collector.lineFeeds) :
    ∀ last ∈ collector.groups.getLast?, last.stop < .behind front := by
  intro last isLast
  rcases fresh with none | between
  · simp [reached.opened none] at isLast
  · exact reached.gap between last (List.mem_of_getLast? isLast)

theorem addComment_current_ne_none (collector : Collector) (placed : Placed) :
    (collector.addComment placed).current ≠ none := by
  unfold addComment
  dsimp only
  split
  · split <;> simp
  · simp

theorem Reached.addComment (reached : collector.Reached front)
    (marked : ∃ second rest, chars = '/' :: second :: rest ∧ (second = '/' ∨ second = '*')) :
    (collector.addComment ⟨.comment, chars, .behind front, .behind (front ++ chars)⟩).Reached
      (front ++ chars) := by
  obtain ⟨second, rest, spelled, kind⟩ := marked
  have some : chars ≠ [] := by simp [spelled]
  have forward := Pos.behind_lt_append front some
  have ends := endAt_behind front some
  have placed := reached.placed.append chars
  have starts : MarkerAt (front ++ chars) (.behind front) :=
    ⟨front, second, rest, by rw [spelled], kind, rfl⟩
  let comment : Placed := ⟨.comment, chars, .behind front, .behind (front ++ chars)⟩
  have made : WellPlaced (front ++ chars) (collector.addComment comment).groups ∧
      ∀ group ∈ (collector.addComment comment).groups, group.stop ≤ .behind (front ++ chars) := by
    have early : ∀ group ∈ collector.groups, group.stop ≤ .behind (front ++ chars) :=
      fun group member => le_of_lt (lt_of_le_of_lt (reached.before group member) forward)
    -- A comment begins a group behind some room, or puts off the end of the last one.
    rcases groups_addComment collector comment with ⟨fresh, between⟩ | ⟨init, group, split, joined⟩
    · rw [fresh]
      refine ⟨placed.concat (reached.apart between) forward starts ends, ?_⟩
      rw [List.forall_mem_append, List.forall_mem_singleton]
      exact ⟨early, le_refl _⟩
    · rw [split] at placed early
      rw [List.forall_mem_append, List.forall_mem_singleton] at early
      rw [joined]
      refine ⟨placed.extend early.2 ends _, ?_⟩
      rw [List.forall_mem_append, List.forall_mem_singleton]
      exact ⟨early.1, le_refl _⟩
  obtain ⟨clean, feeds⟩ := addComment_clean collector comment
  refine ⟨made.1, made.2, ?_, fun none => absurd none (addComment_current_ne_none _ _)⟩
  rintro (code | fed)
  · simp [comment, clean] at code
  · simp [comment, feeds] at fed

/-- One piece more. -/
theorem Reached.add (reached : collector.Reached front) {piece : Piece} (some : chars ≠ [])
    (marked : piece = .comment →
      ∃ second rest, chars = '/' :: second :: rest ∧ (second = '/' ∨ second = '*')) :
    (collector.add ⟨piece, chars, .behind front, .behind (front ++ chars)⟩).Reached
      (front ++ chars) := by
  cases piece with
  | comment =>
    simp only [Collector.add]
    split
    · exact reached.pass some rfl rfl
    · exact reached.addComment (marked rfl)
  | code _ => exact reached.pass some rfl rfl
  | lineFeed => exact reached.pass some rfl rfl
  | blank => exact reached.pass some rfl rfl

/-- Pieces in turn, to the end of the text. -/
theorem Reached.scan (fuel : Nat) (inWord : Bool) (text : List Char) (enough : text.length ≤ fuel)
    (reached : collector.Reached front) :
    ((Placed.scan fuel inWord (.behind front) text).foldl Collector.add collector).Reached
      (front ++ text) := by
  induction fuel generalizing inWord text collector front with
  | zero =>
    rw [List.length_eq_zero_iff.mp (Nat.le_zero.mp enough), List.append_nil]
    exact reached
  | succ fuel ih =>
    cases text with
    | nil =>
      rw [List.append_nil]
      exact reached
    | cons c rest =>
      have progress := Piece.measure_pos inWord (List.cons_ne_nil c rest)
      rw [Placed.scan, List.foldl_cons]
      -- Whatever piece comes first, it has a length and the rest is shorter.
      generalize measured : Piece.measure inWord (c :: rest) = found at progress
      obtain ⟨piece, length⟩ := found
      have some : (c :: rest).take length ≠ [] := by
        simp only [ne_eq, List.take_eq_nil_iff, List.cons_ne_nil, or_false]
        exact Nat.ne_of_gt progress
      have shorter : ((c :: rest).drop length).length ≤ fuel := by
        rw [List.length_drop]
        omega
      have marked : piece = .comment → ∃ second more,
          (c :: rest).take length = '/' :: second :: more ∧ (second = '/' ∨ second = '*') := by
        rintro rfl
        rcases Piece.measure_eq_comment measured with ⟨more, spelled, long⟩ | ⟨more, spelled, long⟩
        · exact ⟨'/', more.take (length - 2), by rw [spelled, long]; rfl, .inl rfl⟩
        · obtain ⟨beyond, rfl⟩ := Nat.exists_eq_add_of_le' long
          exact ⟨'*', more.take beyond, by rw [spelled]; rfl, .inr rfl⟩
      have step := ih piece.endsInWord _ shorter (reached.add some marked)
      rw [List.append_assoc, List.take_append_drop] at step
      rw [Pos.behind_append] at step
      exact step

end Collector

/-- The comment groups of any text stand well in it: they begin before they end, each ends before
the next one begins, they begin at comment markers and end behind characters. So they are in order,
as the search for a comment needs them. No part of the text is left unread. -/
theorem collect_well_placed (text : String) :
    (Placed.ofText text).flatMap Placed.chars = text.toList ∧
      WellPlaced text.toList (collect text) ∧ Increasing (collect text) := by
  have start : Collector.Reached {} [] :=
    ⟨.nil [], by simp [Collector.groups], by simp, fun _ => rfl⟩
  have placed := (start.scan text.toList.length false text.toList (le_refl _)).placed
  rw [List.nil_append] at placed
  exact ⟨Placed.scan_chars _ _ _ _ (le_refl _), placed, placed.increasing⟩

end CommentGroup

end StructInventory
