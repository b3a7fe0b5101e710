import Mathlib.Data.List.Chain
import StructInventory.Proofs.CommentGroup
import StructInventory.Proofs.DocComment

/-!
Lines that are written as a comment and read again. Whether each of them is written as a line
comment or all of them in one block, they are read as a single group, and the text of that group is
made of just these lines. The text of any group can be written and read again in this way.
-/

namespace StructInventory

open Text

namespace CommentGroup

/-- Lines as the text of a group has them. -/
structure TextLines (lines : List (List Char)) : Prop where
  some : lines ≠ []
  inLine : ∀ line ∈ lines, '\n' ∉ line
  trimmed : ∀ line ∈ lines, ∀ c ∈ line.getLast?, isBlank c = false
  first : lines.head? ≠ .some []
  last : lines.getLast? ≠ .some []

/-- Lines with line feeds between them. -/
def unlines (lines : List (List Char)) : String := String.ofList (List.intercalate ['\n'] lines)

/-- Lines as a source text has them; the last one may be ended as well. -/
def sourceText (lines : List (List Char)) (ended : Bool) : String :=
  String.ofList (List.intercalate ['\n'] lines ++ if ended then ['\n'] else [])

/-- What a line comment begins with. -/
inductive LineMark where
  | plain
  | doc
  deriving DecidableEq, Repr

/-- A line as a line comment. -/
def LineMark.write : LineMark → List Char → List Char
  | plain, line => '/' :: '/' :: ' ' :: line
  | doc, line => '/' :: '/' :: '/' :: ' ' :: line

/-- Lines as a block comment, each behind a star. -/
def blockLines (lines : List (List Char)) : List (List Char) :=
  ['/', '*', '*'] :: (lines.map (fun line => ' ' :: '*' :: ' ' :: line) ++ [[' ', '*', '/']])

/-! ### Trimming -/

/-- What is left when items are dropped at an end does not end in one of them. -/
theorem getLast?_reverse_dropWhile {α : Type} (test : α → Bool) (items : List α) :
    ∀ item ∈ (items.dropWhile test).reverse.getLast?, test item = false := by
  intro item isLast
  rw [List.getLast?_reverse] at isLast
  have stops := List.head?_dropWhile_not test items
  rw [Option.mem_def.mp isLast] at stops
  exact stops

theorem getLast?_tidyLine (line : List Char) :
    ∀ c ∈ (tidyLine line).getLast?, isBlank c = false :=
  getLast?_reverse_dropWhile isBlank _

theorem trimEnd_eq_self {line : List Char} (trimmed : ∀ c ∈ line.getLast?, isBlank c = false) :
    trimEnd line = line := by
  show line.rdropWhile isBlank = line
  rw [List.rdropWhile_eq_self_iff]
  intro some
  simpa using trimmed _ (List.getLast?_eq_some_getLast some)

theorem tidyLine_space {line : List Char} (trimmed : ∀ c ∈ line.getLast?, isBlank c = false) :
    tidyLine (' ' :: line) = line := by
  rw [tidyLine, dropChar, if_pos rfl, trimEnd_eq_self trimmed]

theorem tidyLine_innerLine {line : List Char} (trimmed : ∀ c ∈ line.getLast?, isBlank c = false) :
    tidyLine (innerLine (' ' :: '*' :: ' ' :: line)) = line := by
  have space : isBlank ' ' = true := by decide
  have star : isBlank '*' = false := by decide
  simp only [innerLine, trimStart, List.dropWhile_cons, space, star, dropChar, if_true,
    Bool.false_eq_true, if_false]
  exact tidyLine_space trimmed

theorem dropWhile_isEmpty_of_head? {lines : List (List Char)} (first : lines.head? ≠ some []) :
    lines.dropWhile List.isEmpty = lines := by
  cases lines with
  | nil => rfl
  | cons line rest =>
    have filled : line.isEmpty = false := by simpa using first
    simp [filled]

/-- Empty lines around lines that neither begin nor end with one are dropped. -/
theorem trimLines_around {front lines back : List (List Char)} (before : ∀ line ∈ front, line = [])
    (some : lines ≠ []) (first : lines.head? ≠ .some []) (last : lines.getLast? ≠ .some [])
    (behind : ∀ line ∈ back, line = []) : trimLines (front ++ lines ++ back) = lines := by
  have leading : (front ++ lines ++ back).dropWhile List.isEmpty = lines ++ back := by
    have dropped : front.dropWhile List.isEmpty = [] := by
      simpa [List.dropWhile_eq_nil_iff] using before
    have kept : (lines ++ back).dropWhile List.isEmpty = lines ++ back :=
      dropWhile_isEmpty_of_head? (by rwa [List.head?_append_of_ne_nil lines some])
    rw [List.append_assoc, List.dropWhile_append, dropped]
    exact kept
  have trailing : (lines ++ back).reverse.dropWhile List.isEmpty = lines.reverse := by
    have dropped : back.reverse.dropWhile List.isEmpty = [] := by
      simpa [List.dropWhile_eq_nil_iff] using behind
    rw [List.reverse_append, List.dropWhile_append, dropped]
    exact dropWhile_isEmpty_of_head? (by rwa [List.head?_reverse])
  rw [trimLines, leading, trailing, List.reverse_reverse]

/-- What is left of lines neither begins nor ends with an empty one. -/
theorem trimLines_ends (all : List (List Char)) :
    (trimLines all).head? ≠ some [] ∧ (trimLines all).getLast? ≠ some [] := by
  constructor
  · intro empty
    obtain ⟨more, spelled⟩ := List.rdropWhile_prefix List.isEmpty (all.dropWhile List.isEmpty)
    have leads : (all.dropWhile List.isEmpty).head? = some [] := by
      rw [← spelled]
      simp [show List.rdropWhile List.isEmpty _ = trimLines all from rfl, empty]
    have filled := List.head?_dropWhile_not List.isEmpty all
    simp [leads] at filled
  · intro empty
    have filled := getLast?_reverse_dropWhile List.isEmpty (all.dropWhile List.isEmpty).reverse []
      empty
    simp at filled

/-! ### Collecting a single group -/

namespace Collector

/-- All comments so far are in one group, and another one joins it. -/
structure Holds (collector : Collector) (comments : List (List Char)) : Prop where
  closed : collector.closed = []
  current : collector.current.toList.flatMap CommentGroup.comments = comments
  code : collector.code = false
  near : collector.lineFeeds ≤ 1

variable {collector : Collector} {comments : List (List Char)}

theorem Holds.exists_group (holds : collector.Holds comments) (some : comments ≠ []) :
    ∃ group, collector.groups = [group] ∧ group.comments = comments := by
  obtain ⟨closed, current, _, _⟩ := holds
  cases held : collector.current with
  | none => exact absurd (by simpa [held] using current) some
  | some group => exact ⟨group, by simp [groups, closed, held], by simpa [held] using current⟩

theorem Holds.addComment (holds : collector.Holds comments) (placed : Placed) :
    (collector.addComment placed).Holds (comments ++ [kept placed.chars]) := by
  obtain ⟨closed, rfl, code, near⟩ := holds
  unfold Collector.addComment
  cases held : collector.current with
  | none => exact ⟨closed, by simp, rfl, Nat.zero_le 1⟩
  | some group =>
    simp only [code, near, Bool.not_false, decide_true, Bool.and_self, if_true]
    exact ⟨closed, by simp, rfl, Nat.zero_le 1⟩

theorem Holds.lineFeed (holds : collector.Holds comments) (first : collector.lineFeeds = 0) :
    (collector.passBlanks ['\n']).Holds comments :=
  ⟨holds.closed, holds.current, holds.code, by simp [passBlanks, first]⟩

/-- The end of the text, or of its last line. -/
theorem Holds.feed_end (holds : collector.Holds comments) (first : collector.lineFeeds = 0)
    (inWord : Bool) (pos : Pos) (ended : Bool) :
    (collector.feed inWord pos (if ended then ['\n'] else [])).Holds comments := by
  cases ended with
  | false => exact holds
  | true =>
    have read := feed_blank collector inWord pos [] (by decide : isBlank '\n' = true)
    rw [if_pos rfl, read]
    exact holds.lineFeed first

/-- A comment that is read as such joins the group. -/
theorem Holds.feed_comment (holds : collector.Holds comments) (pos : Pos) {inWord : Bool}
    (chars after : List Char) (some : chars ≠ []) (outer : isInner chars = false)
    (measured : Piece.measure inWord (chars ++ after) = (.comment, chars.length)) :
    ∃ next : Collector, next.Holds (comments ++ [kept chars]) ∧ next.lineFeeds = 0 ∧
      collector.feed inWord pos (chars ++ after) = next.feed false (pos.past chars) after := by
  let placed : Placed := ⟨.comment, chars, pos, pos.past chars⟩
  refine ⟨collector.addComment placed, holds.addComment placed,
    (addComment_clean collector placed).2, ?_⟩
  have added : collector.add placed = collector.addComment placed := by
    simp [add, placed, outer]
  rw [feed_append collector pos chars after some measured, added]
  rfl

/-- What stands in one line and is read as a comment that belongs to a group. -/
structure InLineComment (chars : List Char) : Prop where
  marked : ∃ body, chars = '/' :: '/' :: body ∧ '\n' ∉ body
  outer : isInner chars = false

theorem Holds.feed_inLine (holds : collector.Holds comments) (pos : Pos) (inWord : Bool)
    {chars : List Char} (after : List Char) (comment : InLineComment chars)
    (ends : ∀ c ∈ after.head?, c = '\n') :
    ∃ next : Collector, next.Holds (comments ++ [kept chars]) ∧ next.lineFeeds = 0 ∧
      collector.feed inWord pos (chars ++ after) = next.feed false (pos.past chars) after := by
  obtain ⟨body, rfl, inLine⟩ := comment.marked
  exact holds.feed_comment pos _ after (by simp) comment.outer
    (Piece.measure_lineComment inWord inLine after ends)

/-- Comments on successive lines are in one group. -/
theorem Holds.feed_lines (holds : collector.Holds comments) (inWord : Bool) (pos : Pos)
    {lines : List (List Char)} (some : lines ≠ []) (inLine : ∀ line ∈ lines, InLineComment line)
    (ended : Bool) :
    (collector.feed inWord pos
      (List.intercalate ['\n'] lines ++ if ended then ['\n'] else [])).Holds
        (comments ++ lines.map kept) := by
  induction lines generalizing collector comments inWord pos with
  | nil => exact absurd rfl some
  | cons line rest ih =>
    obtain ⟨first, others⟩ := List.forall_mem_cons.mp inLine
    by_cases further : rest = []
    · subst further
      have ends : ∀ c ∈ (if ended then ['\n'] else []).head?, c = '\n' := by
        cases ended <;> simp
      obtain ⟨next, joined, clean, read⟩ := holds.feed_inLine pos inWord _ first ends
      rw [List.intercalate_singleton, read]
      exact joined.feed_end clean false _ ended
    · -- One line feed behind a comment does not end its group.
      obtain ⟨next, joined, clean, read⟩ := holds.feed_inLine pos inWord
        ('\n' :: (List.intercalate ['\n'] rest ++ if ended then ['\n'] else [])) first (by simp)
      have behind := ih (joined.lineFeed clean) false ((pos.past line).next '\n') further others
      rw [← feed_blank next false _ _ (by decide : isBlank '\n' = true), ← read] at behind
      simpa [List.intercalate_cons_of_ne_nil further] using behind

end Collector

theorem collect_ofList (chars : List Char) :
    collect (String.ofList chars) = (Collector.feed {} false .first chars).groups := by
  rw [collect, Placed.ofText, String.toList_ofList]
  rfl

/-! ### Line comments -/

variable {lines : List (List Char)}

theorem LineMark.inLineComment (mark : LineMark) {line : List Char} (inLine : '\n' ∉ line) :
    Collector.InLineComment (mark.write line) := by
  cases mark with
  | plain => exact ⟨⟨' ' :: line, rfl, by simpa using inLine⟩, rfl⟩
  | doc => exact ⟨⟨'/' :: ' ' :: line, rfl, by simpa using inLine⟩, rfl⟩

/-- No carriage return is taken off, since the line does not end in a blank. -/
theorem LineMark.kept_write (mark : LineMark) {line : List Char}
    (trimmed : ∀ c ∈ line.getLast?, isBlank c = false) :
    Collector.kept (mark.write line) = mark.write line := by
  have ends : ∀ c ∈ (mark.write line).getLast?, c ≠ '\r' := by
    rintro c isLast rfl
    have last : (' ' :: line).getLast? = some '\r' := by
      cases mark <;> simpa [write, List.getLast?_cons_cons] using isLast
    cases line with
    | nil => simp at last
    | cons d rest =>
      rw [List.getLast?_cons_cons] at last
      exact absurd (trimmed '\r' last) (by decide)
  have kept : Collector.kept (mark.write line) =
      (mark.write line).rdropWhile (fun c => decide (c = '\r')) := by
    cases mark <;> rfl
  rw [kept, List.rdropWhile_eq_self_iff]
  intro some
  simpa using ends _ (List.getLast?_eq_some_getLast some)

theorem LineMark.commentLines_write (mark : LineMark) {line : List Char}
    (trimmed : ∀ c ∈ line.getLast?, isBlank c = false) :
    commentLines (mark.write line) = [line] := by
  cases mark with
  | plain => simp [write, commentLines, lineBody, tidyLine_space trimmed]
  | doc => simp [write, commentLines, lineBody, tidyLine_space trimmed]

theorem text_of_comments {group : CommentGroup} (front back : List (List Char))
    (proper : TextLines lines) (before : ∀ line ∈ front, line = [])
    (behind : ∀ line ∈ back, line = [])
    (held : group.comments.flatMap commentLines = front ++ lines ++ back) :
    group.text = unlines lines := by
  rw [CommentGroup.text, held,
    trimLines_around before proper.some proper.first proper.last behind]
  rfl

/-- Lines that are written as line comments are read again. -/
theorem read_lineComments {marked : List (LineMark × List Char)}
    (proper : TextLines (marked.map Prod.snd)) (ended : Bool) :
    ∃ group, collect (sourceText (marked.map fun item => item.1.write item.2) ended) = [group] ∧
      group.text = unlines (marked.map Prod.snd) := by
  have inLine : ∀ item ∈ marked, '\n' ∉ item.2 := fun item member =>
    proper.inLine item.2 (List.mem_map_of_mem member)
  have trimmed : ∀ item ∈ marked, ∀ c ∈ item.2.getLast?, isBlank c = false := fun item member =>
    proper.trimmed item.2 (List.mem_map_of_mem member)
  have some : marked ≠ [] := fun none => proper.some (by simp [none])
  have comments : ∀ line ∈ marked.map (fun item => item.1.write item.2),
      Collector.InLineComment line := by
    intro line member
    obtain ⟨item, listed, rfl⟩ := List.mem_map.mp member
    exact item.1.inLineComment (inLine item listed)
  have start : Collector.Holds {} [] := ⟨rfl, rfl, rfl, Nat.zero_le 1⟩
  have holds := start.feed_lines false .first (by simpa using some) comments ended
  obtain ⟨group, single, held⟩ := holds.exists_group (by simpa using some)
  refine ⟨group, by rw [sourceText, collect_ofList, single], ?_⟩
  refine text_of_comments [] [] proper (by simp) (by simp) ?_
  rw [held, List.nil_append, List.nil_append, List.append_nil, List.map_map, List.flatMap_map,
    List.map_eq_flatMap]
  refine List.flatMap_congr fun item listed => ?_
  simp only [Function.comp_apply, item.1.kept_write (trimmed item listed)]
  exact item.1.commentLines_write (trimmed item listed)

/-! ### Block comments -/

/-- No comment marker begins at the first of two characters. -/
def Unmarked (c d : Char) : Prop := ¬(c = '/' ∧ d = '*') ∧ ¬(c = '*' ∧ d = '/')

theorem isChain_unmarked {line : List Char} (opens : ¬['/', '*'] <:+: line)
    (closes : ¬['*', '/'] <:+: line) : line.IsChain Unmarked := by
  rw [List.isChain_iff_forall_rel_of_append_cons_cons]
  rintro c d front back rfl
  constructor
  · rintro ⟨rfl, rfl⟩
    exact opens ⟨front, back, by simp⟩
  · rintro ⟨rfl, rfl⟩
    exact closes ⟨front, back, by simp⟩

/-- Line feeds make no comment markers. -/
theorem isChain_unmarked_intercalate {parts : List (List Char)}
    (within : ∀ part ∈ parts, part.IsChain Unmarked) :
    (List.intercalate ['\n'] parts).IsChain Unmarked := by
  induction parts with
  | nil => exact .nil
  | cons part rest ih =>
    obtain ⟨first, others⟩ := List.forall_mem_cons.mp within
    by_cases further : rest = []
    · rw [further, List.intercalate_singleton]
      exact first
    · rw [List.intercalate_cons_of_ne_nil further, List.append_assoc, List.singleton_append]
      refine List.isChain_append.mpr ⟨first, List.isChain_cons.mpr ⟨?_, ih others⟩, ?_⟩
      · simp [Unmarked]
      · simp [Unmarked]

/-- A text without comment markers in it that does not end in half a marker can be closed. -/
theorem blockBody_append {body : List Char} (unmarked : body.IsChain Unmarked)
    (ends : ∀ c ∈ body.getLast?, c ≠ '/' ∧ c ≠ '*') : BlockBody (body ++ ['*', '/']) := by
  induction body with
  | nil => exact .close
  | cons c rest ih =>
    obtain ⟨apart, later⟩ := List.isChain_cons.mp unmarked
    -- Also with the closing marker behind it, no character begins a marker with the next one.
    have next : ∀ d ∈ (rest ++ ['*', '/']).head?, Unmarked c d := by
      cases rest with
      | nil =>
        obtain ⟨slash, star⟩ := ends c rfl
        simp [Unmarked, slash, star]
      | cons d rest => exact apart
    have inner : BlockBody (rest ++ ['*', '/']) := by
      refine ih later fun d isLast => ends d ?_
      cases rest with
      | nil => cases isLast
      | cons => rwa [List.getLast?_cons_cons]
    refine .plain ?_ ?_ inner
    · rintro ⟨beyond, spelled⟩
      obtain ⟨same, more⟩ : '/' = c ∧ '*' :: beyond = rest ++ ['*', '/'] := List.cons.inj spelled
      exact (next '*' (by rw [← more]; rfl)).1 ⟨same.symm, rfl⟩
    · rintro ⟨beyond, spelled⟩
      obtain ⟨same, more⟩ : '*' = c ∧ '/' :: beyond = rest ++ ['*', '/'] := List.cons.inj spelled
      exact (next '/' (by rw [← more]; rfl)).2 ⟨same.symm, rfl⟩

/-- The lines within a block comment: what is left of the first one, those with stars, and the blank
before the closing marker. -/
def starredLines (first : List Char) (lines : List (List Char)) : List (List Char) :=
  first :: (lines.map (fun line => ' ' :: '*' :: ' ' :: line) ++ [[' ']])

theorem getLast?_intercalate_concat (parts : List (List Char)) :
    (List.intercalate ['\n'] (parts ++ [[' ']])).getLast? = some ' ' := by
  induction parts with
  | nil => rfl
  | cons part rest ih =>
    rw [List.cons_append, List.intercalate_cons_of_ne_nil (by simp), List.getLast?_append, ih]
    rfl

theorem intercalate_starredLines (first : List Char) (lines : List (List Char)) :
    List.intercalate ['\n'] (starredLines first lines) =
      first ++ '\n' :: List.intercalate ['\n']
        (lines.map (fun line => ' ' :: '*' :: ' ' :: line) ++ [[' ']]) := by
  rw [starredLines, List.intercalate_cons_of_ne_nil (by simp), List.append_assoc,
    List.singleton_append]

theorem intercalate_blockLines (lines : List (List Char)) :
    List.intercalate ['\n'] (blockLines lines) =
      '/' :: '*' :: (List.intercalate ['\n'] (starredLines ['*'] lines) ++ ['*', '/']) := by
  have closing : ∀ parts : List (List Char),
      List.intercalate ['\n'] (parts ++ [[' ', '*', '/']]) =
        List.intercalate ['\n'] (parts ++ [[' ']]) ++ ['*', '/'] := by
    intro parts
    induction parts with
    | nil => rfl
    | cons part rest ih =>
      rw [List.cons_append, List.cons_append, List.intercalate_cons_of_ne_nil (by simp),
        List.intercalate_cons_of_ne_nil (by simp), ih, ← List.append_assoc]
  rw [blockLines, List.intercalate_cons_of_ne_nil (by simp), closing, intercalate_starredLines]
  simp

theorem blockBody_starredLines (unmarked : ∀ line ∈ lines, line.IsChain Unmarked) :
    BlockBody (List.intercalate ['\n'] (starredLines ['*'] lines) ++ ['*', '/']) := by
  refine blockBody_append (isChain_unmarked_intercalate ?_) ?_
  · intro part member
    rcases List.mem_cons.mp member with rfl | member
    · exact List.isChain_singleton '*'
    rcases List.mem_append.mp member with starred | blank
    · obtain ⟨line, listed, rfl⟩ := List.mem_map.mp starred
      refine List.isChain_cons.mpr ⟨by simp [Unmarked], List.isChain_cons.mpr ⟨by simp [Unmarked],
        List.isChain_cons.mpr ⟨by simp [Unmarked], unmarked line listed⟩⟩⟩
    · rw [List.mem_singleton.mp blank]
      exact List.isChain_singleton ' '
  · intro c isLast
    rw [starredLines, ← List.cons_append, getLast?_intercalate_concat] at isLast
    obtain rfl : ' ' = c := by simpa using isLast
    decide

/-- The lines of a block comment are its starred lines, with nothing on its first and last line. -/
theorem commentLines_block (inLine : ∀ line ∈ lines, '\n' ∉ line)
    (trimmed : ∀ line ∈ lines, ∀ c ∈ line.getLast?, isBlank c = false) :
    commentLines (List.intercalate ['\n'] (blockLines lines)) = [[]] ++ lines ++ [[]] := by
  have body : blockBody (List.intercalate ['\n'] (starredLines ['*'] lines) ++ ['*', '/']) =
      List.intercalate ['\n'] (starredLines [] lines) := by
    rw [intercalate_starredLines, intercalate_starredLines]
    simp [blockBody, dropChar]
  have divided : CommentGroup.lines (List.intercalate ['\n'] (starredLines [] lines)) =
      starredLines [] lines := by
    have last : (List.intercalate ['\n'] (starredLines [] lines)).getLast? = some ' ' := by
      rw [starredLines, ← List.cons_append]
      exact getLast?_intercalate_concat _
    rw [CommentGroup.lines, last]
    show splitAt '\n' (List.intercalate ['\n'] (starredLines [] lines)) = starredLines [] lines
    rw [splitAt_eq_splitOn]
    refine List.splitOn_intercalate '\n' ?_ (by simp [starredLines])
    simpa [starredLines, or_imp, forall_and] using inLine
  rw [intercalate_blockLines, commentLines, body, divided, starredLines]
  have blank : tidyLine (innerLine [' ']) = [] := by decide
  simp only [List.map_append, List.map_map, List.map_cons, List.map_nil, blank]
  congr 2
  refine (List.map_congr_left fun line listed => ?_).trans (List.map_id lines)
  exact tidyLine_innerLine (trimmed line listed)

/-- Lines that are written as a block comment are read again. -/
theorem read_blockComment (proper : TextLines lines)
    (unmarked : ∀ line ∈ lines, ¬['/', '*'] <:+: line ∧ ¬['*', '/'] <:+: line) (ended : Bool) :
    ∃ group, collect (sourceText (blockLines lines) ended) = [group] ∧
      group.text = unlines lines := by
  have inside := blockBody_starredLines fun line listed =>
    isChain_unmarked (unmarked line listed).1 (unmarked line listed).2
  have start : Collector.Holds {} [] := ⟨rfl, rfl, rfl, Nat.zero_le 1⟩
  have spelled := intercalate_blockLines lines
  have measured := Piece.measure_blockComment false inside (if ended then ['\n'] else [])
  obtain ⟨next, joined, clean, read⟩ := start.feed_comment .first
    (List.intercalate ['\n'] (blockLines lines)) (if ended then ['\n'] else []) (by simp [spelled])
    (by rw [spelled, intercalate_starredLines]; rfl) (by simpa [spelled] using measured)
  obtain ⟨group, single, held⟩ :=
    (joined.feed_end clean false _ ended).exists_group (by simp)
  refine ⟨group, by rw [sourceText, collect_ofList, read, single], ?_⟩
  refine text_of_comments [[]] [[]] proper (by simp) (by simp) ?_
  have kept : Collector.kept (List.intercalate ['\n'] (blockLines lines)) =
      List.intercalate ['\n'] (blockLines lines) := by
    rw [spelled]
    rfl
  rw [held, List.nil_append, List.flatMap_singleton, kept,
    commentLines_block proper.inLine proper.trimmed]

/-! ### Any group -/

theorem trimmed_of_mem_commentLines {comment line : List Char}
    (member : line ∈ commentLines comment) : ∀ c ∈ line.getLast?, isBlank c = false := by
  have tidied : ∃ raw, line = tidyLine raw := by
    unfold commentLines at member
    split at member
    · split at member
      · cases member
      · rcases List.mem_cons.mp member with rfl | member
        · exact ⟨_, rfl⟩
        · obtain ⟨other, _, rfl⟩ := List.mem_map.mp member
          exact ⟨_, rfl⟩
    · exact ⟨_, List.mem_singleton.mp member⟩
  obtain ⟨raw, rfl⟩ := tidied
  exact getLast?_tidyLine raw

/-- The text of a group is empty or made of lines that it can be divided into again. -/
theorem textLines_of_mem_collect {source : String} {group : CommentGroup}
    (member : group ∈ collect source) :
    group.text = "" ∨ TextLines (group.text.toList.splitOn '\n') := by
  have inLine : ∀ line ∈ trimLines (group.comments.flatMap commentLines), '\n' ∉ line := by
    intro line listed
    obtain ⟨comment, held, found⟩ := List.mem_flatMap.mp ((trimLines_sublist _).mem listed)
    exact not_mem_of_mem_commentLines (inLine_of_mem_collect member held) found
  by_cases none : trimLines (group.comments.flatMap commentLines) = []
  · left
    rw [text, none]
    rfl
  · right
    rw [text, String.toList_ofList, List.splitOn_intercalate '\n' inLine none]
    refine ⟨none, inLine, fun line listed => ?_, (trimLines_ends _).1, (trimLines_ends _).2⟩
    obtain ⟨comment, _, found⟩ := List.mem_flatMap.mp ((trimLines_sublist _).mem listed)
    exact trimmed_of_mem_commentLines found

/-- Lines that are written as comments, each as a line comment of either kind or all of them in one
block, are read as one group with just these lines as its text. The text of any group, if there is
any, is made of such lines, and it is read again when they are written as doc comments. -/
theorem comment_text_read_back :
    (∀ (marked : List (LineMark × List Char)) (ended : Bool), TextLines (marked.map Prod.snd) →
      ∃ group, collect (sourceText (marked.map fun item => item.1.write item.2) ended) = [group] ∧
        group.text = unlines (marked.map Prod.snd)) ∧
    (∀ (lines : List (List Char)) (ended : Bool), TextLines lines →
      (∀ line ∈ lines, ¬['/', '*'] <:+: line ∧ ¬['*', '/'] <:+: line) →
      ∃ group, collect (sourceText (blockLines lines) ended) = [group] ∧
        group.text = unlines lines) ∧
    ∀ (source : String), ∀ group ∈ collect source, group.text = "" ∨
      TextLines (group.text.toList.splitOn '\n') ∧ ∀ ended, ∃ again,
        collect (sourceText ((group.text.toList.splitOn '\n').map LineMark.doc.write) ended) =
          [again] ∧ again.text = group.text := by
  refine ⟨fun marked ended proper => read_lineComments proper ended,
    fun lines ended proper unmarked => read_blockComment proper unmarked ended, ?_⟩
  intro source group member
  refine (textLines_of_mem_collect member).imp_right fun proper => ⟨proper, fun ended => ?_⟩
  have same : ((group.text.toList.splitOn '\n').map fun line => (LineMark.doc, line)).map Prod.snd =
      group.text.toList.splitOn '\n' := by
    rw [List.map_map]
    exact List.map_id _
  obtain ⟨again, single, read⟩ := read_lineComments (same ▸ proper) ended
  rw [List.map_map] at single
  refine ⟨again, single, ?_⟩
  rw [read, same, unlines, List.intercalate_splitOn, String.ofList_toList]

/-- Lines that begin with a slash, a blank and a star, with an empty one between them, written with
both kinds of line comments and in a block. What is read of the block is written and read again. -/
theorem comment_text_read_back_marks :
    let lines := [['/', '!'], [], [' ', '*', ' ', '*']]
    TextLines lines ∧
      (∃ group, collect "// /!\n/// \n//  * *" = [group] ∧ group.text = "/!\n\n * *") ∧
      ∃ group again, collect "/**\n * /!\n * \n *  * *\n */\n" = [group] ∧
        group.text = "/!\n\n * *" ∧ collect "/// /!\n/// \n///  * *\n" = [again] ∧
        again.text = "/!\n\n * *" := by
  intro lines
  have trimmed : ∀ line ∈ lines, ∀ c ∈ line.getLast?, isBlank c = false := by
    have bang : isBlank '!' = false := by decide
    have star : isBlank '*' = false := by decide
    simp [lines, bang, star]
  have proper : TextLines lines := ⟨by decide, by decide, trimmed, by decide, by decide⟩
  obtain ⟨asLines, asBlock, ofGroup⟩ := comment_text_read_back
  have lined :=
    asLines [(.plain, ['/', '!']), (.doc, []), (.plain, [' ', '*', ' ', '*'])] false proper
  obtain ⟨group, single, read⟩ := asBlock lines true proper (by decide)
  have shown : group.text = "/!\n\n * *" := read
  obtain ⟨again, only, same⟩ := ((ofGroup _ group (by rw [single]; simp)).resolve_left
    (by rw [shown]; decide)).2 true
  rw [shown] at only same
  refine ⟨proper, lined, group, again, single, shown, ?_, same⟩
  have divided : "/!\n\n * *".toList.splitOn '\n' = lines := by decide +kernel
  rw [divided] at only
  exact only

end CommentGroup

end StructInventory
