import Mathlib.Data.List.DropRight
import Mathlib.Data.List.SplitBy
import StructInventory.Comment.Group
import StructInventory.Proofs.LexicalElement

/-!
The comment groups of a text that is put together from lexical elements. They hold exactly the
comments among the elements, whatever the literals between them look like, and two comments share a
group just when no other element and at most one line feed stands between them.
-/

namespace StructInventory

open Text

namespace LexicalElement

def isComment : LexicalElement → Bool
  | lineComment _ _ | blockComment _ _ => true
  | _ => false

def isLineComment : LexicalElement → Bool
  | lineComment _ _ => true
  | _ => false

/-- A comment that does not document what it stands in. -/
def isKept (element : LexicalElement) : Bool :=
  element.isComment && !(['/', '/', '!'].isPrefixOf element.chars) &&
    !(['/', '*', '!'].isPrefixOf element.chars)

/-- What a group holds of a comment. Carriage returns at the end of a line are no part of it. -/
def content : LexicalElement → List Char
  | lineComment body _ => '/' :: '/' :: body.rdropWhile (· = '\r')
  | element => element.chars

theorem chars_ne_nil (element : LexicalElement) : element.chars ≠ [] := by
  cases element with
  | word _ some _ => exact some
  | _ => simp [chars]

end LexicalElement

/-- Elements with the blanks behind each. There is at least one; a line comment has a line feed
behind it or is the end of the text. -/
inductive Separated : List (LexicalElement × List Char) → Prop where
  | nil : Separated []
  | last (body : List Char) (inLine : '\n' ∉ body) : Separated [(.lineComment body inLine, [])]
  | more {element : LexicalElement} {gap : List Char} {rest : List (LexicalElement × List Char)}
      (blank : ∀ c ∈ gap, isBlank c = true) (some : gap ≠ [])
      (line : element.isLineComment = true → gap.head? = .some '\n') (after : Separated rest) :
      Separated ((element, gap) :: rest)

/-- The text of elements and the blanks behind them. -/
def spell (elements : List (LexicalElement × List Char)) : List Char :=
  elements.flatMap fun item => item.1.chars ++ item.2

@[simp] theorem spell_nil : spell [] = [] := rfl

theorem spell_cons (element : LexicalElement) (gap : List Char)
    (rest : List (LexicalElement × List Char)) :
    spell ((element, gap) :: rest) = element.chars ++ (gap ++ spell rest) := by
  simp [spell]

/-- An element where it stands: its number and position, and the blanks behind it. -/
structure Standing where
  index : Nat
  start : Pos
  element : LexicalElement
  gap : List Char

namespace Standing

/-- The elements of a text that begins at `pos`, numbered from `index`. -/
def ofElements : Nat → Pos → List (LexicalElement × List Char) → List Standing
  | _, _, [] => []
  | index, pos, (element, gap) :: rest =>
    ⟨index, pos, element, gap⟩ :: ofElements (index + 1) (pos.past (element.chars ++ gap)) rest

/-- The comments that belong to groups. -/
def comments (index : Nat) (pos : Pos) (elements : List (LexicalElement × List Char)) :
    List Standing :=
  (ofElements index pos elements).filter fun standing => standing.element.isKept

@[simp] theorem comments_nil (index : Nat) (pos : Pos) : comments index pos [] = [] := rfl

theorem append_comments_cons (done : List Standing) (index : Nat) (pos : Pos)
    (element : LexicalElement) (gap : List Char) (rest : List (LexicalElement × List Char)) :
    done ++ comments index pos ((element, gap) :: rest) =
      (if element.isKept then done ++ [⟨index, pos, element, gap⟩] else done) ++
        comments (index + 1) (pos.past (element.chars ++ gap)) rest := by
  rw [comments, ofElements, List.filter_cons]
  split
  · rw [List.append_assoc]
    rfl
  · rfl

def stop (standing : Standing) : Pos := standing.start.past standing.element.chars

/-- No other element and at most one line feed stands between two comments. -/
def joined (standing next : Standing) : Bool :=
  next.index = standing.index + 1 && standing.gap.count '\n' ≤ 1

end Standing

/-- The group of comments that follow one another. -/
def CommentGroup.ofRun (run : List Standing) : CommentGroup where
  start := (run.head?.map Standing.start).getD .first
  stop := (run.getLast?.map Standing.stop).getD .first
  comments := run.map fun standing => standing.element.content

/-! ### Pieces in turn -/

theorem Pos.past_append (pos : Pos) (chars chars' : List Char) :
    pos.past (chars ++ chars') = (pos.past chars).past chars' :=
  List.foldl_append

/-- More fuel than a text has characters makes no difference. -/
theorem Placed.scan_of_le (fuel : Nat) (inWord : Bool) (pos : Pos) (text : List Char)
    (enough : text.length ≤ fuel) :
    scan fuel inWord pos text = scan text.length inWord pos text := by
  induction fuel using Nat.strongRecOn generalizing inWord pos text with
  | _ fuel ih =>
    cases text with
    | nil => cases fuel <;> rfl
    | cons c rest =>
      obtain ⟨fuel, rfl⟩ : ∃ less, fuel = less + 1 := ⟨fuel - 1, by simp at enough; omega⟩
      have progress := Piece.measure_pos inWord (List.cons_ne_nil c rest)
      have shorter : ((c :: rest).drop (Piece.measure inWord (c :: rest)).2).length ≤
          rest.length := by
        rw [List.length_drop, List.length_cons]
        omega
      simp only [List.length_cons, Nat.add_le_add_iff_right] at enough
      rw [List.length_cons, scan, scan]
      dsimp only
      -- Every piece takes a character, so the rest is short enough for either fuel.
      rw [ih fuel (by omega) _ _ _ (Nat.le_trans shorter enough),
        ih rest.length (by omega) _ _ _ shorter]

namespace CommentGroup.Collector

/-- What a collector has gathered when it has read a text that begins at `pos`. -/
def feed (collector : Collector) (inWord : Bool) (pos : Pos) (text : List Char) : Collector :=
  (Placed.scan text.length inWord pos text).foldl add collector

theorem feed_append (collector : Collector) {inWord : Bool} (pos : Pos) {piece : Piece}
    (chars after : List Char) (some : chars ≠ [])
    (measured : Piece.measure inWord (chars ++ after) = (piece, chars.length)) :
    collector.feed inWord pos (chars ++ after) =
      (collector.add ⟨piece, chars, pos, pos.past chars⟩).feed piece.endsInWord (pos.past chars)
        after := by
  obtain ⟨c, chars, rfl⟩ := List.exists_cons_of_ne_nil some
  have enough : after.length ≤ (chars ++ after).length := by
    rw [List.length_append]
    omega
  rw [feed, feed, ← Placed.scan_of_le _ _ _ after enough, List.cons_append, List.length_cons,
    Placed.scan, ← List.cons_append, measured]
  simp only [List.take_left, List.drop_left, List.foldl_cons]

theorem feed_cons (collector : Collector) {inWord : Bool} (pos : Pos) {piece : Piece}
    {c : Char} {after : List Char} (measured : Piece.measure inWord (c :: after) = (piece, 1)) :
    collector.feed inWord pos (c :: after) =
      (collector.add ⟨piece, [c], pos, pos.next c⟩).feed piece.endsInWord (pos.next c) after :=
  feed_append collector pos [c] after (List.cons_ne_nil c []) measured

/-- Blanks count only by their line feeds. -/
def passBlanks (collector : Collector) (gap : List Char) : Collector :=
  { collector with lineFeeds := collector.lineFeeds + gap.count '\n' }

theorem feed_blank (collector : Collector) (inWord : Bool) (pos : Pos) {c : Char}
    (after : List Char) (blank : isBlank c = true) :
    collector.feed inWord pos (c :: after) =
      (collector.passBlanks [c]).feed false (pos.next c) after := by
  by_cases line : c = '\n'
  · subst line
    have measured : Piece.measure inWord ('\n' :: after) = (.lineFeed, 1) := by
      simp [Piece.measure]
    exact feed_cons collector pos measured
  · have uncounted : collector.passBlanks [c] = collector := by
      simp [passBlanks, line]
    rw [feed_cons collector pos (Piece.measure_blank inWord after blank line), uncounted]
    rfl

theorem feed_blanks (collector : Collector) (inWord : Bool) (pos : Pos) {gap : List Char}
    (after : List Char) (some : gap ≠ []) (blank : ∀ c ∈ gap, isBlank c = true) :
    collector.feed inWord pos (gap ++ after) =
      (collector.passBlanks gap).feed false (pos.past gap) after := by
  induction gap generalizing collector inWord pos with
  | nil => exact absurd rfl some
  | cons c gap ih =>
    obtain ⟨first, others⟩ := List.forall_mem_cons.mp blank
    rw [List.cons_append, feed_blank collector inWord pos _ first]
    by_cases further : gap = []
    · subst further
      rfl
    · have counted : (collector.passBlanks [c]).passBlanks gap =
          collector.passBlanks (c :: gap) := by
        simp [passBlanks, List.count_cons, Nat.add_comm, Nat.add_left_comm]
      rw [ih (collector.passBlanks [c]) false (pos.next c) further others, counted]
      rfl

/-- A word is code. -/
theorem feed_word (collector : Collector) (inWord : Bool) (pos : Pos) {chars after : List Char}
    (some : chars ≠ []) (spelled : ∀ c ∈ chars, isWordChar c = true)
    (bounded : Piece.Bounded after) :
    collector.feed inWord pos (chars ++ after) =
      feed { collector with code := true } true (pos.past chars) after := by
  induction chars generalizing collector inWord pos with
  | nil => exact absurd rfl some
  | cons c chars ih =>
    obtain ⟨first, others⟩ := List.forall_mem_cons.mp spelled
    have step := feed_cons collector pos (Piece.measure_word inWord first others bounded)
    by_cases further : chars = []
    · subst further
      exact step
    · exact step.trans (ih _ true (pos.next c) further others)

/-- What an element does to a collector. -/
def addElement (collector : Collector) (element : LexicalElement) (pos : Pos) : Collector :=
  if element.isKept then
    collector.addComment ⟨.comment, element.chars, pos, pos.past element.chars⟩
  else { collector with code := true }

theorem feed_code (collector : Collector) {element : LexicalElement} (pos : Pos) {word : Bool}
    {after : List Char} (code : element.isComment = false)
    (measured : Piece.measure false (element.chars ++ after) =
      (.code word, element.chars.length)) :
    collector.feed false pos (element.chars ++ after) =
      (collector.addElement element pos).feed word (pos.past element.chars) after := by
  have dropped : element.isKept = false := by
    simp [LexicalElement.isKept, code]
  rw [feed_append collector pos _ after element.chars_ne_nil measured]
  simp only [addElement, dropped]
  rfl

theorem isInner_eq_not_isKept {element : LexicalElement} (comment : element.isComment = true) :
    isInner element.chars = !element.isKept := by
  have third : ∀ c : Char, ('!' == c) = decide (c = '!') := by
    intro c
    rw [BEq.comm, beq_eq_decide]
  cases element with
  | lineComment body _ =>
    cases body with
    | nil => rfl
    | cons _ _ =>
      simp [isInner, LexicalElement.isKept, LexicalElement.isComment, LexicalElement.chars,
        List.isPrefixOf, third]
  | blockComment body _ =>
    cases body with
    | nil => rfl
    | cons _ _ =>
      simp [isInner, LexicalElement.isKept, LexicalElement.isComment, LexicalElement.chars,
        List.isPrefixOf, third]
  | _ => cases comment

theorem feed_comment (collector : Collector) {element : LexicalElement} (pos : Pos)
    {after : List Char} (comment : element.isComment = true)
    (measured : Piece.measure false (element.chars ++ after) =
      (.comment, element.chars.length)) :
    collector.feed false pos (element.chars ++ after) =
      (collector.addElement element pos).feed false (pos.past element.chars) after := by
  have inner := isInner_eq_not_isKept comment
  rw [feed_append collector pos _ after element.chars_ne_nil measured]
  simp only [add, addElement, inner]
  cases element.isKept <;> rfl

theorem feed_element (collector : Collector) (element : LexicalElement) (pos : Pos)
    (after : List Char) (bounded : Piece.Bounded after)
    (line : element.isLineComment = true → ∀ c ∈ after.head?, c = '\n') :
    ∃ inWord, collector.feed false pos (element.chars ++ after) =
      (collector.addElement element pos).feed inWord (pos.past element.chars) after := by
  cases element with
  | word chars some spelled =>
    exact ⟨true, feed_word collector false pos some spelled bounded⟩
  | mark c visible unspelled unquoted =>
    exact ⟨false, feed_code collector pos rfl
      (Piece.measure_mark false visible unspelled unquoted bounded)⟩
  | string letter body inside =>
    obtain ⟨word, measured⟩ := Piece.measure_string letter inside after
    refine ⟨word, feed_code collector pos rfl ?_⟩
    simpa [LexicalElement.chars, Nat.add_assoc] using measured
  | rawString letter hashes body inside =>
    have measured := Piece.measure_rawString letter hashes inside after
    refine ⟨true, feed_code collector pos rfl ?_⟩
    rw [show (LexicalElement.rawString letter hashes body inside).chars.length =
      letter.chars.length + body.length + 2 * hashes + 3 by simp [LexicalElement.chars]; omega]
    simpa [LexicalElement.chars] using measured
  | char byte body inside =>
    obtain ⟨word, measured⟩ := Piece.measure_char byte inside after
    refine ⟨word, feed_code collector pos rfl ?_⟩
    cases byte <;> simpa [LexicalElement.chars, Nat.add_comm, Nat.add_left_comm] using measured
  | lifetime name some spelled =>
    -- The quote of a lifetime is a piece by itself; its name is then read like any word.
    have quote := feed_cons collector pos (Piece.measure_lifetime false some spelled bounded)
    exact ⟨true, quote.trans (feed_word _ false _ some spelled bounded)⟩
  | lineComment body inLine =>
    exact ⟨false, feed_comment collector pos rfl
      (Piece.measure_lineComment false inLine after (line rfl))⟩
  | blockComment body inside =>
    exact ⟨false, feed_comment collector pos rfl
      (Piece.measure_blockComment false inside after)⟩

end CommentGroup.Collector

/-! ### Runs of comments -/

/-- An item that goes with the one before it is added to the last run. -/
private theorem splitBy_concat {α : Type} {r : α → α → Bool} {items run : List α}
    {runs : List (List α)} {last item : α} (split : items.splitBy r = runs ++ [run])
    (isLast : items.getLast? = some last) (joins : r last item = true) :
    (items ++ [item]).splitBy r = runs ++ [run ++ [item]] := by
  obtain ⟨rfl, filled, within, between⟩ := List.splitBy_eq_iff.mp split
  have someRun : run ≠ [] := List.ne_nil_of_mem_splitBy (split ▸ List.mem_append_right runs
    List.mem_cons_self)
  rw [List.flatten_append, List.flatten_singleton,
    List.getLast?_append_of_ne_nil _ someRun] at isLast
  obtain ⟨runsApart, _, apart⟩ := List.isChain_append.mp between
  refine List.splitBy_eq_iff.mpr ⟨by simp, ?_, ?_, ?_⟩
  · simpa using fun empty => filled (by simp [empty])
  · -- The last run stays a chain, since the item goes with its last member.
    intro part member
    rcases List.mem_append.mp member with earlier | final
    · exact within part (List.mem_append_left _ earlier)
    · rw [List.mem_singleton.mp final]
      refine List.isChain_append.mpr ⟨within run (by simp), List.isChain_singleton item, ?_⟩
      rintro before isBefore _ ⟨⟩
      obtain rfl : last = before := Option.some.inj (isLast.symm.trans isBefore)
      exact joins
  · -- The last run begins as before, so it stays apart from the one before it.
    refine List.isChain_append.mpr ⟨runsApart, List.isChain_singleton _, ?_⟩
    rintro before isBefore _ ⟨⟩
    obtain ⟨someBefore, _, differ⟩ := apart before isBefore run rfl
    exact ⟨someBefore, by simp, by rwa [List.head_append_of_ne_nil someRun]⟩

namespace CommentGroup

theorem ofRun_concat {run : List Standing} (some : run ≠ []) (standing : Standing) :
    ofRun (run ++ [standing]) =
      { ofRun run with
        stop := standing.stop
        comments := (ofRun run).comments ++ [standing.element.content] } := by
  simp only [ofRun, List.getLast?_concat, List.head?_append_of_ne_nil run some, List.map_append]
  rfl

theorem kept_chars {element : LexicalElement} (comment : element.isComment = true) :
    Collector.kept element.chars = element.content := by
  cases element with
  | lineComment body _ =>
    have ends : ((body.reverse ++ ['/', '/']).dropWhile (· = '\r')) =
        body.reverse.dropWhile (· = '\r') ++ ['/', '/'] := by
      rw [List.dropWhile_append]
      split
      · next empty => simp [List.isEmpty_iff.mp empty]
      · rfl
    simp [Collector.kept, LexicalElement.chars, LexicalElement.content, List.rdropWhile, ends]
  | blockComment _ _ => rfl
  | _ => cases comment

namespace Collector

/-- What a collector knows behind the elements numbered below `next`, of which `done` are the
comments that belong to groups. -/
structure Gathered (collector : Collector) (done : List Standing) (next : Nat) : Prop where
  runs : (done = [] ∧ collector.current = none ∧ collector.closed = []) ∨
    ∃ runs run, done.splitBy Standing.joined = runs ++ [run] ∧
      collector.closed.reverse = runs.map ofRun ∧ collector.current = some (ofRun run)
  between : ∀ last, done.getLast? = some last → last.index < next ∧
    (collector.code = false ↔ next = last.index + 1) ∧
    (collector.code = false → collector.lineFeeds = last.gap.count '\n')

theorem Gathered.groups_eq {collector : Collector} {done : List Standing} {next : Nat}
    (gathered : collector.Gathered done next) :
    collector.groups = (done.splitBy Standing.joined).map ofRun := by
  rcases gathered.runs with ⟨rfl, open_, closed⟩ | ⟨runs, run, split, closed, open_⟩
  · simp [groups, open_, closed]
  · simp [groups, open_, split, closed]

/-- A comment joins the group before it just when the collector lets it. -/
theorem Gathered.joined_eq {collector : Collector} {done : List Standing} {next : Nat}
    (gathered : collector.Gathered done next) {last : Standing}
    (isLast : done.getLast? = some last) (pos : Pos) (element : LexicalElement)
    (gap : List Char) :
    last.joined ⟨next, pos, element, gap⟩ =
      (!collector.code && decide (collector.lineFeeds ≤ 1)) := by
  obtain ⟨_, clean, feeds⟩ := gathered.between last isLast
  unfold Standing.joined
  cases code : collector.code with
  | false => simp [clean.mp code, feeds code]
  | true =>
    have apart : next ≠ last.index + 1 := fun same => by simp [clean.mpr same] at code
    simp [apart]

theorem addComment_clean (collector : Collector) (placed : Placed) :
    (collector.addComment placed).code = false ∧ (collector.addComment placed).lineFeeds = 0 := by
  unfold addComment
  split
  · split <;> exact ⟨rfl, rfl⟩
  · exact ⟨rfl, rfl⟩

/-- A comment begins a group or joins the last one. -/
theorem Gathered.runs_addComment {collector : Collector} {done : List Standing} {next : Nat}
    (gathered : collector.Gathered done next) {element : LexicalElement} (pos : Pos)
    (gap : List Char) (comment : element.isComment = true) :
    ∃ runs run,
      (done ++ [Standing.mk next pos element gap]).splitBy Standing.joined = runs ++ [run] ∧
      (collector.addComment ⟨.comment, element.chars, pos, pos.past element.chars⟩).closed.reverse =
        runs.map ofRun ∧
      (collector.addComment ⟨.comment, element.chars, pos, pos.past element.chars⟩).current =
        some (ofRun run) := by
  have fresh : (⟨pos, pos.past element.chars, [kept element.chars]⟩ : CommentGroup) =
      ofRun [⟨next, pos, element, gap⟩] := by
    rw [kept_chars comment]
    rfl
  rcases gathered.runs with ⟨rfl, current, closed⟩ | ⟨runs, run, split, closed, current⟩
  · refine ⟨[], [⟨next, pos, element, gap⟩], rfl, ?_, ?_⟩
    · simp [addComment, current, closed]
    · simp [addComment, current, fresh]
  · have someRun : run ≠ [] := List.ne_nil_of_mem_splitBy (split ▸ List.mem_append_right runs
      List.mem_cons_self)
    obtain ⟨last, isLast⟩ : ∃ last, done.getLast? = some last := by
      cases found : done.getLast? with
      | none =>
        rw [List.getLast?_eq_none_iff] at found
        simp [found] at split
      | some last => exact ⟨last, rfl⟩
    -- The collector's test decides whether the comment belongs to the run before it.
    have joins := gathered.joined_eq isLast pos element gap
    cases may : (!collector.code && decide (collector.lineFeeds ≤ 1)) with
    | true =>
      refine ⟨runs, run ++ [⟨next, pos, element, gap⟩],
        splitBy_concat split isLast (joins.trans may), ?_, ?_⟩
      · simp only [addComment, current, may, if_true, closed]
      · simp only [addComment, current, may, if_true, ofRun_concat someRun, kept_chars comment]
        rfl
    | false =>
      refine ⟨runs ++ [run], [⟨next, pos, element, gap⟩], ?_, ?_, ?_⟩
      · rw [List.splitBy_append, split]
        · rfl
        · rintro before isBefore _ ⟨⟩
          obtain rfl : last = before := Option.some.inj (isLast.symm.trans isBefore)
          exact joins.trans may
      · simp [addComment, current, may, closed]
      · simp [addComment, current, may, fresh]

/-- One element more: a comment is gathered, and anything else is code. -/
theorem Gathered.addElement {collector : Collector} {done : List Standing} {next : Nat}
    (gathered : collector.Gathered done next) (element : LexicalElement) (pos : Pos)
    (gap : List Char) :
    Gathered ((collector.addElement element pos).passBlanks gap)
      (if element.isKept then done ++ [⟨next, pos, element, gap⟩] else done) (next + 1) := by
  cases keep : element.isKept with
  | false =>
    -- The comments stay as they are, and the last of them is no longer next to what follows.
    have code : collector.addElement element pos = { collector with code := true } := by
      simp [Collector.addElement, keep]
    rw [code]
    refine ⟨gathered.runs, fun last isLast => ?_⟩
    have before := (gathered.between last isLast).1
    refine ⟨by omega, ⟨fun clean => ?_, fun same => ?_⟩, fun clean => ?_⟩
    · cases clean
    · omega
    · cases clean
  | true =>
    have comment : element.isComment = true := by
      simp only [LexicalElement.isKept, Bool.and_eq_true] at keep
      exact keep.1.1
    have added : collector.addElement element pos =
        collector.addComment ⟨.comment, element.chars, pos, pos.past element.chars⟩ := by
      simp [Collector.addElement, keep]
    rw [added]
    refine ⟨Or.inr (gathered.runs_addComment pos gap comment), fun last isLast => ?_⟩
    -- The new comment is the last one, and nothing but its gap stands behind it.
    obtain ⟨clean, feeds⟩ := addComment_clean collector
      ⟨.comment, element.chars, pos, pos.past element.chars⟩
    obtain rfl : _ = last := by simpa using isLast
    refine ⟨Nat.lt_succ_self next, ⟨fun _ => rfl, fun _ => clean⟩, fun _ => ?_⟩
    simp [passBlanks, feeds]

/-- Reading a text of separated elements gathers the comments among them. -/
theorem Gathered.feed {elements : List (LexicalElement × List Char)}
    (separated : Separated elements) {collector : Collector} {done : List Standing} {next : Nat}
    (gathered : collector.Gathered done next) (pos : Pos) :
    (collector.feed false pos (spell elements)).groups =
      ((done ++ Standing.comments next pos elements).splitBy Standing.joined).map ofRun := by
  induction separated generalizing collector done next pos with
  | nil =>
    rw [Standing.comments_nil, List.append_nil]
    exact gathered.groups_eq
  | last body inLine =>
    obtain ⟨inWord, read⟩ := feed_element collector (.lineComment body inLine) pos []
      (by simp [Piece.Bounded]) (by simp)
    have step := (gathered.addElement (.lineComment body inLine) pos []).groups_eq
    rw [spell_cons, spell_nil, List.nil_append, read, Standing.append_comments_cons,
      Standing.comments_nil, List.append_nil, ← step]
    rfl
  | @more element gap rest blank some line _ ih =>
    -- The element is read up to its first blank, and the blanks up to the next element.
    obtain ⟨c, blanks, rfl⟩ := List.exists_cons_of_ne_nil some
    obtain ⟨inWord, read⟩ := feed_element collector element pos (c :: blanks ++ spell rest)
      (by simpa [Piece.Bounded] using blank c List.mem_cons_self)
      (by simpa using line)
    have step := gathered.addElement element pos (c :: blanks)
    rw [spell_cons, read, feed_blanks _ inWord _ _ some blank, Standing.append_comments_cons,
      Pos.past_append]
    exact ih step _

end Collector

end CommentGroup

end StructInventory
