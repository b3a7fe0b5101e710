import StructInventory.Proofs.CommentSearch
import StructInventory.Proofs.DeclarationSite
import StructInventory.Proofs.EntryPath

/-!
Doc comments and what they document. The search for comments goes by positions only; still a line
doc comment that is an attribute of a declaration is found for it, unless the comments it is grouped
with begin on a line where something else ends or a body opens.
-/

namespace StructInventory

open Text

/-! ### Lines of a group -/

/-- A comment that is in a block or has no line end in it. -/
def CommentGroup.InLine (comment : List Char) : Prop :=
  (∃ rest, comment = '/' :: '*' :: rest) ∨ '\n' ∉ comment

theorem Piece.measure_eq_comment {inWord : Bool} {text : List Char} {length : Nat}
    (measured : measure inWord text = (.comment, length)) :
    (∃ rest, text = '/' :: '/' :: rest ∧ length = lineLength rest + 2) ∨
      ∃ rest, text = '/' :: '*' :: rest ∧ 2 ≤ length := by
  unfold measure at measured
  split at measured
  · cases measured
    exact .inl ⟨_, rfl, rfl⟩
  · cases measured
    exact .inr ⟨_, rfl, Nat.le_add_left 2 _⟩
  · cases measured
  · cases measured
  · cases measured
  · split at measured
    · cases measured
    · split at measured <;> cases measured
  · cases measured

namespace CommentGroup

theorem kept_sublist (comment : List Char) : (Collector.kept comment).Sublist comment := by
  unfold Collector.kept
  split
  · exact List.Sublist.refl _
  · rw [← List.reverse_sublist, List.reverse_reverse]
    exact List.dropWhile_sublist _

theorem inLine_kept {inWord : Bool} {text : List Char} {length : Nat}
    (measured : Piece.measure inWord text = (.comment, length)) :
    InLine (Collector.kept (text.take length)) := by
  rcases Piece.measure_eq_comment measured with ⟨rest, rfl, rfl⟩ | ⟨rest, rfl, long⟩
  · right
    have line : ('/' :: '/' :: rest).take (Piece.lineLength rest + 2) =
        '/' :: '/' :: rest.takeWhile (· ≠ '\n') := by
      rw [List.take_succ_cons, List.take_succ_cons, Piece.lineLength,
        ← List.prefix_iff_eq_take.mp (List.takeWhile_prefix _)]
    intro member
    have inside : '\n' ∈ rest.takeWhile (· ≠ '\n') := by
      simpa [line] using (kept_sublist _).mem member
    simpa using List.mem_takeWhile_imp inside
  · left
    obtain ⟨more, rfl⟩ := Nat.exists_eq_add_of_le' long
    exact ⟨rest.take more, rfl⟩

namespace Collector

theorem inLine_addComment {collector : Collector} {placed : Placed}
    (inLine : ∀ group ∈ collector.groups, ∀ comment ∈ group.comments, InLine comment)
    (own : InLine (kept placed.chars)) :
    ∀ group ∈ (collector.addComment placed).groups, ∀ comment ∈ group.comments, InLine comment := by
  rcases groups_addComment collector placed with ⟨fresh, _⟩ | ⟨front, last, split, joined⟩
  · rw [fresh, List.forall_mem_append]
    exact ⟨inLine, by simpa using own⟩
  · rw [split, List.forall_mem_append] at inLine
    obtain ⟨earlier, old⟩ := inLine
    rw [joined, List.forall_mem_append]
    refine ⟨earlier, ?_⟩
    simp only [List.forall_mem_singleton, List.forall_mem_append] at old ⊢
    exact ⟨old, own⟩

/-- Pieces in turn add only comments that are in a block or in a line. -/
theorem inLine_scan (fuel : Nat) (inWord : Bool) (pos : Pos) (text : List Char)
    {collector : Collector} (inLine : ∀ group ∈ collector.groups, ∀ comment ∈ group.comments,
      InLine comment) :
    ∀ group ∈ ((Placed.scan fuel inWord pos text).foldl add collector).groups,
      ∀ comment ∈ group.comments, InLine comment := by
  induction fuel generalizing inWord pos text collector with
  | zero => exact inLine
  | succ fuel ih =>
    cases text with
    | nil => exact inLine
    | cons c rest =>
      rw [Placed.scan, List.foldl_cons]
      refine ih _ _ _ ?_
      generalize measured : Piece.measure inWord (c :: rest) = found
      obtain ⟨piece, length⟩ := found
      cases piece with
      | comment =>
        unfold add
        dsimp only
        split
        · exact inLine
        · exact inLine_addComment inLine (inLine_kept measured)
      | code | lineFeed | blank => exact inLine

end Collector

theorem inLine_of_mem_collect {text : String} {group : CommentGroup} (member : group ∈ collect text)
    {comment : List Char} (held : comment ∈ group.comments) : InLine comment :=
  Collector.inLine_scan _ _ .first _ (by simp [Collector.groups]) group member comment held

/-! ### Text -/

theorem dropChar_suffix (c : Char) (text : List Char) : dropChar c text <:+ text := by
  unfold dropChar
  split
  · split
    · exact List.suffix_cons _ _
    · exact List.suffix_refl _
  · exact List.suffix_refl _

theorem tidyLine_sublist (line : List Char) : (tidyLine line).Sublist line := by
  refine List.Sublist.trans ?_ (dropChar_suffix ' ' line).sublist
  unfold tidyLine trimEnd
  rw [← List.reverse_sublist, List.reverse_reverse]
  exact List.dropWhile_sublist _

theorem innerLine_sublist (line : List Char) : (innerLine line).Sublist line :=
  (dropChar_suffix '*' _).sublist.trans (List.dropWhile_sublist _)

theorem lineBody_suffix (comment : List Char) : lineBody comment <:+ comment := by
  unfold lineBody
  split
  · exact ⟨['/', '/'], rfl⟩
  · exact ⟨['/', '/', '/'], rfl⟩
  · exact ⟨['/', '/'], rfl⟩
  · exact List.suffix_refl _

theorem not_mem_of_mem_lines {text line : List Char} (member : line ∈ lines text) : '\n' ∉ line := by
  unfold lines at member
  split at member
  · cases member
  all_goals
    rw [splitAt_eq_splitOn] at member
    exact not_mem_of_mem_splitOn member

theorem not_mem_of_mem_commentLines {comment line : List Char} (inLine : InLine comment)
    (member : line ∈ commentLines comment) : '\n' ∉ line := by
  unfold commentLines at member
  split at member
  next rest =>
    split at member
    · cases member
    next first others split =>
      rcases List.mem_cons.mp member with rfl | member
      · have clean := not_mem_of_mem_lines (split ▸ List.mem_cons_self : first ∈ lines _)
        exact fun found => clean ((tidyLine_sublist first).mem found)
      · obtain ⟨other, listed, rfl⟩ := List.mem_map.mp member
        have clean := not_mem_of_mem_lines (split ▸ List.mem_cons_of_mem _ listed : other ∈ lines _)
        exact fun found => clean (((tidyLine_sublist _).trans (innerLine_sublist other)).mem found)
  next noBlock =>
    obtain rfl := List.mem_singleton.mp member
    rcases inLine with ⟨rest, rfl⟩ | clean
    · exact absurd rfl (noBlock rest)
    · exact fun found => clean
        (((tidyLine_sublist _).trans (lineBody_suffix comment).sublist).mem found)

theorem mem_dropWhile_of_not {α : Type} {test : α → Bool} {items : List α} {item : α}
    (member : item ∈ items) (fails : test item = false) : item ∈ items.dropWhile test := by
  induction items with
  | nil => cases member
  | cons first items ih =>
    rw [List.dropWhile_cons]
    split
    next passes =>
      rcases List.mem_cons.mp member with rfl | later
      · simp [fails] at passes
      · exact ih later
    · exact member

theorem mem_trimLines {all : List (List Char)} {line : List Char} (member : line ∈ all)
    (some : line ≠ []) : line ∈ trimLines all := by
  have fails : line.isEmpty = false := by simpa using some
  rw [trimLines, List.mem_reverse]
  exact mem_dropWhile_of_not (List.mem_reverse.mpr (mem_dropWhile_of_not member fails)) fails

theorem trimLines_sublist (all : List (List Char)) : (trimLines all).Sublist all := by
  refine List.Sublist.trans ?_ (List.dropWhile_sublist List.isEmpty)
  unfold trimLines
  rw [← List.reverse_sublist, List.reverse_reverse]
  exact List.dropWhile_sublist _

theorem tidyLine_mem_commentLines {body : List Char} (doc : body.head? ≠ some '/') :
    tidyLine body ∈ commentLines ('/' :: '/' :: '/' :: body) := by
  cases body with
  | nil => simp [commentLines, lineBody]
  | cons c body =>
    have other : c ≠ '/' := fun same => doc (by rw [same]; rfl)
    simp [commentLines, lineBody, other]

/-- A line that is not empty is a line of the group's text. -/
theorem mem_splitAt_text {group : CommentGroup}
    (inLine : ∀ comment ∈ group.comments, InLine comment) {line : List Char}
    (member : line ∈ group.comments.flatMap commentLines) (some : line ≠ []) :
    line ∈ splitAt '\n' group.text.toList := by
  have kept := mem_trimLines member some
  rw [text, String.toList_ofList, splitAt_eq_splitOn,
    List.splitOn_intercalate '\n' _ (List.ne_nil_of_mem kept)]
  · exact kept
  · intro other listed
    obtain ⟨comment, held, found⟩ := List.mem_flatMap.mp ((trimLines_sublist _).mem listed)
    exact not_mem_of_mem_commentLines (inLine comment held) found

theorem tidyLine_ne_nil {line : List Char} {c : Char} (member : c ∈ line)
    (visible : isBlank c = false) : tidyLine line ≠ [] := by
  have space : c ≠ ' ' := by
    rintro rfl
    exact absurd visible (by decide)
  have kept : c ∈ dropChar ' ' line := by
    cases line with
    | nil => cases member
    | cons d line =>
      rw [dropChar]
      split
      next same =>
        rcases List.mem_cons.mp member with rfl | later
        · exact absurd same space
        · exact later
      · exact member
  refine List.ne_nil_of_mem (a := c) ?_
  rw [tidyLine, trimEnd, List.mem_reverse]
  exact mem_dropWhile_of_not (List.mem_reverse.mpr kept) visible

end CommentGroup

/-! ### Attached comments -/

/-- A line doc comment with this `body` is one of the `attributes` of what begins at `pos`. In front
of these come the tokens `front`, from the beginning of the file or the brace at `opening` on. -/
structure DocAttached (tokens : List Token) (pos : Pos) (body : List Char) (opening : Option Pos)
    (front attributes : List Token) : Prop where
  region : ∃ word stop back,
    Token.Region tokens opening (front ++ attributes ++ .word word pos stop :: back)
  list : Token.Attributes attributes
  doc : ∃ start stop, Lexeme.docTokens false body start stop <:+: attributes

/-- Where the code in front of the attributes ends. -/
def priorEnd (opening : Option Pos) (front : List Token) : Option Pos :=
  (front.getLast?.map Token.stop).or opening

/-- The last comment of a text that ends before `pos` is this one; it is the last of `group`. -/
structure NearestComment (text : String) (pos : Pos) (group : CommentGroup) (comment : List Char) :
    Prop where
  collected : ∃ earlier later, CommentGroup.collect text = earlier ++ group :: later ∧
    ∀ other ∈ later, pos < other.stop
  ends : group.stop ≤ pos
  last : group.comments.getLast? = some comment

namespace Grammar

variable {tokens front attributes : List Token} {marks : List Pos} {pos lower upper : Pos}
  {body : List Char} {opening : Option Pos}

/-- Attributes in front of a declaration are among those that were read with it. -/
theorem exists_append_of_attached {opening' : Option Pos} {early attributes' : List Token}
    (laid : Token.Laid lower tokens upper)
    (attached : DocAttached tokens pos body opening front attributes)
    (stands : Stands tokens marks pos opening' early attributes') :
    opening' = opening ∧ ∃ more, front = early ++ more ∧ attributes' = more ++ attributes := by
  obtain ⟨word, stop, back, region⟩ := attached.region
  obtain ⟨word', stop', back', region'⟩ := stands.region
  obtain ⟨rfl, same⟩ := region'.unique laid region
  refine ⟨rfl, ?_⟩
  rcases List.append_eq_append_iff.mp same with ⟨more, rfl, rfl⟩ | ⟨more, rfl, rfl⟩
  · exact ⟨more, rfl, rfl⟩
  · -- What was read before the declaration would end in one of its attributes.
    by_cases none : more = []
    · subst none
      exact ⟨[], by simp, by simp⟩
    · have ends := (attached.list.of_append stands.list).endsAttribute none
      exact absurd (ends.behind _) stands.closed.not_endsAttribute

theorem isWhole_of_getLast? {early more : List Token} {last : Token} (closed : Token.Closed early)
    (list : Token.Attributes more) (isLast : (early ++ more).getLast? = some last) :
    last.isWhole = true := by
  by_cases none : more = []
  · subst none
    rw [List.append_nil] at isLast
    exact closed.isWhole isLast
  · obtain ⟨front, joint, start, stop, inside, opening, closing, finish, rfl⟩ := list.endsAttribute none
    rw [List.append_cons, ← List.append_assoc, List.getLast?_concat] at isLast
    cases isLast
    rfl

/-- All that was noted before a declaration lies no later than where the code in front of its
attributes ends. -/
theorem exists_prior_le (laid : Token.Laid lower tokens upper)
    (attached : DocAttached tokens pos body opening front attributes)
    (plain : ∀ token ∈ attributes, token.settingEdges = [])
    {opening' : Option Pos} {early attributes' : List Token}
    (stands : Stands tokens marks pos opening' early attributes') {mark : Pos} (noted : mark ∈ marks)
    (before : mark < pos) : ∃ prior ∈ priorEnd opening front, mark ≤ prior := by
  obtain ⟨rfl, more, rfl, rfl⟩ := exists_append_of_attached laid attached stands
  obtain ⟨word, stop, back, region⟩ := attached.region
  obtain ⟨lower', upper', within, above⟩ := region.laid laid
  rw [List.append_assoc] at within
  -- The edges of the tokens in front of the attributes lie before the last of these tokens ends.
  have bounded : mark ∈ Token.edgesOf (early ++ more) →
      ∃ prior ∈ priorEnd opening' (early ++ more), mark ≤ prior := by
    intro edge
    rcases List.eq_nil_or_concat (early ++ more) with none | ⟨init, last, split⟩
    · rw [none] at edge
      cases edge
    · rw [List.concat_eq_append] at split
      have whole := isWhole_of_getLast? stands.closed (stands.list.of_append attached.list)
        (by rw [split, List.getLast?_concat])
      rw [split] at edge within ⊢
      rw [List.append_assoc, List.singleton_append] at within
      exact ⟨last.stop, by simp [priorEnd], ((within.cut whole).1.edges edge).2⟩
  rcases stands.marks mark noted with ⟨start, opens, below⟩ | edge | ⟨token, member, setting⟩ | later
  · -- Noted before the braces were entered.
    rcases List.eq_nil_or_concat (early ++ more) with none | ⟨init, last, split⟩
    · rw [none]
      exact ⟨start, by simpa [priorEnd] using opens, below⟩
    · rw [split, List.concat_eq_append] at within ⊢
      have behind : lower' ≤ last.stop := by
        refine (within.edges (Token.edges_subset_edgesOf ?_ last.stop_mem_edges)).1
        simp
      exact ⟨last.stop, by simp [priorEnd], le_trans below (le_trans (above start opens) behind)⟩
  · exact bounded (by simp [Token.edgesOf_append, edge])
  · rcases List.mem_append.mp member with member | member
    · have edge := Token.edges_subset_edgesOf member (token.settingEdges_subset setting)
      exact bounded (by simp [Token.edgesOf_append, edge])
    · rw [plain token member] at setting
      cases setting
  · exact absurd (lt_of_lt_of_le before later) (lt_irrefl _)

end Grammar

namespace FileScan

open CommentGroup

theorem commentFor_eq_some {scan : FileScan} {pos : Pos} {earlier later : List CommentGroup}
    {group : CommentGroup} (split : scan.comments = earlier ++ group :: later)
    (found : search scan.comments scan.boundaries pos = some earlier.length) :
    scan.commentFor pos = some group.text := by
  rw [commentFor, found, split]
  simp

theorem commentFor_eq_none {scan : FileScan} {pos : Pos}
    (missed : ∀ index, search scan.comments scan.boundaries pos ≠ some index) :
    scan.commentFor pos = none := by
  rw [commentFor, Option.eq_none_iff_forall_ne_some.mpr missed]
  rfl

/-- A line doc comment that is an attribute of a declaration, and the last comment before it, is
found for it, unless the group of the comment begins on a line where something else ends or a body
opens. Then no comment is found. -/
theorem commentFor_of_attached {text : String} {file : SourceFile} {tokens : List Token}
    {found : Declaration} {group : CommentGroup} {body : List Char} {opening : Option Pos}
    {front attributes : List Token} (done : SourceFile.read text = .ok file)
    (lexed : Token.lex (SourceFile.body text) = .ok tokens) (declared : found ∈ file.declarations)
    (named : ¬found.IsTupleField)
    (attached : DocAttached tokens found.pos body opening front attributes)
    (plain : ∀ token ∈ attributes, token.settingEdges = [])
    (nearest : NearestComment text found.pos group ('/' :: '/' :: '/' :: body))
    (doc : body.head? ≠ some '/') (visible : ∃ c ∈ body, isBlank c = false)
    (behind : ∀ prior ∈ priorEnd opening front, prior ≤ group.start) :
    if ∃ boundary ∈ file.boundaries, boundary < found.pos ∧ boundary.line = group.start.line then
      (ofFile text file).commentFor found.pos = none
    else ∃ comment, (ofFile text file).commentFor found.pos = some comment ∧
      tidyLine body ∈ splitAt '\n' comment.toList := by
  obtain ⟨lower, upper, laid⟩ := Token.laid_of_lex lexed
  obtain ⟨opening', early, attributes', stands⟩ :=
    SourceFile.exists_stands done lexed declared named
  obtain ⟨earlier, later, split, after⟩ := nearest.collected
  obtain ⟨limit, ordered⟩ := collect_ordered text
  rw [split] at ordered
  -- The group is the last that ends before the declaration, so the search is for it or for none.
  have search_iff : ∀ index, search (collect text) file.boundaries found.pos = some index ↔
      earlier.length = index ∧ Clear file.boundaries found.pos group.start.line := by
    intro index
    rw [split]
    exact search_append (SourceFile.boundaries_sorted done) (ordered.before_of_ends nearest.ends)
      nearest.ends after
  split_ifs with same
  · obtain ⟨boundary, member, early, level⟩ := same
    refine commentFor_eq_none fun index hit => ?_
    have := ((search_iff index).mp hit).2 boundary member early
    omega
  · -- All boundaries lie in front of the group; those on its first line are excluded.
    have clear : Clear file.boundaries found.pos group.start.line := by
      intro boundary member early
      obtain ⟨prior, ends, below⟩ := Grammar.exists_prior_le laid attached plain stands member early
      have level : boundary.line ≠ group.start.line := fun level =>
        same ⟨boundary, member, early, level⟩
      have := Pos.le_iff.mp (le_trans below (behind prior ends))
      omega
    refine ⟨group.text, commentFor_eq_some split ((search_iff _).mpr ⟨rfl, clear⟩), ?_⟩
    obtain ⟨c, inside, shown⟩ := visible
    have member : group ∈ collect text := by simp [split]
    refine mem_splitAt_text (fun comment held => inLine_of_mem_collect member held) ?_
      (tidyLine_ne_nil inside shown)
    exact List.mem_flatMap.mpr ⟨_, List.mem_of_getLast? nearest.last,
      tidyLine_mem_commentLines doc⟩

/-- The comment is found across another attribute, behind a struct that ends a line before it. -/
theorem struct_doc_comment_found :
    ∃ file, SourceFile.read "struct A;\n/// doc\n#[x]\nstruct B;" = .ok file ∧
      ∃ comment, (ofFile "struct A;\n/// doc\n#[x]\nstruct B;" file).commentFor ⟨4, 0⟩ = some comment ∧
        tidyLine " doc".toList ∈ splitAt '\n' comment.toList := by
  obtain ⟨file, done, view⟩ := SourceFile.exists_read
    (show (SourceFile.read "struct A;\n/// doc\n#[x]\nstruct B;").toOption.map
      (fun file => (file.declarations.map fun found => (found.pos, decide found.IsTupleField),
        file.boundaries)) =
      some ([(⟨1, 0⟩, false), (⟨4, 0⟩, false)], [⟨1, 9⟩, ⟨4, 9⟩]) by decide +kernel)
  obtain ⟨positions, boundaries⟩ := Prod.mk.inj view
  have listed : ((⟨4, 0⟩, false) : Pos × Bool) ∈ file.declarations.map fun found =>
      (found.pos, decide found.IsTupleField) := by simp [positions]
  obtain ⟨found, declared, known⟩ := List.mem_map.mp listed
  obtain ⟨pos, named⟩ := Prod.mk.inj known
  have attached : DocAttached _ found.pos " doc".toList none
      [.word ⟨false, "struct", by decide, by decide⟩ ⟨1, 0⟩ ⟨1, 6⟩,
        .word ⟨false, "A", by decide, by decide⟩ ⟨1, 7⟩ ⟨1, 8⟩, .punct ';' false ⟨1, 8⟩ ⟨1, 9⟩]
      (Lexeme.docTokens false " doc".toList ⟨2, 0⟩ ⟨2, 7⟩ ++
        [.punct '#' false ⟨3, 0⟩ ⟨3, 1⟩,
          .group .bracket [.word ⟨false, "x", by decide, by decide⟩ ⟨3, 2⟩ ⟨3, 3⟩]
            ⟨3, 1⟩ ⟨3, 3⟩ ⟨3, 4⟩]) :=
    { region := ⟨⟨false, "struct", by decide, by decide⟩, ⟨4, 6⟩,
        [.word ⟨false, "B", by decide, by decide⟩ ⟨4, 7⟩ ⟨4, 8⟩, .punct ';' false ⟨4, 8⟩ ⟨4, 9⟩], .file⟩
      list := .cons (.cons .nil)
      doc := ⟨⟨2, 0⟩, ⟨2, 7⟩, List.infix_append [] _ _⟩ }
  have nearest : NearestComment "struct A;\n/// doc\n#[x]\nstruct B;" found.pos
      ⟨⟨2, 0⟩, ⟨2, 7⟩, ["/// doc".toList]⟩ "/// doc".toList :=
    { collected := ⟨[], [], rfl, by simp⟩
      ends := by rw [pos]; decide
      last := rfl }
  have reached := commentFor_of_attached done (by rw [pos]; rfl) declared (of_decide_eq_false named)
    attached (by decide) nearest (by decide) ⟨'d', by decide, by decide⟩ (by decide)
  rw [pos, boundaries, if_neg (by decide)] at reached
  exact ⟨file, done, reached⟩

/-- A comment at the end of the line above takes the doc comment into its group, and with it away
from the struct `B`. -/
theorem trailing_comment_hides_doc :
    (SourceFile.read "struct A; // trailing\n/// doc\nstruct B;").toOption.map (fun file =>
      file.declarations.map fun found => (found.pos,
        (ofFile "struct A; // trailing\n/// doc\nstruct B;" file).commentFor found.pos)) =
      some [(⟨1, 0⟩, none), (⟨3, 0⟩, none)] := by
  decide +kernel

end FileScan

end StructInventory
