import StructInventory.Proofs.AttributeRun
import StructInventory.Proofs.DeclarationRun

/-!
What is noted around a declaration. A struct stands among the tokens of its file, a field or method
inside a pair of braces among those. Positions noted before it belong to the tokens in front of its
attributes, and those noted later lie behind the place where it begins; so between its attributes
nothing is noted, unless in the value of an attribute.
-/

namespace StructInventory

namespace Token

/-- The tokens of a file, or what stands in braces among them; the braces begin at `opening`. -/
inductive Region (tokens : List Token) : Option Pos → List Token → Prop where
  | file : Region tokens none tokens
  | body {front back inside : List Token} {start closing stop : Pos}
      (split : tokens = front ++ .group .brace inside start closing stop :: back) :
      Region tokens (some start) inside

theorem Region.laid {tokens inside : List Token} {opening : Option Pos} {lower upper : Pos}
    (region : Region tokens opening inside) (laid : Laid lower tokens upper) :
    ∃ lower' upper', Laid lower' inside upper' ∧ ∀ start ∈ opening, start ≤ lower' := by
  cases region with
  | file => exact ⟨lower, upper, laid, by simp⟩
  | @body _ _ _ start closing _ split =>
    rw [split] at laid
    obtain ⟨within, -⟩ := (laid.split rfl).2.group_inside
    refine ⟨_, closing, within, ?_⟩
    rintro _ ⟨⟩
    exact le_of_lt start.lt_succ

/-- The token of the file that a word of some region is, or in which it stands. -/
theorem Region.exists_across {tokens front back : List Token} {opening : Option Pos} {word : Word}
    {pos stop lower upper : Pos} (laid : Laid lower tokens upper)
    (region : Region tokens opening (front ++ .word word pos stop :: back)) :
    ∃ early token late, tokens = early ++ token :: late ∧ token.isApart = true ∧
      token.start ≤ pos ∧ pos < token.stop ∧
      (opening = none ∧ token = .word word pos stop ∧ early = front ∨
        ∃ start closing stop', opening = some start ∧
          token = .group .brace (front ++ .word word pos stop :: back) start closing stop') := by
  generalize same : front ++ Token.word word pos stop :: back = inside at region
  cases region with
  | file =>
    subst same
    exact ⟨front, _, back, rfl, rfl, le_refl _, (laid.split rfl).2.word_lt, .inl ⟨rfl, rfl, rfl⟩⟩
  | @body early late inside start closing stop' split =>
    subst same
    rw [split] at laid
    obtain ⟨within, stopped⟩ := (laid.split rfl).2.group_inside
    have low : (⟨start.line, start.column + 1⟩ : Pos) ≤ pos := (within.split rfl).1.le
    have high : pos < closing :=
      lt_of_lt_of_le (within.split rfl).2.word_lt (within.behind rfl).le
    refine ⟨early, _, late, split, rfl, ?_, ?_, .inr ⟨start, closing, stop', rfl, rfl⟩⟩
    · exact le_trans (le_of_lt start.lt_succ) low
    · exact lt_trans high (stopped ▸ closing.lt_succ)

/-- A word stands in one place only. -/
theorem Region.unique {tokens front front' back back' : List Token} {opening opening' : Option Pos}
    {word word' : Word} {pos stop stop' lower upper : Pos} (laid : Laid lower tokens upper)
    (region : Region tokens opening (front ++ .word word pos stop :: back))
    (region' : Region tokens opening' (front' ++ .word word' pos stop' :: back')) :
    opening = opening' ∧ front = front' := by
  obtain ⟨early, token, late, split, apart, low, high, place⟩ := region.exists_across laid
  obtain ⟨early', token', late', split', apart', low', high', place'⟩ := region'.exists_across laid
  have both := laid
  rw [split] at both
  obtain ⟨rfl, rfl, rfl⟩ := both.unique (split.symm.trans split') apart low high low' high'
  rcases place with ⟨rfl, rfl, rfl⟩ | ⟨start, closing, stopped, rfl, rfl⟩
  · rcases place' with ⟨rfl, -, rfl⟩ | ⟨_, _, _, -, impossible⟩
    · exact ⟨rfl, rfl⟩
    · cases impossible
  · rcases place' with ⟨-, impossible, -⟩ | ⟨_, _, _, rfl, same⟩
    · cases impossible
    · -- Both words stand in the same braces, so the argument is repeated for the tokens inside.
      obtain ⟨-, inside, rfl, -, -⟩ := Token.group.inj same
      obtain ⟨lower', upper', within, -⟩ := region.laid laid
      obtain ⟨rfl, -, -⟩ := within.unique inside rfl (le_refl _) (within.split rfl).2.word_lt
        (le_refl _) ((inside ▸ within).split rfl).2.word_lt
      exact ⟨rfl, rfl⟩

/-- Tokens behind which the attributes of a declaration may begin: they end in none themselves. -/
inductive Closed : List Token → Prop where
  | nil : Closed []
  | apart {front : List Token} {token : Token} (apart : token.isApart = true) :
      Closed (front ++ [token])
  | inner {front inside : List Token} {joint : Bool} {start stop opening closing finish : Pos} :
      Closed (front ++ [.punct '!' joint start stop, .group .bracket inside opening closing finish])

theorem Closed.not_endsAttribute {tokens : List Token} (closed : Closed tokens) :
    ¬EndsAttribute tokens := by
  rintro ⟨front', joint, start, stop, inside, opening, closing, finish, same⟩
  cases closed with
  | nil => simp at same
  | apart apart =>
    rw [List.append_cons front'] at same
    obtain rfl := List.singleton_inj.mp (List.append_inj_right' same rfl)
    cases apart
  | inner =>
    have pair := List.append_inj_right' same rfl
    simp at pair

theorem Closed.isWhole {tokens : List Token} (closed : Closed tokens) {last : Token}
    (isLast : tokens.getLast? = some last) : last.isWhole = true := by
  cases closed with
  | nil => cases isLast
  | apart apart =>
    rw [List.getLast?_concat] at isLast
    cases isLast
    exact isWhole_of_isApart apart
  | inner =>
    rw [List.append_cons, List.getLast?_concat] at isLast
    cases isLast
    rfl

end Token

open Reader

namespace Cursor

variable {declares : Bool} {before after : Cursor}

theorem Reaches.edges_subset (reaches : before.Reaches declares after) :
    Token.edgesOf after.rest ⊆ Token.edgesOf before.rest := by
  obtain ⟨passed, marked, passes⟩ := reaches
  rw [passes.rest, Token.edgesOf_append]
  exact List.subset_append_right _ _

theorem Passes.mem_edges {passed : List Token} {marked : List Pos}
    (passes : before.Passes declares passed marked after) {mark : Pos} (noted : mark ∈ marked) :
    mark ∈ Token.edgesOf passed := by
  rcases passes.placed mark noted with braced | ⟨-, edge⟩
  · exact Token.bracedEdgesOf_subset passed braced
  · exact edge

/-- What is noted on the way is an edge of a token that was ahead. -/
theorem Reaches.marks_cases (reaches : before.Reaches declares after) {mark : Pos}
    (noted : mark ∈ after.marks) :
    mark ∈ before.marks ∨ mark ∈ Token.edgesOf before.rest := by
  obtain ⟨passed, marked, passes⟩ := reaches
  rw [passes.marks] at noted
  rcases List.mem_append.mp noted with noted | noted
  · right
    rw [passes.rest, Token.edgesOf_append]
    exact List.mem_append_left _ (passes.mem_edges noted)
  · exact .inl noted

/-- What was read from `before` on does not end in an attribute of what comes next. -/
def Fresh (before after : Cursor) : Prop :=
  ∀ early, before.rest = early ++ after.rest → Token.Closed early

theorem fresh_same (cursor : Cursor) : cursor.Fresh cursor := by
  intro early same
  obtain rfl : early = [] := by simpa using same
  exact .nil

theorem EndsApart.fresh (ends : before.EndsApart after) : before.Fresh after := by
  obtain ⟨front, token, ahead, apart⟩ := ends
  intro early same
  rw [List.append_cons] at ahead
  obtain rfl := List.append_cancel_right (same.symm.trans ahead)
  exact .apart apart

theorem EndsApart.behind {middle : Cursor} (ends : middle.EndsApart after)
    (reaches : before.Reaches declares middle) : before.EndsApart after := by
  obtain ⟨front, token, ahead, apart⟩ := ends
  obtain ⟨passed, marked, passes⟩ := reaches
  exact ⟨passed ++ front, token, by rw [passes.rest, ahead, List.append_assoc], apart⟩

end Cursor

namespace Grammar

open Reading

variable {g : Grammar} {conditions : List Condition} {before after : Cursor} {pos lower upper : Pos}

/-- Between two cursors `pos` is where something is declared, behind `early` and its attributes.
Only the tokens of `early`, values of attributes, and what follows were noted in. -/
structure Site (before : Cursor) (pos : Pos) (after : Cursor) (early attributes late : List Token)
    (word : Word) (stop : Pos) : Prop where
  rest : before.rest = early ++ attributes ++ .word word pos stop :: late
  closed : Token.Closed early
  list : Token.Attributes attributes
  marks : ∀ mark ∈ after.marks, mark ∈ before.marks ∨ mark ∈ Token.edgesOf early ∨
    (∃ token ∈ attributes, mark ∈ token.settingEdges) ∨ pos ≤ mark

/-- What a declaration and all that follows it note. -/
theorem Declares.marks_cases {lead final middle : Cursor}
    (declares : Declares before pos lead final middle) (goes : middle.Reaches true after)
    (laid : Token.Laid lower before.rest upper) {mark : Pos} (noted : mark ∈ after.marks) :
    mark ∈ lead.marks ∨ pos ≤ mark := by
  obtain ⟨g, conditions, attributes⟩ := declares.attributes
  obtain ⟨-, taken, short, same, late, onward⟩ :=
    laid_of_beginsWord (Reading.orderly _ attributes) declares.begins laid
  rw [declares.here] at short
  -- Everything that is noted from the first word on lies behind that word.
  have behind : ∀ mark ∈ Token.edgesOf taken.rest, pos ≤ mark := fun mark edge =>
    le_trans (le_of_lt short) (late.edges edge).1
  rcases goes.marks_cases noted with noted | edge
  · rw [declares.marks] at noted
    rcases List.mem_cons.mp noted with rfl | noted
    · exact .inr (le_trans (le_of_lt short) (onward.last_le late).1)
    · exact (same ▸ onward.marks_cases noted).imp_right (behind mark)
  · rw [declares.rest] at edge
    exact .inr (behind mark (onward.edges_subset edge))

theorem exists_site {middle lead final entry : Cursor} (reaches : before.Reaches true entry)
    (fresh : before.Fresh entry) (declares : Declares entry pos lead final middle)
    (goes : middle.Reaches true after) (laid : Token.Laid lower entry.rest upper) :
    ∃ early attributes late word stop, Site before pos after early attributes late word stop := by
  obtain ⟨early, marked, passes⟩ := reaches
  obtain ⟨g, conditions, ran⟩ := declares.attributes
  obtain ⟨attributes, list, ahead, placed⟩ := run_outerAttributes ran
  obtain ⟨taken, word, stop, takes, -⟩ := declares.begins
  rw [declares.here] at takes
  refine ⟨early, attributes, taken.rest, word, stop, ?_, fresh early passes.rest, list, ?_⟩
  · rw [passes.rest, ahead, takes.rest, List.append_assoc]
  · intro mark noted
    rcases declares.marks_cases goes laid noted with noted | later
    · rcases placed mark noted with noted | setting
      · rw [passes.marks] at noted
        rcases List.mem_append.mp noted with noted | noted
        · exact .inr (.inl (passes.mem_edges noted))
        · exact .inl noted
      · exact .inr (.inr (.inl setting))
    · exact .inr (.inr (.inr later))

/-! ### Elements in turn -/

section

variable {α : Type} {step : Cursor → α → Cursor → Prop} {values : List α} {value : α}
  {head entry : Cursor}

/-- Each step ends behind a token that is no part of a doc comment, or where no token is left. -/
def Follows (step : Cursor → α → Cursor → Prop) : Prop :=
  ∀ before value after, step before value after →
    before.Reaches true after ∧ (after.rest = [] ∨ before.EndsApart after)

theorem Follows.reaches (follows : Follows step) (sequence : Sequence step head values entry) :
    head.Reaches true entry := by
  induction sequence with
  | nil => exact Cursor.reaches_same rfl rfl rfl rfl
  | cons first _ ih => exact (follows _ _ _ first).1.trans ih

theorem Follows.endsApart (follows : Follows step) (sequence : Sequence step head values entry)
    (some : entry.rest ≠ []) : entry = head ∨ head.EndsApart entry := by
  induction sequence with
  | nil => exact .inl rfl
  | cons first _ ih =>
    obtain ⟨reaches, ends⟩ := follows _ _ _ first
    rcases ih some with rfl | later
    · exact .inr (ends.resolve_left some)
    · exact .inr (later.behind reaches)

/-- Where a declaration stands that is one of the elements of a sequence. -/
theorem exists_site_between {front back : List α} {next lead' final middle : Cursor}
    (follows : Follows step) (lead : before.Reaches true head) (fresh : before.Fresh head)
    (laid : Token.Laid lower head.rest upper) (earlier : Sequence step head front entry)
    (declares : Declares entry pos lead' final middle) (goes : middle.Reaches true next)
    (later : Sequence step next back after) :
    ∃ early attributes late word stop, Site before pos after early attributes late word stop := by
  have some : entry.rest ≠ [] := by
    intro none
    have shorter := declares.length_lt
    simp [none] at shorter
  have reaches := follows.reaches earlier
  have onward := goes.trans (follows.reaches later)
  rcases follows.endsApart earlier some with rfl | ends
  · exact exists_site lead fresh declares onward laid
  · -- The element before ends apart, so that no attribute before it is taken for one of this.
    have fresh := (ends.behind lead).fresh
    obtain ⟨token, front, ahead, apart⟩ := ends
    obtain ⟨-, behind⟩ := reaches.laid_behind ahead (Token.isWhole_of_isApart apart) laid
    exact exists_site (lead.trans reaches) fresh declares onward behind

/-- Attributes at the head of a body are none of its first element. -/
theorem Elements.fresh (elements : Elements g step before head values after) :
    before.Fresh head := by
  obtain ⟨conditions, attributes⟩ := elements.attributes
  rcases run_innerAttributes attributes with rfl |
    ⟨front, joint, start, stop, inside, opening, closing, finish, ahead⟩
  · exact Cursor.fresh_same _
  · intro early same
    have whole : early = front ++ [.punct '!' joint start stop,
        .group .bracket inside opening closing finish] := by
      refine List.append_cancel_right (same.symm.trans ?_)
      rw [ahead, List.append_assoc]
      rfl
    rw [whole]
    exact .inner

end

theorem follows_item (reads : ReadsFields g) : Follows (Runs (item g)) := fun _ _ _ ran =>
  ⟨Reading.orderly _ ran, .inr (concludes_item reads _ _ _ ran).2⟩

theorem follows_member : Follows (Runs (member? (implMember g))) := fun _ _ _ ran =>
  ⟨Reading.orderly _ ran, .inr (Concludes.member? (concludes_implMember g).lift _ _ _ ran).2⟩

theorem follows_field {field : DeclReader FieldDecl} : Follows (RunsToComma field) := by
  intro before found after step
  cases step with
  | last ran ended => exact ⟨field.orderly ran, .inl ended⟩
  | comma ran takes =>
    have reaches := field.orderly ran
    exact ⟨reaches.trans takes.reaches, .inr ((takes.endsApart rfl).behind reaches)⟩

/-! ### Braces -/

/-- What was noted in a file, around a declaration at `pos`. -/
structure Stands (tokens : List Token) (marks : List Pos) (pos : Pos) (opening : Option Pos)
    (early attributes : List Token) : Prop where
  region : ∃ word stop late,
    Token.Region tokens opening (early ++ attributes ++ .word word pos stop :: late)
  closed : Token.Closed early
  list : Token.Attributes attributes
  marks : ∀ mark ∈ marks, (∃ start ∈ opening, mark ≤ start) ∨ mark ∈ Token.edgesOf early ∨
    (∃ token ∈ attributes, mark ∈ token.settingEdges) ∨ pos ≤ mark

theorem Site.stands {early attributes late : List Token} {word : Word} {stop : Pos}
    (site : Site before pos after early attributes late word stop) (none : before.marks = []) :
    Stands before.rest after.marks pos .none early attributes where
  region := ⟨word, stop, late, site.rest ▸ .file⟩
  closed := site.closed
  list := site.list
  marks := by
    intro mark noted
    rcases site.marks mark noted with noted | others
    · rw [none] at noted
      cases noted
    · exact .inr others

/-- What was noted before a pair of braces lies in front of them. -/
theorem marks_le_of_entered {α : Type} {inner : DeclReader α} {value : α} {inside : List Token}
    {start closing : Pos} {opened first final closed : Cursor} (none : before.marks = [])
    (reaches : before.Reaches true opened)
    (entered : Entered .brace true inner opened value closed inside start closing first final)
    (laid : Token.Laid lower before.rest upper) : ∀ mark ∈ first.marks, mark ≤ start := by
  obtain ⟨passed, marked, passes⟩ := reaches
  obtain ⟨finish, ahead, -⟩ := entered.rest
  rw [passes.rest, ahead] at laid
  have early := (laid.split rfl).1
  rw [entered.opened, passes.marks, none]
  intro mark noted
  rcases List.mem_cons.mp noted with rfl | noted
  · exact le_refl _
  · rw [List.append_nil] at noted
    exact (early.edges (passes.mem_edges noted)).2

/-- What is declared in the braces of an item. -/
theorem Site.stands_inside {α β : Type} {reader : DeclReader α} {inner : DeclReader β} {value : α}
    {given : β} {inside early attributes late : List Token} {word : Word} {start closing stop : Pos}
    {entry opened first bodyEnd final next : Cursor}
    (site : Site first pos bodyEnd early attributes late word stop) (none : before.marks = [])
    (reaches : before.Reaches true entry) (ended : Ended reader entry value final next)
    (goes : next.Reaches true after) (lead : entry.Reaches true opened)
    (entered : Entered .brace true inner opened given final inside start closing first bodyEnd)
    (laid : Token.Laid lower before.rest upper) :
    Stands before.rest after.marks pos (some start) early attributes where
  region := by
    obtain ⟨passed, marked, passes⟩ := reaches.trans lead
    obtain ⟨finish, ahead, -⟩ := entered.rest
    refine ⟨word, stop, late, ?_⟩
    rw [← site.rest, entered.within]
    exact .body (by rw [passes.rest, ahead])
  closed := site.closed
  list := site.list
  marks := by
    obtain ⟨-, within, closes, behind⟩ :=
      laid_of_entered entered (by decide) (reaches.trans lead) laid
    -- The item ends behind the declaration, and what follows the item lies behind its end.
    have low : pos ≤ final.last := by
      refine le_trans (within.edges ?_).2 (le_of_lt closes)
      simp [site.rest, Token.edgesOf_append, Token.edgesOf, Token.edges]
    have shorter : final.rest.length < entry.rest.length := by
      obtain ⟨passed, marked, passes⟩ := lead
      obtain ⟨finish, ahead, -⟩ := entered.rest
      rw [passes.rest, ahead, List.length_append, List.length_cons]
      omega
    intro mark noted
    rcases goes.marks_cases noted with noted | edge
    · rw [ended.marks shorter] at noted
      rcases List.mem_cons.mp noted with rfl | noted
      · exact .inr (.inr (.inr low))
      · rw [entered.marks] at noted
        rcases site.marks mark noted with noted | others
        · have before := marks_le_of_entered none (reaches.trans lead) entered laid mark noted
          exact .inl ⟨start, rfl, before⟩
        · exact .inr others
    · rw [ended.rest] at edge
      exact .inr (.inr (.inr (le_trans low (behind.edges edge).1)))

/-! ### Files -/

/-- Where a named field stands that is declared in the braces of a struct. -/
theorem exists_site_field {field : FieldDecl} {fields : List FieldDecl} {inside : List Token}
    {start closing : Pos} {opened first final : Cursor}
    (entered : Entered .brace true (commaList (namedField g)) opened fields after inside start closing
      first final)
    (laid : Token.Laid lower first.rest upper) (member : field ∈ fields)
    (exported : field.exported = true) :
    ∃ early attributes late word stop, Site first field.pos final early attributes late word stop := by
  obtain ⟨front, back, entry, next, earlier, own, later⟩ :=
    (sequence_of_commaList entered.ran).exists_of_mem member
  obtain ⟨lead, finish, middle, declares, goes⟩ : ∃ lead finish middle,
      Declares entry field.pos lead finish middle ∧ middle.Reaches true next := by
    cases own with
    | last ran =>
      obtain ⟨lead, finish, declares⟩ := run_namedField ran exported
      exact ⟨lead, finish, next, declares, Cursor.reaches_same rfl rfl rfl rfl⟩
    | @comma middle _ _ _ ran takes =>
      obtain ⟨lead, finish, declares⟩ := run_namedField ran exported
      exact ⟨lead, finish, middle, declares, takes.reaches⟩
  exact exists_site_between follows_field (Cursor.reaches_same rfl rfl rfl rfl)
    (Cursor.fresh_same _) laid earlier declares goes later

/-- Where a method stands that is declared in the braces of an `impl` block. -/
theorem exists_site_method {function : FunctionDecl} {members : List (Option (Option FunctionDecl))}
    {first head final : Cursor}
    (elements : Elements g (Runs (member? (implMember g))) first head members final)
    (laid : Token.Laid lower first.rest upper)
    (member : function ∈ members.filterMap Option.join) :
    ∃ early attributes late word stop,
      Site first function.pos final early attributes late word stop := by
  obtain ⟨found, listed, joined⟩ := List.mem_filterMap.mp member
  obtain ⟨conditions, attributes⟩ := elements.attributes
  obtain ⟨next, -, within⟩ := elements.laid laid
  obtain rfl := Option.join_eq_some_iff.mp joined
  obtain ⟨front, back, entry, next, earlier, own, later⟩ := elements.sequence.exists_of_mem listed
  obtain ⟨lead, finish, declares⟩ := run_implMember own
  exact exists_site_between follows_member (Reading.orderly _ attributes).loud elements.fresh within
    earlier declares (Cursor.reaches_same rfl rfl rfl rfl) later

end Grammar

/-- A field of a tuple struct. -/
def Declaration.IsTupleField : Declaration → Prop
  | .field _ found => found.name = none
  | .struct _ | .method _ => False

instance : DecidablePred Declaration.IsTupleField
  | .field _ found => inferInstanceAs (Decidable (found.name = none))
  | .struct _ | .method _ => instDecidableFalse

namespace Grammar

open Reading

/-- Where a declaration of an item stands, if it is no field of a tuple struct. -/
theorem exists_stands_of_mem {g g' : Grammar} {before head after : Cursor} {items : List Item}
    {value : Item} {found : Declaration} {lower upper : Pos} (reads : ReadsFields g)
    (none : before.marks = []) (elements : Elements g' (Runs (item g)) before head items after)
    (laid : Token.Laid lower before.rest upper) (member : value ∈ items)
    (declared : found ∈ value.declarations) (named : ¬found.IsTupleField) :
    ∃ opening early attributes,
      Stands before.rest after.marks found.pos opening early attributes := by
  obtain ⟨conditions, ran⟩ := elements.attributes
  have lead := (Reading.orderly _ ran).loud
  obtain ⟨front, back, entry, next, earlier, own, later⟩ := elements.sequence.exists_of_mem member
  have reaches := lead.trans ((follows_item reads).reaches earlier)
  have goes := (follows_item reads).reaches later
  cases run_item reads own with
  | undeclared none =>
    rw [none] at declared
    cases declared
  | @struct _ lead' opened final decl fields ended declares begins held form whole =>
    rw [whole, Item.declarations, TypeDecl.declarations, form] at declared
    rcases List.mem_cons.mp declared with rfl | declared
    · -- The struct itself is one of the elements of the file.
      obtain ⟨_, -, within⟩ := elements.laid laid
      obtain ⟨early, attributes, late, word, stop, site⟩ := exists_site_between (follows_item reads)
        lead elements.fresh within earlier declares (Cursor.reaches_same rfl rfl rfl rfl) later
      exact ⟨.none, early, attributes, site.stands none⟩
    · -- A field is one of the elements in the braces of the struct.
      obtain ⟨field, listed, exported, rfl⟩ := FieldDecl.mem_flatMap_declarations.mp declared
      cases held with
      | none => cases listed
      | tuple _ entered _ => exact absurd (nameless_of_entered entered field listed) named
      | @named _ _ _ start _ _ _ _ lead' entered =>
        have inner := declares.lead_reaches.trans (begins.reaches.trans lead')
        obtain ⟨-, within, -⟩ := laid_of_entered entered (by decide) (reaches.trans inner) laid
        obtain ⟨early, attributes, late, word, stop, site⟩ :=
          exists_site_field entered within listed exported
        exact ⟨some start, early, attributes,
          site.stands_inside none reaches ended goes inner entered laid⟩
  | @impl _ opened final functions _ ended lead held methods =>
    rw [methods] at declared
    obtain ⟨function, listed, rfl⟩ := List.mem_map.mp declared
    obtain ⟨_, inside, start, closing, first, _, bodyEnd, members, entered, elements, kept⟩ :=
      run_memberBody held
    obtain ⟨-, within, -⟩ := laid_of_entered entered (by decide) (reaches.trans lead) laid
    obtain ⟨early, attributes, late, word, stop, site⟩ :=
      exists_site_method elements within (kept ▸ listed)
    exact ⟨some start, early, attributes,
      site.stands_inside none reaches ended goes lead entered laid⟩

end Grammar

namespace SourceFile

open Grammar

/-- Where a declaration of a file stands. -/
theorem exists_stands {text : String} {file : SourceFile} (done : read text = .ok file)
    {tokens : List Token} (lexed : Token.lex (body text) = .ok tokens) {found : Declaration}
    (declared : found ∈ file.declarations) (named : ¬found.IsTupleField) :
    ∃ opening early attributes,
      Stands tokens file.boundaries found.pos opening early attributes := by
  obtain ⟨tokens', head, final, lexed', elements, boundaries⟩ := exists_elements_of_read done
  obtain rfl := Except.ok.inj (lexed.symm.trans lexed')
  obtain ⟨lower, upper, laid⟩ := Token.laid_of_lex lexed
  obtain ⟨value, member, declared⟩ := List.mem_flatMap.mp declared
  obtain ⟨opening, early, attributes, stands⟩ := exists_stands_of_mem (readsFields_upToDepth _) rfl
    elements laid member declared named
  refine ⟨opening, early, attributes, { stands with marks := fun mark noted => ?_ }⟩
  rw [boundaries] at noted
  exact stands.marks mark (mem_sortPositions.mp noted)

end SourceFile

end StructInventory
