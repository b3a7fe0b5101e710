import StructInventory.Proofs.Position

/-!
The tokens of a text in reading order. Tokens follow one another, and those inside a group lie
between its delimiters. Only the tokens of one doc comment all lie in the same place.
-/

namespace StructInventory

namespace Token

/-- A token that holds no others. -/
def isLeaf : Token → Bool
  | group .. => false
  | _ => true

def isWord : Token → Bool
  | word .. => true
  | _ => false

/-- Tokens that no more of a doc comment can follow. -/
def isWhole : Token → Bool
  | punct mark _ _ _ => mark ≠ '#' && mark ≠ '!'
  | _ => true

/-- Tokens that no doc comment stands for, outside of its brackets. -/
def isApart : Token → Bool
  | group .bracket _ _ _ _ => false
  | token => token.isWhole

theorem isWhole_of_isApart {token : Token} (apart : token.isApart = true) : token.isWhole = true := by
  unfold isApart at apart
  split at apart
  · rfl
  · exact apart

/-- Tokens in order from `lower` to `upper`. -/
inductive Laid : Pos → List Token → Pos → Prop where
  | nil {lower upper : Pos} (fits : lower ≤ upper) : Laid lower [] upper
  | leaf {lower upper : Pos} {token : Token} {rest : List Token} (leaf : token.isLeaf = true)
      (after : lower ≤ token.start) (solid : token.start ≤ token.stop)
      (word : token.isWord = true → token.start < token.stop) (more : Laid token.stop rest upper) :
      Laid lower (token :: rest) upper
  | group {lower upper start closing : Pos} {delimiter : Delimiter} {inside rest : List Token}
      (after : lower ≤ start) (within : Laid ⟨start.line, start.column + 1⟩ inside closing)
      (more : Laid ⟨closing.line, closing.column + 1⟩ rest upper) :
      Laid lower (.group delimiter inside start closing ⟨closing.line, closing.column + 1⟩ :: rest)
        upper
  | doc {lower upper start stop : Pos} {inner : Bool} {body : List Char} {rest : List Token}
      (after : lower ≤ start) (solid : start ≤ stop) (more : Laid stop rest upper) :
      Laid lower (Lexeme.docTokens inner body start stop ++ rest) upper

theorem start_mem_edges (token : Token) : token.start ∈ token.edges := by
  cases token <;> simp [start, edges]

theorem edges_of_isLeaf {token : Token} (leaf : token.isLeaf = true) :
    token.edges = [token.start, token.stop] := by
  cases token <;> simp_all [isLeaf, edges, start, stop]

theorem edgesOf_docTokens {inner : Bool} {body : List Char} {start stop pos : Pos}
    (edge : pos ∈ edgesOf (Lexeme.docTokens inner body start stop)) : pos = start ∨ pos = stop := by
  cases inner <;> simp only [Lexeme.docTokens, edgesOf, edges, if_true, if_false, Bool.false_eq_true,
    List.cons_append, List.nil_append, List.append_nil, List.mem_cons, List.not_mem_nil] at edge <;>
    grind

theorem not_apart_of_mem_docTokens {inner : Bool} {body : List Char} {start stop : Pos}
    {token : Token} (member : token ∈ Lexeme.docTokens inner body start stop) :
    token.isApart = false := by
  cases inner
  · simp only [Lexeme.docTokens, Bool.false_eq_true, if_false, List.mem_cons, List.not_mem_nil,
      or_false] at member
    rcases member with rfl | rfl <;> rfl
  · simp only [Lexeme.docTokens, if_true, List.mem_cons, List.not_mem_nil, or_false] at member
    rcases member with rfl | rfl | rfl <;> rfl

/-- Behind a whole token among those of a doc comment comes what follows the comment. -/
theorem docTokens_of_isWhole {inner : Bool} {body : List Char} {start stop : Pos}
    {front back : List Token} {token : Token} (whole : token.isWhole = true)
    (split : Lexeme.docTokens inner body start stop = front ++ token :: back) :
    back = [] ∧ token.stop = stop := by
  cases inner
  · rcases front with _ | ⟨first, _ | ⟨second, front⟩⟩
    all_goals simp [Lexeme.docTokens] at split
    · rw [← split.1] at whole
      cases whole
    · exact ⟨split.2.2, by rw [← split.2.1]; rfl⟩
  · rcases front with _ | ⟨first, _ | ⟨second, _ | ⟨third, front⟩⟩⟩
    all_goals simp [Lexeme.docTokens] at split
    · rw [← split.1] at whole
      cases whole
    · rw [← split.2.1] at whole
      cases whole
    · exact ⟨split.2.2.2, by rw [← split.2.2.1]; rfl⟩

namespace Laid

variable {lower upper middle : Pos} {tokens more : List Token}

theorem le (laid : Laid lower tokens upper) : lower ≤ upper := by
  induction laid with
  | nil fits => exact fits
  | leaf _ after solid _ _ ih => exact le_trans after (le_trans solid ih)
  | @group lower upper start closing _ _ _ after _ _ ihInside ih =>
    have : start ≤ ⟨closing.line, closing.column + 1⟩ := by
      rw [Pos.le_iff] at *
      dsimp only at *
      omega
    exact le_trans after (le_trans this ih)
  | doc after solid _ ih => exact le_trans after (le_trans solid ih)

theorem after (laid : Laid middle tokens upper) (later : lower ≤ middle) :
    Laid lower tokens upper := by
  cases laid with
  | nil fits => exact .nil (le_trans later fits)
  | leaf leaf after solid word more => exact .leaf leaf (le_trans later after) solid word more
  | group after within more => exact .group (le_trans later after) within more
  | doc after solid more => exact .doc (le_trans later after) solid more

theorem append (first : Laid lower tokens middle) (second : Laid middle more upper) :
    Laid lower (tokens ++ more) upper := by
  induction first with
  | nil fits => exact second.after fits
  | leaf leaf after solid word _ ih => exact .leaf leaf after solid word (ih second)
  | group after within _ _ ih => exact .group after within (ih second)
  | doc after solid _ ih =>
    rw [List.append_assoc]
    exact .doc after solid (ih second)

theorem before (laid : Laid lower tokens middle) (later : middle ≤ upper) :
    Laid lower tokens upper := by
  simpa using laid.append (.nil later)

/-- All edges lie between the bounds. -/
theorem edges (laid : Laid lower tokens upper) {pos : Pos} (edge : pos ∈ edgesOf tokens) :
    lower ≤ pos ∧ pos ≤ upper := by
  induction laid with
  | nil => cases edge
  | @leaf lower upper token rest leaf after solid _ more ih =>
    rw [edgesOf, List.mem_append, edges_of_isLeaf leaf] at edge
    rcases edge with own | later
    · have fits := more.le
      simp only [List.mem_cons, List.not_mem_nil, or_false] at own
      rcases own with rfl | rfl
      · exact ⟨after, le_trans solid fits⟩
      · exact ⟨le_trans after solid, fits⟩
    · obtain ⟨low, high⟩ := ih later
      exact ⟨le_trans after (le_trans solid low), high⟩
  | @group lower upper start closing delimiter inside rest after within more ihInside ih =>
    have opened : start ≤ ⟨start.line, start.column + 1⟩ := by simp [Pos.le_iff]
    have closed : closing ≤ ⟨closing.line, closing.column + 1⟩ := by simp [Pos.le_iff]
    have span : start ≤ closing := le_trans opened within.le
    have fits := more.le
    rw [edgesOf, List.mem_append, Token.edges] at edge
    simp only [List.mem_cons] at edge
    rcases edge with (rfl | rfl | inner) | later
    · exact ⟨after, le_trans span (le_trans closed fits)⟩
    · exact ⟨le_trans after (le_trans span closed), fits⟩
    · obtain ⟨low, high⟩ := ihInside inner
      exact ⟨le_trans after (le_trans opened low), le_trans high (le_trans closed fits)⟩
    · obtain ⟨low, high⟩ := ih later
      exact ⟨le_trans after (le_trans span (le_trans closed low)), high⟩
  | doc after solid more ih =>
    rw [edgesOf_append, List.mem_append] at edge
    have fits := more.le
    rcases edge with own | later
    · rcases edgesOf_docTokens own with rfl | rfl
      · exact ⟨after, le_trans solid fits⟩
      · exact ⟨le_trans after solid, fits⟩
    · obtain ⟨low, high⟩ := ih later
      exact ⟨le_trans after (le_trans solid low), high⟩

/-- Tokens can be cut behind a whole one. -/
theorem cut {front back : List Token} {token : Token}
    (laid : Laid lower (front ++ token :: back) upper) (whole : token.isWhole = true) :
    Laid lower (front ++ [token]) token.stop ∧ Laid token.stop back upper := by
  -- The tokens of a doc comment lie in one place, so a cut among them would put nothing in order;
  -- but of these only the last one is whole.
  generalize same : front ++ token :: back = tokens at laid
  induction laid generalizing front with
  | nil => simp at same
  | leaf leaf after solid word more ih =>
    cases front with
    | nil =>
      obtain ⟨rfl, rfl⟩ := List.cons.inj same
      exact ⟨.leaf leaf after solid word (.nil (le_refl _)), more⟩
    | cons first front =>
      obtain ⟨rfl, rest⟩ := List.cons.inj same
      exact ⟨.leaf leaf after solid word (ih rest).1, (ih rest).2⟩
  | group after within more _ ih =>
    cases front with
    | nil =>
      obtain ⟨rfl, rfl⟩ := List.cons.inj same
      exact ⟨.group after within (.nil (le_refl _)), more⟩
    | cons first front =>
      obtain ⟨rfl, rest⟩ := List.cons.inj same
      exact ⟨.group after within (ih rest).1, (ih rest).2⟩
  | @doc lower upper start stop inner body rest after solid more ih =>
    have own (stop' : Pos) (tokens : List Token) (rest : Laid stop tokens stop') :
        Laid lower (Lexeme.docTokens inner body start stop ++ tokens) stop' := .doc after solid rest
    rcases List.append_eq_append_iff.mp same with ⟨middle, split, later⟩ | ⟨middle, rfl, later⟩
    · cases middle with
      | nil =>
        obtain ⟨early, late⟩ := ih (show [] ++ token :: back = _ from later)
        rw [List.append_nil] at split
        exact ⟨split ▸ own _ _ early, late⟩
      | cons first middle =>
        -- The token is one of the comment's own.
        obtain ⟨rfl, rfl⟩ := List.cons.inj later
        obtain ⟨rfl, stop'⟩ := docTokens_of_isWhole whole split
        rw [← split, stop', ← List.append_nil (Lexeme.docTokens inner body start stop)]
        exact ⟨own _ _ (.nil (le_refl _)), more⟩
    · obtain ⟨early, late⟩ := ih later.symm
      rw [List.append_assoc]
      exact ⟨own _ _ early, late⟩

theorem behind {front back : List Token} {token : Token}
    (laid : Laid lower (front ++ token :: back) upper) (whole : token.isWhole = true) :
    Laid token.stop back upper :=
  (laid.cut whole).2

/-- Tokens can be divided at one that belongs to no doc comment. -/
theorem split {front back : List Token} {token : Token}
    (laid : Laid lower (front ++ token :: back) upper) (apart : token.isApart = true) :
    Laid lower front token.start ∧ Laid token.start [token] token.stop := by
  generalize same : front ++ token :: back = tokens at laid
  induction laid generalizing front with
  | nil => simp at same
  | leaf leaf after solid word _ ih =>
    cases front with
    | nil =>
      obtain ⟨rfl, rfl⟩ := List.cons.inj same
      exact ⟨.nil after, .leaf leaf (le_refl _) solid word (.nil (le_refl _))⟩
    | cons first front =>
      obtain ⟨rfl, rest⟩ := List.cons.inj same
      obtain ⟨early, own⟩ := ih rest
      exact ⟨.leaf leaf after solid word early, own⟩
  | group after within _ _ ih =>
    cases front with
    | nil =>
      obtain ⟨rfl, rfl⟩ := List.cons.inj same
      exact ⟨.nil after, .group (le_refl _) within (.nil (le_refl _))⟩
    | cons first front =>
      obtain ⟨rfl, rest⟩ := List.cons.inj same
      obtain ⟨early, own⟩ := ih rest
      exact ⟨.group after within early, own⟩
  | @doc lower upper start stop inner body rest after solid _ ih =>
    rcases List.append_eq_append_iff.mp same with ⟨middle, split, later⟩ | ⟨middle, rfl, later⟩
    · cases middle with
      | nil =>
        obtain ⟨early, own⟩ := ih (show [] ++ token :: back = _ from later)
        have whole : Laid lower (Lexeme.docTokens inner body start stop ++ []) token.start :=
          .doc after solid early
        rw [List.append_nil, split, List.append_nil] at whole
        exact ⟨whole, own⟩
      | cons first middle =>
        -- The token would be one of the comment's own, and none of those is apart.
        obtain ⟨rfl, -⟩ := List.cons.inj later
        have member : token ∈ Lexeme.docTokens inner body start stop := by
          rw [split]
          simp
        rw [not_apart_of_mem_docTokens member] at apart
        cases apart
    · obtain ⟨early, own⟩ := ih later.symm
      exact ⟨.doc after solid early, own⟩

/-- The inside of a group that no doc comment stands for. -/
theorem group_inside {delimiter : Delimiter} {inside : List Token} {start closing stop : Pos}
    (laid : Laid lower [.group delimiter inside start closing stop] upper) :
    Laid ⟨start.line, start.column + 1⟩ inside closing ∧
      stop = ⟨closing.line, closing.column + 1⟩ := by
  generalize same : [Token.group delimiter inside start closing stop] = tokens at laid
  cases laid with
  | nil => cases same
  | leaf leaf =>
    cases same
    cases leaf
  | group _ within _ =>
    cases same
    exact ⟨within, rfl⟩
  | @doc _ _ _ _ inner => cases inner <;> cases same

theorem word_lt {word : Word} {start stop : Pos}
    (laid : Laid lower [.word word start stop] upper) : start < stop := by
  generalize same : [Token.word word start stop] = tokens at laid
  cases laid with
  | nil => cases same
  | leaf _ _ _ solid _ =>
    cases same
    exact solid rfl
  | group => cases same
  | @doc _ _ _ _ inner => cases inner <;> cases same

/-- Only one token that belongs to no doc comment lies across a position. -/
theorem unique {front front' back back' : List Token} {token token' : Token} {pos : Pos}
    (laid : Laid lower (front ++ token :: back) upper)
    (same : front ++ token :: back = front' ++ token' :: back')
    (apart : token.isApart = true) (low : token.start ≤ pos) (high : pos < token.stop)
    (low' : token'.start ≤ pos) (high' : pos < token'.stop) :
    front = front' ∧ token = token' ∧ back = back' := by
  -- A token before the other one ends before it begins.
  have early : ∀ other ∈ front, other.stop ≤ token.start := fun other member =>
    ((laid.split apart).1.edges (edges_subset_edgesOf member other.stop_mem_edges)).2
  have late : ∀ other ∈ back, token.stop ≤ other.start := fun other member =>
    ((laid.behind (isWhole_of_isApart apart)).edges
      (edges_subset_edgesOf member other.start_mem_edges)).1
  rcases List.append_eq_append_iff.mp same with ⟨middle, rfl, later⟩ | ⟨middle, rfl, later⟩
  · cases middle with
    | nil =>
      obtain ⟨rfl, rfl⟩ := List.cons.inj later
      exact ⟨(List.append_nil _).symm, rfl, rfl⟩
    | cons first middle =>
      obtain ⟨rfl, rfl⟩ := List.cons.inj later
      have := late token' (by simp)
      exact absurd (lt_of_lt_of_le high (le_trans this low')) (lt_irrefl _)
  · cases middle with
    | nil =>
      obtain ⟨rfl, rfl⟩ := List.cons.inj later
      exact ⟨List.append_nil _, rfl, rfl⟩
    | cons first middle =>
      obtain ⟨rfl, rfl⟩ := List.cons.inj later
      have := early token' (by simp)
      exact absurd (lt_of_lt_of_le high' (le_trans this low)) (lt_irrefl _)

end Laid

end Token

/-! ### Cutting a text -/

theorem Ident.length_lt_of_read? {text rest : List Char} {ident : Ident}
    (read : Ident.read? text = some (ident, rest)) : rest.length < text.length := by
  cases text with
  | nil => cases read
  | cons c text =>
    rw [Ident.read?] at read
    split at read
    · cases read
      exact Nat.lt_succ_of_le (List.dropWhile_sublist _).length_le
    · cases read

theorem Word.length_lt_of_read? {text rest : List Char} {word : Word}
    (read : Word.read? text = some (word, rest)) : rest.length < text.length := by
  unfold Word.read? at read
  split at read
  · obtain ⟨⟨name, behind⟩, found, kept⟩ := Option.bind_eq_some_iff.mp read
    dsimp only at kept
    split at kept
    · cases kept
    · cases kept
      have := Ident.length_lt_of_read? found
      simp only [List.length_cons]
      omega
  · obtain ⟨⟨name, behind⟩, found, made⟩ := Option.map_eq_some_iff.mp read
    cases made
    exact Ident.length_lt_of_read? found

namespace Lexeme

/-- What one step of the lexer answers, from `pos` to `next`. -/
inductive Steps (pos next : Pos) : List Lexeme → Prop where
  | gap (forward : pos ≤ next) : Steps pos next []
  | bad (found : Pos) : Steps pos next [.bad found]
  | doc (inner : Bool) (body : List Char) (forward : pos ≤ next) :
      Steps pos next ((docTokens inner body pos next).map .token)
  | opening (delimiter : Delimiter) (forward : next = ⟨pos.line, pos.column + 1⟩) :
      Steps pos next [.opening delimiter pos]
  | closing (delimiter : Delimiter) (forward : next = ⟨pos.line, pos.column + 1⟩) :
      Steps pos next [.closing delimiter pos]
  | leaf {token : Token} (leaf : token.isLeaf = true) (start : token.start = pos)
      (stop : token.stop = next) (solid : pos ≤ next) (word : token.isWord = true → pos < next) :
      Steps pos next [.token token]

theorem bracket?_eq_some {c : Char} {lexeme : Pos → Lexeme} (found : bracket? c = some lexeme) :
    c ≠ '\n' ∧ ∃ delimiter, lexeme = .opening delimiter ∨ lexeme = .closing delimiter := by
  unfold bracket? at found
  repeat' split at found
  all_goals cases found
  all_goals subst_vars
  · exact ⟨by decide, .paren, .inl rfl⟩
  · exact ⟨by decide, .bracket, .inl rfl⟩
  · exact ⟨by decide, .brace, .inl rfl⟩
  · exact ⟨by decide, .paren, .inr rfl⟩
  · exact ⟨by decide, .bracket, .inr rfl⟩
  · exact ⟨by decide, .brace, .inr rfl⟩

theorem leaf?_steps {text : List Char} {pos : Pos} {token : Token} {length : Nat}
    (found : leaf? text pos = some (token, length)) :
    Steps pos (pos.past (text.take length)) [.token token] := by
  unfold leaf? at found
  dsimp only at found
  split at found
  · cases found
    exact .leaf rfl rfl rfl (Pos.le_past _ _) (by simp [Token.isWord])
  · split at found
    · obtain ⟨rest, -, made⟩ := Option.map_eq_some_iff.mp found
      cases made
      exact .leaf rfl rfl rfl (Pos.le_past _ _) (by simp [Token.isWord])
    next c rest _ =>
      split at found
      · cases found
        exact .leaf rfl rfl rfl (le_of_lt (Pos.lt_next _ _)) (by simp [Token.isWord])
      · split at found
        · cases found
        · obtain ⟨⟨word, behind⟩, read, made⟩ := Option.map_eq_some_iff.mp found
          cases made
          -- Only for a word does it matter that something was read.
          refine .leaf rfl rfl rfl (Pos.le_past _ _) fun _ => Pos.lt_past _ ?_
          have shorter := Word.length_lt_of_read? read
          rw [Ne, List.take_eq_nil_iff, passed]
          simp only [List.length_cons, reduceCtorEq, or_false] at shorter ⊢
          omega
    · cases found

theorem step_steps (text : List Char) (pos : Pos) (some : text ≠ []) :
    Steps pos (pos.past (text.take (step text pos).2)) (step text pos).1 := by
  unfold step
  split
  · exact .gap (Pos.le_past _ _)
  · exact .doc _ _ (Pos.le_past _ _)
  · exact .bad pos
  next =>
    obtain ⟨c, rest, rfl⟩ := List.exists_cons_of_ne_nil some
    dsimp only
    split
    · exact .gap (Pos.le_past _ _)
    · split
      next lexeme found =>
        obtain ⟨visible, delimiter, kind⟩ := bracket?_eq_some found
        have forward : pos.past (List.take 1 (c :: rest)) = ⟨pos.line, pos.column + 1⟩ := by
          simp [Pos.past, Pos.next, visible]
        rcases kind with rfl | rfl
        · exact .opening delimiter forward
        · exact .closing delimiter forward
      next =>
        cases found : leaf? (c :: rest) pos with
        | none => exact .bad pos
        | some leaf => exact leaf?_steps found

end Lexeme

namespace Token

/-- Open groups, of which the innermost begins its inside at `lower`. -/
inductive Opened (first : Pos) : List Frame → Pos → Prop where
  | nil : Opened first [] first
  | cons {frame : Frame} {frames : List Frame} {lower : Pos} (outer : Opened first frames lower)
      (before : Laid lower frame.outer.reverse frame.start) :
      Opened first (frame :: frames) ⟨frame.start.line, frame.start.column + 1⟩

theorem nest_tokens (frames : List Frame) (inside tokens : List Token) (rest : List Lexeme) :
    nest frames inside (tokens.map .token ++ rest) = nest frames (tokens.reverse ++ inside) rest := by
  induction tokens generalizing inside with
  | nil => rfl
  | cons token tokens ih => simp [nest, ih]

/-- At the end of the text no group is open. -/
theorem laid_nest_nil {first lower pos : Pos} {frames : List Frame} {inside tokens : List Token}
    (opened : Opened first frames lower) (laid : Laid lower inside.reverse pos)
    (nested : nest frames inside [] = .ok tokens) : Laid first tokens pos := by
  cases opened with
  | nil =>
    cases nested
    exact laid
  | cons => cases nested

/-- Lexemes in turn keep the tokens in order. -/
theorem laid_nest_scan {first lower : Pos} (fuel : Nat) (text : List Char) (pos : Pos)
    {frames : List Frame} {inside tokens : List Token} (opened : Opened first frames lower)
    (laid : Laid lower inside.reverse pos)
    (nested : nest frames inside (Lexeme.scan fuel text pos) = .ok tokens) :
    ∃ upper, Laid first tokens upper := by
  -- The invariant: in every open group, and in the innermost up to `pos`, the tokens are in order.
  induction fuel generalizing text pos frames lower inside with
  | zero => exact ⟨pos, laid_nest_nil opened laid nested⟩
  | succ fuel ih =>
    rw [Lexeme.scan] at nested
    split at nested
    · exact ⟨pos, laid_nest_nil opened laid nested⟩
    next some =>
      have steps := Lexeme.step_steps text pos (by simpa using some)
      dsimp only at nested
      generalize (Lexeme.step text pos).1 = lexemes at steps nested
      generalize (Lexeme.step text pos).2 = length at steps nested
      generalize ahead : pos.past (text.take length) = next at steps nested
      cases steps with
      | gap forward => exact ih _ _ opened (laid.before forward) nested
      | bad found => cases frames <;> cases nested
      | doc inner body forward =>
        rw [nest_tokens] at nested
        refine ih _ _ opened ?_ nested
        rw [List.reverse_append, List.reverse_reverse]
        refine laid.append ?_
        rw [← List.append_nil (Lexeme.docTokens inner body pos next)]
        exact .doc (le_refl _) forward (.nil (le_refl _))
      | opening delimiter forward =>
        rw [List.singleton_append, nest] at nested
        exact ih _ _ (.cons opened laid) (.nil (le_of_eq forward.symm)) nested
      | closing delimiter forward =>
        cases opened with
        | nil => cases nested
        | @cons frame frames lower outer before =>
          rw [List.singleton_append, nest] at nested
          split at nested
          next same =>
            refine ih _ _ outer ?_ nested
            rw [List.reverse_cons]
            refine before.append (.group (le_refl _) laid (.nil (le_of_eq forward.symm)))
          · cases nested
      | leaf leaf start stop solid word =>
        rw [List.singleton_append, nest] at nested
        refine ih _ _ opened ?_ nested
        rw [List.reverse_cons]
        subst start stop
        exact laid.append (.leaf leaf (le_refl _) solid word (.nil (le_refl _)))

/-- The tokens of a text are in order. -/
theorem laid_of_lex {text : String} {tokens : List Token} (lexed : lex text = .ok tokens) :
    ∃ lower upper, Laid lower tokens upper := by
  unfold lex at lexed
  dsimp only at lexed
  split at lexed
  all_goals
    obtain ⟨upper, laid⟩ := laid_nest_scan _ _ _ .nil (.nil (le_refl _)) lexed
    exact ⟨_, upper, laid⟩

end Token

end StructInventory
