import StructInventory.Proofs.ForwardRun
import StructInventory.Token.Print

/-!
Reading paths that are known: segments joined by `::`, of which the last may have arguments.
-/

namespace StructInventory

open Reader Reading

/-! ### Words of a path -/

namespace Word

/-- A word that is an identifier. -/
def isIdent (word : Word) : Bool := !reserved.contains word.text

/-- A word that may be a segment of a path. -/
def isSegment (word : Word) : Bool :=
  word.isIdent || word.text == "Self" || Grammar.bareWords.contains word.text

/-- A word that a type may begin with as a path. -/
def beginsPath (word : Word) : Bool := word.isIdent || Grammar.pathWords.contains word.text

end Word

/-! ### Positions erased -/

namespace Token

mutual

/-- The token without where it stands. -/
def bare : Token → Token
  | .word found _ _ => .word found .first .first
  | .punct mark joint _ _ => .punct mark joint .first .first
  | .lifetime name _ _ => .lifetime name .first .first
  | .literal text _ _ => .literal text .first .first
  | .group delimiter inside _ _ _ => .group delimiter (bareAll inside) .first .first .first

def bareAll : List Token → List Token
  | [] => []
  | token :: rest => token.bare :: bareAll rest

end

@[simp] theorem bareAll_append (tokens more : List Token) :
    bareAll (tokens ++ more) = bareAll tokens ++ bareAll more := by
  induction tokens with
  | nil => rfl
  | cons token rest ih => simp [bareAll, ih]

theorem isEmpty_bareAll (tokens : List Token) : (bareAll tokens).isEmpty = tokens.isEmpty := by
  cases tokens <;> rfl

theorem gapAfter_bare (token : Token) (rest : List Token) :
    gapAfter token.bare (bareAll rest) = gapAfter token rest := by
  cases token with
  | punct mark joint start stop => cases joint <;> cases rest <;> rfl
  | word | lifetime | literal | group => cases rest <;> rfl

mutual

theorem tokenChars_bare : (token : Token) → tokenChars token.bare = tokenChars token
  | .word .. | .punct .. | .lifetime .. | .literal .. => rfl
  | .group delimiter inside _ _ _ => by
    simp only [bare, tokenChars, chars_bareAll inside, closingSpace, isEmpty_bareAll]

theorem chars_bareAll : (tokens : List Token) → chars (bareAll tokens) = chars tokens
  | [] => rfl
  | token :: rest => by
    simp only [bareAll, chars, tokenChars_bare token, gapAfter_bare, chars_bareAll rest]

end

/-- Where tokens stand makes no difference to how they are printed. -/
theorem print_congr {tokens others : List Token} (same : bareAll tokens = bareAll others) :
    print tokens = print others := by
  rw [print, ← chars_bareAll, same, chars_bareAll, print]

end Token

namespace Grammar

variable {g : Grammar} {more tokens : List Token} {word : Word} {start stop : Pos}

theorem atBareWord_cons :
    atBareWord (.word word start stop :: more) = bareWords.contains word.text := by
  rw [List.contains_eq_any_beq]
  rfl

theorem atPathWord_cons :
    atPathWord (.word word start stop :: more) = word.beginsPath := by
  rw [Word.beginsPath, List.contains_eq_any_beq]
  rfl

/-! ### Tokens that were meant -/

/-- A word that no text wrote. -/
def named (word : Word) : Token := .word word .first .first

/-- A mark that no text wrote. -/
def mark (c : Char) : Token := .punct c false .first .first

def colons : List Token := [.punct ':' true .first .first, mark ':']

/-- The tokens before the last segment of a path. -/
def stemTokens : List Word → List Token
  | [] => []
  | word :: rest => named word :: (colons ++ stemTokens rest)

theorem exists_append_of_like {found first second : List Token}
    (like : List.Forall₂ Token.Like found (first ++ second)) :
    ∃ found₁ found₂, found = found₁ ++ found₂ ∧ List.Forall₂ Token.Like found₁ first ∧
      List.Forall₂ Token.Like found₂ second :=
  ⟨_, _, (List.take_append_drop first.length found).symm, List.forall₂_take_append _ _ _ like,
    List.forall₂_drop_append _ _ _ like⟩

theorem exists_named_of_like {found rest : List Token} {word : Word}
    (like : List.Forall₂ Token.Like found (named word :: rest)) :
    ∃ start stop behind, found = .word word start stop :: behind ∧
      List.Forall₂ Token.Like behind rest := by
  obtain ⟨token, behind, own, others, rfl⟩ := List.forall₂_cons_right_iff.mp like
  cases own with
  | word word start stop => exact ⟨start, stop, behind, rfl, others⟩

theorem exists_mark_of_like {found rest : List Token} {c : Char}
    (like : List.Forall₂ Token.Like found (mark c :: rest)) :
    ∃ joint start stop behind, found = .punct c joint start stop :: behind ∧
      List.Forall₂ Token.Like behind rest := by
  obtain ⟨token, behind, own, others, rfl⟩ := List.forall₂_cons_right_iff.mp like
  cases own with
  | @punct joint _ _ _ start stop => exact ⟨joint, start, stop, behind, rfl, others⟩

theorem exists_colons_of_like {found rest : List Token}
    (like : List.Forall₂ Token.Like found (colons ++ rest)) :
    ∃ start stop joint start' stop' behind,
      found = .punct ':' true start stop :: .punct ':' joint start' stop' :: behind ∧
      List.Forall₂ Token.Like behind rest := by
  obtain ⟨token, behind, own, others, rfl⟩ := List.forall₂_cons_right_iff.mp like
  obtain ⟨joint', start', stop', behind, rfl, last⟩ := exists_mark_of_like others
  cases own with
  | @punct joint _ closer _ start stop =>
    -- The colons belong together, so they were written without a space.
    obtain rfl := closer rfl
    exact ⟨start, stop, joint', start', stop', behind, rfl, last⟩

theorem reads_colons (start stop : Pos) (joint : Bool) (start' stop' : Pos) :
    (punct "::").Reads [.punct ':' true start stop, .punct ':' joint start' stop'] more ()
      [.punct ':' true start stop, .punct ':' false start' stop'] := reads_punct_double rfl joint

/-! ### Paths -/

theorem reads_identOr (isSegment : word.isSegment = true)
    (bare : ¬ bareWords.contains word.text = true) :
    (identOr ["Self"]).Reads [.word word start stop] more word [.word word start stop] := by
  refine reads_look_pos ?_ (reads_anyWord word)
  simp only [Word.isSegment, Word.isIdent, Bool.or_eq_true] at isSegment
  simp only [List.singleton_append, atIdent, atWord, List.any_cons, List.any_nil, Bool.or_false]
  simp_all

theorem reads_segment (isSegment : word.isSegment = true) {inExpr : Bool}
    (arguments : (!inExpr && atArguments more || atPunct "::" more && third (atPunct "<") more) = false) :
    (segment g inExpr).Reads [.word word start stop] more ⟨word.text, none⟩
      [.word word start stop] := by
  unfold segment
  -- Words such as `super` take no arguments and are read on a way of their own.
  by_cases bare : bareWords.contains word.text = true
  · refine reads_look_pos (atBareWord_cons.trans bare) ?_
    exact (reads_anyWord word).followed reads_pure
  · refine reads_look_neg (by rw [List.singleton_append, atBareWord_cons]; simpa using bare) ?_
    exact (reads_identOr isSegment bare).followed (reads_look_neg arguments reads_pure)

/-- A segment with arguments behind it. -/
theorem reads_segment_arguments (isSegment : word.isSegment = true)
    (bare : ¬ bareWords.contains word.text = true) {suffix shown : List Token}
    {arguments : List TypeArgument} (opens : atArguments (suffix ++ more) = true)
    (reads : (angleArguments g).Reads suffix more arguments shown) :
    (segment g false).Reads (.word word start stop :: suffix) more ⟨word.text, some arguments⟩
      (.word word start stop :: shown) := by
  -- The bracket that opens the arguments is no colon.
  have apart : atPunct "::" (suffix ++ more) = false := by
    unfold atArguments at opens
    cases ahead : suffix ++ more with
    | nil => rfl
    | cons token rest =>
      rw [ahead] at opens
      cases token <;> simp_all [atPunct, atMarks]
  unfold segment
  refine reads_look_neg (by rw [List.cons_append, atBareWord_cons]; simpa using bare) ?_
  refine Reads.cons (reads_identOr isSegment bare) (reads_look_pos (by simp [opens]) ?_)
  exact (reads_punct?_none apart).discard.after (reads.followed reads_pure)

/-- The last segment of a path is read with what stands behind it. -/
def ReadsLast (g : Grammar) (last : Word) (suffix more : List Token)
    (arguments : Option (List TypeArgument)) (shown : List Token) : Prop :=
  ∀ start stop, (segment g false).Reads (.word last start stop :: suffix) more
    ⟨last.text, arguments⟩ (.word last start stop :: shown)

section

variable {last : Word} {suffix shown : List Token} {arguments : Option (List TypeArgument)}

/-- A segment that a `::` and another segment follow. -/
theorem reads_segment_before {found rest : List Token} (isSegment : word.isSegment = true)
    (like : List.Forall₂ Token.Like found (colons ++ rest))
    (follows : ∃ next others, rest = named next :: others) :
    (segment g false).Reads [.word word start stop] (found ++ more) ⟨word.text, none⟩
      [.word word start stop] := by
  obtain ⟨next, others, rfl⟩ := follows
  obtain ⟨_, _, _, _, _, behind, rfl, later⟩ := exists_colons_of_like like
  obtain ⟨_, _, behind, rfl, -⟩ := exists_named_of_like later
  exact reads_segment isSegment rfl

theorem exists_named_stem (stem : List Word) (last : Word) :
    ∃ next others, stemTokens stem ++ [named last] = named next :: others := by
  cases stem with
  | nil => exact ⟨last, [], rfl⟩
  | cons first rest => exact ⟨first, _, rfl⟩

/-- What joins the segments of a path, and where they end. -/
def endsSegments (ahead : List Token) : Bool := !(atPunct "::" ahead && !third atParen ahead)

theorem reads_laterSegments (stem : List Word) (segments : ∀ word ∈ stem, word.isSegment = true)
    (lastReads : ReadsLast g last suffix more arguments shown)
    (ends : atPunct "::" more = false) {found : List Token}
    (like : List.Forall₂ Token.Like found (colons ++ (stemTokens stem ++ [named last]))) :
    ∃ passed, ReadsUpTo endsSegments (do punct "::"; segment g false) (found ++ suffix) more
        (stem.map (fun word => ⟨word.text, none⟩) ++ [⟨last.text, arguments⟩]) (passed ++ shown) ∧
      Token.bareAll passed = Token.bareAll (colons ++ (stemTokens stem ++ [named last])) := by
  -- Each segment before the last is followed by `::` and a word, which ends it.
  induction stem generalizing found with
  | nil =>
    obtain ⟨start, stop, joint, start', stop', _, rfl, later⟩ := exists_colons_of_like like
    obtain ⟨start₂, stop₂, _, rfl, none⟩ := exists_named_of_like later
    obtain rfl := List.forall₂_nil_right_iff.mp none
    have joined := (reads_colons start stop joint start' stop').seq (lastReads start₂ stop₂)
    have reads : ReadsUpTo endsSegments _ _ _ _ _ :=
      readsUpTo_last (by simp) rfl joined (by simp [endsSegments, ends])
    exact ⟨[.punct ':' true start stop, .punct ':' false start' stop', .word last start₂ stop₂],
      by simpa using reads, rfl⟩
  | cons word stem ih =>
    obtain ⟨start, stop, joint, start', stop', _, rfl, later⟩ := exists_colons_of_like like
    rw [stemTokens, List.cons_append, List.append_assoc] at later
    obtain ⟨start₂, stop₂, behind, rfl, like'⟩ := exists_named_of_like later
    obtain ⟨passed, rest, erased⟩ := ih (fun word member => segments word (by simp [member])) like'
    have own : (segment g false).Reads [.word word start₂ stop₂] (behind ++ suffix ++ more)
        ⟨word.text, none⟩ [.word word start₂ stop₂] := by
      rw [List.append_assoc]
      exact reads_segment_before (segments word (by simp)) like' (exists_named_stem stem last)
    have joined := (reads_colons start stop joint start' stop').seq own
    have reads : ReadsUpTo endsSegments _ _ _ _ _ := readsUpTo_cons (by simp) rfl joined rest
    refine ⟨.punct ':' true start stop :: .punct ':' false start' stop' ::
      .word word start₂ stop₂ :: passed, by simpa using reads, ?_⟩
    simp [Token.bareAll, Token.bare, erased, stemTokens, colons, named, mark]

/-- The segments of a path of which only the last one has arguments. -/
def segmentsOf (stem : List Word) (last : Word) (arguments : Option (List TypeArgument)) :
    List Segment :=
  stem.map (fun word => ⟨word.text, none⟩) ++ [⟨last.text, arguments⟩]

theorem reads_segments (stem : List Word) (segments : ∀ word ∈ stem, word.isSegment = true)
    (lastReads : ReadsLast g last suffix more arguments shown)
    (ends : atPunct "::" more = false) {found : List Token}
    (like : List.Forall₂ Token.Like found (stemTokens stem ++ [named last])) (leading : Bool) :
    ∃ passed, (do
          let first ← segment g false
          return ⟨leading, first :: (← moreSegments g false)⟩ : Reader Path).Reads (found ++ suffix) more
        ⟨leading, segmentsOf stem last arguments⟩ (passed ++ shown) ∧
      Token.bareAll passed = Token.bareAll (stemTokens stem ++ [named last]) := by
  cases stem with
  | nil =>
    obtain ⟨start, stop, _, rfl, none⟩ := exists_named_of_like like
    obtain rfl := List.forall₂_nil_right_iff.mp none
    have ended : (moreSegments g false).Reads [] more [] [] :=
      (readsUpTo_nil (by simp [ends])).upTo
    exact ⟨[.word last start stop],
      (lastReads start stop).followed (ended.followed reads_pure), rfl⟩
  | cons word stem =>
    rw [stemTokens, List.cons_append, List.append_assoc] at like
    obtain ⟨start, stop, behind, rfl, like'⟩ := exists_named_of_like like
    obtain ⟨passed, rest, erased⟩ :=
      reads_laterSegments stem (fun word member => segments word (by simp [member])) lastReads ends like'
    have own : (segment g false).Reads [.word word start stop] (behind ++ suffix ++ more)
        ⟨word.text, none⟩ [.word word start stop] := by
      rw [List.append_assoc]
      exact reads_segment_before (segments word (by simp)) like' (exists_named_stem stem last)
    have later : (moreSegments g false).Reads (behind ++ suffix) more _ (passed ++ shown) := rest.upTo
    refine ⟨.word word start stop :: passed, own.cons (later.followed reads_pure), ?_⟩
    simp [Token.bareAll, Token.bare, erased, stemTokens, named]

/-- The tokens of a path up to its last segment. -/
def pathTokens (leading : Bool) (stem : List Word) (last : Word) : List Token :=
  (if leading then colons else []) ++ (stemTokens stem ++ [named last])

theorem reads_path (leading : Bool) (stem : List Word) (segments : ∀ word ∈ stem, word.isSegment = true)
    (lastReads : ReadsLast g last suffix more arguments shown)
    (ends : atPunct "::" more = false) {found : List Token}
    (like : List.Forall₂ Token.Like found (pathTokens leading stem last)) :
    ∃ passed, (path g false).Reads (found ++ suffix) more
        ⟨leading, segmentsOf stem last arguments⟩ (passed ++ shown) ∧
      Token.bareAll passed = Token.bareAll (pathTokens leading stem last) := by
  cases leading with
  | false =>
    obtain ⟨passed, reads, erased⟩ := reads_segments stem segments lastReads ends like false
    refine ⟨passed, (reads_punct?_none ?_).after reads, erased⟩
    obtain ⟨next, others, begins⟩ := exists_named_stem stem last
    rw [pathTokens, if_neg Bool.false_ne_true, List.nil_append, begins] at like
    obtain ⟨_, _, _, rfl, -⟩ := exists_named_of_like like
    rfl
  | true =>
    rw [pathTokens, if_pos rfl] at like ⊢
    obtain ⟨start, stop, joint, start', stop', behind, rfl, like'⟩ := exists_colons_of_like like
    obtain ⟨passed, reads, erased⟩ := reads_segments stem segments lastReads ends like' true
    have leads : (punct? "::").Reads [.punct ':' true start stop, .punct ':' joint start' stop']
        (behind ++ suffix ++ more) true
        [.punct ':' true start stop, .punct ':' false start' stop'] := reads_punct?_double rfl joint
    refine ⟨.punct ':' true start stop :: .punct ':' false start' stop' :: passed, leads.bind reads, ?_⟩
    simp [Token.bareAll, Token.bare, erased, colons, mark]

end

end Grammar

end StructInventory
