import Mathlib.Data.List.Forall2
import StructInventory.Proofs.WordText

/-!
Texts that lay out tokens: what they are cut into is known before anything is cut, and texts that
do not run into one another can be put side by side.
-/

namespace StructInventory

open Text

/-! ### Steps of the lexer -/

namespace Lexeme

theorem passed_append (chars more : List Char) : passed (chars ++ more) more = chars.length := by
  simp [passed]

theorem comment?_eq_none {c : Char} {rest : List Char} (other : c ≠ '/') :
    comment? (c :: rest) = none := by
  unfold comment?
  split <;> simp_all

theorem not_isPunct_of_isIdentStart {c : Char} (start : isIdentStart c = true) :
    isPunct c = false := by
  have marks : ("~!@#$%^&*-=+|;:,<.>/?'".toList.all fun c => !isIdentStart c) = true := by decide
  refine Bool.eq_false_iff.mpr fun mark => ?_
  simpa [start] using List.all_eq_true.mp marks c (List.contains_iff_mem.mp mark)

theorem atPunct_eq_false {c : Char} {rest : List Char} (start : isIdentStart c = true) :
    atPunct (c :: rest) = false := by
  unfold atPunct
  split
  · rfl
  · rfl
  next same =>
    cases same
    exact not_isPunct_of_isIdentStart start
  · rfl

theorem bracket?_eq_none {c : Char} (plain : c ∉ ['(', '[', '\x7b', ')', ']', '\x7d']) :
    bracket? c = none := by
  simp only [List.mem_cons, List.not_mem_nil, or_false, not_or] at plain
  simp [bracket?, plain]

theorem bracket?_of_isIdentStart {c : Char} (start : isIdentStart c = true) :
    bracket? c = none := by
  apply bracket?_eq_none
  have brackets : (['(', '[', '\x7b', ')', ']', '\x7d'].all fun c => !isIdentStart c) = true := by decide
  intro member
  simpa [start] using List.all_eq_true.mp brackets c member

/-- A character that begins a token other than a comment or a bracket. -/
theorem step_leaf {c : Char} {rest : List Char} {pos : Pos} {token : Token} {length : Nat}
    (slash : c ≠ '/') (solid : isGap c = false) (plain : bracket? c = none)
    (found : leaf? (c :: rest) pos = some (token, length)) :
    step (c :: rest) pos = ([.token token], length) := by
  simp [step, comment?_eq_none slash, solid, plain, found]

theorem looksLiteral_eq_false {c : Char} {rest : List Char} (tail : Tail rest) :
    looksLiteral (c :: rest) = false := by
  unfold looksLiteral
  split
  -- Every shape of a literal has a quote or a hash within its first characters.
  all_goals first
    | rfl
    | rename_i same
      cases same
      first
        | exact absurd rfl tail.cons.1
        | exact absurd rfl tail.cons.2.1
        | exact absurd rfl tail.cons.2.2.1
        | exact absurd rfl (tail.cons.2.2.2 (by decide)).cons.1
        | exact absurd rfl (tail.cons.2.2.2 (by decide)).cons.2.2.1

theorem step_of_read? {c : Char} {rest more : List Char} {word : Word} {pos : Pos}
    (start : isIdentStart c = true)
    (literal : Literal.after? (c :: (rest ++ more)) = none)
    (plain : looksLiteral (c :: (rest ++ more)) = false)
    (read : Word.read? (c :: (rest ++ more)) = some (word, more)) :
    step (c :: (rest ++ more)) pos =
      ([.token (.word word pos (pos.past (c :: rest)))], (c :: rest).length) := by
  have slash : c ≠ '/' := by
    rintro rfl
    exact absurd start (by decide)
  have length : passed (c :: (rest ++ more)) more = (c :: rest).length :=
    passed_append (c :: rest) more
  refine step_leaf slash (isGap_eq_false_of_isIdentStart start) (bracket?_of_isIdentStart start) ?_
  unfold leaf?
  rw [literal]
  dsimp only
  split
  next same =>
    cases same
    exact absurd start (by decide)
  next same =>
    cases same
    rw [if_neg (by simp [atPunct_eq_false start]), if_neg (by simp [plain]), read]
    simp [length]
  next same => cases same

/-- A word is cut off where it ends. -/
theorem step_word {word : Word} (lexed : word.Lexed) {more : List Char} (clear : ClearAhead more)
    (pos : Pos) :
    step (word.text.toList ++ more) pos =
      ([.token (.word word pos (pos.past word.text.toList))], word.text.toList.length) := by
  obtain ⟨c, rest, text, start⟩ := lexed.start
  have tail := Word.tail_of_text text clear
  have read := lexed.read? clear
  rw [Word.toList_text, text] at read ⊢
  -- A raw word begins like a raw string, but no quote follows its hash.
  cases raw : word.raw with
  | true =>
    rw [raw] at read
    have mark : c ≠ '"' ∧ c ≠ '#' := by
      constructor <;> (rintro rfl; exact absurd start (by decide))
    refine step_of_read? (by decide) ?_ ?_ read
    · have digit : isAsciiDigit 'r' = false := by decide
      simp [Literal.after?, Literal.afterNumber_eq_none digit, Literal.afterRaw, mark]
    · simp [looksLiteral, mark]
  | false =>
    rw [raw] at read
    exact step_of_read? start (Literal.after?_eq_none_of_word start tail)
      (looksLiteral_eq_false tail) read

/-- A lifetime is cut off where its name ends. -/
theorem step_lifetime {word : Word} (lexed : word.Lexed) {more : List Char} (clear : ClearAhead more)
    (pos : Pos) :
    step ('\'' :: (word.text.toList ++ more)) pos =
      ([.token (.lifetime ("'" ++ word.text) pos (pos.past ('\'' :: word.text.toList)))],
        word.text.toList.length + 1) := by
  have length : passed ('\'' :: (word.text.toList ++ more)) more = word.text.toList.length + 1 :=
    passed_append ('\'' :: word.text.toList) more
  -- A character literal would have a second quote behind one character.
  have character : Literal.after? ('\'' :: (word.text.toList ++ more)) = none := by
    have digit : isAsciiDigit '\'' = false := by decide
    obtain ⟨c, rest, text, start⟩ := lexed.start
    have tail := Word.tail_of_text text clear
    rw [Literal.after?, Literal.afterNumber_eq_none digit, Word.toList_text, text]
    cases word.raw with
    | true => rfl
    | false =>
      have slash : c ≠ '\\' := by
        rintro rfl
        exact absurd start (by decide)
      simp only [Bool.false_eq_true, if_false, List.nil_append, List.cons_append,
        Literal.afterCharacter, slash, Literal.Content.allows, if_true]
      cases behind : rest ++ more with
      | nil => rfl
      | cons d others =>
        rw [behind] at tail
        simp [tail.cons.2.1]
  refine step_leaf (by decide) (by decide) rfl ?_
  have behind : afterLifetime (word.text.toList ++ more) = some more := by
    unfold afterLifetime
    rw [lexed.read? clear]
    rcases clear.cases with rfl | ⟨d, others, rfl, _, _, tick, hash, _⟩
    · rfl
    · simp [tick, hash]
  have name : String.ofList ('\'' :: word.text.toList) = "'" ++ word.text := by
    rw [← String.toList_inj]
    simp
  unfold leaf?
  rw [character]
  change (afterLifetime (word.text.toList ++ more)).map _ = _
  rw [behind, Option.map_some]
  dsimp only
  rw [length]
  simp [name]

theorem isGap_eq_false_of_isAsciiDigit {c : Char} (digit : isAsciiDigit c = true) :
    isGap c = false := by
  have bounds := isAsciiDigit_bounds digit
  simp only [isGap, isBlank_eq_false_of_isAscii (isAscii_of_isAsciiDigit digit) (by omega),
    Bool.false_or, Bool.or_eq_false_iff, decide_eq_false_iff_not]
  constructor
  all_goals
    rintro rfl
    exact absurd digit (by decide)

theorem step_count {text more : List Char} (count : Literal.IsCount text) (clear : ClearAhead more)
    (pos : Pos) :
    step (text ++ more) pos =
      ([.token (.literal (String.ofList text) pos (pos.past text))], text.length) := by
  have length := passed_append text more
  have literal := count.after? clear
  obtain ⟨c, rest, rfl⟩ : ∃ c rest, text = c :: rest :=
    List.exists_cons_of_ne_nil (by rintro rfl; simpa using count.digit)
  have digit : isAsciiDigit c = true := by simpa using count.digit
  rw [List.cons_append] at length literal ⊢
  refine step_leaf ?_ ?_ ?_ ?_
  · rintro rfl
    exact absurd digit (by decide)
  · exact isGap_eq_false_of_isAsciiDigit digit
  · apply bracket?_eq_none
    have brackets : (['(', '[', '\x7b', ')', ']', '\x7d'].all fun c => !isAsciiDigit c) = true := by
      decide
    intro member
    simpa [digit] using List.all_eq_true.mp brackets c member
  · unfold leaf?
    rw [literal]
    simp [length]

/-- The marks that types are written with. -/
def typeMarks : List Char := ['!', '&', '*', '+', ',', '-', ':', ';', '<', '=', '>', '?']

theorem step_mark {c : Char} (mark : c ∈ typeMarks) (more : List Char) (pos : Pos) :
    step (c :: more) pos = ([.token (.punct c (atPunct more) pos (pos.next c))], 1) := by
  -- The marks are few, so what is needed of each is computed.
  have facts : (typeMarks.all fun c => decide (c ≠ '/' ∧ isGap c = false ∧
      c ∉ ['(', '[', '\x7b', ')', ']', '\x7d'] ∧ isPunct c = true ∧ isAsciiDigit c = false ∧
      c ∉ ['"', 'r', 'b', 'c', '\''])) = true := by decide
  obtain ⟨slash, solid, plain, punct, digit, quote⟩ :=
    of_decide_eq_true (List.all_eq_true.mp facts c mark)
  simp only [List.mem_cons, List.not_mem_nil, or_false, not_or] at quote
  have literal : Literal.after? (c :: more) = none := by
    unfold Literal.after?
    rw [Literal.afterNumber_eq_none digit]
    split <;> simp_all
  refine step_leaf slash solid (bracket?_eq_none plain) ?_
  unfold leaf?
  rw [literal]
  dsimp only
  have here : atPunct (c :: more) = true := by
    unfold atPunct
    split <;> simp_all
  split
  next same => simp_all
  next same =>
    cases same
    rw [if_pos here]
  next same => cases same

theorem step_space (more : List Char) (pos : Pos) : step (' ' :: more) pos = ([], 1) := by
  simp [step, comment?_eq_none, isGap, isBlank, isAscii]

theorem step_bracket {c : Char} {lexeme : Pos → Lexeme} (found : bracket? c = some lexeme)
    (more : List Char) (pos : Pos) : step (c :: more) pos = ([lexeme pos], 1) := by
  have facts : (['(', '[', '\x7b', ')', ']', '\x7d'].all fun c => decide (c ≠ '/' ∧ isGap c = false)) =
      true := by decide
  have member : c ∈ ['(', '[', '\x7b', ')', ']', '\x7d'] := by
    by_contra other
    rw [bracket?_eq_none other] at found
    cases found
  obtain ⟨slash, solid⟩ := of_decide_eq_true (List.all_eq_true.mp facts c member)
  simp [step, comment?_eq_none slash, solid, found]

end Lexeme

/-! ### Layout -/

namespace Token

/-- A token as it was read, beside the one that was meant: it may stand anywhere, and a mark may
stand closer to the next one than was asked. -/
inductive Like : Token → Token → Prop where
  | word (word : Word) (start stop start' stop' : Pos) :
      Like (.word word start stop) (.word word start' stop')
  | punct {joint joint' : Bool} (closer : joint' = true → joint = true) (mark : Char)
      (start stop start' stop' : Pos) :
      Like (.punct mark joint start stop) (.punct mark joint' start' stop')
  | lifetime (name : String) (start stop start' stop' : Pos) :
      Like (.lifetime name start stop) (.lifetime name start' stop')
  | literal (text : String) (start stop start' stop' : Pos) :
      Like (.literal text start stop) (.literal text start' stop')
  | group {inside inside' : List Token} (within : List.Forall₂ Like inside inside')
      (delimiter : Delimiter) (start closing stop start' closing' stop' : Pos) :
      Like (.group delimiter inside start closing stop) (.group delimiter inside' start' closing' stop')

/-- Tokens that go on as long as characters of a word follow. -/
def runsOn : Token → Bool
  | .word .. | .lifetime .. | .literal .. => true
  | .punct .. | .group .. => false

/-- What follows does not run into the last of the tokens. -/
def Fits (tokens : List Token) (more : List Char) : Prop :=
  ∀ last ∈ tokens.getLast?, last.runsOn = true → ClearAhead more

/-- A text is cut into tokens like these, whatever follows that does not run into them. No byte
order mark is at its head. -/
structure Lays (chars : List Char) (tokens : List Token) : Prop where
  unmarked : chars.head? ≠ some '\ufeff'
  cuts : ∀ more, Fits tokens more → ∀ fuel pos, (chars ++ more).length < fuel →
    ∃ lexemes found fuel' pos',
      Lexeme.scan fuel (chars ++ more) pos = lexemes ++ Lexeme.scan fuel' more pos' ∧
      more.length < fuel' ∧ List.Forall₂ Like found tokens ∧
      ∀ frames inside rest, nest frames inside (lexemes ++ rest) =
        nest frames (found.reverse ++ inside) rest

theorem scan_of_step {chars more : List Char} {lexemes : List Lexeme} {fuel : Nat} {pos : Pos}
    (some : chars ≠ []) (stepped : Lexeme.step (chars ++ more) pos = (lexemes, chars.length))
    (enough : (chars ++ more).length < fuel) :
    Lexeme.scan fuel (chars ++ more) pos =
        lexemes ++ Lexeme.scan (fuel - 1) more (pos.past chars) ∧ more.length < fuel - 1 := by
  obtain ⟨fuel, rfl⟩ : ∃ less, fuel = less + 1 := ⟨fuel - 1, by omega⟩
  have longer := List.length_pos_iff.mpr some
  rw [List.length_append] at enough
  constructor
  · rw [Lexeme.scan, if_neg (by simp [some]), stepped]
    simp
  · omega

theorem scan_of_char {c : Char} {more : List Char} {lexemes : List Lexeme} {fuel : Nat} {pos : Pos}
    (stepped : Lexeme.step (c :: more) pos = (lexemes, 1)) (enough : (c :: more).length < fuel) :
    Lexeme.scan fuel (c :: more) pos = lexemes ++ Lexeme.scan (fuel - 1) more (pos.past [c]) ∧
      more.length < fuel - 1 :=
  scan_of_step (List.cons_ne_nil c []) stepped enough

namespace Lays

variable {chars chars' : List Char} {tokens tokens' : List Token}

theorem nil : Lays [] [] :=
  ⟨by simp, fun _ _ fuel pos enough => ⟨[], [], fuel, pos, rfl, enough, .nil, fun _ _ _ => rfl⟩⟩

theorem space : Lays [' '] [] := by
  refine ⟨by simp, fun more _ fuel pos enough => ?_⟩
  obtain ⟨scanned, left⟩ := scan_of_char (Lexeme.step_space more pos) enough
  exact ⟨[], [], _, _, scanned, left, .nil, fun _ _ _ => rfl⟩

/-- Texts may stand side by side where the second does not run into the first. -/
theorem append (first : Lays chars tokens) (second : Lays chars' tokens')
    (apart : ∀ last ∈ tokens.getLast?, last.runsOn = true → chars' ≠ [] ∧ ClearAhead chars') :
    Lays (chars ++ chars') (tokens ++ tokens') := by
  constructor
  · cases chars with
    | nil => exact second.unmarked
    | cons c rest => exact first.unmarked
  intro more fits fuel pos enough
  -- Behind the first text comes the second, which has a character of its own there.
  have fitsFirst : Fits tokens (chars' ++ more) := by
    intro last member runs
    obtain ⟨some, clear⟩ := apart last member runs
    obtain ⟨c, rest, rfl⟩ := List.exists_cons_of_ne_nil some
    exact clear_cons (clear c rfl)
  have fitsSecond : Fits tokens' more := by
    intro last member runs
    exact fits last (by rw [List.getLast?_append, Option.mem_def.mp member]; rfl) runs
  rw [List.append_assoc] at enough ⊢
  obtain ⟨lexemes, found, fuel, pos, scanned, left, like, nested⟩ := first.cuts _ fitsFirst _ pos enough
  obtain ⟨lexemes', found', fuel', pos', scanned', left', like', nested'⟩ :=
    second.cuts _ fitsSecond _ pos left
  refine ⟨lexemes ++ lexemes', found ++ found', fuel', pos', ?_, left',
    List.rel_append like like', ?_⟩
  · rw [scanned, scanned', List.append_assoc]
  · intro frames inside rest
    rw [List.append_assoc, nested, nested', List.reverse_append, List.append_assoc]

/-- A text that is one token. -/
theorem leaf {token : Token} (head : ∃ c ∈ chars.head?, c ≠ '\ufeff')
    (cut : ∀ more pos, Fits [token] more → ∃ found, Like found token ∧
      Lexeme.step (chars ++ more) pos = ([.token found], chars.length)) : Lays chars [token] := by
  obtain ⟨c, begins, visible⟩ := head
  refine ⟨by simpa [Option.mem_def.mp begins] using visible, fun more fits fuel pos enough => ?_⟩
  obtain ⟨found, like, stepped⟩ := cut more pos fits
  obtain ⟨scanned, left⟩ := scan_of_step (List.ne_nil_of_mem (List.mem_of_head? begins)) stepped enough
  exact ⟨_, [found], _, _, scanned, left, .cons like .nil, fun _ _ _ => by simp [nest]⟩

theorem word {word : Word} (lexed : word.Lexed) (start stop : Pos) :
    Lays word.text.toList [.word word start stop] := by
  refine leaf ?_ fun more pos fits => ?_
  · obtain ⟨c, rest, text, begins⟩ := lexed.start
    rw [Word.toList_text, text]
    cases word.raw with
    | true => exact ⟨'r', rfl, by decide⟩
    | false =>
      refine ⟨c, rfl, ?_⟩
      rintro rfl
      exact (visible_of_isIdentStart begins).2 ⟨(0xFEFF, 0xFEFF), by decide, by decide⟩
  · have stepped := Lexeme.step_word lexed (fits _ rfl rfl) pos
    exact ⟨_, .word _ _ _ _ _, stepped⟩

theorem lifetime {word : Word} (lexed : word.Lexed) (start stop : Pos) :
    Lays ("'" ++ word.text).toList [.lifetime ("'" ++ word.text) start stop] := by
  refine leaf ⟨'\'', by simp, by decide⟩ fun more pos fits => ?_
  have stepped := Lexeme.step_lifetime lexed (fits _ rfl rfl) pos
  exact ⟨_, .lifetime _ _ _ _ _, by simpa using stepped⟩

theorem count {text : String} (count : Literal.IsCount text.toList) (start stop : Pos) :
    Lays text.toList [.literal text start stop] := by
  refine leaf ?_ fun more pos fits => ?_
  · obtain ⟨c, begins, digit⟩ := (Option.any_eq_true _ _).mp count.digit
    refine ⟨c, begins, ?_⟩
    rintro rfl
    exact absurd digit (by decide)
  · have stepped := Lexeme.step_count count (fits _ rfl rfl) pos
    exact ⟨_, .literal _ _ _ _ _, by simpa using stepped⟩

theorem mark {c : Char} (mark : c ∈ Lexeme.typeMarks) (start stop : Pos) :
    Lays [c] [.punct c false start stop] := by
  refine leaf ⟨c, rfl, ?_⟩ fun more pos _ => ?_
  · rintro rfl
    exact absurd mark (by decide)
  · exact ⟨_, .punct (by simp) _ _ _ _ _, Lexeme.step_mark mark more pos⟩

/-- Two marks that belong together. -/
theorem marks {c d : Char} (first : c ∈ Lexeme.typeMarks) (second : d ∈ Lexeme.typeMarks)
    (start stop start' stop' : Pos) :
    Lays [c, d] [.punct c true start stop, .punct d false start' stop'] := by
  refine ⟨?_, fun more fits fuel pos enough => ?_⟩
  · exact (mark first start stop).unmarked
  obtain ⟨scanned, left⟩ := scan_of_char (Lexeme.step_mark first (d :: more) pos) enough
  obtain ⟨lexemes, found, fuel', pos', scanned', left', like, nested⟩ :=
    (mark second start' stop').cuts more (by simp [Fits, runsOn]) _ _ left
  -- The second mark follows directly, which makes the first one joint.
  have joint : Lexeme.atPunct (d :: more) = true := by
    have facts : (Lexeme.typeMarks.all fun d => decide (d ≠ '/' ∧ Lexeme.isPunct d = true)) = true := by
      decide
    obtain ⟨slash, punct⟩ := of_decide_eq_true (List.all_eq_true.mp facts d second)
    unfold Lexeme.atPunct
    split <;> simp_all
  rw [joint] at scanned
  refine ⟨.token (.punct c true pos (pos.next c)) :: lexemes, .punct c true pos (pos.next c) :: found,
    fuel', pos', scanned.trans (congrArg _ scanned'), left', .cons (.punct id _ _ _ _ _) like, ?_⟩
  intro frames inside rest
  rw [List.cons_append, nest, nested]
  simp

/-- A text between brackets. -/
theorem group {opening closing : Char} {delimiter : Delimiter} (inner : Lays chars tokens)
    (opens : Lexeme.bracket? opening = some (.opening delimiter))
    (closes : Lexeme.bracket? closing = some (.closing delimiter)) (clear : isClear closing = true)
    (start middle stop : Pos) :
    Lays (opening :: (chars ++ [closing])) [.group delimiter tokens start middle stop] := by
  refine ⟨?_, fun more fits fuel pos enough => ?_⟩
  · rintro ⟨⟩
    cases opens
  have split : opening :: (chars ++ [closing]) ++ more = opening :: (chars ++ closing :: more) := by
    simp
  rw [split] at enough ⊢
  -- Both brackets are cut off by themselves, and what is inside lies between them.
  obtain ⟨scanned, left⟩ := scan_of_char (Lexeme.step_bracket opens _ pos) enough
  obtain ⟨lexemes, found, fuel, pos', scanned', left', like, nested⟩ :=
    inner.cuts (closing :: more) (fun _ _ _ => clear_cons clear) _ _ left
  obtain ⟨scanned'', left''⟩ := scan_of_char (Lexeme.step_bracket closes more pos') left'
  refine ⟨.opening delimiter pos :: (lexemes ++ [.closing delimiter pos']), [_], _,
    pos'.past [closing], ?_, left'',
    .cons (.group like delimiter pos pos' ⟨pos'.line, pos'.column + 1⟩ _ _ _) .nil, ?_⟩
  · rw [scanned, scanned', scanned'']
    simp
  · intro frames inside rest
    rw [List.cons_append, nest, List.append_assoc, nested]
    simp [nest]

end Lays

/-- A text that lays out tokens is cut into tokens like them. -/
theorem lex_of_lays {text : String} {tokens : List Token} (lays : Lays text.toList tokens) :
    ∃ found, lex text = .ok found ∧ List.Forall₂ Like found tokens := by
  -- No byte order mark is cut off at the head.
  have whole : lex text = nest [] [] (Lexeme.scan (text.toList.length + 1) text.toList .first) := by
    unfold lex
    dsimp only
    split
    next rest marked => exact absurd (by simp [marked]) lays.unmarked
    next => rfl
  obtain ⟨lexemes, found, fuel, pos, scanned, _, like, nested⟩ :=
    lays.cuts [] (fun _ _ _ => clear_nil) (text.toList.length + 1) .first (by simp)
  have ended : Lexeme.scan fuel [] pos = [] := by cases fuel <;> rfl
  rw [List.append_nil, ended, List.append_nil] at scanned
  refine ⟨found, ?_, like⟩
  rw [whole, scanned, ← List.append_nil lexemes, nested]
  simp [nest]

end Token

end StructInventory
