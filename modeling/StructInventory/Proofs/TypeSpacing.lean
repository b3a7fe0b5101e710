import StructInventory.Proofs.RespacedText
import StructInventory.Proofs.TypeGrammar

/-!
Respaced texts. Tokens that a type is spelled with can be told apart in their printed text, with or
without the spaces that respacing drops.
-/

namespace StructInventory

/-! ### Characters beside a space -/

namespace Text

/-- A text that no space begins and no space ends. -/
structure Solid (chars : List Char) : Prop where
  nonempty : chars ≠ []
  head : ∀ c ∈ chars.head?, c ≠ ' '
  last : ∀ c ∈ chars.getLast?, c ≠ ' '

theorem Solid.exists_last {chars : List Char} (solid : Solid chars) :
    ∃ front c, chars = front ++ [c] := by
  rcases List.eq_nil_or_concat chars with rfl | ⟨front, c, same⟩
  · exact absurd rfl solid.nonempty
  · exact ⟨front, c, by rw [same, List.concat_eq_append]⟩

theorem isClear_of_hugs {c : Char} (hugs : hugsPrevious c = true ∨ hugsWord c = true) :
    isClear c = true := by
  simp only [hugsPrevious, hugsWord, Bool.or_eq_true, decide_eq_true_eq, or_assoc] at hugs
  rcases hugs with rfl | rfl | rfl | rfl | rfl | rfl | rfl | rfl <;> decide

theorem hugsNext_eq_false {c : Char} (continues : isIdentContinue c = true) : hugsNext c = false := by
  refine Bool.eq_false_iff.mpr fun hugs => ?_
  simp only [hugsNext, Bool.or_eq_true, decide_eq_true_eq] at hugs
  rcases hugs with (((rfl | rfl) | rfl) | rfl) | rfl <;> exact absurd continues (by decide)

end Text

open Text

namespace Token

/-! ### The tokens of types -/

/-- Tokens that types are spelled with. Marks stand alone or belong together in twos. -/
inductive Sound : List Token → Prop where
  | nil : Sound []
  | word {word : Word} {start stop : Pos} {rest : List Token} (lexed : word.Lexed)
      (later : Sound rest) : Sound (.word word start stop :: rest)
  | lifetime {word : Word} {start stop : Pos} {rest : List Token} (lexed : word.Lexed)
      (later : Sound rest) : Sound (.lifetime ("'" ++ word.text) start stop :: rest)
  | count {text : String} {start stop : Pos} {rest : List Token}
      (count : Literal.IsCount text.toList) (later : Sound rest) :
      Sound (.literal text start stop :: rest)
  | mark {c : Char} {start stop : Pos} {rest : List Token} (mark : c ∈ Lexeme.typeMarks)
      (later : Sound rest) : Sound (.punct c false start stop :: rest)
  | marks {c d : Char} {start stop start' stop' : Pos} {rest : List Token}
      (first : c ∈ Lexeme.typeMarks) (second : d ∈ Lexeme.typeMarks) (later : Sound rest) :
      Sound (.punct c true start stop :: .punct d false start' stop' :: rest)
  | group {delimiter : Delimiter} {inside rest : List Token} {start closing stop : Pos}
      (unbraced : delimiter ≠ .brace) (inner : Sound inside) (later : Sound rest) :
      Sound (.group delimiter inside start closing stop :: rest)

theorem Sound.append {tokens more : List Token} (sound : Sound tokens) (later : Sound more) :
    Sound (tokens ++ more) := by
  induction sound with
  | nil => exact later
  | word lexed _ ih => exact .word lexed ih
  | lifetime lexed _ ih => exact .lifetime lexed ih
  | count count _ ih => exact .count count ih
  | mark mark _ ih => exact .mark mark ih
  | marks first second _ ih => exact .marks first second ih
  | group unbraced inner _ _ ih => exact .group unbraced inner ih

/-- A text of tokens that can be respaced, and that others may follow behind a space. -/
structure Piece (chars : List Char) (tokens : List Token) : Prop where
  filled : tokens ≠ []
  solid : Solid chars
  lays : ∀ previous, Lays (respaceFrom previous chars) tokens
  ends : ∀ last ∈ tokens.getLast?, last.runsOn = true → ∀ c ∈ chars.getLast?,
    isIdentContinue c = true

/-- A token whose text has no spaces. -/
theorem piece_of_not_mem {chars : List Char} {token : Token} (some : chars ≠ [])
    (visible : ' ' ∉ chars) (lays : Lays chars [token])
    (ends : token.runsOn = true → ∀ c ∈ chars.getLast?, isIdentContinue c = true) :
    Piece chars [token] where
  filled := by simp
  solid :=
    { nonempty := some
      head := fun c begins same => visible (same ▸ List.mem_of_head? begins)
      last := fun c ends same => visible (same ▸ List.mem_of_getLast? ends) }
  lays previous := by rwa [respaceFrom_of_not_mem visible]
  ends := by simpa using ends

/-- Two pieces with a space between them. -/
theorem Piece.append {chars chars' : List Char} {tokens tokens' : List Token}
    (first : Piece chars tokens) (second : Piece chars' tokens') :
    Piece (chars ++ ' ' :: chars') (tokens ++ tokens') := by
  obtain ⟨front, c, rfl⟩ := first.solid.exists_last
  have visible : c ≠ ' ' := first.solid.last c (by simp)
  constructor
  · simp [first.filled]
  · refine ⟨by simp, ?_, ?_⟩
    · have head := first.solid.head
      cases front <;> simpa using head
    · have last := second.solid.last
      obtain ⟨d, rest, rfl⟩ := List.exists_cons_of_ne_nil second.solid.nonempty
      simpa using last
  · intro previous
    have split : respaceFrom previous (front ++ [c] ++ ' ' :: chars') =
        respaceFrom previous (front ++ [c]) ++ respaceFrom (some c) (' ' :: chars') := by
      rw [List.append_assoc]
      exact respaceFrom_append visible _ previous
    rw [split]
    -- The space between the two is dropped or kept, and the tokens stay apart either way.
    by_cases dropped : dropsSpace (some c) chars'.head? = true
    · have closed : respaceFrom (some c) (' ' :: chars') = respaceFrom (some c) chars' := by
        simp [respaceFrom, dropped]
      rw [closed]
      refine (first.lays previous).append (second.lays (some c)) fun last isLast runs => ?_
      -- A space behind a word is dropped only before a character that ends the word.
      have continues := first.ends last isLast runs c (by simp)
      have begins := head?_respaceFrom second.solid.head (some c)
      obtain ⟨d, rest, rfl⟩ := List.exists_cons_of_ne_nil second.solid.nonempty
      have hugs : hugsPrevious d = true ∨ hugsWord d = true := by
        simp only [dropsSpace, List.head?_cons, Option.any_some, hugsNext_eq_false continues,
          Bool.false_or, Bool.or_eq_true, Bool.and_eq_true] at dropped
        exact dropped.imp id And.right
      constructor
      · intro empty
        rw [empty] at begins
        cases begins
      · rw [ClearAhead, begins]
        simpa using isClear_of_hugs hugs
    · have kept : respaceFrom (some c) (' ' :: chars') = [' '] ++ respaceFrom (some ' ') chars' := by
        simp [respaceFrom, dropped]
      rw [kept]
      have behind : Lays ([' '] ++ respaceFrom (some ' ') chars') tokens' :=
        Lays.space.append (second.lays (some ' ')) (by simp)
      exact (first.lays previous).append behind fun _ _ _ => ⟨by simp, clear_cons (by decide)⟩
  · have ends := second.ends
    rw [List.getLast?_append_of_ne_nil _ second.filled]
    obtain ⟨d, rest, rfl⟩ := List.exists_cons_of_ne_nil second.solid.nonempty
    simpa using ends

/-- What is spelled with identifier characters ends with one and has no space. -/
theorem of_spelled {text : List Char} (spelled : text.all isIdentContinue = true) :
    ' ' ∉ text ∧ ∀ c ∈ text.getLast?, isIdentContinue c = true := by
  rw [List.all_eq_true] at spelled
  constructor
  · intro space
    exact absurd (spelled ' ' space) (by decide)
  · exact fun c last => spelled c (List.mem_of_getLast? last)

theorem ends_word (word : Word) :
    word.text.toList ≠ [] ∧ ' ' ∉ word.text.toList ∧
      ∀ c ∈ word.text.toList.getLast?, isIdentContinue c = true := by
  obtain ⟨visible, ends⟩ := of_spelled word.name.spelled
  have some := word.name.nonempty
  rw [Word.toList_text]
  refine ⟨by simp [some], ?_, ?_⟩
  · cases word.raw <;> simp [visible]
  · rwa [List.getLast?_append_of_ne_nil _ some]

theorem piece_word {word : Word} (lexed : word.Lexed) (start stop : Pos) :
    Piece word.text.toList [.word word start stop] := by
  obtain ⟨some, visible, ends⟩ := ends_word word
  exact piece_of_not_mem some visible (Lays.word lexed start stop) fun _ => ends

theorem piece_lifetime {word : Word} (lexed : word.Lexed) (start stop : Pos) :
    Piece ("'" ++ word.text).toList [.lifetime ("'" ++ word.text) start stop] := by
  obtain ⟨some, visible, ends⟩ := ends_word word
  refine piece_of_not_mem (by simp) ?_ (Lays.lifetime lexed start stop) fun _ => ?_
  · simp [visible]
  · rw [String.toList_append, List.getLast?_append_of_ne_nil _ some]
    exact ends

theorem piece_count {text : String} (count : Literal.IsCount text.toList) (start stop : Pos) :
    Piece text.toList [.literal text start stop] := by
  obtain ⟨visible, ends⟩ := of_spelled count.spelled
  refine piece_of_not_mem ?_ visible (Lays.count count start stop) fun _ => ends
  intro empty
  have digit := count.digit
  simp [empty] at digit

theorem typeMarks_visible {c : Char} (mark : c ∈ Lexeme.typeMarks) : c ≠ ' ' := by
  rintro rfl
  exact absurd mark (by decide)

theorem piece_mark {c : Char} (mark : c ∈ Lexeme.typeMarks) (start stop : Pos) :
    Piece [c] [.punct c false start stop] := by
  have visible := typeMarks_visible mark
  exact piece_of_not_mem (by simp) (by simpa using visible.symm) (Lays.mark mark start stop)
    (by simp [runsOn])

theorem piece_marks {c d : Char} (first : c ∈ Lexeme.typeMarks) (second : d ∈ Lexeme.typeMarks)
    (start stop start' stop' : Pos) :
    Piece [c, d] [.punct c true start stop, .punct d false start' stop'] := by
  have visible := typeMarks_visible first
  have visible' := typeMarks_visible second
  have none : ' ' ∉ [c, d] := by simp [visible.symm, visible'.symm]
  refine ⟨by simp, ⟨by simp, by simpa using visible, by simpa using visible'⟩, fun previous => ?_, ?_⟩
  · rw [respaceFrom_of_not_mem none]
    exact Lays.marks first second start stop start' stop'
  · simp [runsOn]

theorem Piece.group {delimiter : Delimiter} {inside : List Token} (unbraced : delimiter ≠ .brace)
    (inner : inside = [] ∨ Piece (chars inside) inside) (start closing stop : Pos) :
    Piece (tokenChars (.group delimiter inside start closing stop))
      [.group delimiter inside start closing stop] := by
  obtain ⟨opens, closes, text, bracket, bracket', solid, solid', clear⟩ :
      ∃ opens closes, tokenChars (.group delimiter inside start closing stop) =
          opens :: (chars inside ++ [closes]) ∧
        Lexeme.bracket? opens = some (.opening delimiter) ∧
        Lexeme.bracket? closes = some (.closing delimiter) ∧ opens ≠ ' ' ∧ closes ≠ ' ' ∧
        isClear closes = true := by
    cases delimiter with
    | paren => exact ⟨'(', ')', by simp [tokenChars, opening, Token.closing, closingSpace], rfl, rfl,
        by decide, by decide, by decide⟩
    | bracket => exact ⟨'[', ']', by simp [tokenChars, opening, Token.closing, closingSpace], rfl, rfl,
        by decide, by decide, by decide⟩
    | brace => exact absurd rfl unbraced
  rw [text]
  refine ⟨by simp, ⟨by simp, by simpa using solid, ?_⟩, fun previous => ?_, by simp [runsOn]⟩
  · rw [← List.cons_append, List.getLast?_append_of_ne_nil _ (by simp)]
    simpa using solid'
  · -- Brackets are no spaces, so what is inside is respaced by itself.
    have within : respaceFrom previous (opens :: (chars inside ++ [closes])) =
        opens :: (respaceFrom (some opens) (chars inside) ++ [closes]) := by
      simp only [respaceFrom, solid, decide_false, Bool.false_and, Bool.false_eq_true, if_false]
      rcases inner with rfl | piece
      · simp [chars, respaceFrom, solid']
      · obtain ⟨front, c, same⟩ := piece.solid.exists_last
        have visible : c ≠ ' ' := piece.solid.last c (by simp [same])
        rw [same, List.append_assoc, List.singleton_append, respaceFrom_append visible]
        simp [respaceFrom, solid']
    rw [within]
    refine Lays.group ?_ bracket bracket' clear start closing stop
    rcases inner with rfl | piece
    · exact Lays.nil
    · exact piece.lays _

/-- Tokens behind a piece that a space separates from them, if there are any. -/
theorem Piece.cons {own gap : List Char} {tokens rest : List Token} (piece : Piece own tokens)
    (gapped : gap = if rest.isEmpty then [] else [' '])
    (later : rest = [] ∨ Piece (chars rest) rest) :
    Piece (own ++ gap ++ chars rest) (tokens ++ rest) := by
  rcases later with rfl | others
  · simpa [gapped, chars] using piece
  · have both := piece.append others
    have some : rest.isEmpty = false := by simpa using others.filled
    simpa [gapped, some] using both

theorem Sound.piece {tokens : List Token} (sound : Sound tokens) :
    tokens = [] ∨ Piece (chars tokens) tokens := by
  induction sound with
  | nil => exact .inl rfl
  | @word word start stop rest lexed _ ih =>
    exact .inr ((piece_word lexed start stop).cons (by cases rest <;> rfl) ih)
  | @lifetime word start stop rest lexed _ ih =>
    exact .inr ((piece_lifetime lexed start stop).cons (by cases rest <;> rfl) ih)
  | @count text start stop rest count _ ih =>
    exact .inr ((piece_count count start stop).cons (by cases rest <;> rfl) ih)
  | @mark c start stop rest mark _ ih =>
    exact .inr ((piece_mark mark start stop).cons (by cases rest <;> rfl) ih)
  | @marks c d start stop start' stop' rest first second _ ih =>
    -- Two marks that belong together are printed without a space between them.
    have both : Piece ([c, d] ++ gapAfter (.punct d false start' stop') rest ++ chars rest)
        ([.punct c true start stop, .punct d false start' stop'] ++ rest) :=
      (piece_marks first second start stop start' stop').cons (by cases rest <;> rfl) ih
    exact .inr (by simpa [chars, tokenChars, gapAfter] using both)
  | @group delimiter inside rest start closing stop unbraced _ _ inner ih =>
    exact .inr ((Piece.group unbraced inner start closing stop).cons (by cases rest <;> rfl) ih)

/-- The printed tokens can be told apart, also when they are respaced. -/
theorem Sound.lays_respace {tokens : List Token} (sound : Sound tokens) :
    Lays (respace (print tokens)).toList tokens := by
  have text : (respace (print tokens)).toList = respaceFrom none (chars tokens) := by
    simp [respace, print]
  rw [text]
  rcases sound.piece with rfl | piece
  · exact Lays.nil
  · exact piece.lays none

end Token

/-! ### The tokens that spell types -/

namespace Token

theorem sound_named {word : Word} {rest : List Token} (lexed : word.Lexed) (later : Sound rest) :
    Sound (Grammar.named word :: rest) := .word lexed later

theorem sound_mark {c : Char} {rest : List Token} (mark : c ∈ Lexeme.typeMarks) (later : Sound rest) :
    Sound (Grammar.mark c :: rest) := .mark mark later

theorem sound_colons {rest : List Token} (later : Sound rest) : Sound (Grammar.colons ++ rest) :=
  .marks (by decide) (by decide) later

theorem sound_stem {stem : List Word} {rest : List Token} (lexed : ∀ word ∈ stem, word.Lexed)
    (later : Sound rest) : Sound (Grammar.stemTokens stem ++ rest) := by
  induction stem with
  | nil => exact later
  | cons word stem ih =>
    rw [List.forall_mem_cons] at lexed
    have behind := sound_colons (ih lexed.2)
    rw [← List.append_assoc] at behind
    exact sound_named lexed.1 behind

theorem sound_lifetime {name : String} {rest : List Token} (isLifetime : IsLifetime name)
    (later : Sound rest) : Sound (lifetimeToken name :: rest) := by
  obtain ⟨word, lexed, rfl⟩ := isLifetime
  exact .lifetime lexed later

theorem sound_group {delimiter : Delimiter} {inside rest : List Token} (unbraced : delimiter ≠ .brace)
    (inner : Sound inside) (later : Sound rest) : Sound (groupToken delimiter inside :: rest) :=
  .group unbraced inner later

end Token

open Token

theorem IsPath.sound {leading : Bool} {stem : List Word} {last : Word} {arguments : List TypeArgument}
    (isPath : IsPath leading stem last arguments) :
    Sound (Grammar.pathTokens leading stem last) := by
  have names := sound_stem isPath.stemLexed (sound_named isPath.lastLexed .nil)
  cases leading with
  | true => exact sound_colons names
  | false => exact names

theorem underscore_lexed : Word.underscore.Lexed := ⟨⟨'_', [], rfl, by decide⟩, by decide⟩
theorem mutWord_lexed : mutWord.Lexed := ⟨⟨'m', _, rfl, by decide⟩, by decide⟩
theorem constWord_lexed : constWord.Lexed := ⟨⟨'c', _, rfl, by decide⟩, by decide⟩
theorem dynWord_lexed : dynWord.Lexed := ⟨⟨'d', _, rfl, by decide⟩, by decide⟩
theorem implWord_lexed : implWord.Lexed := ⟨⟨'i', _, rfl, by decide⟩, by decide⟩
theorem unsafeWord_lexed : unsafeWord.Lexed := ⟨⟨'u', _, rfl, by decide⟩, by decide⟩
theorem fnWord_lexed : fnWord.Lexed := ⟨⟨'f', _, rfl, by decide⟩, by decide⟩
theorem forWord_lexed : forWord.Lexed := ⟨⟨'f', _, rfl, by decide⟩, by decide⟩

theorem IsLength.sound {length : Token} (isLength : IsLength length) : Sound [length] := by
  cases isLength with
  | count count => exact .count count .nil
  | name lexed => exact sound_named lexed .nil

theorem sound_optionalWord {word : Word} (lexed : word.Lexed) (written : Bool) :
    Sound (optionalWord written word) := by
  cases written with
  | true => exact sound_named lexed .nil
  | false => exact .nil

theorem sound_lifetimeTokens {names : List String} (lifetimes : ∀ name ∈ names, IsLifetime name) :
    Sound (lifetimeTokens names) := by
  match names with
  | [] => exact .nil
  | [name] => exact sound_lifetime (lifetimes name (by simp)) .nil
  | name :: next :: rest =>
    rw [List.forall_mem_cons] at lifetimes
    exact sound_lifetime lifetimes.1 (sound_mark (by decide) (sound_lifetimeTokens lifetimes.2))

theorem sound_binder {binds : Option (List String)}
    (lifetimes : ∀ names ∈ binds, ∀ name ∈ names, IsLifetime name) : Sound (binder binds) := by
  cases binds with
  | none => exact .nil
  | some names =>
    have listed := sound_lifetimeTokens (lifetimes names rfl)
    exact sound_named forWord_lexed (sound_mark (by decide) (listed.append (sound_mark (by decide) .nil)))

theorem BoundHead.WellMade.sound {head : BoundHead} (wellMade : head.WellMade) : Sound head.tokens := by
  cases head with
  | none => exact .nil
  | optional => exact sound_mark (by decide) .nil
  | binds names =>
    have lifetimes : ∀ listed ∈ some names, ∀ name ∈ listed, IsLifetime name := by
      rintro _ ⟨⟩
      exact wellMade
    exact sound_binder lifetimes

/-- Whatever spells a part of a type can be told apart in its text. -/
theorem Spells.sound {orderly : Bool} {tokens : List Token} {part : Part}
    (spells : Spells orderly tokens part) : Sound tokens := by
  induction spells with
  | path isPath _ _ suffix => exact isPath.sound.append suffix
  | @reference _ _ mutable lifetime target tokens isLifetime _ inner =>
    refine sound_mark (by decide) (Sound.append ?_ ((sound_optionalWord mutWord_lexed _).append inner))
    cases lifetime with
    | none => exact .nil
    | some name => exact sound_lifetime (isLifetime name rfl) .nil
  | @pointer _ _ mutable _ _ _ inner =>
    refine sound_mark (by decide) (sound_named ?_ inner)
    cases mutable with
    | true => exact mutWord_lexed
    | false => exact constWord_lexed
  | slice _ inner => exact sound_group (by decide) inner .nil
  | array _ isLength inner =>
    exact sound_group (by decide) (inner.append (sound_mark (by decide) isLength.sound)) .nil
  | unit => exact sound_group (by decide) .nil .nil
  | tuple _ _ inner others =>
    exact sound_group (by decide) (inner.append (sound_mark (by decide) others)) .nil
  | paren _ inner => exact sound_group (by decide) inner .nil
  | never => exact sound_mark (by decide) .nil
  | inferred => exact sound_named underscore_lexed .nil
  | dyn _ inner => exact sound_named dynWord_lexed inner
  | impl _ inner => exact sound_named implWord_lexed inner
  | function lifetimes _ inner =>
    refine (sound_binder lifetimes).append ?_
    exact (sound_optionalWord unsafeWord_lexed _).append (sound_named fnWord_lexed inner)
  | noTypes => exact .nil
  | lastType _ inner => exact inner
  | moreTypes _ _ inner others => exact inner.append (sound_mark (by decide) others)
  | lifetime isLifetime => exact sound_lifetime isLifetime .nil
  | typeArgument _ inner => exact inner
  | number count => exact .count count .nil
  | item lexed _ _ inner => exact sound_named lexed (sound_mark (by decide) inner)
  | lastArgument _ inner => exact inner
  | moreArguments _ _ inner others => exact inner.append (sound_mark (by decide) others)
  | noSuffix => exact .nil
  | brackets _ _ inner =>
    exact sound_mark (by decide) (inner.append (sound_mark (by decide) .nil))
  | returnsNothing _ inner => exact sound_group (by decide) inner .nil
  | returns _ _ inner output =>
    exact sound_group (by decide) inner (.marks (by decide) (by decide) output)
  | outlives isLifetime => exact sound_lifetime isLifetime .nil
  | trait isHead isPath _ suffix => exact isHead.sound.append (isPath.sound.append suffix)
  | callable isHead isPath _ call => exact isHead.sound.append (isPath.sound.append call)
  | lastBound _ inner => exact inner
  | moreBounds _ _ inner others => exact inner.append (sound_mark (by decide) others)

end StructInventory
