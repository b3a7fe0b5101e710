import StructInventory.Comment.Piece
import StructInventory.Proofs.CharClass

/-!
Lexical elements, as far as comments depend on them, and what the cutting of a text makes of each:
a comment is one piece, a literal is one piece of code however much it looks like a comment inside,
and a word is a piece of code for each of its characters.
-/

namespace StructInventory

open Text

/-- What stands within the quotes of a literal: characters other than the quote and the backslash,
and pairs of a backslash and any character. -/
inductive QuotedBody (quote : Char) : List Char → Prop where
  | nil : QuotedBody quote []
  | plain {c : Char} {rest : List Char} (unquoted : c ≠ quote) (unescaped : c ≠ '\\')
      (inside : QuotedBody quote rest) : QuotedBody quote (c :: rest)
  | escape (c : Char) {rest : List Char} (inside : QuotedBody quote rest) :
      QuotedBody quote ('\\' :: c :: rest)

/-- What stands within the quotes of a character literal: a character or an escape. -/
inductive CharBody : List Char → Prop where
  | plain {c : Char} (unquoted : c ≠ '\'') (unescaped : c ≠ '\\') (inLine : c ≠ '\n') : CharBody [c]
  | escape (c : Char) {rest : List Char} (plain : ∀ d ∈ rest, d ≠ '\'' ∧ d ≠ '\\') :
      CharBody ('\\' :: c :: rest)

theorem CharBody.quoted {body : List Char} (inside : CharBody body) :
    QuotedBody '\'' body := by
  cases inside with
  | plain unquoted unescaped _ => exact .plain unquoted unescaped .nil
  | @escape c rest plain =>
    refine .escape c ?_
    induction rest with
    | nil => exact .nil
    | cons d rest ih =>
      obtain ⟨⟨unquoted, unescaped⟩, others⟩ := List.forall_mem_cons.mp plain
      exact .plain unquoted unescaped (ih others)

/-- What stands behind the opening marker of a block comment, up to the closing marker that belongs
to it. Within a block comment every opening marker begins another. -/
inductive BlockBody : List Char → Prop where
  | close : BlockBody ['*', '/']
  | plain {c : Char} {rest : List Char} (unopened : ¬ ['/', '*'] <+: c :: rest)
      (unclosed : ¬ ['*', '/'] <+: c :: rest) (inside : BlockBody rest) : BlockBody (c :: rest)
  | nested {inner rest : List Char} (inside : BlockBody inner) (after : BlockBody rest) :
      BlockBody ('/' :: '*' :: (inner ++ rest))

/-- The letter before the quote of a string. -/
inductive StringLetter where
  | none
  | b
  | c
  deriving DecidableEq, Repr

def StringLetter.chars : StringLetter → List Char
  | none => []
  | b => ['b']
  | c => ['c']

/-- An element of a source text. -/
inductive LexicalElement where
  | word (chars : List Char) (some : chars ≠ []) (spelled : ∀ c ∈ chars, isWordChar c = true)
  | mark (c : Char) (visible : isBlank c = false) (unspelled : isWordChar c = false)
      (unquoted : c ≠ '"' ∧ c ≠ '\'')
  | string (letter : StringLetter) (body : List Char) (inside : QuotedBody '"' body)
  | rawString (letter : StringLetter) (hashes : Nat) (body : List Char)
      (inside : ¬ '"' :: List.replicate hashes '#' <:+: body)
  | char (byte : Bool) (body : List Char) (inside : CharBody body)
  | lifetime (name : List Char) (some : name ≠ []) (spelled : ∀ c ∈ name, isWordChar c = true)
  | lineComment (body : List Char) (inLine : '\n' ∉ body)
  | blockComment (body : List Char) (inside : BlockBody body)

namespace LexicalElement

def chars : LexicalElement → List Char
  | word chars _ _ => chars
  | mark c _ _ _ => [c]
  | string letter body _ => letter.chars ++ '"' :: (body ++ ['"'])
  | rawString letter hashes body _ =>
    letter.chars ++ 'r' :: (List.replicate hashes '#' ++
      '"' :: (body ++ '"' :: List.replicate hashes '#'))
  | char byte body _ => (if byte then ['b'] else []) ++ '\'' :: (body ++ ['\''])
  | lifetime name _ _ => '\'' :: name
  | lineComment body _ => '/' :: '/' :: body
  | blockComment body _ => '/' :: '*' :: body

end LexicalElement

namespace Piece

/-! ### Progress -/

theorem rawLiteral?_pos {text : List Char} {length : Nat} (found : rawLiteral? text = some length) :
    0 < length := by
  unfold rawLiteral? at found
  split at found
  · dsimp only at found
    split at found
    · cases found
      omega
    · cases found
  · cases found

theorem letteredLiteral?_pos {text : List Char} {length : Nat}
    (found : letteredLiteral? text = some length) : 0 < length := by
  unfold letteredLiteral? at found
  split at found
  · cases found
    omega
  · cases found
    omega
  · cases found
    omega
  · obtain ⟨less, _, rfl⟩ := Option.map_eq_some_iff.mp found
    omega
  · obtain ⟨less, _, rfl⟩ := Option.map_eq_some_iff.mp found
    omega
  · exact rawLiteral?_pos found

/-- Every piece takes a character. -/
theorem measure_pos (inWord : Bool) {text : List Char} (some : text ≠ []) :
    0 < (measure inWord text).2 := by
  unfold measure
  split
  · omega
  · omega
  · omega
  · omega
  · omega
  · split
    · omega
    · split
      · next length found =>
        cases inWord with
        | true => cases found
        | false => exact letteredLiteral?_pos found
      · omega
  · exact absurd rfl some

/-! ### Literals and comments -/

theorem quotedLength_append {quote : Char} {body : List Char} (inside : QuotedBody quote body)
    (unescaped : quote ≠ '\\') (after : List Char) :
    quotedLength quote (body ++ quote :: after) = body.length + 1 := by
  induction inside with
  | nil => simp [quotedLength, unescaped]
  | plain unquoted unescaped' _ ih => simp [quotedLength, unquoted, unescaped', ih]
  | escape c _ ih => simp [quotedLength, ih]

/-- A quote within a raw literal is not followed by as many hash signs as close it: either the body
would hold them, or the closing quote comes first. -/
private theorem not_hashed_within {hashes : Nat} {body after : List Char}
    (inside : ¬ '"' :: List.replicate hashes '#' <:+: '"' :: body) :
    ¬ List.replicate hashes '#' <+: body ++ '"' :: after := by
  rintro ⟨rest, same⟩
  rcases List.append_eq_append_iff.mp same with ⟨more, rfl, _⟩ | ⟨more, hashed, beyond⟩
  · exact inside ⟨[], more, by simp⟩
  · cases more with
    | nil => exact inside ⟨[], [], by simp [hashed]⟩
    | cons c more =>
      obtain rfl : '"' = c := (List.cons.inj beyond).1
      have hash : '"' ∈ List.replicate hashes '#' := by simp [hashed]
      exact absurd (List.eq_of_mem_replicate hash) (by decide)

theorem rawLength_append (hashes : Nat) (body after : List Char)
    (inside : ¬ '"' :: List.replicate hashes '#' <:+: body) :
    rawLength hashes (body ++ '"' :: (List.replicate hashes '#' ++ after)) =
      body.length + hashes + 1 := by
  induction body with
  | nil => simp [rawLength]
  | cons c body ih =>
    have tail : ¬ '"' :: List.replicate hashes '#' <:+: body := fun holds =>
      inside (holds.trans (List.suffix_cons c body).isInfix)
    rw [List.cons_append, rawLength, if_neg, ih tail, List.length_cons]
    · omega
    · intro closes
      simp only [Bool.and_eq_true, decide_eq_true_eq, List.all_eq_true] at closes
      -- A quote that closed the literal early would have all its hash signs behind it.
      obtain ⟨⟨rfl, long⟩, hashed⟩ := closes
      have run := List.eq_replicate_iff.mpr ⟨long, hashed⟩
      exact not_hashed_within inside (run ▸ List.take_prefix hashes _)

theorem blockLength_append {body : List Char} (inside : BlockBody body) (depth : Nat)
    (after : List Char) :
    blockLength (depth + 1) (body ++ after) =
      body.length + if depth = 0 then 0 else blockLength depth after := by
  induction inside generalizing depth after with
  | close =>
    simp only [List.cons_append, List.nil_append, blockLength, List.length_cons, List.length_nil,
      Nat.add_sub_cancel]
    split <;> split <;> omega
  | @plain c rest unopened unclosed inside ih =>
    obtain ⟨d, others, rfl⟩ : ∃ d others, rest = d :: others := by
      cases inside <;> simp
    -- Whether a marker begins here is decided by two characters, both of the body.
    rw [List.cons_append, List.cons_append, blockLength]
    · rw [← List.cons_append, ih]
      simp only [List.length_cons]
      omega
    · rintro _ rfl same
      exact unopened ⟨others, by simp [(List.cons.inj same).1]⟩
    · rintro _ rfl same
      exact unclosed ⟨others, by simp [(List.cons.inj same).1]⟩
  | @nested inner rest _ _ ihInner ihRest =>
    rw [List.cons_append, List.cons_append, blockLength, List.append_assoc, ihInner,
      if_neg (Nat.succ_ne_zero depth), ihRest]
    simp only [List.length_cons, List.length_append]
    omega

theorem lineLength_append {body : List Char} (inLine : '\n' ∉ body) (after : List Char)
    (ends : ∀ c ∈ after.head?, c = '\n') : lineLength (body ++ after) = body.length := by
  have within : ∀ c ∈ body, decide (c ≠ '\n') = true := by
    intro c member
    simpa using fun same : c = '\n' => inLine (same ▸ member)
  rw [lineLength, List.takeWhile_append_of_pos within]
  cases after with
  | nil => simp
  | cons c after => simp [ends c rfl]

theorem rawLiteral?_append (hashes : Nat) (body after : List Char)
    (inside : ¬ '"' :: List.replicate hashes '#' <:+: body) :
    rawLiteral? ('r' :: (List.replicate hashes '#' ++
      '"' :: (body ++ '"' :: (List.replicate hashes '#' ++ after)))) =
        some (body.length + 2 * hashes + 3) := by
  have run : ∀ rest, ((List.replicate hashes '#' ++ '"' :: rest).takeWhile (· = '#')).length =
      hashes := by
    intro rest
    rw [List.takeWhile_append_of_pos (by simp)]
    simp
  simp only [rawLiteral?, run, List.drop_left' List.length_replicate,
    rawLength_append hashes body after inside]
  simp only [Option.some.injEq]
  omega

theorem measure_lettered {c : Char} {rest : List Char} {length : Nat}
    (letter : c = 'b' ∨ c = 'c' ∨ c = 'r') (lettered : letteredLiteral? (c :: rest) = some length) :
    measure false (c :: rest) = (.code true, length) := by
  have visible : isBlank c = false := by
    rcases letter with rfl | rfl | rfl <;> decide
  rcases letter with rfl | rfl | rfl <;> simp [measure, visible, lettered]

/-- A string is one piece of code. -/
theorem measure_string (letter : StringLetter) {body : List Char} (inside : QuotedBody '"' body)
    (after : List Char) :
    ∃ word, measure false (letter.chars ++ '"' :: (body ++ '"' :: after)) =
      (.code word, letter.chars.length + body.length + 2) := by
  have closed := quotedLength_append inside (by decide) after
  cases letter with
  | none => exact ⟨false, by simp [measure, StringLetter.chars, closed]⟩
  | b =>
    refine ⟨true, measure_lettered (Or.inl rfl) ?_⟩
    simp [letteredLiteral?, closed, StringLetter.chars, Nat.add_comm]
  | c =>
    refine ⟨true, measure_lettered (Or.inr (Or.inl rfl)) ?_⟩
    simp [letteredLiteral?, closed, StringLetter.chars, Nat.add_comm]

theorem measure_rawString (letter : StringLetter) (hashes : Nat) {body : List Char}
    (inside : ¬ '"' :: List.replicate hashes '#' <:+: body) (after : List Char) :
    measure false (letter.chars ++ 'r' :: (List.replicate hashes '#' ++
      '"' :: (body ++ '"' :: (List.replicate hashes '#' ++ after)))) =
        (.code true, letter.chars.length + body.length + 2 * hashes + 3) := by
  have closed := rawLiteral?_append hashes body after inside
  cases letter with
  | none =>
    refine measure_lettered (Or.inr (Or.inr rfl)) ?_
    simp [letteredLiteral?, closed, StringLetter.chars]
  | b =>
    refine measure_lettered (Or.inl rfl) ?_
    simp [letteredLiteral?, closed, StringLetter.chars]
    omega
  | c =>
    refine measure_lettered (Or.inr (Or.inl rfl)) ?_
    simp [letteredLiteral?, closed, StringLetter.chars]
    omega

/-- A character literal is one piece of code. -/
theorem measure_char (byte : Bool) {body : List Char} (inside : CharBody body)
    (after : List Char) :
    ∃ word, measure false ((if byte then ['b'] else []) ++ '\'' :: (body ++ '\'' :: after)) =
      (.code word, (if byte then 1 else 0) + body.length + 2) := by
  have closed := quotedLength_append inside.quoted (by decide) after
  cases byte with
  | true =>
    refine ⟨true, measure_lettered (Or.inl rfl) ?_⟩
    simp [letteredLiteral?, closed, Nat.add_comm]
  | false =>
    refine ⟨false, ?_⟩
    cases inside with
    | plain _ _ _ => simp [measure, afterSingleQuote]
    | escape c plain =>
      simp only [List.cons_append] at closed
      simp [measure, afterSingleQuote, closed]

theorem measure_lineComment (inWord : Bool) {body : List Char} (inLine : '\n' ∉ body)
    (after : List Char) (ends : ∀ c ∈ after.head?, c = '\n') :
    measure inWord ('/' :: '/' :: (body ++ after)) = (.comment, body.length + 2) := by
  simp [measure, lineLength_append inLine after ends]

theorem measure_blockComment (inWord : Bool) {body : List Char} (inside : BlockBody body)
    (after : List Char) :
    measure inWord ('/' :: '*' :: (body ++ after)) = (.comment, body.length + 2) := by
  simp [measure, blockLength_append inside 0 after]

/-! ### Words and marks -/

/-- A text that ends or goes on with a blank. -/
def Bounded (after : List Char) : Prop := ∀ c ∈ after.head?, isBlank c = true

/-- A text that does not go on with a mark. -/
def Quiet (text : List Char) : Prop :=
  ∀ c ∈ text.head?, isWordChar c = true ∨ isBlank c = true

theorem Quiet.ne {c d : Char} {rest : List Char} (quiet : Quiet (c :: rest))
    (unspelled : isWordChar d = false) (visible : isBlank d = false) : c ≠ d := by
  rintro rfl
  rcases quiet c rfl with word | blank
  · simp [unspelled] at word
  · simp [visible] at blank

theorem quiet_append {chars after : List Char} (spelled : ∀ c ∈ chars, isWordChar c = true)
    (bounded : Bounded after) : Quiet (chars ++ after) := by
  cases chars with
  | nil => exact fun c first => Or.inr (bounded c first)
  | cons d chars =>
    intro c first
    obtain rfl : d = c := by simpa using first
    exact Or.inl (spelled d List.mem_cons_self)

theorem rawLiteral?_quiet (c : Char) {rest : List Char} (quiet : Quiet rest) :
    rawLiteral? (c :: rest) = none := by
  by_cases letter : c = 'r'
  · subst letter
    cases rest with
    | nil => rfl
    | cons d rest =>
      have unhashed : d ≠ '#' := quiet.ne (by decide) (by decide)
      have unquoted : d ≠ '"' := quiet.ne (by decide) (by decide)
      simp [rawLiteral?, unhashed, unquoted]
  · simp [rawLiteral?, letter]

/-- No literal begins with the letters of a word. -/
theorem letteredLiteral?_word {c : Char} {chars after : List Char}
    (spelled : ∀ d ∈ chars, isWordChar d = true) (bounded : Bounded after) :
    letteredLiteral? (c :: (chars ++ after)) = none := by
  have quiet := quiet_append spelled bounded
  -- Behind a first `b` or `c` no raw literal begins either.
  have raw : rawLiteral? (chars ++ after) = none := by
    cases chars with
    | nil =>
      cases after with
      | nil => rfl
      | cons d after =>
        have notLetter : d ≠ 'r' := by
          rintro rfl
          exact absurd (bounded 'r' rfl) (by decide)
        simp [rawLiteral?, notLetter]
    | cons d chars =>
      exact rawLiteral?_quiet d (quiet_append (List.forall_mem_cons.mp spelled).2 bounded)
  generalize chars ++ after = rest at quiet raw
  have unquoted : ∀ d, isWordChar d = false → isBlank d = false → ∀ rest', rest ≠ d :: rest' := by
    rintro d unspelled visible rest' rfl
    exact quiet.ne unspelled visible rfl
  unfold letteredLiteral?
  split
  · next same => exact absurd (List.cons.inj same).2 (unquoted '"' (by decide) (by decide) _)
  · next same => exact absurd (List.cons.inj same).2 (unquoted '"' (by decide) (by decide) _)
  · next same => exact absurd (List.cons.inj same).2 (unquoted '\'' (by decide) (by decide) _)
  · next same => rw [← (List.cons.inj same).2, raw, Option.map_none]
  · next same => rw [← (List.cons.inj same).2, raw, Option.map_none]
  · exact rawLiteral?_quiet c quiet

/-- Each character of a word is a piece of code. -/
theorem measure_word (inWord : Bool) {c : Char} {chars after : List Char}
    (word : isWordChar c = true) (spelled : ∀ d ∈ chars, isWordChar d = true)
    (bounded : Bounded after) : measure inWord (c :: (chars ++ after)) = (.code true, 1) := by
  have ne : ∀ d, isWordChar d = false → c ≠ d := by
    rintro d unspelled rfl
    simp [unspelled] at word
  have visible : isBlank c = false := by
    refine Bool.eq_false_iff.mpr fun blank => ?_
    simp [isWordChar_eq_false_of_isBlank blank] at word
  simp [measure, ne '/' (by decide), ne '"' (by decide), ne '\'' (by decide),
    ne '\n' (by decide), visible, letteredLiteral?_word spelled bounded, word]

/-- A mark is a piece of code. -/
theorem measure_mark (inWord : Bool) {c : Char} {after : List Char} (visible : isBlank c = false)
    (unspelled : isWordChar c = false) (unquoted : c ≠ '"' ∧ c ≠ '\'') (bounded : Bounded after) :
    measure inWord (c :: after) = (.code false, 1) := by
  have ne : ∀ d, isWordChar d = true → c ≠ d := by
    rintro d spelled rfl
    simp [unspelled] at spelled
  have inLine : c ≠ '\n' := by
    rintro rfl
    exact absurd visible (by decide)
  have unlettered : letteredLiteral? (c :: after) = none := by
    simp [letteredLiteral?, rawLiteral?, ne 'b' (by decide), ne 'c' (by decide),
      ne 'r' (by decide)]
  have beyond : ∀ d, isBlank d = false → ∀ rest, after ≠ d :: rest := by
    rintro d ink rest rfl
    simp [bounded d rfl] at ink
  simp [measure, beyond '/' (by decide), beyond '*' (by decide), unquoted, visible,
    unlettered, unspelled]

theorem measure_lifetime (inWord : Bool) {name after : List Char} (some : name ≠ [])
    (spelled : ∀ c ∈ name, isWordChar c = true) (bounded : Bounded after) :
    measure inWord ('\'' :: (name ++ after)) = (.code false, 1) := by
  obtain ⟨c, name, rfl⟩ := List.exists_cons_of_ne_nil some
  obtain ⟨word, others⟩ := List.forall_mem_cons.mp spelled
  have unescaped : c ≠ '\\' := by
    rintro rfl
    exact absurd word (by decide)
  have single : ∀ rest, name ++ after ≠ '\'' :: rest := by
    intro rest same
    have quiet := quiet_append others bounded
    rw [same] at quiet
    exact quiet.ne (by decide) (by decide) rfl
  simp [measure, afterSingleQuote, unescaped, single]

/-- A blank that ends no line. -/
theorem measure_blank (inWord : Bool) {c : Char} (rest : List Char) (blank : isBlank c = true)
    (inLine : c ≠ '\n') : measure inWord (c :: rest) = (.blank, 1) := by
  have ne : ∀ d, isBlank d = false → c ≠ d := by
    rintro d visible rfl
    simp [visible] at blank
  simp [measure, ne '/' (by decide), ne '"' (by decide), ne '\'' (by decide), blank]

end Piece

end StructInventory
