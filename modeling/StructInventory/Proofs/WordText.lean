import StructInventory.Proofs.CharClass
import StructInventory.Proofs.TokenOrder

/-!
Words and numbers in a text. Each is cut off where it ends, whatever stands behind it that is no
part of it.
-/

namespace StructInventory

open Text

/-! ### Characters -/

namespace Text

open Category RangeSet

theorem isAsciiDigit_bounds {c : Char} (digit : isAsciiDigit c = true) :
    48 ≤ c.toNat ∧ c.toNat ≤ 57 := by
  simp only [isAsciiDigit, Bool.and_eq_true, decide_eq_true_eq] at digit
  exact ⟨UInt32.le_iff_toNat_le.mp digit.1, UInt32.le_iff_toNat_le.mp digit.2⟩

theorem isAscii_of_isAsciiDigit {c : Char} (digit : isAsciiDigit c = true) : isAscii c = true := by
  have := isAsciiDigit_bounds digit
  simp only [isAscii, decide_eq_true_eq]
  omega

theorem isIdentContinue_of_isAsciiDigit {c : Char} (digit : isAsciiDigit c = true) :
    isIdentContinue c = true := by
  simp [isIdentContinue, isAscii_of_isAsciiDigit digit, digit]

theorem isAsciiLetter_bounds {c : Char} (letter : isAsciiLetter c = true) : 65 ≤ c.toNat := by
  simp only [isAsciiLetter, isAsciiLower, isAsciiUpper, Bool.or_eq_true, Bool.and_eq_true,
    decide_eq_true_eq] at letter
  rcases letter with lower | upper
  · exact Nat.le_trans (by decide) (UInt32.le_iff_toNat_le.mp lower.1)
  · exact UInt32.le_iff_toNat_le.mp upper.1

theorem not_isIdentStart_of_isAsciiDigit {c : Char} (digit : isAsciiDigit c = true) :
    isIdentStart c = false := by
  have bounds := isAsciiDigit_bounds digit
  refine Bool.eq_false_iff.mpr fun start => ?_
  simp only [isIdentStart, isAscii_of_isAsciiDigit digit, if_true, Bool.or_eq_true,
    decide_eq_true_eq] at start
  rcases start with rfl | letter
  · exact absurd bounds.2 (by decide)
  · have := isAsciiLetter_bounds letter
    omega

theorem isBlank_eq_false_of_isAscii {c : Char} (ascii : isAscii c = true) (high : 32 < c.toNat) :
    isBlank c = false := by
  refine Bool.eq_false_iff.mpr fun blank => ?_
  simp only [isBlank, ascii, if_true, Bool.or_eq_true, Bool.and_eq_true, decide_eq_true_eq] at blank
  rcases blank with rfl | ⟨_, low⟩
  · exact absurd high (by decide)
  · exact absurd (Nat.lt_of_lt_of_le high (UInt32.le_iff_toNat_le.mp low)) (by decide)

/-- The tables of characters that may begin an identifier. -/
def letterTables : List RangeSet :=
  [uppercaseLetter, lowercaseLetter, titlecaseLetter, modifierLetter, otherLetter, letterNumber]

/-- Characters that are not seen, beside the blanks: the two marks of writing direction, and the byte
order mark. -/
def unseenRanges : List (Nat × Nat) := [(0x200E, 0x200F), (0xFEFF, 0xFEFF)]

theorem letterTables_apart :
    ∀ table ∈ letterTables, apart table.ranges.toList unseenRanges = true := by
  intro table member
  unfold letterTables uppercaseLetter lowercaseLetter titlecaseLetter modifierLetter otherLetter
    letterNumber at member
  simp only [List.mem_cons, List.not_mem_nil, or_false] at member
  rcases member with rfl | rfl | rfl | rfl | rfl | rfl <;> (rw [ranges_ofText]; decide +kernel)

theorem letterTables_subset : letterTables ⊆ wordTables := by
  intro table member
  simp only [letterTables, wordTables, List.mem_cons, List.not_mem_nil, or_false] at member ⊢
  grind

theorem table_of_isIdentStart {c : Char} (start : isIdentStart c = true) (wide : isAscii c = false) :
    (∃ table ∈ letterTables, table.contains c = true) ∨ c.toNat ∈ [0x1885, 0x1886, 0x2118, 0x212E] := by
  simp only [isIdentStart, wide, Bool.false_eq_true, if_false, Bool.and_eq_true, Bool.or_eq_true,
    isLetter, decide_eq_true_eq] at start
  simp only [letterTables, List.mem_cons, List.not_mem_nil, or_false, exists_eq_or_imp,
    exists_eq_left]
  have few : 0x1885 ≤ c.toNat ∧ c.toNat ≤ 0x1886 → c.toNat = 0x1885 ∨ c.toNat = 0x1886 := by omega
  grind

/-- No identifier begins with a blank or with a character that is not seen. -/
theorem visible_of_isIdentStart {c : Char} (start : isIdentStart c = true) :
    isBlank c = false ∧ ¬ Covers unseenRanges c.toNat := by
  by_cases ascii : isAscii c = true
  · have high : 65 ≤ c.toNat := by
      simp only [isIdentStart, ascii, if_true, Bool.or_eq_true, decide_eq_true_eq] at start
      rcases start with rfl | letter
      · decide
      · exact isAsciiLetter_bounds letter
    refine ⟨isBlank_eq_false_of_isAscii ascii (by omega), ?_⟩
    rintro ⟨range, member, low, _⟩
    simp only [isAscii, decide_eq_true_eq] at ascii
    simp only [unseenRanges, List.mem_cons, List.not_mem_nil, or_false] at member
    rcases member with rfl | rfl <;> (dsimp only at low; omega)
  · have wide : isAscii c = false := by simpa using ascii
    -- Beyond ASCII the tables decide, and these four characters.
    have apartOf (ranges : List (Nat × Nat))
        (tables : ∀ table ∈ letterTables, apart table.ranges.toList ranges = true)
        (few : ∀ code ∈ [0x1885, 0x1886, 0x2118, 0x212E], apart [(code, code)] ranges = true) :
        ¬ Covers ranges c.toNat := by
      intro covers
      rcases table_of_isIdentStart start wide with ⟨table, member, holds⟩ | listed
      · exact not_covers_of_apart (tables table member) covers (covers_of_contains holds)
      · exact not_covers_of_apart (few _ listed) covers
          ⟨(c.toNat, c.toNat), by simp, Nat.le_refl _, Nat.le_refl _⟩
    refine ⟨Bool.eq_false_iff.mpr fun blank => ?_, apartOf _ letterTables_apart (by decide)⟩
    exact apartOf blankRanges (fun table member => wordTables_apart table (letterTables_subset member))
      (by decide) (covers_of_isBlank blank wide)

end Text

theorem Lexeme.isGap_eq_false_of_isIdentStart {c : Char} (start : isIdentStart c = true) :
    isGap c = false := by
  obtain ⟨blank, seen⟩ := visible_of_isIdentStart start
  simp only [isGap, blank, Bool.false_or, Bool.or_eq_false_iff, decide_eq_false_iff_not]
  constructor
  all_goals
    rintro rfl
    exact seen ⟨(0x200E, 0x200F), by decide, by decide⟩

/-- A character that may stand directly behind a word, a lifetime or a number and is no part of it. -/
def isClear (c : Char) : Bool :=
  !isIdentContinue c && c ≠ '"' && c ≠ '\'' && c ≠ '#' && c ≠ '.' && c ≠ '+' && c ≠ '-'

/-- What stands behind a word, a lifetime or a number ends it. -/
def ClearAhead (more : List Char) : Prop := ∀ c ∈ more.head?, isClear c = true

theorem clear_nil : ClearAhead [] := by simp [ClearAhead]

theorem clear_cons {c : Char} {more : List Char} (clear : isClear c = true) : ClearAhead (c :: more) := by
  simpa [ClearAhead] using clear

theorem ClearAhead.cases {more : List Char} (clear : ClearAhead more) :
    more = [] ∨ ∃ c rest, more = c :: rest ∧ isIdentContinue c = false ∧ c ≠ '"' ∧ c ≠ '\'' ∧
      c ≠ '#' ∧ c ≠ '.' ∧ c ≠ '+' ∧ c ≠ '-' := by
  cases more with
  | nil => exact .inl rfl
  | cons c rest =>
    have found := clear c rfl
    simp only [isClear, Bool.and_eq_true, Bool.not_eq_true', ne_eq,
      decide_not, decide_eq_false_iff_not, and_assoc] at found
    exact .inr ⟨c, rest, rfl, found⟩

theorem ne_of_isIdentContinue {c d : Char} (continues : isIdentContinue c = true)
    (other : isIdentContinue d = false) : c ≠ d := by
  rintro rfl
  simp [continues] at other

/-- Words: of identifier characters, whatever is behind them. -/
theorem takeWhile_clear {word more : List Char} (spelled : word.all isIdentContinue = true)
    (clear : ClearAhead more) : (word ++ more).takeWhile isIdentContinue = word := by
  rw [List.takeWhile_append_of_pos (by simpa using spelled)]
  rcases clear.cases with rfl | ⟨c, rest, rfl, apart, _⟩
  · simp
  · simp [apart]

theorem dropWhile_clear {word more : List Char} (spelled : word.all isIdentContinue = true)
    (clear : ClearAhead more) : (word ++ more).dropWhile isIdentContinue = more := by
  rw [List.dropWhile_append_of_pos (by simpa using spelled)]
  rcases clear.cases with rfl | ⟨c, rest, rfl, apart, _⟩
  · simp
  · simp [apart]

/-- The rest of a word, and what stands behind it. -/
def Tail (text : List Char) : Prop :=
  ∃ word more, text = word ++ more ∧ word.all isIdentContinue = true ∧ ClearAhead more

/-- Neither a quote nor a hash comes next, and if an identifier character does, the same holds
behind it. -/
theorem Tail.cons {c : Char} {rest : List Char} (tail : Tail (c :: rest)) :
    c ≠ '"' ∧ c ≠ '\'' ∧ c ≠ '#' ∧ (isIdentContinue c = true → Tail rest) := by
  obtain ⟨word, more, split, spelled, clear⟩ := tail
  cases word with
  | nil =>
    rcases clear.cases with rfl | ⟨d, behind, rfl, apart, quote, tick, hash, _⟩
    · cases split
    · cases split
      exact ⟨quote, tick, hash, by simp [apart]⟩
  | cons d word =>
    cases split
    rw [List.all_cons, Bool.and_eq_true] at spelled
    refine ⟨?_, ?_, ?_, fun _ => ⟨word, more, rfl, spelled.2, clear⟩⟩
    all_goals exact ne_of_isIdentContinue spelled.1 (by decide)

/-! ### Words -/

/-- A word as the lexer takes it from a text. -/
structure Word.Lexed (word : Word) : Prop where
  start : ∃ c rest, word.name.text.toList = c :: rest ∧ isIdentStart c = true
  allowed : word.raw = true → Word.refusesRaw word.name = false

theorem Ident.read?_append {name : Ident} {c : Char} {rest more : List Char}
    (text : name.text.toList = c :: rest) (start : isIdentStart c = true) (clear : ClearAhead more) :
    Ident.read? (name.text.toList ++ more) = some (name, more) := by
  have spelled : rest.all isIdentContinue = true := by
    have := name.spelled
    rw [text, List.all_cons, Bool.and_eq_true] at this
    exact this.2
  rw [text, List.cons_append, Ident.read?, dif_pos start, dropWhile_clear spelled clear]
  have same : Ident.ofRun c (rest ++ more) start = name := by
    obtain ⟨name, nonempty, all⟩ := name
    simp only [Ident.ofRun, takeWhile_clear spelled clear, Ident.mk.injEq]
    rw [← text, String.ofList_toList]
  rw [same]

namespace Word

variable {word : Word} {more : List Char}

theorem toList_text (word : Word) :
    word.text.toList = (if word.raw then ['r', '#'] else []) ++ word.name.text.toList := by
  unfold Word.text
  split <;> simp

theorem tail_of_text {c : Char} {rest : List Char}
    (text : word.name.text.toList = c :: rest) (clear : ClearAhead more) : Tail (rest ++ more) := by
  have spelled := word.name.spelled
  rw [text, List.all_cons, Bool.and_eq_true] at spelled
  exact ⟨rest, more, rfl, spelled.2, clear⟩

theorem Lexed.read? (lexed : word.Lexed) (clear : ClearAhead more) :
    Word.read? (word.text.toList ++ more) = some (word, more) := by
  obtain ⟨c, rest, text, start⟩ := lexed.start
  have read := Ident.read?_append text start clear
  rw [toList_text]
  obtain ⟨raw, name⟩ := word
  cases raw with
  | true =>
    have allowed := lexed.allowed rfl
    simp only [if_true, List.cons_append, List.nil_append, Word.read?]
    rw [read]
    simp [allowed]
  | false =>
    simp only [Bool.false_eq_true, if_false, List.nil_append]
    -- What is read as a raw word has a mark that no identifier has.
    unfold Word.read?
    split
    next hashed same =>
      have tail := tail_of_text text clear
      rw [text, List.cons_append, List.cons.injEq] at same
      rw [same.2] at tail
      exact absurd rfl tail.cons.2.2.1
    · simp [read]

end Word

namespace Literal

/-- No literal begins with a letter that no quote follows. -/
theorem afterRaw_eq_none {content : Content} {text : List Char} (tail : Tail text) :
    afterRaw content text = none := by
  cases text with
  | nil => rfl
  | cons c rest =>
    obtain ⟨quote, _, hash, _⟩ := tail.cons
    simp [afterRaw, quote, hash]

theorem hexDigit?_of_lt_ten {c : Char} (small : (hexDigit? c).any (· < 10) = true) :
    isAsciiDigit c = true := by
  unfold hexDigit? at small
  unfold isAsciiDigit
  split at small
  next digit => exact digit
  · -- The letters stand for ten and more.
    split at small
    · simp only [Option.any_some, decide_eq_true_eq] at small
      omega
    · split at small
      · simp only [Option.any_some, decide_eq_true_eq] at small
        omega
      · simp at small

theorem afterNumber_eq_none {c : Char} {rest : List Char} (digit : isAsciiDigit c = false) :
    afterNumber (c :: rest) = none := by
  have zero : c ≠ '0' := by
    rintro rfl
    simp [isAsciiDigit] at digit
  have float : afterFloatDigits (c :: rest) = none := by simp [afterFloatDigits, digit]
  have int : afterIntDigits (c :: rest) = none := by
    have plain : afterIntDigits (c :: rest) = afterDigits 10 false (c :: rest) := by
      unfold afterIntDigits
      split <;> simp_all
    have small : (hexDigit? c).any (· < 10) = false :=
      Bool.eq_false_iff.mpr fun small => by simp [hexDigit?_of_lt_ten small] at digit
    rw [plain]
    simp [afterDigits, digit, small]
  simp [afterNumber, float, int]

/-- No literal begins as a word does. -/
theorem after?_eq_none_of_word {c : Char} {rest : List Char} (start : isIdentStart c = true)
    (tail : Tail rest) : after? (c :: rest) = none := by
  have digit : isAsciiDigit c = false := Bool.eq_false_iff.mpr fun digit => by
    simp [not_isIdentStart_of_isAsciiDigit digit] at start
  unfold after?
  rw [afterNumber_eq_none digit, Option.orElse_eq_orElse, Option.orElse_eq_or, Option.or_none]
  -- Of the letters that begin literals, each asks for a quote or a hash behind it.
  split
  next same =>
    cases same
    exact absurd start (by decide)
  next same =>
    cases same
    exact afterRaw_eq_none tail
  next same =>
    cases same
    exact absurd rfl tail.cons.1
  next same =>
    cases same
    exact afterRaw_eq_none (tail.cons.2.2.2 (by decide))
  next same =>
    cases same
    exact absurd rfl tail.cons.1
  next same =>
    cases same
    exact afterRaw_eq_none (tail.cons.2.2.2 (by decide))
  next same =>
    cases same
    exact absurd rfl tail.cons.2.1
  next same =>
    cases same
    exact absurd start (by decide)
  next => rfl

/-! ### Numbers -/

variable {text more : List Char}

/-- A number that is written with identifier characters alone. -/
structure IsCount (text : List Char) : Prop where
  digit : text.head?.any isAsciiDigit = true
  spelled : text.all isIdentContinue = true
  whole : afterNumber text = some []

theorem isIdentContinue_of_hexDigit? {c : Char} {value : Nat} (digit : hexDigit? c = some value) :
    isIdentContinue c = true := by
  have below (last : Char) (low : last.toNat < 128) (high : c ≤ last) : isAscii c = true := by
    simp only [isAscii, decide_eq_true_eq]
    exact Nat.lt_of_le_of_lt (UInt32.le_iff_toNat_le.mp high) low
  unfold hexDigit? at digit
  split at digit
  next found => exact isIdentContinue_of_isAsciiDigit (by simpa [isAsciiDigit] using found)
  · split at digit
    next found =>
      simp only [Bool.and_eq_true, decide_eq_true_eq] at found
      have ascii := below 'f' (by decide) found.2
      have lower : isAsciiLower c = true := by
        simp only [isAsciiLower, Bool.and_eq_true, decide_eq_true_eq]
        exact ⟨found.1, Nat.le_trans found.2 (by decide)⟩
      simp [isIdentContinue, ascii, isAsciiLetter, lower]
    · split at digit
      next found =>
        simp only [Bool.and_eq_true, decide_eq_true_eq] at found
        have ascii := below 'F' (by decide) found.2
        have upper : isAsciiUpper c = true := by
          simp only [isAsciiUpper, Bool.and_eq_true, decide_eq_true_eq]
          exact ⟨found.1, Nat.le_trans found.2 (by decide)⟩
        simp [isIdentContinue, ascii, isAsciiLetter, upper]
      · cases digit

/-- What ends a number is no part of one. -/
theorem ClearAhead.number {c : Char} (apart : isIdentContinue c = false) :
    isAsciiDigit c = false ∧ c ≠ '_' ∧ c ≠ 'e' ∧ c ≠ 'E' ∧ hexDigit? c = none := by
  refine ⟨?_, ?_, ?_, ?_, ?_⟩
  · exact Bool.eq_false_iff.mpr fun digit => by
      simp [isIdentContinue_of_isAsciiDigit digit] at apart
  · rintro rfl
    exact absurd apart (by decide)
  · rintro rfl
    exact absurd apart (by decide)
  · rintro rfl
    exact absurd apart (by decide)
  · cases digit : hexDigit? c with
    | none => rfl
    | some value => simp [isIdentContinue_of_hexDigit? digit] at apart

/-- More behind what was left. -/
def Mantissa.append (more : List Char) : Mantissa → Mantissa
  | .refused => .refused
  | .plain dotted rest => .plain dotted (rest ++ more)
  | .exponent dotted mark rest => .exponent dotted (mark ++ more) (rest ++ more)

/-- What was left is of identifier characters. -/
def Mantissa.Spelled : Mantissa → Prop
  | .refused => True
  | .plain _ rest => rest.all isIdentContinue = true
  | .exponent _ mark rest => mark.all isIdentContinue = true ∧ rest.all isIdentContinue = true

theorem mantissa_append (clear : ClearAhead more) (spelled : text.all isIdentContinue = true)
    (dotted : Bool) :
    mantissa dotted (text ++ more) = (mantissa dotted text).append more ∧
      (mantissa dotted text).Spelled := by
  induction text generalizing dotted with
  | nil =>
    rcases clear.cases with rfl | ⟨c, rest, rfl, apart, _, _, _, dot, _⟩
    · simp [mantissa, Mantissa.append, Mantissa.Spelled]
    · obtain ⟨digit, low, e, E, _⟩ := ClearAhead.number apart
      simp [mantissa, Mantissa.append, Mantissa.Spelled, digit, low, dot, e, E]
  | cons c text ih =>
    rw [List.all_cons, Bool.and_eq_true] at spelled
    -- An identifier character is no dot, which leaves that branch out of the splits.
    have dot : c ≠ '.' := ne_of_isIdentContinue spelled.1 (by decide)
    rw [List.cons_append, mantissa, mantissa]
    split
    · exact ih spelled.2 dotted
    · have whole : (c :: text).all isIdentContinue = true := by
        rw [List.all_cons, spelled.1, spelled.2, Bool.and_self]
      split
      · exact ⟨rfl, whole, spelled.2⟩
      · exact ⟨rfl, whole⟩

/-- What is left of a text has identifier characters only, and more may stand behind it. -/
def Extends (more : List Char) (found found' : Option (List Char)) : Prop :=
  found' = found.map (· ++ more) ∧ ∀ rest ∈ found, rest.all isIdentContinue = true

theorem Extends.none : Extends more none none := ⟨rfl, by simp⟩

theorem Extends.some (spelled : text.all isIdentContinue = true) :
    Extends more (some text) (some (text ++ more)) :=
  ⟨rfl, by rintro _ ⟨⟩; exact spelled⟩

theorem afterExponent_append (clear : ClearAhead more) (spelled : text.all isIdentContinue = true)
    {otherwise otherwise' : Option (List Char)} (extends' : Extends more otherwise otherwise')
    (signed valued : Bool) :
    Extends more (afterExponent otherwise signed valued text)
      (afterExponent otherwise' signed valued (text ++ more)) := by
  induction text generalizing signed valued with
  | nil =>
    rcases clear.cases with rfl | ⟨c, rest, rfl, apart, _, _, _, _, plus, minus⟩
    · simp only [afterExponent, List.append_nil]
      split
      · simp [Extends]
      · exact extends'
    · -- What follows is neither a digit nor a sign, so the exponent ends with the text.
      obtain ⟨digit, low, _⟩ := ClearAhead.number apart
      simp only [List.nil_append, afterExponent, plus, minus, digit, low]
      cases valued
      · simpa using extends'
      · simp [Extends]
  | cons c text ih =>
    rw [List.all_cons, Bool.and_eq_true] at spelled
    -- Both texts begin with the same character, and so take the same branch.
    rw [List.cons_append, afterExponent, afterExponent]
    split
    · split
      · exact extends'
      · exact ih spelled.2 true valued
    · split
      · exact ih spelled.2 signed true
      · split
        · exact ih spelled.2 signed valued
        · split
          · exact .some (by rw [List.all_cons, spelled.1, spelled.2, Bool.and_self])
          · exact extends'

theorem afterFloatDigits_append (clear : ClearAhead more) (spelled : text.all isIdentContinue = true)
    (some : text ≠ []) :
    Extends more (afterFloatDigits text) (afterFloatDigits (text ++ more)) := by
  obtain ⟨c, rest, rfl⟩ := List.exists_cons_of_ne_nil some
  rw [List.all_cons, Bool.and_eq_true] at spelled
  obtain ⟨same, left⟩ := mantissa_append clear spelled.2 false
  rw [List.cons_append, afterFloatDigits, afterFloatDigits]
  split
  · simp [Extends]
  · rw [same]
    -- Without a dot or an exponent it is no float, with or without what is behind.
    cases found : mantissa false rest with
    | refused => simp [Extends, Mantissa.append]
    | plain dotted behind =>
      rw [found] at left
      cases dotted
      · simp [Extends, Mantissa.append]
      · exact .some left
    | exponent dotted mark behind =>
      rw [found] at left
      refine afterExponent_append clear left.2 ?_ false false
      cases dotted
      · simp [Extends]
      · exact .some left.1

theorem afterDigits_append (clear : ClearAhead more) (spelled : text.all isIdentContinue = true)
    (base : Nat) (seen : Bool) :
    Extends more (afterDigits base seen text) (afterDigits base seen (text ++ more)) := by
  induction text generalizing seen with
  | nil =>
    rcases clear.cases with rfl | ⟨c, rest, rfl, apart, _⟩
    · simp only [afterDigits, List.append_nil]
      split <;> simp [Extends]
    · -- What follows is no digit of any base, so the digits end with the text.
      obtain ⟨digit, low, _, _, hex⟩ := ClearAhead.number apart
      simp only [List.nil_append, afterDigits, digit, low, hex]
      cases seen <;> simp [Extends]
  | cons c text ih =>
    rw [List.all_cons, Bool.and_eq_true] at spelled
    rw [List.cons_append, afterDigits, afterDigits]
    split
    · split
      · exact ih spelled.2 true
      · simp [Extends]
    · split
      · split
        · simp [Extends]
        · exact ih spelled.2 seen
      · split
        · exact ih spelled.2 true
        · split
          · exact .some (by rw [List.all_cons, spelled.1, spelled.2, Bool.and_self])
          · exact .none

theorem afterIntDigits_decimal {c d : Char} {rest : List Char}
    (decimal : ¬(c = '0' ∧ (d = 'x' ∨ d = 'o' ∨ d = 'b'))) :
    afterIntDigits (c :: d :: rest) = afterDigits 10 false (c :: d :: rest) := by
  unfold afterIntDigits
  split <;> simp_all

theorem afterIntDigits_append (clear : ClearAhead more) (spelled : text.all isIdentContinue = true) :
    Extends more (afterIntDigits text) (afterIntDigits (text ++ more)) := by
  -- The mark of a base is an identifier character, so it does not begin what is behind.
  rcases text with _ | ⟨c, _ | ⟨d, rest⟩⟩
  · have plain : afterIntDigits more = afterDigits 10 false more := by
      rcases clear.cases with rfl | ⟨c, rest, rfl, apart, _⟩
      · rfl
      · have zero : c ≠ '0' := by
          rintro rfl
          exact absurd apart (by decide)
        unfold afterIntDigits
        split <;> simp_all
    rw [List.nil_append, plain]
    exact afterDigits_append clear spelled 10 false
  · have plain : afterIntDigits (c :: more) = afterDigits 10 false (c :: more) := by
      rcases clear.cases with rfl | ⟨d, rest, rfl, apart, _⟩
      · unfold afterIntDigits
        split <;> simp_all
      · refine afterIntDigits_decimal ?_
        rintro ⟨_, rfl | rfl | rfl⟩ <;> exact absurd apart (by decide)
    have alone : afterIntDigits [c] = afterDigits 10 false [c] := by
      unfold afterIntDigits
      split <;> simp_all
    rw [List.cons_append, List.nil_append, plain, alone]
    exact afterDigits_append clear spelled 10 false
  · by_cases based : c = '0' ∧ (d = 'x' ∨ d = 'o' ∨ d = 'b')
    case neg =>
      rw [List.cons_append, List.cons_append, afterIntDigits_decimal based,
        afterIntDigits_decimal based]
      exact afterDigits_append clear spelled 10 false
    case pos =>
      obtain ⟨rfl, based⟩ := based
      simp only [List.all_cons, Bool.and_eq_true] at spelled
      rcases based with rfl | rfl | rfl
      · exact afterDigits_append clear spelled.2.2 16 false
      · exact afterDigits_append clear spelled.2.2 8 false
      · exact afterDigits_append clear spelled.2.2 2 false

theorem not_isIdentStart_of_apart {c : Char} (apart : isIdentContinue c = false) :
    isIdentStart c = false :=
  Bool.eq_false_iff.mpr fun start => by simp [Ident.isIdentContinue_of_start start] at apart

theorem endNumber_append (clear : ClearAhead more) (spelled : text.all isIdentContinue = true) :
    endNumber (text ++ more) = (endNumber text).map (· ++ more) := by
  cases text with
  | nil =>
    rcases clear.cases with rfl | ⟨c, rest, rfl, apart, _⟩
    · rfl
    · simp [endNumber, afterSuffix, identifier?, not_isIdentStart_of_apart apart, apart]
  | cons c text =>
    rw [List.all_cons, Bool.and_eq_true] at spelled
    cases start : isIdentStart c with
    | true =>
      have ended : more.head?.any isIdentContinue = false := by
        rcases clear.cases with rfl | ⟨d, rest, rfl, apart, _⟩
        · rfl
        · simpa using apart
      have alone := dropWhile_clear spelled.2 clear_nil
      rw [List.append_nil] at alone
      simp [endNumber, afterSuffix, identifier?, start, afterWord, dropWhile_clear spelled.2 clear,
        alone, ended]
    | false => simp [endNumber, afterSuffix, identifier?, start, spelled.1]

theorem bind_endNumber {found found' : Option (List Char)} (clear : ClearAhead more)
    (extends' : Extends more found found') :
    (found' >>= endNumber) = (found >>= endNumber).map (· ++ more) := by
  rw [extends'.1]
  cases found with
  | none => rfl
  | some rest => exact endNumber_append clear (extends'.2 rest rfl)

/-- A number is cut off where it ends. -/
theorem IsCount.after? (count : IsCount text) (clear : ClearAhead more) :
    after? (text ++ more) = some more := by
  obtain ⟨digit, spelled, whole⟩ := count
  obtain ⟨c, rest, rfl⟩ : ∃ c rest, text = c :: rest :=
    List.exists_cons_of_ne_nil (by rintro rfl; simp at digit)
  -- What was left behind the float or the integer is extended in the same way.
  have number : afterNumber (c :: rest ++ more) = some more := by
    unfold afterNumber at whole ⊢
    rw [bind_endNumber clear (afterFloatDigits_append clear spelled (by simp)),
      bind_endNumber clear (afterIntDigits_append clear spelled)]
    cases float : (afterFloatDigits (c :: rest) >>= endNumber) with
    | some left =>
      rw [float] at whole
      cases whole
      rfl
    | none =>
      rw [float] at whole
      change (afterIntDigits (c :: rest) >>= endNumber) = some [] at whole
      rw [whole]
      rfl
  simp only [List.head?_cons, Option.any_some] at digit
  rw [List.cons_append] at number ⊢
  unfold Literal.after?
  rw [number]
  -- Strings and characters begin with no digit.
  split
  all_goals first
    | rfl
    | rename_i same
      obtain ⟨rfl, _⟩ := List.cons.inj same
      exact absurd digit (by decide)

end Literal

end StructInventory
