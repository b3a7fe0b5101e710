import StructInventory.Text.Property

/-!
Words and blanks have no character in common. Both classes are given by tables of code points, so
the proof compares the tables: what a search finds lies within a range of its table, and no range
of a table of letters or digits meets a range of the blanks.
-/

namespace StructInventory.Text

namespace RangeSet

/-- A code point lies within one of some ranges. -/
def Covers (ranges : List (Nat × Nat)) (code : Nat) : Prop :=
  ∃ range ∈ ranges, range.1 ≤ code ∧ code ≤ range.2

/-- No range of one list meets a range of the other. -/
def apart (ranges ranges' : List (Nat × Nat)) : Bool :=
  ranges.all fun range => ranges'.all fun other => range.2 < other.1 || other.2 < range.1

theorem not_covers_of_apart {ranges ranges' : List (Nat × Nat)}
    (disjoint : apart ranges ranges' = true) {code : Nat} (covers : Covers ranges' code) :
    ¬ Covers ranges code := by
  rintro ⟨range, member, low, high⟩
  obtain ⟨other, member', low', high'⟩ := covers
  have gap := List.all_eq_true.mp (List.all_eq_true.mp disjoint range member) other member'
  simp only [Bool.or_eq_true, decide_eq_true_eq] at gap
  omega

/-- What a bisection finds is in a range, whether or not the ranges are in order. -/
theorem covers_of_search (ranges : Array (Nat × Nat)) (code low high : Nat)
    (found : search ranges code low high = true) : Covers ranges.toList code := by
  fun_induction search ranges code low high with
  | case1 low high _ middle none => simp at found
  | case2 low high _ middle first last inRange below ih => exact ih found
  | case3 low high _ middle first last inRange _ above ih => exact ih found
  | case4 low high _ middle first last inRange notBelow notAbove =>
    have member : (first, last) ∈ ranges.toList := by
      rw [← Array.getElem?_toList] at inRange
      exact List.mem_of_getElem? inRange
    exact ⟨(first, last), member, Nat.not_lt.mp notBelow, Nat.not_lt.mp notAbove⟩
  | case5 => simp at found

theorem covers_of_contains {set : RangeSet} {c : Char} (holds : set.contains c = true) :
    Covers set.ranges.toList c.toNat :=
  covers_of_search set.ranges c.toNat 0 set.ranges.size holds

/-- The ranges of a table, without the detour over the text that it is written as. -/
theorem ranges_ofText (chars : List Char) :
    (ofText (String.ofList chars)).ranges.toList =
      (((splitAt '\n' chars).flatMap (splitAt ' ')).filter (!·.isEmpty)).map readRange := by
  simp [ofText, words]

end RangeSet

open Category RangeSet

/-- The ranges of the blanks that are not plain ASCII. -/
def blankRanges : List (Nat × Nat) :=
  [(0x20, 0x20), (0x85, 0x85), (0xA0, 0xA0), (0x1680, 0x1680), (0x2000, 0x200A), (0x2028, 0x2028),
    (0x2029, 0x2029), (0x202F, 0x202F), (0x205F, 0x205F), (0x3000, 0x3000)]

def blankTables : List RangeSet := [spaceSeparator, lineSeparator, paragraphSeparator]

/-- The tables of letters and digits. -/
def wordTables : List RangeSet :=
  [uppercaseLetter, lowercaseLetter, titlecaseLetter, modifierLetter, otherLetter, letterNumber,
    alphabeticSign, decimalNumber, otherNumber]

theorem blankTables_subset :
    ∀ table ∈ blankTables, ∀ range ∈ table.ranges.toList, range ∈ blankRanges := by
  intro table member
  unfold blankTables spaceSeparator lineSeparator paragraphSeparator at member
  simp only [List.mem_cons, List.not_mem_nil, or_false] at member
  rcases member with rfl | rfl | rfl <;> (rw [ranges_ofText]; decide +kernel)

theorem wordTables_apart : ∀ table ∈ wordTables, apart table.ranges.toList blankRanges = true := by
  intro table member
  unfold wordTables uppercaseLetter lowercaseLetter titlecaseLetter modifierLetter otherLetter
    letterNumber alphabeticSign decimalNumber otherNumber at member
  simp only [List.mem_cons, List.not_mem_nil, or_false] at member
  rcases member with rfl | rfl | rfl | rfl | rfl | rfl | rfl | rfl | rfl <;>
    (rw [ranges_ofText]; decide +kernel)

theorem covers_of_isBlank {c : Char} (blank : isBlank c = true) (wide : isAscii c = false) :
    Covers blankRanges c.toNat := by
  have ofTable : ∀ table ∈ blankTables, table.contains c = true →
      Covers blankRanges c.toNat := by
    intro table member holds
    obtain ⟨range, listed, within⟩ := covers_of_contains holds
    exact ⟨range, blankTables_subset table member range listed, within⟩
  simp only [isBlank, wide, Bool.false_eq_true, if_false, Bool.or_eq_true,
    decide_eq_true_eq] at blank
  rcases blank with ((rfl | space) | line) | paragraph
  · exact ⟨(0x85, 0x85), by decide, by decide⟩
  · exact ofTable _ (by simp [blankTables]) space
  · exact ofTable _ (by simp [blankTables]) line
  · exact ofTable _ (by simp [blankTables]) paragraph

theorem table_of_isWordChar {c : Char} (word : isWordChar c = true) (wide : isAscii c = false) :
    ∃ table ∈ wordTables, table.contains c = true := by
  have notUnderscore : c ≠ '_' := by
    rintro rfl
    simp [isAscii] at wide
  simp only [isWordChar, isAlphanumeric, isAlphabetic, isNumeric, isLetter, wide, notUnderscore,
    decide_false, Bool.false_eq_true, if_false, Bool.or_eq_true, false_or] at word
  simp only [wordTables, List.mem_cons, List.not_mem_nil, or_false, exists_eq_or_imp,
    exists_eq_left]
  grind

/-- No blank is a character of a word. -/
theorem isWordChar_eq_false_of_isBlank {c : Char} (blank : isBlank c = true) :
    isWordChar c = false := by
  by_cases wide : isAscii c = false
  · refine Bool.eq_false_iff.mpr fun word => ?_
    obtain ⟨table, member, holds⟩ := table_of_isWordChar word wide
    exact not_covers_of_apart (wordTables_apart table member) (covers_of_isBlank blank wide)
      (covers_of_contains holds)
  · -- Plain ASCII is decided without the tables: its blanks stand below every letter and digit.
    have plain : isAscii c = true := by simpa using wide
    have low : c.toNat ≤ 32 := by
      simp only [isBlank, plain, if_true, Bool.or_eq_true, decide_eq_true_eq,
        Bool.and_eq_true] at blank
      rcases blank with rfl | ⟨_, high⟩
      · decide
      · exact Nat.le_trans (UInt32.le_iff_toNat_le.mp high) (by decide)
    have above : ∀ first : Char, 32 < first.toNat → ¬ first ≤ c := by
      intro first beyond le
      have := UInt32.le_iff_toNat_le.mp le
      exact absurd (Nat.lt_of_lt_of_le beyond this) (Nat.not_lt.mpr low)
    have notUnderscore : c ≠ '_' := by
      rintro rfl
      exact absurd low (by decide)
    simp [isWordChar, isAlphanumeric, isAlphabetic, isNumeric, plain, isAsciiLetter, isAsciiLower,
      isAsciiUpper, isAsciiDigit, notUnderscore, above 'a' (by decide), above 'A' (by decide),
      above '0' (by decide)]

end StructInventory.Text
