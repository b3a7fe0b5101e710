import StructInventory.Text.Respacing

/-!
What respacing keeps. It drops nothing but spaces, and of those it drops none that stands between
two words. Whether a space is dropped depends on the last character written before it and on the
next one to be read; where no two spaces are adjacent both stand beside it in the result as well, so
that respacing a second time drops nothing more.
-/

namespace StructInventory.Text

theorem respaceFrom_of_not_mem {chars : List Char} (none : ' ' ∉ chars) (previous : Option Char) :
    respaceFrom previous chars = chars := by
  induction chars generalizing previous with
  | nil => rfl
  | cons c rest ih =>
    rw [List.mem_cons, not_or] at none
    simp [respaceFrom, Ne.symm none.1, ih none.2]

/-- A character that is no space separates what is respaced on its two sides. -/
theorem respaceFrom_append {first : List Char} {c : Char} (solid : c ≠ ' ') (second : List Char)
    (previous : Option Char) :
    respaceFrom previous (first ++ c :: second) =
      respaceFrom previous (first ++ [c]) ++ respaceFrom (some c) second := by
  induction first generalizing previous with
  | nil => simp [respaceFrom, solid]
  | cons d rest ih =>
    -- Which character comes next does not depend on what is behind the separating one.
    have next : (rest ++ c :: second).head? = (rest ++ [c]).head? := by cases rest <;> rfl
    simp only [List.cons_append, respaceFrom, next]
    split
    · exact ih previous
    · rw [ih, List.cons_append]

theorem head?_respaceFrom {chars : List Char} (solid : ∀ c ∈ chars.head?, c ≠ ' ')
    (previous : Option Char) : (respaceFrom previous chars).head? = chars.head? := by
  cases chars with
  | nil => rfl
  | cons c rest =>
    have visible : c ≠ ' ' := solid c rfl
    simp [respaceFrom, visible]

/-! ### What is not dropped -/

/-- A text without its spaces. -/
def unspaced (chars : List Char) : List Char := chars.filter (· ≠ ' ')

theorem unspaced_respaceFrom (previous : Option Char) (chars : List Char) :
    unspaced (respaceFrom previous chars) = unspaced chars := by
  fun_induction respaceFrom previous chars with
  | case1 => rfl
  | case2 previous c rest dropped ih =>
    rw [Bool.and_eq_true, decide_eq_true_eq] at dropped
    simpa [unspaced, dropped.1] using ih
  | case3 previous c rest _ ih =>
    unfold unspaced at ih ⊢
    rw [List.filter_cons, List.filter_cons, ih]

theorem exists_respaceFrom_concat {c : Char} (solid : c ≠ ' ') (front : List Char)
    (previous : Option Char) : ∃ kept, respaceFrom previous (front ++ [c]) = kept ++ [c] ∧
      unspaced kept = unspaced front := by
  have ends : ∃ kept, respaceFrom previous (front ++ [c]) = kept ++ [c] := by
    induction front generalizing previous with
    | nil => exact ⟨[], by simp [respaceFrom, solid]⟩
    | cons d rest ih =>
      rw [List.cons_append, respaceFrom]
      split
      · exact ih previous
      · obtain ⟨kept, later⟩ := ih (some d)
        exact ⟨d :: kept, by rw [later, List.cons_append]⟩
  obtain ⟨kept, respaced⟩ := ends
  refine ⟨kept, respaced, ?_⟩
  have same := unspaced_respaceFrom previous (front ++ [c])
  simpa [respaced, unspaced, solid] using same

/-! ### Spaces between words -/

/-- A character that no space is dropped for, on either side. -/
structure Loose (c : Char) : Prop where
  before : hugsNext c = false
  behind : hugsPrevious c = false
  word : hugsWord c = false

theorem loose_space : Loose ' ' := ⟨by decide, by decide, by decide⟩

theorem loose_of_isWordChar {c : Char} (word : isWordChar c = true) : Loose c := by
  -- None of the characters that spaces are dropped for belongs to a word.
  have other {d : Char} (mark : isWordChar d = false) : c ≠ d := by
    rintro rfl
    rw [mark] at word
    cases word
  constructor <;>
    simp [hugsNext, hugsPrevious, hugsWord, other (d := '(') (by decide),
      other (d := ')') (by decide), other (d := '[') (by decide), other (d := ']') (by decide),
      other (d := '<') (by decide), other (d := '>') (by decide), other (d := '&') (by decide),
      other (d := ':') (by decide), other (d := ',') (by decide), other (d := ';') (by decide)]

theorem Loose.dropsSpace {first last : Char} (loose : Loose first) (loose' : Loose last) :
    dropsSpace (some first) (some last) = false := by
  simp [Text.dropsSpace, loose.before, loose'.behind, loose'.word]

/-- All spaces between two such characters are kept, since a space is one of them itself. -/
theorem Loose.respaceFrom_replicate {first last : Char} (loose : Loose first)
    (loose' : Loose last) (visible : last ≠ ' ') (count : Nat) (back : List Char) :
    respaceFrom (some first) (List.replicate count ' ' ++ last :: back) =
      List.replicate count ' ' ++ last :: respaceFrom (some last) back := by
  induction count generalizing first with
  | zero => simp [respaceFrom, visible]
  | succ count ih =>
    have kept : Text.dropsSpace (some first)
        (List.replicate count ' ' ++ last :: back).head? = false := by
      cases count with
      | zero => exact loose.dropsSpace loose'
      | succ => exact loose.dropsSpace loose_space
    rw [List.replicate_succ, List.cons_append, respaceFrom, kept, ih loose_space]
    rfl

theorem ne_space_of_isWordChar {c : Char} (word : isWordChar c = true) : c ≠ ' ' := by
  rintro rfl
  exact absurd word (by decide)

/-! ### Respacing again -/

/-- Behind `previous` there is no space that respacing drops. -/
inductive Settled : Option Char → List Char → Prop where
  | nil (previous : Option Char) : Settled previous []
  | cons {previous : Option Char} {c : Char} {rest : List Char}
      (kept : c = ' ' → dropsSpace previous rest.head? = false) (later : Settled (some c) rest) :
      Settled previous (c :: rest)

theorem Settled.respaceFrom_eq {previous : Option Char} {chars : List Char}
    (settled : Settled previous chars) : respaceFrom previous chars = chars := by
  induction settled with
  | nil => rfl
  | cons kept _ ih =>
    rw [respaceFrom, ih, if_neg]
    rw [Bool.and_eq_true, decide_eq_true_eq]
    rintro ⟨space, dropped⟩
    rw [kept space] at dropped
    cases dropped

/-- A space that is kept has the same neighbours in the result, unless a space follows it. -/
theorem settled_respaceFrom {chars : List Char} (single : ¬[' ', ' '] <:+: chars)
    (previous : Option Char) : Settled previous (respaceFrom previous chars) := by
  fun_induction respaceFrom previous chars with
  | case1 previous => exact .nil previous
  | case2 previous c rest _ ih => exact ih fun double => single (List.infix_cons double)
  | case3 previous c rest kept ih =>
    refine .cons (fun space => ?_) (ih fun double => single (List.infix_cons double))
    subst space
    -- No space follows this one, so that its next character is still there.
    have visible : ∀ d ∈ rest.head?, d ≠ ' ' := by
      rintro d begins rfl
      obtain ⟨others, rfl⟩ := List.head?_eq_some_iff.mp begins
      exact single ⟨[], others, rfl⟩
    rw [head?_respaceFrom visible]
    simpa using kept

/-! ### Texts -/

/-- Respacing drops nothing but spaces. Two characters of words that only spaces stand between keep
all of these spaces between them, with what stood before and behind them at its place; and where no
two spaces are adjacent, respacing a second time changes nothing. -/
theorem respace_keeps_words_apart (text : String) :
    unspaced (respace text).toList = unspaced text.toList ∧
    (∀ (front back : List Char) (first last : Char) (count : Nat),
      isWordChar first = true → isWordChar last = true →
      text.toList = front ++ first :: (List.replicate (count + 1) ' ' ++ last :: back) →
      ∃ front' back', unspaced front' = unspaced front ∧ unspaced back' = unspaced back ∧
        (respace text).toList =
          front' ++ first :: (List.replicate (count + 1) ' ' ++ last :: back')) ∧
    (¬[' ', ' '] <:+: text.toList → respace (respace text) = respace text) := by
  have written : (respace text).toList = respaceFrom none text.toList := by simp [respace]
  refine ⟨?_, ?_, fun single => ?_⟩
  · rw [written]
    exact unspaced_respaceFrom none text.toList
  · -- The two characters divide the text into parts that are respaced on their own.
    intro front back first last count word word' spelled
    have visible := ne_space_of_isWordChar word
    obtain ⟨front', kept, same⟩ := exists_respaceFrom_concat visible front none
    refine ⟨front', respaceFrom (some last) back, same, unspaced_respaceFrom _ back, ?_⟩
    have between := (loose_of_isWordChar word).respaceFrom_replicate (loose_of_isWordChar word')
      (ne_space_of_isWordChar word') (count + 1) back
    rw [written, spelled, respaceFrom_append visible, kept, between, List.append_assoc,
      List.singleton_append]
  · have settled := (settled_respaceFrom single none).respaceFrom_eq
    rw [respace, written, settled]
    rfl

/-- A text in which two words stand two spaces apart, and one without two adjacent spaces. -/
theorem respace_keeps_words_apart_arguments :
    (∃ front back, unspaced front = ['f', '('] ∧ unspaced back = [')', '<', 'c'] ∧
      (respace "f ( a  b ) < c").toList = front ++ 'a' :: ([' ', ' '] ++ 'b' :: back)) ∧
    respace "& dyn Fn (u8 , T) -> Vec < T >" = "&dyn Fn(u8, T) -> Vec<T>" ∧
    respace "&dyn Fn(u8, T) -> Vec<T>" = "&dyn Fn(u8, T) -> Vec<T>" := by
  obtain ⟨_, apart, _⟩ := respace_keeps_words_apart "f ( a  b ) < c"
  obtain ⟨_, _, again⟩ := respace_keeps_words_apart "& dyn Fn (u8 , T) -> Vec < T >"
  have respaced : respace "& dyn Fn (u8 , T) -> Vec < T >" = "&dyn Fn(u8, T) -> Vec<T>" := by
    decide +kernel
  rw [respaced] at again
  exact ⟨apart "f ( ".toList " ) < c".toList 'a' 'b' 1 (by decide) (by decide) (by decide),
    respaced, again (by decide +kernel)⟩

/-- Of two adjacent spaces the first is kept for the second, although that is dropped itself. -/
example : respace "a  )" = "a )" ∧ respace "a )" = "a)" := by decide

end StructInventory.Text
