import StructInventory.Proofs.TypeGrammar

/-!
Tokens as a text spells them: its words and lifetimes can be written again.
-/

namespace StructInventory

open Text

/-! ### Words -/

theorem Ident.of_read? {text rest : List Char} {ident : Ident}
    (read : Ident.read? text = some (ident, rest)) :
    text = ident.text.toList ++ rest ∧
      ∃ c more, ident.text.toList = c :: more ∧ isIdentStart c = true := by
  cases text with
  | nil => cases read
  | cons c text =>
    rw [Ident.read?] at read
    split at read
    next start =>
      cases read
      have spelled : (Ident.ofRun c text start).text.toList = c :: text.takeWhile isIdentContinue := by
        simp [Ident.ofRun]
      rw [spelled]
      exact ⟨by simp [List.takeWhile_append_dropWhile], c, _, rfl, start⟩
    · cases read

/-- What is read as a word is its text. -/
theorem Word.of_read? {text rest : List Char} {word : Word}
    (read : Word.read? text = some (word, rest)) : word.Lexed ∧ text = word.text.toList ++ rest := by
  unfold Word.read? at read
  split at read
  · obtain ⟨⟨name, behind⟩, found, kept⟩ := Option.bind_eq_some_iff.mp read
    dsimp only at kept
    split at kept
    · cases kept
    next allowed =>
      cases kept
      obtain ⟨rfl, start⟩ := Ident.of_read? found
      exact ⟨⟨start, fun _ => by simpa using allowed⟩, by simp [Word.text]⟩
  · obtain ⟨⟨name, behind⟩, found, kept⟩ := Option.map_eq_some_iff.mp read
    cases kept
    obtain ⟨rfl, start⟩ := Ident.of_read? found
    exact ⟨⟨start, by simp⟩, by simp [Word.text]⟩

/-! ### Tokens -/

namespace Token

/-- A token as a text spells it. -/
inductive Proper : Token → Prop where
  | word {word : Word} {start stop : Pos} (lexed : word.Lexed) : Proper (.word word start stop)
  | lifetime {name : String} {start stop : Pos} (isLifetime : IsLifetime name) :
      Proper (.lifetime name start stop)
  | punct {c : Char} {joint : Bool} {start stop : Pos} : Proper (.punct c joint start stop)
  | literal {text : String} {start stop : Pos} : Proper (.literal text start stop)
  | group {delimiter : Delimiter} {inside : List Token} {start closing stop : Pos}
      (within : ∀ token ∈ inside, Proper token) : Proper (.group delimiter inside start closing stop)

end Token

namespace Lexeme

def Proper : Lexeme → Prop
  | .token found => found.Proper
  | .opening .. | .closing .. | .bad _ => True

theorem exists_word_of_afterLifetime {text rest : List Char} (ended : afterLifetime text = some rest) :
    ∃ word : Word, word.Lexed ∧ text = word.text.toList ++ rest := by
  obtain ⟨⟨word, behind⟩, read, kept⟩ := Option.bind_eq_some_iff.mp ended
  obtain ⟨lexed, same⟩ := Word.of_read? read
  dsimp only at kept
  -- Whatever follows, nothing behind the word is taken.
  obtain rfl : behind = rest := by
    split at kept
    · cases kept
    · split at kept
      · cases kept
        rfl
      · cases kept
    · cases kept
      rfl
  exact ⟨word, lexed, same⟩

theorem proper_leaf? {text : List Char} {pos : Pos} {token : Token} {length : Nat}
    (found : leaf? text pos = some (token, length)) : token.Proper := by
  unfold leaf? at found
  dsimp only at found
  split at found
  · cases found
    exact .literal
  · split at found
    next rest =>
      obtain ⟨behind, ended, made⟩ := Option.map_eq_some_iff.mp found
      cases made
      obtain ⟨word, lexed, same⟩ := exists_word_of_afterLifetime ended
      refine .lifetime ⟨word, lexed, ?_⟩
      rw [same, passed, ← List.cons_append, List.length_append, Nat.add_sub_cancel, List.take_left]
      exact String.toList_inj.mp (by simp)
    next c rest =>
      split at found
      · cases found
        exact .punct
      · split at found
        · cases found
        · obtain ⟨⟨word, behind⟩, read, made⟩ := Option.map_eq_some_iff.mp found
          cases made
          exact .word (Word.of_read? read).1
    · cases found

theorem proper_docTokens {inner : Bool} {body : List Char} {start stop : Pos} :
    ∀ token ∈ docTokens inner body start stop, token.Proper := by
  have tag : ∀ text, ∀ token ∈ [Token.word ⟨false, "doc", by decide, by decide⟩ start stop,
      .punct '=' false start stop, .literal text start stop], token.Proper := by
    intro text token member
    simp only [List.mem_cons, List.not_mem_nil, or_false] at member
    rcases member with rfl | rfl | rfl
    · exact .word ⟨⟨'d', _, rfl, by decide⟩, by simp⟩
    · exact .punct
    · exact .literal
  intro token member
  unfold docTokens at member
  dsimp only at member
  split at member
  all_goals
    simp only [List.mem_cons, List.not_mem_nil, or_false] at member
  · rcases member with rfl | rfl | rfl
    · exact .punct
    · exact .punct
    · exact .group (tag _)
  · rcases member with rfl | rfl
    · exact .punct
    · exact .group (tag _)

theorem proper_step (text : List Char) (pos : Pos) : ∀ lexeme ∈ (step text pos).1, lexeme.Proper := by
  unfold step
  split
  · simp
  · intro lexeme member
    obtain ⟨token, listed, rfl⟩ := List.mem_map.mp member
    exact proper_docTokens token listed
  · simp [Proper]
  · split
    · simp
    next c rest _ =>
      split
      · simp
      · split
        next lexeme bracket =>
          obtain ⟨_, delimiter, rfl | rfl⟩ := bracket?_eq_some bracket <;> simp [Proper]
        · cases found : leaf? (c :: rest) pos with
          | none => simp [Proper]
          | some pair => simpa [Proper] using proper_leaf? found

theorem proper_scan (fuel : Nat) (text : List Char) (pos : Pos) :
    ∀ lexeme ∈ scan fuel text pos, lexeme.Proper := by
  induction fuel generalizing text pos with
  | zero => simp [scan]
  | succ fuel ih =>
    intro lexeme member
    rw [scan] at member
    split at member
    · cases member
    · rcases List.mem_append.mp member with own | later
      · exact proper_step text pos lexeme own
      · exact ih _ _ lexeme later

end Lexeme

namespace Token

theorem proper_nest {frames : List Frame} {inside tokens : List Token} {lexemes : List Lexeme}
    (outer : ∀ frame ∈ frames, ∀ token ∈ frame.outer, token.Proper)
    (within : ∀ token ∈ inside, token.Proper) (proper : ∀ lexeme ∈ lexemes, lexeme.Proper)
    (nested : nest frames inside lexemes = .ok tokens) : ∀ token ∈ tokens, token.Proper := by
  fun_induction nest frames inside lexemes with
  | case1 inside =>
    cases nested
    simpa using within
  | case2 => cases nested
  | case3 => cases nested
  | case4 frames inside token rest ih =>
    rw [List.forall_mem_cons] at proper
    exact ih outer (List.forall_mem_cons.mpr ⟨proper.1, within⟩) proper.2 nested
  | case5 frames inside delimiter pos rest ih =>
    -- A bracket opens: what was inside so far waits in a new frame.
    rw [List.forall_mem_cons] at proper
    exact ih (List.forall_mem_cons.mpr ⟨within, outer⟩) (by simp) proper.2 nested
  | case6 => cases nested
  | case7 frame frames inside pos rest group ih =>
    -- It closes: what is inside becomes one token behind those that waited.
    rw [List.forall_mem_cons] at proper outer
    refine ih outer.2 (List.forall_mem_cons.mpr ⟨.group ?_, outer.1⟩) proper.2 nested
    simpa using within
  | case8 => cases nested

/-- Every token of a text is spelled as that text spells it. -/
theorem proper_of_lex {text : String} {tokens : List Token} (lexed : lex text = .ok tokens) :
    ∀ token ∈ tokens, token.Proper :=
  proper_nest (by simp) (by simp) (Lexeme.proper_scan _ _ _) lexed

end Token

end StructInventory
