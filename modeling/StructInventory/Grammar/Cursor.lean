import StructInventory.Token.Basic

/-!
Reading a token sequence. A reader either fails at a position or goes on, and while it goes it
keeps three records: the tokens read, spaced as the grammar groups them; the ends of declarations;
and the first token that was left over in some group.

A reader that fails has no effect, so looking ahead is reading and dropping the result. One that
goes on passes over the tokens in front of it in order; every reader carries the proof of that.
-/

namespace StructInventory

/-- Where a reader stands. `scope` is where a missing token is reported when no token is left, and
`last` is the end of the token read last. `printed` and `marks` are newest first. -/
structure Cursor where
  rest : List Token
  scope : Pos
  last : Pos
  stray : Option Pos := none
  marks : List Pos := []
  printed : List Token := []

namespace Cursor

/-- Where a reader that can go no further reports it. -/
def here (cursor : Cursor) : Pos := (cursor.rest.head?.map Token.start).getD cursor.scope

/-- From `before`, a reader comes to `after` by passing over `passed` and noting `marked`. A mark
stands at braces that were passed or inside them; if the reader `declares`, at any token that was. -/
structure Passes (declares : Bool) (before : Cursor) (passed : List Token) (marked : List Pos)
    (after : Cursor) : Prop where
  rest : before.rest = passed ++ after.rest
  scope : after.scope = before.scope
  last : after.last = (passed.getLast?.map Token.stop).getD before.last
  marks : after.marks = marked ++ before.marks
  placed : ∀ pos ∈ marked, pos ∈ Token.bracedEdgesOf passed ∨
    declares = true ∧ pos ∈ Token.edgesOf passed

def Reaches (declares : Bool) (before after : Cursor) : Prop :=
  ∃ passed marked, before.Passes declares passed marked after

variable {declares : Bool} {before middle after : Cursor}

/-- What is printed and what was left over make no difference. -/
theorem reaches_same (rest : after.rest = before.rest) (scope : after.scope = before.scope)
    (last : after.last = before.last) (marks : after.marks = before.marks) :
    before.Reaches declares after :=
  ⟨[], [], by simp [rest], scope, by simp [last], by simp [marks], by simp⟩

theorem Passes.last_mem_edges {passed : List Token} {marked : List Pos}
    (passes : before.Passes declares passed marked after) (some : passed ≠ []) :
    after.last ∈ Token.edgesOf passed := by
  rw [passes.last, List.getLast?_eq_some_getLast some]
  exact Token.edges_subset_edgesOf (List.getLast_mem some) (Token.stop_mem_edges _)

theorem Passes.trans {passed passed' : List Token} {marked marked' : List Pos}
    (first : before.Passes declares passed marked middle)
    (second : middle.Passes declares passed' marked' after) :
    before.Passes declares (passed ++ passed') (marked' ++ marked) after where
  rest := by rw [first.rest, second.rest, List.append_assoc]
  scope := second.scope.trans first.scope
  last := by
    rw [second.last, first.last, List.getLast?_append]
    cases passed'.getLast? <;> rfl
  marks := by rw [second.marks, first.marks, List.append_assoc]
  placed := by
    intro pos noted
    rw [Token.bracedEdgesOf_append, Token.edgesOf_append, List.mem_append, List.mem_append]
    rcases List.mem_append.mp noted with noted | noted
    · rcases second.placed pos noted with braced | ⟨loud, edge⟩
      · exact .inl (.inr braced)
      · exact .inr ⟨loud, .inr edge⟩
    · rcases first.placed pos noted with braced | ⟨loud, edge⟩
      · exact .inl (.inl braced)
      · exact .inr ⟨loud, .inl edge⟩

theorem Reaches.trans (first : before.Reaches declares middle)
    (second : middle.Reaches declares after) : before.Reaches declares after := by
  obtain ⟨passed, marked, first⟩ := first
  obtain ⟨passed', marked', second⟩ := second
  exact ⟨_, _, first.trans second⟩

theorem Reaches.declaring (reaches : before.Reaches false after) :
    before.Reaches declares after := by
  obtain ⟨passed, marked, passes⟩ := reaches
  refine ⟨passed, marked, passes.rest, passes.scope, passes.last, passes.marks, fun pos noted => ?_⟩
  rcases passes.placed pos noted with braced | ⟨loud, _⟩
  · exact .inl braced
  · cases loud

/-- One token is passed over and nothing is noted. -/
theorem reaches_next {token : Token} (rest : before.rest = token :: after.rest)
    (scope : after.scope = before.scope) (last : after.last = token.stop)
    (marks : after.marks = before.marks) : before.Reaches declares after :=
  ⟨[token], [], rest, scope, last, by simp [marks], by simp⟩

end Cursor

/-- A way to read on from a cursor; see `Cursor.Passes` for what `declares` says. -/
structure Reading (declares : Bool) (α : Type) where
  run : Cursor → Except Pos (α × Cursor)
  orderly : ∀ {before after : Cursor} {value : α},
    run before = .ok (value, after) → before.Reaches declares after

/-- Reads a phrase: declarations end only in its braces. -/
abbrev Reader := Reading false

/-- Reads declarations or parts of them. -/
abbrev DeclReader := Reading true

namespace Reading

variable {declares : Bool} {α β : Type}

/-- Runs one reader and, from where it ends, the next. -/
def andThen (reader : Reading declares α) (next : α → Reading declares β) (cursor : Cursor) :
    Except Pos (β × Cursor) :=
  match reader.run cursor with
  | .error pos => .error pos
  | .ok (value, cursor) => (next value).run cursor

theorem andThen_eq_ok {reader : Reading declares α} {next : α → Reading declares β}
    {before after : Cursor} {value : β} :
    reader.andThen next before = .ok (value, after) ↔
      ∃ given middle, reader.run before = .ok (given, middle) ∧
        (next given).run middle = .ok (value, after) := by
  unfold andThen
  rcases reader.run before with pos | ⟨given, middle⟩
  · simp
  · simp only [Except.ok.injEq, Prod.mk.injEq]
    constructor
    · exact fun done => ⟨given, middle, ⟨rfl, rfl⟩, done⟩
    · rintro ⟨_, _, ⟨rfl, rfl⟩, done⟩
      exact done

instance : Monad (Reading declares) where
  pure value :=
    { run := fun cursor => .ok (value, cursor)
      orderly := by
        rintro before after value' ⟨⟩
        exact Cursor.reaches_same rfl rfl rfl rfl }
  bind reader next :=
    { run := reader.andThen next
      orderly := by
        intro before after value done
        obtain ⟨given, middle, first, second⟩ := andThen_eq_ok.mp done
        exact (reader.orderly first).trans ((next given).orderly second) }

instance : MonadLift Reader (Reading declares) where
  monadLift reader := ⟨reader.run, fun done => (reader.orderly done).declaring⟩

end Reading

end StructInventory
