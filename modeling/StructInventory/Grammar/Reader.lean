import StructInventory.Grammar.Cursor
import StructInventory.Token.Literal

/-!
The steps that readers are made of, and the ways to put them together.
-/

namespace StructInventory

namespace Reader

/-! ### What comes next

Tests on the tokens ahead. `second` and `third` apply a test behind one or two tokens. -/

abbrev Test := List Token → Bool

def atEnd : Test := List.isEmpty

def second (test : Test) : Test := fun ahead => test (ahead.drop 1)

def third (test : Test) : Test := fun ahead => test (ahead.drop 2)

def atWord (name : String) : Test
  | .word found _ _ :: _ => found.text == name
  | _ => false

def atAnyWord : Test
  | .word .. :: _ => true
  | _ => false

/-- Words that are no identifiers. -/
def reserved : List String :=
  ["_", "abstract", "as", "async", "await", "become", "box", "break", "const", "continue",
    "crate", "do", "dyn", "else", "enum", "extern", "false", "final", "fn", "for", "if", "impl",
    "in", "let", "loop", "macro", "match", "mod", "move", "mut", "override", "priv", "pub", "ref",
    "return", "Self", "self", "static", "struct", "super", "trait", "true", "try", "type",
    "typeof", "unsafe", "unsized", "use", "virtual", "where", "while", "yield"]

def atIdent : Test
  | .word found _ _ :: _ => !reserved.contains found.text
  | _ => false

/-- Whether the punctuation characters `marks` come next, each joint with the one after it. -/
def atMarks : List Char → Test
  | [], _ => true
  | [c], .punct found _ _ _ :: _ => found == c
  | c :: cs, .punct found joint _ _ :: rest => found == c && joint && atMarks cs rest
  | _, _ => false

def atPunct (marks : String) : Test := atMarks marks.toList

def atLifetime : Test
  | .lifetime .. :: _ => true
  | _ => false

def atGroup (delimiter : Delimiter) : Test
  | .group found _ _ _ _ :: _ => found == delimiter
  | _ => false

def atParen : Test := atGroup .paren

def atBracket : Test := atGroup .bracket

def atBrace : Test := atGroup .brace

/-- A literal that is a number, so that a minus sign before it may be part of it. -/
def isNumber (text : String) : Bool := text.toList.head?.any Text.isAsciiDigit

def atLiteral : Test
  | .literal .. :: _ => true
  | .word found _ _ :: _ => found.text == "true" || found.text == "false"
  | .punct '-' _ _ _ :: .literal text _ _ :: _ => isNumber text
  | _ => false

/-- A string literal, cooked or raw, that is neither bytes nor C text. -/
def isText (text : String) : Bool := text.toList.head?.any fun c => c = '"' || c = 'r'

def atText : Test
  | .literal text _ _ :: _ => isText text
  | _ => false

/-! ### Steps -/

section

variable {declares : Bool} {α : Type}

/-- Something about where the reader stands. -/
def ask (question : Cursor → α) : Reading declares α where
  run cursor := .ok (question cursor, cursor)
  orderly := by
    rintro before after value ⟨⟩
    exact Cursor.reaches_same rfl rfl rfl rfl

def cursor : Reading declares Cursor := ask id

def look (test : Test) : Reading declares Bool := ask fun cursor => test cursor.rest

def here : Reading declares Pos := ask Cursor.here

def failAt (pos : Pos) : Reading declares α where
  run _ := .error pos
  orderly := nofun

/-- Reports that what comes next does not fit. -/
def fail : Reading declares α where
  run cursor := .error cursor.here
  orderly := nofun

end

/-- Passes over the next token if `accept` answers a value and what to print for it. -/
def next {α : Type} (accept : Token → Option (α × List Token)) : Reader α where
  run cursor :=
    match cursor.rest with
    | [] => .error cursor.here
    | token :: rest =>
      match accept token with
      | none => .error cursor.here
      | some (value, shown) => .ok (value, { cursor with
          rest := rest, last := token.stop, printed := shown.reverse ++ cursor.printed })
  orderly := by
    intro before after value done
    split at done
    · cases done
    next token rest ahead =>
      split at done
      · cases done
      · cases done
        exact Cursor.reaches_next ahead rfl rfl rfl

/-- Exchanges the tokens printed so far. -/
def reprint {declares : Bool} {α : Type} (exchange : List Token → α × List Token) :
    Reading declares α where
  run cursor :=
    let (value, printed) := exchange cursor.printed
    .ok (value, { cursor with printed := printed })
  orderly := by
    rintro before after value ⟨⟩
    exact Cursor.reaches_same rfl rfl rfl rfl

/-- Adds tokens to the printed ones without reading any. -/
def emit (tokens : List Token) : Reader Unit :=
  reprint fun printed => ((), tokens.reverse ++ printed)

def anyWord : Reader Word :=
  next fun
    | .word found start stop => some (found, [.word found start stop])
    | _ => none

def word (name : String) : Reader Unit := do
  if ← look (atWord name) then discard anyWord else fail

def word? (name : String) : Reader Bool := do
  if ← look (atWord name) then
    discard anyWord
    return true
  else return false

def ident : Reader Word := do
  if ← look atIdent then anyWord else fail

/-- An identifier, or one of the words `names`. -/
def identOr (names : List String) : Reader Word := do
  if ← look fun ahead => atIdent ahead || names.any (atWord · ahead) then anyWord else fail

def eatMarks : List Char → Reader Unit
  | [] => return
  | c :: cs => do
    next fun
      | .punct mark _ start stop =>
        if mark == c then some ((), [.punct mark (!cs.isEmpty) start stop]) else none
      | _ => none
    eatMarks cs

/-- An operator: printed so that its characters stand together and apart from what follows. -/
def punct (marks : String) : Reader Unit := do
  if ← look (atPunct marks) then eatMarks marks.toList else fail

def punct? (marks : String) : Reader Bool := do
  if ← look (atPunct marks) then
    eatMarks marks.toList
    return true
  else return false

def lifetime : Reader String :=
  next fun
    | .lifetime name start stop => some (name, [.lifetime name start stop])
    | _ => none

def lifetime? : Reader (Option String) := do
  if ← look atLifetime then return some (← lifetime) else return none

/-- A literal or word as it is written. -/
def writtenToken : Reader String :=
  next fun
    | .literal text start stop => some (text, [.literal text start stop])
    | .word found start stop => some (found.text, [.word found start stop])
    | _ => none

/-- A literal, among them the truth values and numbers with a minus sign. -/
def literal : Reader String := do
  if !(← look atLiteral) then fail
  else if ← punct? "-" then return String.ofList ('-' :: (← writtenToken).toList)
  else writtenToken

/-- A group whose inside is taken as it is. -/
def rawGroup : Reader (Delimiter × List Token) :=
  next fun
    | .group delimiter inside start closing stop =>
      some ((delimiter, inside), [.group delimiter inside start closing stop])
    | _ => none

/-- Takes all tokens that are left as they are. -/
def rawRest : Reader Unit where
  run cursor := .ok ((), { cursor with
    rest := []
    last := (cursor.rest.getLast?.map Token.stop).getD cursor.last
    printed := cursor.rest.reverse ++ cursor.printed })
  orderly := by
    rintro before after value ⟨⟩
    exact ⟨before.rest, [], by simp, rfl, rfl, rfl, by simp⟩

/-! ### Groups -/

section

variable {declares : Bool} {α : Type}

/-- Runs `inner` inside the next group. What it leaves over is noted as stray, unless something was
before. If the group `opens` a body, no comment reaches across its beginning. -/
def enter (delimiter : Delimiter) (opens : Bool) (inner : Reading declares α) (cursor : Cursor) :
    Except Pos (α × Cursor) :=
  match cursor.rest with
  | .group found inside start closing stop :: rest =>
    if found != delimiter then .error cursor.here
    else match inner.run { cursor with
        rest := inside
        scope := closing
        last := closing
        marks := if opens then start :: cursor.marks else cursor.marks
        printed := [] } with
      | .error pos => .error pos
      | .ok (value, final) => .ok (value, { cursor with
          rest := rest
          last := stop
          stray := final.stray <|> (final.rest.head?.map Token.start)
          marks := final.marks
          printed := .group delimiter final.printed.reverse start closing stop :: cursor.printed })
  | _ => .error cursor.here

/-- The group that was entered, and where the reader of its inside began and ended. -/
structure Entered (delimiter : Delimiter) (opens : Bool) (inner : Reading declares α)
    (before : Cursor) (value : α) (after : Cursor) (inside : List Token) (start closing : Pos)
    (first final : Cursor) : Prop where
  rest : ∃ stop, before.rest = .group delimiter inside start closing stop :: after.rest ∧
    after.last = stop
  scope : after.scope = before.scope
  marks : after.marks = final.marks
  within : first.rest = inside
  opened : first.marks = if opens then start :: before.marks else before.marks
  ran : inner.run first = .ok (value, final)

theorem exists_entered {delimiter : Delimiter} {opens : Bool} {inner : Reading declares α}
    {before after : Cursor} {value : α}
    (done : enter delimiter opens inner before = .ok (value, after)) :
    ∃ inside start closing first final,
      Entered delimiter opens inner before value after inside start closing first final := by
  unfold enter at done
  split at done
  next found inside start closing stop rest ahead =>
    split at done
    · cases done
    next same =>
      obtain rfl : found = delimiter := by simpa using same
      split at done
      · cases done
      next value' final ran =>
        cases done
        exact ⟨inside, start, closing, _, final, ⟨stop, ahead, rfl⟩, rfl, rfl, rfl, rfl, ran⟩
  · cases done

variable {inner : Reading declares α} {before after first final : Cursor} {value : α}
  {inside : List Token} {start closing : Pos}

theorem Entered.reaches {delimiter : Delimiter}
    (entered : Entered delimiter false inner before value after inside start closing first final) :
    before.Reaches declares after := by
  obtain ⟨passed, marked, passes⟩ := inner.orderly entered.ran
  obtain ⟨stop, ahead, stopped⟩ := entered.rest
  have split : inside = passed ++ final.rest := entered.within ▸ passes.rest
  refine ⟨[.group delimiter inside start closing stop], marked, ahead, entered.scope, stopped, ?_, ?_⟩
  · rw [entered.marks, passes.marks, entered.opened]
    rfl
  · intro pos noted
    rcases passes.placed pos noted with braced | ⟨loud, edge⟩
    · left
      have : pos ∈ Token.bracedEdgesOf inside := by
        rw [split, Token.bracedEdgesOf_append]
        exact List.mem_append_left _ braced
      cases delimiter with
      | paren | bracket => simpa [Token.bracedEdgesOf, Token.bracedEdges] using this
      | brace => simp [Token.bracedEdgesOf, Token.bracedEdges, Token.bracedEdgesOf_subset _ this]
    · exact .inr ⟨loud, by simp [Token.edgesOf, Token.edges, split, Token.edgesOf_append, edge]⟩

/-- What is noted inside braces lies in braces. -/
theorem Entered.reaches_brace {opens : Bool}
    (entered : Entered .brace opens inner before value after inside start closing first final) :
    before.Reaches false after := by
  obtain ⟨passed, marked, passes⟩ := inner.orderly entered.ran
  obtain ⟨stop, ahead, stopped⟩ := entered.rest
  have split : inside = passed ++ final.rest := entered.within ▸ passes.rest
  refine ⟨[.group .brace inside start closing stop], marked ++ if opens then [start] else [], ahead,
    entered.scope, stopped, ?_, ?_⟩
  · rw [entered.marks, passes.marks, entered.opened]
    cases opens <;> simp
  · intro pos noted
    left
    simp only [Token.bracedEdgesOf, Token.bracedEdges, split, Token.edgesOf_append]
    rcases List.mem_append.mp noted with noted | noted
    · rcases passes.placed pos noted with braced | ⟨loud, edge⟩
      · simp [Token.bracedEdgesOf_subset _ braced]
      · simp [edge]
    · cases opens <;> simp_all

/-- A group whose inside is read by `inner`. -/
def group (delimiter : Delimiter) (inner : Reading declares α) : Reading declares α where
  run := enter delimiter false inner
  orderly done := by
    obtain ⟨inside, start, closing, first, final, entered⟩ := exists_entered done
    exact entered.reaches

def parens (inner : Reading declares α) : Reading declares α := group .paren inner

def brackets (inner : Reading declares α) : Reading declares α := group .bracket inner

def braces (inner : DeclReader α) : Reader α where
  run := enter .brace false inner
  orderly done := by
    obtain ⟨inside, start, closing, first, final, entered⟩ := exists_entered done
    exact entered.reaches_brace

/-- Braces around the body of a declaration: no comment reaches across their beginning. -/
def body (inner : DeclReader α) : Reader α where
  run := enter .brace true inner
  orderly done := by
    obtain ⟨inside, start, closing, first, final, entered⟩ := exists_entered done
    exact entered.reaches_brace

end

/-! ### Records -/

section

variable {declares : Bool} {α : Type}

/-- Also answers the tokens that `reader` prints. -/
def captured (reader : Reading declares α) : Reading declares (α × List Token) := do
  let before ← reprint fun printed => (printed, [])
  let value ← reader
  let tokens ← reprint fun printed => (printed.reverse, printed ++ before)
  return (value, tokens)

/-- Reads without printing. -/
def silent (reader : Reading declares α) : Reading declares α := do
  let before ← reprint fun printed => (printed, printed)
  let value ← reader
  reprint fun _ => ((), before)
  return value

/-- Where `raw` holds of what `reader` answers, the tokens it read are printed as they are, and the
ends of declarations among them are dropped. -/
def keepRaw (raw : α → Bool) (reader : Reading declares α) : Reading declares α where
  run cursor :=
    match reader.run cursor with
    | .error pos => .error pos
    | .ok (value, final) =>
      if raw value then
        let read := cursor.rest.take (cursor.rest.length - final.rest.length)
        .ok (value, { final with printed := read.reverse ++ cursor.printed, marks := cursor.marks })
      else .ok (value, final)
  orderly := by
    intro before after value done
    split at done
    · cases done
    next value' final ran =>
      split at done
      · cases done
        obtain ⟨passed, marked, passes⟩ := reader.orderly ran
        exact ⟨passed, [], passes.rest, passes.scope, passes.last, rfl, by simp⟩
      · cases done
        exact reader.orderly ran

/-- Reads on and keeps the tokens as they are. -/
def rawly (reader : Reading declares α) : Reading declares α := keepRaw (fun _ => true) reader

end

/-- Notes the end of what `reader` has read, if that is anything, as the end of a declaration. -/
def ended {α : Type} (reader : DeclReader α) : DeclReader α where
  run cursor :=
    match reader.run cursor with
    | .error pos => .error pos
    | .ok (value, final) =>
      if final.rest.length < cursor.rest.length then
        .ok (value, { final with marks := final.last :: final.marks })
      else .ok (value, final)
  orderly := by
    intro before after value done
    split at done
    · cases done
    next value' final ran =>
      obtain ⟨passed, marked, passes⟩ := reader.orderly ran
      split at done
      next shorter =>
        cases done
        have some : passed ≠ [] := by
          rintro rfl
          simp [passes.rest] at shorter
        refine ⟨passed, final.last :: marked, passes.rest, passes.scope, passes.last, ?_, ?_⟩
        · simp [passes.marks]
        · exact List.forall_mem_cons.mpr
            ⟨.inr ⟨rfl, passes.last_mem_edges some⟩, passes.placed⟩
      · cases done
        exact ⟨passed, marked, passes⟩

/-! ### Choice and repetition -/

section

variable {declares : Bool} {α β : Type}

/-- Reads a whole token sequence; nothing may be left over, in it or in its groups. -/
def complete (reader : Reading declares α) (tokens : List Token) (scope : Pos) :
    Except Pos (α × Cursor) := do
  let (value, final) ← reader.run { rest := tokens, scope := scope, last := scope }
  match final.stray <|> final.rest.head?.map Token.start with
  | some pos => .error pos
  | none => .ok (value, final)

/-- Runs `reader` and goes on from where it stands, or stays when it fails. -/
def attempt (reader : Reading declares α) : Reading declares (Option α) where
  run cursor :=
    match reader.run cursor with
    | .ok (value, cursor) => .ok (some value, cursor)
    | .error _ => .ok (none, cursor)
  orderly := by
    intro before after value done
    split at done
    next value' middle ran =>
      cases done
      exact reader.orderly ran
    · cases done
      exact Cursor.reaches_same rfl rfl rfl rfl

/-- What would come of running `reader`; nothing is read. -/
def foresee (reader : Reader α) (answer : Except Pos (α × Cursor) → β) : Reader β :=
  ask fun cursor => answer (reader.run cursor)

/-- Whether `reader` would succeed. -/
def succeeds (reader : Reader α) : Reader Bool := foresee reader (·.toOption.isSome)

/-- The answer of `reader`, from where nothing is read. -/
def glance (reader : Reader α) : Reader α where
  run cursor := (reader.run cursor).map fun found => (found.1, cursor)
  orderly := by
    intro before after value done
    cases ran : reader.run before with
    | error pos => simp [ran, Except.map] at done
    | ok found =>
      rw [ran] at done
      cases done
      exact Cursor.reaches_same rfl rfl rfl rfl

/-- Repeats a step at most `bound` times. A step answers an item and whether more may follow, or
nothing when the list has ended. -/
def repeatUpTo (step : Reading declares (Option (α × Bool))) :
    Nat → Reading declares (List (α × Bool))
  | 0 => return []
  | bound + 1 => do
    match ← step with
    | none => return []
    | some (value, false) => return [(value, false)]
    | some (value, true) => return (value, true) :: (← repeatUpTo step bound)

/-- Repeats a step until the list ends. Each step but the last reads a token, so there are no more
steps than tokens. -/
def collect (step : Reading declares (Option (α × Bool))) : Reading declares (List (α × Bool)) := do
  repeatUpTo step ((← cursor).rest.length + 1)

/-- Repeats a step that carries a state, at most `bound` times. -/
def iterateUpTo {σ : Type} (step : σ → Reading declares (Option σ)) : Nat → σ → Reading declares σ
  | 0, state => return state
  | bound + 1, state => do
    match ← step state with
    | none => return state
    | some state => iterateUpTo step bound state

/-- Repeats a step that carries a state and reads a token, until it answers nothing. -/
def iterate {σ : Type} (step : σ → Reading declares (Option σ)) (start : σ) :
    Reading declares σ := do
  iterateUpTo step ((← cursor).rest.length + 1) start

/-- Items up to where `stop` holds. -/
def upTo (stop : Test) (item : Reading declares α) : Reading declares (List α) := do
  let items ← collect do
    if ← look stop then return none else return some (← item, true)
  return items.map Prod.fst

/-- Items up to the end of the group. -/
def toEnd (item : Reading declares α) : Reading declares (List α) := upTo atEnd item

/-- A list with a separator after each item but perhaps the last, up to where `stop` holds. The
items come with whether a separator follows them. -/
def terminatedPairs (stop : Test) (mark : String) (item : Reading declares α) :
    Reading declares (List (α × Bool)) :=
  collect do
    if ← look stop then return none
    let value ← item
    if ← look stop then return some (value, false)
    punct mark
    return some (value, true)

def terminated (stop : Test) (mark : String) (item : Reading declares α) :
    Reading declares (List α) :=
  return (← terminatedPairs stop mark item).map Prod.fst

/-- Comma-separated items that fill a group. -/
def commaList (item : Reading declares α) : Reading declares (List α) := terminated atEnd "," item

/-- Items joined by `mark`: the list ends where `stop` holds or no `mark` follows. -/
def joined (stop : Test) (mark : String) (item : Reading declares α) :
    Reading declares (List α) := do
  let items ← collect do
    if ← look stop then return none
    let value ← item
    return some (value, ← punct? mark)
  return items.map Prod.fst

end

end Reader

end StructInventory
