import StructInventory.Proofs.ArgumentRun
import StructInventory.Proofs.DeclarationRun
import StructInventory.Proofs.ProperTokens

/-!
Types that a text is read as. Their names are words of the text, and their lifetimes are lifetimes of
it.
-/

namespace StructInventory

open Reader Reading Grammar

/-- The names and lifetimes of a type can be written. -/
inductive TypeExpr.WellMade : TypeExpr → Prop where
  | named {leading : Bool} {stem : List Word} {last : Word} {arguments : List TypeArgument}
      {tokens : List Token} (isPath : IsPath leading stem last arguments)
      (begins : leading = true ∨ ((stem ++ [last]).head (by simp)).beginsPath = true)
      (lifetimes : ∀ name, .lifetime name ∈ arguments → IsLifetime name)
      (types : ∀ type, .type type ∈ arguments → type.WellMade) :
      TypeExpr.WellMade (.named (pathNames leading stem last) arguments tokens)
  | reference {lifetime : Option String} {mutable : Bool} {target : TypeExpr}
      (isLifetime : ∀ name ∈ lifetime, IsLifetime name) (inner : target.WellMade) :
      TypeExpr.WellMade (.reference lifetime mutable target)
  | pointer {mutable : Bool} {target : TypeExpr} (inner : target.WellMade) :
      TypeExpr.WellMade (.pointer mutable target)
  | slice {item : TypeExpr} (inner : item.WellMade) : TypeExpr.WellMade (.slice item)
  | array {item : TypeExpr} {length : List Token} (inner : item.WellMade) :
      TypeExpr.WellMade (.array item length)
  | tuple {items : List TypeExpr} (each : ∀ item ∈ items, item.WellMade) :
      TypeExpr.WellMade (.tuple items)
  | paren {type : TypeExpr} (inner : type.WellMade) : TypeExpr.WellMade (.paren type)
  | never : TypeExpr.WellMade .never
  | function {tokens : List Token} : TypeExpr.WellMade (.function tokens)
  | other {tokens : List Token} : TypeExpr.WellMade (.other tokens)

def TypeArgument.WellMade : TypeArgument → Prop
  | .lifetime name => IsLifetime name
  | .type written => written.WellMade
  | .other _ => True

/-! ### Answers of readers -/

namespace Reading

variable {declares : Bool} {α β : Type}

/-- Whatever the reader answers, from tokens that a text spells, `answer` holds of it. -/
def Answers (reader : Reading declares α) (answer : α → Prop) : Prop :=
  ∀ before after value, (∀ token ∈ before.rest, token.Proper) →
    reader.run before = .ok (value, after) → answer value

section

variable {reader : Reading declares α} {answer : α → Prop} {before after : Cursor} {value : α}

/-- What is left over is spelled by the text as well. -/
theorem proper_after (proper : ∀ token ∈ before.rest, token.Proper)
    (ran : reader.run before = .ok (value, after)) : ∀ token ∈ after.rest, token.Proper := by
  obtain ⟨passed, marked, passes⟩ := reader.orderly ran
  intro token member
  exact proper token (by rw [passes.rest]; exact List.mem_append_right _ member)

theorem answers_pure (holds : answer value) : (pure value : Reading declares α).Answers answer := by
  rintro before after found _ ⟨⟩
  exact holds

theorem answers_true : reader.Answers fun _ => True := fun _ _ _ _ _ => trivial

namespace Answers

theorem bind {next : α → Reading declares β} {final : β → Prop} (first : reader.Answers answer)
    (later : ∀ value, answer value → (next value).Answers final) : (reader >>= next).Answers final := by
  intro before after value proper ran
  obtain ⟨given, middle, ran, rest⟩ := run_bind_eq_ok.mp ran
  exact later given (first _ _ _ proper ran) _ _ _ (proper_after proper ran) rest

/-- What was read before makes no difference. -/
theorem behind {next : α → Reading declares β} {final : β → Prop}
    (later : ∀ value, (next value).Answers final) : (reader >>= next).Answers final :=
  answers_true.bind fun value _ => later value

theorem map {f : α → β} {final : β → Prop} (first : reader.Answers answer)
    (later : ∀ value, answer value → final (f value)) : (f <$> reader).Answers final := by
  intro before after value proper ran
  obtain ⟨given, own, rfl⟩ := run_map_eq_ok.mp ran
  exact later given (first _ _ _ proper own)

theorem ite {condition : Prop} [Decidable condition] {yes no : Reading declares α}
    (first : yes.Answers answer) (second : no.Answers answer) :
    (if condition then yes else no).Answers answer := by
  split
  · exact first
  · exact second

end Answers

/-- A look ahead that is known to hold. -/
theorem answers_look {test : Test} {yes no : Reading declares α}
    (first : ∀ before after value, (∀ token ∈ before.rest, token.Proper) → test before.rest = true →
      yes.run before = .ok (value, after) → answer value)
    (second : no.Answers answer) :
    (do if ← look test then yes else no : Reading declares α).Answers answer := by
  intro before after value proper ran
  rw [run_look_bind] at ran
  split at ran
  next holds => exact first _ _ _ proper holds ran
  next => exact second _ _ _ proper ran

namespace Answers

theorem captured (first : reader.Answers answer) :
    (Reader.captured reader).Answers fun pair => answer pair.1 :=
  behind fun _ => first.bind fun _ holds => behind fun _ => answers_pure holds

theorem silent (first : reader.Answers answer) : (Reader.silent reader).Answers answer :=
  behind fun _ => first.bind fun _ holds => behind fun _ => answers_pure holds

theorem enter (first : reader.Answers answer) {delimiter : Delimiter} {opens : Bool}
    {before after : Cursor} {value : α} (proper : ∀ token ∈ before.rest, token.Proper)
    (ran : Reader.enter delimiter opens reader before = .ok (value, after)) : answer value := by
  obtain ⟨inside, start, closing, standing, final, entered⟩ := exists_entered ran
  obtain ⟨stop, ahead, _⟩ := entered.rest
  refine first _ _ _ ?_ entered.ran
  rw [entered.within]
  rw [ahead, List.forall_mem_cons] at proper
  cases proper.1 with
  | group within => exact within

theorem group (first : reader.Answers answer) (delimiter : Delimiter) :
    (Reader.group delimiter reader).Answers answer := fun _ _ _ proper ran => first.enter proper ran

theorem collect {step : Reading declares (Option (α × Bool))}
    (first : step.Answers fun found => ∀ pair ∈ found, answer pair.1) :
    (Reader.collect step).Answers fun pairs => ∀ pair ∈ pairs, answer pair.1 := by
  suffices ∀ bound, (repeatUpTo step bound).Answers fun pairs => ∀ pair ∈ pairs, answer pair.1 from
    behind fun _ => this _
  intro bound
  -- The induction is on the bound that the repetition runs with.
  induction bound with
  | zero => exact answers_pure (by simp)
  | succ bound ih =>
    refine first.bind fun found holds => ?_
    match found with
    | none => exact answers_pure (by simp)
    | some (value, false) => exact answers_pure (by simpa using holds)
    | some (value, true) =>
      refine ih.bind fun pairs later => answers_pure ?_
      exact List.forall_mem_cons.mpr ⟨holds (value, true) rfl, later⟩

theorem upTo {stop : Test} (first : reader.Answers answer) :
    (Reader.upTo stop reader).Answers fun values => ∀ value ∈ values, answer value := by
  have step : (do if ← look stop then return none else return some (← reader, true) :
      Reading declares (Option (α × Bool))).Answers fun found => ∀ pair ∈ found, answer pair.1 :=
    behind fun _ => ite (answers_pure (by simp))
      (first.bind fun value holds => answers_pure (by simpa using holds))
  refine step.collect.bind fun pairs holds => answers_pure fun value member => ?_
  obtain ⟨pair, listed, rfl⟩ := List.mem_map.mp member
  exact holds pair listed

theorem terminatedPairs {stop : Test} {mark : String} (first : reader.Answers answer) :
    (Reader.terminatedPairs stop mark reader).Answers fun pairs => ∀ pair ∈ pairs, answer pair.1 := by
  refine collect (behind fun _ => ite (answers_pure (by simp)) (first.bind fun value holds => ?_))
  refine behind fun _ => ite (answers_pure (by simpa using holds)) (behind fun _ => ?_)
  exact answers_pure (by simpa using holds)

theorem commaList (first : reader.Answers answer) :
    (Reader.commaList reader).Answers fun values => ∀ value ∈ values, answer value := by
  refine first.terminatedPairs.map fun pairs holds value member => ?_
  obtain ⟨pair, listed, rfl⟩ := List.mem_map.mp member
  exact holds pair listed

end Answers

end

end Reading

/-! ### Paths -/

theorem answers_lifetime : lifetime.Answers IsLifetime := by
  intro before after name proper ran
  obtain ⟨token, shown, takes, accepted⟩ := exists_takes_of_next ran
  have own := proper token (by rw [takes.rest]; exact List.mem_cons_self)
  split at accepted
  · cases accepted
    cases own with
    | lifetime isLifetime => exact isLifetime
  · cases accepted

theorem answers_lifetime? : lifetime?.Answers fun found => ∀ name ∈ found, IsLifetime name :=
  .behind fun _ => .ite (answers_lifetime.bind fun name holds => answers_pure (by simpa using holds))
    (answers_pure (by simp))

theorem lexed_of_anyWord {before after : Cursor} {word : Word}
    (proper : ∀ token ∈ before.rest, token.Proper) (ran : anyWord.run before = .ok (word, after)) :
    word.Lexed ∧ ∃ start stop, before.rest = .word word start stop :: after.rest := by
  obtain ⟨start, stop, takes⟩ := exists_takes_of_anyWord ran
  have own := proper (.word word start stop) (by rw [takes.rest]; exact List.mem_cons_self)
  cases own with
  | word lexed => exact ⟨lexed, start, stop, takes.rest⟩

/-- A segment that a path can be written with. -/
def Grammar.Segment.WellMade (segment : Segment) : Prop :=
  ∃ word : Word, word.Lexed ∧ word.isSegment = true ∧ segment.name = word.text ∧
    ∀ arguments ∈ segment.arguments,
      bareWords.contains word.text = false ∧ ∀ argument ∈ arguments, argument.WellMade

section

variable {g : Grammar} (types : ∀ plus, (g (.type plus)).Answers fun reading => reading.type.WellMade)

include types

theorem answers_argument :
    (Grammar.argument g).Answers fun kind => ∀ tokens, (kind.attach tokens).WellMade := by
  have other : ∀ tokens, (ArgumentKind.other.attach tokens).WellMade := fun _ => trivial
  refine .behind fun _ => .ite ?_ (.behind fun _ => .ite ?_ ?_)
  · exact answers_lifetime.bind fun name isLifetime => answers_pure fun _ => isLifetime
  · exact .behind fun _ => answers_pure other
  · refine (types true).bind fun reading wellMade => ?_
    have type : ∀ tokens, ((ArgumentKind.type reading.type).attach tokens).WellMade :=
      fun _ => wellMade
    refine .ite (.behind fun _ => .ite ?_ (.behind fun _ => .ite ?_ ?_)) (answers_pure type)
    · exact .behind fun _ => .ite (.behind fun _ => answers_pure other)
        (.behind fun _ => answers_pure other)
    · exact .behind fun _ => answers_pure other
    · exact answers_pure type

theorem answers_angleArguments :
    (angleArguments g).Answers fun arguments => ∀ argument ∈ arguments, argument.WellMade := by
  refine .behind fun _ => ?_
  refine (answers_argument types).captured.terminatedPairs.silent.bind fun found holds => ?_
  refine .behind fun _ => .behind fun _ => answers_pure fun argument member => ?_
  obtain ⟨⟨⟨kind, tokens⟩, followed⟩, listed, rfl⟩ := List.mem_map.mp member
  exact holds _ listed tokens

theorem answers_segment {inExpr : Bool} {before after : Cursor} {found : Segment}
    (proper : ∀ token ∈ before.rest, token.Proper)
    (ran : (segment g inExpr).run before = .ok (found, after)) :
    found.WellMade ∧ ∃ word start stop rest, before.rest = .word word start stop :: rest ∧
      found.name = word.text := by
  rw [Grammar.segment, run_look_bind] at ran
  split at ran
  next bare =>
    obtain ⟨word, middle, ran, ⟨⟩⟩ := run_bind_eq_ok.mp ran
    obtain ⟨lexed, start, stop, ahead⟩ := lexed_of_anyWord proper ran
    rw [ahead, atBareWord_cons] at bare
    refine ⟨⟨word, lexed, ?_, rfl, by simp⟩, word, start, stop, _, ahead, rfl⟩
    simp only [Word.isSegment, bare, Bool.or_true]
  next bare =>
    obtain ⟨word, middle, own, rest⟩ := run_bind_eq_ok.mp ran
    -- The word is an identifier or `Self`, and only such a segment has arguments.
    rw [identOr, run_look_bind] at own
    split at own
    next named =>
      obtain ⟨lexed, start, stop, ahead⟩ := lexed_of_anyWord proper own
      have later := proper_after proper own
      rw [ahead] at named bare
      rw [atBareWord_cons] at bare
      have isSegment : word.isSegment = true := by
        simp only [atIdent, List.any_cons, List.any_nil, Bool.or_false, atWord] at named
        simp only [Word.isSegment, Word.isIdent, named, Bool.true_or]
      rw [run_look_bind] at rest
      split at rest
      · obtain ⟨_, again, passed, rest⟩ := run_bind_eq_ok.mp rest
        obtain ⟨arguments, final, given, ⟨⟩⟩ := run_bind_eq_ok.mp rest
        have each := answers_angleArguments types _ _ _ (proper_after later passed) given
        refine ⟨⟨word, lexed, isSegment, rfl, ?_⟩, word, start, stop, _, ahead, rfl⟩
        rintro arguments ⟨⟩
        exact ⟨by simpa using bare, each⟩
      · cases rest
        exact ⟨⟨word, lexed, isSegment, rfl, by simp⟩, word, start, stop, _, ahead, rfl⟩
    next => cases own

/-- The segments of a path, and the word that it begins with unless `::` does. -/
theorem answers_path {inExpr : Bool} {before after : Cursor} {found : Path}
    (proper : ∀ token ∈ before.rest, token.Proper)
    (ran : (Grammar.path g inExpr).run before = .ok (found, after)) :
    ∃ first rest, found.segments = first :: rest ∧ (∀ segment ∈ first :: rest, segment.WellMade) ∧
      (found.leading = true ∨ ∃ word start stop more, before.rest = .word word start stop :: more ∧
        first.name = word.text) := by
  obtain ⟨leading, middle, colons, rest⟩ := run_bind_eq_ok.mp ran
  obtain ⟨first, middle', own, rest⟩ := run_bind_eq_ok.mp rest
  obtain ⟨others, final, joined, ⟨⟩⟩ := run_bind_eq_ok.mp rest
  have proper₁ := proper_after proper colons
  obtain ⟨wellMade, word, start, stop, more, ahead, named⟩ := answers_segment types proper₁ own
  have item : (do punct "::"; segment g inExpr : Reader Segment).Answers Segment.WellMade :=
    .behind fun _ _ _ _ proper ran => (answers_segment types proper ran).1
  have later := item.upTo _ _ _ (proper_after proper₁ own) joined
  refine ⟨first, others, rfl, List.forall_mem_cons.mpr ⟨wellMade, later⟩, ?_⟩
  -- Without `::` in front, the first segment is the word that the path begins with.
  rw [punct?, run_look_bind] at colons
  split at colons
  · obtain ⟨_, _, _, ⟨⟩⟩ := run_bind_eq_ok.mp colons
    exact .inl rfl
  · cases colons
    exact .inr ⟨word, start, stop, more, ahead, named⟩

end

/-- Segments without arguments are their names. -/
theorem exists_words {segments : List Segment} (wellMade : ∀ segment ∈ segments, segment.WellMade)
    (plain : segments.all (·.arguments.isNone) = true) :
    ∃ stem : List Word, segments = stem.map (fun word => ⟨word.text, none⟩) ∧
      ∀ word ∈ stem, word.Lexed ∧ word.isSegment = true := by
  induction segments with
  | nil => exact ⟨[], rfl, by simp⟩
  | cons segment rest ih =>
    rw [List.forall_mem_cons] at wellMade
    rw [List.all_cons, Bool.and_eq_true] at plain
    obtain ⟨stem, rfl, each⟩ := ih wellMade.2 plain.2
    obtain ⟨word, lexed, isSegment, named, _⟩ := wellMade.1
    refine ⟨word :: stem, ?_, List.forall_mem_cons.mpr ⟨⟨lexed, isSegment⟩, each⟩⟩
    obtain ⟨name, arguments⟩ := segment
    obtain rfl : arguments = none := by simpa using plain.1
    obtain rfl : name = word.text := named
    rfl

/-- Where only the last segment has arguments, the others are their names. -/
theorem exists_segmentsOf {segments : List Segment} (wellMade : ∀ segment ∈ segments, segment.WellMade)
    (some : segments ≠ []) (plain : segments.dropLast.all (·.arguments.isNone) = true) (leading : Bool) :
    ∃ stem last answered, segments = segmentsOf stem last answered ∧
      IsPath leading stem last (answered.getD []) ∧
      ∀ argument ∈ answered.getD [], argument.WellMade := by
  obtain ⟨front, final, rfl⟩ : ∃ front final, segments = front ++ [final] :=
    ⟨_, _, (List.dropLast_append_getLast some).symm⟩
  rw [List.dropLast_concat] at plain
  obtain ⟨stem, rfl, each⟩ := exists_words (fun segment listed => wellMade segment (by simp [listed])) plain
  obtain ⟨last, lexed, isSegment, named, given⟩ := wellMade final (by simp)
  obtain ⟨name, answered⟩ := final
  obtain rfl : name = last.text := named
  refine ⟨stem, last, answered, rfl, ?_, ?_⟩
  · -- Arguments that were read stand behind a word that may have some.
    refine ⟨fun word listed => (each word listed).1, fun word listed => (each word listed).2, lexed,
      isSegment, ?_⟩
    cases answered with
    | none => exact .inl rfl
    | some arguments => exact .inr (given arguments rfl).1
  · cases answered with
    | none => simp
    | some arguments => exact (given arguments rfl).2

theorem TypeSketch.wellMade_ofPath {path : Path} {first : Segment} {rest : List Segment}
    (same : path.segments = first :: rest) (wellMade : ∀ segment ∈ first :: rest, segment.WellMade)
    (begins : path.leading = true ∨ ∃ word : Word, first.name = word.text ∧ word.beginsPath = true)
    (tokens : List Token) : ((TypeSketch.ofPath path).build tokens).WellMade := by
  unfold TypeSketch.ofPath
  dsimp only
  split
  next plain =>
    rw [← same] at wellMade
    obtain ⟨stem, last, answered, segments, isPath, each⟩ :=
      exists_segmentsOf wellMade (by simp [same]) plain path.leading
    obtain ⟨leading, _⟩ := path
    obtain rfl := segments
    rw [Grammar.Path.names_segmentsOf, Grammar.Path.lastArguments_segmentsOf]
    refine .named isPath ?_ (fun _ => each _) fun _ => each _
    refine begins.imp id fun ⟨word, named, opens⟩ => ?_
    -- Which word the path begins with is known by its text alone.
    have head : ((stem ++ [last]).head (by simp)).text = word.text := by
      rw [← named]
      cases stem with
      | nil =>
        cases same
        rfl
      | cons next others =>
        cases same
        rfl
    rw [Word.beginsPath, Word.isIdent, head]
    exact opens
  · exact .other

section

variable {g : Grammar} (types : ∀ plus, (g (.type plus)).Answers fun reading => reading.type.WellMade)

include types

/-- How a type goes on behind the lifetimes that it introduces. -/
def typeBody (g : Grammar) (plus bound : Bool) : Reader TypeSketch := do
  if ← look atParen then parenType g plus
  else if ← look atFunctionType then
    functionType g
    return ⟨.function, .other⟩
  else if ← look atPath then pathType g plus bound
  else if ← look (atWord "dyn") then dynType g plus
  else if ← look atBracket then bracketType g
  else if ← look (atPunct "*") then pointerType g
  else if ← look (atPunct "&") then referenceType g
  else if ← look fun ahead => atPunct "!" ahead && !atPunct "=" ahead then
    punct "!"
    return .plain .never
  else if ← look (atWord "impl") then implType g plus
  else if ← look (atWord "_") then
    discard anyWord
    return .shown
  else if ← look atLifetime then
    let start ← here
    traitBounds g true ⟨false, false⟩ start
    return .shown
  else fail

theorem answers_pathType {plus bound : Bool} {before after : Cursor} {sketch : TypeSketch}
    (proper : ∀ token ∈ before.rest, token.Proper) (opens : bound = true ∨ atPath before.rest = true)
    (ran : (pathType g plus bound).run before = .ok (sketch, after)) :
    ∀ tokens, (sketch.build tokens).WellMade := by
  have other : ∀ tokens, (TypeSketch.shown.build tokens).WellMade := fun _ => .other
  obtain ⟨answer, middle, qualified, rest⟩ := run_bind_eq_ok.mp ran
  cases answer with
  | none =>
    cases rest
    exact other
  | some path =>
    -- Lifetimes that were introduced before make it a bound, whatever the path is.
    have answered : bound = false → ∀ tokens, ((TypeSketch.ofPath path).build tokens).WellMade := by
      rintro rfl
      have opens := opens.resolve_left (by simp)
      rw [qualifiedPath, run_look_bind] at qualified
      split at qualified
      · simp [run_bind_eq_ok] at qualified
      next angle =>
        obtain ⟨_, _, read, ⟨⟩⟩ := run_bind_eq_ok.mp qualified
        obtain ⟨first, others, same, wellMade, begins⟩ := answers_path types proper read
        refine TypeSketch.wellMade_ofPath same wellMade (begins.imp id ?_)
        rintro ⟨word, start, stop, more, ahead, named⟩
        refine ⟨word, named, ?_⟩
        have marks : (word.beginsPath || false || false) = true := by
          rw [ahead, atPath, atPathWord_cons] at opens
          exact opens
        simpa using marks
    -- What follows the path decides whether it is kept as tokens.
    have tail : (do
        if path.plain && (← look fun ahead => atPunct "!" ahead && !atPunct "!=" ahead) then
          punct "!"
          discard rawGroup
          return .shown
        if bound || plus && (← look (atPunct "+")) then
          let more ← if plus then laterBounds g else pure []
          return ⟨.other, if more.isEmpty then .loneBound else .other⟩
        return .ofPath path : Reader TypeSketch).Answers fun sketch =>
          ∀ tokens, (sketch.build tokens).WellMade := by
      refine .behind fun _ => .ite (.behind fun _ => .behind fun _ => answers_pure other) ?_
      have more : ∀ more : List Unit, (pure ⟨.other, if more.isEmpty then .loneBound else .other⟩ :
          Reader TypeSketch).Answers fun sketch => ∀ tokens, (sketch.build tokens).WellMade :=
        fun _ => answers_pure fun _ => .other
      refine .behind fun joined => ?_
      split
      · exact .ite (.behind more) (.behind more)
      next unbound =>
        rw [Bool.not_eq_true, Bool.or_eq_false_iff] at unbound
        exact answers_pure (answered unbound.1)
    exact tail _ _ _ (proper_after proper qualified) rest

theorem answers_parenType {plus : Bool} :
    (parenType g plus).Answers fun sketch => ∀ tokens, (sketch.build tokens).WellMade := by
  have inside : (parenInside g).Answers fun inside => match inside with
      | .single reading => reading.type.WellMade
      | .many types => ∀ type ∈ types, type.WellMade
      | .empty | .object _ | .optional => True := by
    refine .behind fun _ => .ite (answers_pure trivial) (.behind fun _ => .ite ?_ ?_)
    · exact .behind fun _ => .behind fun _ => answers_pure trivial
    refine .behind fun _ => .ite (.behind fun _ => answers_pure trivial) ?_
    refine (types true).bind fun first wellMade => .behind fun _ => .ite ?_ (answers_pure wellMade)
    refine .behind fun _ => (types true).commaList.bind fun rest later => answers_pure ?_
    exact List.forall_mem_cons.mpr ⟨wellMade, by simpa using later⟩
  refine (inside.group .paren).bind fun found holds => ?_
  cases found with
  | empty => exact answers_pure fun _ => .tuple (by simp)
  | object tokens => exact answers_pure fun _ => .paren .other
  | optional => exact .behind fun _ => answers_pure fun _ => .other
  | many types => exact answers_pure fun _ => .tuple holds
  | single reading =>
    exact .behind fun _ => .ite (.behind fun _ => answers_pure fun _ => .other)
      (answers_pure fun _ => .paren holds)

theorem answers_bracketType :
    (bracketType g).Answers fun sketch => ∀ tokens, (sketch.build tokens).WellMade := by
  refine Answers.group ((types true).bind fun item wellMade => .behind fun _ => .ite ?_ ?_) .bracket
  · exact .behind fun _ => answers_pure fun _ => .array wellMade
  · exact answers_pure fun _ => .slice wellMade

theorem answers_pointerType :
    (pointerType g).Answers fun sketch => ∀ tokens, (sketch.build tokens).WellMade := by
  have target : ∀ mutable, (do
      return TypeSketch.plain (.pointer mutable (← g.tightType).type) : Reader TypeSketch).Answers
        fun sketch => ∀ tokens, (sketch.build tokens).WellMade := fun mutable =>
    (types false).bind fun reading wellMade => answers_pure fun _ => .pointer wellMade
  exact .behind fun _ => .behind fun mutable => .ite (.behind fun _ => target mutable) (target mutable)

theorem answers_referenceType :
    (referenceType g).Answers fun sketch => ∀ tokens, (sketch.build tokens).WellMade :=
  .behind fun _ => answers_lifetime?.bind fun _ isLifetime => .behind fun _ =>
    (types false).bind fun _ wellMade => answers_pure fun _ => .reference isLifetime wellMade

theorem answers_typeBody {plus bound : Bool} :
    (typeBody g plus bound).Answers fun sketch => ∀ tokens, (sketch.build tokens).WellMade := by
  have other : ∀ tokens, (TypeSketch.shown.build tokens).WellMade := fun _ => .other
  -- One step for each form, in the order in which they are tried.
  refine .behind fun _ => .ite (answers_parenType types) (.behind fun _ => .ite ?_ (answers_look ?_ ?_))
  · exact .behind fun _ => answers_pure fun _ => .function
  · exact fun before after sketch proper opens ran => answers_pathType types proper (.inr opens) ran
  refine .behind fun _ => .ite ?_ (.behind fun _ => .ite (answers_bracketType types) ?_)
  · exact .behind fun _ => .behind fun _ => answers_pure other
  refine .behind fun _ => .ite (answers_pointerType types) ?_
  refine .behind fun _ => .ite (answers_referenceType types) ?_
  refine .behind fun _ => .ite (.behind fun _ => answers_pure fun _ => .never) ?_
  refine .behind fun _ => .ite (.behind fun _ => .behind fun _ => .behind fun _ => answers_pure other) ?_
  refine .behind fun _ => .ite (.behind fun _ => answers_pure other) ?_
  refine .behind fun _ => .ite (.behind fun _ => .behind fun _ => answers_pure other) ?_
  exact fun _ _ _ _ ran => by cases ran

theorem answers_typeExpr (plus : Bool) :
    (typeExpr g plus).Answers fun reading => reading.type.WellMade := by
  have sketched : (typeSketch g plus).Answers fun sketch => ∀ tokens, (sketch.build tokens).WellMade := by
    refine .behind fun bound => .ite (.behind fun _ => .behind fun _ => .ite ?_ ?_) ?_
    · exact .behind fun _ => answers_typeBody types
    · exact answers_typeBody types
    · exact answers_typeBody types
  exact sketched.captured.bind fun found wellMade => answers_pure (wellMade found.2)

end

/-- Whatever a text is read as, its names and lifetimes can be written. -/
theorem wellMade_upToDepth (depth : Nat) (plus : Bool) :
    (upToDepth depth (.type plus)).Answers fun reading => reading.type.WellMade := by
  induction depth generalizing plus with
  | zero => exact fun _ _ _ _ ran => by cases ran
  | succ depth ih => exact answers_typeExpr ih plus

theorem TypeExpr.wellMade_of_read {text : String} {type : TypeExpr}
    (accepted : TypeExpr.read text = .ok type) : type.WellMade := by
  unfold TypeExpr.read at accepted
  cases lexed : Token.lex text with
  | error pos => simp [lexed, bind, Except.bind] at accepted
  | ok tokens =>
    simp only [lexed, bind, Except.bind] at accepted
    split at accepted
    · cases accepted
    next found whole =>
      cases accepted
      exact wellMade_upToDepth _ true _ _ _ (Token.proper_of_lex lexed) (SourceFile.run_complete whole)

end StructInventory
