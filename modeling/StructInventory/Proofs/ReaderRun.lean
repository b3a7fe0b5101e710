import StructInventory.Proofs.TokenOrder

/-!
Runs of readers taken apart: what a reader that is put together from others did, step by step, and
behind which token it ends.
-/

namespace StructInventory

namespace Cursor

variable {declares : Bool} {before after : Cursor} {lower upper : Pos}

/-- What is read between two cursors ends in a token that is no part of a doc comment. -/
def EndsApart (before after : Cursor) : Prop :=
  ∃ front token, before.rest = front ++ token :: after.rest ∧ token.isApart = true

theorem Reaches.marks_subset (reaches : before.Reaches declares after) :
    before.marks ⊆ after.marks := by
  obtain ⟨passed, marked, passes⟩ := reaches
  rw [passes.marks]
  exact List.subset_append_right _ _

/-- Reading leads on. -/
theorem Reaches.last_le (reaches : before.Reaches declares after)
    (laid : Token.Laid before.last before.rest upper) :
    before.last ≤ after.last ∧ after.last ≤ upper := by
  obtain ⟨passed, marked, passes⟩ := reaches
  cases passed with
  | nil =>
    rw [passes.last]
    exact ⟨le_refl _, laid.le⟩
  | cons token passed =>
    refine laid.edges ?_
    rw [passes.rest, Token.edgesOf_append]
    exact List.mem_append_left _ (passes.last_mem_edges (List.cons_ne_nil _ _))

/-- What comes behind a whole token that was the last one read. -/
theorem Reaches.laid_behind (reaches : before.Reaches declares after)
    {front : List Token} {token : Token} (ahead : before.rest = front ++ token :: after.rest)
    (whole : token.isWhole = true) (laid : Token.Laid lower before.rest upper) :
    lower ≤ after.last ∧ Token.Laid after.last after.rest upper := by
  obtain ⟨passed, marked, passes⟩ := reaches
  -- What was passed is all that the two cursors differ in.
  have same : passed = front ++ [token] := by
    have both := passes.rest.symm.trans ahead
    rw [List.append_cons] at both
    exact List.append_cancel_right both
  have last : after.last = token.stop := by
    rw [passes.last, same]
    simp
  constructor
  · refine (laid.edges ?_).1
    rw [passes.rest, Token.edgesOf_append]
    exact List.mem_append_left _ (passes.last_mem_edges (by simp [same]))
  · rw [ahead] at laid
    rw [last]
    exact laid.behind whole

end Cursor

namespace Reading

variable {declares : Bool} {α β : Type} {reader : Reading declares α} {before after : Cursor}

@[simp] theorem run_pure (value : α) :
    (pure value : Reading declares α).run before = .ok (value, before) := rfl

theorem run_bind_eq_ok {next : α → Reading declares β} {value : β} :
    (reader >>= next).run before = .ok (value, after) ↔
      ∃ given middle, reader.run before = .ok (given, middle) ∧
        (next given).run middle = .ok (value, after) :=
  andThen_eq_ok

theorem run_map_eq_ok {f : α → β} {value : β} :
    (f <$> reader).run before = .ok (value, after) ↔
      ∃ given, reader.run before = .ok (given, after) ∧ f given = value := by
  have unfolded : f <$> reader = reader >>= fun given => pure (f given) := rfl
  rw [unfolded, run_bind_eq_ok]
  simp only [run_pure, Except.ok.injEq, Prod.mk.injEq]
  constructor
  · rintro ⟨given, middle, ran, same, rfl⟩
    exact ⟨given, ran, same⟩
  · rintro ⟨given, ran, same⟩
    exact ⟨given, after, ran, same, rfl⟩

theorem run_discard_eq_ok {value : PUnit} :
    (discard reader).run before = .ok (value, after) ↔ ∃ given, reader.run before = .ok (given, after) := by
  have unfolded : discard reader = (fun _ => PUnit.unit) <$> reader := rfl
  rw [unfolded, run_map_eq_ok]
  simp

/-- A look ahead decides how to go on, and takes no token. -/
theorem run_look_bind {test : Reader.Test} {next : Bool → Reading declares α} :
    (Reader.look test >>= next).run before = (next (test before.rest)).run before := rfl

/-! ### Ends -/

/-- The reader takes no token, and `answer` holds of what it answers. -/
def Stays (reader : Reading declares α) (answer : α → Prop) : Prop :=
  ∀ before after value, reader.run before = .ok (value, after) → after = before ∧ answer value

/-- The reader ends behind a token that is no part of a doc comment, and `answer` holds of what it
answers. -/
def Concludes (reader : Reading declares α) (answer : α → Prop) : Prop :=
  ∀ before after value, reader.run before = .ok (value, after) →
    answer value ∧ before.EndsApart after

variable {answer : α → Prop} {given : β → Prop} {first : Reading declares β}
  {next : β → Reading declares α}

theorem stays_pure {value : α} (holds : answer value) :
    (pure value : Reading declares α).Stays answer := by
  rintro before after value ⟨⟩
  exact ⟨rfl, holds⟩

theorem Stays.ite {condition : Prop} [Decidable condition] {yes no : Reading declares α}
    (first : yes.Stays answer) (second : no.Stays answer) :
    (if condition then yes else no).Stays answer := by
  split
  · exact first
  · exact second

theorem Concludes.lift {reader : Reader α} (concludes : reader.Concludes answer) :
    (liftM reader : Reading declares α).Concludes answer := concludes

/-- What comes before the end makes no difference. -/
theorem Concludes.behind (first : Reading declares β) (concludes : ∀ value, (next value).Concludes answer) :
    (first >>= next).Concludes answer := by
  intro before after value done
  obtain ⟨given, middle, ran, done⟩ := run_bind_eq_ok.mp done
  obtain ⟨passed, marked, passes⟩ := first.orderly ran
  obtain ⟨holds, front, token, ahead, apart⟩ := concludes given _ _ _ done
  exact ⟨holds, passed ++ front, token, by rw [passes.rest, ahead, List.append_assoc], apart⟩

/-- The end may be followed by what takes no token. -/
theorem Concludes.followed (concludes : first.Concludes given)
    (stays : ∀ value, given value → (next value).Stays answer) :
    (first >>= next).Concludes answer := by
  intro before after value done
  obtain ⟨found, middle, ran, done⟩ := run_bind_eq_ok.mp done
  obtain ⟨held, ended⟩ := concludes _ _ _ ran
  obtain ⟨rfl, holds⟩ := stays found held _ _ _ done
  exact ⟨holds, ended⟩

theorem Concludes.discard {reader : Reading declares α} (concludes : reader.Concludes answer) :
    (Functor.discard reader).Concludes fun _ => True := by
  intro before after value done
  obtain ⟨found, ran⟩ := run_discard_eq_ok.mp done
  exact ⟨trivial, (concludes _ _ _ ran).2⟩

theorem Concludes.ite {condition : Prop} [Decidable condition] {yes no : Reading declares α}
    (first : condition → yes.Concludes answer) (second : ¬condition → no.Concludes answer) :
    (if condition then yes else no).Concludes answer := by
  split
  next holds => exact first holds
  next fails => exact second fails

end Reading

/-! ### Steps -/

namespace Reader

variable {declares : Bool} {α : Type} {before after : Cursor}

theorem glance_stays {reader : Reader α} {value : α}
    (done : (glance reader).run before = .ok (value, after)) : after = before := by
  cases ran : reader.run before with
  | error pos => simp [glance, ran, Except.map] at done
  | ok found =>
    simp only [glance, ran, Except.map, Except.ok.injEq, Prod.mk.injEq] at done
    exact done.2.symm

/-- One token is taken, and nothing is noted. -/
structure Takes (before after : Cursor) (token : Token) : Prop where
  rest : before.rest = token :: after.rest
  scope : after.scope = before.scope
  last : after.last = token.stop
  marks : after.marks = before.marks

theorem Takes.reaches {token : Token} (takes : Takes before after token) :
    before.Reaches declares after :=
  Cursor.reaches_next takes.rest takes.scope takes.last takes.marks

theorem Takes.here {token : Token} (takes : Takes before after token) :
    before.here = token.start := by
  rw [Cursor.here, takes.rest]
  rfl

theorem exists_takes_of_next {accept : Token → Option (α × List Token)} {value : α}
    (done : (next accept).run before = .ok (value, after)) :
    ∃ token shown, Takes before after token ∧ accept token = some (value, shown) := by
  simp only [next] at done
  split at done
  · cases done
  next token rest ahead =>
    split at done
    · cases done
    next value' shown accepted =>
      cases done
      exact ⟨token, shown, ⟨ahead, rfl, rfl, rfl⟩, accepted⟩

theorem exists_takes_of_anyWord {found : Word} (done : anyWord.run before = .ok (found, after)) :
    ∃ start stop, Takes before after (.word found start stop) := by
  obtain ⟨token, shown, takes, accepted⟩ := exists_takes_of_next done
  split at accepted
  · cases accepted
    exact ⟨_, _, takes⟩
  · cases accepted

theorem run_word {name : String} {value : Unit} (done : (word name).run before = .ok (value, after)) :
    ∃ found start stop, Takes before after (.word found start stop) := by
  rw [word, Reading.run_look_bind] at done
  split at done
  · obtain ⟨found, done⟩ := Reading.run_discard_eq_ok.mp done
    exact ⟨found, exists_takes_of_anyWord done⟩
  · cases done

/-- A word that may be missing is taken or nothing is. -/
theorem run_word? {name : String} {found : Bool} (done : (word? name).run before = .ok (found, after)) :
    found = true ∧ (∃ word start stop, Takes before after (.word word start stop)) ∨
      found = false ∧ after = before := by
  rw [word?, Reading.run_look_bind] at done
  split at done
  · obtain ⟨_, middle, ran, done⟩ := Reading.run_bind_eq_ok.mp done
    obtain ⟨word, ran⟩ := Reading.run_discard_eq_ok.mp ran
    cases done
    exact .inl ⟨rfl, word, exists_takes_of_anyWord ran⟩
  · cases done
    exact .inr ⟨rfl, rfl⟩

theorem run_eatMarks_single {mark : Char} {value : Unit}
    (done : (eatMarks [mark]).run before = .ok (value, after)) :
    ∃ joint start stop, Takes before after (.punct mark joint start stop) := by
  obtain ⟨_, middle, ran, done⟩ := Reading.run_bind_eq_ok.mp done
  obtain ⟨token, shown, takes, accepted⟩ := exists_takes_of_next ran
  cases done
  split at accepted
  next found joint start stop =>
    split at accepted
    next same =>
      obtain rfl : found = mark := by simpa using same
      exact ⟨joint, start, stop, takes⟩
    · cases accepted
  · cases accepted

theorem run_punct_single {marks : String} {mark : Char} (single : marks.toList = [mark])
    {value : Unit} (done : (punct marks).run before = .ok (value, after)) :
    ∃ joint start stop, Takes before after (.punct mark joint start stop) := by
  rw [punct, Reading.run_look_bind, single] at done
  split at done
  · exact run_eatMarks_single done
  · cases done

theorem run_punct?_single {marks : String} {mark : Char} (single : marks.toList = [mark])
    {found : Bool} (done : (punct? marks).run before = .ok (found, after)) :
    found = true ∧ (∃ joint start stop, Takes before after (.punct mark joint start stop)) ∨
      found = false ∧ after = before := by
  rw [punct?, Reading.run_look_bind, single] at done
  split at done
  · obtain ⟨_, middle, ran, done⟩ := Reading.run_bind_eq_ok.mp done
    cases done
    exact .inl ⟨rfl, run_eatMarks_single ran⟩
  · cases done
    exact .inr ⟨rfl, rfl⟩

/-! ### Steps that end a declaration -/

variable {answer : α → Prop}

theorem Takes.endsApart {token : Token} (takes : Takes before after token)
    (apart : token.isApart = true) : before.EndsApart after :=
  ⟨[], token, takes.rest, apart⟩

theorem concludes_semicolon : (punct ";").Concludes fun _ => True := by
  intro before after value done
  obtain ⟨joint, start, stop, takes⟩ := run_punct_single rfl done
  exact ⟨trivial, takes.endsApart rfl⟩

theorem concludes_semicolon_pure {value : α} (holds : answer value) :
    (do punct ";"; return value : Reading declares α).Concludes answer :=
  concludes_semicolon.lift.followed fun _ _ => Reading.stays_pure holds

theorem concludes_semicolon? {yes no : Reading declares α} (stays : yes.Stays answer)
    (concludes : no.Concludes answer) :
    (do if ← punct? ";" then yes else no : Reading declares α).Concludes answer := by
  intro before after value done
  obtain ⟨found, middle, ran, rest⟩ := Reading.run_bind_eq_ok.mp done
  rcases run_punct?_single rfl ran with ⟨rfl, joint, start, stop, takes⟩ | ⟨rfl, rfl⟩
  · obtain ⟨rfl, holds⟩ := stays _ _ _ rest
    exact ⟨holds, takes.endsApart rfl⟩
  · exact concludes _ _ _ rest

/-- A group that is taken as it is needs a semicolon behind it, unless it is in braces. -/
theorem concludes_rawGroup :
    (do
      let (delimiter, _) ← rawGroup
      if delimiter ≠ .brace then punct ";" : Reader Unit).Concludes fun _ => True := by
  intro before after value done
  obtain ⟨⟨delimiter, inside⟩, middle, ran, rest⟩ := Reading.run_bind_eq_ok.mp done
  obtain ⟨token, shown, takes, accepted⟩ := exists_takes_of_next ran
  split at accepted
  next found inside' start closing stop =>
    cases accepted
    dsimp only at rest
    split at rest
    next other =>
      obtain ⟨-, front, token, ahead, apart⟩ := concludes_semicolon _ _ _ rest
      exact ⟨trivial, _ :: front, token, by rw [takes.rest, ahead]; rfl, apart⟩
    next same =>
      obtain rfl : delimiter = .brace := by simpa using same
      cases rest
      exact ⟨trivial, takes.endsApart rfl⟩
  · cases accepted

theorem concludes_brace :
    (do if ← look atBrace then discard rawGroup else fail : Reader Unit).Concludes
      fun _ => True := by
  intro before after value done
  rw [Reading.run_look_bind] at done
  split at done
  next brace =>
    obtain ⟨found, ran⟩ := Reading.run_discard_eq_ok.mp done
    obtain ⟨token, shown, takes, -⟩ := exists_takes_of_next ran
    rw [takes.rest] at brace
    cases token with
    | group delimiter inside start closing stop =>
      obtain rfl : delimiter = .brace := by simpa [atBrace, atGroup] using brace
      exact ⟨trivial, takes.endsApart rfl⟩
    | _ => cases brace
  · cases done

theorem endsApart_enter_brace {opens : Bool} {inner : DeclReader α} {value : α}
    (done : enter .brace opens inner before = .ok (value, after)) : before.EndsApart after := by
  obtain ⟨inside, start, closing, first, final, entered⟩ := exists_entered done
  obtain ⟨stop, ahead, -⟩ := entered.rest
  exact ⟨[], _, ahead, rfl⟩

theorem concludes_braces (inner : DeclReader α) : (braces inner).Concludes fun _ => True :=
  fun _ _ _ done => ⟨trivial, endsApart_enter_brace done⟩

theorem concludes_body (inner : DeclReader α) : (body inner).Concludes fun _ => True :=
  fun _ _ _ done => ⟨trivial, endsApart_enter_brace done⟩

/-! ### Lists -/

variable {item : Reading declares α} {values : List α}

theorem run_collect {step : Reading declares (Option (α × Bool))} :
    (collect step).run before = (repeatUpTo step (before.rest.length + 1)).run before := rfl

/-- One run of a reader. -/
def Runs (item : Reading declares α) (before : Cursor) (value : α) (after : Cursor) : Prop :=
  item.run before = .ok (value, after)

/-- A run and the comma behind it, which may be missing at the end of a group. -/
inductive RunsToComma (item : Reading declares α) (before : Cursor) (value : α) (after : Cursor) :
    Prop where
  | last (ran : item.run before = .ok (value, after)) (ended : after.rest = [])
  | comma {middle : Cursor} {joint : Bool} {start stop : Pos}
      (ran : item.run before = .ok (value, middle))
      (takes : Takes middle after (.punct ',' joint start stop))

/-- Steps that follow one another. -/
inductive Sequence (step : Cursor → α → Cursor → Prop) : Cursor → List α → Cursor → Prop where
  | nil (cursor : Cursor) : Sequence step cursor [] cursor
  | cons {before middle after : Cursor} {value : α} {rest : List α}
      (first : step before value middle) (more : Sequence step middle rest after) :
      Sequence step before (value :: rest) after

theorem Sequence.forall {step : Cursor → α → Cursor → Prop} {holds : α → Prop}
    (sequence : Sequence step before values after)
    (each : ∀ before value after, step before value after → holds value) :
    ∀ value ∈ values, holds value := by
  induction sequence with
  | nil => simp
  | cons first _ ih => exact List.forall_mem_cons.mpr ⟨each _ _ _ first, ih⟩

theorem Sequence.exists_of_mem {step : Cursor → α → Cursor → Prop} {value : α}
    (sequence : Sequence step before values after) (member : value ∈ values) :
    ∃ front back entry next, Sequence step before front entry ∧ step entry value next ∧
      Sequence step next back after := by
  induction sequence with
  | nil => cases member
  | @cons before middle after first rest own more ih =>
    rcases List.mem_cons.mp member with rfl | later
    · exact ⟨[], rest, before, middle, .nil _, own, more⟩
    · obtain ⟨front, back, entry, next, earlier, found, behind⟩ := ih later
      exact ⟨first :: front, back, entry, next, .cons own earlier, found, behind⟩

theorem sequence_of_upTo {stop : Test} (done : (upTo stop item).run before = .ok (values, after)) :
    Sequence (Runs item) before values after := by
  obtain ⟨pairs, middle, ran, ⟨⟩⟩ := Reading.run_bind_eq_ok.mp done
  clear done
  -- How far the reader may go is fixed by where it starts; the induction is over any such bound.
  rw [run_collect] at ran
  generalize before.rest.length + 1 = bound at ran
  induction bound generalizing before pairs with
  | zero =>
    cases ran
    exact .nil _
  | succ bound ih =>
    obtain ⟨answer, middle, step, ran⟩ := Reading.run_bind_eq_ok.mp ran
    rw [Reading.run_look_bind] at step
    split at step
    · cases step
      cases ran
      exact .nil _
    · obtain ⟨value, _, own, ⟨⟩⟩ := Reading.run_bind_eq_ok.mp step
      obtain ⟨others, _, ran, ⟨⟩⟩ := Reading.run_bind_eq_ok.mp ran
      exact .cons own (ih _ ran)

theorem sequence_of_commaList (done : (commaList item).run before = .ok (values, after)) :
    Sequence (RunsToComma item) before values after := by
  obtain ⟨pairs, middle, ran, ⟨⟩⟩ := Reading.run_bind_eq_ok.mp done
  clear done
  rw [terminatedPairs, run_collect] at ran
  -- Each round takes at least one token; the induction is on how many are left to take.
  generalize before.rest.length + 1 = bound at ran
  induction bound generalizing before pairs with
  | zero =>
    cases ran
    exact .nil _
  | succ bound ih =>
    obtain ⟨answer, middle, step, ran⟩ := Reading.run_bind_eq_ok.mp ran
    rw [Reading.run_look_bind] at step
    split at step
    · cases step
      cases ran
      exact .nil _
    · obtain ⟨value, ended, own, step⟩ := Reading.run_bind_eq_ok.mp step
      rw [Reading.run_look_bind] at step
      split at step
      next atEnd =>
        cases step
        cases ran
        exact .cons (.last own (List.isEmpty_iff.mp atEnd)) (.nil _)
      · -- A comma stands behind the item, and only then may another one follow.
        obtain ⟨_, next, comma, ⟨⟩⟩ := Reading.run_bind_eq_ok.mp step
        obtain ⟨joint, start, stop, takes⟩ := run_punct_single rfl comma
        obtain ⟨others, _, ran, ⟨⟩⟩ := Reading.run_bind_eq_ok.mp ran
        exact .cons (.comma own takes) (ih _ ran)

/-! ### Records -/

/-- What a reader whose end is noted did before that. -/
structure Ended (reader : DeclReader α) (before : Cursor) (value : α) (final after : Cursor) :
    Prop where
  ran : reader.run before = .ok (value, final)
  rest : after.rest = final.rest
  last : after.last = final.last
  kept : final.marks ⊆ after.marks
  marks : final.rest.length < before.rest.length → after.marks = final.last :: final.marks

theorem exists_ended {reader : DeclReader α} {value : α}
    (done : (ended reader).run before = .ok (value, after)) :
    ∃ final, Ended reader before value final after := by
  simp only [ended] at done
  split at done
  · cases done
  next value' final ran =>
    split at done
    · cases done
      exact ⟨final, ran, rfl, rfl, List.subset_cons_self _ _, fun _ => rfl⟩
    next whole =>
      cases done
      exact ⟨_, ran, rfl, rfl, List.Subset.refl _, fun shorter => absurd shorter whole⟩

/-- What is kept as tokens has no marks inside. -/
theorem run_keepRaw {raw : α → Bool} {reader : Reading declares α} {value : α}
    (done : (keepRaw raw reader).run before = .ok (value, after)) :
    ∃ final, reader.run before = .ok (value, final) ∧ after.rest = final.rest ∧
      (raw value = false → after = final) := by
  simp only [keepRaw] at done
  split at done
  · cases done
  next value' final ran =>
    split at done
    next kept =>
      cases done
      exact ⟨final, ran, rfl, fun fails => by simp [fails] at kept⟩
    · cases done
      exact ⟨_, ran, rfl, fun _ => rfl⟩

/-! ### Groups -/

/-- The tokens of a group that was entered, and those behind it. -/
theorem laid_of_entered {delimiter : Delimiter} {opens : Bool}
    {inner : Reading declares α} {value : α} {inside : List Token} {start closing : Pos}
    {lower upper : Pos} {opened closed first final : Cursor}
    (entered : Entered delimiter opens inner opened value closed inside start closing first final)
    (other : delimiter ≠ .bracket) (lead : before.Reaches true opened)
    (laid : Token.Laid lower before.rest upper) :
    lower ≤ start ∧ Token.Laid ⟨start.line, start.column + 1⟩ first.rest closing ∧
      closing < closed.last ∧ Token.Laid closed.last closed.rest upper := by
  obtain ⟨passed, marked, passes⟩ := lead
  obtain ⟨stop, ahead, last⟩ := entered.rest
  rw [passes.rest, ahead] at laid
  have apart : (Token.group delimiter inside start closing stop).isApart = true := by
    cases delimiter with
    | paren | brace => rfl
    | bracket => exact absurd rfl other
  obtain ⟨early, own⟩ := laid.split apart
  have late := laid.behind (Token.isWhole_of_isApart apart)
  obtain ⟨within, stopped⟩ := own.group_inside
  rw [entered.within, last]
  refine ⟨early.le, within, ?_, late⟩
  rw [stopped]
  simp [Pos.lt_iff]

end Reader

end StructInventory
