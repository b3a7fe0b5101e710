import StructInventory.Grammar.File
import StructInventory.Proofs.ReaderRun
import StructInventory.Proofs.TokenLayout

/-!
Readers in front of tokens that are known: what they answer, where they end and what they print.
-/

namespace StructInventory

namespace Cursor

/-- The cursor behind tokens that were read, for which `shown` is printed. -/
def behind (cursor : Cursor) (rest : List Token) (last : Pos) (shown : List Token) : Cursor :=
  { cursor with rest := rest, last := last, printed := shown.reverse ++ cursor.printed }

theorem behind_behind (cursor : Cursor) (rest rest' : List Token) (last last' : Pos)
    (shown shown' : List Token) :
    (cursor.behind rest last shown).behind rest' last' shown' =
      cursor.behind rest' last' (shown ++ shown') := by
  simp [behind]

theorem behind_self (cursor : Cursor) : cursor.behind cursor.rest cursor.last [] = cursor := rfl

end Cursor

namespace Reading

variable {declares : Bool} {α β : Type} {tokens tokens' more : List Token} {value : α}
  {shown : List Token}

/-- In front of `tokens` and then `more`, the reader takes just `tokens`, prints `shown` and answers
`value`. -/
def Reads (reader : Reading declares α) (tokens more : List Token) (value : α)
    (shown : List Token) : Prop :=
  ∀ cursor : Cursor, cursor.rest = tokens ++ more →
    ∃ last, reader.run cursor = .ok (value, cursor.behind more last shown)

theorem reads_pure : (pure value : Reading declares α).Reads [] more value [] := by
  intro cursor ahead
  exact ⟨cursor.last, by rw [run_pure, ← show cursor.rest = more from ahead, Cursor.behind_self]⟩

namespace Reads

variable {reader : Reading declares α} {next : α → Reading declares β} {value' : β}
  {shown' : List Token}

/-- One reader and, from where it ends, the next. -/
theorem bind (first : reader.Reads tokens (tokens' ++ more) value shown)
    (second : (next value).Reads tokens' more value' shown') :
    (reader >>= next).Reads (tokens ++ tokens') more value' (shown ++ shown') := by
  intro cursor ahead
  obtain ⟨last, ran⟩ := first cursor (by rw [ahead, List.append_assoc])
  obtain ⟨last', ran'⟩ := second (cursor.behind _ last shown) rfl
  refine ⟨last', run_bind_eq_ok.mpr ⟨value, _, ran, ?_⟩⟩
  rw [ran', Cursor.behind_behind]

/-- What the first reader answers may make no difference. -/
theorem seq {second : Reading declares β} (first : reader.Reads tokens (tokens' ++ more) value shown)
    (rest : second.Reads tokens' more value' shown') :
    (reader >>= fun _ => second).Reads (tokens ++ tokens') more value' (shown ++ shown') :=
  first.bind rest

/-- What prints nothing comes first. -/
theorem quietly (first : reader.Reads tokens (tokens' ++ more) value [])
    (second : (next value).Reads tokens' more value' shown') :
    (reader >>= next).Reads (tokens ++ tokens') more value' shown' := first.bind second

/-- What takes no token and prints nothing comes first. -/
theorem after (first : reader.Reads [] (tokens ++ more) value [])
    (second : (next value).Reads tokens more value' shown') :
    (reader >>= next).Reads tokens more value' shown' := first.bind second

/-- One token is taken first. -/
theorem cons {token : Token} (first : reader.Reads [token] (tokens ++ more) value shown)
    (second : (next value).Reads tokens more value' shown') :
    (reader >>= next).Reads (token :: tokens) more value' (shown ++ shown') := first.bind second

/-- What takes no token and prints nothing comes last. -/
theorem followed (first : reader.Reads tokens more value shown)
    (second : (next value).Reads [] more value' []) :
    (reader >>= next).Reads tokens more value' shown := by
  have both : (reader >>= next).Reads (tokens ++ []) more value' (shown ++ []) := first.bind second
  rwa [List.append_nil, List.append_nil] at both

theorem map (reads : reader.Reads tokens more value shown) (f : α → β) :
    (f <$> reader).Reads tokens more (f value) shown := by
  intro cursor ahead
  obtain ⟨last, ran⟩ := reads cursor ahead
  exact ⟨last, run_map_eq_ok.mpr ⟨value, ran, rfl⟩⟩

theorem discard (reads : reader.Reads tokens more value shown) :
    (Functor.discard reader).Reads tokens more PUnit.unit shown := reads.map _

theorem lift {reader : Reader α} (reads : reader.Reads tokens more value shown) :
    (liftM reader : Reading declares α).Reads tokens more value shown := reads

/-- Where nothing follows, the tokens are read as a whole. -/
theorem complete (reads : reader.Reads tokens [] value shown) (scope : Pos) :
    ∃ final, Reader.complete reader tokens scope = .ok (value, final) := by
  obtain ⟨last, ran⟩ := reads { rest := tokens, scope := scope, last := scope } (List.append_nil _).symm
  unfold Reader.complete
  rw [ran]
  exact ⟨_, rfl⟩

end Reads

/-- A look ahead decides how to go on. -/
theorem reads_look {test : Reader.Test} {next : Bool → Reading declares α}
    (reads : (next (test (tokens ++ more))).Reads tokens more value shown) :
    (Reader.look test >>= next).Reads tokens more value shown := by
  intro cursor ahead
  rw [run_look_bind, ahead]
  exact reads cursor ahead

section

variable {test : Reader.Test} {yes no : Reading declares α}

theorem reads_look_pos (holds : test (tokens ++ more) = true)
    (reads : yes.Reads tokens more value shown) :
    (Reader.look test >>= fun found => if found = true then yes else no).Reads tokens more value
      shown := by
  refine reads_look ?_
  rwa [holds, if_pos rfl]

theorem reads_look_neg (fails : test (tokens ++ more) = false)
    (reads : no.Reads tokens more value shown) :
    (Reader.look test >>= fun found => if found = true then yes else no).Reads tokens more value
      shown := by
  refine reads_look ?_
  rwa [fails, if_neg Bool.false_ne_true]

theorem reads_look_and_neg {other : Bool} (fails : test (tokens ++ more) = false)
    (reads : no.Reads tokens more value shown) :
    (Reader.look test >>= fun found => if (other && found) = true then yes else no).Reads tokens
      more value shown := by
  refine reads_look ?_
  rwa [fails, Bool.and_false, if_neg Bool.false_ne_true]

end

end Reading

namespace Reader

open Reading

variable {declares : Bool} {α : Type} {tokens tokens' more : List Token} {value : α}
  {shown shown' : List Token} {start stop start' stop' : Pos}

/-! ### Steps -/

theorem reads_next {accept : Token → Option (α × List Token)} {token : Token}
    (accepted : accept token = some (value, shown)) :
    (next accept).Reads [token] more value shown := by
  intro cursor ahead
  rw [List.singleton_append] at ahead
  refine ⟨token.stop, ?_⟩
  simp [next, ahead, accepted, Cursor.behind]

theorem reads_emit : (emit shown).Reads [] more () shown := by
  intro cursor ahead
  exact ⟨cursor.last, by rw [← show cursor.rest = more from ahead]; rfl⟩

theorem reads_here_bind {next : Pos → Reading declares α}
    (reads : ∀ pos, (next pos).Reads tokens more value shown) :
    (here >>= next).Reads tokens more value shown := fun cursor ahead => reads cursor.here cursor ahead

theorem reads_cursor_bind {next : Cursor → Reading declares α}
    (reads : ∀ standing : Cursor, standing.rest = tokens ++ more →
      (next standing).Reads tokens more value shown) :
    (cursor >>= next).Reads tokens more value shown :=
  fun standing ahead => reads standing ahead standing ahead

theorem reads_anyWord (found : Word) :
    anyWord.Reads [.word found start stop] more found [.word found start stop] := reads_next rfl

theorem reads_word {name : String} {found : Word} (same : found.text = name) :
    (word name).Reads [.word found start stop] more () [.word found start stop] :=
  reads_look_pos (by simp [atWord, same]) (reads_anyWord found).discard

theorem reads_word? {name : String} {found : Word} (same : found.text = name) :
    (word? name).Reads [.word found start stop] more true [.word found start stop] :=
  reads_look_pos (by simp [atWord, same]) ((reads_anyWord found).discard.followed reads_pure)

theorem reads_word?_none {name : String} (other : atWord name more = false) :
    (word? name).Reads [] more false [] := reads_look_neg other reads_pure

theorem reads_lifetime (name : String) :
    lifetime.Reads [.lifetime name start stop] more name [.lifetime name start stop] :=
  reads_next rfl

theorem reads_lifetime? (name : String) :
    lifetime?.Reads [.lifetime name start stop] more (some name) [.lifetime name start stop] :=
  reads_look_pos rfl ((reads_lifetime name).followed reads_pure)

theorem reads_lifetime?_none (other : atLifetime more = false) :
    lifetime?.Reads [] more none [] := reads_look_neg other reads_pure

theorem reads_eatMarks_cons {c : Char} {cs : List Char} (joint : Bool)
    (rest : (eatMarks cs).Reads tokens more () shown) :
    (eatMarks (c :: cs)).Reads (.punct c joint start stop :: tokens) more ()
      (.punct c (!cs.isEmpty) start stop :: shown) := by
  change Reads _ _ _ _ ([.punct c (!cs.isEmpty) start stop] ++ shown)
  rw [eatMarks]
  exact Reads.cons (reads_next (if_pos (beq_self_eq_true c))) rest

theorem reads_eatMarks_single {c : Char} (joint : Bool) :
    (eatMarks [c]).Reads [.punct c joint start stop] more () [.punct c false start stop] :=
  reads_eatMarks_cons joint reads_pure

theorem reads_eatMarks_double {c d : Char} (joint : Bool) :
    (eatMarks [c, d]).Reads [.punct c true start stop, .punct d joint start' stop'] more ()
      [.punct c true start stop, .punct d false start' stop'] :=
  reads_eatMarks_cons true (reads_eatMarks_single joint)

theorem reads_punct_single {marks : String} {c : Char} (single : marks.toList = [c])
    (joint : Bool) :
    (punct marks).Reads [.punct c joint start stop] more () [.punct c false start stop] := by
  refine reads_look_pos (by simp [atPunct, single, atMarks]) ?_
  rw [single]
  exact reads_eatMarks_single joint

theorem reads_punct_double {marks : String} {c d : Char} (double : marks.toList = [c, d])
    (joint : Bool) :
    (punct marks).Reads [.punct c true start stop, .punct d joint start' stop'] more ()
      [.punct c true start stop, .punct d false start' stop'] := by
  refine reads_look_pos (by simp [atPunct, double, atMarks]) ?_
  rw [double]
  exact reads_eatMarks_double joint

theorem reads_punct?_single {marks : String} {c : Char} (single : marks.toList = [c])
    (joint : Bool) :
    (punct? marks).Reads [.punct c joint start stop] more true [.punct c false start stop] := by
  refine reads_look_pos (by simp [atPunct, single, atMarks]) ?_
  rw [single]
  exact (reads_eatMarks_single joint).followed reads_pure

theorem reads_punct?_double {marks : String} {c d : Char} (double : marks.toList = [c, d])
    (joint : Bool) :
    (punct? marks).Reads [.punct c true start stop, .punct d joint start' stop'] more true
      [.punct c true start stop, .punct d false start' stop'] := by
  refine reads_look_pos (by simp [atPunct, double, atMarks]) ?_
  rw [double]
  exact (reads_eatMarks_double joint).followed reads_pure

theorem reads_punct?_none {marks : String} (other : atPunct marks more = false) :
    (punct? marks).Reads [] more false [] := reads_look_neg other reads_pure

theorem reads_literal (text : String) :
    literal.Reads [.literal text start stop] more text [.literal text start stop] := by
  refine reads_look ?_
  exact (reads_punct?_none rfl).after (reads_next rfl)

/-! ### Records and groups -/

theorem reads_captured {reader : Reading declares α} (reads : reader.Reads tokens more value shown) :
    (captured reader).Reads tokens more (value, shown) shown := by
  intro cursor ahead
  obtain ⟨last, ran⟩ := reads { cursor with printed := [] } ahead
  refine ⟨last, ?_⟩
  refine run_bind_eq_ok.mpr ⟨cursor.printed, { cursor with printed := [] }, rfl, ?_⟩
  refine run_bind_eq_ok.mpr ⟨value, _, ran, ?_⟩
  refine run_bind_eq_ok.mpr ⟨shown, cursor.behind more last shown, ?_, rfl⟩
  simp [reprint, Cursor.behind]

theorem reads_silent {reader : Reading declares α} (reads : reader.Reads tokens more value shown) :
    (silent reader).Reads tokens more value [] := by
  intro cursor ahead
  obtain ⟨last, ran⟩ := reads cursor ahead
  refine ⟨last, ?_⟩
  refine run_bind_eq_ok.mpr ⟨cursor.printed, cursor, rfl, ?_⟩
  refine run_bind_eq_ok.mpr ⟨value, _, ran, ?_⟩
  exact run_bind_eq_ok.mpr ⟨(), cursor.behind more last [], rfl, rfl⟩

theorem reads_keepRaw {raw : α → Bool} {reader : Reading declares α}
    (reads : reader.Reads tokens more value shown) (parsed : raw value = false) :
    (keepRaw raw reader).Reads tokens more value shown := by
  intro cursor ahead
  obtain ⟨last, ran⟩ := reads cursor ahead
  refine ⟨last, ?_⟩
  simp [keepRaw, ran, parsed]

theorem reads_group {reader : Reading declares α} (reads : reader.Reads tokens [] value shown)
    (delimiter : Delimiter) (start closing stop : Pos) :
    (group delimiter reader).Reads [.group delimiter tokens start closing stop] more value
      [.group delimiter shown start closing stop] := by
  intro cursor ahead
  obtain ⟨last, ran⟩ := reads { cursor with
    rest := tokens, scope := closing, last := closing, printed := [] } (List.append_nil _).symm
  rw [List.singleton_append] at ahead
  refine ⟨stop, ?_⟩
  simp only [group, enter, ahead, bne_self_eq_false, Bool.false_eq_true, if_false, ran]
  simp [Cursor.behind]

/-! ### Lists -/

section

variable {step : Reading declares (Option (α × Bool))} {values : List (α × Bool)}

/-- The step is repeated over `tokens`, with any bound that is large enough. -/
def ReadsSteps (step : Reading declares (Option (α × Bool))) (tokens more : List Token)
    (values : List (α × Bool)) (shown : List Token) : Prop :=
  ∀ bound, tokens.length < bound → (repeatUpTo step bound).Reads tokens more values shown

theorem ReadsSteps.collect (reads : ReadsSteps step tokens more values shown) :
    (Reader.collect step).Reads tokens more values shown := by
  intro cursor ahead
  rw [run_collect, ahead]
  exact reads _ (by rw [List.length_append]; omega) cursor ahead

theorem readsSteps_none (reads : step.Reads [] more none []) : ReadsSteps step [] more [] [] := by
  intro bound enough
  cases bound with
  | zero => exact reads_pure
  | succ bound => exact reads.followed reads_pure

theorem readsSteps_last (reads : step.Reads tokens more (some (value, false)) shown) :
    ReadsSteps step tokens more [(value, false)] shown := by
  intro bound enough
  obtain ⟨bound, rfl⟩ : ∃ less, bound = less + 1 := ⟨bound - 1, by omega⟩
  exact reads.followed reads_pure

theorem readsSteps_cons (some : tokens ≠ [])
    (first : step.Reads tokens (tokens' ++ more) (.some (value, true)) shown)
    (rest : ReadsSteps step tokens' more values shown') :
    ReadsSteps step (tokens ++ tokens') more ((value, true) :: values) (shown ++ shown') := by
  intro bound enough
  have longer := List.length_pos_iff.mpr some
  rw [List.length_append] at enough
  obtain ⟨bound, rfl⟩ : ∃ less, bound = less + 1 := ⟨bound - 1, by omega⟩
  exact first.bind ((rest bound (by omega)).followed reads_pure)

end

section

variable {stop : Test} {item : Reading declares α} {values : List α}

/-- One item of a list, as `upTo` repeats it. -/
def upToStep (stop : Test) (item : Reading declares α) : Reading declares (Option (α × Bool)) := do
  if ← look stop then return none else return some (← item, true)

/-- The items of a list up to where `stop` holds. -/
def ReadsUpTo (stop : Test) (item : Reading declares α) (tokens more : List Token)
    (values : List α) (shown : List Token) : Prop :=
  ReadsSteps (upToStep stop item) tokens more (values.map (·, true)) shown

theorem ReadsUpTo.upTo (reads : ReadsUpTo stop item tokens more values shown) :
    (Reader.upTo stop item).Reads tokens more values shown := by
  have mapped := (ReadsSteps.collect reads).map fun items => items.map Prod.fst
  rw [List.map_map, show Prod.fst ∘ (fun value : α => (value, true)) = id from rfl,
    List.map_id] at mapped
  exact mapped

theorem readsUpTo_nil (ended : stop more = true) : ReadsUpTo stop item [] more [] [] :=
  readsSteps_none (reads_look_pos ended reads_pure)

theorem readsUpTo_cons (some : tokens ≠ []) (begins : stop (tokens ++ (tokens' ++ more)) = false)
    (first : item.Reads tokens (tokens' ++ more) value shown)
    (rest : ReadsUpTo stop item tokens' more values shown') :
    ReadsUpTo stop item (tokens ++ tokens') more (value :: values) (shown ++ shown') :=
  readsSteps_cons some (reads_look_neg begins (first.followed reads_pure)) rest

theorem readsUpTo_last (some : tokens ≠ []) (begins : stop (tokens ++ more) = false)
    (last : item.Reads tokens more value shown) (ended : stop more = true) :
    ReadsUpTo stop item tokens more [value] shown := by
  have reads : ReadsUpTo stop item (tokens ++ []) more [value] (shown ++ []) :=
    readsUpTo_cons some begins last (readsUpTo_nil ended)
  rwa [List.append_nil, List.append_nil] at reads

end

section

variable {stop : Test} {mark : String} {item : Reading declares α}

/-- One item of a list with separators, as `terminatedPairs` repeats it. -/
def terminatedStep (stop : Test) (mark : String) (item : Reading declares α) :
    Reading declares (Option (α × Bool)) := do
  if ← look stop then return none
  let value ← item
  if ← look stop then return some (value, false)
  punct mark
  return some (value, true)

theorem reads_terminatedStep_none (ended : stop more = true) :
    (terminatedStep stop mark item).Reads [] more none [] := reads_look_pos ended reads_pure

theorem reads_terminatedStep_last (begins : stop (tokens ++ more) = false)
    (reads : item.Reads tokens more value shown) (ended : stop more = true) :
    (terminatedStep stop mark item).Reads tokens more (some (value, false)) shown :=
  reads_look_neg begins (reads.followed (reads_look_pos ended reads_pure))

/-- An item and the separator behind it. -/
theorem reads_terminatedStep_mark {c : Char} (single : mark.toList = [c]) {joint : Bool}
    {first last : Pos}
    (begins : stop (tokens ++ .punct c joint first last :: more) = false)
    (reads : item.Reads tokens (.punct c joint first last :: more) value shown)
    (goes : stop (.punct c joint first last :: more) = false) :
    (terminatedStep stop mark item).Reads (tokens ++ [.punct c joint first last]) more
      (some (value, true)) (shown ++ [.punct c false first last]) := by
  refine reads_look_neg (by simpa using begins) (reads.bind (reads_look_neg goes ?_))
  exact (reads_punct_single single joint).lift.followed reads_pure

end

section

variable {σ : Type} {step : σ → Reading declares (Option σ)} {state next final : σ}

/-- The step is repeated over `tokens` from `state` to `final`, with any bound that is large enough. -/
def ReadsIterate (step : σ → Reading declares (Option σ)) (state : σ) (tokens more : List Token)
    (final : σ) (shown : List Token) : Prop :=
  ∀ bound, tokens.length < bound → (iterateUpTo step bound state).Reads tokens more final shown

theorem ReadsIterate.iterate (reads : ReadsIterate step state tokens more final shown) :
    (Reader.iterate step state).Reads tokens more final shown := by
  refine reads_cursor_bind fun standing ahead => reads _ ?_
  rw [ahead, List.length_append]
  omega

theorem readsIterate_last (reads : (step state).Reads tokens more none shown) :
    ReadsIterate step state tokens more state shown := by
  intro bound enough
  obtain ⟨bound, rfl⟩ : ∃ less, bound = less + 1 := ⟨bound - 1, by omega⟩
  exact reads.followed reads_pure

theorem readsIterate_cons (some : tokens ≠ [])
    (first : (step state).Reads tokens (tokens' ++ more) (.some next) shown)
    (rest : ReadsIterate step next tokens' more final shown') :
    ReadsIterate step state (tokens ++ tokens') more final (shown ++ shown') := by
  intro bound enough
  have longer := List.length_pos_iff.mpr some
  rw [List.length_append] at enough
  obtain ⟨bound, rfl⟩ : ∃ less, bound = less + 1 := ⟨bound - 1, by omega⟩
  exact first.bind (rest bound (by omega))

end

end Reader

end StructInventory
