import StructInventory.Proofs.ItemReader

/-!
Where declarations begin. Behind its attributes every struct, exported field and method begins with
a word, and stands where that word does. Where it ends is noted.
-/

namespace StructInventory

open Reader

namespace Cursor

variable {declares : Bool} {before middle after : Cursor}

theorem Reaches.loud (reaches : before.Reaches declares after) : before.Reaches true after := by
  cases declares with
  | false => exact reaches.declaring
  | true => exact reaches

/-- The first token between two cursors is a word. -/
def BeginsWord (before after : Cursor) : Prop :=
  ∃ taken word stop, Takes before taken (.word word before.here stop) ∧ taken.Reaches true after

theorem BeginsWord.trans (begins : before.BeginsWord middle) (more : middle.Reaches true after) :
    before.BeginsWord after := by
  obtain ⟨taken, word, stop, takes, goes⟩ := begins
  exact ⟨taken, word, stop, takes, goes.trans more⟩

theorem beginsWord_of_takes {word : Word} {start stop : Pos}
    (takes : Takes before after (.word word start stop)) : before.BeginsWord after := by
  refine ⟨after, word, stop, ?_, reaches_same rfl rfl rfl rfl⟩
  rw [takes.here]
  exact takes

theorem BeginsWord.reaches (begins : before.BeginsWord after) : before.Reaches true after := by
  obtain ⟨taken, word, stop, takes, goes⟩ := begins
  exact takes.reaches.trans goes

theorem BeginsWord.length_lt (begins : before.BeginsWord after) :
    after.rest.length < before.rest.length := by
  obtain ⟨taken, word, stop, takes, passed, marked, passes⟩ := begins
  rw [takes.rest, passes.rest, List.length_cons, List.length_append]
  omega

end Cursor

namespace Reading

variable {declares : Bool} {α β : Type} {reader : Reading declares α}
  {next : α → Reading declares β}

/-- What the reader reads begins with a word. -/
def LeadsWord (reader : Reading declares α) : Prop :=
  ∀ before after value, reader.run before = .ok (value, after) → before.BeginsWord after

/-- The reader takes no token, or first a word. -/
def MayLeadWord (reader : Reading declares α) : Prop :=
  ∀ before after value, reader.run before = .ok (value, after) →
    before.BeginsWord after ∨ after = before

theorem LeadsWord.bind (leads : reader.LeadsWord) : (reader >>= next).LeadsWord := by
  intro before after value done
  obtain ⟨given, middle, ran, rest⟩ := run_bind_eq_ok.mp done
  exact (leads _ _ _ ran).trans ((next given).orderly rest).loud

theorem MayLeadWord.leads (may : reader.MayLeadWord) (leads : ∀ value, (next value).LeadsWord) :
    (reader >>= next).LeadsWord := by
  intro before after value done
  obtain ⟨given, middle, ran, rest⟩ := run_bind_eq_ok.mp done
  rcases may _ _ _ ran with begins | rfl
  · exact begins.trans ((next given).orderly rest).loud
  · exact leads given _ _ _ rest

theorem MayLeadWord.bind (may : reader.MayLeadWord) (more : ∀ value, (next value).MayLeadWord) :
    (reader >>= next).MayLeadWord := by
  intro before after value done
  obtain ⟨given, middle, ran, rest⟩ := run_bind_eq_ok.mp done
  rcases may _ _ _ ran with begins | rfl
  · exact .inl (begins.trans ((next given).orderly rest).loud)
  · exact more given _ _ _ rest

theorem LeadsWord.may (leads : reader.LeadsWord) : reader.MayLeadWord :=
  fun _ _ _ done => .inl (leads _ _ _ done)

theorem mayLeadWord_ask (question : Cursor → α) :
    (Reader.ask question : Reading declares α).MayLeadWord := by
  rintro before after value ⟨⟩
  exact .inr rfl

theorem mayLeadWord_pure (value : α) : (pure value : Reading declares α).MayLeadWord := by
  rintro before after value ⟨⟩
  exact .inr rfl

theorem MayLeadWord.ite {condition : Prop} [Decidable condition] {yes no : Reading declares α}
    (first : yes.MayLeadWord) (second : no.MayLeadWord) :
    (if condition then yes else no).MayLeadWord := by
  split
  · exact first
  · exact second

theorem MayLeadWord.discard (may : reader.MayLeadWord) : (Functor.discard reader).MayLeadWord := by
  intro before after value done
  obtain ⟨given, ran⟩ := run_discard_eq_ok.mp done
  exact may _ _ _ ran

/-- `answer` holds of all that the reader answers. -/
def Yields (reader : Reading declares α) (answer : α → Prop) : Prop :=
  ∀ before after value, reader.run before = .ok (value, after) → answer value

section

variable {answer : β → Prop}

theorem Yields.behind (yields : ∀ value, (next value).Yields answer) :
    (reader >>= next).Yields answer := by
  intro before after value done
  obtain ⟨given, middle, ran, rest⟩ := run_bind_eq_ok.mp done
  exact yields given _ _ _ rest

theorem yields_pure {value : β} (holds : answer value) :
    (pure value : Reading declares β).Yields answer := by
  rintro before after value ⟨⟩
  exact holds

theorem Yields.ite {condition : Prop} [Decidable condition] {yes no : Reading declares β}
    (first : yes.Yields answer) (second : no.Yields answer) :
    (if condition then yes else no).Yields answer := by
  split
  · exact first
  · exact second

end

theorem leadsWord_word (name : String) : (Reader.word name).LeadsWord := by
  intro before after value done
  obtain ⟨found, start, stop, takes⟩ := run_word done
  exact Cursor.beginsWord_of_takes takes

theorem mayLeadWord_word? (name : String) : (Reader.word? name).MayLeadWord := by
  intro before after value done
  rcases run_word? done with ⟨-, found, start, stop, takes⟩ | ⟨-, same⟩
  · exact .inl (Cursor.beginsWord_of_takes takes)
  · exact .inr same

end Reading

namespace Grammar

open Reading

variable {g : Grammar} {conditions : List Condition} {before after : Cursor}

/-- A declaration stands where its visibility does, or else where what follows does. -/
theorem run_visibility {shown : Visibility} (done : visibility.run before = .ok (shown, after)) :
    shown.declStart after.here = before.here ∧
      (before.BeginsWord after ∨ after = before ∧ shown.exported = false) := by
  obtain ⟨start, _, ⟨⟩, done⟩ := run_bind_eq_ok.mp done
  obtain ⟨found, middle, ran, done⟩ := run_bind_eq_ok.mp done
  rcases run_word? ran with ⟨rfl, word, start, stop, takes⟩ | ⟨rfl, rfl⟩
  · obtain ⟨restricted, _, ran, ⟨⟩⟩ := run_bind_eq_ok.mp done
    have begins := (Cursor.beginsWord_of_takes takes).trans (restriction?.orderly ran).loud
    exact ⟨rfl, .inl begins⟩
  · cases done
    exact ⟨rfl, .inr ⟨rfl, rfl⟩⟩

theorem mayLeadWord_callingConvention? : callingConvention?.MayLeadWord := by
  refine (mayLeadWord_ask _).bind fun found => .ite ?_ (mayLeadWord_pure _)
  exact (leadsWord_word "extern").bind.may

theorem mayLeadWord_functionHead (foreign : Bool) : (functionHead foreign).MayLeadWord := by
  refine (mayLeadWord_word? _).discard.bind fun _ => (mayLeadWord_word? _).discard.bind fun _ => ?_
  have head (safe : Bool) : (do
      if !safe then discard (word? "unsafe")
      callingConvention? : Reader Unit).MayLeadWord := by
    refine .ite ?_ mayLeadWord_callingConvention?
    exact (mayLeadWord_word? _).discard.bind fun _ => mayLeadWord_callingConvention?
  exact .ite ((mayLeadWord_word? _).bind head) (head false)

theorem leadsWord_signature (foreign : Bool) : (signature g foreign).LeadsWord :=
  (mayLeadWord_functionHead foreign).leads fun _ => (leadsWord_word "fn").bind

/-! ### Layout -/

variable {lead : Cursor} {lower upper : Pos}

/-- What begins with a word, behind `lead`. -/
theorem laid_of_beginsWord {declares : Bool} (reaches : before.Reaches declares lead)
    (begins : lead.BeginsWord after) (laid : Token.Laid lower before.rest upper) :
    lower ≤ lead.here ∧ ∃ taken : Cursor, lead.here < taken.last ∧ taken.marks = lead.marks ∧
      Token.Laid taken.last taken.rest upper ∧ taken.Reaches true after := by
  obtain ⟨passed, marked, passes⟩ := reaches
  obtain ⟨taken, word, stop, takes, goes⟩ := begins
  rw [passes.rest, takes.rest] at laid
  obtain ⟨early, own⟩ := laid.split rfl
  refine ⟨early.le, taken, ?_, takes.marks, ?_, goes⟩
  · rw [takes.last]
    exact own.word_lt
  · rw [takes.last]
    exact laid.behind rfl

/-! ### What declares something -/

/-- From `before` to `after` something is declared at `pos`: attributes come up to `lead`, then a
word at `pos` and more up to `final`, and its end is noted. -/
structure Declares (before : Cursor) (pos : Pos) (lead final after : Cursor) : Prop where
  attributes : ∃ g conditions, (outerAttributes g).run before = .ok (conditions, lead)
  begins : lead.BeginsWord final
  here : lead.here = pos
  rest : after.rest = final.rest
  last : after.last = final.last
  marks : after.marks = final.last :: final.marks

theorem Declares.lead_reaches {pos : Pos} {lead final : Cursor}
    (declares : Declares before pos lead final after) : before.Reaches true lead := by
  obtain ⟨g, conditions, attributes⟩ := declares.attributes
  exact (Reading.orderly _ attributes).loud

theorem Declares.length_lt {pos : Pos} {lead final : Cursor}
    (declares : Declares before pos lead final after) : after.rest.length < before.rest.length := by
  obtain ⟨passed, marked, passes⟩ := declares.lead_reaches
  have shorter := declares.begins.length_lt
  rw [declares.rest, passes.rest, List.length_append]
  omega

theorem declares_of_ended {α : Type} {reader : DeclReader α} {value : α} {lead final : Cursor}
    (ended : Ended reader before value final after)
    (attributes : (outerAttributes g).run before = .ok (conditions, lead))
    (begins : lead.BeginsWord final) : Declares before lead.here lead final after where
  attributes := ⟨g, conditions, attributes⟩
  begins := begins
  here := rfl
  rest := ended.rest
  last := ended.last
  marks := by
    obtain ⟨passed, marked, passes⟩ := (outerAttributes g).orderly attributes
    refine ended.marks (Nat.lt_of_lt_of_le begins.length_lt ?_)
    rw [passes.rest, List.length_append]
    exact Nat.le_add_left _ _

/-- A field is declared where its `pub` stands. -/
theorem declares_of_shown {α : Type} {reader : DeclReader α} {value : α} {shown : Visibility}
    {lead middle final : Cursor} (ended : Ended reader before value final after)
    (attributes : (outerAttributes g).run before = .ok (conditions, lead))
    (sees : visibility.run lead = .ok (shown, middle)) (goes : middle.Reaches true final)
    (exported : shown.exported = true) :
    Declares before (shown.declStart middle.here) lead final after := by
  obtain ⟨here, begins | ⟨-, hidden⟩⟩ := run_visibility sees
  · rw [here]
    exact declares_of_ended ended attributes (begins.trans goes)
  · rw [hidden] at exported
    cases exported

/-- The field has the visibility `shown`, behind which comes what stands at `start`. -/
def Visibility.Shows (shown : Visibility) (start : Pos) (field : FieldDecl) : Prop :=
  field.exported = shown.exported ∧ field.pos = shown.declStart start

theorem run_namedField {field : FieldDecl} (done : (namedField g).run before = .ok (field, after))
    (exported : field.exported = true) : ∃ lead final, Declares before field.pos lead final after := by
  unfold namedField at done
  obtain ⟨final, ended⟩ := exists_ended done
  obtain ⟨conditions, lead, attributes, rest⟩ := run_bind_eq_ok.mp ended.ran
  obtain ⟨shown, middle, sees, rest⟩ := run_bind_eq_ok.mp rest
  have goes := Reading.orderly _ rest
  obtain ⟨start, _, ⟨⟩, rest⟩ := run_bind_eq_ok.mp rest
  -- Whatever name and type follow, the field keeps the visibility that was read before them.
  obtain ⟨same, pos⟩ : shown.Shows middle.here field := by
    refine (show Yields _ (shown.Shows middle.here) from .behind fun blank => ?_)
      _ _ _ rest
    have typed (name : Word) : (do
        punct ":"
        let type ←
          if blank && (← look atInlineFields) then inlineType g else TypeReading.type <$> g.type
        return ⟨some name.name, type, shown.exported, shown.declStart middle.here, conditions⟩ :
          DeclReader FieldDecl).Yields (shown.Shows middle.here) := by
      refine .behind fun _ => .behind fun _ => .ite ?_ ?_
      all_goals exact .behind fun _ => yields_pure ⟨rfl, rfl⟩
    exact .ite (.behind typed) (.behind typed)
  rw [pos]
  exact ⟨lead, final, declares_of_shown ended attributes sees goes (same ▸ exported)⟩

theorem run_tupleField {field : FieldDecl} (done : (tupleField g).run before = .ok (field, after)) :
    field.name = none ∧
      (field.exported = true → ∃ lead final, Declares before field.pos lead final after) := by
  unfold tupleField at done
  obtain ⟨final, ended⟩ := exists_ended done
  obtain ⟨conditions, lead, attributes, rest⟩ := run_bind_eq_ok.mp ended.ran
  obtain ⟨shown, middle, sees, rest⟩ := run_bind_eq_ok.mp rest
  have goes := Reading.orderly _ rest
  obtain ⟨start, _, ⟨⟩, rest⟩ := run_bind_eq_ok.mp rest
  obtain ⟨type, _, -, ⟨⟩⟩ := run_bind_eq_ok.mp rest
  exact ⟨rfl, fun exported => ⟨lead, final, declares_of_shown ended attributes sees goes exported⟩⟩

/-- A struct begins with its visibility or its keyword. -/
theorem run_structItem {found : Option Item}
    (done : (structItem g conditions).run before = .ok (found, after)) :
    ∃ decl fields opened, found = some (.type decl) ∧ decl.pos = before.here ∧
      decl.form = .struct fields ∧ before.BeginsWord opened ∧
      (structBody g).run opened = .ok (fields, after) := by
  obtain ⟨shown, middle, sees, rest⟩ := run_bind_eq_ok.mp done
  obtain ⟨keyword, _, ⟨⟩, rest⟩ := run_bind_eq_ok.mp rest
  obtain ⟨_, named, struct, rest⟩ := run_bind_eq_ok.mp rest
  obtain ⟨name, listed, ran, rest⟩ := run_bind_eq_ok.mp rest
  obtain ⟨parameters, opened, ran', rest⟩ := run_bind_eq_ok.mp rest
  obtain ⟨fields, _, held, ⟨⟩⟩ := run_bind_eq_ok.mp rest
  obtain ⟨here, led⟩ := run_visibility sees
  have begun : middle.BeginsWord opened :=
    (leadsWord_word _ _ _ _ struct).trans
      ((Reading.orderly _ ran).loud.trans (Reading.orderly _ ran').loud)
  refine ⟨_, fields, opened, rfl, here, rfl, ?_, held⟩
  rcases led with begins | ⟨rfl, -⟩
  · exact begins.trans begun.reaches
  · exact begun

/-- A method begins with its visibility or with one of the words before its name. -/
theorem run_implFunction {found : Option FunctionDecl}
    (done : (implFunction g conditions).run before = .ok (found, after)) :
    before.BeginsWord after ∧ ∀ function ∈ found, function.pos = before.here := by
  obtain ⟨shown, middle, sees, rest⟩ := run_bind_eq_ok.mp done
  have goes := Reading.orderly _ rest
  obtain ⟨start, _, ⟨⟩, rest⟩ := run_bind_eq_ok.mp rest
  obtain ⟨here, led⟩ := run_visibility sees
  constructor
  · rcases led with begins | ⟨rfl, -⟩
    · exact begins.trans goes.loud
    · -- Without a visibility the method begins with one of the words up to `fn`.
      refine MayLeadWord.leads ?_ (fun _ => ?_) _ _ _ rest
      · exact (mayLeadWord_word? _).discard
      · exact (leadsWord_signature false).bind
  · rw [← here]
    refine (show Yields _ fun found : Option FunctionDecl =>
      ∀ function ∈ found, function.pos = shown.declStart middle.here from ?_) _ _ _ rest
    refine .behind fun _ => .behind fun _ => .behind fun _ => .ite ?_ ?_
    · exact yields_pure (by simp)
    · exact .behind fun _ => yields_pure (by simp)

theorem run_implMember {function : FunctionDecl}
    (done : (member? (implMember g)).run before = .ok (some (some function), after)) :
    ∃ lead final, Declares before function.pos lead final after := by
  unfold member? at done
  obtain ⟨final, ended⟩ := exists_ended done
  obtain ⟨whole, ran, -, same⟩ := run_keepRaw ended.ran
  obtain rfl := same rfl
  obtain ⟨conditions, lead, attributes, rest⟩ := run_bind_eq_ok.mp ran
  obtain ⟨method, middle, looked, own⟩ := run_bind_eq_ok.mp rest
  obtain rfl := glance_stays looked
  refine ⟨middle, final, ?_⟩
  cases method with
  | true =>
    obtain ⟨answer, _, own, given⟩ := run_bind_eq_ok.mp own
    obtain ⟨mapped, rfl⟩ : answer.map some = some (some function) ∧ _ = final := by
      simpa using given
    obtain ⟨_, rfl, ⟨⟩⟩ := Option.map_eq_some_iff.mp mapped
    obtain ⟨begins, pos⟩ := run_implFunction own
    rw [pos function rfl]
    exact declares_of_ended ended attributes begins
  | false =>
    -- What is not read as a method answers none.
    have none : (some (some function)).join = none := by
      refine (show Yields _ fun found : Option (Option FunctionDecl) => found.join = none from
        .behind fun _ => .ite ?_ ?_) _ _ _ own
      · exact .behind fun _ => yields_pure rfl
      · refine .behind fun complete => yields_pure ?_
        cases complete <;> rfl
    cases none

/-! ### What holds declarations -/

/-- The fields of a struct: none, or in parentheses, or in braces. -/
inductive FieldsRun (g : Grammar) (before after : Cursor) : List FieldDecl → Prop where
  | none : FieldsRun g before after []
  | tuple {fields : List FieldDecl} {inside : List Token} {start closing : Pos}
      {opened closed first final : Cursor} (lead : before.Reaches true opened)
      (entered : Entered .paren false (commaList (tupleField g)) opened fields closed inside start
        closing first final)
      (goes : closed.Reaches true after) : FieldsRun g before after fields
  | named {g' : Grammar} {fields : List FieldDecl} {inside : List Token} {start closing : Pos}
      {opened first final : Cursor} (lead : before.Reaches true opened)
      (entered : Entered .brace true (commaList (namedField g')) opened fields after inside start
        closing first final) : FieldsRun g before after fields

theorem run_structBody (reads : ReadsFields g) {fields : List FieldDecl}
    (done : (structBody g).run before = .ok (fields, after)) : FieldsRun g before after fields := by
  obtain ⟨bounded, opened, ran, rest⟩ := run_bind_eq_ok.mp done
  have lead := (Reading.orderly _ ran).loud
  obtain ⟨_, _, ⟨⟩, rest⟩ := run_bind_eq_ok.mp rest
  split at rest
  · obtain ⟨found, closed, held, rest⟩ := run_bind_eq_ok.mp rest
    have goes := (Reading.orderly _ rest).loud
    obtain ⟨_, middle, -, rest⟩ := run_bind_eq_ok.mp rest
    obtain ⟨_, _, -, ⟨⟩⟩ := run_bind_eq_ok.mp rest
    obtain ⟨inside, start, closing, first, final, entered⟩ := exists_entered held
    exact .tuple lead entered goes
  · obtain ⟨_, _, ⟨⟩, rest⟩ := run_bind_eq_ok.mp rest
    split at rest
    · obtain ⟨g', held⟩ := reads _ _ _ rest
      obtain ⟨inside, start, closing, first, final, entered⟩ := exists_entered held
      exact .named lead entered
    · obtain ⟨_, _, -, ⟨⟩⟩ := run_bind_eq_ok.mp rest
      exact .none

theorem nameless_of_entered {fields : List FieldDecl} {inside : List Token} {start closing : Pos}
    {first final : Cursor}
    (entered : Entered .paren false (commaList (tupleField g)) before fields after inside start
      closing first final) : ∀ field ∈ fields, field.name = none := by
  refine (sequence_of_commaList entered.ran).forall fun _ _ _ step => ?_
  cases step with
  | last ran => exact (run_tupleField ran).1
  | comma ran => exact (run_tupleField ran).1

/-- Attributes at the head of a body, and then elements to its end. -/
structure Elements {α : Type} (g : Grammar) (step : Cursor → α → Cursor → Prop)
    (before head : Cursor) (values : List α) (after : Cursor) : Prop where
  attributes : ∃ conditions, (innerAttributes g).run before = .ok (conditions, head)
  sequence : Sequence step head values after

theorem run_memberBody {member : Reader (Option (Option FunctionDecl))}
    {functions : List FunctionDecl}
    (done : (memberBody g member).run before = .ok ((functions, conditions), after)) :
    ∃ reader : DeclReader (List FunctionDecl × List Condition),
    ∃ inside start closing first head final members,
      Entered .brace true reader before (functions, conditions) after inside start closing first
        final ∧
      Elements g (Runs (member? member)) first head members final ∧
      functions = members.filterMap Option.join := by
  obtain ⟨inside, start, closing, first, final, entered⟩ := exists_entered done
  obtain ⟨conditions, head, attributes, rest⟩ := run_bind_eq_ok.mp entered.ran
  obtain ⟨members, _, listed, ⟨⟩⟩ := run_bind_eq_ok.mp rest
  exact ⟨_, inside, start, closing, first, head, final, members, entered,
    ⟨⟨conditions, attributes⟩, sequence_of_upTo listed⟩, rfl⟩

theorem run_implItem {found : Option Item}
    (done : (implItem g conditions).run before = .ok (found, after)) :
    ∃ opened functions inner, before.Reaches true opened ∧
      (memberBody g (implMember g)).run opened = .ok ((functions, inner), after) ∧
      ∀ item ∈ found, item.declarations = [] ∨ item.declarations = functions.map .method := by
  obtain ⟨head, bounded, ran, rest⟩ := run_bind_eq_ok.mp done
  obtain ⟨_, opened, ran', rest⟩ := run_bind_eq_ok.mp rest
  obtain ⟨⟨functions, inner⟩, closed, held, rest⟩ := run_bind_eq_ok.mp rest
  have lead := (Reading.orderly _ ran).loud.trans (Reading.orderly _ ran').loud
  obtain ⟨rfl, declared⟩ := (show Stays _ fun found : Option Item =>
      ∀ item ∈ found, item.declarations = [] ∨ item.declarations = functions.map .method from
    .ite (stays_pure (by simp)) (.ite (stays_pure (by simp [Item.declarations]))
      (stays_pure (by simp [Item.declarations])))) _ _ _ rest
  exact ⟨opened, functions, inner, lead, held, declared⟩

/-- An item declares nothing, or it is a struct with the fields in `opened`, or an `impl` block with
methods there. -/
inductive ItemStep (g : Grammar) (before : Cursor) (found : Item) (after : Cursor) : Prop where
  | undeclared (none : found.declarations = [])
  | struct {reader : DeclReader (Option Item)} {lead opened final : Cursor} {decl : TypeDecl}
      {fields : List FieldDecl} (ended : Ended reader before (some found) final after)
      (declares : Declares before decl.pos lead final after) (begins : lead.BeginsWord opened)
      (held : FieldsRun g opened final fields) (form : decl.form = .struct fields)
      (whole : found = .type decl)
  | impl {reader : DeclReader (Option Item)} {opened final : Cursor}
      {functions : List FunctionDecl} {conditions : List Condition}
      (ended : Ended reader before (some found) final after) (lead : before.Reaches true opened)
      (held : (memberBody g (implMember g)).run opened = .ok ((functions, conditions), final))
      (methods : found.declarations = functions.map .method)

theorem run_item (reads : ReadsFields g) {found : Item}
    (done : (item g).run before = .ok (found, after)) : ItemStep g before found after := by
  obtain ⟨answer, _, done, ⟨⟩⟩ := run_bind_eq_ok.mp done
  cases answer with
  | none => exact .undeclared rfl
  | some found =>
    unfold member? at done
    obtain ⟨final, ended⟩ := exists_ended done
    obtain ⟨_, ran, -, same⟩ := run_keepRaw ended.ran
    obtain rfl := same rfl
    obtain ⟨conditions, lead, attributes, rest⟩ := run_bind_eq_ok.mp ran
    rcases readsItem_itemForm reads _ _ _ rest with ⟨none, -⟩ | ran | ran
    · exact .undeclared (none found rfl)
    · obtain ⟨decl, fields, opened, ⟨⟩, here, form, begins, held⟩ := run_structItem ran
      have declares :=
        declares_of_ended ended attributes (begins.trans (Reading.orderly _ held).loud)
      exact .struct ended (here ▸ declares) begins (run_structBody reads held) form rfl
    · obtain ⟨opened, functions, inner, goes, held, declared⟩ := run_implItem ran
      rcases declared found rfl with none | methods
      · exact .undeclared none
      · exact .impl ended ((Reading.orderly _ attributes).loud.trans goes) held methods

/-! ### Ends of elements -/

theorem Concludes.member? {α : Type} {member : DeclReader (Option α)} {answer : Option α → Prop}
    (concludes : member.Concludes answer) : (Grammar.member? member).Concludes answer := by
  intro before after value done
  obtain ⟨final, ended⟩ := exists_ended done
  obtain ⟨whole, ran, same, -⟩ := run_keepRaw ended.ran
  obtain ⟨holds, front, token, ahead, apart⟩ := concludes _ _ _ ran
  exact ⟨holds, front, token, by rw [ended.rest, same, ahead], apart⟩

theorem concludes_item (reads : ReadsFields g) : (item g).Concludes fun _ => True := by
  have form (conditions : List Condition) :
      (itemForm g conditions).Concludes fun _ => True := by
    intro before after found done
    exact ⟨trivial, (readsItem_itemForm reads _ _ _ done).endsApart reads⟩
  exact (Concludes.member? (.behind _ form)).followed fun _ _ => stays_pure trivial

theorem readsFields_upToDepth (depth : Nat) : ReadsFields (upToDepth depth) := by
  intro before after fields done
  cases depth with
  | zero => cases done
  | succ depth => exact ⟨upToDepth depth, done⟩

/-- Attributes at the head of a body end in an exclamation mark and brackets. -/
theorem run_innerAttributes {found : List Condition}
    (done : (innerAttributes g).run before = .ok (found, after)) :
    after = before ∨ ∃ front joint start stop inside opening closing finish,
      before.rest = front ++ .punct '!' joint start stop ::
        .group .bracket inside opening closing finish :: after.rest := by
  obtain ⟨values, _, ran, ⟨⟩⟩ := run_bind_eq_ok.mp done
  have listed := sequence_of_upTo ran
  clear done ran
  induction listed with
  | nil => exact .inl rfl
  | @cons before middle after value rest first more ih =>
    obtain ⟨_, hashed, hash, first⟩ := run_bind_eq_ok.mp first
    obtain ⟨_, banged, bang, first⟩ := run_bind_eq_ok.mp first
    obtain ⟨inside, opening, closing, _, _, entered⟩ := exists_entered first
    obtain ⟨finish, ahead, -⟩ := entered.rest
    obtain ⟨_, _, _, hash⟩ := run_punct_single rfl hash
    obtain ⟨joint, start, stop, bang⟩ := run_punct_single rfl bang
    have own := hash.rest
    rw [bang.rest, ahead] at own
    rcases ih with rfl | ⟨front, joint', start', stop', inside', opening', closing', finish', later⟩
    · exact .inr ⟨[_], joint, start, stop, inside, opening, closing, finish, own⟩
    · rw [later] at own
      exact .inr ⟨_ :: _ :: _ :: front, joint', start', stop', inside', opening', closing', finish',
        own⟩

/-- Attributes at the head of a body come before its elements. -/
theorem Elements.laid {α : Type} {step : Cursor → α → Cursor → Prop} {values : List α} {head : Cursor}
    (elements : Elements g step before head values after)
    (laid : Token.Laid lower before.rest upper) :
    ∃ next, lower ≤ next ∧ Token.Laid next head.rest upper := by
  obtain ⟨conditions, attributes⟩ := elements.attributes
  rcases run_innerAttributes attributes with rfl |
    ⟨front, joint, start, stop, inside, opening, closing, finish, ahead⟩
  · exact ⟨lower, le_refl _, laid⟩
  · rw [List.append_cons] at ahead
    obtain ⟨above, behind⟩ := (Reading.orderly _ attributes).laid_behind ahead rfl laid
    exact ⟨head.last, above, behind⟩

/-- What ends behind a token that is no part of a doc comment. -/
theorem laid_of_concludes {declares : Bool} {α : Type} {reader : Reading declares α} {value : α}
    {answer : α → Prop} (concludes : reader.Concludes answer)
    (done : reader.run before = .ok (value, after)) (laid : Token.Laid lower before.rest upper) :
    lower ≤ after.last ∧ Token.Laid after.last after.rest upper := by
  obtain ⟨-, front, token, ahead, apart⟩ := concludes _ _ _ done
  exact (reader.orderly done).laid_behind ahead (Token.isWhole_of_isApart apart) laid

end Grammar

/-- Where something can be computed from an answer, there is an answer. -/
theorem exists_ok_of_view {ε α β : Type} {result : Except ε α} {view : α → β} {value : β}
    (computed : result.toOption.map view = some value) :
    ∃ answer, result = .ok answer ∧ view answer = value := by
  cases result with
  | error => cases computed
  | ok answer => exact ⟨answer, rfl, Option.some.inj computed⟩

namespace SourceFile

open Grammar Reading

theorem run_complete {declares : Bool} {α : Type} {reader : Reading declares α} {tokens : List Token}
    {scope : Pos} {value : α} {final : Cursor}
    (done : complete reader tokens scope = .ok (value, final)) :
    reader.run { rest := tokens, scope := scope, last := scope } = .ok (value, final) := by
  unfold complete at done
  cases ran : reader.run { rest := tokens, scope := scope, last := scope } with
  | error pos =>
    rw [ran] at done
    cases done
  | ok found =>
    obtain ⟨value', final'⟩ := found
    rw [ran] at done
    simp only [bind, Except.bind] at done
    split at done
    · cases done
    · exact done

/-- A text whose reading can be computed can be read. -/
theorem exists_read {α : Type} {text : String} {view : SourceFile → α} {value : α}
    (computed : (read text).toOption.map view = some value) :
    ∃ file, read text = .ok file ∧ view file = value := exists_ok_of_view computed

/-- How a source file was read. -/
theorem exists_elements_of_read {text : String} {file : SourceFile} (done : read text = .ok file) :
    ∃ tokens head final, Token.lex (body text) = .ok tokens ∧
      Elements (covering tokens) (Runs (covering tokens .item))
        { rest := tokens, scope := .first, last := .first } head file.items final ∧
      file.boundaries = sortPositions final.marks := by
  unfold read at done
  cases lexed : Token.lex (body text) with
  | error pos =>
    rw [lexed] at done
    cases done
  | ok tokens =>
    rw [lexed] at done
    simp only [bind, Except.bind] at done
    split at done
    · cases done
    next found whole =>
      obtain ⟨⟨conditions, items⟩, final⟩ := found
      cases done
      obtain ⟨_, head, attributes, rest⟩ := run_bind_eq_ok.mp (run_complete whole)
      obtain ⟨_, _, listed, ⟨⟩⟩ := run_bind_eq_ok.mp rest
      exact ⟨tokens, head, final, rfl, ⟨⟨_, attributes⟩, sequence_of_upTo listed⟩, rfl⟩

theorem boundaries_sorted {text : String} {file : SourceFile} (done : read text = .ok file) :
    file.boundaries.Pairwise fun p q => p ≤ q := by
  obtain ⟨tokens, head, final, -, -, boundaries⟩ := exists_elements_of_read done
  rw [boundaries]
  exact (sortPositions_sorted _).imp le_of_lt

end SourceFile

end StructInventory
