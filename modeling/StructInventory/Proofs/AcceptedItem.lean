import StructInventory.Proofs.AcceptedType
import StructInventory.Proofs.PackageScope

/-!
Declarations that a text is read as. Types and generic parameters are named by identifiers, so that
none of them is called `Self`, and the types of a signature can be written.
-/

namespace StructInventory

open Reader Reading Grammar

/-- A name under which something can be declared. -/
def Declarable (name : String) : Prop :=
  ∃ word : Word, word.Lexed ∧ word.isIdent = true ∧ name = word.bare

structure SignatureDecl.WellMade (decl : SignatureDecl) : Prop where
  generics : "Self" ∉ decl.generics
  params : ∀ param ∈ decl.params, param.type.WellMade
  output : ∀ result ∈ decl.output, result.1.WellMade

def Grammar.Param.WellMade (param : Param) : Prop := ∀ decl ∈ param.decl?, decl.type.WellMade

structure ImplDecl.WellMade (decl : ImplDecl) : Prop where
  generics : "Self" ∉ decl.generics
  functions : ∀ function ∈ decl.functions, function.signature.WellMade

def Item.WellMade : Item → Prop
  | .type decl => Declarable decl.name
  | .methods decl => decl.WellMade
  | .other => True

theorem Word.Lexed.name_ne_self {word : Word} (lexed : word.Lexed) (raw : word.raw = true) :
    word.name.text ≠ "Self" := by
  intro self
  have refused := lexed.allowed raw
  simp [Word.refusesRaw, self] at refused

/-- What is declared is not called `Self`, which no raw identifier spells either. -/
theorem Declarable.ne_self {name : String} (declarable : Declarable name) : name ≠ "Self" := by
  obtain ⟨⟨raw, ident⟩, lexed, isIdent, rfl⟩ := declarable
  intro self
  replace self : ident.text = "Self" := self
  cases raw with
  | true => exact lexed.name_ne_self rfl self
  | false => simp [Word.isIdent, Word.text, self, reserved] at isIdent

/-! ### Answers of readers -/

namespace Reading.Answers

variable {declares : Bool} {α : Type} {answer : α → Prop}

theorem lift {reader : Reader α} (own : reader.Answers answer) :
    (liftM reader : Reading declares α).Answers answer := own

/-- What is done only under a condition makes no difference. -/
theorem afterIf {condition : Prop} [Decidable condition] {first : Reading declares Unit}
    {next : Unit → Reading declares α} (later : ∀ value, (next value).Answers answer) :
    (if condition then first >>= next else next ()).Answers answer :=
  ite (behind later) (later ())

/-- Two ways that meet again. -/
theorem join {β : Type} {condition : Prop} [Decidable condition] {first second : Reading declares β}
    {next : β → Reading declares α} {given : β → Prop} (one : first.Answers given)
    (other : second.Answers given) (later : ∀ value, given value → (next value).Answers answer) :
    (if condition then first >>= next else second >>= next).Answers answer :=
  ite (one.bind later) (other.bind later)

theorem body {reader : DeclReader α} (own : reader.Answers answer) :
    (Reader.body reader).Answers answer := fun _ _ _ proper ran => own.enter proper ran

theorem member? {reader : DeclReader (Option α)} {answer : Option α → Prop}
    (own : reader.Answers answer) : (Grammar.member? reader).Answers answer := by
  intro before after value proper ran
  obtain ⟨final, ended⟩ := exists_ended ran
  obtain ⟨whole, ran, -⟩ := run_keepRaw ended.ran
  exact own _ _ _ proper ran

/-- A step that keeps what holds of the state. -/
theorem iterate {step : α → Reading declares (Option α)} {start : α} (held : answer start)
    (each : ∀ state, answer state → (step state).Answers fun found => ∀ next ∈ found, answer next) :
    (Reader.iterate step start).Answers answer := by
  suffices ∀ bound state, answer state → (iterateUpTo step bound state).Answers answer from
    behind fun _ => this _ _ held
  intro bound
  -- The induction is on the bound; what holds of the state is kept by each step.
  induction bound with
  | zero => exact fun state held => answers_pure held
  | succ bound ih =>
    intro state held
    refine (each state held).bind fun found holds => ?_
    cases found with
    | none => exact answers_pure held
    | some next => exact ih next (holds next rfl)

end Reading.Answers

theorem answers_failAt {declares : Bool} {α : Type} {answer : α → Prop} {pos : Pos} :
    (failAt pos : Reading declares α).Answers answer := fun _ _ _ _ ran => by cases ran

theorem answers_ident : ident.Answers fun word => word.Lexed ∧ word.isIdent = true := by
  refine answers_look ?_ fun _ _ _ _ ran => by cases ran
  intro before after word proper named ran
  obtain ⟨lexed, start, stop, ahead⟩ := lexed_of_anyWord proper ran
  rw [ahead] at named
  exact ⟨lexed, named⟩

theorem text_ne_self {word : Word} (isIdent : word.isIdent = true) : word.text ≠ "Self" := by
  intro self
  simp [Word.isIdent, self, reserved] at isIdent

/-! ### Generic parameters -/

section

variable {g : Grammar}

theorem answers_typeParam : (typeParam g).Answers fun name => name ≠ "Self" := by
  refine answers_ident.bind fun word lexed => .behind fun _ => .afterIf fun _ => .behind fun _ => ?_
  exact .afterIf fun _ => answers_pure (text_ne_self lexed.2)

theorem answers_constParam : (constParam g).Answers fun name => name ≠ "Self" := by
  refine .behind fun _ => answers_ident.bind fun word lexed => .behind fun _ => .behind fun _ => ?_
  exact .behind fun _ => .afterIf fun _ => answers_pure (text_ne_self lexed.2)

theorem answers_declaredParam :
    (declaredParam g).Answers fun found => ∀ name ∈ found, name ≠ "Self" := by
  have some {reader : Reader String} (own : reader.Answers fun name => name ≠ "Self") :
      (do return some (← reader) : Reader (Option String)).Answers
        fun found => ∀ name ∈ found, name ≠ "Self" :=
    own.bind fun name other => answers_pure (by simpa using other)
  have param : (genericParam g).Answers fun found => ∀ name ∈ found, name ≠ "Self" := by
    refine .behind fun _ => .behind fun _ => .ite (.behind fun _ => answers_pure (by simp)) ?_
    refine .behind fun _ => .ite (some answers_typeParam) ?_
    refine .behind fun _ => .ite (some answers_constParam) fun _ _ _ _ ran => by cases ran
  refine .behind fun _ => answers_look ?_ param
  intro before after found proper blank ran
  obtain ⟨word, middle, ran, ⟨⟩⟩ := run_bind_eq_ok.mp ran
  obtain ⟨lexed, start, stop, ahead⟩ := lexed_of_anyWord proper ran
  -- In the place of a name only an underscore is allowed.
  have text : word.text = "_" := by
    rw [ahead] at blank
    simpa [atWord] using blank
  simp [text]

/-- None of the parameters in a list is called `Self`. -/
def OthersThanSelf (found : List ((Option String × List Token) × Bool)) : Prop :=
  ∀ pair ∈ found, ∀ name ∈ pair.1.1, name ≠ "Self"

theorem answers_generics : (generics g).Answers fun found => "Self" ∉ found.names := by
  have pairs : (terminatedPairs atAngleEnd "," (captured (declaredParam g))).Answers OthersThanSelf :=
    answers_declaredParam.captured.terminatedPairs
  refine .behind fun _ => .ite (answers_pure (by simp)) ?_
  -- What is printed of the list is put in order, but the answer is the list as read.
  refine .bind (.captured (show Answers _ OthersThanSelf from .bind (show Answers _ OthersThanSelf from
    .silent (.behind fun _ => pairs.bind fun found others => ?_)) fun found others => ?_)) ?_
  · exact .behind fun _ => answers_pure others
  · refine .ite (.behind fun _ => .behind fun _ => .behind fun _ => answers_pure others) ?_
    exact answers_pure others
  · refine fun found others => answers_pure fun member => ?_
    obtain ⟨pair, listed, named⟩ := List.mem_filterMap.mp member
    exact others pair listed "Self" named rfl

/-! ### Types -/

theorem answers_typeMember {place : WherePlace} :
    (typeMember g place).Answers fun parts => Declarable parts.name := by
  refine .behind fun _ => answers_ident.bind fun word lexed => .behind fun _ => .behind fun _ => ?_
  refine .afterIf fun _ => .join answers_true answers_true fun _ _ => .behind fun _ => ?_
  refine .join answers_true answers_true fun _ _ => .afterIf fun _ => .behind fun _ => ?_
  exact answers_pure ⟨word, lexed.1, lexed.2, rfl⟩

variable {conditions : List Condition}

theorem answers_typeItem :
    (typeItem g conditions).Answers fun found => ∀ item ∈ found, item.WellMade := by
  refine .behind fun _ => .behind fun _ => .bind answers_typeMember.lift fun parts declarable => ?_
  refine .ite (answers_pure (by simp)) (answers_pure fun item made => ?_)
  obtain ⟨target, -, rfl⟩ := Option.map_eq_some_iff.mp made
  exact declarable

theorem answers_structItem :
    (structItem g conditions).Answers fun found => ∀ item ∈ found, item.WellMade := by
  refine .behind fun _ => .behind fun _ => .behind fun _ => answers_ident.lift.bind fun word lexed => ?_
  refine .behind fun _ => .behind fun _ => answers_pure ?_
  rintro item ⟨⟩
  exact ⟨word, lexed.1, lexed.2, rfl⟩

theorem answers_enumItem :
    (enumItem g conditions).Answers fun found => ∀ item ∈ found, item.WellMade := by
  refine .behind fun _ => .behind fun _ => .behind fun _ => answers_ident.lift.bind fun word lexed => ?_
  refine .behind fun _ => .behind fun _ => .behind fun _ => answers_pure ?_
  rintro item ⟨⟩
  exact ⟨word, lexed.1, lexed.2, rfl⟩

theorem answers_traitItem :
    (traitItem g conditions).Answers fun found => ∀ item ∈ found, item.WellMade := by
  refine .behind fun _ => .behind fun _ => .behind fun _ => .behind fun _ => .behind fun _ => ?_
  refine answers_ident.lift.bind fun word lexed => .behind fun _ => .behind fun _ => .ite ?_ ?_
  · refine .behind fun _ => .behind fun _ => .behind fun _ => .behind fun _ => answers_pure ?_
    simp [Item.WellMade]
  · refine .behind fun _ => .afterIf fun _ => .behind fun _ => .behind fun _ => answers_pure ?_
    rintro item ⟨⟩
    exact ⟨word, lexed.1, lexed.2, rfl⟩

/-! ### Other declarations -/

/-- A declaration of neither a type nor a method, which may be kept as its tokens. -/
theorem answers_other {complete : Prop} [Decidable complete] :
    (pure (if complete then some .other else none) : ItemReader).Answers
      fun found => ∀ item ∈ found, item.WellMade := by
  refine answers_pure fun item made => ?_
  split at made
  · cases made
    trivial
  · cases made

theorem answers_plain {reader : Reader Unit} :
    (plain reader).Answers fun found => ∀ item ∈ found, item.WellMade :=
  .behind fun _ => answers_pure (by simp [Item.WellMade])

theorem answers_functionItem :
    (functionItem g).Answers fun found => ∀ item ∈ found, item.WellMade := by
  refine .behind fun _ => .behind fun _ => .behind fun _ => .ite (answers_pure (by simp)) ?_
  exact .behind fun _ => answers_pure (by simp [Item.WellMade])

theorem answers_useItem : (useItem g).Answers fun found => ∀ item ∈ found, item.WellMade := by
  refine .behind fun _ => .behind fun _ => .behind fun _ => .behind fun rooted => .behind fun _ => ?_
  refine answers_pure fun item made => ?_
  split at made <;> cases made
  trivial

theorem answers_staticItem :
    (staticItem g).Answers fun found => ∀ item ∈ found, item.WellMade := by
  refine .behind fun _ => .behind fun _ => .behind fun _ => .behind fun _ => .behind fun _ => ?_
  refine .ite (.behind fun _ => .behind fun _ => ?_) ?_
  all_goals
    refine .behind fun complete => .ite ?_ (.behind fun _ => answers_other)
    exact .behind fun _ => .behind fun _ => .behind fun _ => answers_other

theorem answers_constItem :
    (constItem g).Answers fun found => ∀ item ∈ found, item.WellMade :=
  .behind fun _ => .behind fun _ => answers_other

end

/-! ### Signatures -/

section

variable {g : Grammar} (types : ∀ plus, (g (.type plus)).Answers fun reading => reading.type.WellMade)

include types

theorem answers_returnType (plus : Bool) :
    (returnType g plus).Answers fun found => ∀ result ∈ found, result.1.WellMade := by
  refine .behind fun _ => .ite (.behind fun _ => ?_) (answers_pure (by simp))
  exact (types plus).bind fun reading wellMade => answers_pure (by simpa using wellMade)

theorem answers_param {first : Bool} : (param g first).Answers Param.WellMade := by
  have typed (name : String) (pos : Pos) :
      (do return .typed ⟨name, (← g.type).type, pos⟩ : Reader Param).Answers Param.WellMade :=
    (types true).bind fun reading wellMade =>
      answers_pure (by simpa [Param.WellMade, Param.decl?] using wellMade)
  have none (found : Param) (none : found.decl? = none) :
      (pure found : Reader Param).Answers Param.WellMade :=
    answers_pure (by simp [Param.WellMade, none])
  refine .behind fun pos => .behind fun _ => .behind fun _ => .ite (none _ rfl) ?_
  refine .behind fun start => .behind fun called => .ite (.ite (none _ rfl) ?_) ?_
  · exact .behind fun _ => answers_failAt
  refine .behind fun _ => .ite (.behind fun _ => typed _ pos) (.behind fun pattern => ?_)
  exact .behind fun _ => .behind fun _ => .ite (none _ rfl) (typed _ pos)

theorem answers_params : (params g).Answers fun found => ∀ param ∈ found, param.WellMade := by
  refine .bind (.group (show Answers _ fun state : List Param × Bool => ∀ param ∈ state.1, param.WellMade
    from .iterate (by simp) ?_) .paren) ?_
  · -- The parameters are collected in front of each other and turned around at the end.
    rintro ⟨found, more⟩ held
    refine .behind fun _ => .ite (answers_pure (by simp)) ((answers_param types).bind fun next wellMade => ?_)
    have added : ∀ param ∈ next :: found, param.WellMade := List.forall_mem_cons.mpr ⟨wellMade, held⟩
    refine .behind fun ended => .ite (.behind fun _ => ?_) ?_
    all_goals exact answers_pure (by simpa using added)
  · exact fun found holds => answers_pure fun param listed => holds param (List.mem_reverse.mp listed)

theorem answers_signature {foreign : Bool} :
    (signature g foreign).Answers fun found => found.2.WellMade := by
  refine .behind fun _ => .behind fun _ => .behind fun _ => answers_generics.bind fun names other => ?_
  refine (answers_params types).bind fun inputs written => ?_
  refine (answers_returnType types true).bind fun output result => .behind fun _ => answers_pure ?_
  refine ⟨other, fun param listed => ?_, result⟩
  obtain ⟨input, given, decl⟩ := List.mem_filterMap.mp listed
  exact written input given param decl

/-! ### Blocks of methods -/

theorem answers_implFunction {conditions : List Condition} : (implFunction g conditions).Answers
    fun found => ∀ function ∈ found, function.signature.WellMade := by
  refine .behind fun _ => .behind fun _ => .behind fun _ => ?_
  refine (answers_signature types).bind fun found wellMade => .behind fun _ => .ite ?_ ?_
  · exact answers_pure (by simp)
  · exact .behind fun _ => answers_pure (by simpa using wellMade)

theorem answers_implMember : (implMember g).Answers
    fun found => ∀ function ∈ found.join, function.signature.WellMade := by
  refine .behind fun _ => .behind fun _ => .ite ?_ (.behind fun _ => .ite ?_ ?_)
  · refine (answers_implFunction types).bind fun found holds => answers_pure ?_
    cases found with
    | none => simp
    | some function => simpa using holds
  · exact .behind fun _ => answers_pure (by simp)
  · refine .behind fun complete => answers_pure ?_
    cases complete <;> simp

theorem answers_implItem {conditions : List Condition} :
    (implItem g conditions).Answers fun found => ∀ item ∈ found, item.WellMade := by
  -- Generic parameters of a block are read like those of any declaration.
  have head : (implHead g).Answers fun head => "Self" ∉ head.generics := by
    refine .behind fun _ => .behind fun _ => .behind fun _ => .behind fun _ => .behind fun _ => ?_
    refine .join answers_generics (answers_pure (by simp)) fun parameters other => .behind fun _ => ?_
    refine .ite (.behind fun _ => .behind fun _ => ?_) ?_
    all_goals
      refine .behind fun _ => .behind fun _ => .afterIf fun _ => .behind fun _ => .behind fun _ => ?_
      exact .ite (.behind fun _ => answers_pure other) (.ite answers_failAt (answers_pure other))
  -- Only functions are kept of the members.
  have members : (memberBody g (implMember g)).Answers
      fun found => ∀ function ∈ found.1, function.signature.WellMade := by
    refine .body (.behind fun _ => (answers_implMember types).lift.member?.upTo.bind fun found holds => ?_)
    refine answers_pure fun function listed => ?_
    obtain ⟨member, given, joined⟩ := List.mem_filterMap.mp listed
    exact holds member given function joined
  refine head.lift.bind fun head other => .behind fun _ => members.lift.bind fun found wellMade => ?_
  refine .ite (answers_pure (by simp)) (.ite (answers_pure (by simp [Item.WellMade])) ?_)
  refine answers_pure ?_
  rintro item ⟨⟩
  exact ⟨other, wellMade⟩

/-! ### All declarations -/

theorem answers_unsafeItem {conditions : List Condition} :
    (unsafeItem g conditions).Answers fun found => ∀ item ∈ found, item.WellMade := by
  refine .behind fun _ => .ite answers_traitItem (.ite (answers_implItem types) ?_)
  exact .ite answers_plain (.ite answers_plain answers_failAt)

theorem answers_itemForm {conditions : List Condition} :
    (itemForm g conditions).Answers fun found => ∀ item ∈ found, item.WellMade := by
  refine .behind fun _ => .ite answers_functionItem (.ite (.behind fun _ => answers_plain) ?_)
  refine .ite answers_useItem (.ite answers_staticItem (.ite answers_constItem ?_))
  refine .ite (answers_unsafeItem types) (.ite answers_plain (.ite answers_typeItem ?_))
  refine .ite answers_structItem (.ite answers_enumItem (.ite answers_plain ?_))
  refine .ite answers_traitItem (.ite (answers_implItem types) (.ite ?_ ?_))
  · exact .behind fun _ => answers_pure (by simp)
  · exact .ite answers_plain answers_failAt

theorem answers_item : (item g).Answers Item.WellMade := by
  refine (Answers.member? (.behind fun _ => answers_itemForm types)).bind fun found wellMade => ?_
  refine answers_pure ?_
  cases found with
  | none => trivial
  | some item => exact wellMade item rfl

end

theorem wellMade_item (depth : Nat) : (upToDepth depth .item).Answers Item.WellMade := by
  -- An item is one level above the types in it, so no induction is needed.
  cases depth with
  | zero => exact fun _ _ _ _ ran => by cases ran
  | succ depth => exact answers_item (wellMade_upToDepth depth)

/-- Whatever a source file declares has names and types that can be written. -/
theorem SourceFile.wellMade_of_read {text : String} {file : SourceFile} (done : read text = .ok file) :
    ∀ item ∈ file.items, item.WellMade := by
  unfold read at done
  cases lexed : Token.lex (body text) with
  | error pos => simp [lexed, bind, Except.bind] at done
  | ok tokens =>
    simp only [lexed, bind, Except.bind] at done
    split at done
    · cases done
    next found whole =>
      cases done
      have items : (Grammar.file (covering tokens)).Answers fun found => ∀ item ∈ found.2, item.WellMade :=
        .behind fun _ => (wellMade_item _).upTo.bind fun _ wellMade => answers_pure wellMade
      exact items _ _ _ (Token.proper_of_lex lexed) (SourceFile.run_complete whole)

theorem SourceFile.declarable_of_read {text : String} {file : SourceFile} (done : read text = .ok file) :
    ∀ decl ∈ file.typeDecls, Declarable decl.name := by
  intro decl member
  obtain ⟨item, listed, found⟩ := List.mem_filterMap.mp member
  have wellMade := wellMade_of_read done item listed
  cases item with
  | type other =>
    cases found
    exact wellMade
  | methods _ | other => cases found

theorem SourceFile.wellMade_block {text : String} {file : SourceFile} (done : read text = .ok file) :
    ∀ block ∈ file.blocks, block.WellMade := by
  intro block member
  obtain ⟨item, listed, found⟩ := List.mem_filterMap.mp member
  have wellMade := wellMade_of_read done item listed
  cases item with
  | methods other =>
    cases found
    exact wellMade
  | type _ | other => cases found

/-- What is in the scope of source files has a name that can be declared. -/
theorem Package.declarable_of_mem {dir : PathText} {files : List ParsedFile} {features : List String}
    (sources : ∀ file ∈ files, SourceFile.read file.text = .ok file.source) {named : NamedType}
    (member : named ∈ (ofFiles dir files features).scope.types) : Declarable named.name := by
  obtain ⟨⟨file, decl⟩, found, rfl⟩ := exists_declaration member
  obtain ⟨inside, declared⟩ := mem_declarations (List.mem_of_find?_eq_some found)
  exact SourceFile.declarable_of_read (sources file inside) decl declared

end StructInventory
