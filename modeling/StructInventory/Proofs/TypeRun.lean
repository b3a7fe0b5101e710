import StructInventory.Proofs.TypeGrammar
import StructInventory.TypeDesc

/-!
Reading types. Tokens that spell a type are read as that type, whatever stands behind them that ends
a type.
-/

namespace StructInventory

open Reader Reading

namespace Grammar

variable {g : Grammar} {more tokens : List Token} {start stop : Pos}

/-! ### What stands behind a type -/

/-- What may stand behind a type: nothing, or a mark that ends it. A `+` ends it where none may join
bounds in it. -/
def Closes (plus : Bool) (more : List Token) : Prop :=
  more = [] ∨ ∃ c joint start stop rest, more = .punct c joint start stop :: rest ∧
    (c = ',' ∨ c = '>' ∨ c = ';' ∨ plus = false ∧ c = '+')

namespace Closes

variable {plus : Bool}

theorem nil : Closes plus [] := .inl rfl

theorem cons {c : Char} {joint : Bool} {rest : List Token} (ends : c = ',' ∨ c = '>' ∨ c = ';') :
    Closes plus (.punct c joint start stop :: rest) := by
  refine .inr ⟨c, joint, start, stop, rest, rfl, ?_⟩
  rcases ends with rfl | rfl | rfl <;> simp

/-- What ends any type ends one that no `+` may extend. -/
theorem tight (closes : Closes plus more) : Closes false more := by
  rcases closes with rfl | ⟨c, joint, start, stop, rest, rfl, ends⟩
  · exact .nil
  · refine .inr ⟨c, joint, start, stop, rest, rfl, ?_⟩
    rcases ends with rfl | rfl | rfl | ⟨_, rfl⟩ <;> simp

theorem atPunct_eq_false (closes : Closes plus more) {marks : String} {c : Char} {cs : List Char}
    (begins : marks.toList = c :: cs) (other : c ∉ [',', '>', ';', '+']) :
    atPunct marks more = false := by
  simp only [List.mem_cons, List.not_mem_nil, or_false, not_or] at other
  rcases closes with rfl | ⟨d, joint, start, stop, rest, rfl, ends⟩
  · rw [atPunct, begins]
    cases cs <;> rfl
  · have apart : (d == c) = false := by
      rw [beq_eq_false_iff_ne]
      rcases ends with rfl | rfl | rfl | ⟨_, rfl⟩
      · exact fun same => other.1 same.symm
      · exact fun same => other.2.1 same.symm
      · exact fun same => other.2.2.1 same.symm
      · exact fun same => other.2.2.2 same.symm
    rw [atPunct, begins]
    cases cs <;> simp [atMarks, apart]

theorem plus_eq_false (closes : Closes plus more) : (plus && atPunct "+" more) = false := by
  rcases closes with rfl | ⟨d, joint, start, stop, rest, rfl, ends⟩
  · cases plus <;> rfl
  · rcases ends with rfl | rfl | rfl | ⟨rfl, rfl⟩
    · cases plus <;> rfl
    · cases plus <;> rfl
    · cases plus <;> rfl
    · rfl

end Closes

/-! ### Types -/

section

variable {plus : Bool} {shown : List Token} {sketch : TypeSketch}

/-- How a type is read that no `for` is in front of. -/
def typeForm (g : Grammar) (plus : Bool) (ahead : List Token) : Reader TypeSketch :=
  if atParen ahead then parenType g plus
  else if atFunctionType ahead then do
    functionType g
    return ⟨.function, .other⟩
  else if atPath ahead then pathType g plus false
  else if atWord "dyn" ahead then dynType g plus
  else if atBracket ahead then bracketType g
  else if atPunct "*" ahead then pointerType g
  else if atPunct "&" ahead then referenceType g
  else if atPunct "!" ahead && !atPunct "=" ahead then do
    punct "!"
    return .plain .never
  else if atWord "impl" ahead then implType g plus
  else if atWord "_" ahead then do
    discard anyWord
    return .shown
  else if atLifetime ahead then do
    let start ← here
    traitBounds g true ⟨false, false⟩ start
    return .shown
  else fail

theorem run_ite {declares : Bool} {α : Type} {condition : Prop} [Decidable condition]
    {yes no : Reading declares α} {cursor : Cursor} :
    (if condition then yes else no).run cursor =
      if condition then yes.run cursor else no.run cursor := by
  split <;> rfl

theorem reads_typeSketch (unbound : atWord "for" (tokens ++ more) = false)
    (reads : (typeForm g plus (tokens ++ more)).Reads tokens more sketch shown) :
    (typeSketch g plus).Reads tokens more sketch shown := by
  intro cursor ahead
  -- With no `for` in front, all tests look at the same tokens.
  have same : (typeSketch g plus).run cursor = (typeForm g plus (tokens ++ more)).run cursor := by
    unfold typeSketch typeForm
    rw [run_look_bind, ahead, unbound]
    simp only [Bool.false_eq_true, if_false, run_look_bind, run_ite, ahead]
  rw [same]
  exact reads cursor ahead

theorem reads_pathType {found : Path} (uncalled : atPunct "!" more = false)
    (unjoined : (plus && atPunct "+" more) = false)
    (plain : atPunct "<" (tokens ++ more) = false)
    (reads : (path g false).Reads tokens more found shown) :
    (pathType g plus false).Reads tokens more (.ofPath found) shown := by
  have unqualified : (qualifiedPath g false).Reads tokens more (some found) shown :=
    reads_look_neg plain (reads.followed reads_pure)
  refine unqualified.followed (reads_look_and_neg ?_ (reads_look ?_))
  · rw [List.nil_append, uncalled, Bool.false_and]
  rw [List.nil_append, unjoined]
  exact reads_pure

theorem reads_type {depth : Nat}
    (reads : (typeSketch (upToDepth depth) plus).Reads tokens more sketch shown) :
    (upToDepth (depth + 1) (.type plus)).Reads tokens more ⟨sketch.build shown, sketch.head⟩ shown :=
  (reads_captured reads).followed reads_pure

end

end Grammar

/-! ### How a type begins -/

namespace Token

theorem count_append (tokens more : List Token) : count (tokens ++ more) = count tokens + count more := by
  induction tokens with
  | nil => simp [count]
  | cons token rest ih => simp [count, ih, Nat.add_assoc]

theorem size_pos (token : Token) : 0 < token.size := by
  cases token <;> simp [size]

/-- A token that a type may begin with. -/
def opensType : Token → Bool
  | .word found _ _ => !(["true", "false", "mut"].contains found.text)
  | .punct c _ _ _ => [':', '&', '*', '!'].contains c
  | .group delimiter _ _ _ _ => delimiter != .brace
  | .lifetime .. | .literal .. => false

theorem Like.opensType {found token : Token} (like : Like found token) :
    found.opensType = token.opensType := by
  cases like <;> rfl

/-- A token that a parameter of a function type may be named by. -/
def namesParam : Token → Bool
  | .word found _ _ => !reserved.contains found.text || found.text == "_" || found.text == "self"
  | .punct .. | .lifetime .. | .literal .. | .group .. => false

theorem Like.namesParam {found token : Token} (like : Like found token) :
    found.namesParam = token.namesParam := by
  cases like <;> rfl

end Token

/-- Tokens that begin as a type does. -/
def OpensType (tokens : List Token) : Prop :=
  ∃ token rest, tokens = token :: rest ∧ token.opensType = true

namespace OpensType

variable {found tokens more : List Token}

theorem like (opens : OpensType tokens) (like : List.Forall₂ Token.Like found tokens) :
    OpensType found := by
  obtain ⟨token, rest, rfl, begins⟩ := opens
  obtain ⟨first, behind, own, _, rfl⟩ := List.forall₂_cons_right_iff.mp like
  exact ⟨first, behind, rfl, own.opensType.trans begins⟩

theorem append (opens : OpensType found) : OpensType (found ++ more) := by
  obtain ⟨token, rest, rfl, begins⟩ := opens
  exact ⟨token, rest ++ more, rfl, begins⟩

theorem count_pos (opens : OpensType found) : 0 < Token.count found := by
  obtain ⟨token, rest, rfl, _⟩ := opens
  have := token.size_pos
  simp only [Token.count]
  omega

theorem not_atEnd (opens : OpensType found) : atEnd (found ++ more) = false := by
  obtain ⟨token, rest, rfl, _⟩ := opens
  rfl

theorem not_atLifetime (opens : OpensType found) : atLifetime (found ++ more) = false := by
  obtain ⟨token, rest, rfl, begins⟩ := opens
  cases token <;> first | rfl | cases begins

theorem not_atBrace (opens : OpensType found) : atBrace (found ++ more) = false := by
  obtain ⟨token, rest, rfl, begins⟩ := opens
  cases token with
  | group delimiter inside start closing stop => cases delimiter <;> first | rfl | cases begins
  | _ => rfl

theorem not_atLiteral (opens : OpensType found) : atLiteral (found ++ more) = false := by
  obtain ⟨token, rest, rfl, begins⟩ := opens
  cases token with
  | word word start stop =>
    simp only [Token.opensType, Bool.not_eq_true', List.contains_eq_mem, List.mem_cons,
      List.not_mem_nil, or_false, decide_eq_false_iff_not, not_or] at begins
    simp [atLiteral, begins]
  | punct c joint start stop =>
    have other : c ≠ '-' := by
      rintro rfl
      simp [Token.opensType] at begins
    simp only [List.cons_append]
    unfold atLiteral
    split <;> simp_all
  | literal => cases begins
  | lifetime | group => rfl

theorem not_atMut (opens : OpensType found) : atWord "mut" (found ++ more) = false := by
  obtain ⟨token, rest, rfl, begins⟩ := opens
  cases token with
  | word word start stop =>
    simp only [Token.opensType, Bool.not_eq_true', List.contains_eq_mem, List.mem_cons,
      List.not_mem_nil, or_false, decide_eq_false_iff_not, not_or] at begins
    simp [atWord, begins]
  | _ => rfl

theorem not_atPunct (opens : OpensType found) {marks : String} {c : Char} {cs : List Char}
    (begins : marks.toList = c :: cs) (other : c ∉ [':', '&', '*', '!']) :
    atPunct marks (found ++ more) = false := by
  obtain ⟨token, rest, rfl, opening⟩ := opens
  rw [atPunct, begins]
  cases token with
  | punct d joint start stop =>
    have apart : d ≠ c := by
      rintro rfl
      exact other (List.contains_iff_mem.mp opening)
    cases cs <;> simp [atMarks, apart]
  | _ => cases cs <;> rfl

end OpensType

/-- Tokens that begin as a type does which introduces no lifetimes. -/
def OpensForm (tokens : List Token) : Prop :=
  ∃ token rest, tokens = token :: rest ∧ token.opensType = true ∧ atWord "for" [token] = false

namespace OpensForm

variable {found tokens more : List Token}

theorem opensType (opens : OpensForm tokens) : OpensType tokens := by
  obtain ⟨token, rest, rfl, begins, _⟩ := opens
  exact ⟨token, rest, rfl, begins⟩

theorem not_atFor (opens : OpensForm tokens) (like : List.Forall₂ Token.Like found tokens) :
    atWord "for" (found ++ more) = false := by
  obtain ⟨token, rest, rfl, _, unbound⟩ := opens
  obtain ⟨first, behind, own, _, rfl⟩ := List.forall₂_cons_right_iff.mp like
  cases own with
  | word => exact unbound
  | _ => rfl

end OpensForm

open Grammar

/-! ### Names of parameters -/

/-- A name and a colon, as they stand before the type of a parameter. -/
def atParamName (ahead : List Token) : Bool :=
  ahead.head?.any Token.namesParam && second (atPunct ":") ahead && !second (atPunct "::") ahead

/-- Tokens of a type, in front of which no name of a parameter is seen. -/
def Unnamed (tokens : List Token) : Prop :=
  ∀ found, List.Forall₂ Token.Like found tokens → ∀ more, Closes true more →
    atParamName (found ++ more) = false

theorem unnamed_of_head {token : Token} {rest : List Token} (other : token.namesParam = false) :
    Unnamed (token :: rest) := by
  intro found like more closes
  obtain ⟨first, behind, own, _, rfl⟩ := List.forall₂_cons_right_iff.mp like
  simp [atParamName, own.namesParam, other]

/-- Behind a word no colon follows, or two do. -/
theorem unnamed_of_behind {token : Token} {rest : List Token}
    (colon : ∀ found, List.Forall₂ Token.Like found rest → ∀ more, Closes true more →
      atPunct ":" (found ++ more) = false ∨ atPunct "::" (found ++ more) = true) :
    Unnamed (token :: rest) := by
  intro found like more closes
  obtain ⟨first, behind, _, others, rfl⟩ := List.forall₂_cons_right_iff.mp like
  rcases colon behind others more closes with none | double
  · simp [atParamName, second, none]
  · simp [atParamName, second, double]

theorem unnamed_single (token : Token) : Unnamed [token] := by
  refine unnamed_of_behind fun found like more closes => .inl ?_
  obtain rfl := List.forall₂_nil_right_iff.mp like
  exact closes.atPunct_eq_false rfl (by decide)

/-! ### Reading -/

/-- The tokens are read as the type, whatever ends it. -/
structure ReadsType (orderly : Bool) (tokens : List Token) (plus : Bool) (type : TypeExpr) : Prop where
  opens : OpensType tokens
  unnamed : Unnamed tokens
  reads : ∀ found, List.Forall₂ Token.Like found tokens → ∀ depth more,
    2 * Token.count found ≤ depth → Closes plus more →
    ∃ reading shown, (upToDepth depth (.type plus)).Reads found more reading shown ∧
      (∀ scope, TypeDesc.ofExpr scope reading.type = TypeDesc.ofExpr scope type) ∧
      (orderly = true → Token.bareAll shown = Token.bareAll tokens)

section

variable {orderly plus : Bool} {tokens : List Token} {type : TypeExpr}

/-- It is enough to read the form that the tokens begin with, one level deeper. -/
theorem ReadsType.of_form (opens : OpensForm tokens) (unnamed : Unnamed tokens)
    (form : ∀ found, List.Forall₂ Token.Like found tokens → ∀ depth more,
      2 * Token.count found ≤ depth + 1 → Closes plus more →
      ∃ sketch shown, (typeForm (upToDepth depth) plus (found ++ more)).Reads found more sketch shown ∧
        (∀ scope, TypeDesc.ofExpr scope (sketch.build shown) = TypeDesc.ofExpr scope type) ∧
        (orderly = true → Token.bareAll shown = Token.bareAll tokens)) :
    ReadsType orderly tokens plus type := by
  refine ⟨opens.opensType, unnamed, fun found like depth more enough closes => ?_⟩
  -- A type takes at least one token, so the bound leaves a level for its form.
  have some := (opens.opensType.like like).count_pos
  obtain ⟨depth, rfl⟩ : ∃ less, depth = less + 1 := ⟨depth - 1, by omega⟩
  obtain ⟨sketch, shown, reads, alike, erased⟩ := form found like depth more enough closes
  exact ⟨_, shown, reads_type (reads_typeSketch (opens.not_atFor like) reads), alike, erased⟩

theorem exists_lifetimeToken_of_like {name : String} {rest found : List Token}
    (like : List.Forall₂ Token.Like found (lifetimeToken name :: rest)) :
    ∃ start stop behind, found = .lifetime name start stop :: behind ∧
      List.Forall₂ Token.Like behind rest := by
  obtain ⟨token, behind, own, others, rfl⟩ := List.forall₂_cons_right_iff.mp like
  cases own with
  | lifetime _ start stop => exact ⟨start, stop, behind, rfl, others⟩

theorem exists_lifetime_of_like {lifetime : Option String} {rest found : List Token}
    (like : List.Forall₂ Token.Like found ((lifetime.map lifetimeToken).toList ++ rest)) :
    ∃ own behind, found = own ++ behind ∧ List.Forall₂ Token.Like behind rest ∧
      Token.bareAll own = Token.bareAll (lifetime.map lifetimeToken).toList ∧
      ∀ more, atLifetime (behind ++ more) = false →
        lifetime?.Reads own (behind ++ more) lifetime own := by
  cases lifetime with
  | none => exact ⟨[], found, rfl, like, rfl, fun more other => reads_lifetime?_none other⟩
  | some name =>
    obtain ⟨start, stop, behind, rfl, others⟩ := exists_lifetimeToken_of_like like
    exact ⟨[.lifetime name start stop], behind, rfl, others, rfl, fun more _ => reads_lifetime? name⟩

theorem exists_optionalWord_of_like {written : Bool} {word : Word} {rest found : List Token}
    (like : List.Forall₂ Token.Like found (optionalWord written word ++ rest)) :
    ∃ own behind, found = own ++ behind ∧ List.Forall₂ Token.Like behind rest ∧
      Token.bareAll own = Token.bareAll (optionalWord written word) ∧
      (∀ more, atLifetime (behind ++ more) = false → atLifetime (own ++ (behind ++ more)) = false) ∧
      ∀ more, atWord word.text (behind ++ more) = false →
        (word? word.text).Reads own (behind ++ more) written own := by
  -- Without the word, what follows must not be that word, or it would be taken.
  cases written with
  | false =>
    exact ⟨[], found, rfl, like, rfl, fun more other => other, fun more other => reads_word?_none other⟩
  | true =>
    obtain ⟨start, stop, behind, rfl, others⟩ := exists_named_of_like like
    exact ⟨[.word word start stop], behind, rfl, others, rfl, fun _ _ => rfl,
      fun more _ => reads_word? rfl⟩

theorem ReadsType.reference {lifetime : Option String} {mutable : Bool} {target : TypeExpr}
    (inner : ReadsType orderly tokens false target) :
    ReadsType orderly
      (mark '&' :: ((lifetime.map lifetimeToken).toList ++
        (optionalWord mutable mutWord ++ tokens)))
      plus (.reference lifetime mutable target) := by
  refine .of_form ⟨_, _, rfl, rfl, rfl⟩ (unnamed_of_head rfl) fun found like depth more enough closes => ?_
  obtain ⟨joint, start, stop, _, rfl, like₁⟩ := exists_mark_of_like like
  obtain ⟨own, _, rfl, like₂, bare, readsLifetime⟩ := exists_lifetime_of_like like₁
  obtain ⟨own', behind, rfl, like₃, bare', plain, readsMut⟩ := exists_optionalWord_of_like like₂
  -- A type begins with neither a lifetime nor `mut`, so both end where they should.
  have begins := inner.opens.like like₃
  simp only [Token.count, Token.size, Token.count_append] at enough
  obtain ⟨reading, shown, reads, alike, erased⟩ :=
    inner.reads behind like₃ depth more (by omega) closes.tight
  have readsLifetime := readsLifetime more (by simpa using plain more begins.not_atLifetime)
  have readsMut : (word? "mut").Reads own' (behind ++ more) mutable own' :=
    readsMut more begins.not_atMut
  rw [List.append_assoc] at readsLifetime
  refine ⟨.plain (.reference lifetime mutable reading.type),
    [.punct '&' false start stop] ++ (own ++ (own' ++ shown)), ?_, fun scope => ?_, fun sorted => ?_⟩
  · change (referenceType (upToDepth depth)).Reads _ _ _ _
    refine (reads_punct_single rfl joint).cons (Reads.bind ?_ (Reads.bind readsMut (reads.followed reads_pure)))
    rwa [List.append_assoc]
  · simp only [TypeSketch.plain, TypeDesc.ofExpr, alike]
  · simp [Token.bareAll, Token.bare, bare, bare', erased sorted, mark]

theorem ReadsType.pointer {mutable : Bool} {target : TypeExpr}
    (inner : ReadsType orderly tokens false target) :
    ReadsType orderly (mark '*' :: named (if mutable then mutWord else constWord) :: tokens)
      plus (.pointer mutable target) := by
  refine .of_form ⟨_, _, rfl, rfl, rfl⟩ (unnamed_of_head rfl) fun found like depth more enough closes => ?_
  obtain ⟨joint, start, stop, _, rfl, like₁⟩ := exists_mark_of_like like
  obtain ⟨start', stop', behind, rfl, like₂⟩ := exists_named_of_like like₁
  simp only [Token.count, Token.size] at enough
  obtain ⟨reading, shown, reads, alike, erased⟩ :=
    inner.reads behind like₂ depth more (by omega) closes.tight
  refine ⟨.plain (.pointer mutable reading.type), [.punct '*' false start stop] ++
    ([.word (if mutable then mutWord else constWord) start' stop'] ++ shown),
    ?_, fun scope => ?_, fun sorted => ?_⟩
  · change (pointerType (upToDepth depth)).Reads _ _ _ _
    refine (reads_punct_single rfl joint).cons ?_
    -- Where `mut` is missing, `const` is asked for.
    cases mutable with
    | true => exact (reads_word? rfl).cons (reads.followed reads_pure)
    | false => exact (reads_word?_none rfl).after ((reads_word rfl).cons (reads.followed reads_pure))
  · simp only [TypeSketch.plain, TypeDesc.ofExpr, alike]
  · simp [Token.bareAll, Token.bare, erased sorted, mark, named]

theorem exists_arrow_of_like {rest found : List Token}
    (like : List.Forall₂ Token.Like found (arrow ++ rest)) :
    ∃ start stop joint start' stop' behind,
      found = .punct '-' true start stop :: .punct '>' joint start' stop' :: behind ∧
      List.Forall₂ Token.Like behind rest := by
  obtain ⟨token, behind, own, others, rfl⟩ := List.forall₂_cons_right_iff.mp like
  obtain ⟨joint', start', stop', behind, rfl, last⟩ := exists_mark_of_like others
  -- The dash is joint to the bracket, and likeness keeps that.
  cases own with
  | @punct joint _ spaced _ start stop =>
    obtain rfl : joint = true := spaced rfl
    exact ⟨start, stop, joint', start', stop', behind, rfl, last⟩

theorem exists_group_of_like {delimiter : Delimiter} {inside found : List Token}
    (like : List.Forall₂ Token.Like found [groupToken delimiter inside]) :
    ∃ within start closing stop, found = [.group delimiter within start closing stop] ∧
      List.Forall₂ Token.Like within inside := by
  obtain ⟨token, behind, own, others, rfl⟩ := List.forall₂_cons_right_iff.mp like
  obtain rfl := List.forall₂_nil_right_iff.mp others
  cases own with
  | @group within _ like _ start closing stop => exact ⟨within, start, closing, stop, rfl, like⟩

theorem ReadsType.slice {item : TypeExpr} (inner : ReadsType orderly tokens true item) :
    ReadsType orderly [groupToken .bracket tokens] plus (.slice item) := by
  refine .of_form ⟨_, _, rfl, rfl, rfl⟩ (unnamed_of_head rfl) fun found like depth more enough closes => ?_
  obtain ⟨within, start, closing, stop, rfl, like'⟩ := exists_group_of_like like
  simp only [Token.count, Token.size] at enough
  -- Inside the brackets nothing follows the item.
  obtain ⟨reading, shown, reads, alike, erased⟩ :=
    inner.reads within like' depth [] (by omega) .nil
  refine ⟨.plain (.slice reading.type), [.group .bracket shown start closing stop], ?_,
    fun scope => ?_, fun sorted => ?_⟩
  · refine reads_group ?_ .bracket start closing stop
    exact reads.followed ((reads_punct?_none rfl).after reads_pure)
  · simp only [TypeSketch.plain, TypeDesc.ofExpr, alike]
  · simp [Token.bareAll, Token.bare, erased sorted, groupToken]

theorem ReadsType.unit : ReadsType orderly [groupToken .paren []] plus (.tuple []) := by
  refine .of_form ⟨_, _, rfl, rfl, rfl⟩ (unnamed_of_head rfl) fun found like depth more enough closes => ?_
  obtain ⟨within, start, closing, stop, rfl, like'⟩ := exists_group_of_like like
  obtain rfl := List.forall₂_nil_right_iff.mp like'
  refine ⟨.plain (.tuple []), [.group .paren [] start closing stop], ?_, fun _ => rfl, fun _ => rfl⟩
  change (parenType (upToDepth depth) plus).Reads _ _ _ _
  have inside : (parenInside (upToDepth depth)).Reads [] [] .empty [] := reads_look_pos rfl reads_pure
  exact (reads_group inside .paren start closing stop).followed reads_pure

theorem ReadsType.never : ReadsType orderly [mark '!'] plus .never := by
  refine .of_form ⟨_, _, rfl, rfl, rfl⟩ (unnamed_of_head rfl) fun found like depth more enough closes => ?_
  obtain ⟨joint, start, stop, _, rfl, none⟩ := exists_mark_of_like like
  obtain rfl := List.forall₂_nil_right_iff.mp none
  refine ⟨.plain .never, [.punct '!' false start stop], ?_, fun _ => rfl, fun _ => rfl⟩
  exact (reads_punct_single rfl joint).followed reads_pure

theorem ReadsType.inferred :
    ReadsType orderly [named .underscore] plus (.other [named .underscore]) := by
  refine .of_form ⟨_, _, rfl, rfl, rfl⟩ (unnamed_single _) fun found like depth more enough closes => ?_
  obtain ⟨start, stop, _, rfl, none⟩ := exists_named_of_like like
  obtain rfl := List.forall₂_nil_right_iff.mp none
  refine ⟨.shown, [.word .underscore start stop], ?_, fun _ => rfl, fun _ => rfl⟩
  exact (reads_anyWord _).discard.followed reads_pure

/-- What is read first inside parentheses. -/
theorem reads_parenInside {g : Grammar} {found shown : List Token} {inside : ParenInside}
    (begins : OpensType found)
    (reads : (do
        let first ← g.type
        if ← look (atPunct ",") then
          punct ","
          let rest ← commaList g.type
          return .many (first.type :: rest.map TypeReading.type)
        return .single first : Reader ParenInside).Reads found [] inside shown) :
    (parenInside g).Reads found [] inside shown :=
  reads_look_neg begins.not_atEnd (reads_look_neg begins.not_atLifetime
    (reads_look_neg (begins.not_atPunct rfl (by decide)) reads))

theorem ReadsType.paren {type : TypeExpr} (inner : ReadsType orderly tokens true type) :
    ReadsType orderly [groupToken .paren tokens] plus (.paren type) := by
  refine .of_form ⟨_, _, rfl, rfl, rfl⟩ (unnamed_of_head rfl) fun found like depth more enough closes => ?_
  obtain ⟨within, start, closing, stop, rfl, like'⟩ := exists_group_of_like like
  simp only [Token.count, Token.size] at enough
  obtain ⟨reading, shown, reads, alike, erased⟩ :=
    inner.reads within like' depth [] (by omega) .nil
  refine ⟨.plain (.paren reading.type), [.group .paren shown start closing stop], ?_,
    fun scope => ?_, fun sorted => ?_⟩
  · change (parenType (upToDepth depth) plus).Reads _ _ _ _
    have inside : (parenInside (upToDepth depth)).Reads within [] (.single reading) shown :=
      reads_parenInside (inner.opens.like like') (reads.followed (reads_look_neg rfl reads_pure))
    refine (reads_group inside .paren start closing stop).followed (reads_look ?_)
    -- No plus follows, so the parentheses do not enclose the first of several bounds.
    rw [List.nil_append, Bool.and_assoc, closes.plus_eq_false, Bool.and_false]
    exact reads_pure
  · simp only [TypeSketch.plain, TypeDesc.ofExpr, alike]
  · simp [Token.bareAll, Token.bare, erased sorted, groupToken]

/-! ### Lists of types -/

/-- The tokens fill a group and are read as the types. -/
inductive ReadsTypes (orderly : Bool) : List Token → List TypeExpr → Prop where
  | nil : ReadsTypes orderly [] []
  | single {tokens : List Token} {type : TypeExpr} (inner : ReadsType orderly tokens true type) :
      ReadsTypes orderly tokens [type]
  | cons {tokens rest : List Token} {type : TypeExpr} {types : List TypeExpr}
      (inner : ReadsType orderly tokens true type) (others : ReadsTypes orderly rest types) :
      ReadsTypes orderly (tokens ++ mark ',' :: rest) (type :: types)

/-- The list as its reader answers it. -/
theorem ReadsTypes.commaList {types : List TypeExpr} (reads : ReadsTypes orderly tokens types)
    {found : List Token} (like : List.Forall₂ Token.Like found tokens) {depth : Nat}
    (enough : 2 * Token.count found ≤ depth) :
    ∃ readings shown, (Reader.commaList (upToDepth depth).type).Reads found [] readings shown ∧
      (∀ scope, TypeDesc.ofExprs scope (readings.map TypeReading.type) =
        TypeDesc.ofExprs scope types) ∧
      (orderly = true → Token.bareAll shown = Token.bareAll tokens) := by
  -- The induction goes over the turns of the reader, each of which answers a pair.
  suffices steps : ∃ pairs shown,
      ReadsSteps (terminatedStep atEnd "," (upToDepth depth (.type true))) found [] pairs shown ∧
      (∀ scope, TypeDesc.ofExprs scope (pairs.map fun pair => pair.1.type) =
        TypeDesc.ofExprs scope types) ∧
      (orderly = true → Token.bareAll shown = Token.bareAll tokens) by
    obtain ⟨pairs, shown, steps, alike, erased⟩ := steps
    refine ⟨pairs.map Prod.fst, shown, steps.collect.map _, fun scope => ?_, erased⟩
    rw [List.map_map]
    exact alike scope
  induction reads generalizing found with
  | nil =>
    obtain rfl := List.forall₂_nil_right_iff.mp like
    exact ⟨[], [], readsSteps_none (reads_terminatedStep_none rfl), fun _ => rfl, fun _ => rfl⟩
  | single inner =>
    obtain ⟨reading, shown, reads, alike, erased⟩ := inner.reads found like depth [] enough .nil
    refine ⟨[(reading, false)], shown, readsSteps_last ?_, fun scope => ?_, erased⟩
    · exact reads_terminatedStep_last (inner.opens.like like).not_atEnd reads rfl
    · simp only [List.map_cons, List.map_nil, TypeDesc.ofExprs, alike]
  | cons inner _ ih =>
    obtain ⟨first, _, rfl, like₁, like₂⟩ := exists_append_of_like like
    obtain ⟨joint, start, stop, behind, rfl, like₃⟩ := exists_mark_of_like like₂
    simp only [Token.count_append, Token.count, Token.size] at enough
    -- The comma closes the type before it, and the others are read as by themselves.
    obtain ⟨reading, shown, reads, alike, erased⟩ := inner.reads first like₁ depth
      (.punct ',' joint start stop :: behind) (by omega) (.cons (by simp))
    obtain ⟨pairs, shown', steps, alikes, erased'⟩ := ih like₃ (by omega)
    refine ⟨(reading, true) :: pairs, shown ++ [.punct ',' false start stop] ++ shown', ?_,
      fun scope => ?_, fun sorted => ?_⟩
    · have own : (terminatedStep atEnd "," (upToDepth depth (.type true))).Reads
          (first ++ [.punct ',' joint start stop]) (behind ++ []) (some (reading, true))
          (shown ++ [.punct ',' false start stop]) := by
        rw [List.append_nil]
        exact reads_terminatedStep_mark rfl (inner.opens.like like₁).not_atEnd reads rfl
      have both := readsSteps_cons (by simp) own steps
      simpa using both
    · simp only [List.map_cons, TypeDesc.ofExprs, alike, alikes]
    · simp [Token.bareAll, Token.bare, erased sorted, erased' sorted, mark]

theorem ReadsType.tuple {types : List TypeExpr} {rest : List Token}
    (inner : ReadsType orderly tokens true type) (others : ReadsTypes orderly rest types) :
    ReadsType orderly [groupToken .paren (tokens ++ mark ',' :: rest)] plus
      (.tuple (type :: types)) := by
  refine .of_form ⟨_, _, rfl, rfl, rfl⟩ (unnamed_of_head rfl) fun found like depth more enough closes => ?_
  obtain ⟨within, start, closing, stop, rfl, like'⟩ := exists_group_of_like like
  obtain ⟨first, _, rfl, like₁, like₂⟩ := exists_append_of_like like'
  obtain ⟨joint, start', stop', behind, rfl, like₃⟩ := exists_mark_of_like like₂
  simp only [Token.count_append, Token.count, Token.size] at enough
  obtain ⟨reading, shown, reads, alike, erased⟩ := inner.reads first like₁ depth
    (.punct ',' joint start' stop' :: behind) (by omega) (.cons (by simp))
  obtain ⟨readings, shown', list, alikes, erased'⟩ := others.commaList like₃ (by omega : _ ≤ depth)
  refine ⟨.plain (.tuple (reading.type :: readings.map TypeReading.type)),
    [.group .paren (shown ++ ([.punct ',' false start' stop'] ++ shown')) start closing stop], ?_,
    fun scope => ?_, fun sorted => ?_⟩
  · change (parenType (upToDepth depth) plus).Reads _ _ _ _
    have inside : (parenInside (upToDepth depth)).Reads
        (first ++ .punct ',' joint start' stop' :: behind) []
        (.many (reading.type :: readings.map TypeReading.type))
        (shown ++ ([.punct ',' false start' stop'] ++ shown')) := by
      refine reads_parenInside (inner.opens.like like₁).append ?_
      refine Reads.bind (by rwa [List.append_nil]) (reads_look_pos rfl ?_)
      exact (reads_punct_single rfl joint).cons (list.followed reads_pure)
    exact (reads_group inside .paren start closing stop).followed reads_pure
  · simp only [TypeSketch.plain, TypeDesc.ofExpr, TypeDesc.ofExprs, alike, alikes]
  · simp [Token.bareAll, Token.bare, erased sorted, erased' sorted, groupToken, mark]

/-! ### Lengths of arrays -/

theorem Word.atWord_eq_false {word : Word} (ident : word.isIdent = true) {name : String}
    (listed : name ∈ reserved) {start stop : Pos} {more : List Token} :
    atWord name (.word word start stop :: more) = false := by
  rw [atWord, beq_eq_false_iff_ne]
  rintro rfl
  simp [Word.isIdent, listed] at ident

theorem Word.atLiteral_eq_false {word : Word} (ident : word.isIdent = true) {start stop : Pos}
    {more : List Token} : atLiteral (.word word start stop :: more) = false := by
  have yes : atWord "true" (.word word start stop :: more) = false :=
    Word.atWord_eq_false ident (by decide)
  have no : atWord "false" (.word word start stop :: more) = false :=
    Word.atWord_eq_false ident (by decide)
  simp only [atWord] at yes no
  simp [atLiteral, yes, no]

section

variable {g : Grammar}

theorem reads_outerAttributes {more : List Token} (plain : atPunct "#" more = false) :
    (outerAttributes g).Reads [] more [] [] := by
  have none : (upTo (!atPunct "#" ·) (do punct "#"; brackets (attributeBody g))).Reads [] more [] [] :=
    (readsUpTo_nil (by simp [plain])).upTo
  exact none.followed reads_pure

/-- An atom at the end of a group, without signs in front. -/
theorem reads_unaryExpr {found shown : List Token} {form : ExprForm}
    (plain : atPunct "#" found = false) (reference : atPunct "&" found = false)
    (signs : (atPunct "*" found || atPunct "!" found || atPunct "-" found) = false)
    (reads : (atom g true).Reads found [] form shown) (closed : form ≠ .range) :
    (unaryExpr g true).Reads found [] form shown := by
  -- Nothing follows, so no field, call or index is added to the atom.
  have trailed : (trailers g form).Reads [] [] form [] :=
    (readsIterate_last (reads_look_neg rfl (reads_look_and_neg rfl
      (reads_look_neg rfl (reads_look_and_neg rfl reads_pure))))).iterate
  refine reads_cursor_bind fun standing ahead => ?_
  refine Reads.after (by simpa using (reads_outerAttributes plain).discard) ?_
  refine reads_cursor_bind fun standing' ahead' => ?_
  refine reads_look_neg (by simpa using reference) (reads_look_neg (by simpa using signs) ?_)
  refine reads_here_bind fun pos => ?_
  refine Reads.followed reads (trailed.after ?_)
  rw [if_neg (by simp [closed])]
  exact reads_pure

/-- What no operator follows is a whole expression. -/
theorem reads_expr {found shown : List Token} {form : ExprForm} {depth : Nat}
    (reads : (unaryExpr (upToDepth depth) true).Reads found [] form shown) :
    (upToDepth (depth + 2) (.expr true)).Reads found [] form shown := by
  -- Nothing follows, so there is no operator to go on with.
  have ended : (operators (upToDepth depth) form true .loosest).Reads [] [] form [] := by
    refine (readsIterate_last ?_).iterate
    unfold operatorStep
    split
    · exact reads_pure
    · refine reads_cursor_bind fun standing ahead => ?_
      rw [show standing.rest = [] from ahead]
      exact reads_look_and_neg rfl (reads_look_and_neg rfl (reads_look_neg rfl reads_pure))
  exact Reads.followed reads ended

theorem reads_atom_literal {text : String} {start stop : Pos} :
    (atom g true).Reads [.literal text start stop] [] (.literal text) [.literal text start stop] :=
  reads_look_pos rfl ((reads_literal text).followed reads_pure)

theorem reads_atom_word {word : Word} (ident : word.isIdent = true) {start stop : Pos} :
    (atom g true).Reads [.word word start stop] [] .other [.word word start stop] := by
  have unlike {name : String} (listed : name ∈ reserved) :
      atWord name [.word word start stop] = false := Word.atWord_eq_false ident listed
  have path : (Grammar.path g true).Reads [.word word start stop] [] ⟨false, [⟨word.text, none⟩]⟩
      [.word word start stop] := by
    have segment : (segment g true).Reads [.word word start stop] [] ⟨word.text, none⟩
        [.word word start stop] := reads_segment (by simp [Word.isSegment, ident]) rfl
    have ended : (moreSegments g true).Reads [] [] [] [] := (readsUpTo_nil rfl).upTo
    exact (reads_punct?_none rfl).after (segment.followed (ended.followed reads_pure))
  have qualified : (qualifiedPath g true).Reads [.word word start stop] []
      (some ⟨false, [⟨word.text, none⟩]⟩) [.word word start stop] :=
    reads_look_neg rfl (path.followed reads_pure)
  -- Every other form of atom begins with a reserved word or a mark.
  refine reads_look_neg (Word.atLiteral_eq_false ident) (reads_look_neg ?_ (reads_look_neg ?_ (reads_look_neg ?_
    (reads_look_neg ?_ (reads_look_pos ?_ ?_)))))
  · simp [unlike (by decide : "async" ∈ reserved)]
  · simp [unlike (by decide : "try" ∈ reserved)]
  · simp [atClosure, atBinder, unlike (by decide : "move" ∈ reserved),
      unlike (by decide : "for" ∈ reserved), unlike (by decide : "const" ∈ reserved),
      unlike (by decide : "static" ∈ reserved), unlike (by decide : "async" ∈ reserved)]
    rfl
  · simp [second]
    exact fun _ => rfl
  · simp [atPathExpr, atPath, atPathWord_cons, Word.beginsPath, ident]
  · exact qualified.followed (reads_look_and_neg rfl (reads_look_and_neg rfl reads_pure))

theorem reads_length {length found : Token} (isLength : IsLength length) (like : found.Like length)
    (depth : Nat) :
    ∃ form, (upToDepth (depth + 2) (.expr true)).Reads [found] [] form [found] ∧
      found.bare = length.bare := by
  cases isLength with
  | @count text count =>
    cases like with
    | literal _ start stop =>
      exact ⟨_, reads_expr (reads_unaryExpr rfl rfl rfl reads_atom_literal (by simp)), rfl⟩
  | @name word lexed ident =>
    cases like with
    | word _ start stop =>
      exact ⟨_, reads_expr (reads_unaryExpr rfl rfl rfl (reads_atom_word ident) (by simp)), rfl⟩

end

theorem ReadsType.array {item : TypeExpr} {length : Token} (inner : ReadsType orderly tokens true item)
    (isLength : IsLength length) :
    ReadsType orderly [groupToken .bracket (tokens ++ [mark ';', length])] plus
      (.array item [length]) := by
  refine .of_form ⟨_, _, rfl, rfl, rfl⟩ (unnamed_of_head rfl) fun found like depth more enough closes => ?_
  obtain ⟨within, start, closing, stop, rfl, like'⟩ := exists_group_of_like like
  obtain ⟨first, _, rfl, like₁, like₂⟩ := exists_append_of_like like'
  obtain ⟨joint, start', stop', _, rfl, like₃⟩ := exists_mark_of_like like₂
  obtain ⟨measured, _, own, none, rfl⟩ := List.forall₂_cons_right_iff.mp like₃
  obtain rfl := List.forall₂_nil_right_iff.mp none
  have solid := measured.size_pos
  simp only [Token.count_append, Token.count, Token.size] at enough
  obtain ⟨reading, shown, reads, alike, erased⟩ := inner.reads first like₁ depth
    [.punct ';' joint start' stop', measured] (by omega) (.cons (by simp))
  -- The length is read two levels deeper; the brackets and the semicolon pay for that.
  obtain ⟨depth, rfl⟩ : ∃ less, depth = less + 2 := ⟨depth - 2, by omega⟩
  obtain ⟨form, expr, bare⟩ := reads_length isLength own depth
  refine ⟨.plain (.array reading.type [measured]),
    [.group .bracket (shown ++ ([.punct ';' false start' stop'] ++ [measured])) start closing stop], ?_,
    fun scope => ?_, fun sorted => ?_⟩
  · refine reads_group ?_ .bracket start closing stop
    refine Reads.bind (by rwa [List.append_nil]) ((reads_punct?_single rfl joint).cons ?_)
    exact (reads_captured expr).followed reads_pure
  · have same : Token.print [measured] = Token.print [length] :=
      Token.print_congr (by simp [Token.bareAll, bare])
    simp only [TypeSketch.plain, TypeDesc.ofExpr, alike, same]
  · simp [Token.bareAll, Token.bare, erased sorted, groupToken, mark, bare]

/-! ### Names -/

theorem Word.atWord_eq_false_of_beginsPath {word : Word} (begins : word.beginsPath = true)
    {name : String} (listed : name ∈ reserved) (other : name ∉ pathWords) {start stop : Pos}
    {more : List Token} : atWord name (.word word start stop :: more) = false := by
  rw [atWord, beq_eq_false_iff_ne]
  rintro rfl
  simp [Word.beginsPath, Word.isIdent, listed, other] at begins

theorem typeForm_word {g : Grammar} {word : Word} (begins : word.beginsPath = true) {start stop : Pos}
    {more : List Token} :
    typeForm g plus (.word word start stop :: more) = pathType g plus false := by
  have unlike {name : String} (listed : name ∈ reserved) (other : name ∉ pathWords) :
      atWord name (.word word start stop :: more) = false :=
    Word.atWord_eq_false_of_beginsPath begins listed other
  have paren : atParen (.word word start stop :: more) = false := rfl
  simp [typeForm, paren, atFunctionType, atPath, atPathWord_cons, begins,
    unlike (by decide : "fn" ∈ reserved) (by decide),
    unlike (by decide : "unsafe" ∈ reserved) (by decide),
    unlike (by decide : "extern" ∈ reserved) (by decide)]

/-- A name by itself, whatever follows it that is no part of a path. -/
theorem reads_loneName {word : Word} (ident : word.isIdent = true) {more : List Token}
    (arguments : atPunct "<" more = false) (segments : atPunct "::" more = false)
    (uncalled : atPunct "!" more = false) (unjoined : (plus && atPunct "+" more) = false)
    {start stop : Pos} (depth : Nat) :
    (upToDepth (depth + 1) (.type plus)).Reads [.word word start stop] more
      ⟨.named [word.text] [] [.word word start stop], .loneName⟩ [.word word start stop] := by
  have segment : (segment (upToDepth depth) false).Reads [.word word start stop] more
      ⟨word.text, none⟩ [.word word start stop] :=
    reads_segment (by simp [Word.isSegment, ident]) (by simp [atArguments, arguments, segments])
  have ended : (moreSegments (upToDepth depth) false).Reads [] more [] [] :=
    (readsUpTo_nil (by simp [segments])).upTo
  have path : (Grammar.path (upToDepth depth) false).Reads [.word word start stop] more
      ⟨false, [⟨word.text, none⟩]⟩ [.word word start stop] :=
    (reads_punct?_none rfl).after (segment.followed (ended.followed reads_pure))
  have form := reads_pathType uncalled unjoined rfl path
  have begins : word.beginsPath = true := by simp [Word.beginsPath, ident]
  rw [← typeForm_word begins] at form
  exact reads_type (reads_typeSketch (Word.atWord_eq_false ident (by decide)) form)

end

end StructInventory
