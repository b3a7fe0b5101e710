import StructInventory.Proofs.TypeRun

/-!
Reading function types: their parameters, what they return, and the lifetimes that they introduce.
-/

namespace StructInventory

open Reader Reading Grammar

section

variable {orderly plus : Bool} {tokens : List Token} {type : TypeExpr}

/-! ### Parameters -/

theorem any_namesParam (ahead : List Token) :
    ahead.head?.any Token.namesParam = (atIdent ahead || atWord "_" ahead || atWord "self" ahead) := by
  rcases ahead with _ | ⟨token, rest⟩
  · rfl
  · cases token <;> rfl

/-- Where two colons follow a token, no dots follow the first of them. -/
theorem third_eq_false {ahead : List Token} (double : second (atPunct "::") ahead = true) :
    third (atPunct "...") ahead = false := by
  rcases ahead with _ | ⟨_, _ | ⟨colon, _ | ⟨next, rest⟩⟩⟩
  · rfl
  · rfl
  · rfl
  have marks : atMarks [':', ':'] (colon :: next :: rest) = true := double
  cases next with
  | punct c joint start stop =>
    have same : c = ':' := by
      cases colon <;> simp [atMarks] at marks
      exact marks.2
    subst same
    rfl
  | _ => rfl

section

variable {g : Grammar} {found more shown : List Token}

theorem atVariadic_eq_false (opens : OpensType found) (unnamed : atParamName (found ++ more) = false) :
    atVariadic (found ++ more) = false := by
  rw [atVariadic, opens.not_atPunct rfl (by decide), Bool.false_or, Bool.eq_false_iff]
  intro variadic
  rw [atParamName, any_namesParam, Bool.eq_false_iff] at unnamed
  simp only [ne_eq, Bool.and_eq_true, Bool.or_eq_true] at variadic unnamed
  obtain ⟨⟨named, colon⟩, dots⟩ := variadic
  -- A name and a single colon would be the name of a parameter.
  have double : second (atPunct "::") (found ++ more) = true := by
    by_contra single
    exact unnamed ⟨⟨.inl named, colon⟩, by simpa using single⟩
  rw [third_eq_false double] at dots
  cases dots

/-- A parameter that is a type and nothing else. -/
theorem reads_functionTypeParam {reading : TypeReading} (first : Bool) (opens : OpensType found)
    (unnamed : atParamName (found ++ more) = false) (reads : g.type.Reads found more reading shown) :
    (functionTypeParam g first).Reads found more false shown := by
  have mutSelf : (first && atWord "mut" (found ++ more) && second (atWord "self") (found ++ more)) =
      false := by simp [opens.not_atMut]
  -- Neither a name nor a receiver stands before the type.
  have unseen : ((atIdent (found ++ more) || atWord "_" (found ++ more) ||
      (first && atWord "self" (found ++ more))) && second (atPunct ":") (found ++ more) &&
        !second (atPunct "::") (found ++ more)) = false := by
    rw [atParamName, any_namesParam, Bool.eq_false_iff] at unnamed
    rw [Bool.eq_false_iff]
    intro named
    simp only [ne_eq, Bool.and_eq_true, Bool.or_eq_true] at named unnamed
    exact unnamed ⟨⟨named.1.1.imp id And.right, named.1.2⟩, named.2⟩
  unfold functionTypeParam
  refine reads_look ?_
  dsimp only
  rw [mutSelf, if_neg Bool.false_ne_true]
  refine reads_look (reads_look ?_)
  rw [unseen, if_neg Bool.false_ne_true]
  refine reads_look ?_
  rw [mutSelf]
  exact reads.discard.followed reads_pure

/-- One turn of the reader of parameters. -/
def paramStep (g : Grammar) (first : Bool) : Reader (Option Bool) := do
  if ← look atEnd then return none
  discard (outerAttributes g)
  if ← look atVariadic then
    if !(← look (atPunct "...")) then
      discard anyWord
      punct ":"
    punct "..."
    discard (punct? ",")
    return none
  discard (keepRaw id (functionTypeParam g first))
  if ← look atEnd then return none
  punct ","
  return some false

/-- A parameter, and what the turn does behind it. -/
theorem reads_paramStep {reading : TypeReading} {rest after : List Token} {answer : Option Bool} (first : Bool)
    (opens : OpensType found) (unnamed : atParamName (found ++ (rest ++ more)) = false)
    (reads : g.type.Reads found (rest ++ more) reading shown)
    (later : (do
      if ← look atEnd then return none
      punct ","
      return some false : Reader (Option Bool)).Reads rest more answer after) :
    (paramStep g first).Reads (found ++ rest) more answer (shown ++ after) := by
  have begins : OpensType (found ++ rest) := opens.append
  refine reads_look_neg begins.not_atEnd ?_
  refine (reads_outerAttributes (begins.not_atPunct rfl (by decide))).discard.after ?_
  refine reads_look_neg (by simpa using atVariadic_eq_false opens unnamed) ?_
  exact (reads_keepRaw (reads_functionTypeParam first opens unnamed reads) rfl).discard.bind later

end

/-- The parameters as their reader passes over them. -/
theorem ReadsTypes.functionTypeParams {types : List TypeExpr} (reads : ReadsTypes orderly tokens types)
    {found : List Token} (like : List.Forall₂ Token.Like found tokens) {depth : Nat}
    (enough : 2 * Token.count found ≤ depth) :
    ∃ shown, (Grammar.functionTypeParams (upToDepth depth)).Reads found [] () shown ∧
      (orderly = true → Token.bareAll shown = Token.bareAll tokens) := by
  -- Only the first turn may meet a receiver, so the turns are followed from either state.
  suffices steps : ∀ first, ∃ final shown,
      ReadsIterate (paramStep (upToDepth depth)) first found [] final shown ∧
      (orderly = true → Token.bareAll shown = Token.bareAll tokens) by
    obtain ⟨final, shown, steps, erased⟩ := steps true
    exact ⟨shown, steps.iterate.followed reads_pure, erased⟩
  induction reads generalizing found with
  | nil =>
    intro first
    obtain rfl := List.forall₂_nil_right_iff.mp like
    exact ⟨first, [], readsIterate_last (reads_look_pos rfl reads_pure), fun _ => rfl⟩
  | single inner =>
    intro first
    obtain ⟨reading, shown, reads, -, erased⟩ := inner.reads found like depth [] enough .nil
    have ended : (do
        if ← look atEnd then return none
        punct ","
        return some false : Reader (Option Bool)).Reads [] [] none [] := reads_look_pos rfl reads_pure
    have own : (paramStep (upToDepth depth) first).Reads (found ++ []) [] none (shown ++ []) :=
      reads_paramStep first (inner.opens.like like) (inner.unnamed found like [] .nil) reads ended
    simp only [List.append_nil] at own
    exact ⟨first, shown, readsIterate_last own, erased⟩
  | cons inner _ ih =>
    intro first
    obtain ⟨front, _, rfl, like₁, like₂⟩ := exists_append_of_like like
    obtain ⟨joint, start, stop, behind, rfl, like₃⟩ := exists_mark_of_like like₂
    simp only [Token.count_append, Token.count, Token.size] at enough
    have closes : Closes true (.punct ',' joint start stop :: behind) := .cons (by simp)
    obtain ⟨reading, shown, reads, -, erased⟩ := inner.reads front like₁ depth _ (by omega) closes
    obtain ⟨final, shown', steps, erased'⟩ := ih like₃ (by omega) false
    -- Behind a comma the turns go on as behind the first parameter.
    have comma : (do
        if ← look atEnd then return none
        punct ","
        return some false : Reader (Option Bool)).Reads [.punct ',' joint start stop] behind (some false)
          [.punct ',' false start stop] :=
      reads_look_neg rfl ((reads_punct_single rfl joint).followed reads_pure)
    have own : (paramStep (upToDepth depth) first).Reads (front ++ [.punct ',' joint start stop])
        (behind ++ []) (some false) (shown ++ [.punct ',' false start stop]) := by
      rw [List.append_nil]
      exact reads_paramStep first (inner.opens.like like₁) (inner.unnamed front like₁ _ closes) reads comma
    have both := readsIterate_cons (by simp) own steps
    refine ⟨final, _, by simpa using both, fun sorted => ?_⟩
    simp [Token.bareAll, Token.bare, erased sorted, erased' sorted, mark]

/-! ### Calls -/

theorem reads_here {token : Token} {more : List Token} :
    (here : Reader Pos).Reads [] (token :: more) token.start [] := by
  intro cursor ahead
  refine ⟨cursor.last, ?_⟩
  have standing : cursor.here = token.start := by
    rw [Cursor.here, ahead]
    rfl
  rw [← show cursor.rest = token :: more from ahead, ← standing]
  rfl

/-- The readers of what stands in parentheses behind a trait and behind `fn`. -/
def paramReaders (g : Grammar) : List (Reader Unit) :=
  [discard (commaList g.type), functionTypeParams g]

theorem ReadsTypes.params {types : List TypeExpr} (reads : ReadsTypes orderly tokens types)
    {found : List Token} (like : List.Forall₂ Token.Like found tokens) {depth : Nat}
    (enough : 2 * Token.count found ≤ depth) {params : Reader Unit}
    (listed : params ∈ paramReaders (upToDepth depth)) :
    ∃ shown, params.Reads found [] () shown ∧
      (orderly = true → Token.bareAll shown = Token.bareAll tokens) := by
  rcases List.mem_pair.mp listed with rfl | rfl
  · obtain ⟨readings, shown, list, -, erased⟩ := reads.commaList like enough
    exact ⟨shown, list.discard, erased⟩
  · exact reads.functionTypeParams like enough

/-- What something is called with, and what it returns. -/
def called (g : Grammar) (params : Reader Unit) : Reader Unit := do
  parens params
  discard (returnType g false)

/-- The tokens are read as the types that something is called with and the type it returns. -/
structure ReadsCall (orderly : Bool) (tokens : List Token) : Prop where
  opens : ∃ inside rest, tokens = groupToken .paren inside :: rest
  reads : ∀ found, List.Forall₂ Token.Like found tokens → ∀ depth more,
    2 * Token.count found ≤ depth → Closes false more → ∀ params ∈ paramReaders (upToDepth depth),
    ∃ shown, (called (upToDepth depth) params).Reads found more () shown ∧
      (orderly = true → Token.bareAll shown = Token.bareAll tokens)

theorem ReadsTypes.call {types : List TypeExpr} (reads : ReadsTypes orderly tokens types) :
    ReadsCall orderly [groupToken .paren tokens] := by
  refine ⟨⟨_, _, rfl⟩, fun found like depth more enough closes params listed => ?_⟩
  obtain ⟨within, start, closing, stop, rfl, like'⟩ := exists_group_of_like like
  simp only [Token.count, Token.size] at enough
  obtain ⟨shown, list, erased⟩ := reads.params like' (by omega) listed
  have silentEnd : (returnType (upToDepth depth) false).Reads [] more none [] :=
    (reads_punct?_none (closes.atPunct_eq_false rfl (by decide))).after reads_pure
  refine ⟨[.group .paren shown start closing stop], ?_, fun sorted => ?_⟩
  · exact (reads_group list .paren start closing stop).followed silentEnd.discard
  · simp [Token.bareAll, Token.bare, erased sorted, groupToken]

theorem ReadsTypes.callReturning {types : List TypeExpr} {result : TypeExpr} {behind : List Token}
    (reads : ReadsTypes orderly tokens types) (output : ReadsType orderly behind false result) :
    ReadsCall orderly (groupToken .paren tokens :: (arrow ++ behind)) := by
  refine ⟨⟨_, _, rfl⟩, fun found like depth more enough closes params listed => ?_⟩
  rw [← List.singleton_append] at like
  obtain ⟨_, _, rfl, like₁, like₂⟩ := exists_append_of_like like
  obtain ⟨within, start, closing, stop, rfl, like₃⟩ := exists_group_of_like like₁
  obtain ⟨start₁, stop₁, joint, start₂, stop₂, last, rfl, like₄⟩ := exists_arrow_of_like like₂
  simp only [Token.count, Token.size, Token.count_append] at enough
  obtain ⟨shown, list, erased⟩ := reads.params like₃ (by omega) listed
  obtain ⟨reading, shown', returned, -, erased'⟩ :=
    output.reads last like₄ depth more (by omega) closes
  have arrowed : (punct? "->").Reads [.punct '-' true start₁ stop₁, .punct '>' joint start₂ stop₂]
      (last ++ more) true [.punct '-' true start₁ stop₁, .punct '>' false start₂ stop₂] :=
    reads_punct?_double rfl joint
  -- The result has a first token, whose position is answered with it.
  obtain ⟨token, rest, rfl, _⟩ := output.opens.like like₄
  have named : (returnType (upToDepth depth) false).Reads
      ([.punct '-' true start₁ stop₁, .punct '>' joint start₂ stop₂] ++ token :: rest) more
      (some (reading.type, token.start))
      ([.punct '-' true start₁ stop₁, .punct '>' false start₂ stop₂] ++ shown') :=
    arrowed.bind (reads_here.after (returned.followed reads_pure))
  refine ⟨[.group .paren shown start closing stop] ++
    ([.punct '-' true start₁ stop₁, .punct '>' false start₂ stop₂] ++ shown'), ?_, fun sorted => ?_⟩
  · exact (reads_group list .paren start closing stop).cons named.discard
  · simp [Token.bareAll, Token.bare, erased sorted, erased' sorted, groupToken, arrow, mark]

/-! ### Lifetimes that are introduced -/

section

variable {g : Grammar} {found more : List Token}

theorem reads_genericParam {name : String} {start stop : Pos} (unbound : atPunct ":" more = false) :
    (genericParam g).Reads [.lifetime name start stop] more none [.lifetime name start stop] := by
  have own : lifetimeParam.Reads [.lifetime name start stop] more () [.lifetime name start stop] :=
    (reads_lifetime name).discard.followed ((reads_punct?_none unbound).after reads_pure)
  refine (reads_outerAttributes rfl).discard.after (reads_look_pos rfl ?_)
  exact own.followed reads_pure

/-- Lifetimes up to the bracket behind them. -/
theorem reads_lifetimeTokens (names : List String)
    (like : List.Forall₂ Token.Like found (lifetimeTokens names)) {joint : Bool} {start stop : Pos} :
    ∃ pairs shown, ReadsSteps (terminatedStep atAngleEnd "," (genericParam g)) found
        (.punct '>' joint start stop :: more) pairs shown ∧
      Token.bareAll shown = Token.bareAll (lifetimeTokens names) := by
  fun_induction lifetimeTokens names generalizing found with
  | case1 =>
    obtain rfl := List.forall₂_nil_right_iff.mp like
    exact ⟨[], [], readsSteps_none (reads_terminatedStep_none rfl), rfl⟩
  | case2 name =>
    obtain ⟨start', stop', _, rfl, last⟩ := exists_lifetimeToken_of_like like
    obtain rfl := List.forall₂_nil_right_iff.mp last
    refine ⟨[(none, false)], [.lifetime name start' stop'], readsSteps_last ?_, rfl⟩
    exact reads_terminatedStep_last rfl (reads_genericParam rfl) rfl
  | case3 name next rest ih =>
    obtain ⟨start', stop', _, rfl, like₁⟩ := exists_lifetimeToken_of_like like
    obtain ⟨joint', start₁, stop₁, behind, rfl, like₂⟩ := exists_mark_of_like like₁
    obtain ⟨pairs, shown, steps, bare⟩ := ih like₂
    have first : (terminatedStep atAngleEnd "," (genericParam g)).Reads
        ([.lifetime name start' stop'] ++ [.punct ',' joint' start₁ stop₁])
        (behind ++ .punct '>' joint start stop :: more) (some (none, true))
        ([.lifetime name start' stop'] ++ [.punct ',' false start₁ stop₁]) :=
      reads_terminatedStep_mark rfl rfl (reads_genericParam rfl) rfl
    refine ⟨_, _, readsSteps_cons (by simp) first steps, ?_⟩
    simp [Token.bareAll, Token.bare, bare, lifetimeToken, mark]

/-- Lifetimes that are introduced, and what follows them. -/
theorem exists_binder_of_like {names : List String} {rest : List Token}
    (like : List.Forall₂ Token.Like found (binder (some names) ++ rest)) :
    ∃ start stop own behind, found = .word forWord start stop :: own ++ behind ∧
      List.Forall₂ Token.Like behind rest ∧
      ∀ g more, ∃ shown, (boundLifetimes g).Reads (.word forWord start stop :: own) more () shown ∧
        Token.bareAll shown = Token.bareAll (binder (some names)) := by
  simp only [binder, List.cons_append, List.append_assoc] at like
  obtain ⟨start, stop, _, rfl, like₁⟩ := exists_named_of_like like
  obtain ⟨joint, start₁, stop₁, _, rfl, like₂⟩ := exists_mark_of_like like₁
  obtain ⟨within, _, rfl, like₃, like₄⟩ := exists_append_of_like like₂
  obtain ⟨joint', start₂, stop₂, behind, rfl, like₅⟩ := exists_mark_of_like like₄
  refine ⟨start, stop, .punct '<' joint start₁ stop₁ :: (within ++ [.punct '>' joint' start₂ stop₂]),
    behind, by simp, like₅, fun g more => ?_⟩
  obtain ⟨pairs, shown, steps, bare⟩ := reads_lifetimeTokens names like₃
  refine ⟨[.word forWord start stop] ++ ([.punct '<' false start₁ stop₁] ++
    (shown ++ [.punct '>' false start₂ stop₂])), ?_, ?_⟩
  · refine (reads_word rfl).cons ((reads_punct_single rfl joint).cons ?_)
    exact Reads.bind (steps.collect.map _).discard (reads_punct_single rfl joint')
  · simp [Token.bareAll, Token.bare, bare, binder, named, mark]

end

/-! ### Function types -/

theorem atFunctionType_of_like {isUnsafe : Bool} {found : List Token}
    (like : List.Forall₂ Token.Like found (functionTokens isUnsafe tokens)) (more : List Token) :
    atFunctionType (found ++ more) = true ∧ atParen (found ++ more) = false ∧
      atWord "for" (found ++ more) = false := by
  cases isUnsafe <;>
  · obtain ⟨start, stop, behind, rfl, _⟩ := exists_named_of_like like
    exact ⟨rfl, rfl, rfl⟩

theorem ReadsCall.functionType {isUnsafe : Bool} (inner : ReadsCall true tokens) {found : List Token}
    (like : List.Forall₂ Token.Like found (functionTokens isUnsafe tokens)) {depth : Nat}
    {more : List Token} (enough : 2 * Token.count found ≤ depth + 1) (closes : Closes false more) :
    ∃ shown, (Grammar.functionType (upToDepth depth)).Reads found more () shown ∧
      Token.bareAll shown = Token.bareAll (functionTokens isUnsafe tokens) := by
  have unbound := (atFunctionType_of_like like more).2.2
  obtain ⟨own, _, rfl, like₁, bare, -, readsUnsafe⟩ := exists_optionalWord_of_like like
  obtain ⟨start, stop, behind, rfl, like₂⟩ := exists_named_of_like like₁
  simp only [Token.count, Token.size, Token.count_append] at enough
  obtain ⟨shown, calls, erased⟩ := inner.reads behind like₂ depth more (by omega) closes
    (functionTypeParams (upToDepth depth)) (by simp [paramReaders])
  have conventional : callingConvention?.Reads [] (.word fnWord start stop :: behind ++ more) () [] :=
    reads_look_neg rfl reads_pure
  refine ⟨own ++ ([.word fnWord start stop] ++ shown), ?_, ?_⟩
  · refine reads_look_neg unbound ((readsUnsafe more rfl).discard.bind ?_)
    exact conventional.after ((reads_word rfl).cons calls)
  · rw [Token.bareAll_append, bare, functionTokens, Token.bareAll_append]
    simp [Token.bareAll, Token.bare, named, erased]

/-- A function type that introduces lifetimes. -/
theorem reads_typeSketch_bound {g : Grammar} {own passed found more shown : List Token}
    (bound : atWord "for" (own ++ (found ++ more)) = true)
    (lifetimes : (boundLifetimes g).Reads own (found ++ more) () passed)
    (function : atFunctionType (found ++ more) = true) (apart : atParen (found ++ more) = false)
    (reads : (Grammar.functionType g).Reads found more () shown) :
    (typeSketch g plus).Reads (own ++ found) more ⟨.function, .other⟩ (passed ++ shown) := by
  refine reads_look ?_
  rw [List.append_assoc, bound]
  refine Reads.bind lifetimes (reads_look ?_)
  simp only [function, Bool.or_true]
  refine reads_look_neg apart (reads_look_pos function (reads.followed reads_pure))

theorem ReadsCall.function {isUnsafe : Bool} (binds : Option (List String)) (inner : ReadsCall true tokens) :
    ReadsType orderly (binder binds ++ functionTokens isUnsafe tokens) plus
      (.function (binder binds ++ functionTokens isUnsafe tokens)) := by
  cases binds with
  | none =>
    have opens : OpensForm (functionTokens isUnsafe tokens) := by
      cases isUnsafe <;> exact ⟨_, _, rfl, rfl, rfl⟩
    have unnamed : Unnamed (functionTokens isUnsafe tokens) := by
      cases isUnsafe <;> exact unnamed_of_head rfl
    refine .of_form opens unnamed fun found like depth more enough closes => ?_
    obtain ⟨function, apart, -⟩ := atFunctionType_of_like like more
    obtain ⟨shown, reads, same⟩ := inner.functionType like enough closes.tight
    refine ⟨⟨.function, .other⟩, shown, ?_, fun scope => ?_, fun _ => same⟩
    · simp only [typeForm, function, apart, Bool.false_eq_true, if_false, if_true]
      exact reads.followed reads_pure
    · simp only [TypeDesc.ofExpr, TypeDesc.ofTokens, Token.print_congr same, binder, List.nil_append]
  | some names =>
    -- The lifetimes are read before the form is looked at, so `of_form` does not apply.
    refine ⟨⟨_, _, rfl, rfl⟩, unnamed_of_head rfl, fun found like depth more enough closes => ?_⟩
    obtain ⟨start, stop, own, behind, rfl, like', lifetimes⟩ := exists_binder_of_like like
    simp only [Token.count_append, Token.count, Token.size] at enough
    obtain ⟨depth, rfl⟩ : ∃ less, depth = less + 1 := ⟨depth - 1, by omega⟩
    obtain ⟨function, apart, -⟩ := atFunctionType_of_like like' more
    obtain ⟨shown, reads, same⟩ := inner.functionType like'
      (by omega : 2 * Token.count behind ≤ depth + 1) closes.tight
    obtain ⟨passed, introduced, bare⟩ := lifetimes (upToDepth depth) (behind ++ more)
    have whole : Token.bareAll (passed ++ shown) =
        Token.bareAll (binder (some names) ++ functionTokens isUnsafe tokens) := by
      rw [Token.bareAll_append, bare, same, Token.bareAll_append]
    refine ⟨_, passed ++ shown, reads_type (reads_typeSketch_bound rfl introduced function apart reads),
      fun scope => ?_, fun _ => whole⟩
    simp only [TypeDesc.ofExpr, TypeDesc.ofTokens, Token.print_congr whole]

end

end StructInventory
