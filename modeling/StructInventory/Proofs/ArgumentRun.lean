import StructInventory.Proofs.TypeRun

/-!
Reading generic arguments, and paths that have some.
-/

namespace StructInventory

open Reader Reading Grammar

section

variable {orderly plus : Bool} {tokens : List Token} {type : TypeExpr}

/-- Tokens that no angle bracket and no equals sign begins. -/
def BeginsApart (tokens : List Token) : Prop :=
  ∃ token rest, tokens = token :: rest ∧
    ∀ c ∈ ['>', '=', '<'], ∀ more, atMarks [c] (token :: more) = false

namespace BeginsApart

variable {found : List Token}

theorem like (begins : BeginsApart tokens) (like : List.Forall₂ Token.Like found tokens) :
    BeginsApart found := by
  obtain ⟨token, rest, rfl, apart⟩ := begins
  obtain ⟨first, behind, own, _, rfl⟩ := List.forall₂_cons_right_iff.mp like
  refine ⟨first, behind, rfl, fun c listed more => ?_⟩
  have other := apart c listed more
  cases own <;> exact other

theorem append (begins : BeginsApart tokens) (more : List Token) : BeginsApart (tokens ++ more) := by
  obtain ⟨token, rest, rfl, apart⟩ := begins
  exact ⟨token, rest ++ more, rfl, apart⟩

theorem not_atAngle (begins : BeginsApart found) (more : List Token) :
    atPunct ">" (found ++ more) = false := by
  obtain ⟨token, rest, rfl, apart⟩ := begins
  exact apart '>' (by simp) _

/-- An angle bracket before such tokens opens arguments. -/
theorem atArguments_cons (begins : BeginsApart found) (joint : Bool) (start stop : Pos) :
    atArguments (.punct '<' joint start stop :: found) = true := by
  obtain ⟨token, rest, rfl, apart⟩ := begins
  have equals := apart '=' (by simp) rest
  have angle := apart '<' (by simp) rest
  -- Neither `<=` nor `<<=` is seen, since no equals sign follows the bracket.
  have le : atPunct "<=" (.punct '<' joint start stop :: token :: rest) = false := by
    change (('<' == '<') && joint && atMarks ['='] (token :: rest)) = false
    simp [equals]
  have shift : atPunct "<<=" (.punct '<' joint start stop :: token :: rest) = false := by
    change (('<' == '<') && joint && atMarks ['<', '='] (token :: rest)) = false
    cases token with
    | punct c => simp_all [atMarks]
    | word | lifetime | literal | group => simp [atMarks]
  simp only [atArguments, le, shift]
  rfl

end BeginsApart

theorem OpensType.beginsApart (opens : OpensType tokens) : BeginsApart tokens := by
  obtain ⟨token, rest, rfl, begins⟩ := opens
  refine ⟨token, rest, rfl, fun c listed more => ?_⟩
  cases token with
  | punct d joint start stop =>
    have apart : d ≠ c := by
      rintro rfl
      simp only [Token.opensType, List.contains_eq_mem, decide_eq_true_eq, List.mem_cons,
        List.not_mem_nil, or_false] at begins listed
      rcases listed with rfl | rfl | rfl <;> simp at begins
    simp [atMarks, apart]
  | word | lifetime | literal | group => rfl

/-- The tokens are read as the argument. -/
structure ReadsArgument (orderly : Bool) (tokens : List Token) (argument : TypeArgument) : Prop where
  apart : BeginsApart tokens
  reads : ∀ found, List.Forall₂ Token.Like found tokens → ∀ depth more,
    2 * Token.count found ≤ depth → Closes true more →
    ∃ kind shown, (Grammar.argument (upToDepth depth)).Reads found more kind shown ∧
      (∀ scope, TypeDesc.ofArgument scope (kind.attach shown) = TypeDesc.ofArgument scope argument) ∧
      kind.isLifetime = argument.isLifetime ∧
      (orderly = true → Token.bareAll shown = Token.bareAll tokens)

theorem readsArgument_lifetime (name : String) :
    ReadsArgument orderly [lifetimeToken name] (.lifetime name) := by
  constructor
  · exact ⟨_, _, rfl, fun _ _ _ => rfl⟩
  · intro found like depth more enough closes
    obtain ⟨start, stop, _, rfl, last⟩ := exists_lifetimeToken_of_like like
    obtain rfl := List.forall₂_nil_right_iff.mp last
    refine ⟨.lifetime name, [.lifetime name start stop], ?_, fun _ => rfl, rfl, fun _ => rfl⟩
    have unjoined : atPunct "+" more = false := closes.plus_eq_false
    refine reads_look_pos ?_ ((reads_lifetime name).followed reads_pure)
    simp [second, unjoined, atLifetime]

theorem readsArgument_number (text : String) :
    ReadsArgument orderly [literalToken text] (.other [literalToken text]) := by
  constructor
  · exact ⟨_, _, rfl, fun _ _ _ => rfl⟩
  · intro found like depth more enough closes
    obtain ⟨token, _, own, last, rfl⟩ := List.forall₂_cons_right_iff.mp like
    obtain rfl := List.forall₂_nil_right_iff.mp last
    obtain ⟨start, stop, rfl⟩ : ∃ start stop, token = .literal text start stop := by
      cases own with
      | literal _ start stop => exact ⟨start, stop, rfl⟩
    refine ⟨.other, [.literal text start stop], ?_, fun _ => rfl, rfl, fun _ => rfl⟩
    have constant : (constArgument (upToDepth depth)).Reads [.literal text start stop] more ()
        [.literal text start stop] := reads_look_pos rfl (reads_literal text).discard
    exact reads_look_neg rfl (reads_look_pos rfl (constant.followed reads_pure))

theorem ReadsType.argument (inner : ReadsType orderly tokens true type) :
    ReadsArgument orderly tokens (.type type) := by
  constructor
  · exact inner.opens.beginsApart
  · intro found like depth more enough closes
    have begins := inner.opens.like like
    obtain ⟨reading, shown, reads, alike, erased⟩ := inner.reads found like depth more enough closes
    refine ⟨.type reading.type, shown, ?_, alike, rfl, erased⟩
    refine reads_look_neg (by simp [begins.not_atLifetime]) (reads_look_neg ?_ (reads.followed ?_))
    · simp [begins.not_atLiteral, begins.not_atBrace]
    · -- Only a type that is a single name could be an item or its bounds.
      split
      · have set : atPunct "=" more = false := closes.atPunct_eq_false rfl (by decide)
        have bounded : atPunct ":" more = false := closes.atPunct_eq_false rfl (by decide)
        refine (reads_punct?_none set).after ?_
        rw [if_neg Bool.false_ne_true]
        exact (reads_punct?_none bounded).after reads_pure
      · exact reads_pure

theorem ReadsType.item (inner : ReadsType true tokens true type) {name : Word}
    (ident : name.isIdent = true) :
    ReadsArgument orderly (named name :: mark '=' :: tokens)
      (.other (named name :: mark '=' :: tokens)) := by
  constructor
  · exact ⟨_, _, rfl, fun _ _ _ => rfl⟩
  · intro found like depth more enough closes
    obtain ⟨start, stop, _, rfl, like₁⟩ := exists_named_of_like like
    obtain ⟨joint, start', stop', behind, rfl, like₂⟩ := exists_mark_of_like like₁
    have begins := inner.opens.like like₂
    simp only [Token.count, Token.size] at enough
    obtain ⟨reading, shown, reads, -, erased⟩ := inner.reads behind like₂ depth more (by omega) closes
    obtain ⟨depth, rfl⟩ : ∃ less, depth = less + 1 := ⟨depth - 1, by omega⟩
    have bare : Token.bareAll ([.word name start stop] ++ ([.punct '=' false start' stop'] ++ shown)) =
        Token.bareAll (named name :: mark '=' :: tokens) := by
      simp [Token.bareAll, Token.bare, erased, named, mark]
    -- A type follows the equals sign, and no constant.
    have plain : (atLiteral (behind ++ more) || atBrace (behind ++ more)) = false := by
      simp [begins.not_atLiteral, begins.not_atBrace]
    refine ⟨.other, [.word name start stop] ++ ([.punct '=' false start' stop'] ++ shown), ?_,
      fun scope => ?_, rfl, fun _ => bare⟩
    · refine reads_look_neg rfl (reads_look_neg ?_ ?_)
      · simp [Word.atLiteral_eq_false ident]
        rfl
      · -- The name is read as a type first; the equals sign shows that it is an item.
        refine Reads.cons (reads_loneName ident rfl rfl rfl rfl depth) ?_
        refine (reads_punct?_single rfl joint).cons (reads_look_neg plain ?_)
        exact reads.discard.followed reads_pure
    · simp only [ArgumentKind.attach, TypeDesc.ofArgument, TypeDesc.ofTokens, Token.print_congr bare]

/-! ### Lists of arguments -/

/-- A member of the list as it is printed. -/
def memberOf (pair : (ArgumentKind × List Token) × Bool) : ListMember :=
  ⟨pair.1.2, pair.1.1.isLifetime, pair.2⟩

def argumentOf (pair : (ArgumentKind × List Token) × Bool) : TypeArgument := pair.1.1.attach pair.1.2

/-- The tokens up to a closing angle bracket are read as the arguments. -/
structure ReadsArguments (orderly : Bool) (tokens : List Token) (arguments : List TypeArgument) :
    Prop where
  apart : BeginsApart tokens
  given : arguments ≠ []
  reads : ∀ found, List.Forall₂ Token.Like found tokens → ∀ depth joint start stop more,
    2 * Token.count found ≤ depth →
    ∃ pairs shown, ReadsSteps
        (terminatedStep (atPunct ">") "," (captured (Grammar.argument (upToDepth depth)))) found
        (.punct '>' joint start stop :: more) pairs shown ∧
      (∀ scope, TypeDesc.ofArguments scope (pairs.map argumentOf) =
        TypeDesc.ofArguments scope arguments) ∧
      pairs.map (fun pair => (memberOf pair).lifetime) = arguments.map TypeArgument.isLifetime ∧
      (orderly = true →
        Token.bareAll (printMembers false (pairs.map memberOf)).1 = Token.bareAll tokens)

section

variable {argument : TypeArgument}

theorem ReadsArgument.single (inner : ReadsArgument orderly tokens argument) :
    ReadsArguments orderly tokens [argument] := by
  refine ⟨inner.apart, by simp, fun found like depth joint start stop more enough => ?_⟩
  have begins := inner.apart.like like
  obtain ⟨kind, shown, reads, alike, kept, erased⟩ :=
    inner.reads found like depth (.punct '>' joint start stop :: more) enough (.cons (by simp))
  refine ⟨[((kind, shown), false)], shown, readsSteps_last ?_, fun scope => ?_, ?_, fun sorted => ?_⟩
  · exact reads_terminatedStep_last (begins.not_atAngle _) (reads_captured reads) rfl
  · simp only [List.map_cons, List.map_nil, argumentOf, TypeDesc.ofArguments, alike]
  · simp [memberOf, kept]
  · simpa [memberOf, printMembers] using erased sorted

theorem ReadsArgument.cons {arguments : List TypeArgument} {rest : List Token}
    (inner : ReadsArgument orderly tokens argument) (others : ReadsArguments orderly rest arguments) :
    ReadsArguments orderly (tokens ++ mark ',' :: rest) (argument :: arguments) := by
  refine ⟨inner.apart.append _, by simp, fun found like depth joint start stop more enough => ?_⟩
  obtain ⟨first, _, rfl, like₁, like₂⟩ := exists_append_of_like like
  obtain ⟨joint', start', stop', behind, rfl, like₃⟩ := exists_mark_of_like like₂
  simp only [Token.count_append, Token.count, Token.size] at enough
  have begins := inner.apart.like like₁
  -- The first argument is read up to its comma, and the others up to the closing bracket.
  obtain ⟨kind, shown, reads, alike, kept, erased⟩ := inner.reads first like₁ depth
    (.punct ',' joint' start' stop' :: (behind ++ .punct '>' joint start stop :: more)) (by omega)
    (.cons (by simp))
  obtain ⟨pairs, shown', steps, alikes, kepts, erased'⟩ :=
    others.reads behind like₃ depth joint start stop more (by omega)
  refine ⟨((kind, shown), true) :: pairs, shown ++ [.punct ',' false start' stop'] ++ shown', ?_,
    fun scope => ?_, ?_, fun sorted => ?_⟩
  · have own : (terminatedStep (atPunct ">") "," (captured (Grammar.argument (upToDepth depth)))).Reads
        (first ++ [.punct ',' joint' start' stop']) (behind ++ .punct '>' joint start stop :: more)
        (some ((kind, shown), true)) (shown ++ [.punct ',' false start' stop']) :=
      reads_terminatedStep_mark rfl (begins.not_atAngle _) (reads_captured reads) rfl
    have both := readsSteps_cons (by simp) own steps
    simpa using both
  · simp only [List.map_cons, argumentOf, TypeDesc.ofArguments, alike]
    exact congrArg _ (alikes scope)
  · simp only [List.map_cons, kepts]
    simp [memberOf, kept]
  · have later := erased' sorted
    simp [printMembers, memberOf, Token.bareAll, Token.bare, erased sorted, mark, comma] at later ⊢
    exact later

end

/-! ### Paths with arguments -/

/-- Members of which the lifetimes come first are printed in their order. -/
theorem printMembers_sorted (due : Bool) (members : List ListMember)
    (sorted : members.Pairwise fun member later => later.lifetime = true → member.lifetime = true) :
    (printMembers due (members.filter (·.lifetime))).1 ++
        (printMembers (printMembers due (members.filter (·.lifetime))).2
          (members.filter (!·.lifetime))).1 = (printMembers due members).1 := by
  induction members generalizing due with
  | nil => rfl
  | cons member rest ih =>
    rw [List.pairwise_cons] at sorted
    by_cases lifetime : member.lifetime = true
    · simp only [lifetime, List.filter_cons, if_true, Bool.not_true, Bool.false_eq_true, if_false,
        printMembers, List.append_assoc, ih (!member.followed) sorted.2]
    · -- No lifetime comes behind another member.
      have none : ∀ later ∈ rest, later.lifetime = false := fun later listed =>
        Bool.eq_false_iff.mpr fun holds => lifetime (sorted.1 later listed holds)
      have first : (member :: rest).filter (·.lifetime) = [] := by
        rw [List.filter_eq_nil_iff]
        exact List.forall_mem_cons.mpr ⟨lifetime, fun later listed => by simp [none later listed]⟩
      have second : (member :: rest).filter (!·.lifetime) = member :: rest := by
        rw [List.filter_eq_self]
        refine List.forall_mem_cons.mpr ⟨by simpa using lifetime, fun later listed => ?_⟩
        simp [none later listed]
      rw [first, second]
      rfl

/-- The tokens are read as the arguments behind a last segment. -/
def ReadsSuffix (orderly : Bool) (tokens : List Token) (arguments : List TypeArgument) : Prop :=
  ∀ found, List.Forall₂ Token.Like found tokens → ∀ depth more last, 2 * Token.count found ≤ depth →
    atPunct "<" more = false → atPunct "::" more = false → last.isSegment = true →
    (arguments = [] ∨ bareWords.contains last.text = false) →
    ∃ answered shown, ReadsLast (upToDepth depth) last found more answered shown ∧
      (∀ scope, TypeDesc.ofArguments scope (answered.getD []) =
        TypeDesc.ofArguments scope arguments) ∧
      (answered.getD []).isEmpty = arguments.isEmpty ∧
      (orderly = true → Token.bareAll shown = Token.bareAll tokens)

theorem readsSuffix_nil : ReadsSuffix orderly [] [] := by
  intro found like depth more last enough arguments segments isSegment takes
  obtain rfl := List.forall₂_nil_right_iff.mp like
  refine ⟨none, [], fun start stop => ?_, fun _ => rfl, rfl, fun _ => rfl⟩
  exact reads_segment isSegment (by simp [atArguments, arguments, segments])

theorem ReadsArguments.suffix {arguments : List TypeArgument}
    (inner : ReadsArguments orderly tokens arguments)
    (sorted : orderly = true → arguments.Pairwise fun argument later =>
      later.isLifetime = true → argument.isLifetime = true) :
    ReadsSuffix orderly (mark '<' :: (tokens ++ [mark '>'])) arguments := by
  intro found like depth more last enough unbracketed unjoined isSegment takes
  obtain ⟨joint, start, stop, _, rfl, like₁⟩ := exists_mark_of_like like
  obtain ⟨within, _, rfl, like₂, like₃⟩ := exists_append_of_like like₁
  obtain ⟨joint', start', stop', _, rfl, none⟩ := exists_mark_of_like like₃
  obtain rfl := List.forall₂_nil_right_iff.mp none
  simp only [Token.count_append, Token.count, Token.size] at enough
  obtain ⟨pairs, shown, steps, alike, kept, erased⟩ :=
    inner.reads within like₂ depth joint' start' stop' more (by omega)
  have bare : bareWords.contains last.text = false := takes.resolve_left inner.given
  refine ⟨.some (pairs.map argumentOf), [.punct '<' false start stop] ++
    (lifetimesFirst (pairs.map memberOf) ++ [.punct '>' false start' stop']), fun first final => ?_, alike,
    ?_, fun ordered => ?_⟩
  · refine reads_segment_arguments isSegment (by rw [bare]; exact Bool.false_ne_true) ?_ ?_
    · have begins := ((inner.apart.like like₂).append [.punct '>' joint' start' stop']).append more
      simpa using begins.atArguments_cons joint start stop
    · -- The arguments are read in silence and printed with the lifetimes first.
      have list := reads_silent steps.collect
      refine (reads_punct_single rfl joint).cons (Reads.quietly list ?_)
      exact reads_emit.bind ((reads_punct_single rfl joint').followed reads_pure)
  · have given := inner.given
    have counted := congrArg List.length kept
    cases pairs <;> cases arguments <;> simp_all
  · -- In orderly tokens that is the order in which they were written.
    have flags : (arguments.map TypeArgument.isLifetime).Pairwise fun first later =>
        later = true → first = true := List.pairwise_map.mpr (sorted ordered)
    rw [← kept] at flags
    have members : (pairs.map memberOf).Pairwise fun member later =>
        later.lifetime = true → member.lifetime = true :=
      List.pairwise_map.mpr (List.pairwise_map.mp flags)
    have printed : lifetimesFirst (pairs.map memberOf) = (printMembers false (pairs.map memberOf)).1 :=
      printMembers_sorted false _ members
    simp [Token.bareAll, Token.bare, mark, printed, erased ordered]

section

variable {leading : Bool} {stem : List Word} {last : Word} {arguments : List TypeArgument}

theorem Grammar.Path.names_segmentsOf (answered : Option (List TypeArgument)) :
    (Grammar.Path.mk leading (segmentsOf stem last answered)).names = pathNames leading stem last := by
  cases leading <;> simp [Grammar.Path.names, segmentsOf, pathNames]

theorem Grammar.Path.lastArguments_segmentsOf (answered : Option (List TypeArgument)) :
    (Grammar.Path.mk leading (segmentsOf stem last answered)).lastArguments = answered.getD [] := by
  simp [Grammar.Path.lastArguments, segmentsOf]

theorem Grammar.Path.plainStem_segmentsOf (answered : Option (List TypeArgument)) :
    (Grammar.Path.mk leading (segmentsOf stem last answered)).plainStem = true := by
  simp [Grammar.Path.plainStem, segmentsOf]

theorem Token.count_pos_of_like {found : List Token} (some : tokens ≠ [])
    (like : List.Forall₂ Token.Like found tokens) : 0 < Token.count found := by
  obtain ⟨token, rest, rfl⟩ := List.exists_cons_of_ne_nil some
  obtain ⟨first, behind, _, _, rfl⟩ := List.forall₂_cons_right_iff.mp like
  have solid := first.size_pos
  simp only [Token.count]
  omega

/-- A path and the arguments behind it, where nothing follows that would belong to it. -/
theorem IsPath.reads (isPath : IsPath leading stem last arguments)
    (suffix : ReadsSuffix orderly tokens arguments) {found : List Token}
    (like : List.Forall₂ Token.Like found (pathTokens leading stem last ++ tokens)) {depth : Nat}
    {more : List Token} (enough : 2 * Token.count found ≤ depth + 1)
    (angle : atPunct "<" more = false) (colons : atPunct "::" more = false) :
    ∃ answered shown, (Grammar.path (upToDepth depth) false).Reads found more
        ⟨leading, segmentsOf stem last answered⟩ shown ∧
      (∀ scope, TypeDesc.ofArguments scope (answered.getD []) =
        TypeDesc.ofArguments scope arguments) ∧
      (answered.getD []).isEmpty = arguments.isEmpty ∧
      (orderly = true → Token.bareAll shown = Token.bareAll (pathTokens leading stem last ++ tokens)) := by
  obtain ⟨first, behind, rfl, like₁, like₂⟩ := exists_append_of_like like
  have some : 0 < Token.count first := Token.count_pos_of_like (by simp [pathTokens]) like₁
  rw [Token.count_append] at enough
  obtain ⟨answered, shown, lastReads, alike, kept, erased⟩ := suffix behind like₂ depth more last
    (by omega) angle colons isPath.lastSegment isPath.takes
  obtain ⟨passed, reads, bare⟩ :=
    reads_path leading stem isPath.stemSegments lastReads colons like₁
  refine ⟨answered, passed ++ shown, reads, alike, kept, fun ordered => ?_⟩
  rw [Token.bareAll_append, Token.bareAll_append, bare, erased ordered]

theorem exists_head_pathTokens (leading : Bool) (stem : List Word) (last : Word) :
    (leading = true ∧ ∃ rest, pathTokens leading stem last = colons ++ rest) ∨
      (leading = false ∧ ∃ rest, pathTokens leading stem last =
        named ((stem ++ [last]).head (by simp)) :: rest) := by
  cases leading with
  | true => exact .inl ⟨rfl, _, rfl⟩
  | false => cases stem with
    | nil => exact .inr ⟨rfl, _, rfl⟩
    | cons first rest => exact .inr ⟨rfl, _, rfl⟩

theorem opensForm_of_beginsPath {word : Word} (begins : word.beginsPath = true) (rest : List Token) :
    OpensForm (named word :: rest) := by
  have unlike {name : String} (listed : name ∈ reserved) (other : name ∉ pathWords) :
      atWord name [named word] = false := Word.atWord_eq_false_of_beginsPath begins listed other
  refine ⟨_, _, rfl, ?_, unlike (by decide) (by decide)⟩
  have literals := And.intro (unlike (by decide : "true" ∈ reserved) (by decide))
    (unlike (by decide : "false" ∈ reserved) (by decide))
  have mutable := unlike (by decide : "mut" ∈ reserved) (by decide)
  simp only [named, atWord, beq_eq_false_iff_ne] at literals mutable
  simp [named, Token.opensType, literals, mutable]

theorem unnamed_path (headed : tokens = [] ∨ ∃ rest, tokens = mark '<' :: rest) :
    Unnamed (pathTokens leading stem last ++ tokens) := by
  cases leading with
  | true => exact unnamed_of_head rfl
  | false =>
    -- Behind a single segment stands a bracket or nothing, behind others `::`.
    cases stem with
    | nil =>
      rcases headed with rfl | ⟨rest, rfl⟩
      · exact unnamed_single _
      · refine unnamed_of_behind fun found like more closes => .inl ?_
        obtain ⟨joint, start, stop, behind, rfl, _⟩ := exists_mark_of_like like
        rfl
    | cons word stem =>
      refine unnamed_of_behind fun found like more closes => .inr ?_
      obtain ⟨start, stop, joint, start', stop', behind, rfl, _⟩ := exists_colons_of_like (by simpa using like)
      rfl

theorem IsPath.readsType (isPath : IsPath leading stem last arguments)
    (begins : leading = true ∨ ((stem ++ [last]).head (by simp)).beginsPath = true)
    (suffix : ReadsSuffix orderly tokens arguments)
    (headed : tokens = [] ∨ ∃ rest, tokens = mark '<' :: rest) :
    ReadsType orderly (pathTokens leading stem last ++ tokens) plus
      (.named (pathNames leading stem last) arguments []) := by
  -- A path begins with `::` or with a word, and both lead to the same reader.
  have opens : OpensForm (pathTokens leading stem last ++ tokens) := by
    rcases exists_head_pathTokens leading stem last with ⟨_, rest, same⟩ | ⟨rfl, rest, same⟩
    · exact ⟨_, _, by rw [same]; rfl, rfl, rfl⟩
    · rw [same]
      exact opensForm_of_beginsPath (begins.resolve_left (by simp)) _
  have form : ∀ g more found, List.Forall₂ Token.Like found (pathTokens leading stem last ++ tokens) →
      typeForm g plus (found ++ more) = pathType g plus false ∧
        atPunct "<" (found ++ more) = false := by
    intro g more found like
    rcases exists_head_pathTokens leading stem last with ⟨_, rest, same⟩ | ⟨rfl, rest, same⟩
    · rw [same, List.append_assoc] at like
      obtain ⟨start, stop, joint, start', stop', behind, rfl, _⟩ := exists_colons_of_like like
      exact ⟨rfl, rfl⟩
    · rw [same, List.cons_append] at like
      obtain ⟨start, stop, behind, rfl, _⟩ := exists_named_of_like like
      exact ⟨typeForm_word (begins.resolve_left (by simp)), rfl⟩
  refine .of_form opens (unnamed_path headed) fun found like depth more enough closes => ?_
  obtain ⟨answered, shown, reads, alike, -, erased⟩ := isPath.reads suffix like enough
    (closes.atPunct_eq_false rfl (by decide))
    (closes.atPunct_eq_false rfl (by decide))
  obtain ⟨chosen, plain⟩ := form (upToDepth depth) more found like
  refine ⟨.ofPath ⟨leading, segmentsOf stem last answered⟩, shown, ?_, fun scope => ?_, erased⟩
  · rw [chosen]
    exact reads_pathType (closes.atPunct_eq_false rfl (by decide)) closes.plus_eq_false plain reads
  · simp only [TypeSketch.ofPath, Grammar.Path.plainStem_segmentsOf, if_true,
      Grammar.Path.names_segmentsOf, Grammar.Path.lastArguments_segmentsOf, TypeDesc.ofExpr, alike]

end

end

end StructInventory
