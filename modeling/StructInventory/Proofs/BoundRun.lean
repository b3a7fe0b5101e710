import StructInventory.Proofs.ArgumentRun
import StructInventory.Proofs.FunctionRun

/-!
Reading bounds, and with them every part of a type.
-/

namespace StructInventory

open Reader Reading Grammar

section

variable {orderly plus : Bool} {tokens : List Token} {type : TypeExpr}

/-- Tokens that begin as a path does that may follow a bound's marks. -/
inductive OpensPath : List Token → Prop where
  | word {word : Word} {start stop : Pos} {rest : List Token} (isSegment : word.isSegment = true) :
      OpensPath (.word word start stop :: rest)
  | colons {start stop start' stop' : Pos} {joint : Bool} {rest : List Token} :
      OpensPath (.punct ':' true start stop :: .punct ':' joint start' stop' :: rest)

namespace OpensPath

variable {found more : List Token}

theorem append (opens : OpensPath found) : OpensPath (found ++ more) := by
  cases opens with
  | word isSegment => exact .word isSegment
  | colons => exact .colons

theorem not_atWord (opens : OpensPath found) {name : String} (listed : name ∈ ["for", "const", "use"]) :
    atWord name found = false := by
  cases opens with
  | word isSegment =>
    rw [atWord, beq_eq_false_iff_ne]
    rintro rfl
    simp only [List.mem_cons, List.not_mem_nil, or_false] at listed
    rcases listed with same | same | same <;>
      simp [Word.isSegment, Word.isIdent, same, reserved, bareWords] at isSegment
  | colons => rfl

theorem not_atLifetime (opens : OpensPath found) : atLifetime found = false := by
  cases opens <;> rfl

theorem not_atParen (opens : OpensPath found) : atParen found = false := by
  cases opens <;> rfl

theorem not_atBracket (opens : OpensPath found) : atBracket found = false := by
  cases opens <;> rfl

theorem not_atPunct (opens : OpensPath found) {marks : String} {c : Char}
    (single : marks.toList = [c]) (other : c ≠ ':') : atPunct marks found = false := by
  rw [atPunct, single]
  cases opens with
  | word => rfl
  | colons => simp [atMarks, Ne.symm other]

theorem atBound (opens : OpensPath found) (rule : BoundRule) : Grammar.atBound rule found = true := by
  cases opens with
  | word => rfl
  | colons => rfl

end OpensPath

theorem IsPath.opensPath {leading : Bool} {stem : List Word} {last : Word}
    {arguments : List TypeArgument} (isPath : IsPath leading stem last arguments)
    {found : List Token}
    (like : List.Forall₂ Token.Like found (pathTokens leading stem last ++ tokens)) :
    OpensPath found := by
  rcases exists_head_pathTokens leading stem last with ⟨_, rest, same⟩ | ⟨rfl, rest, same⟩
  · rw [same, List.append_assoc] at like
    obtain ⟨start, stop, joint, start', stop', behind, rfl, _⟩ := exists_colons_of_like like
    exact .colons
  · rw [same, List.cons_append] at like
    obtain ⟨start, stop, behind, rfl, _⟩ := exists_named_of_like like
    have listed := List.head_mem (show stem ++ [last] ≠ [] by simp)
    rcases List.mem_append.mp listed with inStem | isLast
    · exact .word (isPath.stemSegments _ inStem)
    · rw [List.mem_singleton.mp isLast]
      exact .word isPath.lastSegment

/-- The tokens are read as one bound, by any rule. -/
structure ReadsBound (orderly : Bool) (tokens : List Token) (trait : Bool) : Prop where
  opens : ∀ found, List.Forall₂ Token.Like found tokens → ∀ more, found ≠ [] ∧
    (∀ rule, atBound rule (found ++ more) = true) ∧ atPunct "*" (found ++ more) = false
  reads : ∀ found, List.Forall₂ Token.Like found tokens → ∀ depth rule more,
    2 * Token.count found ≤ depth → Closes false more →
    ∃ kind shown, (boundBy (upToDepth depth) rule).Reads found more kind shown ∧
      decide (kind = .trait) = trait ∧
      (orderly = true → Token.bareAll shown = Token.bareAll tokens)

theorem readsBound_lifetime (name : String) : ReadsBound orderly [lifetimeToken name] false := by
  constructor
  · intro found like more
    obtain ⟨start, stop, behind, rfl, -⟩ := exists_lifetimeToken_of_like like
    exact ⟨by simp, fun _ => rfl, rfl⟩
  · intro found like depth rule more enough closes
    obtain ⟨start, stop, _, rfl, last⟩ := exists_lifetimeToken_of_like like
    obtain rfl := List.forall₂_nil_right_iff.mp last
    refine ⟨.lifetime, [.lifetime name start stop], ?_, rfl, fun _ => rfl⟩
    exact reads_here_bind fun pos =>
      reads_look_pos rfl ((reads_lifetime name).discard.followed reads_pure)

/-- What stands behind the path of a trait: nothing that belongs to it, or what the trait is called
with. -/
def ReadsCalled (g : Grammar) (trait : Path) (tokens more shown : List Token) : Prop :=
  (tokens = [] ∧ shown = [] ∧ atParen more = false ∧ atPunct "::" more = false) ∨
    (trait.lastArguments.isEmpty = true ∧ atParen (tokens ++ more) = true ∧
      (callArguments g).Reads tokens more () shown)

section

variable {g : Grammar} {rule : BoundRule} {trait : Path}
  {found suffix more marks passed shown called : List Token}

/-- How the head of a bound is read, and what is printed of it. -/
inductive ReadsHead (g : Grammar) (more : List Token) : List Token → List Token → Prop where
  | none : ReadsHead g more [] []
  | optional {joint : Bool} {start stop : Pos} :
      ReadsHead g more [.punct '?' joint start stop] [.punct '?' false start stop]
  | binds {start stop : Pos} {own passed : List Token}
      (introduced : (boundLifetimes g).Reads (.word forWord start stop :: own) more () passed) :
      ReadsHead g more (.word forWord start stop :: own) passed

/-- The trait behind its marks, where the lifetimes in front of it are printed. -/
def traitPath (g : Grammar) (lifetimes : List Token) : Reader Bool := do
  emit lifetimes
  let found ← Grammar.path g false
  if found.lastArguments.isEmpty then
    if ← look atParen then
      callArguments g
      return false
    else if ← look fun ahead => atPunct "::" ahead && third atParen ahead then
      silent (punct "::")
      callArguments g
      return false
    else return false
  else return false

theorem reads_traitPath (path : (Grammar.path g false).Reads found (suffix ++ more) trait shown)
    (behind : ReadsCalled g trait suffix more called) (lifetimes : List Token) :
    (traitPath g lifetimes).Reads (found ++ suffix) more false (lifetimes ++ (shown ++ called)) := by
  change (emit lifetimes >>= _).Reads ([] ++ (found ++ suffix)) _ _ _
  refine reads_emit.bind (Reads.bind path ?_)
  rcases behind with ⟨rfl, rfl, paren, colons⟩ | ⟨empty, paren, reads⟩
  · split
    · exact reads_look_neg paren (reads_look_neg (by simp [colons]) reads_pure)
    · exact reads_pure
  · rw [if_pos empty]
    exact reads_look_pos paren (reads.followed reads_pure)

/-- A trait that is not optional, behind the lifetimes that are introduced. -/
theorem reads_traitBound_plain {lifetimes : List Token} (opens : OpensPath found)
    (introduced : (do if ← look (atWord "for") then boundLifetimes g : Reader Unit).Reads marks
      (found ++ (suffix ++ more)) () lifetimes)
    (path : (Grammar.path g false).Reads found (suffix ++ more) trait shown)
    (behind : ReadsCalled g trait suffix more called) :
    (traitBound g rule).Reads (marks ++ (found ++ suffix)) more false (lifetimes ++ (shown ++ called)) := by
  have begins : OpensPath (found ++ suffix ++ more) := opens.append.append
  -- The lifetimes are passed over in silence and printed before the path.
  have captured := reads_silent (reads_captured introduced)
  rw [← List.append_assoc] at captured
  change (traitBound g rule).Reads _ _ _ ([] ++ (lifetimes ++ (shown ++ called)))
  unfold traitBound
  refine Reads.bind captured (reads_here_bind fun pos => ?_)
  refine reads_look_neg begins.not_atBracket ?_
  refine Reads.after (reads_word?_none (begins.not_atWord (by simp))) ?_
  refine reads_here_bind fun pos' => ?_
  refine Reads.after (reads_punct?_none (begins.not_atPunct rfl (by decide))) ?_
  exact reads_pure.after (reads_traitPath path behind lifetimes)

theorem reads_traitBound (opens : OpensPath found)
    (head : ReadsHead g (found ++ (suffix ++ more)) marks passed)
    (path : (Grammar.path g false).Reads found (suffix ++ more) trait shown)
    (behind : ReadsCalled g trait suffix more called) :
    (traitBound g rule).Reads (marks ++ (found ++ suffix)) more false (passed ++ (shown ++ called)) := by
  have unbound : atWord "for" (found ++ (suffix ++ more)) = false := opens.append.not_atWord (by simp)
  cases head with
  | none => exact reads_traitBound_plain opens (reads_look_neg unbound reads_pure) path behind
  | binds introduced => exact reads_traitBound_plain opens (reads_look_pos rfl introduced) path behind
  | @optional joint start stop =>
    -- Lifetimes could stand only behind the mark, and a path begins there.
    have none : (silent (captured do
        if ← look (atWord "for") then boundLifetimes g : Reader (Unit × List Token))).Reads []
          (.punct '?' joint start stop :: (found ++ suffix) ++ more) ((), []) [] :=
      reads_silent (reads_captured (reads_look_neg rfl reads_pure))
    change (traitBound g rule).Reads (.punct '?' joint start stop :: (found ++ suffix)) _ _ _
    refine Reads.after none (reads_here_bind fun pos => reads_look_neg rfl ?_)
    refine Reads.after (reads_word?_none rfl) (reads_here_bind fun pos' => ?_)
    refine Reads.cons (reads_punct?_single rfl joint) (reads_look ?_)
    rw [List.append_assoc, unbound]
    exact reads_traitPath path behind []

end

/-- The head of a bound, and what follows it. -/
theorem exists_head_of_like {head : BoundHead} {rest found : List Token}
    (like : List.Forall₂ Token.Like found (head.tokens ++ rest)) :
    ∃ marks behind, found = marks ++ behind ∧ List.Forall₂ Token.Like behind rest ∧
      ∀ g more, ∃ passed, ReadsHead g more marks passed ∧
        Token.bareAll passed = Token.bareAll head.tokens := by
  cases head with
  | none => exact ⟨[], found, rfl, like, fun g more => ⟨[], .none, rfl⟩⟩
  | optional =>
    obtain ⟨joint, start, stop, behind, rfl, others⟩ := exists_mark_of_like like
    exact ⟨[.punct '?' joint start stop], behind, rfl, others, fun g more => ⟨_, .optional, rfl⟩⟩
  | binds names =>
    obtain ⟨start, stop, own, behind, rfl, others, lifetimes⟩ := exists_binder_of_like like
    refine ⟨_, behind, rfl, others, fun g more => ?_⟩
    obtain ⟨passed, introduced, bare⟩ := lifetimes g more
    exact ⟨passed, .binds introduced, bare⟩

/-- A trait is a bound, however it goes on behind its path. -/
theorem readsBound_of_path {head : BoundHead} {leading : Bool} {stem : List Word} {last : Word}
    {arguments : List TypeArgument} (isPath : IsPath leading stem last arguments)
    (reads : ∀ found, List.Forall₂ Token.Like found (pathTokens leading stem last ++ tokens) →
      ∀ depth more, 2 * Token.count found ≤ depth → Closes false more →
      ∃ first suffix trait shown called, found = first ++ suffix ∧ OpensPath first ∧
        (Grammar.path (upToDepth depth) false).Reads first (suffix ++ more) trait shown ∧
        ReadsCalled (upToDepth depth) trait suffix more called ∧
        (orderly = true → Token.bareAll (shown ++ called) =
          Token.bareAll (pathTokens leading stem last ++ tokens))) :
    ReadsBound orderly (head.tokens ++ (pathTokens leading stem last ++ tokens)) true := by
  constructor
  · intro found like more
    obtain ⟨marks, behind, rfl, like', heads⟩ := exists_head_of_like like
    have opens := isPath.opensPath like'
    obtain ⟨passed, head, -⟩ := heads (upToDepth 0) more
    cases head with
    | none =>
      refine ⟨?_, opens.append.atBound, opens.append.not_atPunct rfl (by decide)⟩
      rintro rfl
      cases opens
    | optional => exact ⟨by simp, fun rule => rfl, rfl⟩
    | binds => exact ⟨by simp, fun rule => rfl, rfl⟩
  · intro found like depth rule more enough closes
    obtain ⟨marks, behind, rfl, like', heads⟩ := exists_head_of_like like
    rw [Token.count_append] at enough
    obtain ⟨first, suffix, trait, shown, called, rfl, opens, path, later, erased⟩ :=
      reads behind like' depth more (by omega) closes
    obtain ⟨passed, head, bare⟩ := heads (upToDepth depth) (first ++ (suffix ++ more))
    refine ⟨.trait, passed ++ (shown ++ called), ?_, rfl, fun sorted => ?_⟩
    · have bound : (traitBound (upToDepth depth) rule).Reads (marks ++ (first ++ suffix)) more false
          (passed ++ (shown ++ called)) := reads_traitBound opens head path later
      have begins : OpensPath (first ++ suffix ++ more) := opens.append.append
      -- With or without its head, a trait begins with none of what the other bounds do.
      have unmarked : atLifetime (marks ++ (first ++ suffix) ++ more) = false ∧
          atWord "use" (marks ++ (first ++ suffix) ++ more) = false ∧
          atParen (marks ++ (first ++ suffix) ++ more) = false := by
        cases head with
        | none => exact ⟨begins.not_atLifetime, begins.not_atWord (by simp), begins.not_atParen⟩
        | optional => exact ⟨rfl, rfl, rfl⟩
        | binds => exact ⟨rfl, rfl, rfl⟩
      refine reads_here_bind fun pos => reads_look_neg unmarked.1 (reads_look_neg unmarked.2.1 ?_)
      have kept : (keepRaw id do
          if ← look atParen then parens (traitBound (upToDepth depth) rule)
          else traitBound (upToDepth depth) rule).Reads (marks ++ (first ++ suffix)) more false
            (passed ++ (shown ++ called)) := reads_keepRaw (reads_look_neg unmarked.2.2 bound) rfl
      exact kept.discard.followed reads_pure
    · simp only [Token.bareAll_append] at erased ⊢
      rw [bare, erased sorted]

theorem ReadsSuffix.bound {head : BoundHead} {leading : Bool} {stem : List Word} {last : Word}
    {arguments : List TypeArgument} (isPath : IsPath leading stem last arguments)
    (suffix : ReadsSuffix orderly tokens arguments) :
    ReadsBound orderly (head.tokens ++ (pathTokens leading stem last ++ tokens)) true := by
  refine readsBound_of_path isPath fun found like depth more enough closes => ?_
  have colons : atPunct "::" more = false := closes.atPunct_eq_false rfl (by decide)
  have paren : atParen more = false := by
    rcases closes with rfl | ⟨c, joint, start, stop, rest, rfl, _⟩ <;> rfl
  obtain ⟨answered, shown, reads, -, -, erased⟩ := isPath.reads suffix like
    (by omega : 2 * Token.count found ≤ depth + 1) (closes.atPunct_eq_false rfl (by decide)) colons
  refine ⟨found, [], _, shown, [], (List.append_nil _).symm, isPath.opensPath like, reads, ?_, ?_⟩
  · exact .inl ⟨rfl, rfl, paren, colons⟩
  · rw [List.append_nil]
    exact erased

theorem ReadsCall.bound {head : BoundHead} {leading : Bool} {stem : List Word} {last : Word}
    (isPath : IsPath leading stem last []) (call : ReadsCall orderly tokens) :
    ReadsBound orderly (head.tokens ++ (pathTokens leading stem last ++ tokens)) true := by
  refine readsBound_of_path isPath fun found like depth more enough closes => ?_
  obtain ⟨first, suffix, rfl, like₁, like₂⟩ := exists_append_of_like like
  rw [Token.count_append] at enough
  obtain ⟨called, reads, erased⟩ := call.reads suffix like₂ depth more (by omega) closes
    (discard (commaList (upToDepth depth).type)) (by simp [paramReaders])
  obtain ⟨inside, rest, rfl⟩ := call.opens
  obtain ⟨token, behind, own, _, rfl⟩ := List.forall₂_cons_right_iff.mp like₂
  cases own with
  | @group within _ like₃ _ start closing stop =>
    have own : List.Forall₂ Token.Like first (pathTokens leading stem last ++ []) := by
      rwa [List.append_nil]
    have none : ReadsSuffix orderly [] [] := readsSuffix_nil
    -- The parenthesis ends the path, which has no arguments of its own.
    have apart : atPunct "<" (.group .paren within start closing stop :: behind ++ more) = false := rfl
    obtain ⟨answered, shown, path, -, kept, erased'⟩ := isPath.reads none own
      (by omega : 2 * Token.count first ≤ depth + 1) apart rfl
    refine ⟨first, _, _, shown, called, rfl, isPath.opensPath own, path, ?_, fun sorted => ?_⟩
    · refine .inr ⟨?_, rfl, reads⟩
      rw [Path.lastArguments_segmentsOf, kept]
      rfl
    · rw [Token.bareAll_append, Token.bareAll_append, erased sorted, erased' sorted, List.append_nil]

/-- One turn of the reader of bounds. -/
def boundStep (g : Grammar) (plus : Bool) (rule : BoundRule) : Reader (Option (BoundKind × Bool)) := do
  let kind ← boundBy g rule
  if !plus then return some (kind, false)
  if ← punct? "+" then return some (kind, ← look (atBound rule))
  else return some (kind, false)

/-- The tokens are read as bounds, of which one is a trait or not. -/
structure ReadsBounds (orderly plus : Bool) (tokens : List Token) (trait : Bool) : Prop where
  opens : ∀ found, List.Forall₂ Token.Like found tokens → ∀ more,
    (∀ rule, atBound rule (found ++ more) = true) ∧ atPunct "*" (found ++ more) = false
  reads : ∀ found, List.Forall₂ Token.Like found tokens → ∀ depth rule more,
    2 * Token.count found ≤ depth → Closes plus more →
    ∃ pairs shown, ReadsSteps (boundStep (upToDepth depth) plus rule) found more pairs shown ∧
      (pairs.map Prod.fst).contains .trait = trait ∧
      (orderly = true → Token.bareAll shown = Token.bareAll tokens)

theorem ReadsBound.single {trait : Bool} (inner : ReadsBound orderly tokens trait) :
    ReadsBounds orderly plus tokens trait := by
  refine ⟨fun found like more => (inner.opens found like more).2, ?_⟩
  intro found like depth rule more enough closes
  obtain ⟨kind, shown, reads, same, erased⟩ :=
    inner.reads found like depth rule more enough closes.tight
  refine ⟨[(kind, false)], shown, readsSteps_last (reads.followed ?_), ?_, erased⟩
  · cases plus with
    | false => exact reads_pure
    | true => exact (reads_punct?_none closes.plus_eq_false).after reads_pure
  · rw [← same]
    simp [eq_comm]

theorem ReadsBound.cons {trait others : Bool} {rest : List Token}
    (inner : ReadsBound orderly tokens trait) (later : ReadsBounds orderly true rest others) :
    ReadsBounds orderly true (tokens ++ mark '+' :: rest) (trait || others) := by
  constructor
  · intro found like more
    obtain ⟨first, behind, rfl, like₁, -⟩ := exists_append_of_like like
    rw [List.append_assoc]
    exact (inner.opens first like₁ _).2
  · intro found like depth rule more enough closes
    obtain ⟨first, _, rfl, like₁, like₂⟩ := exists_append_of_like like
    obtain ⟨joint, start, stop, behind, rfl, like₃⟩ := exists_mark_of_like like₂
    simp only [Token.count_append, Token.count, Token.size] at enough
    obtain ⟨kind, shown, reads, same, erased⟩ := inner.reads first like₁ depth rule
      (.punct '+' joint start stop :: (behind ++ more)) (by omega)
      (.inr ⟨'+', joint, start, stop, _, rfl, by simp⟩)
    obtain ⟨pairs, shown', steps, same', erased'⟩ :=
      later.reads behind like₃ depth rule more (by omega) closes
    -- Behind the plus another bound begins, so the reader goes on.
    have again : atBound rule (behind ++ more) = true := (later.opens behind like₃ more).1 rule
    have own : (boundStep (upToDepth depth) true rule).Reads
        (first ++ [.punct '+' joint start stop]) (behind ++ more) (some (kind, true))
        (shown ++ [.punct '+' false start stop]) := by
      refine Reads.bind reads ((reads_punct?_single rfl joint).followed (reads_look ?_))
      rw [List.nil_append, again]
      exact reads_pure
    refine ⟨(kind, true) :: pairs, shown ++ [.punct '+' false start stop] ++ shown', ?_, ?_,
      fun sorted => ?_⟩
    · have both := readsSteps_cons (by simp) own steps
      simpa using both
    · rw [List.map_cons, List.contains_cons, same', ← same]
      congr 1
      cases kind <;> rfl
    · simp [Token.bareAll, Token.bare, erased sorted, erased' sorted, mark]

theorem ReadsBounds.traitBounds (inner : ReadsBounds orderly plus tokens true) {found : List Token}
    (like : List.Forall₂ Token.Like found tokens) {depth : Nat} (rule : BoundRule) {more : List Token}
    (enough : 2 * Token.count found ≤ depth) (closes : Closes plus more) :
    ∃ shown, (∀ start, (Grammar.traitBounds (upToDepth depth) plus rule start).Reads found more () shown) ∧
      (orderly = true → Token.bareAll shown = Token.bareAll tokens) := by
  obtain ⟨pairs, shown, steps, trait, erased⟩ := inner.reads found like depth rule more enough closes
  refine ⟨shown, fun start => ?_, erased⟩
  have bounds : (bounds (upToDepth depth) plus rule).Reads found more (pairs.map Prod.fst) shown :=
    steps.collect.followed reads_pure
  refine bounds.followed ?_
  rw [trait]
  exact reads_pure

/-- Bounds behind the word that introduces them are a type, which is kept as its tokens, if the form
of that word reads them. -/
theorem ReadsBounds.behind {word : Word} (inner : ReadsBounds true plus tokens true) (rule : BoundRule)
    (opens : OpensForm (named word :: tokens)) (unnamed : Unnamed (named word :: tokens))
    (form : ∀ start stop behind depth more shown, List.Forall₂ Token.Like behind tokens →
      (∀ pos, (Grammar.traitBounds (upToDepth depth) plus rule pos).Reads behind more () shown) →
      (typeForm (upToDepth depth) plus (.word word start stop :: (behind ++ more))).Reads
        (.word word start stop :: behind) more .shown ([.word word start stop] ++ shown)) :
    ReadsType orderly (named word :: tokens) plus (.other (named word :: tokens)) := by
  refine .of_form opens unnamed fun found like depth more enough closes => ?_
  obtain ⟨start, stop, behind, rfl, like'⟩ := exists_named_of_like like
  simp only [Token.count, Token.size] at enough
  obtain ⟨shown, bounded, erased⟩ := inner.traitBounds like' rule
    (by omega : 2 * Token.count behind ≤ depth) closes
  have bare : Token.bareAll (.word word start stop :: shown) =
      Token.bareAll (named word :: tokens) := by
    simp [Token.bareAll, Token.bare, named, erased]
  refine ⟨.shown, .word word start stop :: shown, form start stop behind depth more shown like' bounded,
    fun scope => ?_, fun _ => bare⟩
  simp only [TypeSketch.shown, TypeDesc.ofExpr, TypeDesc.ofTokens, Token.print_congr bare]

theorem ReadsBounds.dyn (inner : ReadsBounds true plus tokens true) :
    ReadsType orderly (named dynWord :: tokens) plus (.other (named dynWord :: tokens)) := by
  refine inner.behind ⟨false, false⟩ ⟨_, _, rfl, rfl, rfl⟩ (unnamed_of_head rfl)
    fun start stop behind depth more shown like bounded => ?_
  -- No star stands behind `dyn`, so the text is not kept as it is.
  change (dynType (upToDepth depth) plus).Reads _ _ _ _
  refine reads_here_bind fun pos => Reads.followed (Reads.discard (reads_keepRaw ?_ rfl)) reads_pure
  refine (reads_word rfl).cons ((reads_punct?_none (inner.opens behind like more).2).after ?_)
  exact (bounded pos).followed reads_pure

theorem ReadsBounds.impl (inner : ReadsBounds true plus tokens true) :
    ReadsType orderly (named implWord :: tokens) plus (.other (named implWord :: tokens)) := by
  refine inner.behind ⟨true, true⟩ ⟨_, _, rfl, rfl, rfl⟩ (unnamed_of_head rfl)
    fun start stop behind depth more shown _ bounded => ?_
  change (implType (upToDepth depth) plus).Reads _ _ _ _
  refine reads_here_bind fun pos => (reads_word rfl).cons ?_
  exact (bounded pos).followed reads_pure

/-! ### All parts -/

/-- What it means to read a part. -/
def Part.Read (orderly : Bool) (tokens : List Token) : Part → Prop
  | .type plus written => ReadsType orderly tokens plus written
  | .types written => ReadsTypes orderly tokens written
  | .argument written => ReadsArgument orderly tokens written
  | .arguments written => ReadsArguments orderly tokens written
  | .suffix written => ReadsSuffix orderly tokens written
  | .call => ReadsCall orderly tokens
  | .bound trait => ReadsBound orderly tokens trait
  | .bounds plus trait => ReadsBounds orderly plus tokens trait

theorem Spells.headed {arguments : List TypeArgument} (spells : Spells orderly tokens (.suffix arguments)) :
    tokens = [] ∨ ∃ rest, tokens = mark '<' :: rest := by
  cases spells with
  | noSuffix => exact .inl rfl
  | brackets => exact .inr ⟨_, rfl⟩

/-- What the grammar spells is read. -/
theorem Spells.read {part : Part} (spells : Spells orderly tokens part) :
    part.Read orderly tokens := by
  induction spells with
  | path isPath begins spelled suffix => exact isPath.readsType begins suffix spelled.headed
  | reference _ _ inner => exact ReadsType.reference inner
  | pointer _ inner => exact ReadsType.pointer inner
  | slice _ inner => exact ReadsType.slice inner
  | array _ isLength inner => exact ReadsType.array inner isLength
  | unit => exact ReadsType.unit
  | tuple _ _ inner others => exact ReadsType.tuple inner others
  | paren _ inner => exact ReadsType.paren inner
  | never => exact ReadsType.never
  | inferred => exact ReadsType.inferred
  | dyn _ inner => exact ReadsBounds.dyn inner
  | impl _ inner => exact ReadsBounds.impl inner
  | function _ _ inner => exact ReadsCall.function _ inner
  | noTypes => exact ReadsTypes.nil
  | lastType _ inner => exact ReadsTypes.single inner
  | moreTypes _ _ inner others => exact ReadsTypes.cons inner others
  | lifetime => exact readsArgument_lifetime _
  | typeArgument _ inner => exact ReadsType.argument inner
  | number => exact readsArgument_number _
  | item _ ident _ inner => exact ReadsType.item inner ident
  | lastArgument _ inner => exact ReadsArgument.single inner
  | moreArguments _ _ inner others => exact ReadsArgument.cons inner others
  | noSuffix => exact readsSuffix_nil
  | brackets sorted _ inner => exact ReadsArguments.suffix inner sorted
  | returnsNothing _ inner => exact ReadsTypes.call inner
  | returns _ _ inner output => exact ReadsTypes.callReturning inner output
  | outlives => exact readsBound_lifetime _
  | trait _ isPath _ suffix => exact ReadsSuffix.bound isPath suffix
  | callable _ isPath _ call => exact ReadsCall.bound isPath call
  | lastBound _ inner => exact ReadsBound.single inner
  | moreBounds _ _ inner others => exact ReadsBound.cons inner others

end

end StructInventory
