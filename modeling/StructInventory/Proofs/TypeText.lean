import StructInventory.Proofs.TypeSpacing
import StructInventory.TypeDesc

/-!
The texts of type descriptors. Where the parts of a descriptor can be read from their texts, it can
be read from its own.
-/

namespace StructInventory

open Text Grammar Reader

namespace Token.Lays

variable {chars chars' : List Char} {tokens tokens' : List Token} {c d : Char}

/-- A text that a clear character begins may stand behind any other. -/
theorem append_clear (first : Lays chars tokens) (second : Lays (c :: chars') tokens')
    (clear : isClear c = true) : Lays (chars ++ c :: chars') (tokens ++ tokens') :=
  first.append second fun _ _ _ => ⟨by simp, clear_cons clear⟩

theorem cons_space (later : Lays chars tokens) : Lays (' ' :: chars) tokens :=
  space.append later (by simp)

theorem cons_mark (mark : c ∈ Lexeme.typeMarks) (later : Lays chars tokens) :
    Lays (c :: chars) (Grammar.mark c :: tokens) :=
  (Lays.mark mark .first .first).append later (by simp [runsOn])

theorem cons_colons (later : Lays chars tokens) : Lays (':' :: ':' :: chars) (colons ++ tokens) :=
  (marks (by decide) (by decide) .first .first .first .first).append later (by simp [runsOn])

/-- A word and a space behind it. -/
theorem cons_word {word : Word} (lexed : word.Lexed) (later : Lays chars tokens) :
    Lays (word.text.toList ++ ' ' :: chars) (named word :: tokens) :=
  (Lays.word lexed .first .first).append_clear later.cons_space (by decide)

theorem lifetime_space {name : String} (isLifetime : IsLifetime name) (later : Lays chars tokens) :
    Lays (name.toList ++ ' ' :: chars) (lifetimeToken name :: tokens) := by
  obtain ⟨word, lexed, rfl⟩ := isLifetime
  exact (Lays.lifetime lexed .first .first).append_clear later.cons_space (by decide)

theorem paren (inner : Lays chars tokens) :
    Lays ('(' :: (chars ++ [')'])) [groupToken .paren tokens] :=
  inner.group rfl rfl (by decide) .first .first .first

theorem bracket (inner : Lays chars tokens) :
    Lays ('[' :: (chars ++ [']'])) [groupToken .bracket tokens] :=
  inner.group rfl rfl (by decide) .first .first .first

end Token.Lays

open Token

/-- The names of a path are joined by colons. -/
theorem IsPath.lays {leading : Bool} {stem : List Word} {last : Word} {arguments : List TypeArgument}
    (isPath : IsPath leading stem last arguments) :
    Lays (String.intercalate "::" (pathNames leading stem last)).toList
      (pathTokens leading stem last) := by
  -- The induction is on the stem; a leading `::` comes from an empty first name.
  have names : ∀ stem : List Word, (∀ word ∈ stem, word.Lexed) →
      Lays ([':', ':'].intercalate ((stem.map Word.text ++ [last.text]).map String.toList))
        (stemTokens stem ++ [named last]) := by
    intro stem lexed
    induction stem with
    | nil => simpa [stemTokens, named] using Lays.word isPath.lastLexed .first .first
    | cons word rest ih =>
      rw [List.forall_mem_cons] at lexed
      have later := (ih lexed.2).cons_colons
      rw [List.map_cons, List.cons_append, List.map_cons, List.intercalate_cons_of_ne_nil (by simp)]
      have both := (Lays.word lexed.1 .first .first).append_clear later (by decide)
      simpa [stemTokens, named] using both
  rw [String.toList_intercalate]
  cases leading with
  | false => exact names stem isPath.stemLexed
  | true =>
    have later := (names stem isPath.stemLexed).cons_colons
    rw [pathNames, if_pos rfl, List.singleton_append, List.map_cons,
      List.intercalate_cons_of_ne_nil (by simp)]
    exact later

namespace TypeDesc

variable {scope : TypeScope}

/-- The text of a descriptor is spelled by the grammar as a type that it describes. -/
def Spelled (scope : TypeScope) (plus : Bool) (desc : TypeDesc) : Prop :=
  ∃ tokens again, Spells false tokens (.type plus again) ∧ Lays desc.text.toList tokens ∧
    ofExpr scope again = desc

/-- The text of a descriptor is spelled by the grammar as a generic argument that it describes. -/
def SpelledArgument (scope : TypeScope) (desc : TypeDesc) : Prop :=
  ∃ tokens again, Spells false tokens (.argument again) ∧ Lays desc.text.toList tokens ∧
    ofArgument scope again = desc

theorem Spelled.argument {desc : TypeDesc} (spelled : Spelled scope true desc) :
    SpelledArgument scope desc := by
  obtain ⟨tokens, again, spells, lays, same⟩ := spelled
  exact ⟨tokens, .type again, .typeArgument spells, lays, same⟩

/-! ### Lists -/

theorem ofExprs_eq_map (types : List TypeExpr) : ofExprs scope types = types.map (ofExpr scope) := by
  induction types with
  | nil => rfl
  | cons type rest ih => rw [ofExprs, ih, List.map_cons]

theorem ofArguments_eq_map (arguments : List TypeArgument) :
    ofArguments scope arguments = arguments.map (ofArgument scope) := by
  induction arguments with
  | nil => rfl
  | cons argument rest ih => rw [ofArguments, ih, List.map_cons]

/-- Members that commas join, in a list of types or of arguments. -/
theorem spelled_list {α : Type} {one : α → Part} {many : List α → Part} {describe : α → TypeDesc}
    (final : ∀ tokens item, Spells false tokens (one item) → Spells false tokens (many [item]))
    (more : ∀ tokens item behind next others, Spells false tokens (one item) →
      Spells false behind (many (next :: others)) →
      Spells false (tokens ++ mark ',' :: behind) (many (item :: next :: others)))
    {first : TypeDesc} {rest : List TypeDesc}
    (each : ∀ desc ∈ first :: rest, ∃ tokens item, Spells false tokens (one item) ∧
      Lays desc.text.toList tokens ∧ describe item = desc) :
    ∃ tokens items, Spells false tokens (many items) ∧
      Lays (first.text ++ textOfRest rest).toList tokens ∧ items.map describe = first :: rest := by
  induction rest generalizing first with
  | nil =>
    obtain ⟨tokens, item, spells, lays, same⟩ := each first (by simp)
    exact ⟨tokens, [item], final _ _ spells, by simpa [textOfRest] using lays, by simp [same]⟩
  | cons next rest ih =>
    rw [List.forall_mem_cons] at each
    obtain ⟨tokens, item, spells, lays, same⟩ := each.1
    obtain ⟨behind, others, spells', lays', same'⟩ := ih each.2
    obtain ⟨other, others, rfl⟩ : ∃ other rest, others = other :: rest :=
      List.exists_cons_of_ne_nil (by rintro rfl; cases same')
    refine ⟨_, item :: other :: others, more _ _ _ _ _ spells spells', ?_, by rw [List.map_cons, same, same']⟩
    -- A comma ends any token, so the list behind it is laid out as by itself.
    have both := lays.append_clear (lays'.cons_space.cons_mark (c := ',') (by decide)) (by decide)
    simpa [textOfRest] using both

/-- What stands behind a name: its arguments in angle brackets, if it has any. -/
def suffixText : List TypeDesc → String
  | [] => ""
  | first :: rest => "<" ++ text first ++ textOfRest rest ++ ">"

theorem text_named (path : List String) (args : List TypeDesc) :
    (named path args).text = String.intercalate "::" path ++ suffixText args := by
  cases args with
  | nil => simp [text, suffixText]
  | cons first rest => simp [text, suffixText, String.append_assoc]

theorem spelled_suffix {args : List TypeDesc} (each : ∀ desc ∈ args, SpelledArgument scope desc) :
    ∃ tokens again, Spells false tokens (.suffix again) ∧ ofArguments scope again = args ∧
      ∀ chars path, Lays chars path → Lays (chars ++ (suffixText args).toList) (path ++ tokens) := by
  cases args with
  | nil => exact ⟨[], [], .noSuffix, rfl, fun _ _ lays => by simpa [suffixText] using lays⟩
  | cons first rest =>
    obtain ⟨tokens, again, spells, lays, same⟩ :=
      spelled_list (fun _ _ => .lastArgument) (fun _ _ _ _ _ => .moreArguments) each
    refine ⟨_, again, .brackets (by simp) spells, by rw [ofArguments_eq_map, same], fun chars path own => ?_⟩
    have closing : Lays ['>'] [mark '>'] := Lays.mark (by decide) .first .first
    have closed := lays.append_clear closing (by decide)
    have both := own.append_clear (closed.cons_mark (c := '<') (by decide)) (by decide)
    simpa [suffixText] using both

/-! ### Names -/

/-- A path with arguments, where its descriptor is no other than the one it is written as. -/
theorem spelled_named {leading : Bool} {stem : List Word} {last : Word} {args : List TypeDesc}
    {arguments : List TypeArgument} {plus : Bool} (isPath : IsPath leading stem last arguments)
    (begins : leading = true ∨ ((stem ++ [last]).head (by simp)).beginsPath = true)
    (described : ofArguments scope arguments = args)
    (each : ∀ desc ∈ args, SpelledArgument scope desc) {desc : TypeDesc}
    (same : ofPath scope (pathNames leading stem last) args = desc)
    (written : desc.text = String.intercalate "::" (pathNames leading stem last) ++ suffixText args) :
    Spelled scope plus desc := by
  obtain ⟨tokens, again, spells, same', lays⟩ := spelled_suffix each
  -- No arguments are described only by no arguments.
  have takes : IsPath leading stem last again := by
    refine { isPath with takes := isPath.takes.imp (fun none => ?_) id }
    rw [none] at described
    rw [← described] at same'
    cases again with
    | nil => rfl
    | cons => cases same'
  refine ⟨_, _, .path takes begins spells, ?_, ?_⟩
  · rw [written, String.toList_append]
    exact lays _ _ isPath.lays
  · rw [ofExpr, same', same]

end TypeDesc

/-- What `Self` stands for can be written by itself, and is no parameter. -/
def TypeScope.NamesSelf (scope : TypeScope) : Prop :=
  ∀ name ∈ scope.selfName, name ∉ scope.params ∧
    ∃ word : Word, word.Lexed ∧ word.isIdent = true ∧ word.text = name

namespace TypeDesc

variable {scope : TypeScope} {plus : Bool}

theorem isPath_of_beginsPath {word : Word} (lexed : word.Lexed) (begins : word.beginsPath = true) :
    IsPath false [] word [] := by
  refine ⟨by simp, by simp, lexed, ?_, .inl rfl⟩
  simp only [Word.beginsPath, pathWords, List.contains_cons, Bool.or_eq_true, List.contains_nil] at begins
  simp only [Word.isSegment, bareWords, List.contains_cons, Bool.or_eq_true]
  tauto

/-- A name by itself, where it is its own descriptor's text. -/
theorem spelled_name {word : Word} (lexed : word.Lexed) (begins : word.beginsPath = true)
    (written : (ofName scope word.text).text = word.text) :
    Spelled scope plus (ofName scope word.text) := by
  have none : ofArguments scope [] = [] := rfl
  refine spelled_named (isPath_of_beginsPath lexed begins) (.inr begins) none (by simp) rfl ?_
  simpa [suffixText, pathNames] using written

theorem spelled_ofName {word : Word} (lexed : word.Lexed) (begins : word.beginsPath = true)
    (namesSelf : scope.NamesSelf) : Spelled scope plus (ofName scope word.text) := by
  have own (other : scope.params.contains word.text = true ∨ word.text ≠ "Self" ∨ scope.selfName = none) :
      Spelled scope plus (ofName scope word.text) := by
    refine spelled_name lexed begins ?_
    unfold ofName
    split
    · rfl
    · split
      · rcases other with other | other | other
        · contradiction
        · contradiction
        · simp [other, text]
      · simp [text]
  by_cases param : scope.params.contains word.text = true
  · exact own (.inl param)
  by_cases self : word.text = "Self"
  · cases named : scope.selfName with
    | none => exact own (.inr (.inr named))
    | some name =>
      -- The name that `Self` stands for is written instead of it.
      obtain ⟨apart, written, lexed', ident, rfl⟩ := namesSelf name (by simp [named])
      have unbound : "Self" ∉ scope.params := by simpa [self] using param
      have same : ofName scope word.text = ofName scope written.text := by
        simp [ofName, unbound, self, apart, named]
      rw [same]
      refine spelled_name lexed' (by simp [Word.beginsPath, ident]) ?_
      simp [ofName, apart, named, text]
  · exact own (.inr (.inl self))

/-- The names of pointers are names, and their texts say which. -/
theorem of_ofWrapper? {name : String} {kind : PointerKind} (found : PointerKind.ofWrapper? name = some kind) :
    reserved.contains name = false ∧ bareWords.contains name = false ∧
      pointerFrame kind none = (name ++ "<", ">") := by
  unfold PointerKind.ofWrapper? at found
  split at found
  next same =>
    cases found
    subst same
    exact ⟨by decide, by decide, rfl⟩
  split at found
  next same =>
    cases found
    subst same
    exact ⟨by decide, by decide, rfl⟩
  split at found
  next same =>
    cases found
    subst same
    exact ⟨by decide, by decide, rfl⟩
  cases found

theorem ofPath_eq {path : List String} {args : List TypeDesc} (several : path.length ≠ 1 ∨ args ≠ []) :
    ofPath scope path args = (wrapped? path args).getD (.named path args) := by
  unfold ofPath
  split
  · simp at several
  · rfl

/-- What a path with one argument may be instead of a name. -/
theorem exists_of_wrapped? {path : List String} {args : List TypeDesc} {desc : TypeDesc}
    (found : wrapped? path args = some desc) :
    ∃ kind target, path.getLast?.bind PointerKind.ofWrapper? = some kind ∧ args = [target] ∧
      desc = .pointer kind none target := by
  unfold wrapped? at found
  split at found
  next kind target wrapper =>
    split at found
    · cases found
    · cases found
      exact ⟨kind, target, wrapper, rfl, rfl⟩
  · cases found

theorem spelled_ofPath {leading : Bool} {stem : List Word} {last : Word} {args : List TypeDesc}
    {arguments : List TypeArgument} (isPath : IsPath leading stem last arguments)
    (begins : leading = true ∨ ((stem ++ [last]).head (by simp)).beginsPath = true)
    (described : ofArguments scope arguments = args)
    (each : ∀ desc ∈ args, SpelledArgument scope desc) (namesSelf : scope.NamesSelf) :
    Spelled scope plus (ofPath scope (pathNames leading stem last) args) := by
  -- A single name may be a parameter or `Self`; every other path may be a pointer.
  by_cases lone : (pathNames leading stem last).length = 1 ∧ args = []
  · obtain ⟨single, rfl⟩ := lone
    obtain ⟨rfl, rfl⟩ : leading = false ∧ stem = [] := by
      cases leading <;> simp_all [pathNames]
    exact spelled_ofName isPath.lastLexed (begins.resolve_left (by simp)) namesSelf
  have several : (pathNames leading stem last).length ≠ 1 ∨ args ≠ [] := by
    by_contra both
    exact lone (by simpa using both)
  cases found : wrapped? (pathNames leading stem last) args with
  | none =>
    have same : ofPath scope (pathNames leading stem last) args = .named (pathNames leading stem last) args := by
      rw [ofPath_eq several, found]
      rfl
    rw [same]
    exact spelled_named isPath begins described each same (text_named _ _)
  | some desc =>
    -- Only the last name of a pointer is written.
    have ends : (pathNames leading stem last).getLast? = some last.text := by simp [pathNames]
    have alone : wrapped? [last.text] args = some desc := by
      rw [← found]
      simp [wrapped?, ends]
    obtain ⟨kind, target, wrapper, rfl, rfl⟩ := exists_of_wrapped? alone
    have wrapper : PointerKind.ofWrapper? last.text = some kind := wrapper
    obtain ⟨unreserved, takes, frame⟩ := of_ofWrapper? wrapper
    have ident : last.isIdent = true := by
      rw [Word.isIdent, unreserved]
      rfl
    have short : IsPath false [] last arguments :=
      ⟨by simp, by simp, isPath.lastLexed, isPath.lastSegment, .inr takes⟩
    rw [ofPath_eq several, found]
    refine spelled_named short (.inr (by simp [Word.beginsPath, ident])) described each ?_ ?_
    · change ofPath scope [last.text] [target] = _
      rw [ofPath_eq (.inr (by simp)), alone]
      rfl
    · simp [text, frame, suffixText, textOfRest, pathNames, String.append_assoc]

/-! ### Other types -/

namespace Spelled

variable {item target : TypeDesc}

theorem reference {lifetime : Option String} {mutable : Bool} (spelled : Spelled scope false target)
    (isLifetime : ∀ name ∈ lifetime, IsLifetime name) :
    Spelled scope plus (.pointer (if mutable then .refMut else .ref) lifetime target) := by
  obtain ⟨tokens, again, spells, lays, same⟩ := spelled
  refine ⟨_, .reference lifetime mutable again, .reference isLifetime spells, ?_, by rw [ofExpr, same]⟩
  have inner : Lays ((if mutable then "mut " else "") ++ target.text).toList
      (optionalWord mutable mutWord ++ tokens) := by
    cases mutable with
    | true =>
      have own := lays.cons_word mutWord_lexed
      simpa [show mutWord.text = "mut" from rfl, optionalWord] using own
    | false => simpa [optionalWord] using lays
  cases lifetime with
  | none =>
    have whole := inner.cons_mark (c := '&') (by decide)
    cases mutable <;> simpa [text, pointerFrame] using whole
  | some name =>
    have whole := (inner.lifetime_space (isLifetime name rfl)).cons_mark (c := '&') (by decide)
    cases mutable <;> simpa [text, pointerFrame] using whole

theorem pointer {mutable : Bool} (spelled : Spelled scope false target) :
    Spelled scope plus (.pointer (if mutable then .mutPtr else .constPtr) none target) := by
  obtain ⟨tokens, again, spells, lays, same⟩ := spelled
  refine ⟨_, .pointer mutable again, .pointer spells, ?_, by rw [ofExpr, same]⟩
  cases mutable with
  | true =>
    have whole := (lays.cons_word mutWord_lexed).cons_mark (c := '*') (by decide)
    simpa [text, pointerFrame, show mutWord.text = "mut" from rfl] using whole
  | false =>
    have whole := (lays.cons_word constWord_lexed).cons_mark (c := '*') (by decide)
    simpa [text, pointerFrame, show constWord.text = "const" from rfl] using whole

theorem slice (spelled : Spelled scope true item) : Spelled scope plus (.slice item) := by
  obtain ⟨tokens, again, spells, lays, same⟩ := spelled
  refine ⟨_, .slice again, .slice spells, ?_, by rw [ofExpr, same]⟩
  simpa [text] using lays.bracket

theorem array {length : Token} (spelled : Spelled scope true item) (isLength : IsLength length) :
    Spelled scope plus (.array item (respace (Token.print [length]))) := by
  obtain ⟨tokens, again, spells, lays, same⟩ := spelled
  refine ⟨_, .array again [length], .array spells isLength, ?_, by rw [ofExpr, same]⟩
  have measured := isLength.sound.lays_respace.cons_space.cons_mark (c := ';') (by decide)
  have whole := (lays.append_clear measured (by decide)).bracket
  simpa [text] using whole

theorem tuple {items : List TypeDesc} (each : ∀ item ∈ items, Spelled scope true item) :
    Spelled scope plus (.tuple items) := by
  -- A comma is printed behind a single member, and between several.
  match items with
  | [] => exact ⟨_, .tuple [], .unit, by simpa [text] using Lays.nil.paren, rfl⟩
  | [item] =>
    obtain ⟨tokens, again, spells, lays, same⟩ := each item (by simp)
    refine ⟨_, .tuple [again], .tuple spells .noTypes, ?_, by rw [ofExpr, ofExprs, ofExprs, same]⟩
    have comma : Lays [','] [mark ','] := Lays.mark (by decide) .first .first
    have whole := (lays.append_clear comma (by decide)).paren
    simpa [text] using whole
  | first :: second :: rest =>
    rw [List.forall_mem_cons] at each
    obtain ⟨tokens, again, spells, lays, same⟩ := each.1
    obtain ⟨tokens', others, spells', lays', same'⟩ :=
      spelled_list (fun _ _ => .lastType) (fun _ _ _ _ _ => .moreTypes) each.2
    refine ⟨_, .tuple (again :: others), .tuple spells spells', ?_, ?_⟩
    · have comma := lays'.cons_space.cons_mark (c := ',') (by decide)
      have whole := (lays.append_clear comma (by decide)).paren
      simpa [text, textOfRest] using whole
    · rw [ofExpr, ofExprs, same, ofExprs_eq_map, same']

end Spelled

theorem ofTokens_bareAll (tokens : List Token) : ofTokens (bareAll tokens) = ofTokens tokens := by
  simp only [ofTokens, Token.print, chars_bareAll]

/-- A type that is described by its tokens. -/
theorem spelled_ofTokens {tokens : List Token} {again : TypeExpr}
    (spells : Spells false (bareAll tokens) (.type plus again))
    (same : ofExpr scope again = ofTokens (bareAll tokens)) : Spelled scope plus (ofTokens tokens) := by
  rw [← ofTokens_bareAll]
  exact ⟨_, again, spells, spells.sound.lays_respace, same⟩

theorem spelledArgument_ofTokens {tokens : List Token}
    (spells : Spells false (bareAll tokens) (.argument (.other (bareAll tokens)))) :
    SpelledArgument scope (ofTokens tokens) := by
  rw [← ofTokens_bareAll]
  exact ⟨_, _, spells, spells.sound.lays_respace, rfl⟩

end TypeDesc

end StructInventory
