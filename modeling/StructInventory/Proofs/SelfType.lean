import StructInventory.Proofs.AcceptedItem
import StructInventory.Proofs.TypeText

/-!
The type `Self` in the signatures of methods. Where it stands as a type by itself, whatever lies
around it, the name of the type is printed for it. It is left over only in what is kept as text, such
as function types and lists of bounds, and in paths that it is the beginning of.
-/

namespace StructInventory

/-! ### Words of a text -/

namespace Text

/-- Characters of identifiers. A quote is one of them, so that a lifetime is a word of its own. -/
def isWordPart (c : Char) : Bool := isIdentContinue c || c = '\''

/-- The longest runs of such characters, with empty ones between other characters. -/
def identifiers (text : String) : List String :=
  (text.toList.splitOnP fun c => !isWordPart c).map String.ofList

/-- The identifier `Self` stands in a text. -/
def ShowsSelf (text : List Char) : Prop := "Self".toList ∈ text.splitOnP fun c => !isWordPart c

theorem mem_identifiers_iff {text : String} : "Self" ∈ identifiers text ↔ ShowsSelf text.toList := by
  unfold identifiers ShowsSelf
  constructor
  · intro member
    obtain ⟨run, listed, same⟩ := List.mem_map.mp member
    rwa [← same, String.toList_ofList]
  · intro listed
    exact List.mem_map.mpr ⟨_, listed, String.ofList_toList⟩

variable {before behind : List Char} {c : Char}

theorem showsSelf_append_cons (apart : isWordPart c = false) :
    ShowsSelf (before ++ c :: behind) ↔ ShowsSelf before ∨ ShowsSelf behind := by
  unfold ShowsSelf
  rw [List.splitOnP_append_cons before behind (by simpa using apart), List.mem_append]

theorem showsSelf_iff_of_word (word : before.all isWordPart = true) :
    ShowsSelf before ↔ before = "Self".toList := by
  unfold ShowsSelf
  rw [List.splitOnP_eq_singleton (by simpa using word), List.mem_singleton, eq_comm]

theorem not_showsSelf_nil : ¬ShowsSelf [] := by
  rw [showsSelf_iff_of_word (by simp)]
  decide

theorem showsSelf_cons (apart : isWordPart c = false) : ShowsSelf (c :: behind) ↔ ShowsSelf behind := by
  have split := @showsSelf_append_cons [] behind c apart
  simpa [not_showsSelf_nil] using split

theorem showsSelf_concat (apart : isWordPart c = false) :
    ShowsSelf (before ++ [c]) ↔ ShowsSelf before := by
  rw [showsSelf_append_cons apart]
  simp [not_showsSelf_nil]

end Text

open Text

theorem Ident.isWordPart (ident : Ident) : ident.text.toList.all isWordPart = true := by
  refine List.all_eq_true.mpr fun c member => ?_
  have continues := List.all_eq_true.mp ident.spelled c member
  simp [Text.isWordPart, continues]

theorem Ident.showsSelf_iff (ident : Ident) : ShowsSelf ident.text.toList ↔ ident.text = "Self" := by
  rw [showsSelf_iff_of_word ident.isWordPart, String.toList_inj]

/-- The mark of a raw identifier separates its name from what stands before. -/
theorem Word.Lexed.not_showsSelf_raw {ident : Ident} (lexed : Word.Lexed ⟨true, ident⟩)
    {mark : List Char} (isWord : mark.all Text.isWordPart = true) (other : mark ≠ "Self".toList) :
    ¬ShowsSelf (mark ++ '#' :: ident.text.toList) := by
  rw [showsSelf_append_cons (by decide), showsSelf_iff_of_word isWord, ident.showsSelf_iff]
  exact not_or.mpr ⟨other, lexed.name_ne_self rfl⟩

/-- A word with `Self` in it is that, since no raw identifier spells it. -/
theorem Word.Lexed.eq_self {word : Word} (lexed : word.Lexed) (shows : ShowsSelf word.text.toList) :
    word.text = "Self" := by
  obtain ⟨raw, name⟩ := word
  cases raw with
  | false => exact name.showsSelf_iff.mp shows
  | true =>
    have parts : ShowsSelf ("r".toList ++ '#' :: name.text.toList) := by
      simpa [Word.text] using shows
    exact absurd parts (lexed.not_showsSelf_raw (by decide) (by decide))

theorem IsLifetime.not_showsSelf {name : String} (isLifetime : IsLifetime name) :
    ¬ShowsSelf name.toList := by
  obtain ⟨⟨raw, ident⟩, lexed, rfl⟩ := isLifetime
  intro shows
  cases raw with
  | false =>
    have quoted : ShowsSelf ('\'' :: ident.text.toList) := by simpa [Word.text] using shows
    rw [showsSelf_iff_of_word] at quoted
    · exact absurd (List.cons.inj quoted).1 (by decide)
    · rw [List.all_cons, ident.isWordPart, Bool.and_true]
      decide
  | true =>
    have parts : ShowsSelf ("'r".toList ++ '#' :: ident.text.toList) := by
      simpa [Word.text] using shows
    exact lexed.not_showsSelf_raw (by decide) (by decide) parts

theorem Declarable.not_showsSelf {name : String} (declarable : Declarable name) :
    ¬ShowsSelf name.toList := by
  have other := declarable.ne_self
  obtain ⟨word, lexed, isIdent, rfl⟩ := declarable
  intro shows
  exact other (word.name.showsSelf_iff.mp shows)

/-! ### Texts of descriptors -/

namespace TypeDesc

variable {path : List String} {item : TypeDesc} {items args : List TypeDesc}

theorem showsSelf_path (shows : ShowsSelf (String.intercalate "::" path).toList) :
    ∃ name ∈ path, ShowsSelf name.toList := by
  rw [String.toList_intercalate] at shows
  induction path with
  | nil => exact absurd shows not_showsSelf_nil
  | cons name rest ih =>
    -- The colons belong to no identifier, so each name is seen by itself.
    by_cases last : rest = []
    · subst last
      exact ⟨name, by simp, by simpa using shows⟩
    · rw [List.map_cons, List.intercalate_cons_of_ne_nil (by simpa using last)] at shows
      have parts : ShowsSelf (name.toList ++ ':' :: ':' :: "::".toList.intercalate (rest.map String.toList)) := by
        simpa using shows
      rw [showsSelf_append_cons (by decide), showsSelf_cons (by decide)] at parts
      rcases parts with own | later
      · exact ⟨name, by simp, own⟩
      · obtain ⟨other, listed, own⟩ := ih later
        exact ⟨other, List.mem_cons_of_mem name listed, own⟩

/-- The members of a list behind its first one, and what stands before them. -/
theorem showsSelf_rest {before : List Char} :
    ShowsSelf (before ++ (textOfRest items).toList) ↔
      ShowsSelf before ∨ ∃ item ∈ items, ShowsSelf item.text.toList := by
  induction items generalizing before with
  | nil => simp [textOfRest]
  | cons item rest ih =>
    have text : before ++ (textOfRest (item :: rest)).toList =
        before ++ ',' :: ' ' :: (item.text.toList ++ (textOfRest rest).toList) := by simp [textOfRest]
    rw [text, showsSelf_append_cons (by decide), showsSelf_cons (by decide), ih, List.exists_mem_cons_iff]

theorem showsSelf_named :
    ShowsSelf (named path args).text.toList ↔
      ShowsSelf (String.intercalate "::" path).toList ∨ ∃ arg ∈ args, ShowsSelf arg.text.toList := by
  cases args with
  | nil => simp [text]
  | cons first rest =>
    have written : (named path (first :: rest)).text.toList = (String.intercalate "::" path).toList ++
        '<' :: ((first.text.toList ++ (textOfRest rest).toList) ++ ['>']) := by simp [text]
    rw [written, showsSelf_append_cons (by decide), showsSelf_concat (by decide), showsSelf_rest,
      List.exists_mem_cons_iff]

theorem showsSelf_slice : ShowsSelf (slice item).text.toList ↔ ShowsSelf item.text.toList := by
  have written : (slice item).text.toList = '[' :: (item.text.toList ++ [']']) := by simp [text]
  rw [written, showsSelf_cons (by decide), showsSelf_concat (by decide)]

theorem showsSelf_array {length : String} : ShowsSelf (array item length).text.toList ↔
    ShowsSelf item.text.toList ∨ ShowsSelf length.toList := by
  have written : (array item length).text.toList =
      '[' :: (item.text.toList ++ ';' :: ' ' :: (length.toList ++ [']'])) := by simp [text]
  rw [written, showsSelf_cons (by decide), showsSelf_append_cons (by decide), showsSelf_cons (by decide),
    showsSelf_concat (by decide)]

theorem showsSelf_tuple :
    ShowsSelf (tuple items).text.toList ↔ ∃ item ∈ items, ShowsSelf item.text.toList := by
  match items with
  | [] =>
    have none : ¬ShowsSelf ['(', ')'] := by
      rw [showsSelf_cons (by decide), showsSelf_cons (by decide)]
      exact not_showsSelf_nil
    simpa [text] using none
  | [item] =>
    have written : (tuple [item]).text.toList = '(' :: ((item.text.toList ++ [',']) ++ [')']) := by
      simp [text]
    rw [written, showsSelf_cons (by decide), showsSelf_concat (by decide), showsSelf_concat (by decide)]
    simp
  | first :: second :: rest =>
    have written : (tuple (first :: second :: rest)).text.toList =
        '(' :: ((first.text.toList ++ (textOfRest (second :: rest)).toList) ++ [')']) := by simp [text]
    rw [written, showsSelf_cons (by decide), showsSelf_concat (by decide), showsSelf_rest,
      List.exists_mem_cons_iff _ first]

theorem showsSelf_pointer {kind : PointerKind} {lifetime : Option String}
    (isLifetime : ∀ name ∈ lifetime, IsLifetime name)
    (shows : ShowsSelf (pointer kind lifetime item).text.toList) : ShowsSelf item.text.toList := by
  -- A lifetime is no place for `Self`, so only what stands behind it matters.
  have lived {behind : List Char} (shows : ShowsSelf
      ((lifetime.elim "&" fun name => "&" ++ name ++ " ").toList ++ behind)) : ShowsSelf behind := by
    cases lifetime with
    | none =>
      have parts : ShowsSelf ('&' :: behind) := by simpa using shows
      exact (showsSelf_cons (by decide)).mp parts
    | some name =>
      have parts : ShowsSelf ('&' :: (name.toList ++ ' ' :: behind)) := by simpa using shows
      rw [showsSelf_cons (by decide), showsSelf_append_cons (by decide)] at parts
      exact parts.resolve_left (isLifetime name rfl).not_showsSelf
  -- A word and a space stand before the target, or a name and an angle bracket.
  have behind {word : List Char} {c : Char} (isWord : word.all isWordPart = true)
      (other : word ≠ "Self".toList) (apart : isWordPart c = false)
      (shows : ShowsSelf (word ++ c :: item.text.toList)) : ShowsSelf item.text.toList := by
    rw [showsSelf_append_cons apart, showsSelf_iff_of_word isWord] at shows
    exact shows.resolve_left other
  have within {word : List Char} (isWord : word.all isWordPart = true)
      (other : word ≠ "Self".toList)
      (shows : ShowsSelf ((word ++ '<' :: item.text.toList) ++ ['>'])) : ShowsSelf item.text.toList :=
    behind isWord other (by decide) ((showsSelf_concat (by decide)).mp shows)
  cases kind with
  | ref => exact lived (by simpa [text, pointerFrame] using shows)
  | refMut =>
    have rest : ShowsSelf ("mut".toList ++ ' ' :: item.text.toList) :=
      lived (by simpa [text, pointerFrame] using shows)
    exact behind (by decide) (by decide) (by decide) rest
  | constPtr =>
    have rest : ShowsSelf ('*' :: ("const".toList ++ ' ' :: item.text.toList)) := by
      simpa [text, pointerFrame] using shows
    exact behind (by decide) (by decide) (by decide) ((showsSelf_cons (by decide)).mp rest)
  | mutPtr =>
    have rest : ShowsSelf ('*' :: ("mut".toList ++ ' ' :: item.text.toList)) := by
      simpa [text, pointerFrame] using shows
    exact behind (by decide) (by decide) (by decide) ((showsSelf_cons (by decide)).mp rest)
  | box => exact @within "Box".toList (by decide) (by decide) (by simpa [text, pointerFrame] using shows)
  | rc => exact @within "Rc".toList (by decide) (by decide) (by simpa [text, pointerFrame] using shows)
  | arc => exact @within "Arc".toList (by decide) (by decide) (by simpa [text, pointerFrame] using shows)

end TypeDesc

/-! ### Writing the name of the type -/

mutual

/-- The type with a name in the place of each `Self` that is a type by itself. What is kept as tokens
stays as it is. -/
def TypeExpr.withSelf (name : String) : TypeExpr → TypeExpr
  | .named segments [] tokens => .named (if segments = ["Self"] then [name] else segments) [] tokens
  | .named segments (first :: rest) tokens =>
    .named segments (first.withSelf name :: argumentsWithSelf name rest) tokens
  | .reference lifetime mutable target => .reference lifetime mutable (target.withSelf name)
  | .pointer mutable target => .pointer mutable (target.withSelf name)
  | .slice item => .slice (item.withSelf name)
  | .array item length => .array (item.withSelf name) length
  | .tuple items => .tuple (typesWithSelf name items)
  | .paren inner => .paren (inner.withSelf name)
  | .never => .never
  | .function tokens => .function tokens
  | .other tokens => .other tokens

def typesWithSelf (name : String) : List TypeExpr → List TypeExpr
  | [] => []
  | type :: rest => type.withSelf name :: typesWithSelf name rest

def TypeArgument.withSelf (name : String) : TypeArgument → TypeArgument
  | .lifetime lived => .lifetime lived
  | .type written => .type (written.withSelf name)
  | .other tokens => .other tokens

def argumentsWithSelf (name : String) : List TypeArgument → List TypeArgument
  | [] => []
  | argument :: rest => argument.withSelf name :: argumentsWithSelf name rest

end

/-- The text that tokens are printed as shows `Self`. -/
def KeptSelf (tokens : List Token) : Prop := "Self" ∈ identifiers (respace (Token.print tokens))

/-- `Self` stands where nothing is put in its place: in tokens, or among the segments of a path that
is more than this name. -/
inductive TypeExpr.KeepsSelf : TypeExpr → Prop where
  | path {segments : List String} {arguments : List TypeArgument} {tokens : List Token}
      (inside : "Self" ∈ segments) (longer : segments ≠ ["Self"] ∨ arguments ≠ []) :
      KeepsSelf (.named segments arguments tokens)
  | argument {segments : List String} {arguments : List TypeArgument} {tokens : List Token}
      {type : TypeExpr} (listed : .type type ∈ arguments) (inner : KeepsSelf type) :
      KeepsSelf (.named segments arguments tokens)
  | shown {segments : List String} {arguments : List TypeArgument} {tokens kept : List Token}
      (listed : .other kept ∈ arguments) (inside : KeptSelf kept) :
      KeepsSelf (.named segments arguments tokens)
  | reference {lifetime : Option String} {mutable : Bool} {target : TypeExpr} (inner : KeepsSelf target) :
      KeepsSelf (.reference lifetime mutable target)
  | pointer {mutable : Bool} {target : TypeExpr} (inner : KeepsSelf target) :
      KeepsSelf (.pointer mutable target)
  | slice {item : TypeExpr} (inner : KeepsSelf item) : KeepsSelf (.slice item)
  | array {item : TypeExpr} {length : List Token} (inner : KeepsSelf item) : KeepsSelf (.array item length)
  | length {item : TypeExpr} {length : List Token} (inside : KeptSelf length) :
      KeepsSelf (.array item length)
  | tuple {items : List TypeExpr} {item : TypeExpr} (listed : item ∈ items) (inner : KeepsSelf item) :
      KeepsSelf (.tuple items)
  | paren {type : TypeExpr} (inner : KeepsSelf type) : KeepsSelf (.paren type)
  | function {tokens : List Token} (inside : KeptSelf tokens) : KeepsSelf (.function tokens)
  | other {tokens : List Token} (inside : KeptSelf tokens) : KeepsSelf (.other tokens)

theorem typesWithSelf_eq_map (name : String) (types : List TypeExpr) :
    typesWithSelf name types = types.map (·.withSelf name) := by
  induction types with
  | nil => rfl
  | cons type rest ih => rw [typesWithSelf, ih, List.map_cons]

theorem argumentsWithSelf_eq_map (name : String) (arguments : List TypeArgument) :
    argumentsWithSelf name arguments = arguments.map (·.withSelf name) := by
  induction arguments with
  | nil => rfl
  | cons argument rest ih => rw [argumentsWithSelf, ih, List.map_cons]

/-! ### What is printed -/

namespace TypeDesc

/-- Descriptors that no printed type tells apart. -/
structure PrintsAlike (type other : TypeDesc) : Prop where
  text : type.text = other.text
  lifetime : type.isLifetime = other.isLifetime

variable {scope scope' : TypeScope} {path : List String} {args args' : List TypeDesc}

theorem textOfRest_congr (each : List.Forall₂ PrintsAlike args args') : textOfRest args = textOfRest args' := by
  induction each with
  | nil => rfl
  | cons alike _ ih => rw [textOfRest, textOfRest, alike.text, ih]

theorem printsAlike_tuple (each : List.Forall₂ PrintsAlike args args') :
    PrintsAlike (tuple args) (tuple args') := by
  refine ⟨?_, rfl⟩
  cases each with
  | nil => rfl
  | cons first rest =>
    have behind := textOfRest_congr rest
    cases rest with
    | nil => rw [text, text, first.text]
    | cons => simp only [text, first.text, behind]

theorem printsAlike_named (each : List.Forall₂ PrintsAlike args args') :
    PrintsAlike (named path args) (named path args') := by
  refine ⟨?_, rfl⟩
  cases each with
  | nil => rfl
  | cons first rest => rw [text, text, first.text, textOfRest_congr rest]

/-- A path with arguments means the same wherever it stands. -/
theorem printsAlike_ofPath (each : List.Forall₂ PrintsAlike args args') (some : args ≠ []) :
    PrintsAlike (ofPath scope path args) (ofPath scope' path args') := by
  have named : PrintsAlike (.named path args) (.named path args') := printsAlike_named each
  cases each with
  | nil => exact absurd rfl some
  | cons first rest =>
    rw [ofPath_eq (.inr (by simp)), ofPath_eq (.inr (by simp))]
    -- Only a path with one argument may be a pointer, and then its name says which.
    cases rest with
    | nil =>
      cases kind : path.getLast?.bind PointerKind.ofWrapper? with
      | none => simpa [wrapped?, kind] using named
      | some kind' =>
        simp only [wrapped?, kind, first.lifetime]
        split
        · exact named
        · exact ⟨by simp [text, first.text], rfl⟩
    | cons => simpa [wrapped?] using named

variable {params : List String} {name : String} {type : TypeExpr}

/-- A path without arguments: only `Self` depends on where it stands. -/
theorem printsAlike_bare (other : "Self" ∉ params) :
    PrintsAlike (ofPath ⟨params, some name⟩ path [])
      (ofPath ⟨params, none⟩ (if path = ["Self"] then [name] else path) []) := by
  by_cases self : path = ["Self"]
  · subst self
    have own : ofPath ⟨params, some name⟩ ["Self"] [] = .named [name] [] := by
      simp [ofPath, ofName, other]
    rw [own, if_pos rfl]
    simp only [ofPath, ofName]
    -- A parameter of this name is printed in the same way as the type is.
    split
    · exact ⟨by simp [text], rfl⟩
    · split <;> exact ⟨rfl, rfl⟩
  · rw [if_neg self]
    rcases path with _ | ⟨single, _ | ⟨second, rest⟩⟩
    · exact ⟨rfl, rfl⟩
    · have unlike : single ≠ "Self" := by simpa using self
      simp only [ofPath, ofName, if_neg unlike]
      split <;> exact ⟨rfl, rfl⟩
    · exact ⟨rfl, rfl⟩

theorem printsAlike_withSelf (other : "Self" ∉ params) (wellMade : type.WellMade) :
    PrintsAlike (ofExpr ⟨params, some name⟩ type) (ofExpr ⟨params, none⟩ (type.withSelf name)) := by
  induction wellMade with
  | @named leading stem last arguments tokens isPath begins lifetimes types ih =>
    have each : ∀ argument ∈ arguments, PrintsAlike (ofArgument ⟨params, some name⟩ argument)
        (ofArgument ⟨params, none⟩ (argument.withSelf name)) := by
      intro argument listed
      cases argument with
      | lifetime lived => exact ⟨rfl, rfl⟩
      | type written => exact ih written listed
      | other tokens => exact ⟨rfl, rfl⟩
    -- Without arguments the path may be `Self`; with arguments only they change.
    cases arguments with
    | nil => exact printsAlike_bare other
    | cons first rest =>
      rw [TypeExpr.withSelf, ofExpr, ofExpr, ofArguments, ofArguments, ofArguments_eq_map,
        argumentsWithSelf_eq_map, ofArguments_eq_map, List.map_map]
      rw [List.forall_mem_cons] at each
      refine printsAlike_ofPath (.cons each.1 ?_) (by simp)
      exact List.forall₂_map_left_iff.mpr (List.forall₂_map_right_iff.mpr (List.forall₂_same.mpr each.2))
  | reference _ _ ih => exact ⟨by simp [ofExpr, TypeExpr.withSelf, text, ih.text], rfl⟩
  | pointer _ ih => exact ⟨by simp [ofExpr, TypeExpr.withSelf, text, ih.text], rfl⟩
  | slice _ ih => exact ⟨by simp [ofExpr, TypeExpr.withSelf, text, ih.text], rfl⟩
  | array _ ih => exact ⟨by simp [ofExpr, TypeExpr.withSelf, text, ih.text], rfl⟩
  | tuple _ ih =>
    rw [TypeExpr.withSelf, typesWithSelf_eq_map, ofExpr, ofExpr, ofExprs_eq_map, ofExprs_eq_map, List.map_map]
    refine printsAlike_tuple ?_
    exact List.forall₂_map_left_iff.mpr (List.forall₂_map_right_iff.mpr (List.forall₂_same.mpr ih))
  | paren _ ih => exact ih
  | never | function | other => exact ⟨rfl, rfl⟩

/-! ### Where `Self` is left over -/

/-- Of the names of a path that can be written, only `Self` shows it. -/
theorem self_mem_pathNames {leading : Bool} {stem : List Word} {last : Word}
    {arguments : List TypeArgument} (isPath : IsPath leading stem last arguments)
    (shows : ShowsSelf (String.intercalate "::" (pathNames leading stem last)).toList) :
    "Self" ∈ pathNames leading stem last := by
  obtain ⟨segment, listed, own⟩ := showsSelf_path shows
  suffices segment = "Self" from this ▸ listed
  rw [pathNames, List.mem_append, List.mem_append, List.mem_singleton] at listed
  -- The root is an empty name, and the others are words of the text.
  rcases listed with root | before | rfl
  · have empty : segment = "" := by
      split at root
      · exact List.mem_singleton.mp root
      · cases root
    rw [empty] at own
    exact absurd own not_showsSelf_nil
  · obtain ⟨word, member, rfl⟩ := List.mem_map.mp before
    exact (isPath.stemLexed word member).eq_self own
  · exact isPath.lastLexed.eq_self own

/-- A path shows `Self` by one of its names or by one of its arguments. -/
theorem showsSelf_ofPath_cons {first : TypeDesc} {rest : List TypeDesc}
    (shows : ShowsSelf (ofPath scope path (first :: rest)).text.toList) :
    ShowsSelf (String.intercalate "::" path).toList ∨ ∃ arg ∈ first :: rest, ShowsSelf arg.text.toList := by
  rw [ofPath_eq (.inr (by simp))] at shows
  cases wrapped : wrapped? path (first :: rest) with
  | none =>
    rw [wrapped, Option.getD_none] at shows
    exact showsSelf_named.mp shows
  | some desc =>
    obtain ⟨kind, target, -, single, rfl⟩ := exists_of_wrapped? wrapped
    rw [wrapped, Option.getD_some] at shows
    exact .inr ⟨target, by simp [single], showsSelf_pointer (by simp) shows⟩

/-- A name by itself is a parameter, or `Self` and printed as the type's name, or another one. -/
theorem not_showsSelf_ofName {single : String} (other : "Self" ∉ params) (declarable : Declarable name)
    (written : ShowsSelf single.toList → single = "Self") :
    ¬ShowsSelf (ofName ⟨params, some name⟩ single).text.toList := by
  intro shows
  unfold ofName at shows
  split at shows
  next isParam =>
    have same := written (by simpa [text] using shows)
    exact other (by simpa [same] using isParam)
  next =>
    split at shows
    · exact declarable.not_showsSelf (by simpa [text] using shows)
    next unlike => exact unlike (written (by simpa [text] using shows))

/-- A printed type in which `Self` is left over was written with `Self` in a place where it stays. -/
theorem keepsSelf_of_shows (other : "Self" ∉ params) (declarable : Declarable name)
    (wellMade : type.WellMade) (shows : ShowsSelf (ofExpr ⟨params, some name⟩ type).text.toList) :
    type.KeepsSelf := by
  induction wellMade with
  | @named leading stem last arguments tokens isPath begins lifetimes types ih =>
    rw [ofExpr, ofArguments_eq_map] at shows
    cases arguments with
    | nil =>
      have inside := fun shows => self_mem_pathNames isPath shows
      generalize pathNames leading stem last = path at shows inside ⊢
      -- A single name never shows it: it is replaced where it is `Self`.
      rcases path with _ | ⟨single, _ | ⟨second, rest⟩⟩
      · exact absurd shows not_showsSelf_nil
      · refine absurd shows (not_showsSelf_ofName other declarable fun own => ?_)
        exact (List.mem_singleton.mp (inside (by simpa using own))).symm
      · exact .path (inside (by simpa [ofPath, wrapped?, text] using shows)) (.inl (by simp))
    | cons first rest =>
      -- Names of a path with arguments are not replaced.
      rcases showsSelf_ofPath_cons shows with inPath | ⟨desc, listed, own⟩
      · exact .path (self_mem_pathNames isPath inPath) (.inr (by simp))
      · rw [← List.map_cons] at listed
        obtain ⟨argument, member, rfl⟩ := List.mem_map.mp listed
        cases argument with
        | lifetime lived => exact absurd own (lifetimes lived member).not_showsSelf
        | type written => exact .argument member (ih written member own)
        | other kept => exact .shown member (mem_identifiers_iff.mpr own)
  | reference isLifetime _ ih => exact .reference (ih (showsSelf_pointer isLifetime shows))
  | pointer _ ih => exact .pointer (ih (showsSelf_pointer (by simp) shows))
  | slice _ ih => exact .slice (ih (showsSelf_slice.mp shows))
  | array _ ih =>
    rcases showsSelf_array.mp shows with inner | inside
    · exact .array (ih inner)
    · exact .length (mem_identifiers_iff.mpr inside)
  | tuple _ ih =>
    rw [ofExpr, ofExprs_eq_map] at shows
    obtain ⟨desc, listed, own⟩ := showsSelf_tuple.mp shows
    obtain ⟨item, member, rfl⟩ := List.mem_map.mp listed
    exact .tuple member (ih item member own)
  | paren _ ih => exact .paren (ih shows)
  | never =>
    have mark : ShowsSelf ['!'] := by simpa [ofExpr, text] using shows
    rw [showsSelf_cons (by decide)] at mark
    exact absurd mark not_showsSelf_nil
  | function => exact .function (mem_identifiers_iff.mpr shows)
  | other => exact .other (mem_identifiers_iff.mpr shows)

end TypeDesc

/-! ### Signatures -/

namespace SignatureDecl

/-- The types of a signature's results: the members of a tuple count one by one. -/
def outputs (decl : SignatureDecl) : List TypeExpr :=
  match decl.output with
  | none => []
  | some (.tuple items, _) => items
  | some (type, _) => [type]

/-- A type of a signature as it is shown: with `name` in the place of each `Self` that is a type by
itself, so that `Self` is left over only where it is kept. -/
structure Shows (generics : List String) (name : String) (type : TypeExpr) (shown : Variable) : Prop where
  text : shown.type.text = (TypeDesc.ofExpr ⟨generics, none⟩ (type.withSelf name)).text
  kept : "Self" ∈ identifiers shown.type.text → type.KeepsSelf

variable {params : List String} {name : String} {decl : SignatureDecl}

theorem outputs_wellMade (wellMade : decl.WellMade) : ∀ type ∈ decl.outputs, type.WellMade := by
  intro type listed
  unfold outputs at listed
  -- A tuple is taken apart, so its members are well made because it is.
  split at listed
  · cases listed
  next items pos output =>
    cases wellMade.output _ output with
    | tuple each => exact each type listed
  next result pos _ output =>
    rw [List.mem_singleton.mp listed]
    exact wellMade.output _ output

theorem results_eq (scope : TypeScope) (decl : SignatureDecl) :
    ∃ pos, results scope decl.output = decl.outputs.map fun type => ⟨"", .ofExpr scope type, true, pos⟩ := by
  obtain ⟨generics, receiver, params, output⟩ := decl
  cases output with
  | none => exact ⟨.first, rfl⟩
  | some result =>
    obtain ⟨type, pos⟩ := result
    exact ⟨pos, by cases type <;> rfl⟩

theorem shows_resolve (wellMade : decl.WellMade) (other : "Self" ∉ params) (declarable : Declarable name) :
    List.Forall₂ (Shows (params ++ decl.generics) name) (decl.params.map ParamDecl.type)
      (decl.resolve params name).params ∧
    List.Forall₂ (Shows (params ++ decl.generics) name) decl.outputs (decl.resolve params name).results := by
  have unselfed : "Self" ∉ params ++ decl.generics := by
    rw [List.mem_append, not_or]
    exact ⟨other, wellMade.generics⟩
  -- Parameters and results are resolved in the same scope.
  have shows {type : TypeExpr} {shown : Variable} (own : type.WellMade)
      (made : shown.type = .ofExpr ⟨params ++ decl.generics, some name⟩ type) :
      Shows (params ++ decl.generics) name type shown := by
    constructor
    · rw [made]
      exact (TypeDesc.printsAlike_withSelf unselfed own).text
    · rw [made, mem_identifiers_iff]
      exact TypeDesc.keepsSelf_of_shows unselfed declarable own
  constructor
  · refine List.forall₂_map_left_iff.mpr (List.forall₂_map_right_iff.mpr (List.forall₂_same.mpr ?_))
    exact fun param listed => shows (wellMade.params param listed) rfl
  · obtain ⟨pos, made⟩ := results_eq ⟨params ++ decl.generics, some name⟩ decl
    rw [resolve, made]
    refine List.forall₂_map_right_iff.mpr (List.forall₂_same.mpr ?_)
    exact fun type listed => shows (outputs_wellMade wellMade type listed) rfl

end SignatureDecl

namespace Package

variable {dir : PathText} {files : List ParsedFile} {features : List String} {named : NamedType}
  {file : ParsedFile} {block : ImplDecl} {decl : FunctionDecl}

/-- Every function that is built, in every block for a type, is among the type's methods, and the types
of its parameters and results are shown with the type's name for `Self`. -/
theorem method_shows_type_name
    (sources : ∀ file ∈ files, SourceFile.read file.text = .ok file.source)
    (inScope : named ∈ (ofFiles dir files features).scope.types) (inside : file ∈ files)
    (listed : block ∈ file.source.blocks) (built : Condition.enabled features block.conditions = true)
    (own : block.isFor named.name = true) (member : decl ∈ block.functions)
    (enabled : Condition.enabled features decl.conditions = true) :
    ∃ function ∈ named.methods, function.name = decl.name ∧ function.file = file.path ∧
      function.pos = decl.pos ∧
      List.Forall₂ (SignatureDecl.Shows (block.generics ++ decl.signature.generics) named.name)
        (decl.signature.params.map ParamDecl.type) function.signature.params ∧
      List.Forall₂ (SignatureDecl.Shows (block.generics ++ decl.signature.generics) named.name)
        decl.signature.outputs function.signature.results := by
  have wellMade := SourceFile.wellMade_block (sources file inside) block listed
  have declarable := declarable_of_mem sources inScope
  obtain ⟨params, results⟩ := SignatureDecl.shows_resolve (wellMade.functions decl member)
    wellMade.generics declarable
  refine ⟨decl.resolve file.path block.generics named.name, ?_, rfl, rfl, rfl, params, results⟩
  obtain ⟨found, -, rfl⟩ := exists_declaration inScope
  refine List.mem_flatMap.mpr ⟨file, inside, List.mem_flatMap.mpr ⟨block, ?_, ?_⟩⟩
  · exact List.mem_filter.mpr ⟨listed, by rw [built, Bool.true_and]; exact own⟩
  · exact List.mem_map.mpr ⟨decl, List.mem_filter.mpr ⟨member, enabled⟩, rfl⟩

/-- The types that the methods of a package show, of parameters and of results. -/
def shownTypes (package : Package) : List (String × List (List String × List String)) :=
  package.scope.types.map fun named => (named.name, named.methods.map fun function =>
    (function.signature.params.map (·.type.text), function.signature.results.map (·.type.text)))

/-- `Self` in a generic argument, in a tuple and behind a reference, and as a result in an array. -/
theorem method_shows_type_name_nested :
    let text := "pub struct P;\nimpl<T> P \x7b fn f(&self, a: Vec<(T, &Self)>) -> (Self, [Self; 2]) \x7b\x7d \x7d"
    ∃ source, SourceFile.read text = .ok source ∧
      let package := ofFiles ⟨"p"⟩ [⟨⟨"p/a.rs"⟩, text, source⟩] []
      shownTypes package = [("P", [(["Vec<(T, &P)>"], ["P", "[P; 2]"])])] ∧
      ∃ block ∈ source.blocks, ∃ decl ∈ block.functions, ∃ named ∈ package.scope.types,
        ∃ function ∈ named.methods, function.name = "f" ∧
          List.Forall₂ (SignatureDecl.Shows (block.generics ++ decl.signature.generics) "P")
            (decl.signature.params.map ParamDecl.type) function.signature.params ∧
          List.Forall₂ (SignatureDecl.Shows (block.generics ++ decl.signature.generics) "P")
            decl.signature.outputs function.signature.results := by
  intro text
  obtain ⟨source, done, texts⟩ := SourceFile.exists_read
    (show (SourceFile.read text).toOption.map (fun source =>
      shownTypes (ofFiles ⟨"p"⟩ [⟨⟨"p/a.rs"⟩, text, source⟩] [])) =
      some [("P", [(["Vec<(T, &P)>"], ["P", "[P; 2]"])])] by decide +kernel)
  obtain ⟨_, again, functions⟩ := SourceFile.exists_read
    (show (SourceFile.read text).toOption.map (fun source =>
      source.blocks.flatMap fun block => block.functions.map fun decl =>
        (decl.name, block.isFor "P" && Condition.enabled [] block.conditions &&
          Condition.enabled [] decl.conditions)) = some [("f", true)] by decide +kernel)
  -- Both views are of the same file.
  cases done.symm.trans again
  obtain ⟨named, inScope, shown⟩ := List.mem_map.mp (texts ▸ List.mem_singleton_self _)
  obtain ⟨block, listed, own⟩ := List.mem_flatMap.mp (functions ▸ List.mem_singleton_self _)
  obtain ⟨decl, member, known⟩ := List.mem_map.mp own
  simp only [Prod.mk.injEq, Bool.and_eq_true] at shown known
  obtain ⟨called, -⟩ := shown
  obtain ⟨declared, ⟨own, built⟩, enabled⟩ := known
  obtain ⟨function, method, same, -, -, shows⟩ := method_shows_type_name (by simpa using done) inScope
    (List.mem_singleton_self _) listed built (called ▸ own) member enabled
  rw [called] at shows
  exact ⟨source, done, texts, block, listed, decl, member, named, inScope, function, method,
    same.trans declared, shows⟩

/-- The type of a function is kept as its text, and `Self` with it. -/
theorem function_type_keeps_self :
    (SourceFile.read
        "pub struct P;\nimpl P \x7b pub fn f(&self, c: fn(Self) -> Self) \x7b\x7d \x7d\n").toOption.map
      (fun source => shownTypes (ofFiles ⟨"p"⟩ [⟨⟨"p/a.rs"⟩, "", source⟩] [])) =
      some [("P", [(["fn(Self) -> Self"], [])])] := by
  decide +kernel

end Package

end StructInventory
