import StructInventory.Proofs.PathRun

/-!
A grammar of types: which tokens spell a type, and the parts that a type is made of.
-/

namespace StructInventory

open Grammar

/-- What tokens may spell: a type, where `plus` tells whether `+` may join bounds in it, or a part of
one. `suffix` is what stands behind the last segment of a path. -/
inductive Part where
  | type (plus : Bool) (type : TypeExpr)
  | types (types : List TypeExpr)
  | argument (argument : TypeArgument)
  | arguments (arguments : List TypeArgument)
  | suffix (arguments : List TypeArgument)
  | call
  | bound (trait : Bool)
  | bounds (plus trait : Bool)

/-- The name of a lifetime, with its quote. -/
def IsLifetime (name : String) : Prop := ∃ word : Word, word.Lexed ∧ name = "'" ++ word.text

def TypeArgument.isLifetime : TypeArgument → Bool
  | .lifetime _ => true
  | .type _ | .other _ => false

/-- A path that a text can write, behind whose last segment `arguments` stand. -/
structure IsPath (leading : Bool) (stem : List Word) (last : Word) (arguments : List TypeArgument) :
    Prop where
  stemLexed : ∀ word ∈ stem, word.Lexed
  stemSegments : ∀ word ∈ stem, word.isSegment = true
  lastLexed : last.Lexed
  lastSegment : last.isSegment = true
  takes : arguments = [] ∨ bareWords.contains last.text = false

/-- The names of a path; a leading `::` is an empty one. -/
def pathNames (leading : Bool) (stem : List Word) (last : Word) : List String :=
  (if leading then [""] else []) ++ (stem.map Word.text ++ [last.text])

def keyword (name : String) (nonempty : name.toList ≠ [])
    (spelled : name.toList.all Text.isIdentContinue = true) : Word := ⟨false, ⟨name, nonempty, spelled⟩⟩

def mutWord : Word := keyword "mut" (by decide) (by decide)
def constWord : Word := keyword "const" (by decide) (by decide)
def dynWord : Word := keyword "dyn" (by decide) (by decide)
def implWord : Word := keyword "impl" (by decide) (by decide)
def unsafeWord : Word := keyword "unsafe" (by decide) (by decide)
def fnWord : Word := keyword "fn" (by decide) (by decide)
def forWord : Word := keyword "for" (by decide) (by decide)

/-- A token that no text wrote. -/
def lifetimeToken (name : String) : Token := .lifetime name .first .first
def literalToken (text : String) : Token := .literal text .first .first
def groupToken (delimiter : Delimiter) (inside : List Token) : Token :=
  .group delimiter inside .first .first .first

def arrow : List Token := [.punct '-' true .first .first, mark '>']

/-- A word that may be left out. -/
def optionalWord (written : Bool) (word : Word) : List Token := if written then [named word] else []

/-- Lifetimes with commas between them. -/
def lifetimeTokens : List String → List Token
  | [] => []
  | [name] => [lifetimeToken name]
  | name :: next :: rest => lifetimeToken name :: mark ',' :: lifetimeTokens (next :: rest)

/-- The lifetimes that a bound or a function type introduces, if it does. -/
def binder : Option (List String) → List Token
  | none => []
  | some names => named forWord :: mark '<' :: (lifetimeTokens names ++ [mark '>'])

/-- A function type behind the lifetimes that it introduces. -/
def functionTokens (isUnsafe : Bool) (tokens : List Token) : List Token :=
  optionalWord isUnsafe unsafeWord ++ named fnWord :: tokens

/-- What may stand before the path of a trait: the mark of an optional one, or lifetimes. -/
inductive BoundHead where
  | none
  | optional
  | binds (names : List String)

namespace BoundHead

def tokens : BoundHead → List Token
  | none => []
  | optional => [mark '?']
  | binds names => binder (some names)

def WellMade : BoundHead → Prop
  | none | optional => True
  | binds names => ∀ name ∈ names, IsLifetime name

end BoundHead

/-- The length of an array, as far as it is one token. -/
inductive IsLength : Token → Prop where
  | count {text : String} (count : Literal.IsCount text.toList) : IsLength (literalToken text)
  | name {word : Word} (lexed : word.Lexed) (ident : word.isIdent = true) : IsLength (named word)

/-- Tokens spell a part of a type. Where they are `orderly`, lifetimes stand before all other
arguments; what is kept as tokens is so throughout. -/
inductive Spells : Bool → List Token → Part → Prop where
  | path {orderly plus leading : Bool} {stem : List Word} {last : Word}
      {arguments : List TypeArgument} {tokens : List Token}
      (isPath : IsPath leading stem last arguments)
      (begins : leading = true ∨ ((stem ++ [last]).head (by simp)).beginsPath = true)
      (suffix : Spells orderly tokens (.suffix arguments)) :
      Spells orderly (pathTokens leading stem last ++ tokens)
        (.type plus (.named (pathNames leading stem last) arguments []))
  | reference {orderly plus mutable : Bool} {lifetime : Option String} {target : TypeExpr}
      {tokens : List Token} (isLifetime : ∀ name ∈ lifetime, IsLifetime name)
      (spelled : Spells orderly tokens (.type false target)) :
      Spells orderly
        (mark '&' :: ((lifetime.map lifetimeToken).toList ++
          (optionalWord mutable mutWord ++ tokens)))
        (.type plus (.reference lifetime mutable target))
  | pointer {orderly plus mutable : Bool} {target : TypeExpr} {tokens : List Token}
      (spelled : Spells orderly tokens (.type false target)) :
      Spells orderly (mark '*' :: named (if mutable then mutWord else constWord) :: tokens)
        (.type plus (.pointer mutable target))
  | slice {orderly plus : Bool} {item : TypeExpr} {tokens : List Token}
      (spelled : Spells orderly tokens (.type true item)) :
      Spells orderly [groupToken .bracket tokens] (.type plus (.slice item))
  | array {orderly plus : Bool} {item : TypeExpr} {tokens : List Token} {length : Token}
      (spelled : Spells orderly tokens (.type true item)) (isLength : IsLength length) :
      Spells orderly [groupToken .bracket (tokens ++ [mark ';', length])]
        (.type plus (.array item [length]))
  | unit {orderly plus : Bool} : Spells orderly [groupToken .paren []] (.type plus (.tuple []))
  | tuple {orderly plus : Bool} {first : TypeExpr} {types : List TypeExpr} {tokens rest : List Token}
      (spelled : Spells orderly tokens (.type true first)) (others : Spells orderly rest (.types types)) :
      Spells orderly [groupToken .paren (tokens ++ mark ',' :: rest)]
        (.type plus (.tuple (first :: types)))
  | paren {orderly plus : Bool} {inner : TypeExpr} {tokens : List Token}
      (spelled : Spells orderly tokens (.type true inner)) :
      Spells orderly [groupToken .paren tokens] (.type plus (.paren inner))
  | never {orderly plus : Bool} : Spells orderly [mark '!'] (.type plus .never)
  | inferred {orderly plus : Bool} :
      Spells orderly [named .underscore] (.type plus (.other [named .underscore]))
  | dyn {orderly plus : Bool} {tokens : List Token} (spelled : Spells true tokens (.bounds plus true)) :
      Spells orderly (named dynWord :: tokens) (.type plus (.other (named dynWord :: tokens)))
  | impl {orderly plus : Bool} {tokens : List Token} (spelled : Spells true tokens (.bounds plus true)) :
      Spells orderly (named implWord :: tokens) (.type plus (.other (named implWord :: tokens)))
  | function {orderly plus isUnsafe : Bool} {binds : Option (List String)} {tokens : List Token}
      (lifetimes : ∀ names ∈ binds, ∀ name ∈ names, IsLifetime name)
      (spelled : Spells true tokens .call) :
      Spells orderly (binder binds ++ functionTokens isUnsafe tokens)
        (.type plus (.function (binder binds ++ functionTokens isUnsafe tokens)))
  | noTypes {orderly : Bool} : Spells orderly [] (.types [])
  | lastType {orderly : Bool} {type : TypeExpr} {tokens : List Token}
      (spelled : Spells orderly tokens (.type true type)) : Spells orderly tokens (.types [type])
  | moreTypes {orderly : Bool} {type next : TypeExpr} {types : List TypeExpr} {tokens rest : List Token}
      (spelled : Spells orderly tokens (.type true type))
      (others : Spells orderly rest (.types (next :: types))) :
      Spells orderly (tokens ++ mark ',' :: rest) (.types (type :: next :: types))
  | lifetime {orderly : Bool} {name : String} (isLifetime : IsLifetime name) :
      Spells orderly [lifetimeToken name] (.argument (.lifetime name))
  | typeArgument {orderly : Bool} {type : TypeExpr} {tokens : List Token}
      (spelled : Spells orderly tokens (.type true type)) : Spells orderly tokens (.argument (.type type))
  | number {orderly : Bool} {text : String} (count : Literal.IsCount text.toList) :
      Spells orderly [literalToken text] (.argument (.other [literalToken text]))
  | item {orderly : Bool} {name : Word} {type : TypeExpr} {tokens : List Token} (lexed : name.Lexed)
      (ident : name.isIdent = true) (spelled : Spells true tokens (.type true type)) :
      Spells orderly (named name :: mark '=' :: tokens)
        (.argument (.other (named name :: mark '=' :: tokens)))
  | lastArgument {orderly : Bool} {argument : TypeArgument} {tokens : List Token}
      (spelled : Spells orderly tokens (.argument argument)) : Spells orderly tokens (.arguments [argument])
  | moreArguments {orderly : Bool} {argument next : TypeArgument} {arguments : List TypeArgument}
      {tokens rest : List Token} (spelled : Spells orderly tokens (.argument argument))
      (others : Spells orderly rest (.arguments (next :: arguments))) :
      Spells orderly (tokens ++ mark ',' :: rest) (.arguments (argument :: next :: arguments))
  | noSuffix {orderly : Bool} : Spells orderly [] (.suffix [])
  | brackets {orderly : Bool} {arguments : List TypeArgument} {tokens : List Token}
      (sorted : orderly = true → arguments.Pairwise fun argument later =>
        later.isLifetime = true → argument.isLifetime = true)
      (spelled : Spells orderly tokens (.arguments arguments)) :
      Spells orderly (mark '<' :: (tokens ++ [mark '>'])) (.suffix arguments)
  | returnsNothing {orderly : Bool} {types : List TypeExpr} {tokens : List Token}
      (spelled : Spells orderly tokens (.types types)) :
      Spells orderly [groupToken .paren tokens] .call
  | returns {orderly : Bool} {types : List TypeExpr} {result : TypeExpr} {tokens behind : List Token}
      (spelled : Spells orderly tokens (.types types)) (output : Spells orderly behind (.type false result)) :
      Spells orderly (groupToken .paren tokens :: (arrow ++ behind)) .call
  | outlives {orderly : Bool} {name : String} (isLifetime : IsLifetime name) :
      Spells orderly [lifetimeToken name] (.bound false)
  | trait {orderly leading : Bool} {head : BoundHead} {stem : List Word} {last : Word}
      {arguments : List TypeArgument} {tokens : List Token} (isHead : head.WellMade)
      (isPath : IsPath leading stem last arguments) (suffix : Spells orderly tokens (.suffix arguments)) :
      Spells orderly (head.tokens ++ (pathTokens leading stem last ++ tokens)) (.bound true)
  | callable {orderly leading : Bool} {head : BoundHead} {stem : List Word} {last : Word}
      {tokens : List Token} (isHead : head.WellMade) (isPath : IsPath leading stem last [])
      (spelled : Spells orderly tokens .call) :
      Spells orderly (head.tokens ++ (pathTokens leading stem last ++ tokens)) (.bound true)
  | lastBound {orderly plus trait : Bool} {tokens : List Token}
      (spelled : Spells orderly tokens (.bound trait)) : Spells orderly tokens (.bounds plus trait)
  | moreBounds {orderly trait others : Bool} {tokens rest : List Token}
      (spelled : Spells orderly tokens (.bound trait)) (more : Spells orderly rest (.bounds true others)) :
      Spells orderly (tokens ++ mark '+' :: rest) (.bounds true (trait || others))

end StructInventory
