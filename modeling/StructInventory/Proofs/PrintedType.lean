import StructInventory.Proofs.AcceptedType
import StructInventory.Proofs.BoundRun
import StructInventory.Proofs.TypeText

/-!
Types that are printed and read again. The text of a type's descriptor is again a type, and it has the
same descriptor. Two things stand in the way of saying so of every type: parentheses are not kept, so
several bounds must not stand behind a reference or a pointer; and what has no structure is kept as
its tokens, which are the ones of the grammar of types here.
-/

namespace StructInventory

open Grammar Reading Token

/-- What a type keeps as tokens is spelled by the grammar of types. `plus` tells whether `+` may join
bounds where the type is printed. -/
inductive TypeExpr.Legible : Bool → TypeExpr → Prop where
  | named {plus : Bool} {path : List String} {arguments : List TypeArgument} {tokens : List Token}
      (types : ∀ type, .type type ∈ arguments → type.Legible true)
      (others : ∀ tokens, .other tokens ∈ arguments →
        Spells false (bareAll tokens) (.argument (.other (bareAll tokens)))) :
      TypeExpr.Legible plus (.named path arguments tokens)
  | reference {plus mutable : Bool} {lifetime : Option String} {target : TypeExpr}
      (inner : target.Legible false) : TypeExpr.Legible plus (.reference lifetime mutable target)
  | pointer {plus mutable : Bool} {target : TypeExpr} (inner : target.Legible false) :
      TypeExpr.Legible plus (.pointer mutable target)
  | slice {plus : Bool} {item : TypeExpr} (inner : item.Legible true) :
      TypeExpr.Legible plus (.slice item)
  | array {plus : Bool} {item : TypeExpr} {tokens : List Token} {length : Token}
      (inner : item.Legible true) (single : bareAll tokens = [length]) (isLength : IsLength length) :
      TypeExpr.Legible plus (.array item tokens)
  | tuple {plus : Bool} {items : List TypeExpr} (each : ∀ item ∈ items, item.Legible true) :
      TypeExpr.Legible plus (.tuple items)
  | paren {plus : Bool} {type : TypeExpr} (inner : type.Legible plus) :
      TypeExpr.Legible plus (.paren type)
  | never {plus : Bool} : TypeExpr.Legible plus .never
  | function {plus : Bool} {tokens : List Token}
      (spelled : Spells false (bareAll tokens) (.type plus (.function (bareAll tokens)))) :
      TypeExpr.Legible plus (.function tokens)
  | other {plus : Bool} {tokens : List Token}
      (spelled : Spells false (bareAll tokens) (.type plus (.other (bareAll tokens)))) :
      TypeExpr.Legible plus (.other tokens)

mutual

/-- Nothing in the type is kept as tokens. -/
def TypeExpr.isPlain : TypeExpr → Bool
  | .named _ arguments _ => arePlainArguments arguments
  | .reference _ _ target | .pointer _ target => target.isPlain
  | .slice item => item.isPlain
  | .tuple items => arePlain items
  | .paren inner => inner.isPlain
  | .never => true
  | .array _ _ | .function _ | .other _ => false

def arePlain : List TypeExpr → Bool
  | [] => true
  | type :: rest => type.isPlain && arePlain rest

def TypeArgument.isPlain : TypeArgument → Bool
  | .lifetime _ => true
  | .type type => type.isPlain
  | .other _ => false

def arePlainArguments : List TypeArgument → Bool
  | [] => true
  | argument :: rest => argument.isPlain && arePlainArguments rest

end

mutual

/-- A type is legible wherever it stands if it keeps no tokens. -/
theorem TypeExpr.legible_of_isPlain : (type : TypeExpr) → type.isPlain = true → ∀ plus, type.Legible plus
  | .named path arguments tokens, plain, plus => by
    have each := plain_of_arePlainArguments arguments plain
    refine .named (fun type listed => (each _ listed).2 type rfl) fun tokens listed => ?_
    exact absurd (each _ listed).1 (by simp [TypeArgument.isPlain])
  | .reference _ _ target, plain, _ => .reference (target.legible_of_isPlain plain false)
  | .pointer _ target, plain, _ => .pointer (target.legible_of_isPlain plain false)
  | .slice item, plain, _ => .slice (item.legible_of_isPlain plain true)
  | .tuple items, plain, _ => .tuple (legible_of_arePlain items plain)
  | .paren inner, plain, plus => .paren (inner.legible_of_isPlain plain plus)
  | .never, _, _ => .never

theorem legible_of_arePlain : (types : List TypeExpr) → arePlain types = true →
    ∀ type ∈ types, type.Legible true
  | [], _ => by simp
  | type :: rest, plain => by
    rw [arePlain, Bool.and_eq_true] at plain
    exact List.forall_mem_cons.mpr ⟨type.legible_of_isPlain plain.1 true, legible_of_arePlain rest plain.2⟩

theorem plain_of_arePlainArguments : (arguments : List TypeArgument) → arePlainArguments arguments = true →
    ∀ argument ∈ arguments, argument.isPlain = true ∧ ∀ type, argument = .type type → type.Legible true
  | [], _ => by simp
  | argument :: rest, plain => by
    rw [arePlainArguments, Bool.and_eq_true] at plain
    refine List.forall_mem_cons.mpr ⟨⟨plain.1, ?_⟩, plain_of_arePlainArguments rest plain.2⟩
    rintro type rfl
    exact type.legible_of_isPlain plain.1 true

end

namespace TypeDesc

variable {scope : TypeScope} {plus : Bool}

theorem spelledArgument_lifetime {name : String} (isLifetime : IsLifetime name) :
    SpelledArgument scope (.shown name) := by
  obtain ⟨word, lexed, rfl⟩ := isLifetime
  exact ⟨_, .lifetime _, .lifetime ⟨word, lexed, rfl⟩, Lays.lifetime lexed .first .first, rfl⟩

/-- The text of a type that was read is spelled by the grammar, however the type is nested. -/
theorem spelled_of_legible {type : TypeExpr} (wellMade : type.WellMade) (legible : type.Legible plus)
    (namesSelf : scope.NamesSelf) : Spelled scope plus (ofExpr scope type) := by
  induction wellMade generalizing plus with
  | @named leading stem last arguments tokens isPath begins lifetimes _ ih =>
    cases legible with
    | named types others =>
      refine spelled_ofPath isPath begins rfl (fun desc listed => ?_) namesSelf
      rw [ofArguments_eq_map] at listed
      obtain ⟨argument, member, rfl⟩ := List.mem_map.mp listed
      cases argument with
      | lifetime name => exact spelledArgument_lifetime (lifetimes name member)
      | type written => exact (ih written member (types written member)).argument
      | other tokens => exact spelledArgument_ofTokens (others tokens member)
  | reference isLifetime _ ih =>
    cases legible with
    | reference inner => exact (ih inner).reference isLifetime
  | pointer _ ih =>
    cases legible with
    | pointer inner => exact (ih inner).pointer
  | slice _ ih =>
    cases legible with
    | slice inner => exact (ih inner).slice
  | @array item tokens _ ih =>
    cases legible with
    | @array _ _ _ length inner single isLength =>
      -- Where the length stood in the text makes no difference to how it is printed.
      have same : Token.print tokens = Token.print [length] := by
        rw [← single]
        simp only [Token.print, chars_bareAll]
      rw [ofExpr, same]
      exact (ih inner).array isLength
  | tuple _ ih =>
    cases legible with
    | tuple each =>
      rw [ofExpr, ofExprs_eq_map]
      refine .tuple fun desc listed => ?_
      obtain ⟨item, member, rfl⟩ := List.mem_map.mp listed
      exact ih item member (each item member)
  | paren _ ih =>
    -- Parentheses are not printed, so what is in them stands where they stood.
    cases legible with
    | paren inner => exact ih inner
  | never =>
    have printed : Lays ['!'] [mark '!'] := Lays.mark (by decide) .first .first
    exact ⟨_, .never, .never, by simpa [ofExpr, text] using printed, rfl⟩
  | function =>
    cases legible with
    | function spelled => exact spelled_ofTokens spelled rfl
  | other =>
    cases legible with
    | other spelled => exact spelled_ofTokens spelled rfl

/-- A text that is spelled by the grammar is read as a type that it describes. -/
theorem Spelled.exists_read {desc : TypeDesc} (spelled : Spelled scope true desc) :
    ∃ again, TypeExpr.read desc.text = .ok again ∧ ofExpr scope again = desc := by
  obtain ⟨tokens, type, spells, lays, rfl⟩ := spelled
  obtain ⟨found, lexed, like⟩ := lex_of_lays lays
  have readsType : ReadsType false tokens true type := spells.read
  -- The grammar is unfolded deep enough for any type of this many tokens.
  obtain ⟨reading, shown, reads, same, -⟩ :=
    readsType.reads found like (8 * Token.count found + 16) [] (by omega) .nil
  obtain ⟨final, whole⟩ : ∃ final, Reader.complete (covering found).type found .first =
      .ok (reading, final) := reads.complete .first
  refine ⟨reading.type, ?_, same scope⟩
  simp only [TypeExpr.read, lexed, bind, Except.bind, whole]
  rfl

end TypeDesc

/-- A type that is printed is read back, with the same descriptor. -/
theorem TypeExpr.printed_reads_back {text : String} {type : TypeExpr} {scope : TypeScope}
    (accepted : TypeExpr.read text = .ok type) (legible : type.Legible true)
    (namesSelf : scope.NamesSelf) :
    ∃ again, TypeExpr.read (TypeDesc.ofExpr scope type).text = .ok again ∧
      TypeDesc.ofExpr scope again = TypeDesc.ofExpr scope type :=
  (TypeDesc.spelled_of_legible (wellMade_of_read accepted) legible namesSelf).exists_read

/-- `Self` is printed as the name that it stands for, and the parentheses are left out. -/
theorem TypeExpr.printed_reads_back_nested :
    let scope : TypeScope := ⟨["T"], some "P"⟩
    ∃ type, TypeExpr.read "(Vec<(&'a mut (Self), Box<[T]>)>)" = .ok type ∧
      (TypeDesc.ofExpr scope type).text = "Vec<(&'a mut P, Box<[T]>)>" ∧
      ∃ again, TypeExpr.read "Vec<(&'a mut P, Box<[T]>)>" = .ok again ∧
        TypeDesc.ofExpr scope again = TypeDesc.ofExpr scope type := by
  intro scope
  obtain ⟨type, accepted, view⟩ := exists_ok_of_view
    (show (TypeExpr.read "(Vec<(&'a mut (Self), Box<[T]>)>)").toOption.map
      (fun type => (type.isPlain, (TypeDesc.ofExpr scope type).text)) =
      some (true, "Vec<(&'a mut P, Box<[T]>)>") by decide +kernel)
  obtain ⟨plain, printed⟩ := Prod.mk.inj view
  have namesSelf : scope.NamesSelf := by
    rintro name ⟨⟩
    exact ⟨by decide, ⟨false, ⟨"P", by decide, by decide⟩⟩, ⟨⟨'P', [], rfl, by decide⟩, by decide⟩, by decide, rfl⟩
  have readBack := printed_reads_back accepted (type.legible_of_isPlain plain true) namesSelf
  rw [printed] at readBack
  exact ⟨type, accepted, printed, readBack⟩

/-- Parentheses are not kept, so a reference to several bounds is printed as no type. -/
theorem parenthesized_bounds_lost :
    (TypeExpr.read "&(dyn A + B)").toOption.map (fun type => (TypeDesc.ofExpr {} type).text) =
        some "&dyn A + B" ∧
      (TypeExpr.read "&dyn A + B").toOption.isNone = true := by
  decide +kernel

end StructInventory
