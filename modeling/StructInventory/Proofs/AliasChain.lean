import Mathlib.Data.List.Chain
import Mathlib.Data.List.Perm.Subperm
import StructInventory.Descriptor

/-!
Chains of aliases. A field holds the struct that its type leads to by the aliases of the scope, and
nothing else: each alias leads to one name at most, so there is only one way to go, and a way that
comes to a name twice never ends. The names that were followed are remembered, and that alone ends
the search; it never ends one that would have come to a struct.
-/

namespace StructInventory

namespace TypeDesc

/-- A type that names something in its own package: by one segment, or by `self` and one more. -/
def IsLocal (type : TypeDesc) (name : String) : Prop :=
  ∃ args, type = .named [name] args ∨ type = .named ["self", name] args

/-- A type leads to what it names by itself or behind one pointer. -/
inductive LeadsTo : TypeDesc → String → Prop where
  | plain {type : TypeDesc} {name : String} (names : type.IsLocal name) : LeadsTo type name
  | pointer {kind : PointerKind} {lifetime : Option String} {target : TypeDesc} {name : String}
      (names : target.IsLocal name) : LeadsTo (.pointer kind lifetime target) name

theorem localName?_eq_some_iff {type : TypeDesc} {name : String} :
    type.localName? = some name ↔ type.IsLocal name := by
  constructor
  · intro found
    unfold localName? at found
    split at found
    next args =>
      cases found
      exact ⟨args, .inl rfl⟩
    next args =>
      cases found
      exact ⟨args, .inr rfl⟩
    · cases found
  · rintro ⟨args, rfl | rfl⟩ <;> rfl

theorem leadsTo_iff {type : TypeDesc} {name : String} :
    type.LeadsTo name ↔ type.derefOnce.localName? = some name := by
  rw [localName?_eq_some_iff]
  constructor
  · intro leads
    cases leads with
    | plain names => obtain ⟨args, rfl | rfl⟩ := names <;> exact ⟨args, by simp [derefOnce]⟩
    | pointer names => exact names
  · intro names
    cases type with
    | pointer kind lifetime target => exact .pointer names
    | _ => exact .plain names

end TypeDesc

namespace Scope

variable {scope : Scope} {seen : List String} {name next : String} {named struct : NamedType}
  {result : Option NamedType} {rounds : Nat}

/-- A name that is bound to an alias, and the name that the alias leads to. -/
def AliasOf (scope : Scope) (name next : String) : Prop :=
  ∃ named target, scope.lookup name = some named ∧ named.underlying = .alias target ∧
    target.LeadsTo next

/-- A name that is bound to a struct. -/
structure Binds (scope : Scope) (name : String) (struct : NamedType) : Prop where
  found : scope.lookup name = some struct
  isStruct : ∃ fields, struct.underlying = .struct fields

/-- Names of which each is an alias of the next, up to one that is bound to a struct. -/
structure Follows (scope : Scope) (names : List String) (struct : NamedType) : Prop where
  links : names.IsChain scope.AliasOf
  ends : ∃ last, names.getLast? = some last ∧ scope.Binds last struct

/-- Names that lead from a type to a struct. -/
structure AliasChain (scope : Scope) (type : TypeDesc) (names : List String) (struct : NamedType) :
    Prop where
  starts : ∃ first, names.head? = some first ∧ type.LeadsTo first
  follows : scope.Follows names struct

/-- The search for a struct as it goes from name to name: in how many rounds it ends, and with what
answer. It is stuck at a name that is not bound, or bound to what is neither a struct nor an alias of
a name. Nothing bounds the rounds, so a search that went on for ever would have no answer. -/
inductive Search (scope : Scope) : List String → String → Nat → Option NamedType → Prop where
  | again {seen : List String} {name : String} (repeated : name ∈ seen) : Search scope seen name 1 none
  | struct {seen : List String} {name : String} {struct : NamedType} (fresh : name ∉ seen)
      (binds : scope.Binds name struct) : Search scope seen name 1 (some struct)
  | onward {seen : List String} {name next : String} {rounds : Nat} {result : Option NamedType}
      (fresh : name ∉ seen) (step : scope.AliasOf name next)
      (rest : Search scope (name :: seen) next rounds result) :
      Search scope seen name (rounds + 1) result
  | stuck {seen : List String} {name : String} (fresh : name ∉ seen)
      (unbound : ∀ struct, ¬scope.Binds name struct) (still : ∀ next, ¬scope.AliasOf name next) :
      Search scope seen name 1 none

/-! ### One way to go -/

theorem AliasOf.unique {other : String} (step : scope.AliasOf name next)
    (step' : scope.AliasOf name other) : next = other := by
  obtain ⟨named, target, found, target_eq, leads⟩ := step
  obtain ⟨named', target', found', target_eq', leads'⟩ := step'
  obtain rfl : named = named' := Option.some.inj (found.symm.trans found')
  obtain rfl : target = target' := Underlying.alias.inj (target_eq.symm.trans target_eq')
  rw [TypeDesc.leadsTo_iff] at leads leads'
  exact Option.some.inj (leads.symm.trans leads')

theorem Binds.not_aliasOf (binds : scope.Binds name struct) : ¬scope.AliasOf name next := by
  rintro ⟨named, target, found, isAlias, -⟩
  obtain ⟨found', fields, isStruct⟩ := binds
  obtain rfl : struct = named := Option.some.inj (found'.symm.trans found)
  cases isStruct.symm.trans isAlias

theorem follows_singleton : scope.Follows [name] struct ↔ scope.Binds name struct := by
  constructor
  · rintro ⟨-, last, isLast, binds⟩
    obtain rfl : name = last := by simpa using isLast
    exact binds
  · intro binds
    exact ⟨List.isChain_singleton _, name, rfl, binds⟩

theorem follows_cons_cons {names : List String} :
    scope.Follows (name :: next :: names) struct ↔
      scope.AliasOf name next ∧ scope.Follows (next :: names) struct := by
  constructor
  · rintro ⟨links, ends⟩
    rw [List.getLast?_cons_cons] at ends
    obtain ⟨step, links⟩ := List.isChain_cons_cons.mp links
    exact ⟨step, links, ends⟩
  · rintro ⟨step, links, ends⟩
    refine ⟨List.isChain_cons_cons.mpr ⟨step, links⟩, ?_⟩
    rwa [List.getLast?_cons_cons]

theorem Follows.unique {names others : List String} {struct' : NamedType}
    (follows : scope.Follows (name :: names) struct)
    (follows' : scope.Follows (name :: others) struct') : names = others ∧ struct = struct' := by
  induction names generalizing name others with
  | nil =>
    have binds := follows_singleton.mp follows
    -- A name that is bound to a struct is no alias, so both chains end together.
    cases others with
    | nil =>
      have binds' := follows_singleton.mp follows'
      exact ⟨rfl, Option.some.inj (binds.found.symm.trans binds'.found)⟩
    | cons next others => exact absurd (follows_cons_cons.mp follows').1 binds.not_aliasOf
  | cons next names ih =>
    obtain ⟨step, rest⟩ := follows_cons_cons.mp follows
    cases others with
    | nil => exact absurd step (follows_singleton.mp follows').not_aliasOf
    | cons next' others =>
      obtain ⟨step', rest'⟩ := follows_cons_cons.mp follows'
      obtain rfl := step.unique step'
      obtain ⟨rfl, same⟩ := ih rest rest'
      exact ⟨rfl, same⟩

theorem Follows.suffix {names behind : List String} (follows : scope.Follows (names ++ name :: behind) struct) :
    scope.Follows (name :: behind) struct := by
  obtain ⟨links, last, isLast, binds⟩ := follows
  exact ⟨links.right_of_append, last, by simpa using isLast, binds⟩

/-- From a name that came up before, the way would be as long as from the first time on. -/
theorem Follows.nodup {names : List String} (follows : scope.Follows names struct) : names.Nodup := by
  induction names with
  | nil => exact List.nodup_nil
  | cons name names ih =>
    refine List.nodup_cons.mpr ⟨fun repeated => ?_, ?_⟩
    · -- From both occurrences there is one way to the end, but of different lengths.
      obtain ⟨before, behind, rfl⟩ := List.append_of_mem repeated
      have later : scope.Follows (name :: behind) struct :=
        Follows.suffix (show scope.Follows ((name :: before) ++ name :: behind) struct from follows)
      have same := congrArg List.length (follows.unique later).1
      rw [List.length_append, List.length_cons] at same
      omega
    · cases names with
      | nil => exact List.nodup_nil
      | cons next names => exact ih (follows_cons_cons.mp follows).2

/-! ### What a search answers -/

/-- A search has one answer. -/
theorem Search.unique {result' : Option NamedType} {rounds' : Nat}
    (search : scope.Search seen name rounds result) (search' : scope.Search seen name rounds' result') :
    result = result' := by
  -- Each rule excludes the others, and the onward step goes to one name only.
  induction search generalizing rounds' with
  | again repeated =>
    cases search' with
    | again => rfl
    | struct fresh | onward fresh | stuck fresh => exact absurd repeated fresh
  | struct fresh binds =>
    cases search' with
    | again repeated => exact absurd repeated fresh
    | struct _ binds' => rw [← binds.found, binds'.found]
    | onward _ step => exact absurd step binds.not_aliasOf
    | stuck _ unbound => exact absurd binds (unbound _)
  | onward fresh step rest ih =>
    cases search' with
    | again repeated => exact absurd repeated fresh
    | struct _ binds => exact absurd step binds.not_aliasOf
    | onward _ step' rest' =>
      obtain rfl := step.unique step'
      exact ih rest'
    | stuck _ _ still => exact absurd step (still _)
  | stuck fresh unbound still =>
    cases search' with
    | again => rfl
    | struct _ binds => exact absurd binds (unbound _)
    | onward _ step => exact absurd step (still _)
    | stuck => rfl

/-- A struct that is answered stands at the end of a chain. -/
theorem Search.exists_follows (search : scope.Search seen name rounds (some struct)) :
    ∃ names, scope.Follows (name :: names) struct := by
  generalize answer : some struct = result at search
  induction search with
  | again | stuck => cases answer
  | struct _ binds =>
    cases answer
    exact ⟨[], follows_singleton.mpr binds⟩
  | onward _ step _ ih =>
    obtain ⟨names, follows⟩ := ih answer
    exact ⟨_ :: names, follows_cons_cons.mpr ⟨step, follows⟩⟩

/-- A chain that repeats no name, also none from before, is followed to its end. -/
theorem Follows.search {names : List String} (follows : scope.Follows (name :: names) struct)
    (fresh : ∀ other ∈ name :: names, other ∉ seen) :
    scope.Search seen name (names.length + 1) (some struct) := by
  induction names generalizing seen name with
  | nil => exact .struct (fresh name (by simp)) (follows_singleton.mp follows)
  | cons next names ih =>
    -- The chain does not come back to this name, so it may be remembered.
    have distinct := (List.nodup_cons.mp follows.nodup).1
    rw [List.forall_mem_cons] at fresh
    obtain ⟨step, rest⟩ := follows_cons_cons.mp follows
    refine .onward fresh.1 step (ih rest fun other member => ?_)
    rw [List.mem_cons, not_or]
    exact ⟨fun same => distinct (same ▸ member), fresh.2 other member⟩

/-! ### One round -/

variable {fuel : Nat}

theorem followAliases_of_binds (fresh : name ∉ seen) (binds : scope.Binds name struct) :
    scope.followAliases (fuel + 1) seen name = some struct := by
  obtain ⟨found, fields, isStruct⟩ := binds
  simp [followAliases, fresh, found, isStruct]

theorem followAliases_of_aliasOf (fresh : name ∉ seen) (step : scope.AliasOf name next) :
    scope.followAliases (fuel + 1) seen name = scope.followAliases fuel (name :: seen) next := by
  obtain ⟨named, target, found, isAlias, leads⟩ := step
  rw [TypeDesc.leadsTo_iff] at leads
  simp [followAliases, fresh, found, isAlias, leads]

theorem followAliases_of_stuck (unbound : ∀ struct, ¬scope.Binds name struct)
    (still : ∀ next, ¬scope.AliasOf name next) :
    scope.followAliases (fuel + 1) seen name = none := by
  rw [followAliases]
  split
  · rfl
  cases found : scope.lookup name with
  | none => rfl
  | some named =>
    cases what : named.underlying with
    | struct fields => exact absurd ⟨found, fields, what⟩ (unbound named)
    | «alias» target =>
      cases leads : target.derefOnce.localName? with
      | none => simp [what, leads]
      | some next => exact absurd ⟨named, target, found, what, TypeDesc.leadsTo_iff.mpr leads⟩ (still next)
    | _ => simp [what]

/-! ### The search ends -/

theorem mem_names_of_lookup (found : scope.lookup name = some named) : name ∈ scope.names := by
  refine List.mem_map.mpr ⟨named, List.mem_of_find?_eq_some found, ?_⟩
  simpa using List.find?_some found

theorem AliasOf.mem_names (step : scope.AliasOf name next) : name ∈ scope.names := by
  obtain ⟨named, target, found, -⟩ := step
  exact mem_names_of_lookup found

/-- Each round but the last takes up a name of the scope that was not taken up before. -/
theorem exists_search (nodup : seen.Nodup) (known : seen ⊆ scope.names)
    (left : fuel + seen.length = scope.size) :
    ∃ rounds ≤ fuel + 1, scope.Search seen name rounds (scope.followAliases fuel seen name) := by
  induction fuel generalizing seen name with
  | zero =>
    refine ⟨1, Nat.le_refl 1, ?_⟩
    rw [followAliases]
    -- All names of the scope have been taken up.
    have full : scope.names ⊆ seen := by
      refine ((List.subperm_of_subset nodup known).perm_of_length_le ?_).symm.subset
      rw [names, List.length_map]
      exact (Nat.zero_add _ ▸ left).ge
    by_cases repeated : name ∈ seen
    · exact .again repeated
    · refine .stuck repeated (fun struct binds => ?_) fun next step => ?_
      · exact repeated (full (mem_names_of_lookup binds.found))
      · exact repeated (full step.mem_names)
  | succ fuel ih =>
    have one : 1 ≤ fuel + 1 + 1 := by omega
    by_cases repeated : name ∈ seen
    · refine ⟨1, one, ?_⟩
      rw [followAliases, if_pos (by simpa using repeated)]
      exact .again repeated
    -- A fresh name is bound to a struct, is an alias, or leads nowhere.
    by_cases bound : ∃ struct, scope.Binds name struct
    · obtain ⟨struct, binds⟩ := bound
      refine ⟨1, one, ?_⟩
      rw [followAliases_of_binds repeated binds]
      exact .struct repeated binds
    by_cases going : ∃ next, scope.AliasOf name next
    · obtain ⟨next, step⟩ := going
      have known' : name :: seen ⊆ scope.names := List.cons_subset.mpr ⟨step.mem_names, known⟩
      have left' : fuel + (name :: seen).length = scope.size := by
        rw [List.length_cons]
        omega
      obtain ⟨rounds, few, search⟩ :=
        @ih (name :: seen) next (List.nodup_cons.mpr ⟨repeated, nodup⟩) known' left'
      refine ⟨rounds + 1, by omega, ?_⟩
      rw [followAliases_of_aliasOf repeated step]
      exact .onward repeated step search
    · rw [not_exists] at bound going
      refine ⟨1, one, ?_⟩
      rw [followAliases_of_stuck bound going]
      exact .stuck repeated bound going

/-- A search for a struct ends after one round more than there are types, if not before. -/
theorem search_lookupStruct (scope : Scope) (name : String) :
    ∃ rounds ≤ scope.size + 1, scope.Search [] name rounds (scope.lookupStruct name) :=
  exists_search List.nodup_nil (List.nil_subset _) rfl

theorem lookupStruct_eq_some_iff :
    scope.lookupStruct name = some struct ↔ ∃ names, scope.Follows (name :: names) struct := by
  obtain ⟨rounds, -, search⟩ := search_lookupStruct scope name
  constructor
  · intro found
    rw [found] at search
    exact search.exists_follows
  · -- The search along the chain answers the struct, and there is one answer.
    rintro ⟨names, follows⟩
    exact search.unique (follows.search (by simp))

end Scope

namespace FieldDesc

variable {field : FieldDesc}

theorem asStruct_eq_some_iff {struct : StructDesc} :
    field.asStruct = some struct ↔ struct.package = field.package ∧
      ∃ names, field.package.package.scope.AliasChain field.type names struct.named := by
  have made : field.asStruct = some struct ↔ ∃ name, field.type.LeadsTo name ∧
      field.package.package.scope.lookupStruct name = some struct.named ∧
      struct.package = field.package := by
    obtain ⟨named, package⟩ := struct
    simp [asStruct, Option.bind_eq_some_iff, TypeDesc.leadsTo_iff, @eq_comm _ package]
  rw [made]
  constructor
  · rintro ⟨name, leads, found, same⟩
    obtain ⟨names, follows⟩ := Scope.lookupStruct_eq_some_iff.mp found
    exact ⟨same, name :: names, ⟨name, rfl, leads⟩, follows⟩
  · rintro ⟨same, names, ⟨name, isFirst, leads⟩, follows⟩
    obtain ⟨rest, rfl⟩ := List.head?_eq_some_iff.mp isFirst
    exact ⟨name, leads, Scope.lookupStruct_eq_some_iff.mpr ⟨rest, follows⟩, same⟩

/-- A field holds the struct that a chain of aliases leads to, which is the only one; no chain that
leads to a struct repeats a name. Without a chain it holds none. The search for it always ends: the
answer is that of the rounds without a bound, of which there is at most one more than types. -/
theorem asStruct_follows_aliases (field : FieldDesc) :
    (∀ name, (∃ rounds ≤ field.package.package.scope.size + 1,
        field.package.package.scope.Search [] name rounds
          (field.package.package.scope.lookupStruct name)) ∧
      ∀ rounds result, field.package.package.scope.Search [] name rounds result →
        field.package.package.scope.lookupStruct name = result) ∧
    (∀ struct, field.asStruct = some struct ↔ struct.package = field.package ∧
      ∃ names, field.package.package.scope.AliasChain field.type names struct.named) ∧
    (∀ names names' struct struct',
      field.package.package.scope.AliasChain field.type names struct →
      field.package.package.scope.AliasChain field.type names' struct' →
        names = names' ∧ struct = struct' ∧ names.Nodup) ∧
    ((∀ names struct, ¬field.package.package.scope.AliasChain field.type names struct) →
      field.asStruct = none) := by
  refine ⟨fun name => ?_, fun _ => asStruct_eq_some_iff, fun names names' struct struct' chain chain' => ?_,
    fun none => ?_⟩
  · obtain ⟨rounds, few, search⟩ := Scope.search_lookupStruct field.package.package.scope name
    exact ⟨⟨rounds, few, search⟩, fun _ _ => search.unique⟩
  · obtain ⟨⟨first, isFirst, leads⟩, follows⟩ := chain
    obtain ⟨⟨first', isFirst', leads'⟩, follows'⟩ := chain'
    rw [TypeDesc.leadsTo_iff] at leads leads'
    obtain rfl : first = first' := Option.some.inj (leads.symm.trans leads')
    obtain ⟨rest, rfl⟩ := List.head?_eq_some_iff.mp isFirst
    obtain ⟨rest', rfl⟩ := List.head?_eq_some_iff.mp isFirst'
    obtain ⟨rfl, same⟩ := follows.unique follows'
    exact ⟨rfl, same, follows.nodup⟩
  · rw [Option.eq_none_iff_forall_ne_some]
    intro struct found
    obtain ⟨-, names, chain⟩ := asStruct_eq_some_iff.mp found
    exact none names struct.named chain

end FieldDesc

end StructInventory
