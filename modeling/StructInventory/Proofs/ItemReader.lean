import StructInventory.Proofs.ReaderRun

/-!
What the readers of items answer, and behind which token they end. Every item and every member of
an `impl` block ends in a semicolon or in braces, and only structs and inherent `impl` blocks declare
anything that a comment can belong to.
-/

namespace StructInventory

/-- What a comment may belong to: a struct, an exported field of one, or a method. -/
inductive Declaration where
  | struct (decl : TypeDecl)
  | field (decl : TypeDecl) (field : FieldDecl)
  | method (function : FunctionDecl)

namespace Declaration

def pos : Declaration → Pos
  | .struct decl => decl.pos
  | .field _ found => found.pos
  | .method function => function.pos

end Declaration

namespace FieldDecl

/-- What a field of `decl` declares. -/
def declarations (decl : TypeDecl) (field : FieldDecl) : List Declaration :=
  if field.exported then [.field decl field] else []

theorem mem_flatMap_declarations {decl : TypeDecl} {fields : List FieldDecl} {found : Declaration} :
    found ∈ fields.flatMap (FieldDecl.declarations decl) ↔
      ∃ field ∈ fields, field.exported = true ∧ found = .field decl field := by
  simp only [List.mem_flatMap, FieldDecl.declarations]
  refine exists_congr fun field => and_congr_right fun _ => ?_
  cases field.exported <;> simp

end FieldDecl

namespace TypeDecl

def declarations (decl : TypeDecl) : List Declaration :=
  match decl.form with
  | .struct fields => .struct decl :: fields.flatMap (FieldDecl.declarations decl)
  | .enum | .trait _ | .alias _ => []

end TypeDecl

namespace Item

def declarations : Item → List Declaration
  | type decl => decl.declarations
  | methods decl => decl.functions.map .method
  | other => []

end Item

namespace SourceFile

/-- The declarations of a file, in reading order. -/
def declarations (file : SourceFile) : List Declaration := file.items.flatMap Item.declarations

end SourceFile

/-- Nothing is declared. -/
def Undeclared (found : Option Item) : Prop := ∀ item ∈ found, item.declarations = []

theorem undeclared_none : Undeclared none := by simp [Undeclared]

theorem undeclared_other : Undeclared (some .other) := by simp [Undeclared, Item.declarations]

namespace Grammar

open Reader Reading

variable (g : Grammar) (conditions : List Condition)

theorem concludes_plain {reader : Reader Unit} (concludes : reader.Concludes fun _ => True) :
    (plain reader).Concludes Undeclared :=
  concludes.lift.followed fun _ _ => stays_pure undeclared_other

theorem concludes_functionBody : (functionBody g).Concludes fun _ => True := concludes_braces _

theorem concludes_functionItem : (functionItem g).Concludes Undeclared := by
  refine .behind _ fun _ => .behind _ fun _ => ?_
  refine concludes_semicolon? (stays_pure undeclared_none) ?_
  exact (concludes_functionBody g).lift.discard.followed fun _ _ => stays_pure undeclared_other

theorem concludes_externCrate : externCrate.Concludes fun _ => True := by
  refine .behind _ fun _ => .behind _ fun _ => .behind _ fun _ => .behind _ fun _ => ?_
  refine .behind _ fun _ => .ite (fun _ => .behind _ fun _ => ?_) fun _ => ?_
  all_goals exact concludes_semicolon

theorem concludes_foreignBlock : (foreignBlock g).Concludes fun _ => True :=
  .behind _ fun _ => .behind _ fun _ => concludes_braces _

theorem concludes_externItem : (externItem g).Concludes Undeclared := by
  refine .behind _ fun crate => concludes_plain ?_
  exact .ite (fun _ => concludes_externCrate) fun _ => concludes_foreignBlock g

theorem concludes_useItem : (useItem g).Concludes Undeclared := by
  refine .behind _ fun _ => .behind _ fun _ => .behind _ fun _ => .behind _ fun rooted => ?_
  refine concludes_semicolon_pure ?_
  split
  · exact undeclared_none
  · exact undeclared_other

theorem concludes_constant : (constant g).Concludes fun _ => True := by
  refine .behind _ fun _ => .behind _ fun _ => .behind _ fun _ => .behind _ fun _ => ?_
  refine .behind _ fun _ => .behind _ fun _ => .behind _ fun _ => ?_
  exact concludes_semicolon_pure trivial

theorem concludes_constItem : (constItem g).Concludes Undeclared := by
  refine .behind _ fun _ => (concludes_constant g).lift.followed fun parts _ => stays_pure ?_
  split
  · exact undeclared_other
  · exact undeclared_none

theorem concludes_staticItem : (staticItem g).Concludes Undeclared := by
  refine .behind _ fun _ => .behind _ fun _ => .behind _ fun _ => .behind _ fun _ => ?_
  refine .behind _ fun untyped => ?_
  have ending (complete : Bool) : (do
      punct ";"
      return if complete then some .other else none : ItemReader).Concludes Undeclared := by
    refine concludes_semicolon_pure ?_
    split
    · exact undeclared_other
    · exact undeclared_none
  refine .ite (fun _ => .behind _ fun _ => .behind _ fun _ => ?_) fun _ => ?_
  all_goals
    refine .behind _ fun _ => .ite (fun _ => .behind _ fun _ => .behind _ fun _ => ?_) fun _ => ?_
    all_goals exact ending _

theorem concludes_moduleItem : (moduleItem g).Concludes fun _ => True := by
  refine .behind _ fun _ => .behind _ fun _ => .behind _ fun _ => .behind _ fun _ => ?_
  refine .behind _ fun _ => .ite (fun _ => concludes_body _) fun _ => concludes_semicolon

theorem concludes_typeMember (place : WherePlace) : (typeMember g place).Concludes fun _ => True := by
  refine .behind _ fun _ => .behind _ fun _ => .behind _ fun _ => .behind _ fun _ => ?_
  -- Each part that may be missing is passed over in both cases.
  refine .ite (fun _ => .behind _ fun _ => ?_) fun _ => ?_
  all_goals
    refine .ite (fun _ => .behind _ fun _ => ?_) fun _ => .behind _ fun _ => ?_
    all_goals
      refine .behind _ fun _ => .ite (fun _ => .behind _ fun _ => ?_) fun _ => .behind _ fun _ => ?_
      all_goals
        refine .ite (fun _ => .behind _ fun _ => ?_) fun _ => ?_
        all_goals exact concludes_semicolon_pure trivial

theorem concludes_typeItem : (typeItem g conditions).Concludes Undeclared := by
  refine .behind _ fun _ => .behind _ fun _ => ?_
  refine (concludes_typeMember g _).lift.followed fun parts _ => ?_
  refine .ite (stays_pure undeclared_none) (stays_pure ?_)
  rintro item member
  obtain ⟨target, -, rfl⟩ := Option.map_eq_some_iff.mp member
  rfl

/-- What a grammar takes for fields are named fields. -/
def ReadsFields (g : Grammar) : Prop :=
  ∀ before after fields, (g .fields).run before = .ok (fields, after) →
    ∃ g', (namedFields g').run before = .ok (fields, after)

variable {g} in
theorem ReadsFields.concludes (reads : ReadsFields g) : (g .fields).Concludes fun _ => True := by
  intro before after fields done
  obtain ⟨g', ran⟩ := reads before after fields done
  exact concludes_body _ _ _ _ ran

variable {g} in
theorem concludes_structBody (reads : ReadsFields g) : (structBody g).Concludes fun _ => True := by
  refine .behind _ fun _ => .behind _ fun _ => .ite (fun _ => ?_) fun _ => ?_
  · exact .behind _ fun _ => .behind _ fun _ => concludes_semicolon_pure trivial
  · refine .behind _ fun _ => .ite (fun _ => ?_) fun _ => concludes_semicolon_pure trivial
    exact reads.concludes.lift

variable {g} in
theorem concludes_structItem (reads : ReadsFields g) :
    (structItem g conditions).Concludes fun _ => True := by
  refine .behind _ fun _ => .behind _ fun _ => .behind _ fun _ => .behind _ fun _ => ?_
  exact .behind _ fun _ => (concludes_structBody reads).followed fun _ _ => stays_pure trivial

theorem concludes_enumItem : (enumItem g conditions).Concludes Undeclared := by
  refine .behind _ fun _ => .behind _ fun _ => .behind _ fun _ => .behind _ fun _ => ?_
  refine .behind _ fun _ => .behind _ fun _ => ?_
  refine (concludes_body _).lift.followed fun _ _ => stays_pure ?_
  rintro item ⟨⟩
  rfl

variable {g} in
theorem concludes_unionItem (reads : ReadsFields g) : (unionItem g).Concludes fun _ => True := by
  refine .behind _ fun _ => .behind _ fun _ => .behind _ fun _ => .behind _ fun _ => ?_
  exact .behind _ fun _ => reads.concludes.discard

theorem concludes_traitItem : (traitItem g conditions).Concludes Undeclared := by
  refine .behind _ fun _ => .behind _ fun _ => .behind _ fun _ => .behind _ fun _ => ?_
  refine .behind _ fun _ => .behind _ fun _ => .behind _ fun _ => .behind _ fun _ => ?_
  refine .ite (fun _ => ?_) fun _ => ?_
  · refine .behind _ fun _ => .behind _ fun _ => .behind _ fun _ => ?_
    exact concludes_semicolon_pure undeclared_other
  · refine .behind _ fun _ => .ite (fun _ => .behind _ fun _ => .behind _ fun _ => ?_)
      fun _ => .behind _ fun _ => ?_
    all_goals
      refine (concludes_body _).lift.followed fun _ _ => stays_pure ?_
      rintro item ⟨⟩
      rfl

theorem concludes_implItem : (implItem g conditions).Concludes fun _ => True := by
  refine .behind _ fun _ => .behind _ fun _ => ?_
  refine (concludes_body _).lift.followed fun _ _ => ?_
  exact .ite (stays_pure trivial) (.ite (stays_pure trivial) (stays_pure trivial))

theorem concludes_callItem : callItem.Concludes fun _ => True := by
  refine .behind _ fun _ => .behind _ fun _ => .behind _ fun _ => ?_
  exact .ite (fun _ => .behind _ fun _ => concludes_rawGroup) fun _ => concludes_rawGroup

theorem concludes_macroDefinition : macroDefinition.Concludes fun _ => True := by
  refine .behind _ fun _ => .behind _ fun _ => .behind _ fun _ => .behind _ fun _ => ?_
  exact .ite (fun _ => .behind _ fun _ => concludes_brace) fun _ => concludes_brace

/-! ### All items -/

variable {g conditions} {before after : Cursor} {found : Option Item}

/-- An item declares nothing, or is a struct or an `impl` block. -/
inductive ItemRun (g : Grammar) (conditions : List Condition) (before : Cursor)
    (found : Option Item) (after : Cursor) : Prop where
  | undeclared (none : Undeclared found) (ended : before.EndsApart after)
  | struct (ran : (structItem g conditions).run before = .ok (found, after))
  | impl (ran : (implItem g conditions).run before = .ok (found, after))

/-- All runs of a reader are runs of items. -/
def ReadsItem (g : Grammar) (conditions : List Condition) (reader : ItemReader) : Prop :=
  ∀ before after found, reader.run before = .ok (found, after) →
    ItemRun g conditions before found after

namespace ReadsItem

theorem of_concludes {reader : ItemReader} (concludes : reader.Concludes Undeclared) :
    ReadsItem g conditions reader := by
  intro before after found done
  obtain ⟨none, ended⟩ := concludes _ _ _ done
  exact .undeclared none ended

theorem ite {condition : Prop} [Decidable condition] {yes no : ItemReader}
    (first : ReadsItem g conditions yes) (second : ReadsItem g conditions no) :
    ReadsItem g conditions (if condition then yes else no) := by
  split
  · exact first
  · exact second

theorem behind_glance {α : Type} {reader : Reader α} {next : α → ItemReader}
    (reads : ∀ value, ReadsItem g conditions (next value)) :
    ReadsItem g conditions (liftM (glance reader) >>= next) := by
  intro before after found done
  obtain ⟨value, middle, looked, rest⟩ := run_bind_eq_ok.mp done
  obtain rfl := glance_stays looked
  exact reads value _ _ _ rest

theorem impl : ReadsItem g conditions (implItem g conditions) := fun _ _ _ => .impl

theorem struct : ReadsItem g conditions (structItem g conditions) := fun _ _ _ => .struct

theorem failAt (pos : Pos) : ReadsItem g conditions (Reader.failAt pos) := by
  intro before after found done
  cases done

end ReadsItem

theorem readsItem_unsafeItem : ReadsItem g conditions (unsafeItem g conditions) := by
  refine .behind_glance fun ahead => ?_
  refine .ite (.of_concludes (concludes_traitItem g conditions)) ?_
  refine .ite .impl ?_
  refine .ite (.of_concludes (concludes_plain (concludes_foreignBlock g))) ?_
  exact .ite (.of_concludes (concludes_plain (concludes_moduleItem g))) (.failAt _)

theorem readsItem_itemForm (reads : ReadsFields g) :
    ReadsItem g conditions (itemForm g conditions) := by
  refine .behind_glance fun ⟨behind, function, inherited⟩ => ?_
  refine .ite (.of_concludes (concludes_functionItem g)) ?_
  refine .ite (.of_concludes (concludes_externItem g)) ?_
  refine .ite (.of_concludes (concludes_useItem g)) ?_
  refine .ite (.of_concludes (concludes_staticItem g)) ?_
  refine .ite (.of_concludes (concludes_constItem g)) ?_
  refine .ite readsItem_unsafeItem ?_
  refine .ite (.of_concludes (concludes_plain (concludes_moduleItem g))) ?_
  refine .ite (.of_concludes (concludes_typeItem g conditions)) ?_
  refine .ite .struct ?_
  refine .ite (.of_concludes (concludes_enumItem g conditions)) ?_
  refine .ite (.of_concludes (concludes_plain (concludes_unionItem reads))) ?_
  refine .ite (.of_concludes (concludes_traitItem g conditions)) ?_
  refine .ite .impl ?_
  refine .ite (.of_concludes ?_) ?_
  · exact concludes_macroDefinition.lift.followed fun _ _ => stays_pure undeclared_none
  · exact .ite (.of_concludes (concludes_plain concludes_callItem)) (.failAt _)

theorem ItemRun.endsApart (reads : ReadsFields g) (ran : ItemRun g conditions before found after) :
    before.EndsApart after := by
  cases ran with
  | undeclared none ended => exact ended
  | struct ran => exact (concludes_structItem conditions reads _ _ _ ran).2
  | impl ran => exact (concludes_implItem g conditions _ _ _ ran).2

/-! ### Members of `impl` blocks -/

variable (g) in
theorem concludes_implFunction : (implFunction g conditions).Concludes fun _ => True := by
  refine .behind _ fun _ => .behind _ fun _ => .behind _ fun _ => .behind _ fun _ => ?_
  refine concludes_semicolon? (stays_pure trivial) ?_
  exact (concludes_functionBody g).followed fun _ _ => stays_pure trivial

theorem concludes_callMember : callMember.Concludes fun _ => True :=
  .behind _ fun _ => .behind _ fun _ => concludes_rawGroup

variable (g) in
theorem concludes_implDefinition : (implDefinition g).Concludes fun _ => True := by
  refine .behind _ fun _ => .behind _ fun _ => .behind _ fun _ => .ite (fun _ => ?_) fun _ => ?_
  · exact (concludes_constant g).followed fun _ _ => stays_pure trivial
  · exact (concludes_typeMember g _).followed fun _ _ => stays_pure trivial

variable (g) in
theorem concludes_implMember : (implMember g).Concludes fun _ => True := by
  refine .behind _ fun conditions => .behind _ fun _ => .ite (fun _ => ?_) fun _ => ?_
  · exact (concludes_implFunction g).followed fun _ _ => stays_pure trivial
  · refine .behind _ fun _ => .ite (fun _ => ?_) fun _ => ?_
    · exact concludes_callMember.followed fun _ _ => stays_pure trivial
    · exact (concludes_implDefinition g).followed fun _ _ => stays_pure trivial

end Grammar

end StructInventory
