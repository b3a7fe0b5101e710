import StructInventory.Proofs.CommentSearch
import StructInventory.Proofs.DeclarationRun

/-!
Which declarations may share a comment. Declarations stand in reading order, and between any two of
them a position is noted that no comment reaches across. There are two gaps: nothing is noted
between a tuple struct and the first of its fields, and a noted position where the later declaration
itself begins does not count.
-/

namespace StructInventory

open Reader

/-- A position that was noted lies behind `p` and no later than `q`. -/
def Divided (marks : List Pos) (p q : Pos) : Prop := ∃ mark ∈ marks, p < mark ∧ mark ≤ q

namespace Divided

variable {marks more : List Pos} {p q r : Pos}

theorem mono (divided : Divided marks p q) (kept : marks ⊆ more) : Divided more p q := by
  obtain ⟨mark, noted, after, before⟩ := divided
  exact ⟨mark, kept noted, after, before⟩

theorem trans_le (divided : Divided marks p q) (later : q ≤ r) : Divided marks p r := by
  obtain ⟨mark, noted, after, before⟩ := divided
  exact ⟨mark, noted, after, le_trans before later⟩

theorem of_lt (earlier : r < p) (divided : Divided marks p q) : Divided marks r q := by
  obtain ⟨mark, noted, after, before⟩ := divided
  exact ⟨mark, noted, lt_trans earlier after, before⟩

theorem lt (divided : Divided marks p q) : p < q := by
  obtain ⟨mark, noted, after, before⟩ := divided
  exact lt_of_lt_of_le after before

end Divided

namespace Declaration

/-- A tuple struct and the first of its exported fields. -/
def LeadsTuple (first second : Declaration) : Prop :=
  ∃ decl field rest, decl.declarations = first :: second :: rest ∧ second = .field decl field ∧
    field.name = none

/-- The declarations stand in order, and unless they are a tuple struct and its first field, their
positions are divided. -/
def Apart (marks : List Pos) (first second : Declaration) : Prop :=
  first.pos < second.pos ∧ (Divided marks first.pos second.pos ∨ first.LeadsTuple second)

theorem apart_of_divided {marks : List Pos} {first second : Declaration}
    (divided : Divided marks first.pos second.pos) : first.Apart marks second :=
  ⟨divided.lt, .inl divided⟩

theorem Apart.mono {marks more : List Pos} {first second : Declaration}
    (apart : first.Apart marks second) (kept : marks ⊆ more) : first.Apart more second :=
  ⟨apart.1, apart.2.imp_left fun divided => divided.mono kept⟩

theorem not_leadsTuple_field {decl : TypeDecl} {field : FieldDecl} {second : Declaration} :
    ¬(Declaration.field decl field).LeadsTuple second := by
  rintro ⟨decl', field', rest, declared, -⟩
  unfold TypeDecl.declarations at declared
  split at declared <;> simp at declared

end Declaration

/-- Declarations in order between two positions, and noted positions that divide them. -/
structure InOrder (lower : Pos) (marks : List Pos) (declared : List Declaration) (upper : Pos) :
    Prop where
  within : ∀ found ∈ declared, lower ≤ found.pos ∧ Divided marks found.pos upper
  apart : declared.Pairwise (Declaration.Apart marks)

namespace InOrder

variable {lower lower' upper upper' : Pos} {marks more : List Pos} {declared : List Declaration}

theorem nil : InOrder lower marks [] upper := ⟨by simp, .nil⟩

theorem single {found : Declaration} (above : lower ≤ found.pos)
    (divided : Divided marks found.pos upper) : InOrder lower marks [found] upper :=
  ⟨by simpa using ⟨above, divided⟩, List.pairwise_singleton _ _⟩

theorem mono (inOrder : InOrder lower marks declared upper) (earlier : lower' ≤ lower)
    (kept : marks ⊆ more) (later : upper ≤ upper') : InOrder lower' more declared upper' where
  within := by
    intro found member
    obtain ⟨above, divided⟩ := inOrder.within found member
    exact ⟨le_trans earlier above, (divided.mono kept).trans_le later⟩
  apart := inOrder.apart.imp fun apart => apart.mono kept

theorem append {next : Pos} {rest : List Declaration} (first : InOrder lower marks declared next)
    (second : InOrder next marks rest upper) (forward : lower ≤ next) (fits : next ≤ upper) :
    InOrder lower marks (declared ++ rest) upper where
  within := by
    intro found member
    rcases List.mem_append.mp member with member | member
    · obtain ⟨above, divided⟩ := first.within found member
      exact ⟨above, divided.trans_le fits⟩
    · obtain ⟨above, divided⟩ := second.within found member
      exact ⟨le_trans forward above, divided⟩
  apart := by
    refine List.pairwise_append.mpr ⟨first.apart, second.apart, fun found member later member' => ?_⟩
    have divided := (first.within found member).2
    exact Declaration.apart_of_divided (divided.trans_le (second.within later member').1)

end InOrder

/-! ### Sequences -/

section

variable {α : Type} {step : Cursor → α → Cursor → Prop} {declared : α → List Declaration}
  {before after : Cursor} {lower upper : Pos}

/-- Each step keeps tokens and declarations in order. -/
def Keeps (step : Cursor → α → Cursor → Prop) (declared : α → List Declaration) : Prop :=
  ∀ before value after, step before value after → before.Reaches true after ∧
    ∀ lower upper, Token.Laid lower before.rest upper → ∃ next, lower ≤ next ∧
      Token.Laid next after.rest upper ∧ InOrder lower after.marks (declared value) next

theorem Keeps.reaches {values : List α} (keeps : Keeps step declared)
    (sequence : Sequence step before values after) : before.Reaches true after := by
  induction sequence with
  | nil => exact Cursor.reaches_same rfl rfl rfl rfl
  | cons first _ ih => exact (keeps _ _ _ first).1.trans ih

/-- Steps that keep the order keep it one after the other. -/
theorem Keeps.inOrder {values : List α} (keeps : Keeps step declared)
    (sequence : Sequence step before values after) (laid : Token.Laid lower before.rest upper) :
    InOrder lower after.marks (values.flatMap declared) upper := by
  induction sequence generalizing lower with
  | nil => exact .nil
  | cons first more ih =>
    -- Marks are never taken back, so what divides the first declarations still does at the end.
    obtain ⟨next, forward, behind, own⟩ := (keeps _ _ _ first).2 lower upper laid
    rw [List.flatMap_cons]
    refine InOrder.append ?_ (ih behind) forward behind.le
    exact own.mono (le_refl _) (keeps.reaches more).marks_subset (le_refl _)

end

namespace Grammar

open Reading

variable {g : Grammar} {conditions : List Condition} {before after lead final : Cursor}
  {lower upper pos : Pos}

/-- A declaration lies behind what comes before it and in front of its end. -/
theorem Declares.divided (declares : Declares before pos lead final after)
    (laid : Token.Laid lower before.rest upper) :
    lower ≤ pos ∧ Divided after.marks pos after.last ∧ after.last ≤ upper := by
  obtain ⟨g, conditions, attributes⟩ := declares.attributes
  obtain ⟨above, taken, short, -, late, goes⟩ :=
    laid_of_beginsWord (Reading.orderly _ attributes) declares.begins laid
  rw [declares.here] at above short
  obtain ⟨onward, fits⟩ := goes.last_le late
  rw [declares.marks, declares.last]
  exact ⟨above, ⟨final.last, List.mem_cons_self, lt_of_lt_of_le short onward, le_refl _⟩, fits⟩

/-! ### Fields -/

/-- A field, and the comma behind it. -/
theorem keeps_field {item : DeclReader FieldDecl} (decl : TypeDecl)
    (declares : ∀ before after field, item.run before = .ok (field, after) →
      field.exported = true → ∃ lead final, Declares before field.pos lead final after) :
    Keeps (RunsToComma item) (FieldDecl.declarations decl) := by
  intro before field after step
  unfold FieldDecl.declarations
  cases step with
  | last ran ended =>
    refine ⟨item.orderly ran, fun lower upper laid => ?_⟩
    rw [ended]
    split
    next exported =>
      obtain ⟨lead, final, declares⟩ := declares _ _ _ ran exported
      obtain ⟨above, divided, fits⟩ := declares.divided laid
      exact ⟨after.last, le_trans above (le_of_lt divided.lt), .nil fits, .single above divided⟩
    · exact ⟨lower, le_refl _, .nil laid.le, .nil⟩
  | @comma middle joint start stop ran takes =>
    refine ⟨(item.orderly ran).trans takes.reaches, fun lower upper laid => ?_⟩
    obtain ⟨passed, marked, passes⟩ := item.orderly ran
    have whole := laid
    rw [passes.rest, takes.rest] at whole
    obtain ⟨early, own⟩ := whole.split rfl
    refine ⟨stop, le_trans early.le own.le, whole.behind rfl, ?_⟩
    split
    next exported =>
      obtain ⟨lead, final, declares⟩ := declares _ _ _ ran exported
      obtain ⟨above, divided, -⟩ := declares.divided laid
      -- The end of the field is noted in front of the comma.
      have some : passed ≠ [] := by
        rintro rfl
        have shorter := declares.length_lt
        simp [passes.rest] at shorter
      have ends : middle.last ≤ stop :=
        le_trans (early.edges (passes.last_mem_edges some)).2 own.le
      exact .single above ((divided.mono (takes.marks ▸ List.Subset.refl _)).trans_le ends)
    · exact .nil

/-! ### Structs -/

/-- The fields of a struct, in a group that was entered behind the struct's first word. -/
theorem inOrder_group {item : DeclReader FieldDecl} {delimiter : Delimiter} {opens : Bool}
    {fields : List FieldDecl} {inside : List Token} {start closing : Pos}
    {taken opened closed first final : Cursor} (decl : TypeDecl)
    (declares : ∀ before after field, item.run before = .ok (field, after) →
      field.exported = true → ∃ lead final, Declares before field.pos lead final after)
    (entered : Entered delimiter opens (commaList item) opened fields closed inside start closing
      first final)
    (other : delimiter ≠ .bracket) (lead : taken.Reaches true opened)
    (goes : closed.Reaches true after) (laid : Token.Laid taken.last taken.rest upper) :
    taken.last ≤ start ∧ InOrder ⟨start.line, start.column + 1⟩ after.marks
      (fields.flatMap (FieldDecl.declarations decl)) after.last := by
  obtain ⟨behind, within, closes, rest⟩ := laid_of_entered entered other lead laid
  have inOrder := (keeps_field decl declares).inOrder (sequence_of_commaList entered.ran) within
  rw [← entered.marks] at inOrder
  refine ⟨behind, inOrder.mono (le_refl _) goes.marks_subset ?_⟩
  exact le_trans (le_of_lt closes) (goes.last_le rest).1

theorem inOrder_cons {decl : TypeDecl} {marks : List Pos} {fields : List Declaration}
    (above : lower ≤ decl.pos) (divided : Divided marks decl.pos upper)
    (rest : InOrder lower marks fields upper)
    (apart : ∀ field ∈ fields, (Declaration.struct decl).Apart marks field) :
    InOrder lower marks (.struct decl :: fields) upper :=
  ⟨List.forall_mem_cons.mpr ⟨⟨above, divided⟩, rest.within⟩, .cons apart rest.apart⟩

/-- Between a tuple struct and any field but the first lies the end of that first field. -/
theorem apart_tuple {decl : TypeDecl} {marks : List Pos} {fields : List FieldDecl}
    (form : decl.form = .struct fields) (nameless : ∀ field ∈ fields, field.name = none)
    (inOrder : InOrder lower marks (fields.flatMap (FieldDecl.declarations decl)) upper)
    (below : decl.pos < lower) :
    ∀ field ∈ fields.flatMap (FieldDecl.declarations decl),
      (Declaration.struct decl).Apart marks field := by
  have declared : decl.declarations = .struct decl :: fields.flatMap (FieldDecl.declarations decl) := by
    rw [TypeDecl.declarations, form]
  have isField : ∀ found ∈ fields.flatMap (FieldDecl.declarations decl),
      ∃ field, found = .field decl field ∧ field.name = none := by
    intro found member
    obtain ⟨field, listed, -, rfl⟩ := FieldDecl.mem_flatMap_declarations.mp member
    exact ⟨field, rfl, nameless field listed⟩
  cases listed : fields.flatMap (FieldDecl.declarations decl) with
  | nil => simp
  | cons first rest =>
    rw [listed] at declared inOrder isField
    obtain ⟨field, rfl, blank⟩ := isField first List.mem_cons_self
    have before := lt_of_lt_of_le below (inOrder.within _ List.mem_cons_self).1
    -- Nothing is noted before the first field; any other lies behind the end of that one.
    refine List.forall_mem_cons.mpr ⟨⟨before, .inr ⟨decl, field, rest, declared, rfl, blank⟩⟩, ?_⟩
    intro later member
    rcases (List.rel_of_pairwise_cons inOrder.apart member).2 with divided | leads
    · exact Declaration.apart_of_divided (divided.of_lt before)
    · exact absurd leads Declaration.not_leadsTuple_field

theorem inOrder_struct {reader : DeclReader (Option Item)} {found : Item} {opened : Cursor}
    {decl : TypeDecl} {fields : List FieldDecl} (ended : Ended reader before (some found) final after)
    (declares : Declares before decl.pos lead final after) (begins : lead.BeginsWord opened)
    (held : FieldsRun g opened final fields) (form : decl.form = .struct fields)
    (laid : Token.Laid lower before.rest upper) :
    InOrder lower after.marks decl.declarations after.last := by
  obtain ⟨above, divided, -⟩ := declares.divided laid
  obtain ⟨-, taken, short, -, late, goes⟩ := laid_of_beginsWord declares.lead_reaches begins laid
  rw [declares.here] at short
  rw [TypeDecl.declarations, form, ended.last]
  rw [ended.last] at divided
  cases held with
  | none => exact .single above divided
  | @tuple _ _ start closing _ closed _ _ lead' entered goes' =>
    obtain ⟨behind, inOrder⟩ := inOrder_group decl (fun _ _ _ done => (run_tupleField done).2)
      entered (by decide) (goes.trans lead') goes' late
    have below := lt_of_lt_of_le short (le_trans behind (le_of_lt start.lt_succ))
    have all := inOrder.mono (le_refl _) ended.kept (le_refl _)
    exact inOrder_cons above divided (all.mono (le_trans above (le_of_lt below))
      (List.Subset.refl _) (le_refl _)) (apart_tuple form (nameless_of_entered entered) all below)
  | @named g' _ _ start closing _ _ _ lead' entered =>
    obtain ⟨behind, inOrder⟩ := inOrder_group decl (fun _ _ _ => run_namedField) entered (by decide)
      (goes.trans lead') (Cursor.reaches_same rfl rfl rfl rfl) late
    have below := lt_of_lt_of_le short (le_trans behind (le_of_lt start.lt_succ))
    have all := inOrder.mono (le_refl _) ended.kept (le_refl _)
    refine inOrder_cons above divided (all.mono (le_trans above (le_of_lt below))
      (List.Subset.refl _) (le_refl _)) fun field member => ?_
    -- The brace before named fields is a boundary.
    have noted : start ∈ final.marks := by
      rw [entered.marks]
      refine (Reading.orderly _ entered.ran).marks_subset ?_
      simp [entered.opened]
    refine Declaration.apart_of_divided ⟨start, ended.kept noted, lt_of_lt_of_le short behind, ?_⟩
    exact le_trans (le_of_lt start.lt_succ) (all.within field member).1

/-! ### Methods -/

/-- What a member of an `impl` block declares. -/
def memberDeclarations (member : Option (Option FunctionDecl)) : List Declaration :=
  member.join.toList.map .method

theorem flatMap_memberDeclarations (members : List (Option (Option FunctionDecl))) :
    members.flatMap memberDeclarations = (members.filterMap Option.join).map .method := by
  induction members with
  | nil => rfl
  | cons member members ih =>
    cases found : member.join <;> simp [memberDeclarations, found, ih]

theorem keeps_member : Keeps (Runs (member? (implMember g))) memberDeclarations := by
  intro before member after ran
  refine ⟨Reading.orderly _ ran, fun lower upper laid => ?_⟩
  obtain ⟨above, behind⟩ :=
    laid_of_concludes (Concludes.member? (concludes_implMember g).lift) ran laid
  refine ⟨after.last, above, behind, ?_⟩
  match member with
  | none | some none => exact .nil
  | some (some function) =>
    obtain ⟨lead, final, declares⟩ := run_implMember ran
    obtain ⟨above, divided, -⟩ := declares.divided laid
    exact .single above divided

theorem inOrder_impl {reader : DeclReader (Option Item)} {found : Item} {opened : Cursor}
    {functions : List FunctionDecl} (ended : Ended reader before (some found) final after)
    (lead : before.Reaches true opened)
    (held : (memberBody g (implMember g)).run opened = .ok ((functions, conditions), final))
    (laid : Token.Laid lower before.rest upper) :
    InOrder lower after.marks (functions.map .method) after.last := by
  obtain ⟨reader, inside, start, closing, first, head, bodyEnd, members, entered, elements, kept⟩ :=
    run_memberBody held
  obtain ⟨above, within, closes, -⟩ := laid_of_entered entered (by decide) lead laid
  obtain ⟨next, forward, within⟩ := elements.laid within
  have inOrder := keeps_member.inOrder elements.sequence within
  rw [flatMap_memberDeclarations, ← kept, ← entered.marks] at inOrder
  refine inOrder.mono (le_trans above (le_trans (le_of_lt start.lt_succ) forward)) ended.kept ?_
  rw [ended.last]
  exact le_of_lt closes

/-! ### Files -/

theorem keeps_item (reads : ReadsFields g) : Keeps (Runs (item g)) Item.declarations := by
  intro before found after ran
  refine ⟨Reading.orderly _ ran, fun lower upper laid => ?_⟩
  obtain ⟨above, behind⟩ := laid_of_concludes (concludes_item reads) ran laid
  refine ⟨after.last, above, behind, ?_⟩
  cases run_item reads ran with
  | undeclared none =>
    rw [none]
    exact .nil
  | struct ended declares begins held form whole =>
    rw [whole]
    exact inOrder_struct ended declares begins held form laid
  | impl ended lead held methods =>
    rw [methods]
    exact inOrder_impl ended lead held laid

end Grammar

namespace SourceFile

open Grammar

/-- The declarations of a file stand in order, and its boundaries divide them. -/
theorem declarations_inOrder {text : String} {file : SourceFile} (done : read text = .ok file) :
    file.declarations.Pairwise (Declaration.Apart file.boundaries) := by
  obtain ⟨tokens, head, final, lexed, elements, boundaries⟩ := exists_elements_of_read done
  obtain ⟨lower, upper, laid⟩ := Token.laid_of_lex lexed
  obtain ⟨next, -, laid⟩ := elements.laid laid
  have inOrder := (keeps_item (readsFields_upToDepth _)).inOrder elements.sequence laid
  refine inOrder.apart.imp fun apart => apart.mono fun mark noted => ?_
  rw [boundaries]
  exact mem_sortPositions.mpr noted

end SourceFile

namespace CommentGroup

/-- Two declarations of a file have different comments, unless a boundary stands exactly where the
later one does, or they are a tuple struct and the first of its exported fields. -/
theorem search_shared_cases {text : String} {file : SourceFile}
    (done : SourceFile.read text = .ok file) :
    file.declarations.Pairwise fun first second => first.pos < second.pos ∧
      ∀ index, search (collect text) file.boundaries first.pos = some index →
        search (collect text) file.boundaries second.pos = some index →
        second.pos ∈ file.boundaries ∨ first.LeadsTuple second := by
  obtain ⟨upper, ordered⟩ := collect_ordered text
  have sorted := SourceFile.boundaries_sorted done
  refine (SourceFile.declarations_inOrder done).imp fun {first second} apart => ⟨apart.1, ?_⟩
  intro index found again
  rcases apart.2 with ⟨mark, noted, after, before⟩ | leads
  · rcases lt_or_eq_of_le before with before | rfl
    · exact absurd again (search_apart ordered sorted noted after before found)
    · exact .inl noted
  · exact .inr leads

/-- Two structs with nothing between them share the comment before the first: the boundary that
divides them stands where the second begins. -/
theorem adjacent_structs_share_comment :
    ∃ file, SourceFile.read "// c\nstruct A;struct B;" = .ok file ∧
      (file.declarations.map fun found =>
        (FileScan.ofFile "// c\nstruct A;struct B;" file).commentFor found.pos) =
          [some "c", some "c"] ∧
      file.declarations.Pairwise fun first second => first.pos < second.pos ∧
        ∀ index, search (collect "// c\nstruct A;struct B;") file.boundaries first.pos = some index →
          search (collect "// c\nstruct A;struct B;") file.boundaries second.pos = some index →
          second.pos ∈ file.boundaries ∨ first.LeadsTuple second := by
  obtain ⟨file, done, comments⟩ := SourceFile.exists_read
    (show (SourceFile.read "// c\nstruct A;struct B;").toOption.map (fun file =>
      file.declarations.map fun found =>
        (FileScan.ofFile "// c\nstruct A;struct B;" file).commentFor found.pos) =
      some [some "c", some "c"] by decide +kernel)
  exact ⟨file, done, comments, search_shared_cases done⟩

/-- A tuple struct and its first field share a comment, with a blank between all tokens. -/
theorem tuple_field_shares_comment :
    (SourceFile.read "// c\npub struct P ( pub u8 ) ;").toOption.map (fun file =>
      file.declarations.map fun found => (found.pos,
        (FileScan.ofFile "// c\npub struct P ( pub u8 ) ;" file).commentFor found.pos)) =
      some [(⟨2, 0⟩, some "c"), (⟨2, 15⟩, some "c")] := by
  decide +kernel

end CommentGroup

end StructInventory
