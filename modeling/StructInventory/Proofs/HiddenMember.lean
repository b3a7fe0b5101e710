import Mathlib.Data.List.Forall2
import StructInventory.Proofs.SourcePackage
import StructInventory.Rendering

/-!
Members that are not exported leave no trace. Two packages that differ in such members only are run
side by side: names stand for types that look alike, the fields of these come in pairs that look
alike, and what a field holds looks alike again. Since a document is made of nothing else, it is the
same for both at every bound, and so is every text that is rendered from it.
-/

namespace StructInventory

/-! ### What can be seen of a package -/

/-- What a name stands for, a struct without the fields that are not exported. -/
def Underlying.visible : Underlying → Underlying
  | .struct members => .struct (members.filter (·.exported))
  | underlying => underlying

/-- A type without the fields and methods that are not exported. -/
def NamedType.visible (named : NamedType) : NamedType :=
  { named with
    underlying := named.underlying.visible
    methods := named.methods.filter (·.exported) }

/-- Packages with the same scans whose types differ, one by one, in members that are not exported:
these may be added, left out, changed and put elsewhere. -/
structure LoadedPackage.Alike (package other : LoadedPackage) : Prop where
  scans : ∀ file, package.scan? file = other.scan? file
  types : package.package.scope.types.map NamedType.visible =
    other.package.scope.types.map NamedType.visible

theorem LoadedPackage.Alike.commentFor {package other : LoadedPackage}
    (alike : package.Alike other) (file : PathText) (pos : Pos) :
    package.commentFor file pos = other.commentFor file pos := by
  rw [LoadedPackage.commentFor, LoadedPackage.commentFor, alike.scans]

structure StructDesc.Alike (struct other : StructDesc) : Prop where
  named : struct.named.visible = other.named.visible
  package : struct.package.Alike other.package

structure FieldDesc.Alike (field other : FieldDesc) : Prop where
  member : field.member = other.member
  file : field.file = other.file
  package : field.package.Alike other.package

structure MethodDesc.Alike (method other : MethodDesc) : Prop where
  function : method.function = other.function
  package : method.package.Alike other.package

/-! ### Names -/

namespace Scope

variable {scope other : Scope}

/-- Looking alike is a matter of the whole type, whose name is a part of what is seen. -/
theorem lookup_visible
    (same : scope.types.map NamedType.visible = other.types.map NamedType.visible) (name : String) :
    (scope.lookup name).map NamedType.visible = (other.lookup name).map NamedType.visible := by
  have seen (scope : Scope) : (scope.lookup name).map NamedType.visible =
      (scope.types.map NamedType.visible).find? (·.name = name) := by
    rw [lookup, List.find?_map]
    rfl
  rw [seen, seen, same]

/-- Aliases are followed in step: neither their targets nor what is a struct can be hidden. -/
theorem followAliases_visible
    (same : scope.types.map NamedType.visible = other.types.map NamedType.visible) (fuel : Nat)
    (seen : List String) (name : String) :
    (scope.followAliases fuel seen name).map NamedType.visible =
      (other.followAliases fuel seen name).map NamedType.visible := by
  induction fuel generalizing seen name with
  | zero => rfl
  | succ fuel ih =>
    unfold followAliases
    split
    · rfl
    · have looked := lookup_visible same name
      cases first : scope.lookup name with
      | none =>
        rw [first, Option.map_none, eq_comm, Option.map_eq_none_iff] at looked
        rw [looked]
        rfl
      | some named =>
        rw [first, Option.map_some, eq_comm, Option.map_eq_some_iff] at looked
        obtain ⟨named', second, alike⟩ := looked
        have underlying := congrArg NamedType.underlying alike
        simp only [second, Option.bind_eq_bind, Option.bind_some]
        -- Types that look alike have the same form. Only two of them do not end the search with
        -- nothing: a struct is found, and an alias leads on to the same name in both scopes.
        cases form : named.underlying <;> cases form' : named'.underlying <;>
          simp only [NamedType.visible, Underlying.visible, form, form', reduceCtorEq,
            Underlying.alias.injEq] at underlying ⊢
        · simp [alike]
        · subst underlying
          cases localName : TypeDesc.localName? _ with
          | none => rfl
          | some next => exact ih _ next

theorem lookupStruct_visible
    (same : scope.types.map NamedType.visible = other.types.map NamedType.visible) (name : String) :
    (scope.lookupStruct name).map NamedType.visible =
      (other.lookupStruct name).map NamedType.visible := by
  have size : scope.size = other.size := by simpa [Scope.size] using congrArg List.length same
  rw [lookupStruct, lookupStruct, size]
  exact followAliases_visible same other.size [] name

end Scope

/-- Types are found in pairs, of which everything holds that holds of types that look alike. -/
theorem rel_of_map_visible {found found' : Option NamedType} {rel : NamedType → NamedType → Prop}
    (same : found.map NamedType.visible = found'.map NamedType.visible)
    (carried : ∀ named named', named.visible = named'.visible → rel named named') :
    Option.Rel rel found found' := by
  cases found <;> cases found' <;> simp only [Option.map_some, Option.map_none, reduceCtorEq,
    Option.some.injEq] at same
  · exact .none
  · exact .some (carried _ _ same)

/-! ### Members -/

theorem map_eq_of_forall₂ {α β γ : Type} {rel : α → β → Prop} {f : α → γ} {g : β → γ}
    {items : List α} {others : List β} (paired : List.Forall₂ rel items others)
    (same : ∀ item other, rel item other → f item = g other) : items.map f = others.map g := by
  induction paired with
  | nil => rfl
  | cons first _ ih => rw [List.map_cons, List.map_cons, same _ _ first, ih]

namespace StructDesc.Alike

variable {struct other : StructDesc}

theorem name (alike : struct.Alike other) : struct.name = other.name := by
  show struct.named.visible.name = other.named.visible.name
  rw [alike.named]

theorem file (alike : struct.Alike other) : struct.file = other.file := by
  show struct.named.visible.file = other.named.visible.file
  rw [alike.named]

theorem fields (alike : struct.Alike other) :
    List.Forall₂ FieldDesc.Alike struct.fields other.fields := by
  have underlying := congrArg NamedType.underlying alike.named
  unfold StructDesc.fields
  cases form : struct.named.underlying <;> cases form' : other.named.underlying <;>
    simp only [NamedType.visible, Underlying.visible, form, form', reduceCtorEq,
      Underlying.struct.injEq] at underlying ⊢
  case struct.struct =>
    rw [underlying, List.forall₂_map_left_iff, List.forall₂_map_right_iff, List.forall₂_same]
    exact fun member _ => ⟨rfl, congrArg some alike.file, alike.package⟩
  all_goals exact .nil

theorem methods (alike : struct.Alike other) :
    List.Forall₂ MethodDesc.Alike struct.methods other.methods := by
  have functions : struct.named.methods.filter (·.exported) =
      other.named.methods.filter (·.exported) := congrArg NamedType.methods alike.named
  unfold StructDesc.methods
  rw [functions, List.forall₂_map_left_iff, List.forall₂_map_right_iff, List.forall₂_same]
  exact fun function _ => ⟨rfl, alike.package⟩

theorem comment (alike : struct.Alike other) : struct.comment = other.comment := by
  have pos : struct.named.pos = other.named.pos := by
    show struct.named.visible.pos = other.named.visible.pos
    rw [alike.named]
  rw [StructDesc.comment, StructDesc.comment, alike.file, pos, alike.package.commentFor]

end StructDesc.Alike

namespace FieldDesc.Alike

variable {field other : FieldDesc}

theorem name (alike : field.Alike other) : field.name = other.name := by
  rw [FieldDesc.name, FieldDesc.name, alike.member]

theorem type (alike : field.Alike other) : field.type = other.type := by
  rw [FieldDesc.type, FieldDesc.type, alike.member]

/-- What two fields hold looks alike, or neither holds anything. -/
theorem asStruct (alike : field.Alike other) :
    Option.Rel StructDesc.Alike field.asStruct other.asStruct := by
  unfold FieldDesc.asStruct
  rw [alike.type]
  cases other.type.derefOnce.localName? with
  | none => exact .none
  | some name =>
    have found : Option.Rel (fun named named' => named.visible = named'.visible)
        (field.package.package.scope.lookupStruct name)
        (other.package.package.scope.lookupStruct name) :=
      rel_of_map_visible (Scope.lookupStruct_visible alike.package.types name) fun _ _ => id
    simp only [Option.bind_eq_bind, Option.bind_some]
    generalize field.package.package.scope.lookupStruct name = named at found ⊢
    generalize other.package.package.scope.lookupStruct name = named' at found ⊢
    cases found with
    | none => exact .none
    | some visible => exact .some ⟨visible, alike.package⟩

theorem innerFields (alike : field.Alike other) :
    List.Forall₂ FieldDesc.Alike field.innerFields other.innerFields := by
  have held := alike.asStruct
  unfold FieldDesc.innerFields
  generalize field.asStruct = struct at held ⊢
  generalize other.asStruct = struct' at held ⊢
  cases held with
  | none => exact .nil
  | some inner => exact inner.fields

end FieldDesc.Alike

/-! ### Documents and texts -/

namespace FieldDesc

theorem flatPaths_alike (levels : Nat) (above : String) {fields others : List FieldDesc}
    (alike : List.Forall₂ Alike fields others) :
    flatPaths levels above fields = flatPaths levels above others := by
  induction levels generalizing above fields others with
  | zero =>
    refine map_eq_of_forall₂ alike fun field other pair => ?_
    rw [pathBelow, pathBelow, pair.name, pair.type]
  | succ levels ih =>
    rw [flatPaths, flatPaths, List.flatMap_def, List.flatMap_def]
    congr 1
    refine map_eq_of_forall₂ alike fun field other pair => ?_
    -- Whether a field is opened depends on what it holds, and that has as many visible fields.
    have empty : field.innerFields.isEmpty = other.innerFields.isEmpty := by
      rw [Bool.eq_iff_iff, List.isEmpty_iff_length_eq_zero, List.isEmpty_iff_length_eq_zero,
        pair.innerFields.length_eq]
    have path : field.pathBelow above = other.pathBelow above := by
      rw [pathBelow, pathBelow, pair.name]
    rw [empty, path, pair.type, ih _ pair.innerFields]

theorem nestedEntries_alike (levels : Nat) {fields others : List FieldDesc}
    (alike : List.Forall₂ Alike fields others) :
    nestedEntries levels fields = nestedEntries levels others := by
  induction levels generalizing fields others with
  | zero =>
    rw [nestedEntries, nestedEntries]
    congr 1
    refine map_eq_of_forall₂ alike fun field other pair => ?_
    rw [pair.name, pair.type]
  | succ levels ih =>
    rw [nestedEntries, nestedEntries]
    congr 1
    refine map_eq_of_forall₂ alike fun field other pair => ?_
    have held := pair.asStruct
    rw [pair.name, pair.type]
    generalize field.asStruct = struct at held ⊢
    generalize other.asStruct = struct' at held ⊢
    cases held with
    | none => rfl
    | some inner => simp only [ih inner.fields]

end FieldDesc

namespace MethodDesc.Alike

variable {method other : MethodDesc}

theorem doc (alike : method.Alike other) : method.doc = other.doc := by
  have comment : method.comment = other.comment := by
    rw [MethodDesc.comment, MethodDesc.comment, alike.function, alike.package.commentFor]
  simp only [MethodDesc.doc, comment, params, returns, alike.function, List.map_map,
    Option.map_map]
  rfl

theorem line (alike : method.Alike other) :
    StructDesc.methodLine method = StructDesc.methodLine other := by
  unfold StructDesc.methodLine
  simp only [MethodDesc.name, params, returns, alike.function, List.map_map, Option.elim_map]
  rfl

end MethodDesc.Alike

namespace StructDesc.Alike

variable {struct other : StructDesc}

theorem describe (alike : struct.Alike other) (options : DescribeOptions) :
    struct.describe options = other.describe options := by
  have fields : struct.fieldMap options = other.fieldMap options := by
    unfold fieldMap
    split
    · rw [FieldDesc.flatPaths_alike _ _ alike.fields]
    · rw [FieldDesc.nestedEntries_alike _ alike.fields]
  have methods : (struct.methods.map fun method => (method.name, method.doc)) =
      other.methods.map fun method => (method.name, method.doc) := by
    refine map_eq_of_forall₂ alike.methods fun method other pair => ?_
    rw [pair.doc, MethodDesc.name, MethodDesc.name, pair.function]
  rw [StructDesc.describe, StructDesc.describe, fields, methods]

theorem plainText (alike : struct.Alike other) : struct.plainText = other.plainText := by
  have fields : (struct.fields.map fun field => "- " ++ field.listing) =
      other.fields.map fun field => "- " ++ field.listing := by
    refine map_eq_of_forall₂ alike.fields fun field other pair => ?_
    rw [FieldDesc.listing, FieldDesc.listing, pair.name, pair.type]
  have methods := map_eq_of_forall₂ alike.methods fun _ _ pair => pair.line
  rw [StructDesc.plainText, StructDesc.plainText, alike.name, alike.comment, fields, methods]

theorem render (alike : struct.Alike other) (renderer : Renderer) :
    renderer.render struct = renderer.render other := by
  unfold Renderer.render
  split
  · exact alike.plainText
  · rw [alike.describe]

end StructDesc.Alike

/-- Types of two packages about which everything that is written is the same: the documents of both
shapes at every bound, and the texts of every renderer. -/
structure LoadedPackage.WritesAlike (package other : LoadedPackage) (named named' : NamedType) :
    Prop where
  isStruct : named.isStruct = named'.isStruct
  describe : ∀ options,
    StructDesc.describe ⟨named, package⟩ options = StructDesc.describe ⟨named', other⟩ options
  render : ∀ renderer : Renderer, renderer.render ⟨named, package⟩ = renderer.render ⟨named', other⟩

theorem LoadedPackage.Alike.writes {package other : LoadedPackage} (alike : package.Alike other)
    {named named' : NamedType} (visible : named.visible = named'.visible) :
    package.WritesAlike other named named' where
  isStruct := by
    have underlying := congrArg NamedType.underlying visible
    unfold NamedType.isStruct
    cases form : named.underlying <;> cases form' : named'.underlying <;>
      simp [NamedType.visible, Underlying.visible, form, form'] at underlying ⊢
  describe := StructDesc.Alike.describe ⟨visible, alike⟩
  render := StructDesc.Alike.render ⟨visible, alike⟩

/-! ### Another package to try statements on

The package of `Sample` with its hidden field left out, with hidden fields of other types before and
behind the exported ones, and with a hidden method. -/

namespace Sample

def maskedNode : TypeDecl :=
  let shown := match node.form with
    | .struct fields => fields.filter (·.exported)
    | _ => []
  let before := field ⟨"hidden", by decide, by decide⟩ (.named ["Mark"] [] []) false
  let behind := field .underscore (.named ["Node"] [] []) false
  { node with form := .struct (before :: shown ++ [behind]) }

def maskedMethods : ImplDecl :=
  ⟨.named ["Node"] [] [], [], [], [⟨"touch", false, .first, ⟨[], true, [], none⟩, []⟩]⟩

def maskedFile : ParsedFile :=
  ⟨⟨"p/lib.rs"⟩, "", ⟨[], [.type maskedNode, .methods maskedMethods, .type mark], []⟩⟩

def maskedPackage : LoadedPackage := .ofResolution (.ofFiles ⟨"p"⟩ [maskedFile] []) [maskedFile]

theorem package_alike_masked : package.Alike maskedPackage where
  scans _ := rfl
  types := rfl

end Sample

namespace LoadedPackage

/-- Members that are not exported do not show. In packages that differ in nothing else, a name
stands for types about which the same is written, or for none in both; so does a name that is
followed through aliases to a struct. -/
theorem hidden_members_do_not_show (package other : LoadedPackage) (alike : package.Alike other)
    (name : String) :
    Option.Rel (package.WritesAlike other) (package.package.scope.lookup name)
        (other.package.scope.lookup name) ∧
      Option.Rel (package.WritesAlike other) (package.package.scope.lookupStruct name)
        (other.package.scope.lookupStruct name) := by
  constructor
  · apply rel_of_map_visible (Scope.lookup_visible alike.types name)
    exact fun _ _ visible => alike.writes visible
  · apply rel_of_map_visible (Scope.lookupStruct_visible alike.types name)
    exact fun _ _ visible => alike.writes visible

theorem hidden_members_do_not_show_node :
    Sample.package.Alike Sample.maskedPackage ∧
      Option.Rel (Sample.package.WritesAlike Sample.maskedPackage)
        (Sample.package.package.scope.lookup "Node")
        (Sample.maskedPackage.package.scope.lookup "Node") ∧
      Option.Rel (Sample.package.WritesAlike Sample.maskedPackage)
        (Sample.package.package.scope.lookupStruct "Node")
        (Sample.maskedPackage.package.scope.lookupStruct "Node") :=
  ⟨Sample.package_alike_masked,
    hidden_members_do_not_show _ _ Sample.package_alike_masked "Node"⟩

end LoadedPackage

end StructInventory
