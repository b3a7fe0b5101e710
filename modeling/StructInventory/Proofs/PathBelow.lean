import StructInventory.Destination
import StructInventory.Proofs.EntryPath

/-!
Paths below a base. Names lead from a base to a path that has their components behind those of the
base, and taking the base off again leaves just these. What is left has no head of its own, so that
behind any other path it stands for the same components.
-/

namespace StructInventory.PathText

/-! ### Joining -/

theorem component?_of_ofPiece {piece : String} (headless : Head.ofPiece piece = .none) :
    (component? piece).isSome = true := by
  unfold Head.ofPiece at headless
  unfold component?
  split at headless
  · cases headless
  · split at headless
    · cases headless
    · split
      · simp_all
      · split <;> rfl

theorem ofPiece_of_component? {piece : String} (visible : (component? piece).isSome = true) :
    Head.ofPiece piece = .none := by
  unfold component? at visible
  unfold Head.ofPiece
  split at visible
  · cases visible
  · simp_all

/-- A relative path all of whose components come from its pieces, since it has no head. -/
structure Headless (path : PathText) : Prop where
  relative : path.isAbsolute = false
  components : path.components = path.pieces.filterMap component?

theorem components_of_empty {path : PathText} (empty : path.text = "") : path.components = [] := by
  obtain ⟨text⟩ := path
  cases empty
  rfl

theorem headless_empty : Headless ⟨""⟩ := ⟨by decide, by decide⟩

theorem headless_of_pieces {path : PathText} {piece : String} {rest : List String}
    (written : path.pieces = piece :: rest) (visible : (component? piece).isSome = true) :
    path.Headless := by
  have filled : piece = "" → rest ≠ [] := by
    rintro rfl
    cases visible
  constructor
  · rw [← Bool.not_eq_true, isAbsolute_iff written filled]
    rintro rfl
    cases visible
  · rw [components_eq written filled, written, behindHead, ofPiece_of_component? visible]
    rfl

theorem IsName.headless {name : String} (named : IsName name) : Headless ⟨name⟩ :=
  headless_of_pieces (pieces_name named) (by rw [named.component?]; rfl)

theorem Headless.components_join {path : PathText} (headless : path.Headless) (out : PathText) :
    (out.join path).components = out.components ++ path.components := by
  by_cases empty : out.text = ""
  · have joined : out.join path = path := by simp [PathText.join, headless.relative, empty]
    rw [joined, components_of_empty empty, List.nil_append]
  · obtain ⟨front, nonempty, written, joined⟩ := exists_front empty
    obtain ⟨piece, rest, rfl⟩ := List.exists_cons_of_ne_nil nonempty
    have whole := joined path headless.relative
    rw [List.cons_append] at whole
    rw [components_eq whole (by simp [path.pieces_ne_nil]), behindHead_append,
      List.filterMap_append, ← List.append_assoc, ← headless.components]
    congr 1
    rcases written with ⟨written, alone⟩ | written
    · rw [components_eq written fun empty none => alone (by rw [empty, none])]
    · rw [List.cons_append] at written
      rw [components_eq written (by simp), behindHead_append, List.filterMap_append]
      simp [component?]

theorem components_join_name {name : String} (named : IsName name) (dir : PathText) :
    (dir.join ⟨name⟩).components = dir.components ++ [.name name] := by
  rw [named.headless.components_join, components_name named]

theorem join_name_ne {name : String} (named : IsName name) (dir : PathText) :
    (dir.join ⟨name⟩).text ≠ "" := by
  intro empty
  have joined := components_join_name named dir
  rw [components_of_empty empty] at joined
  exact absurd joined.symm (by simp)

/-! ### The directory that entries name -/

/-- A path less the pieces at its end that stand for no component. -/
def trimmed (path : PathText) : PathText :=
  let (head, pieces) := path.split
  unsplit head (dropIdle pieces)

theorem Stem.parent_eq {dir : PathText} {piece : String} {rest : List String}
    (stem : Stem dir piece rest) : parent piece rest = dir.trimmed := by
  rcases stem.written with ⟨written, filled⟩ | written
  · rw [trimmed, split_eq written filled]
    rfl
  · rw [trimmed, split_eq written (by simp), behindHead_append]
    simp only [dropIdle_concat, component?, decide_true, Bool.true_or, if_true,
      Option.isNone_none]
    rfl

theorem dropIdle_behindHead (piece : String) (rest : List String) :
    dropIdle (behindHead piece rest) = behindHead piece (dropIdle rest) := by
  unfold behindHead
  split
  next headless => exact dropIdle_cons (component?_of_ofPiece headless) rest
  · rfl

section

variable {dir : PathText}

theorem parent?_join_name (some : dir.text ≠ "") {name : String} (named : IsName name) :
    (dir.join ⟨name⟩).parent? = .some dir.trimmed := by
  obtain ⟨piece, rest, stem⟩ := exists_stem some
  rw [stem.parent?_join named, stem.parent_eq]

theorem directory_join_name (some : dir.text ≠ "") {name : String} (named : IsName name) :
    (dir.join ⟨name⟩).directory = dir.trimmed := by
  obtain ⟨piece, rest, stem⟩ := exists_stem some
  rw [stem.directory_join named, stem.parent_eq]

theorem trimmed_text_ne (some : dir.text ≠ "") : dir.trimmed.text ≠ "" := by
  obtain ⟨piece, rest, stem⟩ := exists_stem some
  rw [← stem.parent_eq]
  exact stem.parent_text_ne

theorem trimmed_components (some : dir.text ≠ "") : dir.trimmed.components = dir.components := by
  obtain ⟨piece, rest, stem⟩ := exists_stem some
  rw [← stem.parent_eq, stem.parent_components]

/-- Nothing is left to be taken off a second time. -/
theorem trimmed_trimmed (some : dir.text ≠ "") : dir.trimmed.trimmed = dir.trimmed := by
  obtain ⟨piece, rest, stem⟩ := exists_stem some
  obtain ⟨others, spelled, filled, kept⟩ := stem.parent_pieces
  have same : dropIdle others = dropIdle rest := by
    rcases kept with rfl | ⟨rfl, bare⟩
    · exact List.rdropWhile_idempotent _ rest
    · rw [bare]
      rfl
  rw [← stem.parent_eq, trimmed, split_eq spelled filled]
  simp only [Stem.parent, dropIdle_behindHead, same]

end

/-! ### Descending -/

/-- The path that names lead to, one after the other, from a base. -/
def descend (base : PathText) (names : List String) : PathText :=
  names.foldl (fun path name => path.join ⟨name⟩) base

theorem descend_concat (base : PathText) (names : List String) (name : String) :
    base.descend (names ++ [name]) = (base.descend names).join ⟨name⟩ := by
  simp [descend]

section

variable {base : PathText} {names : List String}

theorem descend_text_ne (some : base.text ≠ "") (named : ∀ name ∈ names, IsName name) :
    (base.descend names).text ≠ "" := by
  induction names using List.reverseRecOn with
  | nil => exact some
  | append_singleton names name =>
    rw [descend_concat]
    exact join_name_ne (named name (by simp)) _

theorem descend_components (base : PathText) (named : ∀ name ∈ names, IsName name) :
    (base.descend names).components = base.components ++ names.map .name := by
  induction names using List.reverseRecOn with
  | nil => simp [descend]
  | append_singleton names name ih =>
    have above := ih fun other member => named other (List.mem_append_left _ member)
    rw [descend_concat, components_join_name (named name (by simp)), above, List.map_append,
      List.append_assoc]
    rfl

end

/-! ### Taking a base off -/

theorem components_ne_nil {path : PathText} (some : path.text ≠ "") : path.components ≠ [] := by
  obtain ⟨piece, rest, stem⟩ := exists_stem some
  rw [stem.components]
  cases head : Head.ofPiece piece with
  | root => simp [Head.components]
  | current => simp [Head.components]
  | none =>
    -- Without a head the first piece is a component itself.
    obtain ⟨component, visible⟩ := Option.isSome_iff_exists.mp (component?_of_ofPiece head)
    simp [behindHead, head, visible]

theorem dropComponents_suffix (count : Nat) (pieces : List String) :
    dropComponents count pieces <:+ pieces := by
  fun_induction dropComponents count pieces with
  | case1 pieces => exact List.suffix_refl pieces
  | case2 => exact List.suffix_refl []
  | case3 count piece rest _ ih => exact ih.trans (List.suffix_cons piece rest)
  | case4 count piece rest _ ih => exact ih.trans (List.suffix_cons piece rest)

theorem filterMap_dropComponents (count : Nat) (pieces : List String) :
    (dropComponents count pieces).filterMap component? =
      (pieces.filterMap component?).drop count := by
  fun_induction dropComponents count pieces with
  | case1 pieces => rfl
  | case2 => simp
  | case3 count piece rest idle ih =>
    rw [ih, List.filterMap_cons_none (Option.isNone_iff_eq_none.mp idle)]
  | case4 count piece rest visible ih =>
    obtain ⟨component, shown⟩ :=
      Option.ne_none_iff_exists'.mp (mt Option.isNone_iff_eq_none.mpr visible)
    rw [ih, List.filterMap_cons_some shown, List.drop_succ_cons]

theorem filterMap_dropWhile_idle (pieces : List String) :
    (pieces.dropWhile fun piece => (component? piece).isNone).filterMap component? =
      pieces.filterMap component? := by
  induction pieces with
  | nil => rfl
  | cons piece rest ih =>
    rw [List.dropWhile_cons]
    split
    next idle => rw [ih, List.filterMap_cons_none (Option.isNone_iff_eq_none.mp idle)]
    · rfl

theorem mem_pieces_of_mem_split {path : PathText} {piece : String} (member : piece ∈ path.split.2) :
    piece ∈ path.pieces := by
  unfold PathText.split at member
  split at member <;> simp_all

/-- Pieces of a path of which the first is a component make up a path without a head. -/
theorem headless_ofPieces (path : PathText) {kept : List String} (inside : kept ⊆ path.pieces)
    (first : ∀ piece ∈ kept.head?, (component? piece).isSome = true) :
    (ofPieces (dropIdle kept)).Headless ∧
      (ofPieces (dropIdle kept)).components = kept.filterMap component? := by
  cases kept with
  | nil => exact ⟨headless_empty, rfl⟩
  | cons piece rest =>
    have visible := first piece rfl
    have written : (ofPieces (dropIdle (piece :: rest))).pieces = piece :: dropIdle rest := by
      rw [dropIdle_cons visible]
      refine pieces_ofPieces (List.cons_ne_nil _ _) fun part member => ?_
      have held : part ∈ piece :: rest := by
        rcases List.mem_cons.mp member with rfl | later
        · exact List.mem_cons_self
        · exact List.mem_cons_of_mem _ (mem_of_mem_dropIdle later)
      exact slash_not_mem_of_mem_pieces (inside held)
    have headless := headless_of_pieces written visible
    refine ⟨headless, ?_⟩
    rw [headless.components, written, ← dropIdle_cons visible, filterMap_dropIdle]

/-- The part of a path behind a base that it begins with has the components behind those of the
base, and no head. -/
theorem exists_below {path base : PathText} {components : List Component}
    (some : base.text ≠ "") (within : path.components = base.components ++ components) :
    ∃ tail, path.below? base = .some tail ∧ tail.Headless ∧ tail.components = components := by
  have begins : base.components.isPrefixOf path.components = true := by
    rw [List.isPrefixOf_iff_prefix, within]
    exact List.prefix_append _ _
  obtain ⟨component, rest, baseParts⟩ := List.exists_cons_of_ne_nil (components_ne_nil some)
  let count := if path.split.1 = .none then rest.length + 1 else rest.length
  -- A head is the first component of the base, and has no piece behind it to be dropped.
  have behind : (path.split.2.filterMap component?).drop count = components := by
    have parts : path.split.1.components ++ path.split.2.filterMap component? =
        component :: (rest ++ components) := by
      rw [← List.cons_append, ← baseParts, ← within]
      rfl
    cases head : path.split.1 with
    | none =>
      rw [head, Head.components, List.nil_append] at parts
      simp [count, head, parts]
    | root | current =>
      rw [head, Head.components, List.singleton_append, List.cons.injEq] at parts
      simp [count, head, parts.2]
  let kept := (dropComponents count path.split.2).dropWhile fun piece => (component? piece).isNone
  have inside : kept ⊆ path.pieces := by
    intro piece member
    have dropped := (List.dropWhile_suffix _).subset member
    exact mem_pieces_of_mem_split ((dropComponents_suffix _ _).subset dropped)
  have first : ∀ piece ∈ kept.head?, (component? piece).isSome = true := by
    intro piece leads
    have visible := List.head?_dropWhile_not (fun piece => (component? piece).isNone)
      (dropComponents count path.split.2)
    rw [Option.mem_def.mp leads] at visible
    simpa using visible
  obtain ⟨headless, shown⟩ := headless_ofPieces path inside first
  refine ⟨ofPieces (dropIdle kept), ?_, headless, ?_⟩
  · rw [below?, if_pos begins, baseParts]
    rfl
  · rw [shown, filterMap_dropWhile_idle, filterMap_dropComponents, behind]

end StructInventory.PathText
