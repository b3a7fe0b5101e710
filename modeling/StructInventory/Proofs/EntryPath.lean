import Mathlib.Data.List.DropRight
import Mathlib.Data.List.Induction
import StructInventory.Resolution

/-!
Paths of directory entries. Whatever separators and dots the path of a directory is written with,
the path of an entry has its components and one more, and the directory of that path has the
components of the path that was given.
-/

namespace StructInventory

theorem Text.splitAt_eq_splitOn (mark : Char) (text : List Char) :
    splitAt mark text = text.splitOn mark := by
  induction text with
  | nil => rfl
  | cons c text ih =>
    unfold splitAt at ih ⊢
    rw [List.foldr_cons, ih, List.splitOn_cons_eq_if_modifyHead]
    obtain ⟨piece, rest, split⟩ := List.exists_cons_of_ne_nil (List.splitOn_ne_nil mark text)
    by_cases isMark : c = mark
    · simp [isMark]
    · simp [isMark, split]

theorem Text.not_mem_of_mem_splitOn {mark : Char} {text piece : List Char}
    (member : piece ∈ text.splitOn mark) : mark ∉ piece := by
  induction text generalizing piece with
  | nil => simp_all
  | cons c text ih =>
    rw [List.splitOn_cons_eq_if_modifyHead] at member
    split at member
    · rcases List.mem_cons.mp member with rfl | later
      · simp
      · exact ih later
    next other =>
      obtain ⟨first, rest, split⟩ := List.exists_cons_of_ne_nil (List.splitOn_ne_nil mark text)
      rw [split, List.modifyHead_cons] at member
      rcases List.mem_cons.mp member with rfl | later
      · have within : mark ∉ first := ih (by simp [split])
        simp only [beq_iff_eq] at other
        simp [within, Ne.symm other]
      · exact ih (by simp [split, later])

/-! ### Pieces -/

namespace PathText

/-- What can name an entry of a directory: a single component that is no dot and no pair of dots. -/
structure IsName (name : String) : Prop where
  undivided : '/' ∉ name.toList
  ordinary : FileTree.isEntryName name = true

theorem IsName.component? {name : String} (named : IsName name) :
    component? name = some (.name name) := by
  have ordinary := named.ordinary
  simp only [FileTree.isEntryName, Bool.and_eq_true, decide_eq_true_eq] at ordinary
  obtain ⟨⟨some, dot⟩, dots⟩ := ordinary
  simp [PathText.component?, some, dot, dots]

theorem pieces_eq (path : PathText) :
    path.pieces = (path.text.toList.splitOn '/').map String.ofList := by
  rw [pieces, Text.splitAt_eq_splitOn]

theorem pieces_ne_nil (path : PathText) : path.pieces ≠ [] := by
  simp [pieces_eq, List.splitOn_ne_nil]

theorem pieces_name {name : String} (named : IsName name) : pieces ⟨name⟩ = [name] := by
  rw [pieces_eq, List.splitOn_eq_singleton named.undivided]
  simp

/-- Pieces without slashes are those of the path they make up. -/
theorem pieces_ofPieces {parts : List String} (some : parts ≠ [])
    (undivided : ∀ part ∈ parts, '/' ∉ part.toList) : (ofPieces parts).pieces = parts := by
  rw [pieces_eq, ofPieces, String.toList_intercalate]
  have split : (['/'].intercalate (parts.map String.toList)).splitOn '/' = _ :=
    List.splitOn_intercalate '/' (by simpa using undivided) (by simpa using some)
  rw [show "/".toList = ['/'] from rfl, split]
  simp [Function.comp_def]

theorem slash_not_mem_of_mem_pieces {path : PathText} {piece : String}
    (member : piece ∈ path.pieces) : '/' ∉ piece.toList := by
  rw [pieces_eq] at member
  obtain ⟨chars, listed, rfl⟩ := List.mem_map.mp member
  rw [String.toList_ofList]
  exact Text.not_mem_of_mem_splitOn listed

theorem toList_eq_intercalate (path : PathText) :
    path.text.toList = ['/'].intercalate (path.pieces.map String.toList) := by
  have joined : ['/'].intercalate (path.text.toList.splitOn '/') = _ :=
    List.intercalate_splitOn '/'
  simp [pieces_eq, Function.comp_def, joined]

/-! ### Heads -/

/-- The head of a path that has `piece` as the first of several pieces. -/
def Head.ofPiece (piece : String) : Head :=
  if piece = "" then .root else if piece = "." then .current else .none

/-- The pieces behind the head, of those that begin with `piece`. -/
def behindHead (piece : String) (rest : List String) : List String :=
  if Head.ofPiece piece = .none then piece :: rest else rest

theorem behindHead_append (piece : String) (rest more : List String) :
    behindHead piece (rest ++ more) = behindHead piece rest ++ more := by
  unfold behindHead
  split <;> rfl

theorem split_eq {path : PathText} {piece : String} {rest : List String}
    (written : path.pieces = piece :: rest) (filled : piece = "" → rest ≠ []) :
    path.split = (Head.ofPiece piece, behindHead piece rest) := by
  unfold PathText.split behindHead Head.ofPiece
  rw [written]
  by_cases root : piece = ""
  · obtain ⟨second, others, rfl⟩ := List.exists_cons_of_ne_nil (filled root)
    simp [root]
  · by_cases current : piece = "."
    · simp [current]
    · simp [root, current]

theorem components_eq {path : PathText} {piece : String} {rest : List String}
    (written : path.pieces = piece :: rest) (filled : piece = "" → rest ≠ []) :
    path.components =
      (Head.ofPiece piece).components ++ (behindHead piece rest).filterMap component? := by
  rw [components, split_eq written filled]

theorem isAbsolute_iff {path : PathText} {piece : String} {rest : List String}
    (written : path.pieces = piece :: rest) (filled : piece = "" → rest ≠ []) :
    path.isAbsolute = true ↔ piece = "" := by
  have first : piece ∈ path.pieces := by simp [written]
  have undivided := slash_not_mem_of_mem_pieces first
  rw [isAbsolute, toList_eq_intercalate, written, decide_eq_true_iff]
  constructor
  · intro leads
    by_contra visible
    obtain ⟨c, chars, spelled⟩ := List.exists_cons_of_ne_nil
      (fun empty => visible (String.toList_eq_nil_iff.mp empty))
    cases rest <;> simp_all
  · rintro rfl
    obtain ⟨second, others, rfl⟩ := List.exists_cons_of_ne_nil (filled rfl)
    simp

theorem components_name {name : String} (named : IsName name) :
    (PathText.mk name).components = [.name name] := by
  have ordinary := named.ordinary
  simp only [FileTree.isEntryName, Bool.and_eq_true, decide_eq_true_eq] at ordinary
  obtain ⟨⟨some, dot⟩, dots⟩ := ordinary
  rw [components_eq (pieces_name named) (fun empty => absurd empty some)]
  simp [behindHead, Head.ofPiece, some, dot, Head.components, named.component?]

/-! ### The path of an entry -/

/-- The pieces that the paths of a directory's entries begin with: those of the directory's own
path, less a slash at its end. -/
structure Stem (dir : PathText) (piece : String) (rest : List String) : Prop where
  written : dir.pieces = piece :: rest ∧ (piece = "" → rest ≠ []) ∨
    dir.pieces = piece :: (rest ++ [""])
  join : ∀ name, IsName name → (dir.join ⟨name⟩).pieces = piece :: (rest ++ [name])

theorem IsName.relative {name : String} (named : IsName name) :
    (PathText.mk name).isAbsolute = false := by
  rw [isAbsolute, decide_eq_false_iff_not]
  intro leads
  exact named.undivided (List.mem_of_mem_head? leads)

/-- A path is joined to another as one list of pieces is put behind another, less a slash at the
end of the first. -/
theorem exists_front {dir : PathText} (some : dir.text ≠ "") :
    ∃ front, front ≠ [] ∧ (dir.pieces = front ∧ front ≠ [""] ∨ dir.pieces = front ++ [""]) ∧
      ∀ path : PathText, path.isAbsolute = false →
        (dir.join path).pieces = front ++ path.pieces := by
  have nonempty : dir.text.toList ≠ [] := fun empty => some (String.toList_eq_nil_iff.mp empty)
  have ends := List.getLast?_eq_some_getLast nonempty
  -- Joining adds a slash only where none is; either way the pieces of the other path are added.
  by_cases slash : dir.text.toList.getLast nonempty = '/'
  · rw [slash] at ends
    obtain ⟨front, spelled⟩ := List.getLast?_eq_some_iff.mp ends
    refine ⟨(front.splitOn '/').map String.ofList, ?_, Or.inr ?_, fun path relative => ?_⟩
    · simp [List.splitOn_ne_nil]
    · simp [pieces_eq, spelled, List.splitOn_append_cons_self]
    · rw [PathText.join, relative, ends]
      simp [pieces_eq, spelled, List.splitOn_append_cons_self]
  · refine ⟨dir.pieces, dir.pieces_ne_nil, Or.inl ⟨rfl, fun alone => ?_⟩, fun path relative => ?_⟩
    · have empty := toList_eq_intercalate dir
      rw [alone] at empty
      exact nonempty (by simpa using empty)
    · have joined : (dir.join path).text.toList = dir.text.toList ++ '/' :: path.text.toList := by
        rw [PathText.join, relative, ends]
        simp
      rw [pieces_eq, joined, List.splitOn_append_cons_self, List.map_append, ← pieces_eq,
        ← pieces_eq]

theorem exists_stem {dir : PathText} (some : dir.text ≠ "") : ∃ piece rest, Stem dir piece rest := by
  obtain ⟨front, nonempty, written, joined⟩ := exists_front some
  obtain ⟨piece, rest, rfl⟩ := List.exists_cons_of_ne_nil nonempty
  refine ⟨piece, rest, ?_, fun name named => ?_⟩
  · rcases written with ⟨written, alone⟩ | written
    · exact Or.inl ⟨written, fun empty none => alone (by rw [empty, none])⟩
    · exact Or.inr written
  · rw [joined ⟨name⟩ named.relative, pieces_name named, List.cons_append]

namespace Stem

variable {dir : PathText} {piece : String} {rest : List String}

theorem components (stem : Stem dir piece rest) :
    dir.components =
      (Head.ofPiece piece).components ++ (behindHead piece rest).filterMap component? := by
  rcases stem.written with ⟨written, filled⟩ | written
  · exact components_eq written filled
  · rw [components_eq written (by simp), behindHead_append, List.filterMap_append]
    simp [component?]

theorem components_join (stem : Stem dir piece rest) {name : String} (named : IsName name) :
    (dir.join ⟨name⟩).components = dir.components ++ [.name name] := by
  rw [components_eq (stem.join name named) (by simp), stem.components, behindHead_append,
    List.filterMap_append]
  simp [named.component?]

/-- The directory that the paths of entries name. -/
def parent (piece : String) (rest : List String) : PathText :=
  unsplit (Head.ofPiece piece) (dropIdle (behindHead piece rest))

end Stem

theorem dropIdle_concat (pieces : List String) (piece : String) :
    dropIdle (pieces ++ [piece]) =
      if (component? piece).isNone then dropIdle pieces else pieces ++ [piece] :=
  List.rdropWhile_concat (fun piece => (component? piece).isNone) pieces piece

theorem mem_of_mem_dropIdle {pieces : List String} {piece : String}
    (member : piece ∈ dropIdle pieces) : piece ∈ pieces :=
  (List.rdropWhile_prefix _ pieces).subset member

/-- A component keeps what stands before it. -/
theorem dropIdle_cons {piece : String} (visible : (component? piece).isSome = true)
    (pieces : List String) : dropIdle (piece :: pieces) = piece :: dropIdle pieces := by
  have shown : ¬(component? piece).isNone = true := by
    simpa [Option.isSome_iff_ne_none] using visible
  induction pieces using List.reverseRecOn with
  | nil => rw [← List.nil_append [piece], dropIdle_concat, if_neg shown]; rfl
  | append_singleton pieces last ih =>
    rw [← List.cons_append, dropIdle_concat, dropIdle_concat, ih]
    split <;> rfl

theorem filterMap_dropIdle (pieces : List String) :
    (dropIdle pieces).filterMap component? = pieces.filterMap component? := by
  induction pieces using List.reverseRecOn with
  | nil => rfl
  | append_singleton pieces piece ih =>
    rw [dropIdle_concat]
    split
    next idle =>
      rw [ih, List.filterMap_append]
      simp [Option.isNone_iff_eq_none.mp idle]
    next => rfl

namespace Stem

variable {dir : PathText} {piece : String} {rest : List String}

theorem undivided (stem : Stem dir piece rest) : ∀ part ∈ piece :: rest, '/' ∉ part.toList := by
  intro part member
  have held : part ∈ dir.pieces := by
    rcases stem.written with ⟨written, _⟩ | written
    · rwa [written]
    · rw [written, ← List.cons_append]
      exact List.mem_append_left _ member
  exact slash_not_mem_of_mem_pieces held

/-- The head is never lost with the idle pieces, since a path without one begins with a
component. -/
theorem parent_pieces (stem : Stem dir piece rest) :
    ∃ others, (parent piece rest).pieces = piece :: others ∧ (piece = "" → others ≠ []) ∧
      (others = dropIdle rest ∨ others = [""] ∧ dropIdle rest = []) := by
  have undivided : ∀ part ∈ piece :: dropIdle rest, '/' ∉ part.toList := by
    intro part member
    refine stem.undivided part ?_
    rcases List.mem_cons.mp member with rfl | later
    · exact List.mem_cons_self
    · exact List.mem_cons_of_mem _ (mem_of_mem_dropIdle later)
  have spelled := pieces_ofPieces (List.cons_ne_nil piece (dropIdle rest)) undivided
  unfold parent behindHead Head.ofPiece
  by_cases root : piece = ""
  · -- The root is the one path that ends in a slash of its own.
    subst root
    by_cases bare : dropIdle rest = []
    · refine ⟨[""], ?_, by simp, Or.inr ⟨rfl, bare⟩⟩
      have slash : (ofPieces ["", ""]).pieces = ["", ""] := pieces_ofPieces (by simp) (by simp)
      simpa [unsplit, bare] using slash
    · refine ⟨dropIdle rest, ?_, fun _ => bare, Or.inl rfl⟩
      simpa [unsplit, bare] using spelled
  · refine ⟨dropIdle rest, ?_, fun empty => absurd empty root, Or.inl rfl⟩
    by_cases current : piece = "."
    · simpa [unsplit, current] using spelled
    · have visible : (component? piece).isSome = true := by
        unfold component?
        split
        · simp_all
        · split <;> rfl
      simpa [unsplit, root, current, dropIdle_cons visible] using spelled

theorem parent_text_ne (stem : Stem dir piece rest) : (parent piece rest).text ≠ "" := by
  obtain ⟨others, spelled, filled, _⟩ := stem.parent_pieces
  intro empty
  rw [pieces_eq, empty] at spelled
  simp only [String.toList_empty, List.splitOn_nil, List.map_singleton, List.cons.injEq] at spelled
  exact filled spelled.1.symm spelled.2.symm

theorem parent?_join (stem : Stem dir piece rest) {name : String} (named : IsName name) :
    (dir.join ⟨name⟩).parent? = some (parent piece rest) := by
  rw [parent?, split_eq (stem.join name named) (by simp), behindHead_append]
  simp only [dropIdle_concat, named.component?, Option.isNone_some, Bool.false_eq_true, if_false,
    List.reverse_append, List.reverse_singleton, List.singleton_append, List.reverse_reverse]
  rfl

theorem directory_join (stem : Stem dir piece rest) {name : String} (named : IsName name) :
    (dir.join ⟨name⟩).directory = parent piece rest := by
  rw [directory, stem.parent?_join named]
  exact if_neg stem.parent_text_ne

theorem parent_components (stem : Stem dir piece rest) :
    (parent piece rest).components = dir.components := by
  obtain ⟨others, spelled, filled, kept⟩ := stem.parent_pieces
  have same : (behindHead piece others).filterMap component? =
      (behindHead piece rest).filterMap component? := by
    have others_eq : others.filterMap component? = rest.filterMap component? := by
      rcases kept with rfl | ⟨rfl, bare⟩
      · exact filterMap_dropIdle rest
      · rw [← filterMap_dropIdle rest, bare]
        rfl
    unfold behindHead
    split
    · simp only [List.filterMap_cons, others_eq]
    · exact others_eq
  rw [components_eq spelled filled, stem.components, same]

end Stem

/-! ### Order and eligibility -/

theorem componentsBefore_append (stem : List Component) (rest rest' : List Component) :
    componentsBefore (stem ++ rest) (stem ++ rest') = componentsBefore rest rest' := by
  induction stem with
  | nil => rfl
  | cons component stem ih =>
    have notBefore : component.before component = false := by
      cases component <;> simp [Component.before, Component.rank]
    simp [componentsBefore, notBefore, ih]

/-- Entries of a directory are in the order of their names. -/
theorem Stem.before_join {dir : PathText} {piece : String} {rest : List String}
    (stem : Stem dir piece rest) {name name' : String} (named : IsName name)
    (named' : IsName name') : (dir.join ⟨name⟩).before (dir.join ⟨name'⟩) = decide (name < name') := by
  rw [before, stem.components_join named, stem.components_join named', componentsBefore_append]
  simp [componentsBefore, Component.before]

theorem Stem.fileName_join {dir : PathText} {piece : String} {rest : List String}
    (stem : Stem dir piece rest) {name : String} (named : IsName name) :
    (dir.join ⟨name⟩).fileName? = some name := by
  rw [fileName?, stem.components_join named, List.getLast?_concat]

theorem Stem.isEligible_join {dir : PathText} {piece : String} {rest : List String}
    (stem : Stem dir piece rest) {name : String} (named : IsName name) :
    (dir.join ⟨name⟩).isEligible = (PathText.mk name).isEligible := by
  have joined := stem.fileName_join named
  have alone : (PathText.mk name).fileName? = some name := by
    rw [fileName?, components_name named]
    rfl
  simp only [isEligible, extension?, stem?, joined, alone]

end PathText

end StructInventory
