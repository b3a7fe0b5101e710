import Mathlib.Data.List.Basic
import StructInventory.Naming
import StructInventory.Proofs.AcceptedItem
import StructInventory.Proofs.EntryPath

/-!
Names of structs as names of files. A struct that a source text declares is named by an identifier,
and neither the casing of that nor an extension behind it brings in a slash or leaves a name of dots
alone: each struct has a file name of a single component.
-/

namespace StructInventory

/-! ### Identifiers -/

/-- A text that an identifier spells. -/
def Grammar.Spelled (text : String) : Prop := ∃ ident : Ident, text = ident.text

/-- What a source file declares has identifiers as names. -/
theorem SourceFile.name_spelled {text : String} {file : SourceFile}
    (done : SourceFile.read text = .ok file) :
    ∀ decl ∈ file.typeDecls, Grammar.Spelled decl.name := by
  intro decl member
  obtain ⟨word, -, -, same⟩ := declarable_of_read done decl member
  exact ⟨word.name, same⟩

/-! ### Casing -/

/-- Characters that neither divide a path nor make up its dots. -/
def Clean (text : List Char) : Prop := ∀ c ∈ text, c ≠ '/' ∧ c ≠ '.'

namespace Text

theorem runs_ofText (chars : List Char) :
    (CaseMap.ofText (String.ofList chars)).runs =
      (((splitAt '\n' chars).flatMap (splitAt ' ')).filter (!·.isEmpty)).map CaseRun.read := by
  simp [CaseMap.ofText, words]

/-- The small counterparts in the table are small letters of ASCII or stand behind these. -/
theorem target_of_mem_lower : ∀ run ∈ CaseMap.lower.runs, 0x61 ≤ run.target := by
  unfold CaseMap.lower
  rw [runs_ofText]
  decide +kernel

theorem toNat_ofNat_cases (code : Nat) :
    (Char.ofNat code).toNat = code ∨ (Char.ofNat code).toNat = 0 := by
  by_cases valid : code.isValidChar
  · left
    rw [Char.ofNat, dif_pos valid]
    rfl
  · right
    rw [Char.ofNat, dif_neg valid]
    rfl

theorem apply_lower_cases (c : Char) :
    CaseMap.lower.apply c = c ∨ (CaseMap.lower.apply c).toNat = 0 ∨
      0x61 ≤ (CaseMap.lower.apply c).toNat := by
  unfold CaseMap.apply
  cases found : CaseMap.lower.runs.findSome? (·.image? c.toNat) with
  | none => exact Or.inl rfl
  | some code =>
    obtain ⟨run, listed, image⟩ := List.exists_of_findSome?_eq_some found
    have beyond : 0x61 ≤ code := by
      have target := target_of_mem_lower run listed
      unfold CaseRun.image? at image
      split at image
      · cases image
        omega
      · cases image
    rcases toNat_ofNat_cases code with valid | invalid
    · exact Or.inr (Or.inr (by rw [Option.elim_some, valid]; exact beyond))
    · exact Or.inr (Or.inl invalid)

theorem apply_lower_clean {c : Char} (clean : c ≠ '/' ∧ c ≠ '.') :
    CaseMap.lower.apply c ≠ '/' ∧ CaseMap.lower.apply c ≠ '.' := by
  rcases apply_lower_cases c with same | low | high
  · rw [same]
    exact clean
  · constructor <;> (intro mark; rw [mark] at low; revert low; decide)
  · constructor <;> (intro mark; rw [mark] at high; revert high; decide)

theorem lowerChar_clean (before : List Char) {c : Char} (clean : c ≠ '/' ∧ c ≠ '.')
    (behind : List Char) : Clean (lowerChar before c behind) := by
  intro d member
  unfold lowerChar at member
  split at member
  · split at member <;> (rw [List.mem_singleton.mp member]; decide)
  · split at member
    · simp only [List.mem_cons, List.not_mem_nil, or_false] at member
      rcases member with rfl | rfl <;> decide
    · rw [List.mem_singleton.mp member]
      exact apply_lower_clean clean

theorem lowercaseFrom_clean (before : List Char) {text : List Char} (clean : Clean text) :
    Clean (lowercaseFrom before text) := by
  induction text generalizing before with
  | nil => exact clean
  | cons c rest ih =>
    obtain ⟨first, others⟩ := List.forall_mem_cons.mp clean
    intro d member
    rcases List.mem_append.mp member with here | later
    · exact lowerChar_clean before first rest d here
    · exact ih (c :: before) others d later

theorem lowercaseFrom_ne_nil (before : List Char) {text : List Char} (some : text ≠ []) :
    lowercaseFrom before text ≠ [] := by
  obtain ⟨c, rest, rfl⟩ := List.exists_cons_of_ne_nil some
  have shown : lowerChar before c rest ≠ [] := by
    unfold lowerChar
    split
    · exact List.cons_ne_nil _ _
    · split <;> exact List.cons_ne_nil _ _
  rw [lowercaseFrom]
  exact fun none => shown (List.append_eq_nil_iff.mp none).1

end Text

/-- Nothing but underscores comes in between the words of a name. -/
theorem mem_splitWords {inRun : Bool} {text : List Char} {c : Char}
    (member : c ∈ splitWords inRun text) : c = '_' ∨ c ∈ text := by
  fun_induction splitWords inRun text with
  | case1 => exact Or.inr member
  | case2 _ first rest _ ih =>
    rcases List.mem_cons.mp member with rfl | later
    · exact Or.inr List.mem_cons_self
    · exact (ih later).imp_right (List.mem_cons_of_mem _)
  | case3 _ first _ capital small behind _ ih =>
    simp only [List.mem_cons] at member ih ⊢
    grind
  | case4 _ first _ capital small behind _ ih =>
    simp only [List.mem_cons] at member ih ⊢
    grind
  | case5 _ first rest _ _ ih =>
    rcases List.mem_cons.mp member with rfl | later
    · exact Or.inr List.mem_cons_self
    · exact (ih later).imp_right (List.mem_cons_of_mem _)

theorem splitWords_ne_nil {inRun : Bool} {text : List Char} (some : text ≠ []) :
    splitWords inRun text ≠ [] := by
  fun_cases splitWords inRun text <;> simp_all

theorem mem_splitBoundaries {text : List Char} {c : Char} (member : c ∈ splitBoundaries text) :
    c = '_' ∨ c ∈ text := by
  fun_induction splitBoundaries text with
  | case1 => exact Or.inr member
  | case2 first => exact Or.inr member
  | case3 first next rest _ ih =>
    simp only [List.mem_cons] at member ih ⊢
    grind
  | case4 first next rest _ ih =>
    simp only [List.mem_cons] at member ih ⊢
    grind

theorem splitBoundaries_ne_nil {text : List Char} (some : text ≠ []) :
    splitBoundaries text ≠ [] := by
  fun_cases splitBoundaries text <;> simp_all

/-- What casing keeps of a name: it is not empty, and has no slash and no dot. -/
structure FileStem (name : String) : Prop where
  nonempty : name.toList ≠ []
  clean : Clean name.toList

theorem Ident.fileStem (ident : Ident) : FileStem ident.text where
  nonempty := ident.nonempty
  clean := by
    intro c member
    have continues := List.all_eq_true.mp ident.spelled c member
    constructor
    · rintro rfl
      exact absurd continues (by decide)
    · rintro rfl
      exact absurd continues (by decide)

theorem FileStem.underscoreCase {name : String} (stem : FileStem name) :
    FileStem (underscoreCase name) := by
  have cleanWords : Clean (splitWords false name.toList) := by
    intro c member
    rcases mem_splitWords member with rfl | held
    · decide
    · exact stem.clean c held
  have clean : Clean (splitBoundaries (splitWords false name.toList)) := by
    intro c member
    rcases mem_splitBoundaries member with rfl | held
    · decide
    · exact cleanWords c held
  unfold StructInventory.underscoreCase Text.lowercase
  constructor
  · rw [String.toList_ofList, String.toList_ofList]
    exact Text.lowercaseFrom_ne_nil [] (splitBoundaries_ne_nil (splitWords_ne_nil stem.nonempty))
  · rw [String.toList_ofList, String.toList_ofList]
    exact Text.lowercaseFrom_clean [] clean

theorem FileStem.apply {name : String} (stem : FileStem name) (case : Case) :
    FileStem (case.apply name) := by
  cases case with
  | camel => exact stem
  | snake => exact stem.underscoreCase
  | underscore => exact stem.underscoreCase

/-- With an extension that does not divide it, a cased name is the name of a file. -/
theorem FileStem.isName {stem : String} (named : FileStem stem) {extension : String}
    (undivided : '/' ∉ extension.toList) : PathText.IsName (stem ++ "." ++ extension) where
  undivided := by
    have clean : '/' ∉ stem.toList := fun slash => (named.clean _ slash).1 rfl
    simp [clean, undivided]
  ordinary := by
    obtain ⟨c, rest, spelled⟩ := List.exists_cons_of_ne_nil named.nonempty
    have undotted : c ≠ '.' := (named.clean c (by simp [spelled])).2
    have leads : (stem ++ "." ++ extension).toList.head? = some c := by simp [spelled]
    have other (text : String) (dots : text.toList.head? = none ∨ text.toList.head? = some '.') :
        stem ++ "." ++ extension ≠ text := by
      rintro rfl
      rw [leads] at dots
      rcases dots with none | dot
      · cases none
      · exact undotted (Option.some.inj dot)
    simp only [FileTree.isEntryName, Bool.and_eq_true, decide_eq_true_eq]
    exact ⟨⟨other "" (.inl rfl), other "." (.inr rfl)⟩, other ".." (.inr rfl)⟩

/-- Casing decides a file name, whatever the extension. -/
theorem fileName_inj {stem stem' extension : String} :
    stem ++ "." ++ extension = stem' ++ "." ++ extension ↔ stem = stem' := by
  simp [← String.toList_inj]

end StructInventory
