import StructInventory.Text.Property

/-!
Identifiers and the words that spell them. An identifier carries the proof that it can be spelled,
so that no name taken from a source text is ever empty or holds a mark.
-/

namespace StructInventory

open Text

/-- A name that a source text can spell: characters that may continue an identifier, and at least
one of them. -/
structure Ident where
  text : String
  nonempty : text.toList ≠ []
  spelled : text.toList.all isIdentContinue = true
  deriving Repr

namespace Ident

def underscore : Ident := ⟨"_", by decide, by decide⟩

instance : Inhabited Ident := ⟨underscore⟩

theorem isIdentContinue_of_start {c : Char} (start : isIdentStart c = true) :
    isIdentContinue c = true := by
  unfold isIdentContinue
  split
  next ascii =>
    simp only [isIdentStart, ascii, if_true] at start
    simp [start]
  · simp [start]

/-- The longest identifier that begins with `c` and goes on in `rest`. -/
def ofRun (c : Char) (rest : List Char) (start : isIdentStart c = true) : Ident where
  text := String.ofList (c :: rest.takeWhile isIdentContinue)
  nonempty := by simp
  spelled := by
    simp only [String.toList_ofList, List.all_cons, isIdentContinue_of_start start, Bool.true_and]
    exact List.all_takeWhile

/-- The identifier that a text begins with, and the text behind it. -/
def read? : List Char → Option (Ident × List Char)
  | [] => none
  | c :: rest =>
    if start : isIdentStart c then some (ofRun c rest start, rest.dropWhile isIdentContinue)
    else none

end Ident

/-- A word of a source text. A raw one has `r#` before its name. -/
structure Word where
  raw : Bool
  name : Ident
  deriving Repr, Inhabited

namespace Word

def underscore : Word := ⟨false, .underscore⟩

/-- The word as it is written. -/
def text (word : Word) : String := if word.raw then "r#" ++ word.name.text else word.name.text

/-- The name without the mark of a raw identifier. -/
def bare (word : Word) : String := word.name.text

/-- Words that no raw identifier may spell. -/
def refusesRaw (name : Ident) : Bool := ["_", "super", "self", "Self", "crate"].contains name.text

/-- The word that a text begins with, and the text behind it. -/
def read? : List Char → Option (Word × List Char)
  | 'r' :: '#' :: text => do
    let (name, rest) ← Ident.read? text
    if refusesRaw name then none else some (⟨true, name⟩, rest)
  | text => (Ident.read? text).map fun (name, rest) => (⟨false, name⟩, rest)

end Word

end StructInventory
