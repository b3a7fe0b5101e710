import StructInventory.Text.CaseMap
import StructInventory.Text.Property

/-!
Lower-casing of whole texts. Characters are mapped one by one, except that a capital sigma at the
end of a word has a form of its own.
-/

namespace StructInventory.Text

open Category

/-- Letters and signs with case that are neither capital, small nor title-case letters. -/
def casedSign : RangeSet := .ofText
  "AA BA 2B0-2B8 2C0-2C1 2E0-2E4 345 37A 10FC 1D2C-1D6A 1D78 1D9B-1DBF 2071 207F 2090-209C
  2160-217F 24B6-24E9 2C7C-2C7D A69C-A69D A770 A7F2-A7F4 A7F8-A7F9 AB5C-AB5F AB69 10780
  10783-10785 10787-107B0 107B2-107BA 1E030-1E06D 1F130-1F149 1F150-1F169 1F170-1F189"

def isCased (c : Char) : Bool :=
  if isAscii c then isAsciiLetter c
  else uppercaseLetter.contains c || lowercaseLetter.contains c || titlecaseLetter.contains c ||
    casedSign.contains c

/-- Punctuation that may stand within a word. -/
def innerPunctuation : RangeSet := .ofText
  "27 2E 3A B7 387 55F 5F4 2018-2019 2024 2027 FE13 FE52 FE55 FF07 FF0E FF1A"

/-- Characters that are passed over when the case of what is around them is looked at. -/
def isCaseIgnorable (c : Char) : Bool :=
  innerPunctuation.contains c || nonspacingMark.contains c || enclosingMark.contains c ||
    format.contains c || modifierLetter.contains c || modifierSymbol.contains c

/-- Whether a character with case comes first, those apart that are passed over. -/
def meetsCased (text : List Char) : Bool := (text.dropWhile isCaseIgnorable).head?.any isCased

/-- The small form of a character, given the text before it, reversed, and the text behind it. -/
def lowerChar (before : List Char) (c : Char) (behind : List Char) : List Char :=
  if c = '\u03a3' then [if meetsCased before && !meetsCased behind then '\u03c2' else '\u03c3']
  else if c = '\u0130' then ['i', '\u0307']
  else [CaseMap.lower.apply c]

def lowercaseFrom (before : List Char) : List Char → List Char
  | [] => []
  | c :: rest => lowerChar before c rest ++ lowercaseFrom (c :: before) rest

def lowercase (text : String) : String := String.ofList (lowercaseFrom [] text.toList)

end StructInventory.Text
