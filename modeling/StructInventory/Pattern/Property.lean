import StructInventory.Pattern.CharSet
import StructInventory.Text.Lowercase
import StructInventory.Text.Script

/-!
Character properties that patterns name. Spaces, hyphens, underscores and case make no difference in
a name, nor does a leading `is`.
-/

namespace StructInventory.Pattern

open Text Category

/-- A name without what makes no difference in it. -/
def looseName (name : String) : String :=
  let kept (cs : List Char) : List Char :=
    (cs.filter fun c => isAscii c && c ≠ ' ' && c ≠ '_' && c ≠ '-').map Char.toLower
  match name.toList with
  | c :: d :: rest =>
    if c.toLower = 'i' && d.toLower = 's' then
      if kept rest = ['c'] then "isc" else String.ofList (kept rest)
    else String.ofList (kept (c :: d :: rest))
  | cs => String.ofList (kept cs)

/-- The tables of the general category that a loose name stands for. -/
def categoryTables? (name : String) : Option (List RangeSet) :=
  match name with
  | "lu" | "uppercaseletter" => some [uppercaseLetter]
  | "ll" | "lowercaseletter" => some [lowercaseLetter]
  | "lt" | "titlecaseletter" => some [titlecaseLetter]
  | "lc" | "casedletter" => some [uppercaseLetter, lowercaseLetter, titlecaseLetter]
  | "lm" | "modifierletter" => some [modifierLetter]
  | "lo" | "otherletter" => some [otherLetter]
  | "l" | "letter" =>
    some [uppercaseLetter, lowercaseLetter, titlecaseLetter, modifierLetter, otherLetter]
  | "mn" | "nonspacingmark" => some [nonspacingMark]
  | "mc" | "spacingmark" => some [spacingMark]
  | "me" | "enclosingmark" => some [enclosingMark]
  | "m" | "mark" | "combiningmark" => some [nonspacingMark, spacingMark, enclosingMark]
  | "nd" | "decimalnumber" | "digit" => some [decimalNumber]
  | "nl" | "letternumber" => some [letterNumber]
  | "no" | "othernumber" => some [otherNumber]
  | "n" | "number" => some [decimalNumber, letterNumber, otherNumber]
  | "pc" | "connectorpunctuation" => some [connectorPunctuation]
  | "pd" | "dashpunctuation" => some [dashPunctuation]
  | "ps" | "openpunctuation" => some [openPunctuation]
  | "pe" | "closepunctuation" => some [closePunctuation]
  | "pi" | "initialpunctuation" => some [initialPunctuation]
  | "pf" | "finalpunctuation" => some [finalPunctuation]
  | "po" | "otherpunctuation" => some [otherPunctuation]
  | "p" | "punctuation" | "punct" =>
    some [connectorPunctuation, dashPunctuation, openPunctuation, closePunctuation,
      initialPunctuation, finalPunctuation, otherPunctuation]
  | "sm" | "mathsymbol" => some [mathSymbol]
  | "sc" | "currencysymbol" => some [currencySymbol]
  | "sk" | "modifiersymbol" => some [modifierSymbol]
  | "so" | "othersymbol" => some [otherSymbol]
  | "s" | "symbol" => some [mathSymbol, currencySymbol, modifierSymbol, otherSymbol]
  | "zs" | "spaceseparator" => some [spaceSeparator]
  | "zl" | "lineseparator" => some [lineSeparator]
  | "zp" | "paragraphseparator" => some [paragraphSeparator]
  | "z" | "separator" => some [spaceSeparator, lineSeparator, paragraphSeparator]
  | "cc" | "control" | "cntrl" => some [control]
  | "cf" | "format" => some [format]
  | "co" | "privateuse" => some [privateUse]
  | _ => none

def ofTables (tables : List RangeSet) : CharSet := .unions (tables.map .table)

/-- All tables of assigned characters. -/
def assigned : CharSet :=
  ofTables [uppercaseLetter, lowercaseLetter, titlecaseLetter, modifierLetter, otherLetter,
    nonspacingMark, spacingMark, enclosingMark, decimalNumber, letterNumber, otherNumber,
    connectorPunctuation, dashPunctuation, openPunctuation, closePunctuation, initialPunctuation,
    finalPunctuation, otherPunctuation, mathSymbol, currencySymbol, modifierSymbol, otherSymbol,
    spaceSeparator, lineSeparator, paragraphSeparator, control, format, privateUse]

/-- Characters that are neither letters, marks, numbers, punctuation, symbols nor separators. -/
def other : CharSet :=
  .union (ofTables [control, format, privateUse]) (.complement assigned)

def category? (name : String) : Option CharSet :=
  match name with
  | "any" => some .all
  | "ascii" => some (.range '\x00' '\x7f')
  | "assigned" => some assigned
  | "cn" | "unassigned" => some (.complement assigned)
  | "c" | "other" => some other
  | "cs" | "surrogate" => some .none
  | _ => (categoryTables? name).map ofTables

/-- Properties that a character has or has not. -/
def binary? (name : String) : Option CharSet :=
  match name with
  | "alphabetic" | "alpha" => some .letter
  | "whitespace" | "wspace" | "space" => some .space
  | "lowercase" | "lower" =>
    some (.union (.table lowercaseLetter) (.diff (.table casedSign) (ofTables [upperSign])))
  | "uppercase" | "upper" => some (.union (.table uppercaseLetter) (.table upperSign))
  | "cased" =>
    some (ofTables [uppercaseLetter, lowercaseLetter, titlecaseLetter, casedSign])
  | "asciihexdigit" | "ahex" => CharSet.ofAsciiName? "xdigit"
  | "hexdigit" | "hex" =>
    some (.table (.ofText "30-39 41-46 61-66 FF10-FF19 FF21-FF26 FF41-FF46"))
  | "joincontrol" | "joinc" => some (.range '\u200c' '\u200d')
  | _ => none
where
  /-- Capital signs that are no letters. -/
  upperSign : RangeSet := .ofText "2160-216F 24B6-24CF 1F130-1F149 1F150-1F169 1F170-1F189"

def script? (name : String) : Option CharSet := (Script.ranges? name).map .table

/-- The set of a property that is named by itself. -/
def named? (name : String) : Option CharSet :=
  let loose := looseName name
  ((binary? loose).or (category? loose)).or (script? loose)

/-- The set of characters for which a property has a value. -/
def valued? (property value : String) : Option CharSet :=
  match looseName property with
  | "gc" | "generalcategory" => category? (looseName value)
  | "sc" | "script" => script? (looseName value)
  | _ => none

end StructInventory.Pattern
