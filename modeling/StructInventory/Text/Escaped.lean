import StructInventory.Text.Property

/-!
Quoted text in which characters that would not show are written as escapes.
-/

namespace StructInventory.Text

/-- The lower-case hexadecimal digits of a code point, without leading zeros. -/
def hexDigits (code : Nat) : List Char := Nat.toDigits 16 code

/-- An escape that names a character by its code point. -/
def codePointEscape (c : Char) : List Char :=
  ['\\', 'u', '\x7b'] ++ hexDigits c.toNat ++ ['\x7d']

/-- One character as it stands between double quotes. -/
def escapeChar (c : Char) : List Char :=
  if c = '\x00' then ['\\', '0']
  else if c = '\t' then ['\\', 't']
  else if c = '\r' then ['\\', 'r']
  else if c = '\n' then ['\\', 'n']
  else if c = '"' then ['\\', '"']
  else if c = '\\' then ['\\', '\\']
  else if isGraphemeExtend c then codePointEscape c
  else if isPrintable c then [c]
  else codePointEscape c

/-- A text between double quotes. -/
def quoted (text : String) : String :=
  String.ofList ('"' :: text.toList.flatMap escapeChar ++ ['"'])

/-- A text between double quotes in which single quotes are escaped too. -/
def quotedStrictly (text : String) : String :=
  let escape (c : Char) := if c = '\'' then ['\\', '\''] else escapeChar c
  String.ofList ('"' :: text.toList.flatMap escape ++ ['"'])

end StructInventory.Text
