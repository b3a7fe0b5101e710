import StructInventory.Token.Literal

/-!
The text that a string literal denotes.
-/

namespace StructInventory.Literal

open Text

/-- The character that an escape of one letter names. -/
def escapedChar (c : Char) : Char :=
  if c = 'n' then '\n'
  else if c = 'r' then '\r'
  else if c = 't' then '\t'
  else if c = '0' then '\x00'
  else c

/-- Where a decoder stands: between characters, or inside an escape. -/
inductive DecodeState where
  | body
  | carriage
  | escape
  | hexHigh
  | hexLow (high : Nat)
  | code (value : Nat)
  | gap

/-- The text up to the closing quote of a cooked literal. The literal has been read before, so its
escapes are well formed. -/
def decodeQuoted : DecodeState → List Char → List Char
  | _, [] => []
  | .body, c :: rest => decodeBody c rest
  | .carriage, _ :: rest => '\n' :: decodeQuoted .body rest
  | .escape, c :: rest =>
    if c = 'x' then decodeQuoted .hexHigh rest
    else if c = 'u' then decodeQuoted (.code 0) rest
    else if c = '\n' || c = '\r' then decodeQuoted .gap rest
    else escapedChar c :: decodeQuoted .body rest
  | .hexHigh, c :: rest => decodeQuoted (.hexLow ((hexDigit? c).getD 0)) rest
  | .hexLow high, c :: rest =>
    Char.ofNat (high * 16 + (hexDigit? c).getD 0) :: decodeQuoted .body rest
  | .code value, c :: rest =>
    if c = '\x7d' then Char.ofNat value :: decodeQuoted .body rest
    else decodeQuoted (.code ((hexDigit? c).elim value (value * 16 + ·))) rest
  | .gap, c :: rest => if isBlank c then decodeQuoted .gap rest else decodeBody c rest
where
  decodeBody (c : Char) (rest : List Char) : List Char :=
    if c = '"' then []
    else if c = '\\' then decodeQuoted .escape rest
    else if c = '\r' then decodeQuoted .carriage rest
    else c :: decodeQuoted .body rest

/-- The text up to the quote and hashes that close a raw literal. -/
def decodeRaw (hashes : List Char) : List Char → List Char
  | [] => []
  | c :: rest =>
    if c = '"' && hashes.isPrefixOf rest then [] else c :: decodeRaw hashes rest

/-- The value of a string literal; other literals have none. -/
def textValue? (text : String) : Option String :=
  match text.toList with
  | '"' :: rest => some (String.ofList (decodeQuoted .body rest))
  | 'r' :: rest =>
    let hashes := rest.takeWhile (· = '#')
    some (String.ofList (decodeRaw hashes ((rest.dropWhile (· = '#')).drop 1)))
  | _ => none

end StructInventory.Literal
