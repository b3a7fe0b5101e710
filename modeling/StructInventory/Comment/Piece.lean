import StructInventory.Text.Pos
import StructInventory.Text.Property

/-!
Cutting any text into comments, blanks and code. The cutting knows just enough of the language not
to take the inside of a string or character literal for a comment, and it never fails: a literal or
comment that does not end runs to the end of the text.
-/

namespace StructInventory

open Text

/-- A piece of a text. Code is a character or a whole literal; `word` tells whether what follows may
still be part of a name. -/
inductive Piece where
  | comment
  | code (word : Bool)
  | lineFeed
  | blank
  deriving DecidableEq, Repr

namespace Piece

/-- The length of a literal behind its opening quote. A backslash guards the character after it. -/
def quotedLength (quote : Char) : List Char → Nat
  | [] => 0
  | ['\\'] => 1
  | '\\' :: _ :: rest => quotedLength quote rest + 2
  | c :: rest => if c = quote then 1 else quotedLength quote rest + 1

/-- The length of a raw literal behind its opening quote; it ends in a quote and `hashes` hash
signs. -/
def rawLength (hashes : Nat) : List Char → Nat
  | [] => 0
  | c :: rest =>
    if c = '"' && (rest.take hashes).length = hashes && (rest.take hashes).all (· = '#') then
      hashes + 1
    else rawLength hashes rest + 1

/-- The number of characters before the next line feed. -/
def lineLength (text : List Char) : Nat := (text.takeWhile (· ≠ '\n')).length

/-- The length of what remains of a block comment of which `depth` levels are open. -/
def blockLength (depth : Nat) : List Char → Nat
  | '/' :: '*' :: rest => blockLength (depth + 1) rest + 2
  | '*' :: '/' :: rest => if depth ≤ 1 then 2 else blockLength (depth - 1) rest + 2
  | _ :: rest => blockLength depth rest + 1
  | [] => 0

/-- The length of the raw literal that a text begins with, from its `r` on. -/
def rawLiteral? : List Char → Option Nat
  | 'r' :: rest =>
    let hashes := (rest.takeWhile (· = '#')).length
    match rest.drop hashes with
    | '"' :: inside => some (rawLength hashes inside + hashes + 2)
    | _ => none
  | _ => none

/-- The length of the literal that a text begins with, when that has a letter before its quote. -/
def letteredLiteral? : List Char → Option Nat
  | 'b' :: '"' :: rest | 'c' :: '"' :: rest => some (quotedLength '"' rest + 2)
  | 'b' :: '\'' :: rest => some (quotedLength '\'' rest + 2)
  | 'b' :: rest | 'c' :: rest => (rawLiteral? rest).map (· + 1)
  | text => rawLiteral? text

/-- The length of what belongs to a single quote: the rest of a character literal, but nothing of a
lifetime. -/
def afterSingleQuote : List Char → Nat
  | '\\' :: rest => quotedLength '\'' ('\\' :: rest)
  | _ :: '\'' :: _ => 2
  | _ => 0

/-- The piece that a text begins with and its length. `inWord` tells that the text before may end
within a name, so that no literal can begin with a letter. -/
def measure (inWord : Bool) : List Char → Piece × Nat
  | '/' :: '/' :: rest => (.comment, lineLength rest + 2)
  | '/' :: '*' :: rest => (.comment, blockLength 1 rest + 2)
  | '"' :: rest => (.code false, quotedLength '"' rest + 1)
  | '\'' :: rest => (.code false, afterSingleQuote rest + 1)
  | '\n' :: _ => (.lineFeed, 1)
  | c :: rest =>
    if isBlank c then (.blank, 1)
    else match if inWord then none else letteredLiteral? (c :: rest) with
      | some length => (.code true, length)
      | none => (.code (isWordChar c), 1)
  | [] => (.blank, 0)

def endsInWord : Piece → Bool
  | code word => word
  | comment | lineFeed | blank => false

end Piece

/-- A piece with its characters and where it stands. -/
structure Placed where
  piece : Piece
  chars : List Char
  start : Pos
  stop : Pos

namespace Placed

/-- The pieces of a text that begins at `pos`. Every piece takes a character, so `fuel` may be the
length of the text. -/
def scan : Nat → Bool → Pos → List Char → List Placed
  | 0, _, _, _ => []
  | _, _, _, [] => []
  | fuel + 1, inWord, pos, c :: rest =>
    let (piece, length) := Piece.measure inWord (c :: rest)
    let chars := (c :: rest).take length
    let stop := pos.past chars
    ⟨piece, chars, pos, stop⟩ :: scan fuel piece.endsInWord stop ((c :: rest).drop length)

def ofText (text : String) : List Placed :=
  let chars := text.toList
  scan chars.length false .first chars

end Placed

end StructInventory
