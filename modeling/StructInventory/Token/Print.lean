import StructInventory.Token.Basic

/-!
Token sequences as text: tokens are separated by one space, except that none follows a joint
punctuation character. Braces keep a space on their inner sides.
-/

namespace StructInventory.Token

def opening : Delimiter → List Char
  | .paren => ['(']
  | .bracket => ['[']
  | .brace => ['\x7b', ' ']

def closing : Delimiter → List Char
  | .paren => [')']
  | .bracket => [']']
  | .brace => ['\x7d']

/-- What goes between the last token of a group and its closing delimiter. -/
def closingSpace (delimiter : Delimiter) (inside : List Token) : List Char :=
  if delimiter = .brace && !inside.isEmpty then [' '] else []

/-- A space, unless a token is joint with the next one or the last. -/
def gapAfter (token : Token) (rest : List Token) : List Char :=
  match token, rest with
  | punct _ true _ _, _ => []
  | _, [] => []
  | _, _ => [' ']

mutual

def tokenChars : Token → List Char
  | word found _ _ => found.text.toList
  | lifetime name _ _ | literal name _ _ => name.toList
  | punct mark _ _ _ => [mark]
  | group delimiter inside _ _ _ =>
    opening delimiter ++ chars inside ++ closingSpace delimiter inside ++ closing delimiter

def chars : List Token → List Char
  | [] => []
  | token :: rest => tokenChars token ++ gapAfter token rest ++ chars rest

end

def print (tokens : List Token) : String := String.ofList (chars tokens)

end StructInventory.Token
