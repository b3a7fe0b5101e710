import StructInventory.Text.Escaped
import StructInventory.Token.Basic
import StructInventory.Token.Literal

/-!
Cutting a source text into tokens. Blanks and plain comments separate tokens; a doc comment stands
for the attribute that it abbreviates. The text is first cut into lexemes, and the brackets among
them are then matched, so that the first fault in reading order is the one reported.
-/

namespace StructInventory

open Text

/-- A piece of the text before brackets are matched. `bad` is where no token can begin. -/
inductive Lexeme where
  | token (token : Token)
  | opening (delimiter : Delimiter) (pos : Pos)
  | closing (delimiter : Delimiter) (pos : Pos)
  | bad (pos : Pos)

namespace Lexeme

/-- Blanks between tokens: white space and the two marks of writing direction. -/
def isGap (c : Char) : Bool := isBlank c || c = '\u200e' || c = '\u200f'

/-- The text behind a block comment of which `depth` levels are open. -/
def afterBlockComment (depth : Nat) : List Char → Option (List Char)
  | '/' :: '*' :: rest => afterBlockComment (depth + 1) rest
  | '*' :: '/' :: rest => if depth ≤ 1 then some rest else afterBlockComment (depth - 1) rest
  | _ :: rest => afterBlockComment depth rest
  | [] => none

/-- What a line holds from here on, and the text from its line feed on. -/
def splitLine : List Char → List Char × List Char
  | [] => ([], [])
  | '\n' :: rest => ([], '\n' :: rest)
  | '\r' :: '\n' :: rest => ([], '\n' :: rest)
  | c :: rest =>
    let (line, rest) := splitLine rest
    (c :: line, rest)

/-- A carriage return without its line feed may not stand in a doc comment. -/
def hasBareCarriage : List Char → Bool
  | [] => false
  | '\r' :: '\n' :: rest => hasBareCarriage rest
  | c :: rest => c = '\r' || hasBareCarriage rest

inductive Comment where
  | plain (rest : List Char)
  | doc (inner : Bool) (body rest : List Char)
  | unfinished

def blockDoc (inner : Bool) (text : List Char) : Comment :=
  match afterBlockComment 0 text with
  | some rest =>
    let body := (text.take (text.length - rest.length - 2)).drop 3
    if hasBareCarriage body then .unfinished else .doc inner body rest
  | none => .unfinished

def lineDoc (inner : Bool) (text : List Char) : Comment :=
  let (body, rest) := splitLine text
  if hasBareCarriage body then .unfinished else .doc inner body rest

def plainBlock (text : List Char) : Comment :=
  (afterBlockComment 0 text).elim .unfinished .plain

/-- The comment that the text begins with. -/
def comment? (text : List Char) : Option Comment :=
  match text with
  | '/' :: '/' :: '/' :: '/' :: rest => some (.plain (splitLine rest).2)
  | '/' :: '/' :: '/' :: rest => some (lineDoc false rest)
  | '/' :: '/' :: '!' :: rest => some (lineDoc true rest)
  | '/' :: '/' :: rest => some (.plain (splitLine rest).2)
  | '/' :: '*' :: '*' :: '/' :: rest => some (.plain rest)
  | '/' :: '*' :: '*' :: '*' :: _ => some (plainBlock text)
  | '/' :: '*' :: '*' :: _ => some (blockDoc false text)
  | '/' :: '*' :: '!' :: _ => some (blockDoc true text)
  | '/' :: '*' :: _ => some (plainBlock text)
  | _ => none

/-- The quoted body of a doc comment. A NUL before an octal digit is written in full. -/
def docBody : List Char → List Char
  | [] => []
  | c :: rest =>
    let escaped := if c = '\x00' && rest.head?.any (fun d => '0' ≤ d && d ≤ '7')
      then ['\\', 'x', '0', '0'] else escapeChar c
    escaped ++ docBody rest

/-- The attribute that a doc comment stands for; all of it lies where the comment does. -/
def docTokens (inner : Bool) (body : List Char) (start stop : Pos) : List Token :=
  let mark (c : Char) := Token.punct c false start stop
  let text := String.ofList ('"' :: docBody body ++ ['"'])
  let tag := Token.group .bracket
    [.word ⟨false, "doc", by decide, by decide⟩ start stop, mark '=', .literal text start stop] start stop stop
  if inner then [mark '#', mark '!', tag] else [mark '#', tag]

def isPunct (c : Char) : Bool := "~!@#$%^&*-=+|;:,<.>/?'".toList.contains c

/-- Whether a punctuation character begins here; the slash of a comment is none. -/
def atPunct : List Char → Bool
  | '/' :: '/' :: _ => false
  | '/' :: '*' :: _ => false
  | c :: _ => isPunct c
  | [] => false

/-- Whether the text begins like a literal with a letter before its quote. -/
def looksLiteral : List Char → Bool
  | 'r' :: '"' :: _ | 'r' :: '#' :: '"' :: _ | 'r' :: '#' :: '#' :: _ => true
  | 'b' :: '"' :: _ | 'b' :: '\'' :: _ | 'b' :: 'r' :: '"' :: _ | 'b' :: 'r' :: '#' :: _ => true
  | 'c' :: '"' :: _ | 'c' :: 'r' :: '"' :: _ | 'c' :: 'r' :: '#' :: _ => true
  | _ => false

/-- The text behind a lifetime, whose quote has been read. -/
def afterLifetime (text : List Char) : Option (List Char) := do
  let (_, rest) ← Word.read? text
  let raw := ['r', '#'].isPrefixOf text
  match rest with
  | '\'' :: _ => none
  | '#' :: _ => if raw then some rest else none
  | _ => some rest

/-- The number of characters of `text` before `rest`. -/
def passed (text rest : List Char) : Nat := text.length - rest.length

/-- A token that is no bracket and no doc comment, with its length. -/
def leaf? (text : List Char) (pos : Pos) : Option (Token × Nat) :=
  let make (build : String → Pos → Pos → Token) (rest : List Char) : Token × Nat :=
    let length := passed text rest
    let run := text.take length
    (build (String.ofList run) pos (pos.past run), length)
  match Literal.after? text with
  | some rest => some (make .literal rest)
  | none =>
    match text with
    | '\'' :: rest => (afterLifetime rest).map (make .lifetime)
    | c :: rest =>
      if atPunct text then some (.punct c (atPunct rest) pos (pos.next c), 1)
      else if looksLiteral text then none
      else (Word.read? text).map fun (word, rest) => make (fun _ => .word word) rest
    | [] => none

def bracket? (c : Char) : Option (Pos → Lexeme) :=
  if c = '(' then some (.opening .paren)
  else if c = '[' then some (.opening .bracket)
  else if c = '\x7b' then some (.opening .brace)
  else if c = ')' then some (.closing .paren)
  else if c = ']' then some (.closing .bracket)
  else if c = '\x7d' then some (.closing .brace)
  else none

/-- What stands at the head of a text, with its length. -/
def step (text : List Char) (pos : Pos) : List Lexeme × Nat :=
  match comment? text with
  | some (.plain rest) => ([], passed text rest)
  | some (.doc inner body rest) =>
    let length := passed text rest
    ((docTokens inner body pos (pos.past (text.take length))).map .token, length)
  | some .unfinished => ([.bad pos], text.length)
  | none =>
    match text with
    | [] => ([], 0)
    | c :: _ =>
      if isGap c then ([], 1)
      else match bracket? c with
        | some lexeme => ([lexeme pos], 1)
        | none =>
          (leaf? text pos).elim ([.bad pos], text.length) fun (found, length) =>
            ([.token found], length)

/-- All lexemes of a text that begins at `pos`; each step takes at least one character. -/
def scan : Nat → List Char → Pos → List Lexeme
  | 0, _, _ => []
  | fuel + 1, text, pos =>
    if text.isEmpty then []
    else
      let (lexemes, length) := step text pos
      lexemes ++ scan fuel (text.drop length) (pos.past (text.take length))

end Lexeme

namespace Token

/-- A group whose closing delimiter has not been read: the tokens before it, newest first. -/
structure Frame where
  delimiter : Delimiter
  start : Pos
  outer : List Token

/-- Matches brackets. `inside` holds the tokens of the innermost open group, newest first. -/
def nest : List Frame → List Token → List Lexeme → Except Pos (List Token)
  | [], inside, [] => .ok inside.reverse
  | frame :: _, _, [] => .error frame.start
  | _, _, .bad pos :: _ => .error pos
  | frames, inside, .token token :: rest => nest frames (token :: inside) rest
  | frames, inside, .opening delimiter pos :: rest =>
    nest (⟨delimiter, pos, inside⟩ :: frames) [] rest
  | [], _, .closing _ pos :: _ => .error pos
  | frame :: frames, inside, .closing delimiter pos :: rest =>
    if delimiter = frame.delimiter then
      let group := Token.group delimiter inside.reverse frame.start pos
        ⟨pos.line, pos.column + 1⟩
      nest frames (group :: frame.outer) rest
    else .error pos

/-- The tokens of a text, or where its first lexical fault is. A byte order mark at the head is
passed over. -/
def lex (text : String) : Except Pos (List Token) :=
  let chars := text.toList
  let (chars, pos) := match chars with
    | '\ufeff' :: rest => (rest, Pos.first.next '\ufeff')
    | chars => (chars, Pos.first)
  nest [] [] (Lexeme.scan (chars.length + 1) chars pos)

end Token

end StructInventory
