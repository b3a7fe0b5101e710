import StructInventory.Pattern.Property
import StructInventory.Pattern.Regex

/-!
Reading patterns. A text that is no pattern has no reading; why it is none is not told.
-/

namespace StructInventory.Pattern

open Text

/-- The switches that a pattern may turn on and off. `spaced` makes blanks and comments in the
pattern count for nothing. -/
structure Flags where
  ignoreCase : Bool := false
  multiLine : Bool := false
  dotAll : Bool := false
  crlf : Bool := false
  unicode : Bool := true
  spaced : Bool := false

/-- `names` are those of the groups so far. -/
structure ReaderState where
  rest : List Char
  flags : Flags := {}
  names : List String := []

abbrev PatternReader := StateT ReaderState Option

/-- An expression with how deep it nests and about how much room it takes when compiled; a change of
flags stands for nothing that could be repeated. -/
structure Piece where
  regex : Regex
  depth : Nat := 0
  cost : Nat := 1
  repeatable : Bool := true
  deriving Inhabited

namespace Piece

def rep (piece : Piece) (least : Nat) (most : Option Nat) : Piece :=
  { regex := .rep piece.regex least most
    depth := piece.depth + 1
    cost := piece.cost * max 1 (most.getD (least + 1)) + 1 }

/-- The pieces of a sequence, the last one first. -/
def concat : List Piece → Piece
  | [] => { regex := .empty }
  | [piece] => { piece with repeatable := true }
  | pieces =>
    { regex := pieces.foldl (fun behind piece => .seq piece.regex behind) .empty
      depth := (pieces.map Piece.depth).foldl max 0 + 1
      cost := (pieces.map Piece.cost).foldl (· + ·) 0 }

def alternate : List Piece → Piece
  | [] => { regex := .empty }
  | [piece] => piece
  | first :: rest =>
    { regex := rest.foldl (fun left piece => .alt left piece.regex) first.regex
      depth := ((first :: rest).map Piece.depth).foldl max 0 + 1
      cost := ((first :: rest).map Piece.cost).foldl (· + ·) 1 }

def group (piece : Piece) : Piece :=
  { regex := piece.regex, depth := piece.depth + 1, cost := piece.cost + 2 }

end Piece

namespace PatternReader

def refuse {α : Type} : PatternReader α := fun _ => none

def ahead : PatternReader (List Char) := return (← get).rest

def flags : PatternReader Flags := return (← get).flags

def setRest (rest : List Char) : PatternReader Unit :=
  modify fun state => { state with rest := rest }

def drop (count : Nat) : PatternReader Unit :=
  modify fun state => { state with rest := state.rest.drop count }

/-- Reads `text` if it comes next. -/
def take? (text : String) : PatternReader Bool := do
  if text.toList.isPrefixOf (← ahead) then
    drop text.length
    return true
  else return false

def nextChar : PatternReader Char := do
  match ← ahead with
  | c :: rest =>
    setRest rest
    return c
  | [] => refuse

/-- The text behind blanks and comments. -/
def afterSpace : Bool → List Char → List Char
  | _, [] => []
  | true, c :: rest => afterSpace (c ≠ '\n') rest
  | false, c :: rest =>
    if isBlank c then afterSpace false rest
    else if c = '#' then afterSpace true rest
    else c :: rest

def skipSpace : PatternReader Unit := do
  if (← flags).spaced then setRest (afterSpace false (← ahead))

/-! ### Escapes -/

/-- What an escape, or a character by itself, stands for. `byte` tells that a character was given
by a two-digit code. -/
inductive Atom where
  | char (c : Char) (byte : Bool)
  | look (condition : Look)
  | set (set : CharSet)
  | dot

/-- The character of a code, if there is one. -/
def charOfCode? (code : Nat) : Option Char :=
  if code < 0xd800 || (0xe000 ≤ code && code < 0x110000) then some (Char.ofNat code) else none

/-- Exactly `count` hexadecimal digits. -/
def fixedHex (count : Nat) : PatternReader Atom := do
  skipSpace
  let digits := (← ahead).take count
  if digits.length < count || !digits.all fun c => (hexDigit? c).isSome then refuse
  drop count
  match charOfCode? (hexValue digits) with
  | some c => return .char c (count = 2)
  | none => refuse

/-- Hexadecimal digits in braces, of which the opening one has been read. -/
def bracedHex : PatternReader Atom := do
  let rest ← ahead
  let digits := rest.takeWhile fun c => (hexDigit? c).isSome
  match rest.drop digits.length with
  | '\x7d' :: behind =>
    setRest behind
    if digits.isEmpty then refuse
    match charOfCode? (hexValue digits) with
    | some c => return .char c false
    | none => refuse
  | _ => refuse

def hexEscape (count : Nat) : PatternReader Atom := do
  skipSpace
  if ← take? "\x7b" then bracedHex else fixedHex count

/-- The text up to a mark, and the text behind the mark. -/
def cutAt? (mark : List Char) : List Char → Option (List Char × List Char)
  | [] => none
  | c :: rest =>
    if mark.isPrefixOf (c :: rest) then some ([], (c :: rest).drop mark.length)
    else (cutAt? mark rest).map fun (before, behind) => (c :: before, behind)

/-- The property that stands in braces. -/
def property? (body : List Char) : Option CharSet :=
  match cutAt? ['!', '='] body with
  | some (property, value) =>
    (valued? (String.ofList property) (String.ofList value)).map .complement
  | none =>
    match (cutAt? [':'] body).or (cutAt? ['='] body) with
    | some (property, value) => valued? (String.ofList property) (String.ofList value)
    | none => named? (String.ofList body)

def propertyEscape (negated : Bool) : PatternReader Atom := do
  if !(← flags).unicode then refuse
  skipSpace
  let found ← if ← take? "\x7b" then do
      match cutAt? ['\x7d'] (← ahead) with
      | some (body, behind) =>
        setRest behind
        pure (property? body)
      | none => refuse
    else do
      let c ← nextChar
      if c = '\\' then refuse
      pure (named? (String.ofList [c]))
  match found with
  | some set => return .set ((set.fold (← flags).ignoreCase).negateIf negated)
  | none => refuse

/-- One of the classes of word characters, digits and blanks. Without Unicode they are those of
plain ASCII, and their complements are refused. -/
def classEscape (unicode plain : CharSet) (negated : Bool) : PatternReader Atom := do
  if (← flags).unicode then return .set (unicode.negateIf negated)
  else if negated then refuse
  else return .set plain

/-- The kind of boundary that a word in braces names, if there is one. -/
def boundaryName : PatternReader (Option Look) := do
  let ascii := !(← flags).unicode
  match ← ahead with
  | '\x7b' :: rest =>
    let isNameChar (c : Char) : Bool := isAsciiLetter c || c = '-'
    match rest with
    | [] => refuse
    | c :: _ =>
      if !isNameChar c then return none
      let name := rest.takeWhile isNameChar
      match rest.drop name.length with
      | '\x7d' :: behind =>
        setRest behind
        match String.ofList name with
        | "start" => return some (.wordStart ascii)
        | "end" => return some (.wordEnd ascii)
        | "start-half" => return some (.wordStartHalf ascii)
        | "end-half" => return some (.wordEndHalf ascii)
        | _ => refuse
      | _ => refuse
  | _ => return none

/-- Characters that an escape may stand for as they are. -/
def isEscapable (c : Char) : Bool :=
  isAscii c && !isAsciiLetter c && !isAsciiDigit c && c ≠ '<' && c ≠ '>'

/-- An escape whose backslash has been read. -/
def escape : PatternReader Atom := do
  let ascii := !(← flags).unicode
  let c ← nextChar
  match c with
  | 'x' => hexEscape 2
  | 'u' => hexEscape 4
  | 'U' => hexEscape 8
  | 'p' => propertyEscape false
  | 'P' => propertyEscape true
  | 'd' => classEscape .digit .asciiDigit false
  | 'D' => classEscape .digit .asciiDigit true
  | 's' => classEscape .space .asciiSpace false
  | 'S' => classEscape .space .asciiSpace true
  | 'w' => classEscape .word .asciiWord false
  | 'W' => classEscape .word .asciiWord true
  | 'a' => return .char '\x07' false
  | 'f' => return .char '\x0c' false
  | 't' => return .char '\t' false
  | 'n' => return .char '\n' false
  | 'r' => return .char '\r' false
  | 'v' => return .char '\x0b' false
  | 'A' => return .look .textStart
  | 'z' => return .look .textEnd
  | 'b' => return .look ((← boundaryName).getD (.wordBoundary ascii))
  | 'B' => return .look (.notWordBoundary ascii)
  | '<' => return .look (.wordStart ascii)
  | '>' => return .look (.wordEnd ascii)
  | c => if isEscapable c then return .char c false else refuse

/-- A character of a pattern that is no operator. -/
def atom : PatternReader Atom := do
  let flags ← flags
  let c ← nextChar
  match c with
  | '\\' => escape
  | '.' => return .dot
  | '^' => return .look (if flags.multiLine then
      (if flags.crlf then .crlfLineStart else .lineStart) else .textStart)
  | '$' => return .look (if flags.multiLine then
      (if flags.crlf then .crlfLineEnd else .lineEnd) else .textEnd)
  | c => return .char c false

/-! ### Classes in brackets -/

/-- The class of a name between `[:` and `:]`, if one comes. -/
def asciiClass? : PatternReader (Option CharSet) := do
  match ← ahead with
  | '[' :: ':' :: rest =>
    let (negated, rest) := match rest with
      | '^' :: rest => (true, rest)
      | rest => (false, rest)
    match cutAt? [':'] rest with
    | some (name, ']' :: behind) =>
      match CharSet.ofAsciiName? (String.ofList name) with
      | some set =>
        if negated && !(← flags).unicode then refuse
        setRest behind
        return some (set.negateIf negated)
      | none => return none
    | _ => return none
  | _ => return none

/-- A character or an escape in a class. -/
def classAtom : PatternReader Atom := do
  let c ← nextChar
  if c = '\\' then escape else return .char c false

/-- A class without Unicode holds plain ASCII characters only. -/
def classChar (c : Char) : PatternReader Char := do
  if !(← flags).unicode && !isAscii c then refuse else return c

/-- A dash that makes a range of the character before it. -/
def atRangeDash (spaced : Bool) : List Char → Bool
  | '-' :: rest =>
    match if spaced then afterSpace false rest else rest with
    | ']' :: _ | '-' :: _ => false
    | _ => true
  | _ => false

/-- A character, a range or an escape that is a class itself. -/
def classItem : PatternReader CharSet := do
  let first ← classAtom
  skipSpace
  if (← ahead).isEmpty then refuse
  if atRangeDash (← flags).spaced (← ahead) then
    drop 1
    skipSpace
    match first, ← classAtom with
    | .char low _, .char high _ =>
      if low ≤ high then return .range (← classChar low) (← classChar high) else refuse
    | _, _ => refuse
  else match first with
    | .char c _ => return .single (← classChar c)
    | .set set => return set
    | .look _ | .dot => refuse

inductive SetOp where
  | union
  | inter
  | diff
  | symmDiff

namespace SetOp

def apply : SetOp → CharSet → CharSet → CharSet
  | union, left, right => .union left right
  | inter, left, right => .inter left right
  | diff, left, right => .diff left right
  | symmDiff, left, right => CharSet.symmDiff left right

end SetOp

/-- A class that is being read: the operands so far, the operation that waits for its right side,
and the members of that side. -/
structure OpenClass where
  left : CharSet := .none
  op : SetOp := .union
  members : CharSet := .none
  depth : Nat := 0

namespace OpenClass

def add (opened : OpenClass) (set : CharSet) : OpenClass :=
  { opened with members := .union opened.members set }

def close (opened : OpenClass) (ignoreCase : Bool) : CharSet :=
  opened.op.apply opened.left (opened.members.fold ignoreCase)

/-- Ends the right side of an operation and begins that of the next. -/
def operate (opened : OpenClass) (ignoreCase : Bool) (op : SetOp) : OpenClass :=
  { left := opened.close ignoreCase, op := op, depth := opened.depth + 1 }

end OpenClass

/-- The members of a class up to its closing bracket; `inner` reads a class within it. -/
def classMembers (inner : PatternReader (CharSet × Nat)) :
    Nat → OpenClass → PatternReader (CharSet × Nat)
  | 0, _ => refuse
  | bound + 1, opened => do
    skipSpace
    let ignoreCase := (← flags).ignoreCase
    match ← ahead with
    | [] => refuse
    | ']' :: rest =>
      setRest rest
      return (opened.close ignoreCase, opened.depth)
    | '&' :: '&' :: rest =>
      setRest rest
      classMembers inner bound (opened.operate ignoreCase .inter)
    | '-' :: '-' :: rest =>
      setRest rest
      classMembers inner bound (opened.operate ignoreCase .diff)
    | '~' :: '~' :: rest =>
      setRest rest
      classMembers inner bound (opened.operate ignoreCase .symmDiff)
    | '[' :: _ =>
      match ← asciiClass? with
      | some set => classMembers inner bound (opened.add set)
      | none =>
        let (set, depth) ← inner
        classMembers inner bound { opened.add set with depth := max opened.depth depth }
    | _ => classMembers inner bound (opened.add (← classItem))

/-- Dashes at the head of a class stand for themselves. -/
def headDashes : Nat → Bool → PatternReader Bool
  | 0, found => return found
  | bound + 1, found => do
    if ← take? "-" then
      skipSpace
      headDashes bound true
    else return found

/-- A class in brackets; a closing bracket at its head stands for itself. -/
def bracketClass : Nat → PatternReader (CharSet × Nat)
  | 0 => refuse
  | fuel + 1 => do
    if !(← take? "[") then refuse
    skipSpace
    let negated ← take? "^"
    skipSpace
    let bound := (← ahead).length
    let dashed ← headDashes bound false
    let closing ← if dashed then pure false else take? "]"
    let head := CharSet.union (if dashed then .single '-' else .none)
      (if closing then .single ']' else .none)
    if closing then skipSpace
    let (set, depth) ← classMembers (bracketClass fuel) (bound + 1) { members := head }
    if negated && !(← flags).unicode then refuse
    return (set.negateIf negated, depth + 1)

/-! ### Groups and repetitions -/

/-- Room that a set of characters takes: more, the more scripts it spans. -/
def setCost : CharSet → Nat
  | .none | .range _ _ => 1
  | .space => 16
  | .digit => 64
  | .word | .letter | .table _ => 1600
  | .union left right | .inter left right | .diff left right => setCost left + setCost right
  | .complement set => setCost set + 16
  | .caseless set => 2 * setCost set

def ofSet (set : CharSet) : Piece := { regex := .one set, cost := setCost set }

def ofAtom (flags : Flags) : Atom → PatternReader Piece
  | .char c byte =>
    if byte && !flags.unicode && !isAscii c then refuse
    else
      return { regex := .one ((CharSet.single c).fold flags.ignoreCase), cost := c.utf8Size }
  | .look condition => return { regex := .look condition }
  | .set set => return ofSet set
  | .dot =>
    if !flags.unicode then refuse
    else if flags.dotAll then return ofSet .all
    else if flags.crlf then
      return ofSet (.complement (.union (.single '\n') (.single '\r')))
    else return ofSet (.complement (.single '\n'))

/-- Turns a switch on or off; how greedy repetitions are decides no match. -/
def setFlag (flags : Flags) (on : Bool) : Char → Option Flags
  | 'i' => some { flags with ignoreCase := on }
  | 'm' => some { flags with multiLine := on }
  | 's' => some { flags with dotAll := on }
  | 'R' => some { flags with crlf := on }
  | 'u' => some { flags with unicode := on }
  | 'x' => some { flags with spaced := on }
  | 'U' => some flags
  | _ => none

/-- The switches up to a colon or closing parenthesis. No switch is named twice, and a minus sign
has some behind it. The answer tells what ended them, and whether there were any. -/
def flagList : Nat → Flags → List Char → PatternReader (Flags × Char × Bool)
  | 0, _, _ => refuse
  | bound + 1, flags, seen => do
    let c ← nextChar
    if c = ':' || c = ')' then
      if seen.head? = some '-' then refuse else return (flags, c, !seen.isEmpty)
    else if seen.contains c then refuse
    else if c = '-' then flagList bound flags (c :: seen)
    else match setFlag flags (!seen.contains '-') c with
      | some flags => flagList bound flags (c :: seen)
      | none => refuse

/-- The name of a group up to its closing angle bracket. -/
def groupName : PatternReader Unit := do
  let isNameChar (first : Bool) (c : Char) : Bool :=
    c = '_' || (if first then isAlphabetic c
      else c = '.' || c = '[' || c = ']' || isAlphanumeric c)
  match cutAt? ['>'] (← ahead) with
  | some (c :: rest, behind) =>
    let name := String.ofList (c :: rest)
    if !isNameChar true c || !rest.all (isNameChar false) || (← get).names.contains name then refuse
    modify fun state => { state with rest := behind, names := name :: state.names }
  | _ => refuse

/-- What an opening parenthesis begins: a group with its flags, or a change of flags. -/
inductive GroupStart where
  | group (flags : Flags)
  | flags (flags : Flags)

def groupStart : PatternReader GroupStart := do
  drop 1
  skipSpace
  let flags ← flags
  let rest ← ahead
  if ["?=", "?!", "?<=", "?<!"].any fun mark => mark.toList.isPrefixOf rest then refuse
  let named ← if ← take? "?P<" then pure true else take? "?<"
  if named then
    groupName
    return .group flags
  else if ← take? "?" then
    let (flags, ended, any) ← flagList ((← ahead).length + 1) flags []
    if ended = ':' then return .group flags
    else if any then return .flags flags
    else refuse
  else return .group flags

/-- A decimal number between blanks. -/
def decimal : PatternReader Nat := do
  let rest := (← ahead).dropWhile isBlank
  let digits := rest.takeWhile isAsciiDigit
  setRest ((rest.drop digits.length).dropWhile isBlank)
  let value := decimalValue digits
  if digits.isEmpty || value ≥ 0x100000000 then refuse else return value
where
  decimalValue (digits : List Char) : Nat :=
    digits.foldl (fun n c => 10 * n + (c.toNat - '0'.toNat)) 0

/-- A count in braces, of which the opening one has been read. -/
def counts : PatternReader (Nat × Option Nat) := do
  skipSpace
  let least ← decimal
  let most ← if ← take? "," then do
      skipSpace
      if (← ahead).head? = some '\x7d' then pure none else some <$> decimal
    else pure (some least)
  if !(← take? "\x7d") then refuse
  if most.any (· < least) then refuse
  return (least, most)

/-- How often what stands before may be repeated, if an operator comes. -/
def repetition? : PatternReader (Option (Nat × Option Nat)) := do
  match ← ahead with
  | '?' :: rest =>
    setRest rest
    return some (0, some 1)
  | '*' :: rest =>
    setRest rest
    return some (0, none)
  | '+' :: rest =>
    setRest rest
    return some (1, none)
  | '\x7b' :: rest =>
    setRest rest
    let range ← counts
    skipSpace
    return some range
  | _ => return none

/-- A group or a change of flags; `inner` reads what a group holds. -/
def groupPiece (inner : PatternReader Piece) : PatternReader Piece := do
  let outer ← flags
  match ← groupStart with
  | .flags flags =>
    modify fun state => { state with flags := flags }
    return { regex := .empty, repeatable := false }
  | .group flags =>
    modify fun state => { state with flags := flags }
    let piece ← inner
    if !(← take? ")") then refuse
    modify fun state => { state with flags := outer }
    return piece.group

/-- The pieces of a sequence, of which `pieces` have been read, the last one first. -/
def sequenceFrom (inner : PatternReader Piece) (fuel : Nat) :
    Nat → List Piece → PatternReader Piece
  | 0, _ => refuse
  | bound + 1, pieces => do
    skipSpace
    match ← ahead with
    | [] => return Piece.concat pieces
    | '|' :: _ => return Piece.concat pieces
    | ')' :: _ => return Piece.concat pieces
    | '(' :: _ => sequenceFrom inner fuel bound ((← groupPiece inner) :: pieces)
    | '[' :: _ =>
      let (set, depth) ← bracketClass fuel
      sequenceFrom inner fuel bound ({ ofSet set with depth := depth } :: pieces)
    | _ =>
      match ← repetition? with
      | some (least, most) =>
        match pieces with
        | piece :: rest =>
          if !piece.repeatable then refuse
          discard (take? "?")
          sequenceFrom inner fuel bound (piece.rep least most :: rest)
        | [] => refuse
      | none => sequenceFrom inner fuel bound ((← ofAtom (← flags) (← atom)) :: pieces)

/-- Sequences with bars between them. -/
def branches (sequence : PatternReader Piece) : Nat → List Piece → PatternReader Piece
  | 0, _ => refuse
  | bound + 1, read => do
    let piece ← sequence
    if ← take? "|" then branches sequence bound (piece :: read)
    else return Piece.alternate (piece :: read).reverse

/-- Alternatives whose groups nest at most `fuel` deep. -/
def alternatives : Nat → PatternReader Piece
  | 0 => refuse
  | fuel + 1 => do
    let bound := (← ahead).length + 1
    branches (sequenceFrom (alternatives fuel) (fuel + 1) bound []) bound []

end PatternReader

/-- How deep a pattern may nest. -/
def depthLimit : Nat := 250

/-- How much room a pattern may take. -/
def costLimit : Nat := 10 * 1024 * 1024 / 32

/-- The expression that a pattern stands for. -/
def read? (pattern : String) : Option Regex := do
  let chars := pattern.toList
  let (piece, state) ← PatternReader.alternatives (chars.length + 1) { rest := chars }
  if state.rest.isEmpty && piece.depth ≤ depthLimit && piece.cost ≤ costLimit then some piece.regex
  else none

end StructInventory.Pattern
