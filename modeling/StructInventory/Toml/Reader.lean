import StructInventory.Text.RangeSet
import StructInventory.Toml.Value

/-!
Reading texts in the TOML format. Only what a setting can be made of is read: numbers with a
fraction or an exponent, dates and times, and lists of tables are refused. A text that cannot be
read has no reading; why is not told.
-/

namespace StructInventory.Toml

open Text

abbrev Reader := StateT (List Char) Option

namespace Reader

def refuse {α : Type} : Reader α := fun _ => none

/-- Reads `text` if it comes next. -/
def take? (text : String) : Reader Bool := do
  let rest ← get
  if text.toList.isPrefixOf rest then
    set (rest.drop text.length)
    return true
  else return false

def expect (text : String) : Reader Unit := do
  if !(← take? text) then refuse

def isSpace (c : Char) : Bool := c = ' ' || c = '\t'

def skipSpace : Reader Unit := modify (List.dropWhile isSpace)

/-- A line feed, or a carriage return with one behind it. -/
def newline? : Reader Bool := do
  if ← take? "\n" then return true else take? "\r\n"

/-- Control characters, the tab apart, stand nowhere but in escapes. -/
def isVisible (c : Char) : Bool := c = '\t' || (' ' ≤ c && c ≠ '\x7f')

/-- A comment up to the end of its line. -/
def skipComment : Reader Unit := do
  if ← take? "#" then modify (List.dropWhile isVisible)

/-- What may stand behind a value or header on its line, with the end of the line. -/
def endLine : Reader Unit := do
  skipSpace
  skipComment
  if !(← newline?) && !(← get).isEmpty then refuse

/-- Blanks, comments and ends of lines. -/
def skipLines : Nat → Reader Unit
  | 0 => return
  | bound + 1 => do
    skipSpace
    if (← get).head? = some '#' then
      skipComment
      if ← newline? then skipLines bound else refuse
    else if ← newline? then skipLines bound

/-! ### Texts -/

/-- The character of `count` hexadecimal digits. -/
def codeChar (count : Nat) : Reader Char := do
  let digits := (← get).take count
  if digits.length < count || !digits.all fun c => (hexDigit? c).isSome then refuse
  modify (List.drop count)
  let code := hexValue digits
  if code < 0xd800 || (0xe000 ≤ code && code < 0x110000) then return Char.ofNat code else refuse

def nextChar : Reader Char := do
  match ← get with
  | c :: rest =>
    set rest
    return c
  | [] => refuse

/-- What an escape stands for whose backslash has been read. -/
def escape : Reader Char := do
  match ← nextChar with
  | 'b' => return '\x08'
  | 't' => return '\t'
  | 'n' => return '\n'
  | 'f' => return '\x0c'
  | 'r' => return '\r'
  | '"' => return '"'
  | '\\' => return '\\'
  | 'u' => codeChar 4
  | 'U' => codeChar 8
  | _ => refuse

/-- The rest of a text on one line up to its closing mark; `read` is what has been read of it, the
last character first. In a text between apostrophes a backslash is like any other character. -/
def lineText (mark : Char) (escapes : Bool) : Nat → List Char → Reader String
  | 0, _ => refuse
  | bound + 1, read => do
    let c ← nextChar
    if c = mark then return String.ofList read.reverse
    else if escapes && c = '\\' then lineText mark escapes bound ((← escape) :: read)
    else if isVisible c then lineText mark escapes bound (c :: read)
    else refuse

/-- A backslash at the end of a line takes away the blanks and ends of lines behind it. -/
def foldedLine? : Reader Bool := do
  let rest := (← get).dropWhile isSpace
  if rest.head? = some '\n' || ['\r', '\n'].isPrefixOf rest then
    set (afterBlanks rest)
    return true
  else return false
where
  afterBlanks : List Char → List Char
    | '\r' :: '\n' :: rest => afterBlanks rest
    | c :: rest => if isSpace c || c = '\n' then afterBlanks rest else c :: rest
    | [] => []

/-- The rest of a text on several lines up to three closing marks. The last three of up to five
marks in a row close it. Every line ends in a line feed. -/
def blockText (mark : Char) (escapes : Bool) : Nat → List Char → Reader String
  | 0, _ => refuse
  | bound + 1, read => do
    let marks := ((← get).takeWhile (· = mark)).length
    if marks ≥ 3 then
      let extra := min (marks - 3) 2
      modify (List.drop (extra + 3))
      return String.ofList (List.replicate extra mark ++ read).reverse
    else if ← newline? then blockText mark escapes bound ('\n' :: read)
    else
      let c ← nextChar
      if escapes && c = '\\' then
        if ← foldedLine? then blockText mark escapes bound read
        else blockText mark escapes bound ((← escape) :: read)
      else if isVisible c then blockText mark escapes bound (c :: read)
      else refuse

/-- A text between marks, if one comes. -/
def lineText? : Reader (Option String) := do
  let bound := (← get).length
  if ← take? "\"" then some <$> lineText '"' true bound []
  else if ← take? "'" then some <$> lineText '\'' false bound []
  else return none

/-- A text on several lines, if one comes; an end of line at its head does not count. -/
def blockText? : Reader (Option String) := do
  let bound := (← get).length
  if ← take? "\"\"\"" then
    discard newline?
    some <$> blockText '"' true bound []
  else if ← take? "'''" then
    discard newline?
    some <$> blockText '\'' false bound []
  else return none

/-! ### Keys -/

def isBareChar (c : Char) : Bool :=
  c.isAlphanum || c = '_' || c = '-'

def simpleKey : Reader String := do
  match ← lineText? with
  | some name => return name
  | none =>
    let name := (← get).takeWhile isBareChar
    if name.isEmpty then refuse
    modify (List.drop name.length)
    return String.ofList name

/-- Names with dots between them. -/
def key : Nat → Reader (List String)
  | 0 => refuse
  | bound + 1 => do
    skipSpace
    let name ← simpleKey
    skipSpace
    if ← take? "." then return name :: (← key bound) else return [name]

/-! ### Values -/

/-- Digits of a base, with single underscores between them. The answer is the value of those that
come, the first of which is there. -/
def digits (base : Nat) : Nat → Nat → Reader Nat
  | 0, value => return value
  | bound + 1, value => do
    let rest ← get
    match rest with
    | '_' :: c :: behind =>
      match digit? c with
      | some digit =>
        set behind
        digits base bound (base * value + digit)
      | none => refuse
    | c :: behind =>
      match digit? c with
      | some digit =>
        set behind
        digits base bound (base * value + digit)
      | none => return value
    | [] => return value
where
  digit? (c : Char) : Option Nat := (hexDigit? c).filter (· < base)

/-- Digits of a base, at least one. -/
def someDigits (base : Nat) : Reader Nat := do
  match ← get with
  | c :: rest =>
    match (hexDigit? c).filter (· < base) with
    | some digit =>
      set rest
      digits base rest.length digit
    | none => refuse
  | [] => refuse

/-- A decimal number without idle zeros. -/
def decimal : Reader Nat := do
  if ← take? "0" then return 0 else someDigits 10

/-- Whole numbers have 64 bits. -/
def bounded (value : Int) : Reader Value :=
  if -0x8000000000000000 ≤ value && value < 0x8000000000000000 then return .integer value
  else refuse

def integer : Reader Value := do
  if ← take? "0x" then bounded (Int.ofNat (← someDigits 16))
  else if ← take? "0o" then bounded (Int.ofNat (← someDigits 8))
  else if ← take? "0b" then bounded (Int.ofNat (← someDigits 2))
  else if ← take? "-" then bounded (-Int.ofNat (← decimal))
  else
    discard (take? "+")
    bounded (Int.ofNat (← decimal))

/-- The values of a list up to its closing bracket; a comma may stand behind the last one. -/
def listItems (value : Reader Value) : Nat → List Value → Reader (List Value)
  | 0, _ => refuse
  | bound + 1, read => do
    skipLines (← get).length
    if ← take? "]" then return read.reverse
    let item ← value
    skipLines (← get).length
    if ← take? "," then listItems value bound (item :: read)
    else
      expect "]"
      return (item :: read).reverse

/-- The entries of a table up to its closing brace. -/
def tableItems (value : Reader Value) : Nat → Entries → Reader Entries
  | 0, _ => refuse
  | bound + 1, read => do
    let names ← key (← get).length
    expect "="
    skipSpace
    let item ← value
    skipSpace
    match read.addDotted? item names with
    | none => refuse
    | some read =>
      if ← take? "," then tableItems value bound read
      else
        expect "\x7d"
        return read

/-- A value that nests at most `fuel` deep. -/
def value : Nat → Reader Value
  | 0 => refuse
  | fuel + 1 => do
    let bound := (← get).length
    if ← take? "true" then return .boolean true
    if ← take? "false" then return .boolean false
    if ← take? "[" then return .list (← listItems (value fuel) bound [])
    if ← take? "\x7b" then
      skipSpace
      if ← take? "\x7d" then return .table .braces []
      return .table .braces (← tableItems (value fuel) bound [])
    match ← blockText? with
    | some text => return .text text
    | none =>
      match ← lineText? with
      | some text => return .text text
      | none => integer

/-! ### Documents -/

/-- The entries read so far, and the header under which the next ones go; no name leads to the
entries before any header. -/
structure Document where
  entries : Entries := []
  current : List String := []

/-- Changes the table that names lead to. -/
def within? (change : Entries → Option Entries) : List String → Entries → Option Entries
  | [], entries => change entries
  | name :: rest, entries =>
    match entries.lookup name with
    | some (.table origin inner) => do
      let inner ← within? change rest inner
      return entries.set name (.table origin inner)
    | _ => none

def header (document : Document) : Reader Document := do
  let names ← key (← get).length
  expect "]"
  endLine
  match document.entries.declare? some names with
  | some entries => return { entries := entries, current := names }
  | none => refuse

def assignment (document : Document) : Reader Document := do
  let rest ← get
  let names ← key rest.length
  expect "="
  skipSpace
  let item ← value (rest.length + 1)
  endLine
  match within? (Entries.addDotted? item names) document.current document.entries with
  | some entries => return { document with entries := entries }
  | none => refuse

/-- The lines of a document. -/
def lines : Nat → Document → Reader Document
  | 0, document => return document
  | bound + 1, document => do
    skipSpace
    match ← get with
    | [] => return document
    | '#' :: _ =>
      endLine
      lines bound document
    | '[' :: rest =>
      set rest
      lines bound (← header document)
    | _ =>
      if ← newline? then lines bound document
      else lines bound (← assignment document)

end Reader

/-- The entries of a document; a byte order mark at its head does not count. -/
def read? (text : String) : Option Entries :=
  let chars := match text.toList with
    | '\ufeff' :: rest => rest
    | chars => chars
  ((Reader.lines (chars.length + 1) {}).run chars).map (·.1.entries)

end StructInventory.Toml
