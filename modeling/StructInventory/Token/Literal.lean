import StructInventory.Text.Property

/-!
Literals of a source text. Each reader takes the text from where a literal may begin and answers
the text behind it, or nothing when none begins there.
-/

namespace StructInventory.Literal

open Text

/-- The text behind the identifier characters that `text` begins with. -/
def afterWord (text : List Char) : List Char := text.dropWhile isIdentContinue

/-- The text behind an identifier, if one begins here. -/
def identifier? : List Char → Option (List Char)
  | [] => none
  | c :: rest => if isIdentStart c then some (afterWord rest) else none

/-- A literal may carry a type name directly behind it. -/
def afterSuffix (text : List Char) : List Char := (identifier? text).getD text

/-- What the quotes of a literal may hold: characters, bytes, or characters other than NUL. -/
inductive Content where
  | text
  | bytes
  | cText
  deriving DecidableEq

namespace Content

def allows : Content → Char → Bool
  | text, _ => true
  | bytes, c => isAscii c
  | cText, c => c ≠ '\x00'

def allowsEscape (content : Content) (c : Char) : Bool :=
  c = 'n' || c = 'r' || c = 't' || c = '\\' || c = '\'' || c = '"' ||
    (c = '0' && content ≠ cText)

/-- Whether two hexadecimal digits may follow `\x`. -/
def allowsHex (content : Content) (high low : Nat) : Bool :=
  match content with
  | text => high < 8
  | bytes => true
  | cText => high ≠ 0 || low ≠ 0

end Content

/-- Where a reader stands between two quotes. `gap` is behind a backslash at a line's end, where
blanks are skipped; it and `carriage` tell that a carriage return still wants its line feed. -/
inductive QuoteState where
  | body
  | carriage
  | escape
  | hexHigh
  | hexLow (high : Nat)
  | codeOpen
  | code (digits value : Nat)
  | gap (carriage : Bool)

def isScalar (value : Nat) : Bool := value < 0xD800 || (0xDFFF < value && value < 0x110000)

/-- The state behind one more character of a literal's body; nothing if it may not stand there. -/
def bodyStep (content : Content) (c : Char) : Option QuoteState :=
  if c = '\r' then some .carriage
  else if c = '\\' then some .escape
  else if content.allows c then some .body
  else none

def quoteStep (content : Content) : QuoteState → Char → Option QuoteState
  | .body, c => bodyStep content c
  | .carriage, c => if c = '\n' then some .body else none
  | .escape, c =>
    if c = 'x' then some .hexHigh
    else if c = 'u' && content ≠ .bytes then some .codeOpen
    else if c = '\n' then some (.gap false)
    else if c = '\r' then some (.gap true)
    else if content.allowsEscape c then some .body
    else none
  | .hexHigh, c => (hexDigit? c).map .hexLow
  | .hexLow high, c => do
    let low ← hexDigit? c
    if content.allowsHex high low then some .body else none
  | .codeOpen, c => if c = '\x7b' then some (.code 0 0) else none
  | .code digits value, c =>
    match hexDigit? c with
    | some digit => if digits = 6 then none else some (.code (digits + 1) (value * 16 + digit))
    | none =>
      if digits = 0 then none
      else if c = '_' then some (.code digits value)
      else if c = '\x7d' && isScalar value && (content ≠ .cText || value ≠ 0) then some .body
      else none
  | .gap true, c => if c = '\n' then some (.gap false) else none
  | .gap false, c =>
    if c = ' ' || c = '\t' || c = '\n' then some (.gap false)
    else if c = '\r' then some (.gap true)
    else bodyStep content c

/-- Whether a double quote read in this state ends the literal. -/
def QuoteState.closes : QuoteState → Bool
  | .body | .gap false => true
  | _ => false

def afterQuoted (content : Content) : QuoteState → List Char → Option (List Char)
  | _, [] => none
  | state, c :: rest =>
    if c = '"' && state.closes then some (afterSuffix rest)
    else (quoteStep content state c).bind fun state => afterQuoted content state rest

/-- The text behind an escape of a character literal, whose backslash has been read. -/
def afterEscape (content : Content) : QuoteState → List Char → Option (List Char)
  | _, [] => none
  | state, c :: rest =>
    (quoteStep content state c).bind fun state =>
      match state with
      | .body => some rest
      | .gap _ => none
      | state => afterEscape content state rest

/-- Behind the opening quote of a character literal. -/
def afterCharacter (content : Content) : List Char → Option (List Char)
  | [] => none
  | c :: rest => do
    let rest ← if c = '\\' then afterEscape content .escape rest
      else if content.allows c then some rest else none
    match rest with
    | '\'' :: rest => some (afterSuffix rest)
    | _ => none

/-- Behind the opening quote of a raw literal that closes with a quote and `hashes`. -/
def afterRawBody (content : Content) (hashes : List Char) : List Char → Option (List Char)
  | [] => none
  | '\r' :: '\n' :: rest => afterRawBody content hashes rest
  | c :: rest =>
    if c = '"' && hashes.isPrefixOf rest then some (afterSuffix (rest.drop hashes.length))
    else if c = '\r' || !content.allows c then none
    else afterRawBody content hashes rest

/-- Behind the `r` of a raw literal. -/
def afterRaw (content : Content) (text : List Char) : Option (List Char) :=
  let hashes := text.takeWhile (· = '#')
  match text.dropWhile (· = '#') with
  | '"' :: rest => if hashes.length ≤ 255 then afterRawBody content hashes rest else none
  | _ => none

/-- How the digits of a floating-point literal go on before its exponent. -/
inductive Mantissa where
  | refused
  | plain (dotted : Bool) (rest : List Char)
  | exponent (dotted : Bool) (mark rest : List Char)

def mantissa (dotted : Bool) : List Char → Mantissa
  | [] => .plain dotted []
  | c :: rest =>
    if isAsciiDigit c || c = '_' then mantissa dotted rest
    else if c = '.' then
      if dotted then .plain dotted (c :: rest)
      else if rest.head?.any fun d => d = '.' || isIdentStart d then .refused
      else mantissa true rest
    else if c = 'e' || c = 'E' then .exponent dotted (c :: rest) rest
    else .plain dotted (c :: rest)

/-- The text behind an exponent, or `otherwise` when it has no digits. -/
def afterExponent (otherwise : Option (List Char)) (signed valued : Bool) :
    List Char → Option (List Char)
  | [] => if valued then some [] else otherwise
  | c :: rest =>
    if (c = '+' || c = '-') && !valued then
      if signed then otherwise else afterExponent otherwise true valued rest
    else if isAsciiDigit c then afterExponent otherwise signed true rest
    else if c = '_' then afterExponent otherwise signed valued rest
    else if valued then some (c :: rest) else otherwise

def afterFloatDigits : List Char → Option (List Char)
  | [] => none
  | c :: rest =>
    if !isAsciiDigit c then none
    else match mantissa false rest with
      | .refused => none
      | .plain dotted rest => if dotted then some rest else none
      | .exponent dotted mark rest =>
        afterExponent (if dotted then some mark else none) false false rest

/-- Digits of a number in `base`; `seen` tells that one was read. -/
def afterDigits (base : Nat) (seen : Bool) : List Char → Option (List Char)
  | [] => if seen then some [] else none
  | c :: rest =>
    if isAsciiDigit c then
      if c.toNat - '0'.toNat < base then afterDigits base true rest else none
    else if c = '_' then
      if !seen && base = 10 then none else afterDigits base seen rest
    else if ((hexDigit? c).any (· < base)) then afterDigits base true rest
    else if seen then some (c :: rest) else none

def afterIntDigits : List Char → Option (List Char)
  | '0' :: 'x' :: rest => afterDigits 16 false rest
  | '0' :: 'o' :: rest => afterDigits 8 false rest
  | '0' :: 'b' :: rest => afterDigits 2 false rest
  | text => afterDigits 10 false text

/-- A number ends where no identifier character follows its suffix. -/
def endNumber (text : List Char) : Option (List Char) :=
  let rest := afterSuffix text
  if rest.head?.any isIdentContinue then none else some rest

def afterNumber (text : List Char) : Option (List Char) :=
  (afterFloatDigits text >>= endNumber) <|> (afterIntDigits text >>= endNumber)

/-- The text behind the literal that `text` begins with. -/
def after? (text : List Char) : Option (List Char) :=
  let prefixed := match text with
    | '"' :: rest => afterQuoted .text .body rest
    | 'r' :: rest => afterRaw .text rest
    | 'b' :: '"' :: rest => afterQuoted .bytes .body rest
    | 'b' :: 'r' :: rest => afterRaw .bytes rest
    | 'c' :: '"' :: rest => afterQuoted .cText .body rest
    | 'c' :: 'r' :: rest => afterRaw .cText rest
    | 'b' :: '\'' :: rest => afterCharacter .bytes rest
    | '\'' :: rest => afterCharacter .text rest
    | _ => none
  prefixed <|> afterNumber text

end StructInventory.Literal
