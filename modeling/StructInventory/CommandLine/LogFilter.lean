import StructInventory.Pattern.Reader
import StructInventory.Settings.Layer

/-!
Filters of the log. A filter is a list of directives with commas between them: a level, a target, a
target with its level, or a span in brackets with or without fields in braces.
-/

namespace StructInventory.LogFilter

open Text

def levelWords : List String := ["off", "error", "warn", "info", "debug", "trace"]

/-- A level is one of its words in any case, or a number up to five. -/
def isLevel (text : List Char) : Bool :=
  let digits := match text with
    | '+' :: digits => digits
    | digits => digits
  let number := digits.foldl (fun n c => 10 * n + (c.toNat - '0'.toNat)) 0
  levelWords.contains (String.ofList (text.map Char.toLower)) ||
    (!digits.isEmpty && digits.all isAsciiDigit && number ≤ 5)

/-- A field has a name, and may have a pattern for its value. -/
def isField (text : List Char) : Bool :=
  match splitAt '=' text with
  | _ :: value :: _ => (Pattern.read? (String.ofList value)).isSome
  | _ => !text.isEmpty

/-- Where the reading of a directive stands. `start` is where a level or field begins. -/
inductive State where
  | start
  | target
  | span
  | field (start : Nat)
  | fields
  | spanEnd
  | level (start : Nat)

/-- One step at the character `c`, which has the index `i`. The parts of a directive are counted
from the start of `text`, of which the characters that are read leave out blanks at the ends. -/
def step (text : List Char) (i : Nat) (c : Char) : State → Option State
  | .start =>
    if c = '[' then some .span
    else if c = '-' || c = ':' || c = '_' || isAlphanumeric c then some .target
    else none
  | .target =>
    if c = '=' then some (.level (i + 1)) else if c = '[' then some .span else some .target
  | .span =>
    if c = ']' then some .spanEnd else if c = '\x7b' then some (.field (i + 1)) else some .span
  | .field start =>
    if c = '\x7d' then
      if isField ((text.take i).drop start) then some .fields else none
    else some (.field start)
  | .fields => if c = ']' then some .spanEnd else none
  | .spanEnd => if c = '=' then some (.level (i + 1)) else none
  | .level start => some (.level start)

def run (text : List Char) : Nat → State → List Char → Option State
  | _, state, [] => some state
  | i, state, c :: rest => (step text i c state).bind fun state => run text (i + 1) state rest

def isDirective (text : List Char) : Bool :=
  match run text 0 .start (Layer.trimmed (String.ofList text)).toList with
  | some .target | some .spanEnd => true
  | some (.level start) => (text.drop start).isEmpty || isLevel (text.drop start)
  | _ => false

def isValid (filter : String) : Bool :=
  ((splitAt ',' filter.toList).filter fun text => !text.isEmpty).all isDirective

end StructInventory.LogFilter
