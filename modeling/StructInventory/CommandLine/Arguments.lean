import StructInventory.Settings.Layer

/-!
Arguments of the command line. Options are written `--name value`, `--name=value`, `-f value`,
`-fvalue` or `-f=value`, and short switches may be joined. Each option stands once, the one for
features apart; there are no arguments but options.
-/

namespace StructInventory.CommandLine

/-- An option without a value. -/
inductive Switch where
  | all
  | recursive
  | keepTree
  | pretty
  | print
  | quiet
  deriving DecidableEq, Repr

/-- An option with a value. -/
inductive Setting where
  | config
  | name
  | dir
  | output
  | case
  | fileName
  | format
  | shape
  | depth
  | features
  | logLevel
  deriving DecidableEq, Repr

/-- A question about the program itself; it is answered, and nothing else is done. -/
inductive Inquiry where
  | help
  | version
  deriving DecidableEq, Repr

inductive Opt where
  | switch (switch : Switch)
  | setting (setting : Setting)
  | inquiry (inquiry : Inquiry)
  deriving DecidableEq, Repr

namespace Opt

def ofLong? (name : String) : Option Opt :=
  match name with
  | "config" => some (.setting .config)
  | "name" => some (.setting .name)
  | "all" => some (.switch .all)
  | "dir" => some (.setting .dir)
  | "recursive" => some (.switch .recursive)
  | "output" => some (.setting .output)
  | "case" => some (.setting .case)
  | "keeptree" => some (.switch .keepTree)
  | "filename" => some (.setting .fileName)
  | "format" => some (.setting .format)
  | "shape" => some (.setting .shape)
  | "depth" => some (.setting .depth)
  | "pretty" => some (.switch .pretty)
  | "print" => some (.switch .print)
  | "tags" => some (.setting .features)
  | "log-level" => some (.setting .logLevel)
  | "quiet" => some (.switch .quiet)
  | "help" => some (.inquiry .help)
  | "version" => some (.inquiry .version)
  | _ => none

def ofShort? : Char → Option Opt
  | 'r' => some (.switch .recursive)
  | 'f' => some (.setting .format)
  | 'q' => some (.switch .quiet)
  | 'h' => some (.inquiry .help)
  | 'V' => some (.inquiry .version)
  | _ => none

end Opt

/-- What is wrong with the arguments. -/
inductive UsageError where
  | unexpected (argument : String)
  | repeated
  | noValue
  | needlessValue
  | badDepth (value : String)
  | word (word : UnknownWord)
  deriving DecidableEq

namespace UsageError

def message : UsageError → String
  | .unexpected argument => "unexpected argument '" ++ argument ++ "' found"
  | .repeated => "an argument cannot be used multiple times"
  | .noValue => "a value is required but none was supplied"
  | .needlessValue => "unexpected value for a switch"
  | .badDepth value => "invalid value '" ++ value ++ "' for --depth"
  | .word unknown => unknown.message

end UsageError

/-- Why the reading of arguments ends early. -/
inductive Stop where
  | inquiry (inquiry : Inquiry)
  | usage (error : UsageError)

/-- What the arguments ask for: a settings file, and a layer over it. -/
structure Arguments where
  config : Option PathText := none
  layer : Layer := {}

namespace Arguments

def setSwitch (arguments : Arguments) (switch : Switch) : Arguments :=
  { arguments with layer := match switch with
    | .all => { arguments.layer with all := some true }
    | .recursive => { arguments.layer with recursive := some true }
    | .keepTree => { arguments.layer with keepTree := some true }
    | .pretty => { arguments.layer with pretty := some true }
    | .print => { arguments.layer with print := some true }
    | .quiet => { arguments.layer with quiet := some true } }

/-- A whole number of 64 bits without sign; a plus sign may stand before it. -/
def depth? (value : String) : Option Nat :=
  let digits := match value.toList with
    | '+' :: digits => digits
    | digits => digits
  let number := digits.foldl (fun n c => 10 * n + (c.toNat - '0'.toNat)) 0
  if !digits.isEmpty && digits.all Text.isAsciiDigit && number < 0x10000000000000000 then
    some number
  else none

def pathValue (value : String) : Except UsageError PathText :=
  if value = "" then .error .noValue else .ok ⟨value⟩

def setValue (arguments : Arguments) (setting : Setting) (value : String) :
    Except UsageError Arguments :=
  let layer := arguments.layer
  match setting with
  | .config => do return { arguments with config := some (← pathValue value) }
  | .name => .ok { arguments with layer := { layer with name := some value } }
  | .dir => do
    return { arguments with layer := { layer with dir := some (← pathValue value) } }
  | .output => do
    return { arguments with layer := { layer with output := some (← pathValue value) } }
  | .case => do
    let case ← (Case.parse value).mapError .word
    return { arguments with layer := { layer with case := some case } }
  | .fileName => .ok { arguments with layer := { layer with fileName := some value } }
  | .format => do
    let format ← (Format.parse value).mapError .word
    return { arguments with layer := { layer with format := some format } }
  | .shape => do
    let shape ← (Shape.parse value).mapError .word
    return { arguments with layer := { layer with shape := some shape } }
  | .depth =>
    match depth? value with
    | some depth => .ok { arguments with layer := { layer with depth := some depth } }
    | none => .error (.badDepth value)
  | .features =>
    let added := (Text.splitAt ',' value.toList).map String.ofList
    .ok { arguments with layer :=
      { layer with features := some (layer.features.getD [] ++ added) } }
  | .logLevel => .ok { arguments with layer := { layer with logLevel := some value } }

end Arguments

/-- The arguments read so far. A setting whose value is not yet taken up is `pending`: it waits for
the value, or has it but for the next option to come. `given` are the options taken up. -/
structure ReaderState where
  arguments : Arguments := {}
  given : List Opt := []
  pending : Option (Setting × Option String) := none

namespace ReaderState

/-- Notes that an option is given; no option but that for features is given twice. -/
def note (state : ReaderState) (opt : Opt) : Except Stop ReaderState :=
  if state.given.contains opt && opt ≠ .setting .features then .error (.usage .repeated)
  else .ok { state with given := opt :: state.given }

def takeValue (state : ReaderState) (setting : Setting) (value : String) :
    Except Stop ReaderState := do
  let state ← state.note (.setting setting)
  match state.arguments.setValue setting value with
  | .ok arguments => return { state with arguments := arguments }
  | .error error => .error (.usage error)

/-- Takes up the setting that is pending. -/
def settle (state : ReaderState) : Except Stop ReaderState :=
  match state.pending with
  | none => .ok state
  | some (_, none) => .error (.usage .noValue)
  | some (setting, some value) => { state with pending := none }.takeValue setting value

/-- Takes up an option that is known; a setting without a value waits for it. -/
def take (state : ReaderState) (opt : Opt) (value : Option String) : Except Stop ReaderState := do
  let state ← state.settle
  match opt, value with
  | .switch switch, _ =>
    let state ← state.note opt
    return { state with arguments := state.arguments.setSwitch switch }
  | .inquiry inquiry, _ => .error (.inquiry inquiry)
  | .setting setting, some value => state.takeValue setting value
  | .setting setting, none => return { state with pending := some (setting, none) }

/-- An option by its long name. -/
def long (state : ReaderState) (argument : String) : Except Stop ReaderState :=
  let chars := argument.toList.drop 2
  let name := chars.takeWhile (· ≠ '=')
  let value := match chars.drop name.length with
    | _ :: value => some (String.ofList value)
    | [] => none
  match Opt.ofLong? (String.ofList name) with
  | none => .error (.usage (.unexpected argument))
  | some (.setting setting) => state.take (.setting setting) value
  | some opt => if value.isSome then .error (.usage .needlessValue) else state.take opt none

/-- Options by their short names; what is behind one with a value is that value. -/
def short (argument : String) : ReaderState → List Char → Except Stop ReaderState
  | state, [] => .ok state
  | state, c :: rest =>
    match Opt.ofShort? c with
    | none => .error (.usage (.unexpected argument))
    | some (.setting setting) =>
      let value := match rest with
        | [] => none
        | '=' :: value => some (String.ofList value)
        | value => some (String.ofList value)
      state.take (.setting setting) value
    | some opt => do short argument (← state.take opt none) rest

/-- An argument that is no option: the value of the setting that waits for one. -/
def value (state : ReaderState) (argument : String) : Except Stop ReaderState :=
  match state.pending with
  | some (setting, none) => .ok { state with pending := some (setting, some argument) }
  | _ => .error (.usage (.unexpected argument))

/-- Two dashes end the options, and nothing can come behind them. -/
def read : ReaderState → List String → Except Stop ReaderState
  | state, [] => state.settle
  | state, argument :: rest =>
    match argument.toList with
    | ['-', '-'] =>
      match rest with
      | [] => state.settle
      | next :: _ => .error (.usage (.unexpected next))
    | '-' :: '-' :: _ => do read (← state.long argument) rest
    | '-' :: c :: chars => do read (← short argument state (c :: chars)) rest
    | _ => do read (← state.value argument) rest

end ReaderState

namespace Arguments

def parse (arguments : List String) : Except Stop Arguments :=
  (ReaderState.read {} arguments).map ReaderState.arguments

end Arguments

end StructInventory.CommandLine
