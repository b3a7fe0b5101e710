import StructInventory.CommandLine.Arguments
import StructInventory.CommandLine.LogFilter
import StructInventory.Generation
import StructInventory.Settings.Resolve

/-!
What a command line does to a tree of files.
-/

namespace StructInventory.CommandLine

/-- Why a run that was asked for properly comes to nothing. -/
inductive RunError where
  | settings (error : SettingsError)
  | logLevel (filter : String)
  | noAccess (dir : PathText)
  | inventory (error : InventoryError)
  | nothingFound (name : String)
  deriving DecidableEq

namespace RunError

def message : RunError → String
  | settings error => error.message
  | logLevel filter => "invalid log level: " ++ filter
  | noAccess dir => "cannot access directory " ++ dir.text
  | inventory error => error.message
  | nothingFound name => "Unable to find '" ++ name ++ "' in any Rust files under this path"

end RunError

namespace Arguments

/-- The layer of the command line over that of the settings file. -/
def merged (arguments : Arguments) (tree : FileTree) : Except RunError Layer :=
  match arguments.config with
  | none => .ok arguments.layer
  | some path =>
    match Layer.load tree path with
    | .ok file => .ok (file.merge arguments.layer)
    | .error error => .error (.settings error)

end Arguments

end CommandLine

namespace Layer

open CommandLine

/-- The settings of a layer; the log filter is looked at before the rest. -/
def checked (layer : Layer) : Except RunError Settings :=
  match layer.logFilter.filter fun filter => !LogFilter.isValid filter with
  | some filter => .error (.logLevel filter)
  | none => layer.resolve.mapError .settings

end Layer

namespace Settings

open CommandLine

def outlet (settings : Settings) (baseDir : PathText) : Output :=
  if settings.print then .printed
  else .files {
    baseDir := settings.output
    case := settings.case
    keepTree := settings.keepTree
    sourceRoot := baseDir
    fileName := settings.fileName }

def generator (settings : Settings) (baseDir : PathText) : Generator :=
  .ofRenderer ⟨settings.format, settings.describe, settings.pretty⟩ (settings.outlet baseDir)

def walker (settings : Settings) (baseDir : PathText) : Walker where
  baseDir := baseDir
  recursive := settings.recursive
  filter := settings.selection.filter
  limitOne := settings.selection.limitOne
  features := settings.features

/-- Walks the directory of the settings, from its absolute path on. A name has to be found. -/
def run (settings : Settings) (tree : FileTree) : Except RunError (WalkReport Outcome) := do
  let baseDir ← (tree.canonical settings.dir).mapError fun _ => .noAccess settings.dir
  let report ← ((settings.walker baseDir).walk tree (settings.generator baseDir).visit
    { tree := tree }).mapError .inventory
  match settings.selection.name with
  | some name => if report.matched then return report else .error (.nothingFound name)
  | none => return report

end Settings

namespace CommandLine

def versionText : String := "tinfo 0.1.0\n"

def helpText : String :=
"Generate field and method inventories for Rust structs

Usage: tinfo [OPTIONS]

Options:
      --config <CONFIG>        Config file (TOML); flags given here override it
      --name <NAME>            Name or regular expression of the structs to describe
      --all                    Describe every struct found (implies --recursive)
      --dir <DIR>              Directory to search for structs [default: .]
  -r, --recursive              Search subdirectories too
      --output <OUTPUT>        Directory to write generated files to [default: ./typeinfo]
      --case <CASE>            File name casing: camel, snake, underscore
      --keeptree               Mirror the source tree under the output directory
      --filename <FILENAME>    Name of the generated file (only with --name and no regex)
  -f, --format <FORMAT>        Output format: json (default), txt
      --shape <SHAPE>          JSON field layout: flat (dotted paths, default) or nested
      --depth <DEPTH>          Nested struct expansion depth [default: 4 flat, 3 nested]
      --pretty                 Indent JSON output
      --print                  Print to stdout instead of writing files
      --tags <TAGS>            Enabled cfg features, comma separated
      --log-level <LOG_LEVEL>  Log level or filter directive; empty disables logging [default: info]
  -q, --quiet                  Disable logging
  -h, --help                   Print help
  -V, --version                Print version
"

namespace Inquiry

def answer : Inquiry → String
  | help => helpText
  | version => versionText

end Inquiry

/-- How a command ended. `logged` tells whether there is a log. -/
inductive Ending where
  | answered (text : String)
  | misused (error : UsageError)
  | failed (error : RunError)
  | finished (logged : Bool) (report : WalkReport Outcome)

namespace Ending

def exitCode : Ending → Nat
  | answered _ => 0
  | misused _ => 2
  | failed _ => 1
  | finished _ _ => 0

/-- What the command prints. -/
def printed : Ending → String
  | answered text => text
  | misused _ => ""
  | failed _ => ""
  | finished _ report => report.state.printed

/-- The files that the command writes, in their order. -/
def written : Ending → List (PathText × String)
  | finished _ report => report.state.written.reverse
  | _ => []

/-- What the command has to say besides, a line for each thing. -/
def complaints : Ending → List String
  | answered _ => []
  | misused error => ["error: " ++ error.message]
  | failed error => ["Error: " ++ error.message]
  | finished logged report => if logged then report.events.map LogEvent.line else []

end Ending

namespace Arguments

/-- Carries out a command whose arguments have been read. -/
def perform (arguments : Arguments) (tree : FileTree) : Except RunError Ending := do
  let layer ← arguments.merged tree
  let settings ← layer.checked
  return .finished layer.logFilter.isSome (← settings.run tree)

/-- The paths that a command reads or writes, as far as the files of a tree tell. -/
def paths (arguments : Arguments) (tree : FileTree) : List PathText :=
  arguments.config.toList ++
    match arguments.merged tree >>= Layer.checked with
    | .ok settings => [settings.dir, settings.output]
    | .error _ => []

end Arguments

/-- Carries out a command in a tree. -/
def execute (tree : FileTree) (arguments : List String) : Ending :=
  match Arguments.parse arguments with
  | .error (.inquiry inquiry) => .answered inquiry.answer
  | .error (.usage error) => .misused error
  | .ok arguments =>
    match arguments.perform tree with
    | .ok ending => ending
    | .error error => .failed error

/-- The paths that a command is about. -/
def pathsOf (tree : FileTree) (arguments : List String) : List PathText :=
  match Arguments.parse arguments with
  | .error _ => []
  | .ok arguments => arguments.paths tree

end CommandLine

end StructInventory
