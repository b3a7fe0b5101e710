import StructInventory.Destination
import StructInventory.Rendering
import StructInventory.Walk

/-!
Generating texts about structs: each struct is rendered, and its text is printed or written to a
file of its own.
-/

namespace StructInventory

/-- A rendering that gave up, with its reason if that can be told. -/
structure RenderFault where
  reason : Option String

namespace RenderFault

def text (fault : RenderFault) : String := fault.reason.getD "unknown panic"

end RenderFault

inductive Output where
  | printed
  | files (destination : Destination)

/-- What has come of a run so far: the tree as it is now, the files that were written, the last one
first, and the text that was printed. -/
structure Outcome where
  tree : FileTree
  written : List (PathText × String) := []
  printed : String := ""

/-- Renders structs and puts their texts somewhere. -/
structure Generator where
  render : StructDesc → Except RenderFault String
  extension : String
  output : Output

namespace Generator

def ofRenderer (renderer : Renderer) (output : Output) : Generator where
  render struct := .ok (renderer.render struct)
  extension := renderer.format.extension
  output := output

/-- A text with a line feed at its end. -/
def endLine (text : String) : String := if text.endsWith "\n" then text else text ++ "\n"

/-- Writes a text to a file, for which directories are made as they are needed. -/
def writeFile (outcome : Outcome) (path : PathText) (text : String) : Outcome × VisitResult :=
  let ready := match path.parent? with
    | some parent => outcome.tree.makeDirs parent
    | none => .ok outcome.tree
  match ready with
  | .error error => (outcome, .failed (.file error))
  | .ok tree =>
    match tree.writeText path text with
    | .error error => ({ outcome with tree := tree }, .failed (.file error))
    | .ok tree =>
      ({ outcome with tree := tree, written := (path, text) :: outcome.written }, .done)

def visit (generator : Generator) : Visitor Outcome := fun outcome struct =>
  match generator.render struct with
  | .error fault => (outcome, .gaveUp fault.text)
  | .ok text =>
    match generator.output with
    | .printed => ({ outcome with printed := outcome.printed ++ endLine text }, .done)
    | .files destination =>
      writeFile outcome (destination.pathFor struct generator.extension) (endLine text)

end Generator

end StructInventory
