import StructInventory.Comment.Piece

/-!
Comment groups: comments with neither code nor a blank line between them. Comments that document
what they stand in (`//!` and `/*!`) belong to no group and end the one before them.
-/

namespace StructInventory

open Text

/-- `stop` is behind the last character of the last comment. -/
structure CommentGroup where
  start : Pos
  stop : Pos
  comments : List (List Char)
  deriving Inhabited

namespace CommentGroup

/-! ### Collecting -/

/-- A group that may still grow, with what stands behind its last comment. -/
structure Collector where
  closed : List CommentGroup := []
  current : Option CommentGroup := none
  lineFeeds : Nat := 0
  code : Bool := false

namespace Collector

def groups (collector : Collector) : List CommentGroup :=
  (collector.current.toList ++ collector.closed).reverse

/-- A comment as its group holds it. The carriage returns before a line feed belong to the end of
the line, not to the comment that the line ends in. -/
def kept : List Char → List Char
  | '/' :: '*' :: rest => '/' :: '*' :: rest
  | comment => (comment.reverse.dropWhile (· = '\r')).reverse

/-- A comment joins the current group unless code or a blank line is between. -/
def addComment (collector : Collector) (placed : Placed) : Collector :=
  let fresh : CommentGroup := ⟨placed.start, placed.stop, [kept placed.chars]⟩
  match collector.current with
  | some group =>
    if !collector.code && collector.lineFeeds ≤ 1 then
      { closed := collector.closed
        current := some { group with
          stop := placed.stop, comments := group.comments ++ [kept placed.chars] } }
    else { closed := group :: collector.closed, current := some fresh }
  | none => { closed := collector.closed, current := some fresh }

/-- Whether a comment documents what it stands in. -/
def isInner (comment : List Char) : Bool := comment[2]? = some '!'

def add (collector : Collector) (placed : Placed) : Collector :=
  match placed.piece with
  | .comment =>
    if isInner placed.chars then { collector with code := true } else collector.addComment placed
  | .code _ => { collector with code := true }
  | .lineFeed => { collector with lineFeeds := collector.lineFeeds + 1 }
  | .blank => collector

end Collector

/-- The comment groups of a text, in reading order. -/
def collect (text : String) : List CommentGroup :=
  ((Placed.ofText text).foldl Collector.add {}).groups

/-! ### Text -/

/-- Drops `c` if the text begins with it. -/
def dropChar (c : Char) : List Char → List Char
  | d :: rest => if d = c then rest else d :: rest
  | [] => []

def trimStart (text : List Char) : List Char := text.dropWhile isBlank

def trimEnd (text : List Char) : List Char := (text.reverse.dropWhile isBlank).reverse

/-- A line without the space that sets it off from its marker and without blanks at its end. -/
def tidyLine (line : List Char) : List Char := trimEnd (dropChar ' ' line)

/-- The lines of a text; a last line feed begins none. -/
def lines (text : List Char) : List (List Char) :=
  match text.getLast? with
  | none => []
  | some '\n' => splitAt '\n' text.dropLast
  | some _ => splitAt '\n' text

/-- A line of a block comment behind its first one, without the star that may lead it. -/
def innerLine (line : List Char) : List Char := dropChar '*' (trimStart line)

/-- The inside of a block comment, of which the first two characters have been read. -/
def blockBody (comment : List Char) : List Char :=
  let body := match comment.reverse with
    | '/' :: '*' :: rest => rest.reverse
    | _ => comment
  dropChar '*' body

/-- The inside of a line comment. -/
def lineBody : List Char → List Char
  | '/' :: '/' :: '/' :: '/' :: rest => '/' :: '/' :: rest
  | '/' :: '/' :: '/' :: rest => rest
  | '/' :: '/' :: rest => rest
  | comment => comment

/-- The lines of a comment without its markers. -/
def commentLines : List Char → List (List Char)
  | '/' :: '*' :: rest =>
    match lines (blockBody rest) with
    | [] => []
    | first :: others => tidyLine first :: others.map fun line => tidyLine (innerLine line)
  | comment => [tidyLine (lineBody comment)]

/-- Drops empty lines at both ends. -/
def trimLines (lines : List (List Char)) : List (List Char) :=
  ((lines.dropWhile List.isEmpty).reverse.dropWhile List.isEmpty).reverse

/-- What the comments of a group say, line by line. -/
def text (group : CommentGroup) : String :=
  String.ofList (List.intercalate ['\n'] (trimLines (group.comments.flatMap commentLines)))

end CommentGroup

end StructInventory
