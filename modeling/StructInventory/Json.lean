import StructInventory.Document

/-!
JSON text, on one line or indented by two spaces, and the JSON form of documents.
-/

namespace StructInventory

inductive Json where
  | text (value : String)
  | list (items : List Json)
  | object (members : List (String × Json))
  deriving Inhabited

namespace Json

/-- A hexadecimal digit. -/
def hexDigit (value : Nat) : Char := Nat.digitChar value

/-- A character between the quotes of a JSON text. -/
def escapeChar (c : Char) : List Char :=
  if c = '"' then ['\\', '"']
  else if c = '\\' then ['\\', '\\']
  else if c = '\x08' then ['\\', 'b']
  else if c = '\x0c' then ['\\', 'f']
  else if c = '\n' then ['\\', 'n']
  else if c = '\r' then ['\\', 'r']
  else if c = '\t' then ['\\', 't']
  else if c.toNat < 32 then
    ['\\', 'u', '0', '0', hexDigit (c.toNat / 16), hexDigit (c.toNat % 16)]
  else [c]

def quote (value : String) : String :=
  String.ofList ('"' :: value.toList.flatMap escapeChar ++ ['"'])

mutual

/-- The text on one line. -/
def compact : Json → String
  | text value => quote value
  | list [] => "[]"
  | list (first :: rest) => "[" ++ compact first ++ compactItems rest ++ "]"
  | object [] => "\x7b\x7d"
  | object ((name, value) :: rest) =>
    "\x7b" ++ quote name ++ ":" ++ compact value ++ compactMembers rest ++ "\x7d"

def compactItems : List Json → String
  | [] => ""
  | item :: rest => "," ++ compact item ++ compactItems rest

def compactMembers : List (String × Json) → String
  | [] => ""
  | (name, value) :: rest => "," ++ quote name ++ ":" ++ compact value ++ compactMembers rest

end

/-- A line end and the indentation of a level. -/
def lineAt (level : Nat) : String := "\n" ++ String.ofList (List.replicate (2 * level) ' ')

mutual

/-- The text with each item and member on a line of its own. -/
def prettyAt (level : Nat) : Json → String
  | text value => quote value
  | list [] => "[]"
  | list (first :: rest) =>
    "[" ++ lineAt (level + 1) ++ prettyAt (level + 1) first ++ prettyItems (level + 1) rest ++
      lineAt level ++ "]"
  | object [] => "\x7b\x7d"
  | object ((name, value) :: rest) =>
    "\x7b" ++ lineAt (level + 1) ++ quote name ++ ": " ++ prettyAt (level + 1) value ++
      prettyMembers (level + 1) rest ++ lineAt level ++ "\x7d"

def prettyItems (level : Nat) : List Json → String
  | [] => ""
  | item :: rest => "," ++ lineAt level ++ prettyAt level item ++ prettyItems level rest

def prettyMembers (level : Nat) : List (String × Json) → String
  | [] => ""
  | (name, value) :: rest =>
    "," ++ lineAt level ++ quote name ++ ": " ++ prettyAt level value ++ prettyMembers level rest

end

def pretty (json : Json) : String := json.prettyAt 0

end Json

namespace FieldEntry

mutual

def json : FieldEntry → Json
  | type text => .text text
  | struct fields => .object (jsonMembers fields)

def jsonMembers : List (String × FieldEntry) → List (String × Json)
  | [] => []
  | (name, entry) :: rest => (name, json entry) :: jsonMembers rest

end

end FieldEntry

namespace FieldMap

def json : FieldMap → Json
  | flat fields => .object (fields.entries.map fun (name, type) => (name, .text type))
  | nested fields => .object (FieldEntry.jsonMembers fields.entries)

end FieldMap

namespace VarDoc

def json (var : VarDoc) : Json := .object [("Name", .text var.name), ("Type", .text var.type)]

end VarDoc

namespace MethodDoc

/-- A method that returns nothing has no `Return`. -/
def json (method : MethodDoc) : Json :=
  .object ([("Description", .text method.description),
      ("Params", .list (method.params.map VarDoc.json))] ++
    (method.returns.map fun result => ("Return", result.json)).toList)

end MethodDoc

namespace Document

def json (document : Document) : Json :=
  .object [("field", document.fields.json),
    ("function", .object (document.methods.entries.map fun (name, doc) => (name, doc.json)))]

end Document

end StructInventory
