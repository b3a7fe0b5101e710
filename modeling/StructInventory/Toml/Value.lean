/-!
Values of the TOML format, as far as settings are made of them: texts, whole numbers, truth values,
lists and tables. A table remembers how it came to be, because that decides what may be added to it
later on.
-/

namespace StructInventory.Toml

/-- How a table came to be. -/
inductive Origin where
  /-- Written between braces. -/
  | braces
  /-- Named by a header of its own. -/
  | header
  /-- Named on the way to a table further down in a header. -/
  | passed
  /-- Named on the way to a value by a dotted key. -/
  | dotted
  deriving DecidableEq, Repr

inductive Value where
  | text (text : String)
  | integer (value : Int)
  | boolean (value : Bool)
  | list (values : List Value)
  | table (origin : Origin) (entries : List (String × Value))
  deriving Repr, Inhabited

abbrev Entries := List (String × Value)

namespace Entries

/-- Binds a name that is not bound. -/
def add? (entries : Entries) (name : String) (value : Value) : Option Entries :=
  if (entries.lookup name).isSome then none else some (entries ++ [(name, value)])

/-- Binds a name to another value, at its place. -/
def set (name : String) (value : Value) : Entries → Entries
  | [] => [(name, value)]
  | entry :: rest => if entry.1 = name then (name, value) :: rest else entry :: set name value rest

/-- Binds the last of a dotted key's names in the table that the others lead to. Dotted keys make
the tables that are missing, and add only to tables that such keys have made. -/
def addDotted? (value : Value) : List String → Entries → Option Entries
  | [], _ => none
  | [name], entries => entries.add? name value
  | name :: rest, entries =>
    match entries.lookup name with
    | none => do
      let inner ← addDotted? value rest []
      return entries ++ [(name, .table .dotted inner)]
    | some (.table .dotted inner) => do
      let inner ← addDotted? value rest inner
      return entries.set name (.table .dotted inner)
    | some _ => none

/-- Whether a header may name a table that is there already: only one that was merely passed. -/
def openHeader? : Option Value → Option Entries
  | none => some []
  | some (.table .passed entries) => some entries
  | some _ => none

/-- Whether a header may pass through a value. -/
def passThrough? : Option Value → Option (Origin × Entries)
  | none => some (.passed, [])
  | some (.table .braces _) => none
  | some (.table origin entries) => some (origin, entries)
  | some _ => none

/-- Changes the table that the names of a header lead to, as a header that comes anew. -/
def declare? (change : Entries → Option Entries) : List String → Entries → Option Entries
  | [], _ => none
  | [name], entries => do
    let inner ← change (← openHeader? (entries.lookup name))
    return entries.set name (.table .header inner)
  | name :: rest, entries => do
    let (origin, inner) ← passThrough? (entries.lookup name)
    let inner ← declare? change rest inner
    return entries.set name (.table origin inner)

end Entries

end StructInventory.Toml
