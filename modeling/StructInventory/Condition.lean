/-!
Build conditions of declarations, such as `all(unix, feature = "async")`. Only `test` and features
are decided; a condition about anything else has no known value.
-/

namespace StructInventory

/-- Paths are segment lists. A list whose items cannot be read is `unreadable`. -/
inductive Condition where
  | name (path : List String)
  | setting (path : List String) (value : Option String)
  | list (path : List String) (items : List Condition)
  | unreadable (path : List String)
  deriving Repr, Inhabited

namespace Condition

/-- False if some value is false, else unknown if some is unknown, else true. -/
def allOf (values : List (Option Bool)) : Option Bool :=
  if values.contains (some false) then some false
  else if values.contains none then none
  else some true

/-- True if some value is true, else unknown if some is unknown, else false. -/
def anyOf (values : List (Option Bool)) : Option Bool :=
  if values.contains (some true) then some true
  else if values.contains none then none
  else some false

/-- The value of a list, given those of its items. -/
def combine (path : List String) (values : List (Option Bool)) : Option Bool :=
  if path = ["not"] then
    match values with
    | [value] => value.map (!·)
    | _ => none
  else if path = ["all"] then allOf values
  else if path = ["any"] then anyOf values
  else none

mutual

/-- The value of a condition when exactly `features` are enabled, if it is known. -/
def eval (features : List String) : Condition → Option Bool
  | name path => if path = ["test"] then some false else none
  | setting path value =>
    if path = ["feature"] then value.map features.contains else none
  | list path items => combine path (evalAll features items)
  | unreadable _ => none

def evalAll (features : List String) : List Condition → List (Option Bool)
  | [] => []
  | item :: rest => item.eval features :: evalAll features rest

end

/-- A declaration is kept unless one of its conditions is known to be false. -/
def enabled (features : List String) (conditions : List Condition) : Bool :=
  conditions.all fun condition => condition.eval features != some false

end Condition

end StructInventory
