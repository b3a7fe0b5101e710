import StructInventory.Naming
import StructInventory.Rendering

/-!
The words by which a format, a shape or a casing is chosen.
-/

namespace StructInventory

/-- A word that chooses nothing. -/
inductive UnknownWord where
  | format (word : String)
  | shape (word : String)
  | case (word : String)
  deriving DecidableEq

namespace UnknownWord

def message : UnknownWord → String
  | format word => "unknown format: " ++ word ++ ". Use json or txt"
  | shape word => "unknown shape: " ++ word ++ ". Use flat or nested"
  | case word => "unknown case: " ++ word ++ ". Use camel, snake, or underscore"

end UnknownWord

namespace Format

def parse (word : String) : Except UnknownWord Format :=
  (ofText? word).elim (.error (.format word)) .ok

end Format

namespace Shape

def parse (word : String) : Except UnknownWord Shape :=
  (ofText? word).elim (.error (.shape word)) .ok

end Shape

namespace Case

def parse (word : String) : Except UnknownWord Case :=
  (ofText? word).elim (.error (.case word)) .ok

end Case

end StructInventory
