import SurfaceRegistry.Decimal.Binary64

/-!
# JSON values

The values that a JSON document stands for. An object keeps its members in a given order; one that is
in normal form has them in the order of their keys, each key once.
-/

namespace SurfaceRegistry

/-- A JSON value. A number is an integer or a binary64 number. -/
inductive Json where
  /-- The value `null`. -/
  | null
  /-- A truth value. -/
  | bool (b : Bool)
  /-- An integer. -/
  | integer (n : Int)
  /-- A number that is not written as an integer. -/
  | float (x : Binary64)
  /-- A text. -/
  | string (s : String)
  /-- A list of values. -/
  | array (items : List Json)
  /-- Values with names. -/
  | object (members : List (String × Json))
  deriving Inhabited

end SurfaceRegistry
