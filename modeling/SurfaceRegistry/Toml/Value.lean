import SurfaceRegistry.Decimal.Binary64

/-!
# TOML values

The values that a TOML document gives to its keys. Dates and times are checked when they are read, but
nothing here depends on which moment they name, so it is not kept. Numbers need no value until somebody
asks for it.
-/

namespace SurfaceRegistry.Toml

/-- A number that is written as no integer. -/
inductive FloatValue where
  /-- A finite number. -/
  | finite (x : Binary64)
  /-- An infinity, the negative one or the positive one. -/
  | infinity (negative : Bool)
  /-- No number. -/
  | nan
  /-- Digits for a number beyond all finite ones. -/
  | tooLarge
  deriving DecidableEq

/-- A value in a document. -/
inductive Value where
  /-- A text. -/
  | string (s : String)
  /-- An integer, of any size. -/
  | integer (n : Int)
  /-- What is spelled like an integer but has no value. -/
  | voidInteger
  /-- A number that is written as no integer. -/
  | float (x : FloatValue)
  /-- A truth value. -/
  | boolean (b : Bool)
  /-- A date, a time, or both. -/
  | datetime
  /-- A list of values. -/
  | array (items : List Value)
  /-- Values with keys, each key once. -/
  | table (entries : List (String × Value))
  deriving Inhabited

/-- The entries of a table. -/
abbrev Table := List (String × Value)

end SurfaceRegistry.Toml
