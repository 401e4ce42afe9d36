import SurfaceRegistry.Text.Quoted

/-!
# Data that does not fit a model

A well-formed document may still not be what a reader asks for. A mismatch says what was found where
something else was expected.
-/

namespace SurfaceRegistry

/-- What is found in a document, in a few words. -/
inductive Found where
  /-- The value `null`. -/
  | null
  /-- A truth value. -/
  | bool (b : Bool)
  /-- An integer of at most 64 bits. -/
  | integer (n : Int)
  /-- An integer of more than 64 bits. -/
  | wideInteger (n : Int)
  /-- A number that is no integer, by its text. -/
  | float (text : String)
  /-- A text. -/
  | string (s : String)
  /-- A list. -/
  | sequence
  /-- Values with names. -/
  | map
  deriving DecidableEq

/-- How a document does not fit the model. -/
inductive Mismatch where
  /-- A name is none of the fields. -/
  | unknownField (name : String) (known : List String)
  /-- A field is there twice. -/
  | duplicateField (name : String)
  /-- A field is not there. -/
  | missingField (name : String)
  /-- A name is none of the variants. -/
  | unknownVariant (name : String) (known : List String)
  /-- A value of another kind is there. -/
  | invalidType (found : Found) (expected : String)
  /-- A value of the right kind is out of range. -/
  | invalidValue (found : Found) (expected : String)
  /-- A list in the place of a structure is too short. -/
  | invalidLength (length : Nat) (model : String) (size : Nat)
  deriving DecidableEq

namespace Found

/-- What is found, in words. -/
def text : Found → String
  | null => "null"
  | bool true => "boolean `true`"
  | bool false => "boolean `false`"
  | integer n => "integer `" ++ toString n ++ "`"
  | wideInteger n => "integer `" ++ toString n ++ (if n < 0 then "` as i128" else "` as u128")
  | float t => "floating point `" ++ t ++ "`"
  | string s => "string " ++ Text.quoted s
  | sequence => "sequence"
  | map => "map"

end Found

namespace Mismatch

/-- Names between backquotes, separated by commas. -/
def nameList (names : List String) : String :=
  ", ".intercalate (names.map fun n => "`" ++ n ++ "`")

/-- The mismatch in words. -/
def message : Mismatch → String
  | unknownField name known =>
    "unknown field `" ++ name ++ "`, expected one of " ++ nameList known
  | duplicateField name => "duplicate field `" ++ name ++ "`"
  | missingField name => "missing field `" ++ name ++ "`"
  | unknownVariant name known =>
    "unknown variant `" ++ name ++ "`, expected one of " ++ nameList known
  | invalidType found expected => "invalid type: " ++ found.text ++ ", expected " ++ expected
  | invalidValue found expected => "invalid value: " ++ found.text ++ ", expected " ++ expected
  | invalidLength length model size =>
    "invalid length " ++ toString length ++ ", expected struct " ++ model ++ " with " ++
      toString size ++ " elements"

end Mismatch

end SurfaceRegistry
