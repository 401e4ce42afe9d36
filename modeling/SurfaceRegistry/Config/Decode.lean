import SurfaceRegistry.Config
import SurfaceRegistry.Decimal.Format
import SurfaceRegistry.Mismatch
import SurfaceRegistry.Text.Encoding
import SurfaceRegistry.Toml.Document

/-!
# Reading configurations

A configuration is a TOML document whose top-level table has no keys but the fields of a configuration,
each with a value of its kind. The keys are looked at in their order, whatever their order in the
document, and the first that does not fit is the error.
-/

namespace SurfaceRegistry.Config

/-- Why a text is not a configuration. -/
inductive ReadError where
  /-- The text is not a TOML document. -/
  | notToml
  /-- A number has no value, or one too large for every type of number. -/
  | unreadableNumber
  /-- The document does not fit the model. -/
  | mismatch (m : Mismatch)
  /-- The document claims another version of the format. -/
  | unsupportedSchema (name : String)
  deriving DecidableEq

/-- What a document offers, or the reason why it does not fit. -/
abbrev Decoded (α : Type) := Except ReadError α

/-! ### Values -/

/-- Numbers are positional in messages, whatever their size. -/
def decimalFormat : DecimalFormat where
  tie := .up
  positional _ := true

/-- A number that is no integer, as it is found. -/
def foundFloat : Toml.FloatValue → Decoded Found
  | .finite x => .ok (.float (String.ofList (decimalFormat.chars x)))
  | .infinity false => .ok (.float "inf")
  | .infinity true => .ok (.float "-inf")
  | .nan => .ok (.float "NaN")
  | .tooLarge => .error .unreadableNumber

/-- An integer as it is found: of 64 bits with or without a sign, of 128 bits, or too large. -/
def foundInteger (n : Int) : Decoded Found :=
  if -(1 <<< 63 : Nat) ≤ n ∧ n < UInt64.size then .ok (.integer n)
  else if -(1 <<< 127 : Nat) ≤ n ∧ n < (1 <<< 128 : Nat) then .ok (.wideInteger n)
  else .error .unreadableNumber

/-- A value as it is found. -/
def found : Toml.Value → Decoded Found
  | .string s => .ok (.string s)
  | .integer n => foundInteger n
  | .voidInteger => .error .unreadableNumber
  | .float x => foundFloat x
  | .boolean b => .ok (.bool b)
  | .datetime => .ok .map
  | .array _ => .ok .sequence
  | .table _ => .ok .map

/-- The error that a value is of another kind than the expected one. -/
def wrongType {α : Type} (v : Toml.Value) (expected : String) : Decoded α := do
  let f ← found v
  .error (.mismatch (.invalidType f expected))

/-- A text. -/
def decodeText : Toml.Value → Decoded String
  | .string s => .ok s
  | v => wrongType v "a string"

/-- A truth value. -/
def decodeFlag : Toml.Value → Decoded Bool
  | .boolean b => .ok b
  | v => wrongType v "a boolean"

/-- A list of texts. -/
def decodeTexts : Toml.Value → Decoded (List String)
  | .array vs => vs.mapM decodeText
  | v => wrongType v "a sequence"

/-! ### Tables -/

/-- A configuration with one more field. -/
def addField (c : Config) (name : String) (v : Toml.Value) : Decoded Config :=
  match name with
  | "schema" => do pure { c with schema := some (← decodeText v) }
  | "api_surface_path" => do pure { c with apiSurfacePath := some (← decodeText v) }
  | "nightly_tests_directory_path" => do
    pure { c with nightlyTestsDirectoryPath := some (← decodeText v) }
  | "nightly_tests_package" => do pure { c with nightlyTestsPackage := some (← decodeText v) }
  | "ignored_types" => do pure { c with ignoredTypes := ← decodeTexts v }
  | "replace_ignored_types" => do pure { c with replaceIgnoredTypes := ← decodeFlag v }
  | "fail_on" => do pure { c with failOn := some (← decodeText v) }
  | _ => .error (.mismatch (.unknownField name fieldNames))

/-- The entries of a table in the order of their keys. -/
def sortedEntries (t : Toml.Table) : Toml.Table :=
  t.mergeSort fun e f => Text.bytesLe e.1 f.1

/-- The configuration that a table holds, whatever its version. -/
def ofTable (t : Toml.Table) : Decoded Config :=
  (sortedEntries t).foldlM (fun c e => addField c e.1 e.2) {}

/-- A configuration of the version that is supported, or of none. -/
def checkSchema (c : Config) : Decoded Config :=
  match c.schema with
  | none => .ok c
  | some name => if name = schemaName then .ok c else .error (.unsupportedSchema name)

/-- The configuration that a document holds. -/
def parse (document : String) : Decoded Config :=
  match Toml.parse? document with
  | none => .error .notToml
  | some t => (ofTable t).bind checkSchema

/-- The error in words. -/
def ReadError.message : ReadError → String
  | notToml => "TOML parse error"
  | unreadableNumber => "TOML parse error: number cannot be read"
  | mismatch m => "TOML parse error: " ++ m.message
  | unsupportedSchema name =>
    "unsupported config schema: " ++ name ++ " (expected " ++ schemaName ++ ")"

end SurfaceRegistry.Config
