import SurfaceRegistry.EffectiveRegistry
import SurfaceRegistry.Json.Printer

/-!
# Showing the effective registry

The registry in force as lines of text, one for each value and one for each ignored type, or as a JSON
object that also tells on what a check fails.
-/

namespace SurfaceRegistry

/-- The forms in which a registry is shown. -/
inductive ShowFormat where
  /-- Lines of text. -/
  | text
  /-- A JSON object. -/
  | json
  deriving DecidableEq

/-- A text names no form. -/
structure UnknownFormat where
  /-- The text. -/
  name : String
  deriving DecidableEq

/-- The error in words. -/
def UnknownFormat.message (e : UnknownFormat) : String :=
  "unknown format: " ++ e.name ++ " (expected text or json)"

/-- The form that a text names. -/
def ShowFormat.parse (name : String) : Except UnknownFormat ShowFormat :=
  if name = "text" then .ok .text
  else if name = "json" then .ok .json
  else .error ⟨name⟩

namespace EffectiveRegistry

/-- The line of a single value. -/
def valueLine (key : String) (v : SourcedValue) : String :=
  key ++ ": " ++ v.value ++ " (" ++ v.source.label ++ ")\n"

/-- The line of an ignored type. -/
def ignoredTypeLine (name : String) : String :=
  "  - " ++ name ++ "\n"

/-- The registry as lines of text. -/
def textLines (r : EffectiveRegistry) : String :=
  valueLine "api_surface_path" r.apiSurfacePath ++
  valueLine "nightly_tests_directory_path" r.nightlyTestsDirectoryPath ++
  valueLine "nightly_tests_package" r.nightlyTestsPackage ++
  "ignored_types: (" ++ toString r.ignoredTypes.length ++ " entries, " ++
    r.ignoredTypesSource.label ++ ")\n" ++
  String.join (r.ignoredTypes.map ignoredTypeLine)

end EffectiveRegistry

/-- A value and its layer as a JSON object. -/
def SourcedValue.toJson (v : SourcedValue) : Json :=
  .object [("value", .string v.value), ("source", .string v.source.label)]

namespace EffectiveRegistry

/-- The registry as a JSON object. -/
def toJson (r : EffectiveRegistry) : Json :=
  .object
    [("api_surface_path", r.apiSurfacePath.toJson),
     ("nightly_tests_directory_path", r.nightlyTestsDirectoryPath.toJson),
     ("nightly_tests_package", r.nightlyTestsPackage.toJson),
     ("ignored_types", .array (r.ignoredTypes.map .string)),
     ("ignored_types_source", .string r.ignoredTypesSource.label),
     ("fail_on", .string r.failOn.label)]

/-- The text in which the registry is shown. -/
def shownAs (r : EffectiveRegistry) : ShowFormat → String
  | .text => r.textLines
  | .json => r.toJson.pretty ++ "\n"

end EffectiveRegistry

end SurfaceRegistry
