/-!
# Configurations

What a configuration file states about the registry, and what a caller states on top of it. Everything
is optional: what is left out falls back to the built-in registry.
-/

namespace SurfaceRegistry

/-- The content of a configuration file. -/
structure Config where
  /-- The version of the format that the file claims. -/
  schema : Option String := none
  /-- The listing of the API surface. -/
  apiSurfacePath : Option String := none
  /-- The source root of the nightly tests. -/
  nightlyTestsDirectoryPath : Option String := none
  /-- The package of the nightly tests. -/
  nightlyTestsPackage : Option String := none
  /-- Type names to ignore. -/
  ignoredTypes : List String := []
  /-- Whether these type names take the place of the built-in ones. -/
  replaceIgnoredTypes : Bool := false
  /-- From which severity on a check fails. -/
  failOn : Option String := none
  deriving DecidableEq, Inhabited

namespace Config

/-- The one version of the format. -/
def schemaName : String := "surfacereg.config.v1"

/-- The names of the fields in a file, in the order of the structure. -/
def fieldNames : List String :=
  ["schema", "api_surface_path", "nightly_tests_directory_path", "nightly_tests_package",
   "ignored_types", "replace_ignored_types", "fail_on"]

end Config

/-- What a caller states on top of the file. -/
structure Overrides where
  /-- The listing of the API surface. -/
  apiSurfacePath : Option String := none
  /-- The source root of the nightly tests. -/
  nightlyTestsDirectoryPath : Option String := none
  /-- The package of the nightly tests. -/
  nightlyTestsPackage : Option String := none
  /-- From which severity on a check fails. -/
  failOn : Option String := none
  deriving DecidableEq, Inhabited

end SurfaceRegistry
