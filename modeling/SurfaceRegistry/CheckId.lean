/-!
# Names of checks and findings

A check has a dotted name, and each kind of finding a code in snake case. Both are stable: they are
part of every report.
-/

namespace SurfaceRegistry

/-- The checks that are made. -/
inductive CheckId where
  /-- The values are well-formed. -/
  | registryValues
  /-- The paths stay in the repository. -/
  | registryPaths
  /-- The repository holds what the values name. -/
  | repoLayout
  /-- The check itself could be carried out. -/
  | toolRuntime
  deriving DecidableEq

/-- The kinds of finding. -/
inductive FindingCode where
  /-- A value is the empty text. -/
  | emptyValue
  /-- An ignored type is not a type name. -/
  | invalidTypeName
  /-- An ignored type is listed again. -/
  | duplicateIgnoredType
  /-- The package is not a package path. -/
  | invalidPackage
  /-- A path starts at a root. -/
  | absolutePath
  /-- A path climbs above the root of the repository. -/
  | parentEscape
  /-- There is no API surface listing. -/
  | apiSurfaceMissing
  /-- The API surface listing is a directory. -/
  | apiSurfaceNotFile
  /-- There is no directory of nightly tests. -/
  | nightlyDirMissing
  /-- There is no directory for the package of the nightly tests. -/
  | nightlyPackageMissing
  /-- The check could not be carried out. -/
  | runtimeError
  deriving DecidableEq

namespace CheckId

/-- The name of a check in reports. -/
def text : CheckId → String
  | registryValues => "registry.values"
  | registryPaths => "registry.paths"
  | repoLayout => "repo.layout"
  | toolRuntime => "tool.runtime"

/-- All checks. -/
def all : List CheckId :=
  [registryValues, registryPaths, repoLayout, toolRuntime]

end CheckId

namespace FindingCode

/-- The code of a finding in reports. -/
def text : FindingCode → String
  | emptyValue => "empty_value"
  | invalidTypeName => "invalid_type_name"
  | duplicateIgnoredType => "duplicate_ignored_type"
  | invalidPackage => "invalid_package"
  | absolutePath => "absolute_path"
  | parentEscape => "parent_escape"
  | apiSurfaceMissing => "api_surface_missing"
  | apiSurfaceNotFile => "api_surface_not_file"
  | nightlyDirMissing => "nightly_dir_missing"
  | nightlyPackageMissing => "nightly_package_missing"
  | runtimeError => "runtime_error"

/-- All codes, those of one check side by side. -/
def all : List FindingCode :=
  [emptyValue, invalidTypeName, duplicateIgnoredType, invalidPackage, absolutePath, parentEscape,
   apiSurfaceMissing, apiSurfaceNotFile, nightlyDirMissing, nightlyPackageMissing, runtimeError]

end FindingCode

end SurfaceRegistry
