import SurfaceRegistry.EffectiveRegistry
import SurfaceRegistry.Finding
import SurfaceRegistry.PackagePath
import SurfaceRegistry.TypeName

/-!
# Rules on registered values

What can be said about the values without looking at a repository. A path must not be empty, absolute or
lead out of the repository; the package must be a package path; each ignored type must be a type name
and be listed once. A value with no finding is sound.
-/

namespace SurfaceRegistry.Rules

/-- The names of the single values, as subjects of findings. -/
inductive Subject where
  /-- The listing of the API surface. -/
  | apiSurfacePath
  /-- The source root of the nightly tests. -/
  | nightlyTestsDirectoryPath
  /-- The package of the nightly tests. -/
  | nightlyTestsPackage
  deriving DecidableEq

/-- The name of a value. -/
def Subject.text : Subject → String
  | apiSurfacePath => "api_surface_path"
  | nightlyTestsDirectoryPath => "nightly_tests_directory_path"
  | nightlyTestsPackage => "nightly_tests_package"

/-- The subject of the ignored type at an index. -/
def ignoredTypeSubject (index : Nat) : String :=
  "ignored_types[" ++ toString index ++ "]"

/-! ### Findings -/

/-- Particulars that tell the value. -/
def valueData (value : String) : Json :=
  .object [("value", .string value)]

/-- An index as a number of 64 bits. -/
def indexJson (index : Nat) : Json :=
  .integer (UInt64.ofNat index).toNat

/-- A value is the empty text. -/
def emptyValue (subject : Subject) : Finding where
  severity := .error
  checkId := CheckId.registryValues.text
  code := FindingCode.emptyValue.text
  message := subject.text ++ " is empty"
  subject := some subject.text

/-- A path starts at a root. -/
def absolutePath (subject : Subject) (value : String) : Finding where
  severity := .error
  checkId := CheckId.registryPaths.text
  code := FindingCode.absolutePath.text
  message := subject.text ++ " is absolute: " ++ value
  subject := some subject.text
  path := some (RepoPath.ofText value)
  help := some "Use a path relative to the repository root."
  data := valueData value

/-- A path climbs above the root of the repository. -/
def parentEscape (subject : Subject) (value : String) : Finding where
  severity := .error
  checkId := CheckId.registryPaths.text
  code := FindingCode.parentEscape.text
  message := subject.text ++ " escapes the repository root: " ++ value
  subject := some subject.text
  path := some (RepoPath.ofText value)
  help := some "Avoid `..` segments that climb above the repository root."
  data := valueData value

/-- The package is not a package path. -/
def invalidPackage (value : String) (e : PackagePathError) : Finding where
  severity := .error
  checkId := CheckId.registryValues.text
  code := FindingCode.invalidPackage.text
  message := e.message
  subject := some Subject.nightlyTestsPackage.text
  help := some "Use slash-delimited identifier segments, e.g. `com/example/nightly`."
  data := valueData value

/-- An ignored type is not a type name. -/
def invalidTypeName (index : Nat) (value : String) (e : TypeNameError) : Finding where
  severity := .error
  checkId := CheckId.registryValues.text
  code := FindingCode.invalidTypeName.text
  message := e.message
  subject := some (ignoredTypeSubject index)
  help := some "Use a fully-qualified name such as `com.example.Outer$Nested`."
  data := valueData value

/-- An ignored type is listed again. -/
def duplicateIgnoredType (index first : Nat) (value : String) : Finding where
  severity := .error
  checkId := CheckId.registryValues.text
  code := FindingCode.duplicateIgnoredType.text
  message := "ignored type listed more than once: " ++ value
  subject := some (ignoredTypeSubject index)
  help := some "Remove the repeated entry."
  data := .object [("first_index", indexJson first), ("value", .string value)]

/-! ### Rules -/

/-- What is wrong with a path, if anything is. -/
def checkPath (subject : Subject) (value : String) : Option Finding :=
  if value.isEmpty then some (emptyValue subject)
  else if (RepoPath.ofText value).isAbsolute then some (absolutePath subject value)
  else if (RepoPath.ofText value).escapesRoot then some (parentEscape subject value)
  else none

/-- What is wrong with the package, if anything is. -/
def checkPackage (value : String) : Option Finding :=
  if value.isEmpty then some (emptyValue .nightlyTestsPackage)
  else
    match PackagePath.parse value with
    | .ok _ => none
    | .error e => some (invalidPackage value e)

/-- What is wrong with an ignored type as a name. -/
def checkTypeName (index : Nat) (value : String) : List Finding :=
  match TypeName.parse value with
  | .ok _ => []
  | .error e => [invalidTypeName index value e]

/-- What is wrong with an ignored type after others. -/
def checkRepetition (earlier : List String) (value : String) : List Finding :=
  match earlier.idxOf? value with
  | none => []
  | some first => [duplicateIgnoredType earlier.length first value]

/-- What is wrong with the ignored types that follow others, in their order. -/
def checkIgnoredTypes (earlier : List String) : List String → List Finding
  | [] => []
  | value :: r =>
    checkTypeName earlier.length value ++ checkRepetition earlier value ++
      checkIgnoredTypes (earlier ++ [value]) r

/-- What the rules say about the values of a registry. -/
structure Outcome where
  /-- What is wrong with the listing of the API surface. -/
  apiSurface : Option Finding
  /-- What is wrong with the source root of the nightly tests. -/
  nightlyDirectory : Option Finding
  /-- What is wrong with the package of the nightly tests. -/
  package : Option Finding
  /-- What is wrong with the ignored types. -/
  ignoredTypes : List Finding

/-- All that is wrong, in the order of the values. -/
def Outcome.findings (o : Outcome) : List Finding :=
  o.apiSurface.toList ++ o.nightlyDirectory.toList ++ o.package.toList ++ o.ignoredTypes

/-- The rules applied to a registry. -/
def evaluate (r : EffectiveRegistry) : Outcome where
  apiSurface := checkPath .apiSurfacePath r.apiSurfacePath.value
  nightlyDirectory := checkPath .nightlyTestsDirectoryPath r.nightlyTestsDirectoryPath.value
  package := checkPackage r.nightlyTestsPackage.value
  ignoredTypes := checkIgnoredTypes [] r.ignoredTypes

end SurfaceRegistry.Rules
