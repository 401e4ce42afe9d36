import SurfaceRegistry.Config
import SurfaceRegistry.Registry

/-!
# The effective registry

The built-in registry under a configuration under a caller's overrides. Each of the three single values
comes from the highest layer that states it. The ignored types of a configuration replace the built-in
ones or are added to them, each name once. Values are kept as they are written; whether they are sound
is for a check to say.
-/

namespace SurfaceRegistry

/-- The layer a value comes from. -/
inductive ValueSource where
  /-- The built-in registry. -/
  | builtin
  /-- The configuration. -/
  | config
  /-- The caller. -/
  | override
  deriving DecidableEq

namespace ValueSource

/-- The name of a layer. -/
def label : ValueSource → String
  | builtin => "builtin"
  | config => "config"
  | override => "override"

end ValueSource

/-- The least severity that makes a check fail. -/
inductive FailOn where
  /-- Only errors do. -/
  | error
  /-- Warnings do too. -/
  | warning
  deriving DecidableEq

namespace FailOn

/-- The name of a choice. -/
def label : FailOn → String
  | error => "error"
  | warning => "warning"

/-- The choice that a text names. -/
def parse? (name : String) : Option FailOn :=
  if name = "error" then some error
  else if name = "warning" ∨ name = "warn" then some warning
  else none

end FailOn

/-- Why no registry follows from a configuration. -/
inductive ResolveError where
  /-- A text names no severity to fail on. -/
  | unknownFailOn (name : String)
  deriving DecidableEq

namespace ResolveError

/-- The error in words. -/
def message : ResolveError → String
  | unknownFailOn name => "unknown fail_on: " ++ name ++ " (expected error|warning)"

end ResolveError

/-- A value and the layer that states it. -/
structure SourcedValue where
  /-- The value as it is written. -/
  value : String
  /-- The layer. -/
  source : ValueSource
  deriving DecidableEq

namespace SourcedValue

/-- The value of the highest layer that states one. -/
def pick (builtin : String) (config override : Option String) : SourcedValue :=
  match override, config with
  | some v, _ => ⟨v, .override⟩
  | none, some v => ⟨v, .config⟩
  | none, none => ⟨builtin, .builtin⟩

end SourcedValue

/-- The registry that is in force. -/
structure EffectiveRegistry where
  /-- The listing of the API surface. -/
  apiSurfacePath : SourcedValue
  /-- The source root of the nightly tests. -/
  nightlyTestsDirectoryPath : SourcedValue
  /-- The package of the nightly tests. -/
  nightlyTestsPackage : SourcedValue
  /-- The type names to ignore. -/
  ignoredTypes : List String
  /-- The highest layer that has a part in the type names to ignore. -/
  ignoredTypesSource : ValueSource
  /-- The least severity that makes a check fail. -/
  failOn : FailOn
  deriving DecidableEq

/-- Names that are added to a list one after another, each unless it is there already. -/
def addMissing (known : List String) : List String → List String
  | [] => known
  | name :: r => addMissing (if known.contains name then known else known ++ [name]) r

/-- The names that adding finds there already. -/
def alreadyKnown (known : List String) : List String → List String
  | [] => []
  | name :: r =>
    if known.contains name then name :: alreadyKnown known r
    else alreadyKnown (known ++ [name]) r

namespace EffectiveRegistry

/-- The type names to ignore under a configuration. -/
def mergeIgnoredTypes (c : Config) : List String :=
  if c.replaceIgnoredTypes then c.ignoredTypes
  else addMissing Registry.builtin.ignoredTypes c.ignoredTypes

/-- The type names of a configuration that merging leaves out. -/
def redundantIgnoredTypes (c : Config) : List String :=
  if c.replaceIgnoredTypes then []
  else alreadyKnown Registry.builtin.ignoredTypes c.ignoredTypes

/-- Where the type names to ignore come from. -/
def ignoredTypesLayer (c : Config) : ValueSource :=
  if c.replaceIgnoredTypes || !c.ignoredTypes.isEmpty then .config else .builtin

/-- What a check fails on: errors, unless something else is stated. -/
def chooseFailOn (stated : Option String) : Except ResolveError FailOn :=
  match stated with
  | none => .ok .error
  | some name =>
    match FailOn.parse? name with
    | some f => .ok f
    | none => .error (.unknownFailOn name)

/-- The registry in force under a configuration and overrides. -/
def resolve (c : Config) (o : Overrides) : Except ResolveError EffectiveRegistry := do
  let failOn ← chooseFailOn (o.failOn <|> c.failOn)
  pure
    { apiSurfacePath := .pick Registry.builtin.apiSurfacePath c.apiSurfacePath o.apiSurfacePath
      nightlyTestsDirectoryPath :=
        .pick Registry.builtin.nightlyTestsDirectoryPath c.nightlyTestsDirectoryPath
          o.nightlyTestsDirectoryPath
      nightlyTestsPackage :=
        .pick Registry.builtin.nightlyTestsPackage c.nightlyTestsPackage o.nightlyTestsPackage
      ignoredTypes := mergeIgnoredTypes c
      ignoredTypesSource := ignoredTypesLayer c
      failOn := failOn }

/-- Whether exactly this name is to be ignored. -/
def isIgnored (r : EffectiveRegistry) (name : String) : Bool :=
  r.ignoredTypes.contains name

end EffectiveRegistry

end SurfaceRegistry
