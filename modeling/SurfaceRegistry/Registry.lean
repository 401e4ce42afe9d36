/-!
# The registry

Four values about a repository that tools for its API surface and its nightly tests rely on, and the
values that hold where nothing else is configured.
-/

namespace SurfaceRegistry

/-- The values that are registered about a repository. -/
structure Registry where
  /-- The listing of the API surface, relative to the root of the repository. -/
  apiSurfacePath : String
  /-- The source root of the nightly tests, relative to the root of the repository. -/
  nightlyTestsDirectoryPath : String
  /-- The package of the nightly test classes, with slashes. -/
  nightlyTestsPackage : String
  /-- The type names that are skipped in a walk over the API surface. -/
  ignoredTypes : List String
  deriving DecidableEq

namespace Registry

/-- The registered values where nothing else is configured. -/
def builtin : Registry where
  apiSurfacePath := "dd-sdk-android/apiSurface"
  nightlyTestsDirectoryPath := "instrumented/nightly-tests/src/androidTest/kotlin"
  nightlyTestsPackage := "com/datadog/android/nightly"
  ignoredTypes :=
    ["com.datadog.android.tracing.model.SpanEvent$Span",
     "com.datadog.android.rum.model.ActionEvent$Dd",
     "com.datadog.android.rum.model.ErrorEvent$Dd",
     "com.datadog.android.rum.model.LongTaskEvent$Dd",
     "com.datadog.android.telemetry.model.TelemetryDebugEvent$Dd",
     "com.datadog.android.telemetry.model.TelemetryErrorEvent$Dd"]

instance : Inhabited Registry := ⟨builtin⟩

/-- Whether exactly this name is listed as ignored. -/
def isIgnored (r : Registry) (name : String) : Bool :=
  r.ignoredTypes.contains name

end Registry

end SurfaceRegistry
