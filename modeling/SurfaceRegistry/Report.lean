import SurfaceRegistry.Finding
import SurfaceRegistry.Timestamp

/-!
# Reports

The outcome of a check: its findings, how many there are of each severity, the verdict that follows, and
the registered values that were checked.
-/

namespace SurfaceRegistry

/-- Whether a check passes. -/
inductive Verdict where
  /-- There is nothing to object to. -/
  | pass
  /-- There are warnings that do not fail the check. -/
  | warn
  /-- The check fails. -/
  | fail
  deriving DecidableEq

namespace Verdict

/-- The name of a verdict in reports. -/
def label : Verdict → String
  | pass => "pass"
  | warn => "warn"
  | fail => "fail"

/-- All verdicts, from the best. -/
def all : List Verdict :=
  [pass, warn, fail]

/-- The exit code that tells a failed check. -/
def exitCode : Verdict → Nat
  | pass | warn => 0
  | fail => 2

end Verdict

/-- How many findings there are of each severity. -/
structure VerdictCounts where
  /-- The number of remarks. -/
  info : UInt32
  /-- The number of warnings. -/
  warn : UInt32
  /-- The number of errors. -/
  error : UInt32
  deriving DecidableEq

namespace VerdictCounts

/-- How many findings have a severity. -/
def countOf (s : Severity) (findings : List Finding) : UInt32 :=
  UInt32.ofNat (findings.countP fun f => f.severity = s)

/-- The counts of a list of findings. -/
def tally (findings : List Finding) : VerdictCounts where
  info := countOf .info findings
  warn := countOf .warning findings
  error := countOf .error findings

end VerdictCounts

/-- The program that made a report. -/
structure ToolMeta where
  /-- Its name. -/
  name : String
  /-- Its version. -/
  version : String
  deriving DecidableEq

/-- This program. -/
def ToolMeta.current : ToolMeta where
  name := "surfacereg"
  version := "0.1.0"

/-- The values that a report is about. -/
structure ReportData where
  /-- The listing of the API surface. -/
  apiSurfacePath : String := ""
  /-- The source root of the nightly tests. -/
  nightlyTestsDirectoryPath : String := ""
  /-- The package of the nightly tests. -/
  nightlyTestsPackage : String := ""
  /-- The ignored type names. -/
  ignoredTypes : List String := []
  /-- The number of sources of nightly tests, if they were counted. -/
  nightlySources : Option UInt32 := none
  /-- Whether the repository was looked at. -/
  layoutProbed : Bool := false
  deriving DecidableEq

/-- The outcome of a check. -/
structure Report where
  /-- The version of the format. -/
  schema : String
  /-- The program that made the report. -/
  tool : ToolMeta
  /-- When the check began. -/
  startedAt : Timestamp
  /-- When the check ended. -/
  finishedAt : Timestamp
  /-- Whether the check passes. -/
  verdict : Verdict
  /-- How many findings there are of each severity. -/
  counts : VerdictCounts
  /-- The findings. -/
  findings : List Finding
  /-- The values that were checked. -/
  data : ReportData

namespace Report

/-- The one version of the format. -/
def schemaName : String := "surfacereg.report.v1"

/-- The finding that a check could not be carried out. -/
def runtimeErrorFinding (message : String) : Finding where
  severity := .error
  checkId := CheckId.toolRuntime.text
  code := FindingCode.runtimeError.text
  message := message

/-- The report of a check that could not be carried out. -/
def runtimeError (now : Timestamp) (message : String) : Report where
  schema := schemaName
  tool := .current
  startedAt := now
  finishedAt := now
  verdict := .fail
  counts := .tally [runtimeErrorFinding message]
  findings := [runtimeErrorFinding message]
  data := {}

end Report

end SurfaceRegistry
