import SurfaceRegistry.Report

/-!
# Log entries

What a run has to tell beside its results, by how much it matters.
-/

namespace SurfaceRegistry

/-- How much an entry matters. -/
inductive LogLevel where
  /-- Something went wrong. -/
  | error
  /-- Something may be wrong. -/
  | warn
  /-- A result. -/
  | info
  /-- A step on the way to a result. -/
  | debug
  deriving DecidableEq

namespace LogLevel

/-- The name of a level. -/
def label : LogLevel → String
  | error => "ERROR"
  | warn => "WARN"
  | info => "INFO"
  | debug => "DEBUG"

/-- The place of a level, from what matters most. -/
def rank : LogLevel → Nat
  | error => 0
  | warn => 1
  | info => 2
  | debug => 3

/-- Whether entries of a level are kept when those up to `threshold` are asked for. -/
def keptUpTo (threshold level : LogLevel) : Bool :=
  level.rank ≤ threshold.rank

end LogLevel

/-- Something that a run tells. -/
inductive LogEntry where
  /-- The configuration was read from a file. -/
  | configLoaded (path : String)
  /-- There is no configuration file. -/
  | configMissing (path : String)
  /-- An ignored type of the configuration is there already. -/
  | ignoredTypeKnown (name : String)
  /-- The rules on values were applied. -/
  | rulesApplied (findings : Nat)
  /-- The sources of the nightly tests were counted. -/
  | sourcesFound (count : UInt32) (path : String)
  /-- A check came to its end. -/
  | checkFinished (verdict : Verdict) (counts : VerdictCounts)
  /-- The report of an error could not be written, for a reason. -/
  | errorReportNotWritten (reason : String)

/-- The name of a verdict in the log. -/
def Verdict.logName : Verdict → String
  | pass => "Pass"
  | warn => "Warn"
  | fail => "Fail"

namespace LogEntry

/-- How much an entry matters. -/
def level : LogEntry → LogLevel
  | errorReportNotWritten _ => .warn
  | checkFinished _ _ => .info
  | _ => .debug

/-- An entry in words. -/
def message : LogEntry → String
  | configLoaded path => "loaded config from " ++ path
  | configMissing path => "no config at " ++ path ++ "; using built-in registry"
  | ignoredTypeKnown name => "ignored type already registered: " ++ name
  | rulesApplied n => "registry rules produced " ++ toString n ++ " finding(s)"
  | sourcesFound n path =>
    "found " ++ toString n.toNat ++ " nightly sources under " ++ path
  | checkFinished verdict counts =>
    "check finished: " ++ verdict.logName ++ " (" ++ toString counts.error.toNat ++ " error, " ++
      toString counts.warn.toNat ++ " warn)"
  | errorReportNotWritten reason => "could not write error report: " ++ reason

end LogEntry

end SurfaceRegistry
