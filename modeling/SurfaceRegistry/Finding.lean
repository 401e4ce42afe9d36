import SurfaceRegistry.CheckId
import SurfaceRegistry.Json.Value
import SurfaceRegistry.RepoPath
import SurfaceRegistry.Text.Encoding

/-!
# Findings

What a check has to say about a registered value.
-/

namespace SurfaceRegistry

/-- How grave a finding is. -/
inductive Severity where
  /-- Worth knowing. -/
  | info
  /-- Fails a check only if it is asked to. -/
  | warning
  /-- Fails a check. -/
  | error
  deriving DecidableEq

namespace Severity

/-- The name of a severity in reports. -/
def label : Severity → String
  | info => "info"
  | warning => "warning"
  | error => "error"

/-- All severities, from the least grave. -/
def all : List Severity :=
  [info, warning, error]

end Severity

/-- A finding of a check. -/
structure Finding where
  /-- How grave it is. -/
  severity : Severity
  /-- The name of the check. -/
  checkId : String
  /-- The kind of finding. -/
  code : String
  /-- The finding in words. -/
  message : String
  /-- The value that the finding is about. -/
  subject : Option String := none
  /-- The path that the finding is about. -/
  path : Option RepoPath := none
  /-- What to do about it. -/
  help : Option String := none
  /-- Particulars; `null` if there are none. -/
  data : Json := .null

namespace Finding

/-- The order of findings: by check, then by code, then by message, each by its bytes. -/
def compare (f g : Finding) : Ordering :=
  (Text.compareBytes f.checkId g.checkId).then
    ((Text.compareBytes f.code g.code).then (Text.compareBytes f.message g.message))

/-- Whether `f` may stand before `g`. -/
def le (f g : Finding) : Bool :=
  (f.compare g).isLE

/-- Findings in their order; those that compare equal keep their places. -/
def sort (findings : List Finding) : List Finding :=
  findings.mergeSort le

end Finding

end SurfaceRegistry
