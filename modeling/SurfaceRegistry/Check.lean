import SurfaceRegistry.Check.Layout
import SurfaceRegistry.Failure
import SurfaceRegistry.Log
import SurfaceRegistry.Text.Classes

/-!
# Checking a registry

A check reads a configuration, finds the registry in force, applies the rules to its values and looks at
the repository if it is asked to. Its report has all findings in their order and the verdict that
follows from them. A check fails only over its configuration; whatever is wrong with the values or the
repository becomes a finding.
-/

namespace SurfaceRegistry

/-! ### The registry in force -/

/-- The configuration that a text holds. A blank text states nothing. -/
def Config.load (text : String) : Except Failure Config :=
  if Text.isBlank text then .ok {}
  else failWithin [.parseConfig] .config (Config.parse text)

/-- The registry in force under a configuration and overrides. -/
def EffectiveRegistry.ofConfig (c : Config) (o : Overrides) : Except Failure EffectiveRegistry :=
  failWithin [.resolveConfig] .resolve (EffectiveRegistry.resolve c o)

/-- The registry in force under the configuration of a text and overrides. -/
def EffectiveRegistry.load (text : String) (o : Overrides) : Except Failure EffectiveRegistry := do
  let c ← Config.load text
  ofConfig c o

/-- What the search for the registry in force tells, whether or not one is found. -/
def EffectiveRegistry.loadNotes (text : String) : List LogEntry :=
  match Config.load text with
  | .error _ => []
  | .ok c => (redundantIgnoredTypes c).map .ignoredTypeKnown

/-! ### Reports -/

/-- The verdict that follows from the counts of findings. -/
def Verdict.ofCounts (counts : VerdictCounts) (failOn : FailOn) : Verdict :=
  if 0 < counts.error then .fail
  else if 0 < counts.warn then
    match failOn with
    | .warning => .fail
    | .error => .warn
  else .pass

/-- When a check began and ended. -/
structure CheckTimes where
  /-- When it began. -/
  started : Timestamp
  /-- When it ended. -/
  finished : Timestamp

/-- The values of a registry as a report records them. -/
def EffectiveRegistry.reportData (r : EffectiveRegistry) (layout : Option Layout.Outcome) :
    ReportData where
  apiSurfacePath := r.apiSurfacePath.value
  nightlyTestsDirectoryPath := r.nightlyTestsDirectoryPath.value
  nightlyTestsPackage := r.nightlyTestsPackage.value
  ignoredTypes := r.ignoredTypes
  nightlySources := layout.bind fun l => l.sources.map Prod.fst
  layoutProbed := layout.isSome

namespace Check

/-- All findings about a registry, in their order: what was seen of the repository comes before what
the rules say when both compare equal. -/
def findings (rules : Rules.Outcome) (layout : Option Layout.Outcome) : List Finding :=
  Finding.sort ((layout.elim [] Layout.Outcome.findings) ++ rules.findings)

/-- The report of a check. -/
def report (r : EffectiveRegistry) (rules : Rules.Outcome) (layout : Option Layout.Outcome)
    (times : CheckTimes) : Report :=
  let findings := findings rules layout
  let counts := VerdictCounts.tally findings
  { schema := Report.schemaName
    tool := .current
    startedAt := times.started
    finishedAt := times.finished
    verdict := .ofCounts counts r.failOn
    counts := counts
    findings := findings
    data := r.reportData layout }

/-- What a check tells before its report. -/
def notes (rules : Rules.Outcome) (layout : Option Layout.Outcome) : List LogEntry :=
  .rulesApplied rules.findings.length ::
    (layout.bind Layout.Outcome.sources).toList.map fun s => .sourcesFound s.1 s.2

/-! ### Checks -/

/-- The result of a check. -/
structure Output where
  /-- The registry that was in force. -/
  registry : EffectiveRegistry
  /-- The report. -/
  report : Report
  /-- What the check tells before the report. -/
  notes : List LogEntry

/-- All that a check tells. -/
def Output.log (o : Output) : List LogEntry :=
  o.notes ++ [.checkFinished o.report.verdict o.report.counts]

/-- A check of a registry, with a look at the repository at `root` if there is a view of it. -/
def ofRegistry (times : CheckTimes) (root : String) (view : Option Layout.View)
    (registry : EffectiveRegistry) : Output :=
  let rules := Rules.evaluate registry
  let layout := view.map fun v => Layout.probe v root (Layout.places registry rules)
  ⟨registry, report registry rules layout times, notes rules layout⟩

/-- A check of the registry under the configuration of a text and overrides. -/
def run (times : CheckTimes) (root text : String) (o : Overrides) (view : Option Layout.View) :
    Except Failure Output :=
  (EffectiveRegistry.load text o).map (ofRegistry times root view)

end Check

end SurfaceRegistry
