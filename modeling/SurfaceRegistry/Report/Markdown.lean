import SurfaceRegistry.Report

/-!
# Reports as Markdown

A heading, the verdict with the counts, and one list item for each finding, with an item below it for
the help that the finding offers.
-/

namespace SurfaceRegistry

/-- The name of a verdict in a heading. -/
def Verdict.heading : Verdict → String
  | pass => "PASS"
  | warn => "WARN"
  | fail => "FAIL"

/-- The name of a severity in a heading. -/
def Severity.heading : Severity → String
  | info => "INFO"
  | warning => "WARN"
  | error => "ERROR"

/-- The help of a finding as a list item, if there is one. -/
def Finding.helpItem (f : Finding) : String :=
  match f.help with
  | none => ""
  | some help => "  - help: " ++ help ++ "\n"

/-- A finding as a list item. -/
def Finding.markdownItem (f : Finding) : String :=
  "- [" ++ f.severity.heading ++ "] `" ++ f.checkId ++ "` / `" ++ f.code ++ "`: " ++ f.message ++
    "\n" ++ f.helpItem

namespace Report

/-- The number of sources as a list item, if they were counted. -/
def sourcesItem (r : Report) : String :=
  match r.data.nightlySources with
  | none => ""
  | some n => "- Nightly sources: " ++ toString n.toNat ++ "\n"

/-- The verdict and the counts. -/
def markdownHead (r : Report) : String :=
  "# Surfacereg report\n\n- Verdict: **" ++ r.verdict.heading ++ "**\n- Findings: " ++
    toString r.counts.error.toNat ++ " error / " ++ toString r.counts.warn.toNat ++ " warn / " ++
    toString r.counts.info.toNat ++ " info\n" ++ r.sourcesItem ++ "\n"

/-- The findings as a list under a heading. -/
def markdownFindings (r : Report) : String :=
  if r.findings.isEmpty then "No findings.\n"
  else "## Findings\n\n" ++ String.join (r.findings.map Finding.markdownItem)

/-- The Markdown text of a report. -/
def markdown (r : Report) : String :=
  r.markdownHead ++ r.markdownFindings

end Report

end SurfaceRegistry
