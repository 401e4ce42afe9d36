import SurfaceRegistry.Json.Printer
import SurfaceRegistry.Report
import SurfaceRegistry.Timestamp.Rfc3339

/-!
# Reports as JSON

A report is an object with its fields in the order of their declaration. What is absent is left out:
the subject, path, help and data of a finding, and the number of sources.
-/

namespace SurfaceRegistry

/-- A member that is left out when there is no value. -/
def optionalMember {α : Type} (key : String) (toJson : α → Json) (value : Option α) :
    List (String × Json) :=
  match value with
  | none => []
  | some v => [(key, toJson v)]

/-- Particulars as a member, left out if there are none. -/
def dataMember : Json → List (String × Json)
  | .null => []
  | v => [("data", v)]

/-- A finding as an object. -/
def Finding.toJson (f : Finding) : Json :=
  .object <|
    [("severity", .string f.severity.label), ("check_id", .string f.checkId),
     ("code", .string f.code), ("message", .string f.message)] ++
    optionalMember "subject" .string f.subject ++
    optionalMember "path" (fun p => .string p.text) f.path ++
    optionalMember "help" .string f.help ++
    dataMember f.data

/-- A count as a number. -/
def countJson (n : UInt32) : Json :=
  .integer n.toNat

/-- Counts as an object. -/
def VerdictCounts.toJson (c : VerdictCounts) : Json :=
  .object [("info", countJson c.info), ("warn", countJson c.warn), ("error", countJson c.error)]

/-- A program as an object. -/
def ToolMeta.toJson (t : ToolMeta) : Json :=
  .object [("name", .string t.name), ("version", .string t.version)]

/-- The values of a report as an object. -/
def ReportData.toJson (d : ReportData) : Json :=
  .object <|
    [("api_surface_path", .string d.apiSurfacePath),
     ("nightly_tests_directory_path", .string d.nightlyTestsDirectoryPath),
     ("nightly_tests_package", .string d.nightlyTestsPackage),
     ("ignored_types", .array (d.ignoredTypes.map .string))] ++
    optionalMember "nightly_sources" countJson d.nightlySources ++
    [("layout_probed", .bool d.layoutProbed)]

namespace Report

/-- A report as an object. -/
def toJson (r : Report) : Json :=
  .object
    [("schema", .string r.schema), ("tool", r.tool.toJson),
     ("started_at", .string r.startedAt.text), ("finished_at", .string r.finishedAt.text),
     ("verdict", .string r.verdict.label), ("counts", r.counts.toJson),
     ("findings", .array (r.findings.map Finding.toJson)), ("data", r.data.toJson)]

/-- The text of a report, with the end of a line at its end. -/
def serialize (r : Report) : String :=
  r.toJson.pretty ++ "\n"

end Report

end SurfaceRegistry
