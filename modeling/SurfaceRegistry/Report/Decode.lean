import SurfaceRegistry.Json.Decode
import SurfaceRegistry.Report
import SurfaceRegistry.Timestamp.Rfc3339

/-!
# Reading reports

A report is read from JSON of the version that is supported. Members that are no fields are passed over.
What a report leaves out when it is written may be left out, or `null`.
-/

namespace SurfaceRegistry

open Json (Decoder Field Model)

/-- A timestamp. -/
def Timestamp.decode : Decoder Timestamp
  | _, .string (some s) =>
    match Timestamp.parse? s.toList with
    | some t => .ok t
    | none => .error (.badTimestamp s)
  | _, t => Json.wrongType t "an RFC3339-formatted `OffsetDateTime`"

/-- A severity. -/
def Severity.decode : Decoder Severity :=
  Json.decodeVariant (Severity.all.map fun s => (s.label, s))

/-- A verdict. -/
def Verdict.decode : Decoder Verdict :=
  Json.decodeVariant (Verdict.all.map fun v => (v.label, v))

/-- The parts of a finding. -/
def Finding.model : Model Finding where
  name := "Finding"
  fields :=
    [.of "severity" .required Severity.decode fun v f => { f with severity := v },
     .of "check_id" .required Json.decodeText fun v f => { f with checkId := v },
     .of "code" .required Json.decodeText fun v f => { f with code := v },
     .of "message" .required Json.decodeText fun v f => { f with message := v },
     .of "subject" .optional (Json.decodeOptional Json.decodeText) fun v f => { f with subject := v },
     .of "path" .optional (Json.decodeOptional Json.decodeText) fun v f =>
      { f with path := v.map RepoPath.mk },
     .of "help" .optional (Json.decodeOptional Json.decodeText) fun v f => { f with help := v },
     .of "data" .defaulted Json.decodeAny fun v f => { f with data := v }]
  blank := { severity := .info, checkId := "", code := "", message := "" }

/-- The parts of counts. -/
def VerdictCounts.model : Model VerdictCounts where
  name := "VerdictCounts"
  fields :=
    [.of "info" .required Json.decodeCount fun v c => { c with info := v },
     .of "warn" .required Json.decodeCount fun v c => { c with warn := v },
     .of "error" .required Json.decodeCount fun v c => { c with error := v }]
  blank := ⟨0, 0, 0⟩

/-- The parts of a program's name. -/
def ToolMeta.model : Model ToolMeta where
  name := "ToolMeta"
  fields :=
    [.of "name" .required Json.decodeText fun v t => { t with name := v },
     .of "version" .required Json.decodeText fun v t => { t with version := v }]
  blank := ⟨"", ""⟩

/-- The parts of the values of a report. -/
def ReportData.model : Model ReportData where
  name := "ReportData"
  fields :=
    [.of "api_surface_path" .required Json.decodeText fun v d => { d with apiSurfacePath := v },
     .of "nightly_tests_directory_path" .required Json.decodeText fun v d =>
      { d with nightlyTestsDirectoryPath := v },
     .of "nightly_tests_package" .required Json.decodeText fun v d =>
      { d with nightlyTestsPackage := v },
     .of "ignored_types" .required (Json.decodeList Json.decodeText) fun v d =>
      { d with ignoredTypes := v },
     .of "nightly_sources" .defaulted (Json.decodeOptional Json.decodeCount) fun v d =>
      { d with nightlySources := v },
     .of "layout_probed" .required Json.decodeBool fun v d => { d with layoutProbed := v }]
  blank := {}

namespace Report

/-- The parts of a report. -/
def model : Model Report where
  name := "SurfaceReport"
  fields :=
    [.of "schema" .required Json.decodeText fun v r => { r with schema := v },
     .of "tool" .required ToolMeta.model.decode fun v r => { r with tool := v },
     .of "started_at" .required Timestamp.decode fun v r => { r with startedAt := v },
     .of "finished_at" .required Timestamp.decode fun v r => { r with finishedAt := v },
     .of "verdict" .required Verdict.decode fun v r => { r with verdict := v },
     .of "counts" .required VerdictCounts.model.decode fun v r => { r with counts := v },
     .of "findings" .required (Json.decodeList Finding.model.decode) fun v r =>
      { r with findings := v },
     .of "data" .required ReportData.model.decode fun v r => { r with data := v }]
  blank :=
    { schema := ""
      tool := ToolMeta.model.blank
      startedAt := .epoch
      finishedAt := .epoch
      verdict := .pass
      counts := VerdictCounts.model.blank
      findings := []
      data := {} }

/-- Why a text is not a report. -/
inductive ReadError where
  /-- The text is not JSON or does not fit the model. -/
  | json (e : Json.DecodeError)
  /-- The report is of another version of the format. -/
  | unsupportedSchema (name : String)
  deriving DecidableEq

/-- The report that a text holds, of the version that is supported. -/
def parse (text : String) : Except ReadError Report :=
  match Json.decodeDocument model.decode text with
  | .error e => .error (.json e)
  | .ok r => if r.schema = schemaName then .ok r else .error (.unsupportedSchema r.schema)

/-- The error in words. -/
def ReadError.message : ReadError → String
  | json .malformed => "malformed JSON"
  | json (.mismatch m) => m.message
  | json (.badTimestamp text) => "not a timestamp: " ++ text
  | unsupportedSchema name =>
    "unsupported report schema: " ++ name ++ " (expected " ++ schemaName ++ ")"

end Report

end SurfaceRegistry
