import SurfaceRegistry.Report

/-!
# Reports as workflow annotations

Each finding becomes a command of one line, `::level file=path::message`, for a build service that shows
it beside the file. Percent signs and line breaks of the message are percent-encoded, the percent sign
first, so that the message can be read back.
-/

namespace SurfaceRegistry

/-- The level of an annotation. -/
def Severity.annotationLevel : Severity → String
  | info => "notice"
  | warning => "warning"
  | error => "error"

namespace Annotation

/-- A text in which every `c` is replaced. -/
def replaceAll (c : Char) (replacement : List Char) (s : List Char) : List Char :=
  s.flatMap fun d => if d = c then replacement else [d]

/-- A message with percent signs and line breaks encoded. -/
def encodeMessage (s : List Char) : List Char :=
  replaceAll '\n' ['%', '0', 'A'] (replaceAll '\r' ['%', '0', 'D'] (replaceAll '%' ['%', '2', '5'] s))

/-- The message of the annotation for a finding. -/
def messageOf (f : Finding) : String :=
  "[" ++ f.checkId ++ ":" ++ f.code ++ "] " ++ f.message

/-- The file of the annotation for a finding, with the word before it. -/
def fileOf (f : Finding) : String :=
  match f.path with
  | none => ""
  | some path => " file=" ++ path.text

/-- The annotation for a finding. -/
def ofFinding (f : Finding) : String :=
  "::" ++ f.severity.annotationLevel ++ fileOf f ++ "::" ++
    String.ofList (encodeMessage (messageOf f).toList)

end Annotation

/-- The annotations for the findings of a report, for the first `max` of them. -/
def Report.annotations (r : Report) (max : Nat) : List String :=
  (r.findings.take max).map Annotation.ofFinding

end SurfaceRegistry
