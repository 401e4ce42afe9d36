/-!
# The options of the command line

What the program can be asked to do, and the options and operands that each command takes.
-/

namespace SurfaceRegistry.CommandLine

/-- An option. -/
structure OptionSpec where
  /-- Its name after two hyphens. -/
  long : String
  /-- Its letter after one hyphen, if it has one. -/
  short : Option Char := none
  /-- The word for its value, if it takes one. -/
  value : Option String := none
  /-- The value that it has when it is left out. -/
  default : Option String := none
  /-- Whether a text may be its value. -/
  accepts : String → Bool := fun _ => true
  /-- What it is for. -/
  help : String

/-- Whether an option takes a value. -/
def OptionSpec.takesValue (o : OptionSpec) : Bool :=
  o.value.isSome

/-- A command. -/
structure CommandSpec where
  /-- Its name. -/
  name : String
  /-- What it does. -/
  about : String
  /-- Its own options. -/
  options : List OptionSpec := []
  /-- The word for its operand and what that is, if it takes one. -/
  operand : Option (String × String) := none

/-! ### Natural numbers as values -/

/-- How many different numbers of annotations can be asked for. -/
def maxLimit : Nat := UInt64.size

/-- A number of annotations: decimal digits, with a plus at will. -/
def parseMax? (s : String) : Option Nat :=
  let digits := match s.toList with
    | '+' :: r => r
    | r => r
  let n := digits.foldl (fun v c => 10 * v + (c.toNat - 48)) 0
  if digits.isEmpty || !digits.all Char.isDigit || maxLimit ≤ n then none else some n

/-! ### Options of all commands -/

/-- The root of the repository. -/
def repoRoot : OptionSpec where
  long := "repo-root"
  value := some "REPO_ROOT"
  default := some "."
  help := "Repository root the registry paths are relative to"

/-- The configuration file. -/
def config : OptionSpec where
  long := "config"
  value := some "CONFIG"
  default := some "surfacereg.toml"
  help := "Path to the surfacereg config TOML (relative to the repo root)"

/-- Another listing of the API surface. -/
def apiSurfacePath : OptionSpec where
  long := "api-surface-path"
  value := some "API_SURFACE_PATH"
  help := "Override the API surface path"

/-- Another source root of the nightly tests. -/
def nightlyTestsDir : OptionSpec where
  long := "nightly-tests-dir"
  value := some "NIGHTLY_TESTS_DIR"
  help := "Override the nightly tests source directory"

/-- Another package of the nightly tests. -/
def nightlyTestsPackage : OptionSpec where
  long := "nightly-tests-package"
  value := some "NIGHTLY_TESTS_PACKAGE"
  help := "Override the nightly tests package (slash-delimited)"

/-- More log entries. -/
def verbose : OptionSpec where
  long := "verbose"
  short := some 'v'
  help := "Debug logging"

/-- Fewer log entries. -/
def quiet : OptionSpec where
  long := "quiet"
  short := some 'q'
  help := "Only log errors"

/-- The options that stand before or after the name of a command. -/
def globalOptions : List OptionSpec :=
  [repoRoot, config, apiSurfacePath, nightlyTestsDir, nightlyTestsPackage, verbose, quiet]

/-! ### Options of single commands -/

/-- The form in which the registry is shown. -/
def format : OptionSpec where
  long := "format"
  value := some "FORMAT"
  default := some "text"
  help := "Output format (text or json)"

/-- The file for the report of a check. -/
def reportOut : OptionSpec where
  long := "report-out"
  value := some "REPORT_OUT"
  default := some "artifacts/surfacereg/report.json"
  help := "Where to write the JSON report"

/-- No look at the repository. -/
def noProbe : OptionSpec where
  long := "no-probe"
  help := "Skip the filesystem probes; only validate the values"

/-- From which severity on a check fails. -/
def failOn : OptionSpec where
  long := "fail-on"
  value := some "FAIL_ON"
  help := "Override when to fail (error|warning)"

/-- A Markdown report too. -/
def writeMarkdown : OptionSpec where
  long := "write-markdown"
  help := "Write a Markdown report alongside the JSON"

/-- The file for the Markdown report of a check. -/
def markdownOut : OptionSpec where
  long := "markdown-out"
  value := some "MARKDOWN_OUT"
  default := some "artifacts/surfacereg/comment.md"
  help := "Where to write the Markdown report (if enabled)"

/-- The file of a stored report. -/
def report : OptionSpec where
  long := "report"
  value := some "REPORT"
  default := some "artifacts/surfacereg/report.json"
  help := "Path to the JSON report file"

/-- The file for the Markdown of a stored report. -/
def output : OptionSpec where
  long := "output"
  short := some 'o'
  value := some "OUTPUT"
  help := "Where to write the Markdown output (if not specified, prints to stdout)"

/-- How many annotations there may be. -/
def max : OptionSpec where
  long := "max"
  value := some "MAX"
  default := some "10"
  accepts s := (parseMax? s).isSome
  help := "Maximum number of annotations to emit"

/-! ### Commands -/

/-- The name of the program. -/
def programName : String := "surfacereg"

/-- What the program is for. -/
def programAbout : String :=
  "API surface and nightly test registry for the Android SDK repo"

/-- The commands. -/
def commands : List CommandSpec :=
  [{ name := "show", about := "Print the effective registry", options := [format] },
   { name := "check"
     about := "Validate the registry values and probe the repo layout"
     options := [reportOut, noProbe, failOn, writeMarkdown, markdownOut] },
   { name := "ignored"
     about := "Exit 0 if TYPE is ignored, 3 if not, 1 if it is not a valid type name"
     operand := some ("TYPE_NAME", "Fully-qualified type name, e.g. `com.example.Outer$Nested`") },
   { name := "md"
     about := "Render markdown from an existing JSON report"
     options := [report, output] },
   { name := "annotations"
     about := "Render GitHub Actions annotations from an existing JSON report"
     options := [report, max] },
   { name := "schema", about := "Print the JSON Schema for surfacereg.toml" }]

end SurfaceRegistry.CommandLine
