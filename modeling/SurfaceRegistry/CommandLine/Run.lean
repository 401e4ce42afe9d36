import SurfaceRegistry.Check
import SurfaceRegistry.CommandLine.Help
import SurfaceRegistry.Config.Schema
import SurfaceRegistry.Files
import SurfaceRegistry.Lookup
import SurfaceRegistry.Report.Annotations
import SurfaceRegistry.Report.Encode
import SurfaceRegistry.Report.Markdown

/-!
# Running a command line

Each command as a sequence of steps on a host. What it prints, what it tells in the log and its exit
code are its result; the host only serves its files and the time. A check that cannot be carried out
still leaves a report that says so.
-/

namespace SurfaceRegistry.CommandLine

/-- What is said on the error output beside the log. -/
inductive Complaint where
  /-- The words are not a command line. -/
  | usage (e : UsageError)
  /-- A check could not be carried out. -/
  | checkFailed (f : Failure)
  /-- A text is not a type name. -/
  | invalidTypeName (e : TypeNameError)
  /-- Another command failed. -/
  | failed (f : Failure)

/-- The result of a run. -/
structure Outcome where
  /-- The exit code. -/
  exitCode : Nat
  /-- What is printed. -/
  stdout : String := ""
  /-- The log. -/
  log : List LogEntry := []
  /-- What is said on the error output after the log. -/
  complaint : Option Complaint := none

namespace Complaint

/-- A failure with its causes below it, numbered if there are several. -/
def failureReport (f : Failure) : String :=
  match f.chain with
  | [] => ""
  | [only] => "Error: " ++ only ++ "\n"
  | [top, cause] => "Error: " ++ top ++ "\n\nCaused by:\n    " ++ cause ++ "\n"
  | top :: causes =>
    "Error: " ++ top ++ "\n\nCaused by:\n" ++
      String.join (causes.zipIdx.map fun (c, i) => "    " ++ toString i ++ ": " ++ c ++ "\n")

/-- What is said on the error output. -/
def text : Complaint → String
  | usage e => "error: " ++ e.message ++ "\n\nFor more information, try '--help'.\n"
  | checkFailed f => programName ++ " error: " ++ f.message ++ "\n"
  | invalidTypeName e => programName ++ " error: " ++ e.message ++ "\n"
  | failed f => failureReport f

end Complaint

/-! ### Steps -/

variable {m : Type → Type} [Monad m] [MonadHost m]

/-- Steps on a host that may fail and that tell things in the log, also when they fail. -/
abbrev Steps (m : Type → Type) := ExceptT Failure (StateT (List LogEntry) m)

/-- More entries in the log. -/
def tell (entries : List LogEntry) : Steps m Unit :=
  modify (· ++ entries)

/-- A step of the host. -/
def onHost {α : Type} (x : m α) : Steps m α :=
  ExceptT.lift (StateT.lift x)

/-- A result as a step. -/
def ofResult {α : Type} (r : Except Failure α) : Steps m α :=
  match r with
  | .ok a => pure a
  | .error f => throw f

/-- A step of the host that may fail. -/
def orFail {α : Type} (x : m (Except Failure α)) : Steps m α := do
  ofResult (← onHost x)

/-- A step inside one more context. -/
def within {α : Type} (context : FailureContext) (x : Steps m α) : Steps m α :=
  tryCatch x fun f => throw (f.within context)

/-! ### Commands -/

/-- The root of the repository: an absolute path without links if it is there, else as it is given. -/
def rootOf (i : Invocation) : Steps m String := do
  pure ((← onHost (MonadHost.canonical? i.repoRoot)).getD i.repoRoot)

/-- The text of the configuration file. It may be missing. -/
def readConfig (root : String) (i : Invocation) : Steps m String := do
  let path := Text.Path.join root i.config
  match ← onHost (Files.readText path) with
  | .ok text => do
    tell [.configLoaded path]
    pure text
  | .error (.os .notFound) => do
    tell [.configMissing path]
    pure ""
  | .error e => throw ⟨[.readConfig path], e⟩

/-- The registry in force under the configuration of a text. -/
def registryOf (text : String) (o : Overrides) : Steps m EffectiveRegistry := do
  tell (EffectiveRegistry.loadNotes text)
  ofResult (EffectiveRegistry.load text o)

/-- The registry in force. -/
def resolveRegistry (i : Invocation) : Steps m EffectiveRegistry := do
  let root ← rootOf i
  let text ← readConfig root i
  registryOf text i.overrides

/-- What a successful command comes to. -/
abbrev Success := Nat × String

/-- The registry in force, printed. -/
def runShow (i : Invocation) (format : String) : Steps m Success := do
  let format ← ofResult (failWithin [] .format (ShowFormat.parse format))
  let r ← resolveRegistry i
  pure (0, r.shownAs format)

/-- The stored report in a file. -/
def readReport (path : String) : Steps m Report := do
  match ← onHost (Files.readText path) with
  | .ok text => ofResult (Report.load text)
  | .error e => throw ⟨[.readReport path], e⟩

/-- A stored report as Markdown, printed or in a file. -/
def runMd (report : String) (output : Option String) : Steps m Success := do
  let r ← readReport report
  match output with
  | none => pure (0, r.markdown)
  | some path => do
    within .writeMarkdownOutput (orFail (Files.writeText path r.markdown))
    pure (0, "")

/-- The annotations of a stored report, printed one on a line. -/
def runAnnotations (report : String) (max : Nat) : Steps m Success := do
  let r ← readReport report
  pure (0, String.join ((r.annotations max).map (· ++ "\n")))

/-- The schema of configurations, printed. -/
def schemaText : String :=
  Config.jsonSchema.pretty ++ "\n"

/-- What a host shows of the places in a repository that a registry names. -/
def lookAt (root : String) (r : EffectiveRegistry) : Steps m Layout.View :=
  onHost (Layout.survey root (Layout.places r (Rules.evaluate r)))

/-- A check of the registry in force in a repository. -/
def checkIn (root : String) (i : Invocation) (probe : Bool) : Steps m Check.Output := do
  let text ← readConfig root i
  let started ← onHost MonadHost.now
  let registry ← registryOf text i.overrides
  let view ← if probe then some <$> lookAt root registry else pure none
  let finished ← onHost MonadHost.now
  let output := Check.ofRegistry ⟨started, finished⟩ root view registry
  tell output.log
  pure output

/-- A check with its report written to a file, and its Markdown too if there is a file for it. -/
def checkAndWrite (i : Invocation) (reportOut : String) (probe : Bool)
    (markdownOut : Option String) : Steps m Verdict := do
  let root ← rootOf i
  if (← onHost (MonadHost.kind? root)) ≠ some .directory then throw ⟨[], .rootMissing root⟩
  let output ← checkIn root i probe
  within .writeReport (orFail (Files.writeText reportOut output.report.serialize))
  match markdownOut with
  | none => pure ()
  | some path => within .writeMarkdown (orFail (Files.writeText path output.report.markdown))
  pure output.report.verdict

/-- The report that a check failed, written to a file if that is possible. -/
def writeErrorReport (reportOut : String) (f : Failure) : m (List LogEntry) := do
  let now ← MonadHost.now
  match ← Files.writeText reportOut (Report.runtimeError now f.message).serialize with
  | .ok () => pure []
  | .error e => pure [.errorReportNotWritten e.message]

/-- A check, with its report. -/
def runCheck (i : Invocation) (reportOut : String) (probe : Bool) (markdownOut : Option String) :
    m Outcome := do
  match ← (checkAndWrite i reportOut probe markdownOut).run.run [] with
  | (.ok verdict, log) => pure { exitCode := verdict.exitCode, log }
  | (.error f, log) => do
    let more ← writeErrorReport reportOut f
    pure { exitCode := 1, log := log ++ more, complaint := some (.checkFailed f) }

/-- The answer to whether a type name is ignored. -/
def lookupOutcome (log : List LogEntry) : Lookup → Outcome
  | .ignored t => { exitCode := 0, stdout := "ignored: " ++ t.text ++ "\n", log }
  | .notIgnored t => { exitCode := 3, stdout := "not ignored: " ++ t.text ++ "\n", log }
  | .invalid e => { exitCode := 1, log, complaint := some (.invalidTypeName e) }

/-- Whether a type name is ignored, printed. -/
def runIgnored (i : Invocation) (name : String) : m Outcome := do
  match ← (resolveRegistry i).run.run [] with
  | (.ok r, log) => pure (lookupOutcome log (Lookup.find r name))
  | (.error f, log) => pure { exitCode := 1, log, complaint := some (.failed f) }

/-- The outcome of steps that print something. -/
def outcomeOf (x : Steps m Success) : m Outcome := do
  match ← x.run.run [] with
  | (.ok (exitCode, stdout), log) => pure { exitCode, stdout, log }
  | (.error f, log) => pure { exitCode := 1, log, complaint := some (.failed f) }

/-- A command carried out, with the whole log. -/
def runCommand (i : Invocation) : m Outcome :=
  match i.command with
  | .showRegistry format => outcomeOf (runShow i format)
  | .check reportOut probe _ markdownOut => runCheck i reportOut probe markdownOut
  | .ignored name => runIgnored i name
  | .md report output => outcomeOf (runMd report output)
  | .annotations report max => outcomeOf (runAnnotations report max)
  | .schema => pure { exitCode := 0, stdout := schemaText }

/-- The outcome of a command line that asks for no command. -/
def outcomeOfStop : Stop → Outcome
  | .usage e => { exitCode := 2, complaint := some (.usage e) }
  | .help c => { exitCode := 0, stdout := helpText c }
  | .version => { exitCode := 0, stdout := versionText }

/-- An outcome with the log entries up to a level. -/
def Outcome.keepLog (o : Outcome) (threshold : LogLevel) : Outcome :=
  { o with log := o.log.filter fun e => threshold.keptUpTo e.level }

/-- A run of the program with the words of a command line. -/
def run (words : List String) : m Outcome := do
  match parse words with
  | .error s => pure (outcomeOfStop s)
  | .ok i => do
    let outcome ← runCommand i
    pure (outcome.keepLog i.logLevel)

end SurfaceRegistry.CommandLine
