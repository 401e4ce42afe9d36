import SurfaceRegistry.Config.Decode
import SurfaceRegistry.EffectiveRegistry
import SurfaceRegistry.Host
import SurfaceRegistry.Report.Decode
import SurfaceRegistry.Show

/-!
# Failures

Why the program cannot do what it is asked to: a cause, and what was being done when it arose, from the
outermost step to the innermost. A sequence of steps has a result only if each of them has one.
-/

namespace SurfaceRegistry

/-- What was being done when something failed. -/
inductive FailureContext where
  /-- The configuration was being read into the model. -/
  | parseConfig
  /-- The registry in force was being found. -/
  | resolveConfig
  /-- A configuration file was being read. -/
  | readConfig (path : String)
  /-- A report file was being read. -/
  | readReport (path : String)
  /-- A report was being read into the model. -/
  | parseReport
  /-- The report of a check was being written. -/
  | writeReport
  /-- The Markdown of a check was being written. -/
  | writeMarkdown
  /-- The Markdown of a stored report was being written. -/
  | writeMarkdownOutput
  /-- A directory was being made. -/
  | createDirectory (path : String)
  /-- A file was being written. -/
  | writeText (path : String)
  deriving DecidableEq

namespace FailureContext

/-- A step in words. -/
def message : FailureContext → String
  | parseConfig => "parse config"
  | resolveConfig => "resolve config"
  | readConfig path => "read config: " ++ path
  | readReport path => "read report: " ++ path
  | parseReport => "parse report json"
  | writeReport => "write report json"
  | writeMarkdown => "write markdown"
  | writeMarkdownOutput => "write markdown output"
  | createDirectory path => "create directory: " ++ path
  | writeText path => "write text: " ++ path

end FailureContext

/-- Why something failed. -/
inductive FailureCause where
  /-- A text is not a configuration. -/
  | config (e : Config.ReadError)
  /-- No registry follows from a configuration. -/
  | resolve (e : ResolveError)
  /-- A text is not a report. -/
  | report (e : Report.ReadError)
  /-- A text names no form to show a registry in. -/
  | format (e : UnknownFormat)
  /-- The root of the repository is not a directory. -/
  | rootMissing (root : String)
  /-- The operating system refused something. -/
  | os (e : OsError)
  /-- The content of a file is not text. -/
  | notUtf8
  deriving DecidableEq

namespace FailureCause

/-- A cause in words. -/
def message : FailureCause → String
  | config e => e.message
  | resolve e => e.message
  | report e => e.message
  | format e => e.message
  | rootMissing root => "repo root does not exist: " ++ root
  | os e => e.message
  | notUtf8 => "stream did not contain valid UTF-8"

end FailureCause

/-- A failure. -/
structure Failure where
  /-- What was being done, from the outermost step inwards. -/
  contexts : List FailureContext
  /-- Why it failed. -/
  cause : FailureCause
  deriving DecidableEq

namespace Failure

/-- A failure inside one more step. -/
def within (context : FailureContext) (f : Failure) : Failure :=
  { f with contexts := context :: f.contexts }

/-- The steps and the cause in words, from the outermost step inwards. -/
def chain (f : Failure) : List String :=
  f.contexts.map FailureContext.message ++ [f.cause.message]

/-- The failure in words. -/
def message (f : Failure) : String :=
  ": ".intercalate f.chain

end Failure

/-- A result of a step, or a failure inside it. -/
def failWithin {ε α : Type} (contexts : List FailureContext) (cause : ε → FailureCause) :
    Except ε α → Except Failure α
  | .ok a => .ok a
  | .error e => .error ⟨contexts, cause e⟩

/-- The report that a text holds. The wrong version is no failure of reading the text. -/
def Report.load (text : String) : Except Failure Report :=
  match Report.parse text with
  | .ok r => .ok r
  | .error (.json e) => .error ⟨[.parseReport], .report (.json e)⟩
  | .error (.unsupportedSchema name) => .error ⟨[], .report (.unsupportedSchema name)⟩

/-! ### Results of steps -/

section

variable {ε α β : Type}

/-- A step after another one has a result only if the first one has. -/
theorem exists_of_bind_eq_ok {x : Except ε α} {f : α → Except ε β} {b : β}
    (h : (x >>= f) = .ok b) : ∃ a, x = .ok a ∧ f a = .ok b := by
  cases x with
  | error e => cases h
  | ok a => exact ⟨a, rfl, h⟩

/-- A changed result is a change of a result. -/
theorem exists_of_map_eq_ok {x : Except ε α} {f : α → β} {b : β} (h : x.map f = .ok b) :
    ∃ a, x = .ok a ∧ f a = b := by
  cases x with
  | error e => cases h
  | ok a => exact ⟨a, rfl, Except.ok.inj h⟩

end

end SurfaceRegistry
