import SurfaceRegistry.CommandLine.Run
import Std.Time.DateTime.Timestamp

/-!
# The program

The command line on the machine that the program runs on. Everything is decided in
`SurfaceRegistry.CommandLine`; here its questions are put to the operating system, and its outcome is
printed.
-/

namespace SurfaceRegistry.Main

/-- The number of an error, which may be given with a minus. -/
def errorNumber (code : UInt32) : Nat :=
  if code.toNat < 1 <<< 31 then code.toNat else UInt32.size - code.toNat

/-- The error of the operating system with a number, in words if it is not one of those known. -/
def osErrorOfCode (code : UInt32) (text : String) : OsError :=
  match errorNumber code with
  | 2 => .notFound
  | 17 => .alreadyExists
  | 20 => .notADirectory
  | 21 => .isADirectory
  | 36 => .nameTooLong
  | 40 => .tooManyLinks
  | n => .other n text

/-- What went wrong, as an error of the operating system. -/
def osErrorOf : IO.Error → OsError
  | .noFileOrDirectory _ _ _ => .notFound
  | .alreadyExists _ code text | .invalidArgument _ code text | .permissionDenied _ code text
  | .resourceExhausted _ code text | .inappropriateType _ code text | .noSuchThing _ code text
  | .interrupted _ code text | .otherError code text | .resourceBusy code text
  | .resourceVanished code text | .unsupportedOperation code text | .hardwareFault code text
  | .unsatisfiedConstraints code text | .illegalOperation code text | .protocolError code text
  | .timeExpired code text => osErrorOfCode code text
  | .unexpectedEof => .other 0 "unexpected end of file"
  | .userError text => .other 0 text

/-- The result of an action, or the error of the operating system. -/
def attempt {α : Type} (action : IO α) : IO (Except OsError α) := do
  match ← action.toBaseIO with
  | .ok a => pure (.ok a)
  | .error e => pure (.error (osErrorOf e))

/-- The time in universal time. -/
def currentTime : IO Timestamp := do
  let nanoseconds := (← Std.Time.Timestamp.now).toNanosecondsSinceUnixEpoch.val.toNat
  let fraction : Fin 1000000000 := ⟨nanoseconds % 1000000000, Nat.mod_lt _ (by decide)⟩
  pure ((Timestamp.ofEpoch? (nanoseconds / 1000000000) fraction).getD .epoch)

/-- What stands at a path. -/
def kindOf (path : String) : IO NodeKind := do
  match (← (← IO.FS.realPath path).metadata).type with
  | .file => pure .file
  | .dir => pure .directory
  | _ => pure .other

/-- How many Kotlin sources are among the entries of a directory and below them. What cannot be read is
passed over. -/
partial def countSources (entries : Array IO.FS.DirEntry) : IO Nat := do
  let mut count := 0
  for entry in entries do
    match ← entry.path.symlinkMetadata.toBaseIO with
    | .error _ => pure ()
    | .ok data =>
      match data.type with
      | .file => if isKotlinSource entry.fileName then count := count + 1
      | .dir =>
        match ← entry.path.readDir.toBaseIO with
        | .ok below => count := count + (← countSources below)
        | .error _ => pure ()
      | _ => pure ()
  pure count

/-- How many Kotlin sources are below a directory. -/
def sourcesBelow (path : String) : IO Nat := do
  countSources (← (← IO.FS.realPath path).readDir)

instance : MonadHost IO where
  now := currentTime
  canonical? path := do pure ((← attempt (IO.FS.realPath path)).toOption.map toString)
  kind? path := do pure (← attempt (kindOf path)).toOption
  kotlinSources path := do pure ((← attempt (sourcesBelow path)).toOption.getD 0)
  read path := attempt (IO.FS.readBinFile path)
  makeDirectory path := attempt (IO.FS.createDir path)
  write path content := attempt (IO.FS.writeBinFile path content)

/-- A log entry as a line. -/
def logLine (time : Timestamp) (e : LogEntry) : String :=
  "[" ++ time.text ++ " " ++ e.level.label ++ " " ++ CommandLine.programName ++ "] " ++ e.message

/-- An outcome on the two outputs. -/
def printOutcome (o : CommandLine.Outcome) : IO Unit := do
  let time ← currentTime
  o.log.forM fun e => IO.eprintln (logLine time e)
  IO.print o.stdout
  match o.complaint with
  | none => pure ()
  | some c => IO.eprint c.text

end SurfaceRegistry.Main

/-- The program with the words of its command line. -/
def main (words : List String) : IO UInt32 := do
  let outcome ← SurfaceRegistry.CommandLine.run words
  SurfaceRegistry.Main.printOutcome outcome
  pure (UInt32.ofNat outcome.exitCode)
