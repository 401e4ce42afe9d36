import SurfaceRegistry.Failure

/-!
# Files of a host

Texts read from files and written to files, with the directories that a new file needs.
-/

namespace SurfaceRegistry.Files

variable {m : Type → Type} [Monad m] [MonadHost m]

/-- The text in a file. -/
def readText (path : String) : m (Except FailureCause String) := do
  match ← MonadHost.read path with
  | .error e => pure (.error (.os e))
  | .ok content =>
    match String.fromUTF8? content with
    | some text => pure (.ok text)
    | none => pure (.error .notUtf8)

/-- The answer to an attempt to make a directory: one that is there already is as good as a new one. -/
def acceptDirectory (path : String) : Except OsError Unit → m (Except OsError Unit)
  | .ok () => pure (.ok ())
  | .error e => do
    if (← MonadHost.kind? path) = some .directory then pure (.ok ()) else pure (.error e)

/-- A directory with all directories that it needs, at most `fuel` of them. -/
def makeDirectoriesUpTo : Nat → String → m (Except OsError Unit)
  | 0, _ => pure (.error .notFound)
  | fuel + 1, path => do
    if path.isEmpty then pure (.ok ())
    else
      match ← MonadHost.makeDirectory path with
      | .error .notFound =>
        match Text.Path.parent? path with
        | none => pure (.error .notFound)
        | some parent =>
          match ← makeDirectoriesUpTo fuel parent with
          | .error e => pure (.error e)
          | .ok () => do acceptDirectory path (← MonadHost.makeDirectory path)
      | answer => acceptDirectory path answer

/-- A directory with all directories that it needs. -/
def makeDirectories (path : String) : m (Except OsError Unit) :=
  makeDirectoriesUpTo (path.length + 1) path

/-- The directories for a file. -/
def makeParents (path : String) : m (Except Failure Unit) :=
  match Text.Path.parent? path with
  | none => pure (.ok ())
  | some parent =>
    if parent.isEmpty then pure (.ok ())
    else do
      let answer ← makeDirectories parent
      pure (failWithin [.createDirectory parent] .os answer)

/-- A text written to a file. -/
def writeText (path text : String) : m (Except Failure Unit) := do
  match ← makeParents path with
  | .error e => pure (.error e)
  | .ok () =>
    let answer ← MonadHost.write path text.toUTF8
    pure (failWithin [.writeText path] .os answer)

end SurfaceRegistry.Files
