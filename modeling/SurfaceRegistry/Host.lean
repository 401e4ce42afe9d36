import SurfaceRegistry.Text.Path
import SurfaceRegistry.Timestamp

/-!
# The host

What the program asks of the machine it runs on: the time, what stands at a path, the content of files,
and new files and directories.
-/

namespace SurfaceRegistry

/-- What stands at a path, when links are followed. -/
inductive NodeKind where
  /-- A regular file. -/
  | file
  /-- A directory. -/
  | directory
  /-- Something else. -/
  | other
  deriving DecidableEq

/-- Why the operating system refuses something. -/
inductive OsError where
  /-- There is nothing at the path. -/
  | notFound
  /-- There is something at the path. -/
  | alreadyExists
  /-- Something on the way is not a directory. -/
  | notADirectory
  /-- A directory is at the path. -/
  | isADirectory
  /-- A name or the path is too long. -/
  | nameTooLong
  /-- Too many links are on the way. -/
  | tooManyLinks
  /-- Another reason, by its number and in words. -/
  | other (code : Nat) (text : String)
  deriving DecidableEq

namespace OsError

/-- The number of an error. -/
def code : OsError → Nat
  | notFound => 2
  | alreadyExists => 17
  | notADirectory => 20
  | isADirectory => 21
  | nameTooLong => 36
  | tooManyLinks => 40
  | other code _ => code

/-- The words for an error, without its number. -/
def text : OsError → String
  | notFound => "No such file or directory"
  | alreadyExists => "File exists"
  | notADirectory => "Not a directory"
  | isADirectory => "Is a directory"
  | nameTooLong => "File name too long"
  | tooManyLinks => "Too many levels of symbolic links"
  | other _ text => text

/-- The error in words. -/
def message (e : OsError) : String :=
  e.text ++ " (os error " ++ toString e.code ++ ")"

end OsError

/-- Whether a name is that of a Kotlin source: the ending, with something before it. -/
def isKotlinSource (name : String) : Bool :=
  match name.toList.reverse with
  | 't' :: 'k' :: '.' :: _ :: _ => true
  | _ => false

/-- A machine to run on. -/
class MonadHost (m : Type → Type) where
  /-- The time. -/
  now : m Timestamp
  /-- The absolute path without links of what is at a path, if something is. -/
  canonical? : String → m (Option String)
  /-- What stands at a path, if something does. -/
  kind? : String → m (Option NodeKind)
  /-- How many Kotlin sources are below a directory. Links below it are not followed. -/
  kotlinSources : String → m Nat
  /-- The content of a file. -/
  read : String → m (Except OsError ByteArray)
  /-- A new directory in one that exists. -/
  makeDirectory : String → m (Except OsError Unit)
  /-- A file with a new content. -/
  write : String → ByteArray → m (Except OsError Unit)

end SurfaceRegistry
