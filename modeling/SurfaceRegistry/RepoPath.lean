import SurfaceRegistry.Text.Path

/-!
# Repository paths

A path relative to the root of a repository, with forward slashes and no leading `./`. An absolute
path is kept as it is, so that a check can report it. A path escapes the root when its `..` segments,
taken from the left, at some point outnumber the ordinary segments before them.
-/

namespace SurfaceRegistry

/-- A path in a repository. -/
structure RepoPath where
  /-- The path as a text. -/
  text : String
  deriving DecidableEq, Inhabited

namespace RepoPath

/-- A path without the `./` in front, however often it is repeated. -/
def stripDotSlash : List Char → List Char
  | '.' :: '/' :: r => stripDotSlash r
  | s => s

/-- The normal form of a path: backslashes are slashes, and there is no `./` in front. -/
def normalChars (s : List Char) : List Char :=
  stripDotSlash (Text.replaceChar '\\' '/' s)

/-- The repository path that a text names. -/
def ofText (s : String) : RepoPath :=
  ⟨String.ofList (normalChars s.toList)⟩

/-- Whether the path has no characters. -/
def isEmpty (p : RepoPath) : Bool :=
  p.text.toList.isEmpty

/-- The path of something below `p`. -/
def join (p : RepoPath) (segment : String) : RepoPath :=
  ofText (Text.Path.join p.text segment)

/-- Whether the characters start at a root or after a drive letter. A drive letter takes one byte. -/
def isAbsoluteChars : List Char → Bool
  | '/' :: _ => true
  | c :: ':' :: _ => c.toNat < 128
  | _ => false

/-- Whether the path starts at a root or after a drive letter. -/
def isAbsolute (p : RepoPath) : Bool :=
  isAbsoluteChars p.text.toList

/-- Whether a walk along the segments that starts `depth` levels below the root leaves it. -/
def climbsFrom : Nat → List (List Char) → Bool
  | _, [] => false
  | depth, s :: r =>
    if s = [] ∨ s = ['.'] then climbsFrom depth r
    else if s = ['.', '.'] then
      match depth with
      | 0 => true
      | d + 1 => climbsFrom d r
    else climbsFrom (depth + 1) r

/-- Whether the path climbs above the root at some point. -/
def escapesRoot (p : RepoPath) : Bool :=
  climbsFrom 0 (Text.splitAt '/' p.text.toList)

end RepoPath

end SurfaceRegistry
