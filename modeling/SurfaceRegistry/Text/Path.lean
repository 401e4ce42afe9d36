import SurfaceRegistry.Text.Split

/-!
# Paths as text

Paths are names between slashes. Empty names and names of a single point say nothing, except for a
leading point, which stands for the directory that the path starts from.
-/

namespace SurfaceRegistry.Text.Path

/-- One path after another: an absolute one replaces what is before it, else a slash stands between
them unless there is one already or nothing is before it. -/
def joinChars (base segment : List Char) : List Char :=
  match segment with
  | '/' :: _ => segment
  | _ =>
    match base.getLast? with
    | none => segment
    | some '/' => base ++ segment
    | some _ => base ++ '/' :: segment

/-- One path after another. -/
def join (base segment : String) : String :=
  String.ofList (joinChars base.toList segment.toList)

/-- Whether a name says nothing. -/
def isIdle (name : List Char) : Bool :=
  name.isEmpty || name == ['.']

/-- Names without those at the end that say nothing. -/
def dropIdleEnd (names : List (List Char)) : List (List Char) :=
  (names.reverse.dropWhile isIdle).reverse

/-- Where a path starts: at the root, with a leading point, or neither; and the rest of it. -/
def splitStart : List Char → List Char × List Char
  | '/' :: r => (['/'], r)
  | ['.'] => (['.'], [])
  | '.' :: '/' :: r => (['.'], '/' :: r)
  | s => ([], s)

/-- The path without its last name, unless it names nothing but a root or is empty. -/
def parentChars (path : List Char) : Option (List Char) :=
  let (start, body) := splitStart path
  match (dropIdleEnd (splitAt '/' body)).reverse with
  | _ :: before => some (start ++ joinWith '/' (dropIdleEnd before.reverse))
  | [] => if start = ['.'] then some [] else none

/-- The path of the directory that holds what a path names, unless that is a root or nothing. -/
def parent? (path : String) : Option String :=
  (parentChars path.toList).map String.ofList

end SurfaceRegistry.Text.Path
