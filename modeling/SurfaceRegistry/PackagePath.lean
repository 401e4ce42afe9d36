import SurfaceRegistry.Identifier
import SurfaceRegistry.Text.Split

/-!
# Package paths

A package spelled as a directory: identifiers separated by slashes, at least one of them.
-/

namespace SurfaceRegistry

/-- A package, from the outermost segment inwards. -/
structure PackagePath where
  /-- The identifiers of the package. -/
  segments : List Identifier
  /-- There is at least one. -/
  segments_ne_nil : segments ≠ []
  deriving DecidableEq

/-- Why a text is not a package path. -/
inductive PackagePathError where
  /-- There is no text. -/
  | empty
  /-- A segment has no characters. -/
  | emptySegment (package : String) (position : Nat)
  /-- A segment is not an identifier. -/
  | invalidSegment (package segment : String)
  deriving DecidableEq

namespace PackagePathError

/-- The fault of one segment, as a fault of the package. -/
def ofSegment (package : String) : SegmentFault → PackagePathError
  | .empty position => .emptySegment package position
  | .invalid segment => .invalidSegment package segment

/-- The error in words. -/
def message : PackagePathError → String
  | .empty => "package is empty"
  | .emptySegment package position =>
    "package '" ++ package ++ "' has an empty segment at position " ++ toString position
  | .invalidSegment package segment =>
    "package '" ++ package ++ "' has an invalid segment '" ++ segment ++ "'"

end PackagePathError

namespace PackagePath

/-- The package that the pieces between slashes spell. -/
def readPieces (package : List Char) : Except SegmentFault PackagePath := do
  let (p, ps) := Text.pieces '/' package
  let first ← Identifier.read 0 p
  let more ← Identifier.readAll 1 ps
  pure ⟨first :: more, List.cons_ne_nil first more⟩

/-- The package that a text spells, or the first fault from the left. -/
def parse (package : String) : Except PackagePathError PackagePath :=
  if package.toList.isEmpty then .error .empty
  else (readPieces package.toList).mapError (PackagePathError.ofSegment package)

/-- The segments with a separator between them. -/
def textWith (sep : Char) (p : PackagePath) : String :=
  String.ofList (Text.joinWith sep (p.segments.map Identifier.chars))

/-- The package as a text with slashes. -/
def text (p : PackagePath) : String :=
  p.textWith '/'

/-- The package with points, as in type names. -/
def dotted (p : PackagePath) : String :=
  p.textWith '.'

end PackagePath

end SurfaceRegistry
