import SurfaceRegistry.Identifier
import SurfaceRegistry.Text.Encoding
import SurfaceRegistry.Text.Split

/-!
# Type names

A type name is `pkg.seg.Outer` or `pkg.seg.Outer$Nested$Deeper`: a package of at least one identifier,
an outer type, and the types nested in it. The last point of the text ends the package; a dollar sign
separates nested types and is part of no identifier.
-/

namespace SurfaceRegistry

/-- The fully-qualified name of a type. -/
@[ext]
structure TypeName where
  /-- The segments of the package. -/
  packageSegments : List Identifier
  /-- The top-level type. -/
  outer : Identifier
  /-- The types nested in it, outermost first. -/
  nested : List Identifier
  /-- There is a package. -/
  packageSegments_ne_nil : packageSegments ≠ []

instance : DecidableEq TypeName :=
  fun _ _ => decidable_of_iff _ TypeName.ext_iff.symm

/-- Why a text is not a type name. -/
inductive TypeNameError where
  /-- There is no text. -/
  | empty
  /-- The text has no point. -/
  | missingPackage (name : String)
  /-- A segment has no characters. -/
  | emptySegment (name : String) (position : Nat)
  /-- A segment is not an identifier. -/
  | invalidSegment (name segment : String)
  deriving DecidableEq

namespace TypeNameError

/-- The fault of one segment, as a fault of the name. -/
def ofSegment (name : String) : SegmentFault → TypeNameError
  | .empty position => .emptySegment name position
  | .invalid segment => .invalidSegment name segment

/-- The error in words. -/
def message : TypeNameError → String
  | .empty => "type name is empty"
  | .missingPackage name => "type name '" ++ name ++ "' has no package"
  | .emptySegment name position =>
    "type name '" ++ name ++ "' has an empty segment at position " ++ toString position
  | .invalidSegment name segment =>
    "type name '" ++ name ++ "' has an invalid segment '" ++ segment ++ "'"

end TypeNameError

namespace TypeName

/-- The type name that is spelled by a package and a chain of types. -/
def readParts (package types : List Char) : Except SegmentFault TypeName := do
  let (p, ps) := Text.pieces '.' package
  let (t, ts) := Text.pieces '$' types
  let first ← Identifier.read 0 p
  let more ← Identifier.readAll 1 ps
  let outer ← Identifier.read (ps.length + 1) t
  let nested ← Identifier.readAll (ps.length + 2) ts
  pure ⟨first :: more, outer, nested, List.cons_ne_nil first more⟩

/-- The type name that a text spells, or the first fault from the left. -/
def parse (name : String) : Except TypeNameError TypeName :=
  if name.toList.isEmpty then .error .empty
  else
    match Text.splitLast '.' name.toList with
    | none => .error (.missingPackage name)
    | some (package, types) => (readParts package types).mapError (TypeNameError.ofSegment name)

/-- The characters of the package, its segments separated by points. -/
def packageChars (t : TypeName) : List Char :=
  Text.joinWith '.' (t.packageSegments.map Identifier.chars)

/-- The characters of the types, outermost first, separated by dollar signs. -/
def typeChars (t : TypeName) : List Char :=
  Text.joinWith '$' (t.outer.chars :: t.nested.map Identifier.chars)

/-- The characters of the whole name. -/
def chars (t : TypeName) : List Char :=
  t.packageChars ++ '.' :: t.typeChars

/-- The name as a text. -/
def text (t : TypeName) : String :=
  String.ofList t.chars

/-- The package with points. -/
def package (t : TypeName) : String :=
  String.ofList t.packageChars

/-- Whether the name is that of a nested type. -/
def isNested (t : TypeName) : Bool :=
  !t.nested.isEmpty

/-- The spelling in source code, where a nested type follows a point too. -/
def sourceForm (t : TypeName) : String :=
  String.ofList (Text.replaceChar '$' '.' t.chars)

/-- How many bytes the package takes up in the text. -/
def packageSize (t : TypeName) : Nat :=
  (Text.utf8 t.package).length

/-- The order of type names: by the bytes of the text, then by the size of the package. -/
def compare (t u : TypeName) : Ordering :=
  (Text.compareBytes t.text u.text).then (Ord.compare t.packageSize u.packageSize)

/-- Whether `t` comes before `u` or is equal to it. -/
def le (t u : TypeName) : Bool :=
  (t.compare u).isLE

/-- The names in their order, equal ones side by side. -/
def sort (names : List TypeName) : List TypeName :=
  names.mergeSort le

end TypeName

end SurfaceRegistry
