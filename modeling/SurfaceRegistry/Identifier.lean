import SurfaceRegistry.Text.Classes

/-!
# Identifiers

An identifier starts with an alphabetic character or an underscore and goes on with alphanumeric
characters and underscores. Names of types and packages are sequences of identifiers; the first
segment that is none is the fault of the whole name.
-/

namespace SurfaceRegistry

/-- Whether the characters spell an identifier. -/
def isIdentifier : List Char → Bool
  | [] => false
  | c :: r =>
    (Text.isAlphabetic c || c == '_') && r.all fun d => Text.isAlphanumeric d || d == '_'

/-- A segment of a name. -/
structure Identifier where
  /-- The spelling. -/
  chars : List Char
  /-- The spelling is that of an identifier. -/
  valid : isIdentifier chars = true
  deriving DecidableEq

/-- What is wrong with a segment of a name. -/
inductive SegmentFault where
  /-- Nothing stands at this position. -/
  | empty (position : Nat)
  /-- The segment is not an identifier. -/
  | invalid (segment : String)
  deriving DecidableEq

namespace Identifier

/-- The spelling as a text. -/
def text (i : Identifier) : String :=
  String.ofList i.chars

/-- The identifier spelled by the segment at a position of a name. -/
def read (position : Nat) (segment : List Char) : Except SegmentFault Identifier :=
  if h : isIdentifier segment = true then .ok ⟨segment, h⟩
  else if segment.isEmpty then .error (.empty position)
  else .error (.invalid (String.ofList segment))

/-- The identifiers spelled by consecutive segments, the first of them at `position`. -/
def readAll (position : Nat) : List (List Char) → Except SegmentFault (List Identifier)
  | [] => .ok []
  | s :: r => do
    let i ← read position s
    let is ← readAll (position + 1) r
    pure (i :: is)

end Identifier

end SurfaceRegistry
