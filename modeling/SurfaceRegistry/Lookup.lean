import SurfaceRegistry.EffectiveRegistry
import SurfaceRegistry.TypeName

/-!
# Looking up a type name

Whether a type name is ignored under a registry. A text that is no type name gets an answer of its own,
even when the registry lists it.
-/

namespace SurfaceRegistry

/-- The answer to whether a text is an ignored type name. -/
inductive Lookup where
  /-- The registry lists the name. -/
  | ignored (name : TypeName)
  /-- The registry does not list the name. -/
  | notIgnored (name : TypeName)
  /-- The text is not a type name. -/
  | invalid (error : TypeNameError)
  deriving DecidableEq

namespace Lookup

/-- The answer for a text under a registry. -/
def find (r : EffectiveRegistry) (name : String) : Lookup :=
  match TypeName.parse name with
  | .ok t => if r.isIgnored t.text then .ignored t else .notIgnored t
  | .error e => .invalid e

/-- The exit code that tells the answers apart. -/
def exitCode : Lookup → Nat
  | ignored _ => 0
  | notIgnored _ => 3
  | invalid _ => 1

end Lookup

end SurfaceRegistry
