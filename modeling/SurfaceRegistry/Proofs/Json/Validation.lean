import Mathlib.Logic.Basic
import SurfaceRegistry.Json.Value

/-!
# Validation of JSON values

When a value is valid under a JSON schema, for schemas with the keywords `type`, `properties`, `items` and
`additionalProperties`, and with keywords that only annotate. Under a schema with any other keyword nothing is valid,
so that no keyword is passed over. A keyword about lists or objects says nothing about other values; of `type`, one
name or any of several must fit.
-/

namespace SurfaceRegistry

/-- Whether a number is an integer. -/
def Binary64.isIntegral (x : Binary64) : Bool :=
  x.units % one == 0

namespace Json

/-- The names of the types that a value has in schemas. -/
def typeNames : Json → List String
  | null => ["null"]
  | bool _ => ["boolean"]
  | integer _ => ["integer", "number"]
  | float x => if x.isIntegral then ["integer", "number"] else ["number"]
  | string _ => ["string"]
  | array _ => ["array"]
  | object _ => ["object"]

/-- Whether a value has the type that a schema names, or one of those that it names. -/
def hasType (v : Json) : Json → Bool
  | string name => v.typeNames.contains name
  | array names => names.any fun
    | string name => v.typeNames.contains name
    | _ => false
  | _ => false

/-- The items of a list. -/
def items : Json → List Json
  | array items => items
  | _ => []

/-- The members of an object. -/
def members : Json → List (String × Json)
  | object members => members
  | _ => []

/-- The names that the keyword `properties` of a schema lists. -/
def propertyNames (keywords : List (String × Json)) : List String :=
  ((keywords.lookup "properties").map fun s => s.members.map Prod.fst).getD []

/-- The keywords that do not say which values are valid. -/
def annotations : List String :=
  ["$schema", "default", "description", "title"]

mutual

/-- Whether a value is valid under a schema. -/
def validates (v : Json) : Json → Bool
  | bool b => b
  | object keywords => validatesAll v (propertyNames keywords) keywords
  | _ => false
termination_by structural schema => schema

/-- Whether it is valid under all keywords of a schema that lists some properties. -/
def validatesAll (v : Json) (listed : List String) : List (String × Json) → Bool
  | [] => true
  | k :: r => validatesKeyword v listed k && validatesAll v listed r
termination_by structural keywords => keywords

/-- Whether it is valid under one of them. -/
def validatesKeyword (v : Json) (listed : List String) : String × Json → Bool
  | ("type", s) => v.hasType s
  | ("properties", object properties) => validatesProperties v properties
  | ("properties", _) => false
  | ("items", s) => v.items.all fun i => i.validates s
  | ("additionalProperties", s) => v.members.all fun m => listed.contains m.1 || m.2.validates s
  | (keyword, _) => annotations.contains keyword
termination_by structural keyword => keyword

/-- Whether its members with the names of some properties are valid under the schemas of these. -/
def validatesProperties (v : Json) : List (String × Json) → Bool
  | [] => true
  | (name, s) :: r =>
    (v.members.all fun m => m.1 != name || m.2.validates s) && validatesProperties v r
termination_by structural properties => properties

end

variable {v s : Json} {listed : List String}

theorem validatesKeyword_of_annotation {keyword : String} (h : keyword ∈ annotations) :
    v.validatesKeyword listed (keyword, s) = true := by
  simp only [annotations, List.mem_cons, List.not_mem_nil, or_false] at h
  rcases h with rfl | rfl | rfl | rfl <;> rfl

theorem validatesProperties_iff {properties : List (String × Json)} :
    v.validatesProperties properties = true ↔
      ∀ p ∈ properties, ∀ m ∈ v.members, m.1 = p.1 → m.2.validates p.2 = true := by
  induction properties with
  | nil => simp [validatesProperties]
  | cons p r ih =>
    obtain ⟨name, s⟩ := p
    rw [validatesProperties, Bool.and_eq_true, ih, List.forall_mem_cons, List.all_eq_true]
    refine and_congr_left' (forall₂_congr fun m _ => ?_)
    by_cases hm : m.1 = name <;> simp [hm]

end Json

end SurfaceRegistry
