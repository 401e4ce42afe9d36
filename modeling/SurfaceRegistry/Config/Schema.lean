import SurfaceRegistry.Config
import SurfaceRegistry.Json.Value

/-!
# The schema of configurations

A JSON schema that describes which configurations can be read, for editors and other tools.
-/

namespace SurfaceRegistry.Config

/-- What a field of a configuration holds. -/
inductive FieldKind where
  /-- A text, or nothing. -/
  | optionalText
  /-- A list of texts, empty by default. -/
  | texts
  /-- A truth value, false by default. -/
  | flag
  deriving DecidableEq

/-- A field of a configuration. -/
structure Field where
  /-- Its name in a file. -/
  name : String
  /-- What it is for. -/
  description : Option String
  /-- What it holds. -/
  kind : FieldKind

/-- The fields in the order of their names. -/
def fields : List Field :=
  [⟨"api_surface_path", none, .optionalText⟩,
   ⟨"fail_on", some "When to fail the check: `error` (default) or `warning`.", .optionalText⟩,
   ⟨"ignored_types",
    some "Extra fully-qualified type names to ignore (appended to the built-ins).", .texts⟩,
   ⟨"nightly_tests_directory_path", none, .optionalText⟩,
   ⟨"nightly_tests_package", none, .optionalText⟩,
   ⟨"replace_ignored_types",
    some "Use `ignored_types` instead of the built-ins rather than in addition to them.", .flag⟩,
   ⟨"schema", some "Optional schema string for tooling (`surfacereg.config.v1`).", .optionalText⟩]

/-- The value that a field has when it is left out, as a member of its schema. -/
def FieldKind.defaultMember : FieldKind → List (String × Json)
  | optionalText => []
  | texts => [("default", .array [])]
  | flag => [("default", .bool false)]

/-- The types that a field may have, as members of its schema. -/
def FieldKind.typeMembers : FieldKind → List (String × Json)
  | optionalText => [("type", .array [.string "string", .string "null"])]
  | texts => [("items", .object [("type", .string "string")]), ("type", .string "array")]
  | flag => [("type", .string "boolean")]

/-- The schema of a field. -/
def Field.schema (f : Field) : Json :=
  .object <|
    f.kind.defaultMember ++
    (match f.description with
      | none => []
      | some d => [("description", .string d)]) ++
    f.kind.typeMembers

/-- The schema of configurations. -/
def jsonSchema : Json :=
  .object
    [("$schema", .string "https://json-schema.org/draft/2020-12/schema"),
     ("additionalProperties", .bool false),
     ("description",
      .string ("`surfacereg.toml` schema v1.\n\nEvery field is optional; anything left out falls " ++
        "back to the built-in registry.")),
     ("properties", .object (fields.map fun f => (f.name, f.schema))),
     ("title", .string "SurfaceConfigV1"),
     ("type", .string "object")]

end SurfaceRegistry.Config
