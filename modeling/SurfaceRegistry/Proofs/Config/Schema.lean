import Mathlib
import SurfaceRegistry.Proofs.Config.Reading
import SurfaceRegistry.Proofs.Json.Validation

/-!
# The schema describes the configurations

A table without dates and times and with finite numbers is a JSON object, too. Such an object is valid under the schema
of configurations exactly if the table holds a configuration, whatever its version (`Config.schema_describes`). Both ask
the same of each entry: that it is a field, with a value of its kind.
-/

namespace SurfaceRegistry

namespace Toml

mutual

/-- A value as a JSON value, unless it is or holds a date, a time, or what is no finite number. -/
def Value.toJson? : Value → Option Json
  | .string s => some (.string s)
  | .integer n => some (.integer n)
  | .float (.finite x) => some (.float x)
  | .boolean b => some (.bool b)
  | .array vs => (jsonItems? vs).map .array
  | .table es => (jsonMembers? es).map .object
  | .voidInteger | .float (.infinity _) | .float .nan | .float .tooLarge | .datetime => none

/-- The values of a list as JSON values. -/
def jsonItems? : List Value → Option (List Json)
  | [] => some []
  | v :: r => do
    let j ← v.toJson?
    let js ← jsonItems? r
    pure (j :: js)

/-- The entries of a table as members of an object. -/
def jsonMembers? : List (String × Value) → Option (List (String × Json))
  | [] => some []
  | (name, v) :: r => do
    let j ← v.toJson?
    let ms ← jsonMembers? r
    pure ((name, j) :: ms)

end

variable {t : Table} {vs : List Value} {js : List Json} {members : List (String × Json)}

theorem forall₂_of_jsonItems? (h : jsonItems? vs = some js) : List.Forall₂ (fun v j => v.toJson? = some j) vs js := by
  induction vs generalizing js with
  | nil =>
    cases h
    exact .nil
  | cons v r ih =>
    obtain ⟨j, hj, h⟩ := Option.bind_eq_some_iff.mp h
    obtain ⟨rest, hrest, h⟩ := Option.bind_eq_some_iff.mp h
    cases h
    exact .cons hj (ih hrest)

theorem forall₂_of_jsonMembers? (h : jsonMembers? t = some members) :
    List.Forall₂ (fun e m => e.1 = m.1 ∧ e.2.toJson? = some m.2) t members := by
  induction t generalizing members with
  | nil =>
    cases h
    exact .nil
  | cons e r ih =>
    obtain ⟨j, hj, h⟩ := Option.bind_eq_some_iff.mp h
    obtain ⟨rest, hrest, h⟩ := Option.bind_eq_some_iff.mp h
    cases h
    exact .cons ⟨rfl, hj⟩ (ih hrest)

end Toml

/-! ### Schemas -/

namespace Config

open Toml (Value Table)

variable {v : Value} {j : Json}

/-- An object is valid exactly if each of its members is listed, and valid under all schemas that are listed with its
name. -/
theorem validates_jsonSchema_iff_listed {members : List (String × Json)} :
    (Json.object members).validates jsonSchema = true ↔
      (∀ m ∈ members, m.1 ∈ fields.map Field.name) ∧
        ∀ f ∈ fields, ∀ m ∈ members, m.1 = f.name → m.2.validates f.schema = true := by
  rw [jsonSchema, Json.validates]
  generalize hlisted : Json.propertyNames _ = listed
  obtain rfl : fields.map Field.name = listed := hlisted
  simp (disch := decide) only [Json.validatesAll, Json.validatesKeyword_of_annotation, Bool.true_and]
  simp only [Json.validatesKeyword, Bool.and_eq_true, Json.validatesProperties_iff]
  have htype : (Json.object members).hasType (.string "object") = true := rfl
  rw [List.all_eq_true, List.forall_mem_map, htype]
  simp [Json.members, Json.validates]

/-- The names of the fields are different. -/
theorem nodup_names : (fields.map Field.name).Nodup := by
  decide

theorem field_unique {f g : Field} (hf : f ∈ fields) (hg : g ∈ fields) (h : f.name = g.name) : f = g :=
  List.inj_on_of_nodup_map nodup_names hf hg h

/-- An object is valid exactly if each of its members is a field, and valid under the schema of this field. -/
theorem validates_jsonSchema_iff {members : List (String × Json)} :
    (Json.object members).validates jsonSchema = true ↔
      ∀ m ∈ members, ∃ f ∈ fields, f.name = m.1 ∧ m.2.validates f.schema = true := by
  rw [validates_jsonSchema_iff_listed]
  constructor
  · rintro ⟨hlisted, hvalid⟩ m hm
    obtain ⟨f, hf, hname⟩ := List.mem_map.mp (hlisted m hm)
    exact ⟨f, hf, hname, hvalid f hf m hm hname.symm⟩
  · intro h
    refine ⟨fun m hm => ?_, fun f hf m hm hname => ?_⟩
    · obtain ⟨f, hf, hname, -⟩ := h m hm
      exact List.mem_map.mpr ⟨f, hf, hname⟩
    · obtain ⟨g, hg, hname', hvalid⟩ := h m hm
      obtain rfl := field_unique hg hf (hname'.trans hname)
      exact hvalid

/-- What the schema of a field says of values is what the types of the field say. -/
theorem exists_validates_schema_eq (f : Field) (j : Json) :
    ∃ listed, j.validates f.schema = j.validatesAll listed f.kind.typeMembers := by
  obtain ⟨name, description, kind⟩ := f
  rw [Field.schema, Json.validates]
  generalize Json.propertyNames _ = listed
  refine ⟨listed, ?_⟩
  -- What comes before the types is a default value, a description, or both.
  cases description <;> cases kind <;> rfl

/-! ### Kinds -/

/-- What a value of a document is as a JSON value, as far as a configuration can hold it. -/
inductive Reading : Value → Json → Prop where
  /-- A text. -/
  | text (s : String) : Reading (.string s) (.string s)
  /-- A truth value. -/
  | flag (b : Bool) : Reading (.boolean b) (.bool b)
  /-- A list. -/
  | list {vs : List Value} {js : List Json} (h : List.Forall₂ (fun v j => v.toJson? = some j) vs js) :
    Reading (.array vs) (.array js)
  /-- A number or a table. -/
  | other {v : Value} {j : Json} (hv : ∀ kind : FieldKind, ¬kind.Admits v)
      (hj : ∀ name ∈ j.typeNames, name ∈ ["integer", "number", "object"]) : Reading v j

theorem reading_of_toJson? (h : v.toJson? = some j) : Reading v j := by
  cases v with
  | string s =>
    cases h
    exact .text s
  | integer n =>
    cases h
    exact .other (fun kind hkind => by cases hkind) (by simp [Json.typeNames])
  | voidInteger => cases h
  | float x =>
    cases x with
    | finite x =>
      cases h
      refine .other (fun kind hkind => by cases hkind) ?_
      rw [Json.typeNames]
      split <;> simp
    | infinity negative => cases h
    | nan => cases h
    | tooLarge => cases h
  | boolean b =>
    cases h
    exact .flag b
  | datetime => cases h
  | array vs =>
    obtain ⟨js, hjs, rfl⟩ := Option.map_eq_some_iff.mp h
    exact .list (Toml.forall₂_of_jsonItems? hjs)
  | table es =>
    obtain ⟨ms, -, rfl⟩ := Option.map_eq_some_iff.mp h
    exact .other (fun kind hkind => by cases hkind) (by simp [Json.typeNames])

theorem Reading.hasType_string_iff (h : Reading v j) :
    j.hasType (.string "string") = true ↔ ∃ s, v = .string s := by
  cases h with
  | text s => exact iff_of_true rfl ⟨s, rfl⟩
  | flag b => exact iff_of_false (fun h => by cases h) (by simp)
  | list h => exact iff_of_false (fun h => by cases h) (by simp)
  | other hv hj =>
    refine iff_of_false (fun hs => ?_) ?_
    · exact absurd (hj _ (List.contains_iff_mem.mp hs)) (by decide)
    · rintro ⟨s, rfl⟩
      exact hv _ (.text s)

/-- Values are texts where their JSON values are. -/
theorem forall_hasType_string_iff {vs : List Value} {js : List Json}
    (h : List.Forall₂ (fun v j => v.toJson? = some j) vs js) :
    (∀ j ∈ js, j.hasType (.string "string") = true) ↔ ∃ ss : List String, vs = ss.map .string := by
  induction h with
  | nil => exact iff_of_true (by simp) ⟨[], rfl⟩
  | cons hj _ ih =>
    rw [List.forall_mem_cons, (reading_of_toJson? hj).hasType_string_iff, ih]
    constructor
    · rintro ⟨⟨s, rfl⟩, ss, rfl⟩
      exact ⟨s :: ss, rfl⟩
    · rintro ⟨ss, hss⟩
      cases ss with
      | nil => cases hss
      | cons s ss =>
        obtain ⟨rfl, rfl⟩ := List.cons.inj hss
        exact ⟨⟨s, rfl⟩, ss, rfl⟩

theorem Reading.validates_text_iff (h : Reading v j) (listed : List String) :
    j.validatesAll listed FieldKind.optionalText.typeMembers = true ↔ FieldKind.Admits .optionalText v := by
  have htype : j.validatesAll listed FieldKind.optionalText.typeMembers =
      j.hasType (.array [.string "string", .string "null"]) := Bool.and_true _
  rw [htype]
  cases h with
  | text s => exact iff_of_true rfl (.text s)
  | flag b => exact iff_of_false (fun h => by cases h) (fun h => by cases h)
  | list h => exact iff_of_false (fun h => by cases h) (fun h => by cases h)
  | other hv hj =>
    refine iff_of_false (fun h => ?_) (hv _)
    have hnames : "string" ∈ j.typeNames ∨ "null" ∈ j.typeNames := by simpa [Json.hasType] using h
    rcases hnames with hname | hname
    · exact absurd (hj _ hname) (by decide)
    · exact absurd (hj _ hname) (by decide)

theorem Reading.validates_texts_iff (h : Reading v j) (listed : List String) :
    j.validatesAll listed FieldKind.texts.typeMembers = true ↔ FieldKind.Admits .texts v := by
  have hitems (i : Json) : i.validates (.object [("type", .string "string")]) = i.hasType (.string "string") :=
    Bool.and_true _
  have htype : j.validatesAll listed FieldKind.texts.typeMembers = true ↔
      (∀ i ∈ j.items, i.hasType (.string "string") = true) ∧ j.hasType (.string "array") = true := by
    simp [FieldKind.typeMembers, Json.validatesAll, Json.validatesKeyword, hitems]
  rw [htype]
  cases h with
  | text s => exact iff_of_false (fun h => by cases h.2) (fun h => by cases h)
  | flag b => exact iff_of_false (fun h => by cases h.2) (fun h => by cases h)
  | list h =>
    refine (and_iff_left rfl).trans ((forall_hasType_string_iff h).trans ⟨?_, ?_⟩)
    · rintro ⟨ss, rfl⟩
      exact .texts ss
    · intro hv
      cases hv with
      | texts ss => exact ⟨ss, rfl⟩
  | other hv hj =>
    refine iff_of_false (fun h => ?_) (hv _)
    exact absurd (hj _ (List.contains_iff_mem.mp h.2)) (by decide)

theorem Reading.validates_flag_iff (h : Reading v j) (listed : List String) :
    j.validatesAll listed FieldKind.flag.typeMembers = true ↔ FieldKind.Admits .flag v := by
  have htype : j.validatesAll listed FieldKind.flag.typeMembers = j.hasType (.string "boolean") :=
    Bool.and_true _
  rw [htype]
  cases h with
  | text s => exact iff_of_false (fun h => by cases h) (fun h => by cases h)
  | flag b => exact iff_of_true rfl (.flag b)
  | list h => exact iff_of_false (fun h => by cases h) (fun h => by cases h)
  | other hv hj =>
    refine iff_of_false (fun h => ?_) (hv _)
    exact absurd (hj _ (List.contains_iff_mem.mp h)) (by decide)

/-- A value is valid under the schema of a field exactly if the field can hold it. -/
theorem validates_schema_iff (hj : v.toJson? = some j) (f : Field) :
    j.validates f.schema = true ↔ f.kind.Admits v := by
  obtain ⟨listed, heq⟩ := exists_validates_schema_eq f j
  rw [heq]
  have hreading := reading_of_toJson? hj
  cases f.kind with
  | optionalText => exact hreading.validates_text_iff listed
  | texts => exact hreading.validates_texts_iff listed
  | flag => exact hreading.validates_flag_iff listed

/-! ### Tables -/

/-- A field with a valid value is an entry that fits. -/
theorem fitsField_iff {name : String} :
    FitsField name v ↔ ∃ f ∈ fields, f.name = name ∧ f.kind.Admits v := by
  unfold FitsField kinds
  constructor
  · rintro ⟨kind, hkind, hv⟩
    obtain ⟨f, hf, heq⟩ := List.mem_map.mp hkind
    obtain ⟨rfl, rfl⟩ := Prod.mk.inj heq
    exact ⟨f, hf, rfl, hv⟩
  · rintro ⟨f, hf, rfl, hv⟩
    exact ⟨f.kind, List.mem_map.mpr ⟨f, hf, rfl⟩, hv⟩

theorem forall_fitsField_iff {t : Table} {members : List (String × Json)}
    (h : List.Forall₂ (fun e m => e.1 = m.1 ∧ e.2.toJson? = some m.2) t members) :
    (∀ m ∈ members, ∃ f ∈ fields, f.name = m.1 ∧ m.2.validates f.schema = true) ↔
      ∀ e ∈ t, FitsField e.1 e.2 := by
  induction h with
  | nil => simp
  | cons hem _ ih =>
    rw [List.forall_mem_cons, List.forall_mem_cons, ih, fitsField_iff, hem.1]
    simp only [validates_schema_iff hem.2]

/-- A table whose JSON value is valid holds a configuration, and no other does. -/
theorem validates_iff_exists_ofTable {t : Table} {json : Json} (h : (Value.table t).toJson? = some json) :
    json.validates jsonSchema = true ↔ ∃ c, ofTable t = .ok c := by
  obtain ⟨members, hmembers, rfl⟩ := Option.map_eq_some_iff.mp h
  rw [validates_jsonSchema_iff, exists_ofTable_iff]
  exact forall_fitsField_iff (Toml.forall₂_of_jsonMembers? hmembers)

/-! ### Versions -/

/-- A step that does not fail over the version of a document. -/
def VersionBlind {α : Type} (x : Decoded α) : Prop :=
  ∀ name, x ≠ .error (.unsupportedSchema name)

section

variable {α β : Type}

theorem versionBlind_ok (a : α) : VersionBlind (.ok a : Decoded α) :=
  fun _ h => by cases h

theorem versionBlind_mismatch (m : Mismatch) : VersionBlind (.error (.mismatch m) : Decoded α) :=
  fun _ h => by cases h

theorem versionBlind_unreadable : VersionBlind (.error .unreadableNumber : Decoded α) :=
  fun _ h => by cases h

theorem VersionBlind.bind {x : Decoded α} {f : α → Decoded β} (hx : VersionBlind x) (hf : ∀ a, VersionBlind (f a)) :
    VersionBlind (x >>= f) := by
  cases x with
  | ok a => exact hf a
  | error e =>
    rintro name ⟨⟩
    exact hx name rfl

theorem versionBlind_found (v : Value) : VersionBlind (found v) := by
  cases v with
  | string s => exact versionBlind_ok _
  | integer n =>
    rw [found, foundInteger]
    split
    · exact versionBlind_ok _
    split
    · exact versionBlind_ok _
    · exact versionBlind_unreadable
  | voidInteger => exact versionBlind_unreadable
  | float x =>
    cases x with
    | finite x => exact versionBlind_ok _
    | infinity negative => cases negative <;> exact versionBlind_ok _
    | nan => exact versionBlind_ok _
    | tooLarge => exact versionBlind_unreadable
  | boolean b => exact versionBlind_ok _
  | datetime => exact versionBlind_ok _
  | array vs => exact versionBlind_ok _
  | table es => exact versionBlind_ok _

theorem versionBlind_wrongType (v : Value) (expected : String) : VersionBlind (wrongType v expected : Decoded α) :=
  (versionBlind_found v).bind fun _ => versionBlind_mismatch _

theorem versionBlind_decodeText (v : Value) : VersionBlind (decodeText v) := by
  unfold decodeText
  split
  · exact versionBlind_ok _
  · exact versionBlind_wrongType _ _

theorem versionBlind_decodeFlag (v : Value) : VersionBlind (decodeFlag v) := by
  unfold decodeFlag
  split
  · exact versionBlind_ok _
  · exact versionBlind_wrongType _ _

theorem versionBlind_mapM {f : α → Decoded β} (hf : ∀ a, VersionBlind (f a)) (l : List α) :
    VersionBlind (l.mapM f) := by
  induction l with
  | nil => exact versionBlind_ok []
  | cons a r ih =>
    rw [List.mapM_cons]
    exact (hf a).bind fun _ => ih.bind fun _ => versionBlind_ok _

theorem versionBlind_decodeTexts (v : Value) : VersionBlind (decodeTexts v) := by
  unfold decodeTexts
  split
  · exact versionBlind_mapM versionBlind_decodeText _
  · exact versionBlind_wrongType _ _

theorem versionBlind_addField (c : Config) (name : String) (v : Value) : VersionBlind (addField c name v) := by
  unfold addField
  split
  case h_5 => exact (versionBlind_decodeTexts v).bind fun _ => versionBlind_ok _
  case h_6 => exact (versionBlind_decodeFlag v).bind fun _ => versionBlind_ok _
  case h_8 => exact versionBlind_mismatch _
  all_goals exact (versionBlind_decodeText v).bind fun _ => versionBlind_ok _

theorem versionBlind_ofTable (t : Table) : VersionBlind (ofTable t) := by
  unfold ofTable
  generalize ({} : Config) = c
  induction sortedEntries t generalizing c with
  | nil => exact versionBlind_ok c
  | cons e r ih =>
    rw [List.foldlM_cons]
    exact (versionBlind_addField c e.1 e.2).bind ih

end

/-- A table holds a configuration exactly if its document does, or is rejected for its version. -/
theorem exists_ofTable_iff_parse {document : String} {t : Table} (ht : Toml.parse? document = some t) :
    (∃ c, ofTable t = .ok c) ↔
      (∃ c, parse document = .ok c) ∨ ∃ name, parse document = .error (.unsupportedSchema name) := by
  have hparse : parse document = (ofTable t).bind checkSchema := by rw [parse, ht]
  rw [hparse]
  cases h : ofTable t with
  | error e =>
    refine iff_of_false (by simp) ?_
    rintro (⟨c, hc⟩ | ⟨name, hname⟩)
    · cases hc
    · cases hname
      exact versionBlind_ofTable t name h
  | ok c =>
    refine iff_of_true ⟨c, rfl⟩ ?_
    show (∃ c', checkSchema c = .ok c') ∨ ∃ name, checkSchema c = .error (.unsupportedSchema name)
    unfold checkSchema
    split
    · exact .inl ⟨c, rfl⟩
    · split
      · exact .inl ⟨c, rfl⟩
      · exact .inr ⟨_, rfl⟩

/-- The schema describes the configurations: a table without dates and times, with finite numbers, is valid under it as
a JSON object exactly if it holds a configuration. In a document it holds one exactly if the document is read, or is
rejected for its version alone. -/
theorem schema_describes :
    (∀ t json, (Value.table t).toJson? = some json →
      (json.validates jsonSchema = true ↔ ∃ c, ofTable t = .ok c)) ∧
    ∀ document t, Toml.parse? document = some t →
      ((∃ c, ofTable t = .ok c) ↔
        (∃ c, parse document = .ok c) ∨ ∃ name, parse document = .error (.unsupportedSchema name)) :=
  ⟨fun _ _ => validates_iff_exists_ofTable, fun _ _ => exists_ofTable_iff_parse⟩

theorem schema_describes_of_otherVersion :
    ∃ t json, Toml.parse? "schema = 'surfacereg.config.v9'\nignored_types = ['a.B']" = some t ∧
      (Value.table t).toJson? = some json ∧ json.validates jsonSchema = true ∧ (∃ c, ofTable t = .ok c) ∧
      parse "schema = 'surfacereg.config.v9'\nignored_types = ['a.B']" =
        .error (.unsupportedSchema "surfacereg.config.v9") := by
  let version : String × Value := ("schema", .string "surfacereg.config.v9")
  let types : String × Value := ("ignored_types", .array [.string "a.B"])
  have ht : Toml.parse? "schema = 'surfacereg.config.v9'\nignored_types = ['a.B']" = some [version, types] := by
    cbv
  have hsorted : sortedEntries [version, types] = [types, version] := by
    cbv
  have hparse : parse "schema = 'surfacereg.config.v9'\nignored_types = ['a.B']" =
      .error (.unsupportedSchema "surfacereg.config.v9") := by
    simp only [parse, ht, ofTable, hsorted]
    rfl
  have hconfig := (schema_describes.2 _ _ ht).mpr (.inr ⟨_, hparse⟩)
  exact ⟨_, _, ht, rfl, (schema_describes.1 _ _ rfl).mpr hconfig, hconfig, hparse⟩

end Config

end SurfaceRegistry
