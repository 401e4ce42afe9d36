import SurfaceRegistry.Config.Decode
import SurfaceRegistry.Config.Schema
import SurfaceRegistry.Failure
import SurfaceRegistry.Proofs.Text.Order
import SurfaceRegistry.Proofs.Toml.Keys

/-!
# Which documents are configurations

A document is a configuration if each of its entries is a field with a value of the kind of this field, and its
version, if it has one, is the supported one (`Config.Fits`). The configuration then holds the entries of the
document and nothing more (`Config.parse_eq_ok_iff`).
-/

namespace SurfaceRegistry.Config

open Toml (Value Table keys)

variable {c c' : Config} {name : String} {t t' : Table}

/-! ### What a configuration holds -/

/-- What a configuration holds under a name, as a value of a document. -/
def value? (c : Config) (name : String) : Option Value :=
  match name with
  | "schema" => c.schema.map .string
  | "api_surface_path" => c.apiSurfacePath.map .string
  | "nightly_tests_directory_path" => c.nightlyTestsDirectoryPath.map .string
  | "nightly_tests_package" => c.nightlyTestsPackage.map .string
  | "ignored_types" => some (.array (c.ignoredTypes.map .string))
  | "replace_ignored_types" => some (.boolean c.replaceIgnoredTypes)
  | "fail_on" => c.failOn.map .string
  | _ => none

theorem map_string_inj {ss ss' : List String} : ss.map Value.string = ss'.map .string ↔ ss = ss' :=
  (List.map_injective_iff.mpr fun _ _ h => Value.string.inj h).eq_iff

theorem option_map_string_inj {s s' : Option String} : s.map Value.string = s'.map .string ↔ s = s' :=
  (Option.map_injective fun _ _ h => Value.string.inj h).eq_iff

/-- A configuration is determined by what it holds under each name. -/
theorem ext_value? (h : ∀ name, c.value? name = c'.value? name) : c = c' := by
  obtain ⟨schema, surface, directory, package, ignored, replace, failOn⟩ := c
  obtain ⟨schema', surface', directory', package', ignored', replace', failOn'⟩ := c'
  obtain rfl := option_map_string_inj.mp (h "schema")
  obtain rfl := option_map_string_inj.mp (h "api_surface_path")
  obtain rfl := option_map_string_inj.mp (h "nightly_tests_directory_path")
  obtain rfl := option_map_string_inj.mp (h "nightly_tests_package")
  obtain rfl := map_string_inj.mp (Value.array.inj (Option.some.inj (h "ignored_types")))
  obtain rfl := Value.boolean.inj (Option.some.inj (h "replace_ignored_types"))
  obtain rfl := option_map_string_inj.mp (h "fail_on")
  rfl

/-! ### Entries that fit -/

/-- A value is of the kind that a field holds. -/
inductive FieldKind.Admits : FieldKind → Value → Prop where
  /-- A text. -/
  | text (s : String) : Admits .optionalText (.string s)
  /-- A list of texts. -/
  | texts (ss : List String) : Admits .texts (.array (ss.map .string))
  /-- A truth value. -/
  | flag (b : Bool) : Admits .flag (.boolean b)

/-- The names of the fields with what they hold. -/
def kinds : List (String × FieldKind) :=
  fields.map fun f => (f.name, f.kind)

/-- A name is that of a field, and a value is of the kind that it holds. -/
def FitsField (name : String) (v : Value) : Prop :=
  ∃ kind, (name, kind) ∈ kinds ∧ kind.Admits v

/-- A table has the entries of a configuration of the supported version. -/
structure Fits (t : Table) : Prop where
  /-- Every entry is a field with a value of its kind. -/
  fields : ∀ e ∈ t, FitsField e.1 e.2
  /-- The version, if there is one, is the supported one. -/
  schema : ∀ v, ("schema", v) ∈ t → v = .string schemaName

theorem wrongType_ne_ok {α : Type} {v : Value} {expected : String} {a : α} :
    wrongType v expected ≠ .ok a := by
  intro h
  obtain ⟨f, -, h⟩ := exists_of_bind_eq_ok h
  cases h

@[simp] theorem decodeText_eq_ok_iff {v : Value} {s : String} : decodeText v = .ok s ↔ v = .string s := by
  cases v with
  | string r => simp [decodeText]
  | _ => exact iff_of_false wrongType_ne_ok (by simp)

@[simp] theorem decodeFlag_eq_ok_iff {v : Value} {b : Bool} : decodeFlag v = .ok b ↔ v = .boolean b := by
  cases v with
  | boolean b => simp [decodeFlag]
  | _ => exact iff_of_false wrongType_ne_ok (by simp)

theorem mapM_decodeText_eq_ok_iff {vs : List Value} {ss : List String} :
    vs.mapM decodeText = .ok ss ↔ vs = ss.map .string := by
  induction vs generalizing ss with
  | nil => cases ss <;> simp [pure, Except.pure]
  | cons v r ih =>
    rw [List.mapM_cons]
    constructor
    · intro h
      obtain ⟨s, hs, h⟩ := exists_of_bind_eq_ok h
      obtain ⟨rest, hrest, h⟩ := exists_of_bind_eq_ok h
      cases h
      rw [decodeText_eq_ok_iff.mp hs, ih.mp hrest, List.map_cons]
    · intro h
      cases ss with
      | nil => cases h
      | cons s rest =>
        obtain ⟨rfl, hrest⟩ := List.cons.inj h
        rw [ih.mpr hrest]
        rfl

@[simp] theorem decodeTexts_eq_ok_iff {v : Value} {ss : List String} :
    decodeTexts v = .ok ss ↔ v = .array (ss.map .string) := by
  cases v with
  | array vs => rw [decodeTexts, mapM_decodeText_eq_ok_iff, Value.array.injEq]
  | _ => exact iff_of_false wrongType_ne_ok (by simp)

/-! ### One entry -/

theorem exists_addField_of_fitsField {v : Value} (c : Config) (h : FitsField name v) :
    ∃ c', addField c name v = .ok c' := by
  obtain ⟨kind, hkind, hv⟩ := h
  simp only [kinds, fields, List.map_cons, List.map_nil, List.mem_cons, List.not_mem_nil, or_false,
    Prod.mk.injEq] at hkind
  rcases hkind with ⟨rfl, rfl⟩ | ⟨rfl, rfl⟩ | ⟨rfl, rfl⟩ | ⟨rfl, rfl⟩ | ⟨rfl, rfl⟩ | ⟨rfl, rfl⟩ | ⟨rfl, rfl⟩
  case inr.inr.inl =>
    cases hv with
    | texts ss =>
      refine ⟨{ c with ignoredTypes := ss }, ?_⟩
      rw [addField, decodeTexts_eq_ok_iff.mpr rfl]
      rfl
  all_goals
    cases hv
    exact ⟨_, rfl⟩

/-- An entry that is taken fits a field. -/
theorem fitsField_of_addField_eq_ok {v : Value} (h : addField c name v = .ok c') : FitsField name v := by
  unfold addField at h
  split at h
  case h_8 => cases h
  all_goals
    obtain ⟨a, ha, h⟩ := exists_of_bind_eq_ok h
    simp only [decodeText_eq_ok_iff, decodeTexts_eq_ok_iff, decodeFlag_eq_ok_iff] at ha
    subst ha
  case h_5 => exact ⟨.texts, by decide, .texts a⟩
  case h_6 => exact ⟨.flag, by decide, .flag a⟩
  all_goals exact ⟨.optionalText, by decide, .text a⟩

/-- An entry that is taken is held under its name, and nothing else changes. -/
theorem value?_of_addField_eq_ok {v : Value} (h : addField c name v = .ok c') (other : String) :
    c'.value? other = if other = name then some v else c.value? other := by
  unfold addField at h
  split at h
  case h_8 => cases h
  all_goals
    obtain ⟨a, ha, h⟩ := exists_of_bind_eq_ok h
    simp only [decodeText_eq_ok_iff, decodeTexts_eq_ok_iff, decodeFlag_eq_ok_iff] at ha
    cases h
    subst ha
    split
    · subst other
      rfl
    · unfold value?
      split
      any_goals rfl
      -- What is left is the field that was set, under another name.
      contradiction

/-! ### Tables -/

/-- Entries are taken one after another if each of them fits a field. -/
theorem exists_foldlM_addField_iff {es : Table} (c : Config) :
    (∃ c', es.foldlM (fun c e => addField c e.1 e.2) c = .ok c') ↔ ∀ e ∈ es, FitsField e.1 e.2 := by
  induction es generalizing c with
  | nil => exact iff_of_true ⟨c, rfl⟩ (by simp)
  | cons e r ih =>
    rw [List.forall_mem_cons, List.foldlM_cons]
    constructor
    · rintro ⟨c', h⟩
      obtain ⟨c₁, hc₁, h⟩ := exists_of_bind_eq_ok h
      exact ⟨fitsField_of_addField_eq_ok hc₁, (ih c₁).mp ⟨c', h⟩⟩
    · rintro ⟨he, hr⟩
      obtain ⟨c₁, hc₁⟩ := exists_addField_of_fitsField c he
      rw [hc₁]
      exact (ih c₁).mpr hr

/-- Entries with different keys that are taken one after another are held, and nothing else changes. -/
theorem value?_of_foldlM_addField {es : Table} (hn : (keys es).Nodup)
    (h : es.foldlM (fun c e => addField c e.1 e.2) c = .ok c') (name : String) :
    c'.value? name = (es.lookup name).or (c.value? name) := by
  induction es generalizing c with
  | nil =>
    cases h
    rfl
  | cons e r ih =>
    obtain ⟨key, v⟩ := e
    obtain ⟨hkey, hr⟩ := List.nodup_cons.mp hn
    obtain ⟨c₁, hc₁, h⟩ := exists_of_bind_eq_ok h
    rw [ih hr h, value?_of_addField_eq_ok hc₁]
    by_cases hname : name = key
    · subst hname
      -- What comes later has other keys, so the value of this entry stays.
      have hnone : r.lookup name = none := Toml.lookup_eq_none_iff_notMem_keys.mpr hkey
      simp [hnone]
    · have hne : (name == key) = false := by simpa using hname
      simp [List.lookup_cons, hne, hname]

/-- Entries in the order of their keys are the same entries. -/
theorem sortedEntries_perm (t : Table) : (sortedEntries t).Perm t :=
  List.mergeSort_perm t _

/-- What a table holds, said as one configuration: the entries of the table, and what the empty configuration holds
under every other name. -/
def Holds (c : Config) (t : Table) : Prop :=
  ∀ name, c.value? name = (t.lookup name).or (({} : Config).value? name)

/-- At most one configuration holds the entries of a table and nothing more. -/
theorem Holds.unique (h : c.Holds t) (h' : c'.Holds t) : c = c' :=
  ext_value? fun name => (h name).trans (h' name).symm

theorem exists_ofTable_iff : (∃ c, ofTable t = .ok c) ↔ ∀ e ∈ t, FitsField e.1 e.2 := by
  unfold ofTable
  rw [exists_foldlM_addField_iff]
  simp only [(sortedEntries_perm t).mem_iff]

theorem holds_of_ofTable (hn : (keys t).Nodup) (h : ofTable t = .ok c) : c.Holds t := by
  intro name
  have hperm := sortedEntries_perm t
  have hn' : (keys (sortedEntries t)).Nodup := (hperm.map Prod.fst).symm.nodup hn
  rw [value?_of_foldlM_addField hn' h, Toml.lookup_perm hn' hperm]

/-! ### The version -/

theorem checkSchema_eq_ok_iff : checkSchema c = .ok c' ↔ c = c' ∧ ∀ s, c.schema = some s → s = schemaName := by
  rw [checkSchema]
  cases hs : c.schema with
  | none => simp
  | some s =>
    by_cases hname : s = schemaName
    · simp [hname]
    · simp [hname]

theorem Holds.schema_iff (hn : (keys t).Nodup) (h : c.Holds t) :
    (∀ s, c.schema = some s → s = schemaName) ↔ ∀ v, ("schema", v) ∈ t → v = .string schemaName := by
  have hschema : c.schema.map Value.string = t.lookup "schema" := by
    have hlookup := h "schema"
    simpa [value?] using hlookup
  constructor
  · intro hname v hv
    rw [(Toml.lookup_eq_some_iff_mem hn).mpr hv] at hschema
    obtain ⟨s, hs, rfl⟩ := Option.map_eq_some_iff.mp hschema
    rw [hname s hs]
  · intro hname s hs
    rw [hs] at hschema
    exact Value.string.inj (hname _ ((Toml.lookup_eq_some_iff_mem hn).mp hschema.symm))

/-! ### Documents -/

/-- A document holds a configuration if its table fits, and it is the one that holds the entries of the table. -/
theorem parse_eq_ok_iff {document : String} (ht : Toml.parse? document = some t) :
    parse document = .ok c ↔ Fits t ∧ c.Holds t := by
  have hn := Toml.nodup_keys_of_parse? ht
  have hparse : parse document = (ofTable t).bind checkSchema := by rw [parse, ht]
  rw [hparse]
  constructor
  · intro h
    obtain ⟨c₁, hc₁, h⟩ := exists_of_bind_eq_ok h
    obtain ⟨rfl, hschema⟩ := checkSchema_eq_ok_iff.mp h
    have hholds := holds_of_ofTable hn hc₁
    exact ⟨⟨exists_ofTable_iff.mp ⟨_, hc₁⟩, (hholds.schema_iff hn).mp hschema⟩, hholds⟩
  · rintro ⟨hfits, hholds⟩
    obtain ⟨c₁, hc₁⟩ := exists_ofTable_iff.mpr hfits.fields
    obtain rfl := (holds_of_ofTable hn hc₁).unique hholds
    rw [hc₁]
    exact checkSchema_eq_ok_iff.mpr ⟨rfl, (hholds.schema_iff hn).mpr hfits.schema⟩

theorem exists_parse_iff {document : String} (ht : Toml.parse? document = some t) :
    (∃ c, parse document = .ok c) ↔ Fits t := by
  constructor
  · rintro ⟨c, hc⟩
    exact ((parse_eq_ok_iff ht).mp hc).1
  · intro hfits
    obtain ⟨c, hc⟩ := exists_ofTable_iff.mpr hfits.fields
    exact ⟨c, (parse_eq_ok_iff ht).mpr ⟨hfits, holds_of_ofTable (Toml.nodup_keys_of_parse? ht) hc⟩⟩

end SurfaceRegistry.Config
