import SurfaceRegistry.Lookup
import SurfaceRegistry.Proofs.EffectiveRegistry
import SurfaceRegistry.Proofs.TypeName

/-!
# What a lookup answers

A lookup reads the text as a type name first, and only then asks whether the registry in force lists it. So
its answer depends on the set of names that the configuration has ignored (`Config.Ignores`) and on nothing
else (`Lookup.find_iff_ignores`): not on the order of the names, nor on how often they are repeated, nor on
any other value.
-/

namespace SurfaceRegistry

/-- The names that a configuration has ignored: its own, and the built-in ones unless it replaces them. -/
def Config.Ignores (c : Config) (name : String) : Prop :=
  name ∈ c.ignoredTypes ∨ c.replaceIgnoredTypes = false ∧ name ∈ Registry.builtin.ignoredTypes

theorem EffectiveRegistry.mem_ignoredTypes_iff {c : Config} {o : Overrides} {r : EffectiveRegistry}
    (h : resolve c o = .ok r) {name : String} : name ∈ r.ignoredTypes ↔ c.Ignores name := by
  rw [ignoredTypes_of_resolve h, mem_mergeIgnoredTypes, Config.Ignores]

namespace Lookup

variable {r : EffectiveRegistry} {s : String} {t : TypeName} {e : TypeNameError}

/-! ### One registry -/

theorem find_of_ok (h : TypeName.parse s = .ok t) :
    find r s = if s ∈ r.ignoredTypes then .ignored t else .notIgnored t := by
  rw [find, h]
  simp only [EffectiveRegistry.isIgnored, List.contains_iff_mem, TypeName.text_of_parse h]

theorem find_of_error (h : TypeName.parse s = .error e) : find r s = .invalid e := by
  rw [find, h]

@[simp] theorem find_eq_ignored_iff :
    find r s = .ignored t ↔ TypeName.parse s = .ok t ∧ s ∈ r.ignoredTypes := by
  cases h : TypeName.parse s with
  | error e => simp [find_of_error h]
  | ok u =>
    rw [find_of_ok h]
    by_cases hs : s ∈ r.ignoredTypes <;> simp [hs]

@[simp] theorem find_eq_notIgnored_iff :
    find r s = .notIgnored t ↔ TypeName.parse s = .ok t ∧ s ∉ r.ignoredTypes := by
  cases h : TypeName.parse s with
  | error e => simp [find_of_error h]
  | ok u =>
    rw [find_of_ok h]
    by_cases hs : s ∈ r.ignoredTypes <;> simp [hs]

@[simp] theorem find_eq_invalid_iff : find r s = .invalid e ↔ TypeName.parse s = .error e := by
  cases h : TypeName.parse s with
  | error e => simp [find_of_error h]
  | ok u =>
    rw [find_of_ok h]
    by_cases hs : s ∈ r.ignoredTypes <;> simp [hs]

/-- Registries that list the same names give the same answers. -/
theorem find_congr {r' : EffectiveRegistry}
    (h : ∀ name, name ∈ r.ignoredTypes ↔ name ∈ r'.ignoredTypes) (s : String) :
    find r s = find r' s := by
  cases hs : TypeName.parse s with
  | error e => rw [find_of_error hs, find_of_error hs]
  | ok t => rw [find_of_ok hs, find_of_ok hs, if_congr (h s) rfl rfl]

/-! ### Exit codes -/

@[simp] theorem exitCode_eq_zero_iff {a : Lookup} : a.exitCode = 0 ↔ ∃ t, a = .ignored t := by
  cases a <;> simp [exitCode]

@[simp] theorem exitCode_eq_three_iff {a : Lookup} : a.exitCode = 3 ↔ ∃ t, a = .notIgnored t := by
  cases a <;> simp [exitCode]

@[simp] theorem exitCode_eq_one_iff {a : Lookup} : a.exitCode = 1 ↔ ∃ e, a = .invalid e := by
  cases a <;> simp [exitCode]

theorem exists_parse_eq_error_iff :
    (∃ e, TypeName.parse s = .error e) ↔ ¬ ∃ t, TypeName.parse s = .ok t := by
  cases TypeName.parse s <;> simp

/-! ### The registry in force -/

/-- A text is answered by the name that it spells, and this by whether the configuration has it ignored; a
text that spells none is invalid, even if it is listed. Configurations that list the same names, to
replace the built-in ones or not, give the same answers whatever else they and the caller state. -/
theorem find_iff_ignores :
    (∀ c o r, EffectiveRegistry.resolve c o = .ok r → ∀ s,
      (∀ t, find r s = .ignored t ↔ TypeName.parse s = .ok t ∧ c.Ignores s) ∧
      (∀ t, find r s = .notIgnored t ↔ TypeName.parse s = .ok t ∧ ¬ c.Ignores s) ∧
      (∀ e, find r s = .invalid e ↔ TypeName.parse s = .error e) ∧
      ((find r s).exitCode = 0 ↔ (∃ t, TypeName.parse s = .ok t) ∧ c.Ignores s) ∧
      ((find r s).exitCode = 3 ↔ (∃ t, TypeName.parse s = .ok t) ∧ ¬ c.Ignores s) ∧
      ((find r s).exitCode = 1 ↔ ¬ ∃ t, TypeName.parse s = .ok t)) ∧
    ∀ c c' o o' r r', EffectiveRegistry.resolve c o = .ok r → EffectiveRegistry.resolve c' o' = .ok r' →
      c.replaceIgnoredTypes = c'.replaceIgnoredTypes →
      (∀ name, name ∈ c.ignoredTypes ↔ name ∈ c'.ignoredTypes) → ∀ s, find r s = find r' s := by
  constructor
  · intro c o r hr s
    simp [← EffectiveRegistry.mem_ignoredTypes_iff hr, exists_parse_eq_error_iff]
  · intro c c' o o' r r' hr hr' hreplace hlist s
    refine find_congr (fun name => ?_) s
    rw [EffectiveRegistry.mem_ignoredTypes_iff hr, EffectiveRegistry.mem_ignoredTypes_iff hr',
      Config.Ignores, Config.Ignores, hreplace, hlist]

/-- A configuration that lists a name twice, and a text that is none. -/
def listingConfig : Config where
  apiSurfacePath := some "a"
  ignoredTypes := ["x.Y$Z", "Span$", "x.Y$Z", "x.A"]

/-- The same names in another order. -/
def shuffledConfig : Config where
  ignoredTypes := ["Span$", "x.A", "x.Y$Z"]
  failOn := some "never"

theorem find_iff_ignores_of_listing :
    ∃ r r', EffectiveRegistry.resolve listingConfig {} = .ok r ∧
      EffectiveRegistry.resolve shuffledConfig { failOn := some "warn" } = .ok r' ∧
      (find r "x.Y$Z").exitCode = 0 ∧ (find r "x.Y").exitCode = 3 ∧ (find r "Span$").exitCode = 1 ∧
      (∃ t, find r "com.datadog.android.rum.model.ErrorEvent$Dd" = .ignored t) ∧
      ∀ s, find r s = find r' s := by
  obtain ⟨r, hr⟩ : ∃ r, EffectiveRegistry.resolve listingConfig {} = .ok r := ⟨_, rfl⟩
  obtain ⟨r', hr'⟩ : ∃ r', EffectiveRegistry.resolve shuffledConfig { failOn := some "warn" } = .ok r' :=
    ⟨_, rfl⟩
  have answer (s : String) := find_iff_ignores.1 listingConfig {} r hr s
  have spelled (s : String) (h : (TypeName.parse s).isOk = true) : ∃ t, TypeName.parse s = .ok t := by
    cases hs : TypeName.parse s with
    | ok t => exact ⟨t, rfl⟩
    | error e => simp [hs, Except.isOk, Except.toBool] at h
  refine ⟨r, r', hr, hr', ?_, ?_, ?_, ?_, ?_⟩
  · exact (answer _).2.2.2.1.mpr ⟨spelled _ (by decide +kernel), .inl (by decide)⟩
  · exact (answer _).2.2.2.2.1.mpr ⟨spelled _ (by decide +kernel), by unfold Config.Ignores; decide⟩
  · exact (answer _).2.2.2.2.2.mpr fun ⟨t, ht⟩ => by cases ht
  · obtain ⟨t, ht⟩ := spelled "com.datadog.android.rum.model.ErrorEvent$Dd" (by decide +kernel)
    exact ⟨t, ((answer _).1 t).mpr ⟨ht, .inr ⟨rfl, by decide⟩⟩⟩
  · refine find_iff_ignores.2 _ _ _ _ _ _ hr hr' rfl fun name => ?_
    simp only [listingConfig, shuffledConfig, List.mem_cons, List.not_mem_nil, or_false]
    tauto

end Lookup

end SurfaceRegistry
