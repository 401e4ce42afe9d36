import SurfaceRegistry.Proofs.EffectiveRegistry

/-!
# Stating what is in force

A registry that is in force can be written down as a configuration (`Config.States`). Without overrides this
configuration leads to the same values (`EffectiveRegistry.resolve_restated`), also where it adds its ignored types to
the built-in ones, if the registry got its own by adding. Then the built-in names stand in front of the list that is
added, where they are known already, and the names behind them are new: so adding what came of adding leaves it as it is
(`addMissing_addMissing`).
-/

namespace SurfaceRegistry

/-! ### Adding names again -/

variable {known given : List String}

/-- Names are added one after another, so those of two lists are added list by list. -/
theorem addMissing_append (known first second : List String) :
    addMissing known (first ++ second) = addMissing (addMissing known first) second := by
  induction first generalizing known with
  | nil => rfl
  | cons name r ih => rw [List.cons_append, addMissing, addMissing, ih]

theorem addMissing_of_known (h : ∀ name ∈ given, name ∈ known) : addMissing known given = known := by
  induction given with
  | nil => rfl
  | cons name r ih =>
    obtain ⟨hname, hr⟩ := List.forall_mem_cons.mp h
    rw [addMissing, if_pos (List.contains_iff_mem.mpr hname), ih hr]

theorem addMissing_of_new (hnodup : given.Nodup) (hnew : ∀ name ∈ given, name ∉ known) :
    addMissing known given = known ++ given := by
  induction given generalizing known with
  | nil => exact (List.append_nil known).symm
  | cons name r ih =>
    obtain ⟨hname, hr⟩ := List.forall_mem_cons.mp hnew
    obtain ⟨hfirst, hnodup⟩ := List.nodup_cons.mp hnodup
    -- The first name is known from now on, but it does not come again.
    have hrest : ∀ n ∈ r, n ∉ known ++ [name] := by
      intro n hn hmem
      rcases List.mem_append.mp hmem with hk | hk
      · exact hr n hn hk
      · exact hfirst (List.mem_singleton.mp hk ▸ hn)
    rw [addMissing, if_neg (fun hc => hname (List.contains_iff_mem.mp hc)), ih hnodup hrest, List.append_assoc]
    rfl

/-- What came of adding adds nothing, and its names stay in their order. -/
theorem addMissing_addMissing (known given : List String) :
    addMissing known (addMissing known given) = addMissing known given := by
  obtain ⟨added, hadd, h⟩ := exists_addMissing known given
  rw [hadd, addMissing_append, addMissing_of_known fun _ => id,
    addMissing_of_new h.nodup fun name hname => ((h.mem_iff name).mp hname).2]

/-! ### Configurations that state a registry -/

/-- A configuration that states what is in force: the values, the ignored types as they are listed, and by one of its
names what a check fails on. It may claim a version, and it may replace the built-in ignored types or add to them. -/
structure Config.States (c : Config) (r : EffectiveRegistry) : Prop where
  apiSurfacePath : c.apiSurfacePath = some r.apiSurfacePath.value
  nightlyTestsDirectoryPath : c.nightlyTestsDirectoryPath = some r.nightlyTestsDirectoryPath.value
  nightlyTestsPackage : c.nightlyTestsPackage = some r.nightlyTestsPackage.value
  ignoredTypes : c.ignoredTypes = r.ignoredTypes
  failOn : ∃ name, c.failOn = some name ∧ FailOn.parse? name = some r.failOn

namespace EffectiveRegistry

/-- The registry written down as a configuration. -/
def stated (r : EffectiveRegistry) (replace : Bool) : Config where
  apiSurfacePath := some r.apiSurfacePath.value
  nightlyTestsDirectoryPath := some r.nightlyTestsDirectoryPath.value
  nightlyTestsPackage := some r.nightlyTestsPackage.value
  ignoredTypes := r.ignoredTypes
  replaceIgnoredTypes := replace
  failOn := some r.failOn.label

theorem states_stated (r : EffectiveRegistry) (replace : Bool) : (r.stated replace).States r where
  apiSurfacePath := rfl
  nightlyTestsDirectoryPath := rfl
  nightlyTestsPackage := rfl
  ignoredTypes := rfl
  failOn := ⟨r.failOn.label, rfl, by cases r.failOn <;> rfl⟩

/-- Two registries with the same values, whatever layers these come from. -/
structure SameValues (r r' : EffectiveRegistry) : Prop where
  apiSurfacePath : r.apiSurfacePath.value = r'.apiSurfacePath.value
  nightlyTestsDirectoryPath : r.nightlyTestsDirectoryPath.value = r'.nightlyTestsDirectoryPath.value
  nightlyTestsPackage : r.nightlyTestsPackage.value = r'.nightlyTestsPackage.value
  ignoredTypes : r.ignoredTypes = r'.ignoredTypes
  failOn : r.failOn = r'.failOn

variable {c c' : Config} {o : Overrides} {r : EffectiveRegistry}

/-- The ignored types of a registry come out again if they replace the built-in ones, and also if they are added to
them, provided that the registry has them by adding. -/
theorem mergeIgnoredTypes_restated (htypes : c'.ignoredTypes = mergeIgnoredTypes c)
    (hreplace : c'.replaceIgnoredTypes = true ∨ c.replaceIgnoredTypes = false) :
    mergeIgnoredTypes c' = mergeIgnoredTypes c := by
  cases hc' : c'.replaceIgnoredTypes with
  | true => rw [mergeIgnoredTypes, if_pos hc', htypes]
  | false =>
    have hc : c.replaceIgnoredTypes = false := by simpa [hc'] using hreplace
    have hmerge : mergeIgnoredTypes c = addMissing Registry.builtin.ignoredTypes c.ignoredTypes := by
      rw [mergeIgnoredTypes, hc]
      rfl
    rw [mergeIgnoredTypes, hc', htypes, hmerge]
    exact addMissing_addMissing _ _

theorem chooseFailOn_of_states (h : c.States r) : chooseFailOn c.failOn = .ok r.failOn := by
  obtain ⟨name, hname, hparse⟩ := h.failOn
  rw [hname, chooseFailOn]
  simp only [hparse]

/-- Without overrides, what a configuration states is in force. -/
theorem sameValues_layered (h : c.States r) (htypes : mergeIgnoredTypes c = r.ignoredTypes) :
    (layered c {} r.failOn).SameValues r where
  apiSurfacePath := by simp [layered, h.apiSurfacePath, SourcedValue.pick]
  nightlyTestsDirectoryPath := by simp [layered, h.nightlyTestsDirectoryPath, SourcedValue.pick]
  nightlyTestsPackage := by simp [layered, h.nightlyTestsPackage, SourcedValue.pick]
  ignoredTypes := htypes
  failOn := rfl

/-- A configuration that states what is in force, read without overrides, leads to the same values. This is so if it
replaces the built-in ignored types, and also if neither it nor the configuration before it does. Every registry can be
stated in both ways. -/
theorem resolve_restated :
    (∀ c o r, resolve c o = .ok r → ∀ c', c'.States r →
      c'.replaceIgnoredTypes = true ∨ c.replaceIgnoredTypes = false →
        ∃ r', resolve c' {} = .ok r' ∧ r'.SameValues r) ∧
    ∀ r replace, ∃ c' : Config, c'.States r ∧ c'.replaceIgnoredTypes = replace := by
  refine ⟨fun c o r h c' hstates hreplace => ?_, fun r replace => ⟨r.stated replace, r.states_stated replace, rfl⟩⟩
  have htypes : r.ignoredTypes = mergeIgnoredTypes c := ignoredTypes_of_resolve h
  have hmerge : mergeIgnoredTypes c' = r.ignoredTypes := by
    rw [htypes]
    exact mergeIgnoredTypes_restated (hstates.ignoredTypes.trans htypes) hreplace
  exact ⟨layered c' {} r.failOn, resolve_eq_ok_iff.mpr ⟨r.failOn, chooseFailOn_of_states hstates, rfl⟩,
    sameValues_layered hstates hmerge⟩

/-- What the configuration with repeated and built-in names comes to, stated in its own words and under a version. -/
def restatedConfig : Config where
  schema := some Config.schemaName
  apiSurfacePath := some ""
  nightlyTestsDirectoryPath := some Registry.builtin.nightlyTestsDirectoryPath
  nightlyTestsPackage := some "com/x"
  ignoredTypes := Registry.builtin.ignoredTypes ++ ["x.Y", "x.A"]
  failOn := some "warn"

theorem resolve_restated_of_repeating :
    ∃ r, resolve repeatingConfig hidingOverrides = .ok r ∧ restatedConfig.States r ∧
      restatedConfig.replaceIgnoredTypes = false ∧ repeatingConfig.replaceIgnoredTypes = false ∧
      (∃ r', resolve restatedConfig {} = .ok r' ∧ r'.SameValues r ∧ r' ≠ r) ∧
      ∃ r', resolve (r.stated true) {} = .ok r' ∧ r'.SameValues r := by
  have hr : resolve repeatingConfig hidingOverrides = .ok (layered repeatingConfig hidingOverrides .warning) := rfl
  have hstates : restatedConfig.States (layered repeatingConfig hidingOverrides .warning) :=
    ⟨rfl, rfl, rfl, by decide, "warn", rfl, rfl⟩
  obtain ⟨r', hr', hsame⟩ := resolve_restated.1 _ _ _ hr restatedConfig hstates (.inr rfl)
  refine ⟨_, hr, hstates, rfl, rfl, ⟨r', hr', hsame, ?_⟩,
    resolve_restated.1 _ _ _ hr _ (states_stated _ true) (.inl rfl)⟩
  -- The values are the same, but one of them came from the caller and comes from the configuration now.
  rintro rfl
  exact absurd hr' (by decide)

end EffectiveRegistry

end SurfaceRegistry
