import SurfaceRegistry.Check

/-!
# The findings of a check

Every finding of a check is of one of ten kinds: six that the rules make about values, and four that the
probe makes about the repository. `Check.isFinding_of_mem` says so once for every check, and what holds of
each kind holds of every finding.
-/

namespace SurfaceRegistry

theorem FindingCode.text_injective : Function.Injective text := by
  intro a b
  cases a <;> cases b <;> decide

/-- A finding has one code. -/
theorem Finding.code_unique {f : Finding} (c : FindingCode) {d : FindingCode} (hc : f.code = c.text)
    (hd : f.code = d.text) : c = d :=
  FindingCode.text_injective (hc.symm.trans hd)

namespace Rules

/-- The findings that the rules make. -/
inductive IsFinding : Finding → Prop where
  /-- A value is the empty text. -/
  | emptyValue (subject : Subject) : IsFinding (emptyValue subject)
  /-- A path starts at a root. -/
  | absolutePath (subject : Subject) (value : String) : IsFinding (absolutePath subject value)
  /-- A path climbs above the root of the repository. -/
  | parentEscape (subject : Subject) (value : String) : IsFinding (parentEscape subject value)
  /-- The package is not a package path. -/
  | invalidPackage (value : String) (e : PackagePathError) : IsFinding (invalidPackage value e)
  /-- An ignored type is not a type name. -/
  | invalidTypeName (index : Nat) (value : String) (e : TypeNameError) :
      IsFinding (invalidTypeName index value e)
  /-- An ignored type is listed again. -/
  | duplicateIgnoredType (index first : Nat) (value : String) :
      IsFinding (duplicateIgnoredType index first value)

/-- What the rules can find about a path. -/
theorem checkPath_cases {subject : Subject} {value : String} {f : Finding}
    (h : checkPath subject value = some f) :
    f = emptyValue subject ∨ f = absolutePath subject value ∨ f = parentEscape subject value := by
  unfold checkPath at h
  split at h
  · exact .inl (Option.some.inj h).symm
  split at h
  · exact .inr (.inl (Option.some.inj h).symm)
  split at h
  · exact .inr (.inr (Option.some.inj h).symm)
  · cases h

/-- What the rules can find about the package. -/
theorem checkPackage_cases {value : String} {f : Finding} (h : checkPackage value = some f) :
    f = emptyValue .nightlyTestsPackage ∨
      ∃ e, PackagePath.parse value = .error e ∧ f = invalidPackage value e := by
  unfold checkPackage at h
  split at h
  · exact .inl (Option.some.inj h).symm
  split at h
  · cases h
  · rename_i e he
    exact .inr ⟨e, he, (Option.some.inj h).symm⟩

/-- What the rules can find about the ignored type at an index. -/
inductive IsAbout (types : List String) (i : Nat) : Finding → Prop where
  /-- It is not a type name. -/
  | invalid {name : String} {e : TypeNameError} (hi : types[i]? = some name)
      (he : TypeName.parse name = .error e) : IsAbout types i (invalidTypeName i name e)
  /-- It is listed again. -/
  | duplicate {name : String} (first : Nat) (hi : types[i]? = some name) :
      IsAbout types i (duplicateIgnoredType i first name)

theorem isAbout_of_mem_checkTypeName {earlier r : List String} {value : String} {f : Finding}
    (h : f ∈ checkTypeName earlier.length value) :
    IsAbout (earlier ++ value :: r) earlier.length f ∧ f.code = FindingCode.invalidTypeName.text := by
  unfold checkTypeName at h
  split at h
  · simp at h
  · rename_i e he
    obtain rfl := List.mem_singleton.mp h
    exact ⟨.invalid (by simp) he, rfl⟩

theorem isAbout_of_mem_checkRepetition {earlier r : List String} {value : String} {f : Finding}
    (h : f ∈ checkRepetition earlier value) :
    IsAbout (earlier ++ value :: r) earlier.length f ∧
      f.code = FindingCode.duplicateIgnoredType.text := by
  unfold checkRepetition at h
  split at h
  · simp at h
  · rename_i first _
    obtain rfl := List.mem_singleton.mp h
    exact ⟨.duplicate first (by simp), rfl⟩

/-- Every finding about the types that follow others is about one of them. -/
theorem exists_isAbout_of_mem {earlier types : List String} {f : Finding}
    (h : f ∈ checkIgnoredTypes earlier types) :
    ∃ i, earlier.length ≤ i ∧ IsAbout (earlier ++ types) i f := by
  induction types generalizing earlier with
  | nil => simp [checkIgnoredTypes] at h
  | cons value r ih =>
    rw [checkIgnoredTypes, List.mem_append, List.mem_append] at h
    rcases h with (h | h) | h
    · exact ⟨earlier.length, Nat.le_refl _, (isAbout_of_mem_checkTypeName h).1⟩
    · exact ⟨earlier.length, Nat.le_refl _, (isAbout_of_mem_checkRepetition h).1⟩
    · obtain ⟨i, hi, hf⟩ := ih h
      rw [List.length_append] at hi
      rw [List.append_assoc] at hf
      exact ⟨i, Nat.le_of_succ_le hi, hf⟩

theorem isFinding_of_checkPath {subject : Subject} {value : String} {f : Finding}
    (h : checkPath subject value = some f) : IsFinding f := by
  rcases checkPath_cases h with rfl | rfl | rfl
  · exact .emptyValue subject
  · exact .absolutePath subject value
  · exact .parentEscape subject value

theorem isFinding_of_checkPackage {value : String} {f : Finding} (h : checkPackage value = some f) :
    IsFinding f := by
  rcases checkPackage_cases h with rfl | ⟨e, -, rfl⟩
  · exact .emptyValue .nightlyTestsPackage
  · exact .invalidPackage value e

theorem isFinding_of_mem_checkIgnoredTypes {earlier types : List String} {f : Finding}
    (h : f ∈ checkIgnoredTypes earlier types) : IsFinding f := by
  obtain ⟨i, -, hf⟩ := exists_isAbout_of_mem h
  cases hf with
  | invalid hi he => exact .invalidTypeName i _ _
  | duplicate first hi => exact .duplicateIgnoredType i first _

theorem isFinding_of_mem {r : EffectiveRegistry} {f : Finding} (h : f ∈ (evaluate r).findings) :
    IsFinding f := by
  simp only [evaluate, Outcome.findings, List.mem_append, Option.mem_toList] at h
  rcases h with ((h | h) | h) | h
  · exact isFinding_of_checkPath h
  · exact isFinding_of_checkPath h
  · exact isFinding_of_checkPackage h
  · exact isFinding_of_mem_checkIgnoredTypes h

/-- The rules are two checks. -/
theorem IsFinding.checkId_cases {f : Finding} (h : IsFinding f) :
    f.checkId = CheckId.registryValues.text ∨ f.checkId = CheckId.registryPaths.text := by
  cases h with
  | emptyValue _ => exact .inl rfl
  | absolutePath _ _ => exact .inr rfl
  | parentEscape _ _ => exact .inr rfl
  | invalidPackage _ _ => exact .inl rfl
  | invalidTypeName _ _ _ => exact .inl rfl
  | duplicateIgnoredType _ _ _ => exact .inl rfl

/-- The codes of these findings. -/
def codes : List FindingCode :=
  [.emptyValue, .absolutePath, .parentEscape, .invalidPackage, .invalidTypeName, .duplicateIgnoredType]

theorem IsFinding.exists_code {f : Finding} (h : IsFinding f) : ∃ c ∈ codes, f.code = c.text := by
  cases h with
  | emptyValue _ => exact ⟨.emptyValue, by decide, rfl⟩
  | absolutePath _ _ => exact ⟨.absolutePath, by decide, rfl⟩
  | parentEscape _ _ => exact ⟨.parentEscape, by decide, rfl⟩
  | invalidPackage _ _ => exact ⟨.invalidPackage, by decide, rfl⟩
  | invalidTypeName _ _ _ => exact ⟨.invalidTypeName, by decide, rfl⟩
  | duplicateIgnoredType _ _ _ => exact ⟨.duplicateIgnoredType, by decide, rfl⟩

theorem IsFinding.code_ne {f : Finding} (h : IsFinding f) {c : FindingCode} (hc : c ∉ codes) :
    f.code ≠ c.text := by
  obtain ⟨d, hd, hf⟩ := h.exists_code
  exact fun heq => hc (Finding.code_unique d hf heq ▸ hd)

end Rules

namespace Layout

/-- A repository in which there is nothing. -/
def emptyView : View where
  kind _ := none
  sources _ := 0

/-- The findings that the probe makes. -/
inductive IsFinding : Finding → Prop where
  /-- The listing of the API surface is a directory. -/
  | apiSurfaceNotFile (path : RepoPath) : IsFinding
      (finding .error .apiSurfaceNotFile "API surface path is a directory: " .apiSurfacePath path .null)
  /-- There is no listing of the API surface. -/
  | apiSurfaceMissing (path : RepoPath) : IsFinding
      (finding .warning .apiSurfaceMissing "API surface file not found: " .apiSurfacePath path .null)
  /-- There is no directory of nightly tests. -/
  | nightlyDirMissing (path : RepoPath) (kind : Option NodeKind) : IsFinding (nightlyDirMissing path kind)
  /-- There is no directory for the package of the nightly tests. -/
  | nightlyPackageMissing (path : RepoPath) : IsFinding (nightlyPackageMissing path)

theorem isFinding_of_probeApiSurface {v : View} {root : String} {p : Option RepoPath} {f : Finding}
    (h : probeApiSurface v root p = some f) : IsFinding f := by
  cases p with
  | none => cases h
  | some path =>
    rw [probeApiSurface] at h
    unfold checkApiSurface at h
    split at h
    · cases h
    · cases h
      exact .apiSurfaceNotFile path
    · cases h
      exact .apiSurfaceMissing path

theorem isFinding_of_probePackage {v : View} {root : String} {p : Option RepoPath} {f : Finding}
    (h : (probePackage v root p).1 = some f) : IsFinding f := by
  cases p with
  | none => cases h
  | some path =>
    simp only [probePackage] at h
    split at h
    · cases h
    · cases h
      exact .nightlyPackageMissing path

theorem isFinding_of_probeNightly {v : View} {root : String} {p : Places} {f : Finding}
    (h : (probeNightly v root p).1 = some f) : IsFinding f := by
  unfold probeNightly at h
  split at h
  · cases h
  · simp only at h
    split at h
    · exact isFinding_of_probePackage h
    · cases h
      exact .nightlyDirMissing _ _

theorem isFinding_of_mem {v : View} {root : String} {p : Places} {f : Finding}
    (h : f ∈ (probe v root p).findings) : IsFinding f := by
  simp only [probe, Outcome.findings, List.mem_append, Option.mem_toList] at h
  rcases h with h | h
  · exact isFinding_of_probeApiSurface h
  · exact isFinding_of_probeNightly h

/-- The probe is one check. -/
theorem IsFinding.checkId_eq {f : Finding} (h : IsFinding f) : f.checkId = CheckId.repoLayout.text := by
  cases h <;> rfl

/-- The codes of these findings. -/
def codes : List FindingCode :=
  [.apiSurfaceNotFile, .apiSurfaceMissing, .nightlyDirMissing, .nightlyPackageMissing]

theorem IsFinding.exists_code {f : Finding} (h : IsFinding f) : ∃ c ∈ codes, f.code = c.text := by
  cases h with
  | apiSurfaceNotFile _ => exact ⟨.apiSurfaceNotFile, by decide, rfl⟩
  | apiSurfaceMissing _ => exact ⟨.apiSurfaceMissing, by decide, rfl⟩
  | nightlyDirMissing _ _ => exact ⟨.nightlyDirMissing, by decide, rfl⟩
  | nightlyPackageMissing _ => exact ⟨.nightlyPackageMissing, by decide, rfl⟩

theorem IsFinding.code_ne {f : Finding} (h : IsFinding f) {c : FindingCode} (hc : c ∉ codes) :
    f.code ≠ c.text := by
  obtain ⟨d, hd, hf⟩ := h.exists_code
  exact fun heq => hc (Finding.code_unique d hf heq ▸ hd)

end Layout

namespace Check

@[simp] theorem mem_findings {rules : Rules.Outcome} {layout : Option Layout.Outcome} {f : Finding} :
    f ∈ findings rules layout ↔ f ∈ layout.elim [] Layout.Outcome.findings ∨ f ∈ rules.findings := by
  rw [findings, Finding.sort, List.mem_mergeSort, List.mem_append]

/-- What a check can find. -/
theorem isFinding_of_mem {times : CheckTimes} {root : String} {view : Option Layout.View}
    {r : EffectiveRegistry} {f : Finding} (h : f ∈ (ofRegistry times root view r).report.findings) :
    Rules.IsFinding f ∨ Layout.IsFinding f := by
  rcases mem_findings.mp h with h | h
  · cases view with
    | none => simp at h
    | some v => exact .inr (Layout.isFinding_of_mem h)
  · exact .inl (Rules.isFinding_of_mem h)

/-- A check that ends is one of the registry in force. -/
theorem run_eq_ok {times : CheckTimes} {root text : String} {o : Overrides} {view : Option Layout.View}
    {out : Output} (h : run times root text o view = .ok out) :
    ∃ r, EffectiveRegistry.load text o = .ok r ∧ out = ofRegistry times root view r := by
  unfold run at h
  cases hr : EffectiveRegistry.load text o with
  | error e => rw [hr] at h; cases h
  | ok r =>
    rw [hr] at h
    cases h
    exact ⟨r, rfl, rfl⟩

/-- A check of the registry in force ends. -/
theorem run_of_load {text : String} {o : Overrides} {r : EffectiveRegistry}
    (h : EffectiveRegistry.load text o = .ok r) (times : CheckTimes) (root : String)
    (view : Option Layout.View) : run times root text o view = .ok (ofRegistry times root view r) := by
  rw [run, h]
  rfl

/-- A check that does not end is one without a registry in force. -/
theorem run_eq_error_iff {times : CheckTimes} {root text : String} {o : Overrides}
    {view : Option Layout.View} {e : Failure} :
    run times root text o view = .error e ↔ EffectiveRegistry.load text o = .error e := by
  rw [run]
  cases EffectiveRegistry.load text o <;> simp [Except.map]

end Check

end SurfaceRegistry
