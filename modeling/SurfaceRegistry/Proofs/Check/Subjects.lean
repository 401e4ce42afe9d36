import SurfaceRegistry.Proofs.Check.Order
import SurfaceRegistry.Proofs.Check.Verdict

/-!
# One finding for each value

The probe looks only at places of sound values, and at the package only in a directory that is there. So no value has
both a finding of the rules and one of the probe. What a look at the nightly tests comes to is one of five cases
(`Layout.NightlyLook`), and in the only one in which sources are counted there is nothing to report about the two
values of the nightly tests.
-/

namespace SurfaceRegistry

namespace Rules

theorem Subject.text_injective : Function.Injective Subject.text := by
  intro s t
  cases s <;> cases t <;> decide

/-- The findings about one of the values. -/
def findingsAbout (s : Subject) (fs : List Finding) : List Finding :=
  fs.filter fun f => f.subject = some s.text

variable {s t : Subject} {f : Finding} {fs gs : List Finding}

theorem findingsAbout_eq_nil_iff : findingsAbout s fs = [] ↔ ∀ f ∈ fs, f.subject ≠ some s.text := by
  simp only [findingsAbout, List.filter_eq_nil_iff, decide_eq_true_iff, ne_eq]

theorem findingsAbout_append : findingsAbout s (fs ++ gs) = findingsAbout s fs ++ findingsAbout s gs :=
  List.filter_append fs gs

/-- A finding about a value counts for this value alone. -/
theorem findingsAbout_toList {o : Option Finding} (h : ∀ f, o = some f → f.subject = some t.text) :
    findingsAbout s o.toList = if s = t then o.toList else [] := by
  cases o with
  | none => exact (ite_self []).symm
  | some f =>
    rw [findingsAbout, Option.toList_some, List.filter_singleton, h f rfl]
    by_cases hst : s = t
    · simp [hst]
    · have hne : t.text ≠ s.text := fun heq => hst (Subject.text_injective heq).symm
      simp [hst, hne]

/-- No finding about an ignored type is about one of the values. -/
theorem findingsAbout_checkIgnoredTypes (s : Subject) (earlier types : List String) :
    findingsAbout s (checkIgnoredTypes earlier types) = [] := by
  refine List.filter_eq_nil_iff.mpr fun f hf hs => ?_
  obtain ⟨i, -, habout⟩ := exists_isAbout_of_mem hf
  rw [decide_eq_true_iff, habout.subject] at hs
  exact s.text_ne_ignoredTypeSubject i (Option.some.inj hs).symm

/-- What the rules say about one of the values. -/
def Outcome.about (o : Outcome) : Subject → Option Finding
  | .apiSurfacePath => o.apiSurface
  | .nightlyTestsDirectoryPath => o.nightlyDirectory
  | .nightlyTestsPackage => o.package

theorem findingsAbout_findings (r : EffectiveRegistry) (s : Subject) :
    findingsAbout s (evaluate r).findings = ((evaluate r).about s).toList := by
  have hsurface : findingsAbout s (evaluate r).apiSurface.toList = _ :=
    findingsAbout_toList fun _ => subject_of_checkPath
  have hdirectory : findingsAbout s (evaluate r).nightlyDirectory.toList = _ :=
    findingsAbout_toList fun _ => subject_of_checkPath
  have hpackage : findingsAbout s (evaluate r).package.toList = _ :=
    findingsAbout_toList fun _ => subject_of_checkPackage
  have htypes : findingsAbout s (evaluate r).ignoredTypes = [] := findingsAbout_checkIgnoredTypes s [] _
  rw [Outcome.findings, findingsAbout_append, findingsAbout_append, findingsAbout_append, hsurface, hdirectory,
    hpackage, htypes]
  cases s <;> simp [Outcome.about]

end Rules

/-! ### The look at the nightly tests -/

namespace Layout

open Rules

/-- What the look at the nightly tests of a registry comes to. -/
inductive NightlyLook (v : View) (root : String) (r : EffectiveRegistry) :
    Option Finding × Option (UInt32 × String) → Prop where
  /-- The rules object to their directory: nothing is looked at. -/
  | unsoundDirectory {f : Finding} (hd : (evaluate r).nightlyDirectory = some f) : NightlyLook v root r (none, none)
  /-- Their directory is not there, which is reported. -/
  | missingDirectory (hd : (evaluate r).nightlyDirectory = none)
      (hkind : v.kind (placeAt root (.ofText r.nightlyTestsDirectoryPath.value)) ≠ some .directory) :
      NightlyLook v root r (some (nightlyDirMissing (.ofText r.nightlyTestsDirectoryPath.value)
        (v.kind (placeAt root (.ofText r.nightlyTestsDirectoryPath.value)))), none)
  /-- It is, but the rules object to their package. -/
  | unsoundPackage {f : Finding} (hd : (evaluate r).nightlyDirectory = none)
      (hkind : v.kind (placeAt root (.ofText r.nightlyTestsDirectoryPath.value)) = some .directory)
      (hp : (evaluate r).package = some f) : NightlyLook v root r (none, none)
  /-- Both values are sound, but the package is not there, which is reported. -/
  | missingPackage (path : RepoPath) (hd : (evaluate r).nightlyDirectory = none)
      (hkind : v.kind (placeAt root (.ofText r.nightlyTestsDirectoryPath.value)) = some .directory)
      (hp : (evaluate r).package = none) : NightlyLook v root r (some (nightlyPackageMissing path), none)
  /-- All is there, and the sources are counted. -/
  | counted (sources : UInt32 × String) (hd : (evaluate r).nightlyDirectory = none)
      (hkind : v.kind (placeAt root (.ofText r.nightlyTestsDirectoryPath.value)) = some .directory)
      (hp : (evaluate r).package = none) : NightlyLook v root r (none, some sources)

theorem nightlyLook (v : View) (root : String) (r : EffectiveRegistry) :
    NightlyLook v root r (probeNightly v root (places r (evaluate r))) := by
  unfold probeNightly places
  cases hd : (evaluate r).nightlyDirectory with
  | some f => exact .unsoundDirectory hd
  | none =>
    simp only [soundPath, Option.isNone_none, if_true, Option.bind_some]
    split
    case isFalse hkind => exact .missingDirectory hd hkind
    case isTrue hkind =>
      cases hp : (evaluate r).package with
      | some f => exact .unsoundPackage hd hkind hp
      | none =>
        simp only [probePackage, Option.isNone_none, if_true]
        split
        · exact .counted _ hd hkind hp
        · exact .missingPackage _ hd hkind hp

/-- A listing whose value the rules object to is not looked at. -/
theorem probeApiSurface_eq_none_of_finding {v : View} {root : String} {r : EffectiveRegistry} {f : Finding}
    (h : (evaluate r).apiSurface = some f) : probeApiSurface v root (places r (evaluate r)).apiSurface = none := by
  rw [places, h]
  rfl

theorem probeApiSurface_cases {v : View} {root : String} {p : Option RepoPath} {f : Finding}
    (h : probeApiSurface v root p = some f) : f.subject = some Subject.apiSurfacePath.text ∧
      (f.code = FindingCode.apiSurfaceNotFile.text ∨ f.code = FindingCode.apiSurfaceMissing.text) := by
  cases p with
  | none => cases h
  | some path =>
    rw [probeApiSurface] at h
    unfold checkApiSurface at h
    split at h
    · cases h
    · cases h
      exact ⟨rfl, .inl rfl⟩
    · cases h
      exact ⟨rfl, .inr rfl⟩

/-! ### The findings about a value -/

variable {v : View} {root : String} {r : EffectiveRegistry}

theorem findingsAbout_probe (s : Subject) :
    findingsAbout s (probe v root (places r (evaluate r))).findings =
      (if s = .apiSurfacePath then (probeApiSurface v root (places r (evaluate r)).apiSurface).toList else []) ++
        findingsAbout s (probeNightly v root (places r (evaluate r))).1.toList := by
  rw [← findingsAbout_toList fun _ h => (probeApiSurface_cases h).1, ← findingsAbout_append]
  rfl

variable {w : Option Finding × Option (UInt32 × String)}

/-- The look at the nightly tests tells nothing about the listing of the API surface. -/
theorem NightlyLook.findingsAbout_apiSurfacePath (h : NightlyLook v root r w) :
    findingsAbout .apiSurfacePath w.1.toList = [] := by
  cases h with
  | unsoundDirectory hd => rfl
  | missingDirectory hd hkind => rfl
  | unsoundPackage hd hkind hp => rfl
  | missingPackage path hd hkind hp => rfl
  | counted sources hd hkind hp => rfl

/-- Together with the rules it has at most one thing to say about each value of the nightly tests, and nothing about
both if it counts sources. -/
theorem NightlyLook.exists_findingsAbout (h : NightlyLook v root r w) :
    ∃ d p : Option Finding,
      findingsAbout .nightlyTestsDirectoryPath w.1.toList ++ (evaluate r).nightlyDirectory.toList = d.toList ∧
      findingsAbout .nightlyTestsPackage w.1.toList ++ (evaluate r).package.toList = p.toList ∧
      (w.2.isSome ↔ d = none ∧ p = none) := by
  cases h with
  | unsoundDirectory hd =>
    exact ⟨some _, (evaluate r).package, by rw [hd]; rfl, rfl, by simp⟩
  | missingDirectory hd hkind =>
    exact ⟨some _, (evaluate r).package, by rw [hd]; rfl, rfl, by simp⟩
  | unsoundPackage hd hkind hp =>
    exact ⟨none, some _, by rw [hd]; rfl, by rw [hp]; rfl, by simp⟩
  | missingPackage path hd hkind hp =>
    exact ⟨none, some _, by rw [hd]; rfl, by rw [hp]; rfl, by simp⟩
  | counted sources hd hkind hp =>
    exact ⟨none, none, by rw [hd]; rfl, by rw [hp]; rfl, by simp⟩

/-- It tells that the package is not there only of sound values, and of a directory that is there. -/
theorem NightlyLook.of_packageMissing {f : Finding} (h : NightlyLook v root r w) (hf : w.1 = some f)
    (hcode : f.code = FindingCode.nightlyPackageMissing.text) :
    v.kind (placeAt root (.ofText r.nightlyTestsDirectoryPath.value)) = some .directory ∧
      (evaluate r).nightlyDirectory = none ∧ (evaluate r).package = none := by
  cases h with
  | unsoundDirectory hd => cases hf
  | missingDirectory hd hkind =>
    cases hf
    cases Finding.code_unique .nightlyDirMissing rfl hcode
  | unsoundPackage hd hkind hp => cases hf
  | missingPackage path hd hkind hp => exact ⟨hkind, hd, hp⟩
  | counted sources hd hkind hp => cases hf

/-- About the listing of the API surface there is at most one thing to say, too. -/
theorem exists_findingsAbout_apiSurfacePath (v : View) (root : String) (r : EffectiveRegistry) :
    ∃ a : Option Finding,
      (probeApiSurface v root (places r (evaluate r)).apiSurface).toList ++ (evaluate r).apiSurface.toList = a.toList := by
  cases h : (evaluate r).apiSurface with
  | none => exact ⟨_, List.append_nil _⟩
  | some f =>
    rw [probeApiSurface_eq_none_of_finding h]
    exact ⟨some f, rfl⟩

end Layout

namespace Check

open Rules

theorem findingsAbout_found (root : String) (v : Layout.View) (r : EffectiveRegistry) (s : Subject) :
    findingsAbout s (found root (some v) r) =
      findingsAbout s (Layout.probe v root (Layout.places r (evaluate r))).findings ++
        ((evaluate r).about s).toList := by
  rw [← findingsAbout_findings, ← findingsAbout_append]
  rfl

/-- What a check with a look at the repository finds about the three values: at most one thing about each of them, and
nothing about those of the nightly tests exactly if it counts sources. -/
theorem exists_findingsAbout_found (root : String) (v : Layout.View) (r : EffectiveRegistry) :
    ∃ o : Subject → Option Finding, (∀ s, findingsAbout s (found root (some v) r) = (o s).toList) ∧
      ((Layout.probeNightly v root (Layout.places r (evaluate r))).2.isSome ↔
        o .nightlyTestsDirectoryPath = none ∧ o .nightlyTestsPackage = none) := by
  have hlook := Layout.nightlyLook v root r
  obtain ⟨a, ha⟩ := Layout.exists_findingsAbout_apiSurfacePath v root r
  obtain ⟨d, p, hd, hp, hcounted⟩ := hlook.exists_findingsAbout
  refine ⟨fun | .apiSurfacePath => a | .nightlyTestsDirectoryPath => d | .nightlyTestsPackage => p,
    fun s => ?_, hcounted⟩
  rw [findingsAbout_found, Layout.findingsAbout_probe]
  cases s with
  | apiSurfacePath =>
    rw [hlook.findingsAbout_apiSurfacePath, if_pos rfl, List.append_nil]
    exact ha
  | nightlyTestsDirectoryPath => exact hd
  | nightlyTestsPackage => exact hp

variable {times : CheckTimes} {root text : String} {v : Layout.View} {r : EffectiveRegistry} {f : Finding}

/-- The report holds the same about the three values. -/
theorem exists_findingsAbout_report (times : CheckTimes) (root : String) (v : Layout.View) (r : EffectiveRegistry) :
    ∃ o : Subject → Option Finding,
      (∀ s, findingsAbout s (ofRegistry times root (some v) r).report.findings = (o s).toList) ∧
      ((ofRegistry times root (some v) r).report.data.nightlySources.isSome ↔
        o .nightlyTestsDirectoryPath = none ∧ o .nightlyTestsPackage = none) := by
  obtain ⟨o, ho, hcounted⟩ := exists_findingsAbout_found root v r
  refine ⟨o, fun s => ?_, ?_⟩
  · have hperm : (findingsAbout s (ofRegistry times root (some v) r).report.findings).Perm (o s).toList := by
      rw [← ho s, findings_eq_sort_found]
      exact (List.mergeSort_perm _ _).filter _
    -- With at most one finding there is nothing to sort.
    cases hs : o s with
    | none =>
      rw [hs] at hperm
      exact hperm.eq_nil
    | some f =>
      rw [hs] at hperm
      exact List.perm_singleton.mp hperm
  · have hsources : (ofRegistry times root (some v) r).report.data.nightlySources =
        (Layout.probeNightly v root (Layout.places r (evaluate r))).2.map Prod.fst := rfl
    rw [hsources, Option.isSome_map]
    exact hcounted

/-- A missing package is told in one case of the look at the nightly tests, and nowhere else. -/
theorem nightlyLook_of_packageMissing (hf : f ∈ found root (some v) r)
    (hcode : f.code = FindingCode.nightlyPackageMissing.text) :
    v.kind (Layout.placeAt root (.ofText r.nightlyTestsDirectoryPath.value)) = some .directory ∧
      (evaluate r).nightlyDirectory = none ∧ (evaluate r).package = none := by
  rcases List.mem_append.mp hf with hf | hf
  · rcases List.mem_append.mp hf with hf | hf
    · rcases (Layout.probeApiSurface_cases (Option.mem_toList.mp hf)).2 with hsurface | hsurface
      · cases Finding.code_unique _ hsurface hcode
      · cases Finding.code_unique _ hsurface hcode
    · exact (Layout.nightlyLook v root r).of_packageMissing (Option.mem_toList.mp hf) hcode
  · exact absurd hcode ((Rules.isFinding_of_mem hf).code_ne (by decide))

/-- A report of a look at the repository has at most one finding about each value, of the rules or of the probe. It has
a number of sources exactly if it has nothing to say about the values of the nightly tests, and that their package is
not there only if both values are sound and the directory is there. -/
theorem run_explains {o : Overrides} {out : Output} (h : run times root text o (some v) = .ok out) :
    (∀ s : Subject, (findingsAbout s out.report.findings).length ≤ 1) ∧
    (∀ s : Subject, ∀ f ∈ findingsAbout s out.report.findings, f.checkId = CheckId.repoLayout.text →
      ∀ g ∈ findingsAbout s out.report.findings,
        g.checkId ≠ CheckId.registryValues.text ∧ g.checkId ≠ CheckId.registryPaths.text) ∧
    (out.report.data.nightlySources.isSome ↔ ∀ f ∈ out.report.findings,
      f.subject ≠ some Subject.nightlyTestsDirectoryPath.text ∧
        f.subject ≠ some Subject.nightlyTestsPackage.text) ∧
    ∀ f ∈ out.report.findings, f.code = FindingCode.nightlyPackageMissing.text →
      v.kind (Layout.placeAt root (.ofText out.registry.nightlyTestsDirectoryPath.value)) = some .directory ∧
        SoundPath out.registry.nightlyTestsDirectoryPath.value ∧
        SoundPackage out.registry.nightlyTestsPackage.value := by
  obtain ⟨r, -, rfl⟩ := run_eq_ok h
  obtain ⟨o, ho, hcounted⟩ := exists_findingsAbout_report times root v r
  refine ⟨fun s => ?_, fun s f hf hlayout g hg => ?_, ?_, fun f hf hcode => ?_⟩
  · rw [ho]
    exact Option.length_toList_le
  · rw [ho, Option.mem_toList] at hf hg
    obtain rfl := Option.some.inj (hf.symm.trans hg)
    rw [hlayout]
    exact ⟨by decide, by decide⟩
  · have hnone (s : Subject) : o s = none ↔ ∀ f ∈ (ofRegistry times root (some v) r).report.findings,
        f.subject ≠ some s.text := by
      rw [← findingsAbout_eq_nil_iff, ho, Option.toList_eq_nil_iff]
    rw [hcounted, hnone, hnone, ← forall₂_and]
  · rw [findings_eq_sort_found, Finding.sort, List.mem_mergeSort] at hf
    obtain ⟨hkind, hd, hp⟩ := nightlyLook_of_packageMissing hf hcode
    exact ⟨hkind, checkPath_eq_none_iff.mp hd, checkPackage_eq_none_iff.mp hp⟩

/-- Values of a repository that lacks the package, and a listing outside of it. -/
def missingPackageOverrides : Overrides where
  apiSurfacePath := some "/listing"
  nightlyTestsDirectoryPath := some "tests"
  nightlyTestsPackage := some "com/y"

/-- The rules object to the listing, so the probe does not look for it; it looks for the package, as there is a directory
for it to be in. -/
theorem run_explains_of_missingPackage :
    ∃ out, run ⟨.epoch, .epoch⟩ "repo" "" missingPackageOverrides (some linkedMachine.view) = .ok out ∧
      (∃ f ∈ out.report.findings, f.code = FindingCode.nightlyPackageMissing.text ∧
        f.subject = some Subject.nightlyTestsPackage.text) ∧
      linkedMachine.view.kind "repo/tests" = some .directory ∧ out.report.data.nightlySources = none ∧
      ∀ s : Subject, (findingsAbout s out.report.findings).length ≤ 1 := by
  obtain ⟨r, hr, hplace, f, hf, hcode, hsubject⟩ : ∃ r, EffectiveRegistry.load "" missingPackageOverrides = .ok r ∧
      Layout.placeAt "repo" (.ofText r.nightlyTestsDirectoryPath.value) = "repo/tests" ∧
      ∃ f ∈ found "repo" (some linkedMachine.view) r, f.code = FindingCode.nightlyPackageMissing.text ∧
        f.subject = some Subject.nightlyTestsPackage.text :=
    ⟨_, rfl, by decide +kernel, by decide +kernel⟩
  have hrun : run ⟨.epoch, .epoch⟩ "repo" "" missingPackageOverrides (some linkedMachine.view) = _ :=
    run_of_load hr _ _ _
  have hreported : f ∈ (ofRegistry ⟨.epoch, .epoch⟩ "repo" (some linkedMachine.view) r).report.findings := by
    rw [findings_eq_sort_found, Finding.sort, List.mem_mergeSort]
    exact hf
  obtain ⟨hone, -, hcounted, hmissing⟩ := run_explains hrun
  refine ⟨_, hrun, ⟨f, hreported, hcode, hsubject⟩, hplace ▸ (hmissing f hreported hcode).1, ?_, hone⟩
  rw [← Option.not_isSome_iff_eq_none, hcounted]
  exact fun h => (h f hreported).2 hsubject

end Check

end SurfaceRegistry
