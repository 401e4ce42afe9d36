import SurfaceRegistry.Disk.Machine
import SurfaceRegistry.Proofs.Check.Findings
import SurfaceRegistry.Proofs.PackagePath

/-!
# What a passing check says

A check passes exactly when its list of findings is empty, since every finding is an error or a warning.
The rules find nothing exactly in sound values (`Rules.findings_eq_nil_iff`), and of sound values the probe
finds nothing exactly in a repository that holds what they name (`Layout.findings_eq_nil_iff`). Neither the
order of the findings nor what a check fails on has a part in this.
-/

namespace SurfaceRegistry

/-! ### Values -/

namespace Rules

/-- A path that has no finding. -/
structure SoundPath (value : String) : Prop where
  /-- It is stated. -/
  ne_empty : value ≠ ""
  /-- It is relative. -/
  relative : (RepoPath.ofText value).isAbsolute = false
  /-- It stays below the root of the repository. -/
  confined : (RepoPath.ofText value).escapesRoot = false

/-- A package that has no finding: identifiers between slashes. -/
def SoundPackage (value : String) : Prop :=
  ∃ is : List Identifier, is ≠ [] ∧ value.toList = Text.joinWith '/' (is.map Identifier.chars)

/-- A registry whose values have no finding. -/
structure Sound (r : EffectiveRegistry) : Prop where
  /-- The listing of the API surface has a path in the repository. -/
  apiSurface : SoundPath r.apiSurfacePath.value
  /-- So has the source root of the nightly tests. -/
  nightlyDirectory : SoundPath r.nightlyTestsDirectoryPath.value
  /-- Their package is one. -/
  package : SoundPackage r.nightlyTestsPackage.value
  /-- The ignored types are type names. -/
  typeNames : ∀ name ∈ r.ignoredTypes, ∃ t, TypeName.parse name = .ok t
  /-- None of them is listed twice. -/
  nodup : r.ignoredTypes.Nodup

@[simp] theorem checkPath_eq_none_iff {subject : Subject} {value : String} :
    checkPath subject value = none ↔ SoundPath value := by
  unfold checkPath
  constructor
  · intro h
    split at h
    · cases h
    split at h
    · cases h
    split at h
    · cases h
    rename_i h1 h2 h3
    exact ⟨by simpa using h1, by simpa using h2, by simpa using h3⟩
  · rintro ⟨h1, h2, h3⟩
    rw [if_neg (by simpa using h1), if_neg (by simp [h2]), if_neg (by simp [h3])]

theorem soundPackage_iff {value : String} :
    SoundPackage value ↔ ∃ p, PackagePath.parse value = .ok p := by
  constructor
  · rintro ⟨is, hne, hv⟩
    refine ⟨⟨is, hne⟩, PackagePath.parse_eq_ok_iff.mpr ?_⟩
    rw [← String.toList_inj, PackagePath.text_toList, hv]
  · rintro ⟨p, hp⟩
    refine ⟨p.segments, p.segments_ne_nil, ?_⟩
    rw [← PackagePath.parse_eq_ok_iff.mp hp, PackagePath.text_toList]

@[simp] theorem checkPackage_eq_none_iff {value : String} :
    checkPackage value = none ↔ SoundPackage value := by
  rw [soundPackage_iff]
  unfold checkPackage
  split
  · rename_i hv
    refine iff_of_false (fun h => by cases h) ?_
    rintro ⟨p, hp⟩
    rw [PackagePath.parse, if_pos (by simpa using hv)] at hp
    cases hp
  · cases PackagePath.parse value with
    | ok p => exact iff_of_true rfl ⟨p, rfl⟩
    | error e =>
      refine iff_of_false (fun h => by cases h) ?_
      rintro ⟨p, hp⟩
      cases hp

theorem checkTypeName_eq_nil_iff {index : Nat} {value : String} :
    checkTypeName index value = [] ↔ ∃ t, TypeName.parse value = .ok t := by
  unfold checkTypeName
  cases TypeName.parse value with
  | ok t => exact iff_of_true rfl ⟨t, rfl⟩
  | error e =>
    refine iff_of_false (List.cons_ne_nil _ _) ?_
    rintro ⟨t, ht⟩
    cases ht

theorem checkRepetition_eq_nil_iff {earlier : List String} {value : String} :
    checkRepetition earlier value = [] ↔ value ∉ earlier := by
  unfold checkRepetition
  cases h : earlier.idxOf? value with
  | none => exact iff_of_true rfl (List.idxOf?_eq_none_iff.mp h)
  | some i =>
    refine iff_of_false (List.cons_ne_nil _ _) (not_not.mpr ?_)
    by_contra hv
    rw [List.idxOf?_eq_none_iff.mpr hv] at h
    cases h

/-- The types after others have no finding if each is a name that neither the others nor the types
between hold. -/
@[simp] theorem checkIgnoredTypes_eq_nil_iff {earlier types : List String} :
    checkIgnoredTypes earlier types = [] ↔
      (∀ name ∈ types, ∃ t, TypeName.parse name = .ok t) ∧ types.Nodup ∧
        ∀ name ∈ types, name ∉ earlier := by
  induction types generalizing earlier with
  | nil => simp [checkIgnoredTypes]
  | cons value r ih =>
    rw [checkIgnoredTypes, List.append_eq_nil_iff, List.append_eq_nil_iff, checkTypeName_eq_nil_iff,
      checkRepetition_eq_nil_iff, ih, List.nodup_cons, List.forall_mem_cons, List.forall_mem_cons]
    have hr : (∀ name ∈ r, name ∉ earlier ++ [value]) ↔ value ∉ r ∧ ∀ name ∈ r, name ∉ earlier := by
      constructor
      · intro h
        refine ⟨fun hv => h value hv (by simp), fun name hn he => h name hn ?_⟩
        exact List.mem_append_left [value] he
      · rintro ⟨hv, h⟩ name hn hm
        rcases List.mem_append.mp hm with hm | hm
        · exact h name hn hm
        · exact hv (List.mem_singleton.mp hm ▸ hn)
    rw [hr]
    tauto

/-- The rules have nothing to say exactly about sound values. -/
theorem findings_eq_nil_iff {r : EffectiveRegistry} : (evaluate r).findings = [] ↔ Sound r := by
  simp only [Outcome.findings, evaluate, List.append_eq_nil_iff, Option.toList_eq_nil_iff,
    checkPath_eq_none_iff, checkPackage_eq_none_iff, checkIgnoredTypes_eq_nil_iff]
  constructor
  · rintro ⟨⟨⟨ha, hd⟩, hp⟩, ht, hn, -⟩
    exact ⟨ha, hd, hp, ht, hn⟩
  · rintro ⟨ha, hd, hp, ht, hn⟩
    exact ⟨⟨⟨ha, hd⟩, hp⟩, ht, hn, fun _ _ => List.not_mem_nil⟩

theorem IsFinding.severity {f : Finding} (h : IsFinding f) : f.severity = .error := by
  cases h <;> rfl

end Rules

/-! ### The repository -/

namespace Layout

/-- A repository at `root` that holds what a registry names. -/
structure LaidOut (v : View) (root : String) (r : EffectiveRegistry) : Prop where
  /-- The listing of the API surface is a file. -/
  apiSurface : v.kind (placeAt root (.ofText r.apiSurfacePath.value)) = some .file
  /-- The source root of the nightly tests is a directory. -/
  nightlyDirectory :
    v.kind (placeAt root (.ofText r.nightlyTestsDirectoryPath.value)) = some .directory
  /-- Their package is a directory in it. -/
  package :
    v.kind (placeAt root
      ((RepoPath.ofText r.nightlyTestsDirectoryPath.value).join r.nightlyTestsPackage.value)) =
      some .directory

theorem probeApiSurface_eq_none_iff {v : View} {root : String} {path : RepoPath} :
    probeApiSurface v root (some path) = none ↔ v.kind (placeAt root path) = some .file := by
  rw [probeApiSurface]
  unfold checkApiSurface
  split
  · rename_i hk
    exact iff_of_true rfl hk
  · rename_i hk
    rw [hk]
    exact iff_of_false (fun h => by cases h) (fun h => by cases h)
  · rename_i hk _
    exact iff_of_false (fun h => by cases h) hk

theorem probeNightly_eq_none_iff {v : View} {root : String} {a : Option RepoPath} {d p : RepoPath} :
    (probeNightly v root ⟨a, some d, some p⟩).1 = none ↔
      v.kind (placeAt root d) = some .directory ∧ v.kind (placeAt root p) = some .directory := by
  simp only [probeNightly, probePackage]
  by_cases hd : v.kind (placeAt root d) = some .directory
  · rw [if_pos hd]
    by_cases hp : v.kind (placeAt root p) = some .directory
    · rw [if_pos hp]
      exact iff_of_true rfl ⟨hd, hp⟩
    · rw [if_neg hp]
      exact iff_of_false (fun h => by cases h) (fun h => hp h.2)
  · rw [if_neg hd]
    exact iff_of_false (fun h => by cases h) (fun h => hd h.1)

/-- Sound values name three places. -/
theorem places_of_sound {r : EffectiveRegistry} (h : Rules.Sound r) :
    places r (Rules.evaluate r) =
      ⟨some (.ofText r.apiSurfacePath.value), some (.ofText r.nightlyTestsDirectoryPath.value),
        some ((RepoPath.ofText r.nightlyTestsDirectoryPath.value).join r.nightlyTestsPackage.value)⟩ := by
  have ha : Rules.checkPath .apiSurfacePath r.apiSurfacePath.value = none :=
    Rules.checkPath_eq_none_iff.mpr h.apiSurface
  have hd : Rules.checkPath .nightlyTestsDirectoryPath r.nightlyTestsDirectoryPath.value = none :=
    Rules.checkPath_eq_none_iff.mpr h.nightlyDirectory
  have hp : Rules.checkPackage r.nightlyTestsPackage.value = none :=
    Rules.checkPackage_eq_none_iff.mpr h.package
  simp [places, soundPath, Rules.evaluate, ha, hd, hp]

/-- Of sound values the probe has nothing to say exactly if the repository holds what they name. -/
theorem findings_eq_nil_iff {v : View} {root : String} {r : EffectiveRegistry} (h : Rules.Sound r) :
    (probe v root (places r (Rules.evaluate r))).findings = [] ↔ LaidOut v root r := by
  rw [places_of_sound h, Outcome.findings, List.append_eq_nil_iff, Option.toList_eq_nil_iff,
    Option.toList_eq_nil_iff, probe, probeApiSurface_eq_none_iff, probeNightly_eq_none_iff]
  constructor
  · rintro ⟨ha, hd, hp⟩
    exact ⟨ha, hd, hp⟩
  · rintro ⟨ha, hd, hp⟩
    exact ⟨ha, hd, hp⟩

theorem IsFinding.severity {f : Finding} (h : IsFinding f) :
    f.severity = .error ∨ f.severity = .warning := by
  cases h with
  | apiSurfaceNotFile path => exact .inl rfl
  | apiSurfaceMissing path => exact .inr rfl
  | nightlyDirMissing path kind => exact .inr rfl
  | nightlyPackageMissing path => exact .inr rfl

end Layout

/-! ### The verdict -/

theorem VerdictCounts.countOf_eq_zero {s : Severity} {fs : List Finding}
    (h : ∀ f ∈ fs, f.severity ≠ s) : countOf s fs = 0 := by
  rw [countOf, List.countP_eq_zero.mpr (by simpa using h)]
  rfl

/-- The count of a list that is not too long is zero only if no finding is counted. -/
theorem VerdictCounts.countOf_eq_zero_iff {s : Severity} {fs : List Finding} (hl : fs.length < 2 ^ 32) :
    countOf s fs = 0 ↔ ∀ f ∈ fs, f.severity ≠ s := by
  refine ⟨fun h => ?_, countOf_eq_zero⟩
  have hc : fs.countP (fun f => f.severity = s) = 0 := by
    have hle := List.countP_le_length (p := fun f : Finding => decide (f.severity = s)) (l := fs)
    have hz := congrArg UInt32.toNat h
    rwa [countOf, UInt32.toNat_ofNat_of_lt' (Nat.lt_of_le_of_lt hle hl)] at hz
  simpa using List.countP_eq_zero.mp hc

theorem Verdict.ofCounts_eq_pass_iff {c : VerdictCounts} {failOn : FailOn} :
    ofCounts c failOn = .pass ↔ c.error = 0 ∧ c.warn = 0 := by
  unfold ofCounts
  by_cases he : c.error = 0
  · rw [if_neg (fun h => UInt32.pos_iff_ne_zero.mp h he)]
    by_cases hw : c.warn = 0
    · rw [if_neg (fun h => UInt32.pos_iff_ne_zero.mp h hw)]
      exact iff_of_true rfl ⟨he, hw⟩
    · rw [if_pos (UInt32.pos_iff_ne_zero.mpr hw)]
      exact iff_of_false (by cases failOn <;> decide) (fun h => hw h.2)
  · rw [if_pos (UInt32.pos_iff_ne_zero.mpr he)]
    exact iff_of_false (by decide) (fun h => he h.1)

/-- Without warnings there is no verdict between passing and failing. -/
theorem Verdict.ofCounts_ne_warn {c : VerdictCounts} {failOn : FailOn} (h : c.warn = 0) :
    ofCounts c failOn ≠ .warn := by
  unfold ofCounts
  rw [h, if_neg (show ¬ (0 : UInt32) < 0 by decide)]
  split <;> decide

namespace Check

variable {times : CheckTimes} {root : String} {r : EffectiveRegistry}

/-- A check of a registry passes exactly if it finds nothing. -/
theorem verdict_eq_pass_iff {view : Option Layout.View}
    (hl : (ofRegistry times root view r).report.findings.length < 2 ^ 32) :
    (ofRegistry times root view r).report.verdict = .pass ↔
      (ofRegistry times root view r).report.findings = [] := by
  have hv : (ofRegistry times root view r).report.verdict =
      .ofCounts (.tally (ofRegistry times root view r).report.findings) r.failOn := rfl
  rw [hv, Verdict.ofCounts_eq_pass_iff, VerdictCounts.tally, VerdictCounts.countOf_eq_zero_iff hl,
    VerdictCounts.countOf_eq_zero_iff hl]
  constructor
  · rintro ⟨he, hw⟩
    refine List.eq_nil_iff_forall_not_mem.mpr fun f hf => ?_
    rcases isFinding_of_mem hf with h | h
    · exact he f hf h.severity
    · rcases h.severity with h | h
      · exact he f hf h
      · exact hw f hf h
  · intro h
    rw [h]
    exact ⟨fun f hf => absurd hf List.not_mem_nil, fun f hf => absurd hf List.not_mem_nil⟩

theorem findings_eq_nil_iff {rules : Rules.Outcome} {layout : Option Layout.Outcome} :
    findings rules layout = [] ↔ rules.findings = [] ∧ layout.elim [] Layout.Outcome.findings = [] := by
  rw [List.eq_nil_iff_forall_not_mem, List.eq_nil_iff_forall_not_mem, List.eq_nil_iff_forall_not_mem]
  simp only [mem_findings, not_or]
  exact ⟨fun h => ⟨fun f => (h f).2, fun f => (h f).1⟩, fun h f => ⟨h.2 f, h.1 f⟩⟩

/-- A check that looks at the repository finds nothing exactly if the values are sound and the
repository holds what they name. -/
theorem findings_probed_eq_nil_iff {v : Layout.View} :
    (ofRegistry times root (some v) r).report.findings = [] ↔ Rules.Sound r ∧ Layout.LaidOut v root r := by
  refine findings_eq_nil_iff.trans ?_
  rw [Rules.findings_eq_nil_iff]
  exact and_congr_right fun h => Layout.findings_eq_nil_iff h

theorem findings_unprobed_eq_nil_iff :
    (ofRegistry times root none r).report.findings = [] ↔ Rules.Sound r := by
  refine findings_eq_nil_iff.trans ?_
  rw [Rules.findings_eq_nil_iff]
  exact and_iff_left rfl

theorem verdict_unprobed_ne_warn : (ofRegistry times root none r).report.verdict ≠ .warn := by
  refine Verdict.ofCounts_ne_warn (VerdictCounts.countOf_eq_zero fun f hf => ?_)
  rcases mem_findings.mp hf with h | h
  · exact absurd h List.not_mem_nil
  · rw [(Rules.isFinding_of_mem h).severity]
    decide

/-- A check passes exactly if the values are sound and, where it looks at the repository, this holds
what they name. Without a look at it there are no warnings. -/
theorem run_passes_iff {text : String} {o : Overrides} (h : EffectiveRegistry.load text o = .ok r)
    (times : CheckTimes) (root : String) :
    (∀ v : Layout.View, ∃ out, run times root text o (some v) = .ok out ∧
      (out.report.findings.length < 2 ^ 32 →
        (out.report.verdict = .pass ↔ Rules.Sound r ∧ Layout.LaidOut v root r))) ∧
    ∃ out, run times root text o none = .ok out ∧ out.report.verdict ≠ .warn ∧
      (out.report.findings.length < 2 ^ 32 → (out.report.verdict = .pass ↔ Rules.Sound r)) := by
  have hrun (view : Option Layout.View) :
      run times root text o view = .ok (ofRegistry times root view r) := by
    rw [run, h]
    rfl
  refine ⟨fun v => ⟨_, hrun (some v), fun hl => ?_⟩, _, hrun none, verdict_unprobed_ne_warn, fun hl => ?_⟩
  · rw [verdict_eq_pass_iff hl, findings_probed_eq_nil_iff]
  · rw [verdict_eq_pass_iff hl, findings_unprobed_eq_nil_iff]

/-- A machine with a repository in which the listing of the API surface is a link to a file. -/
def linkedMachine : Disk.Machine where
  root := .directory
    [("repo", .directory
      [("listing", .link "docs/api.txt"),
       ("docs", .directory [("api.txt", .file .empty)]),
       ("tests", .directory [("com", .directory [("x", .directory [])])])])]
  cwd := []
  clock := .epoch

/-- Values that this repository holds, not all of them in normal form. -/
def linkedOverrides : Overrides where
  apiSurfacePath := some "././listing"
  nightlyTestsDirectoryPath := some "docs/..\\tests\\"
  nightlyTestsPackage := some "com/x"

theorem run_passes_of_linked :
    ∃ r, EffectiveRegistry.load "" linkedOverrides = .ok r ∧ Rules.Sound r ∧
      Layout.LaidOut linkedMachine.view "repo" r ∧
      (∃ out, run ⟨.epoch, .epoch⟩ "repo" "" linkedOverrides (some linkedMachine.view) = .ok out ∧
        out.report.findings.length < 2 ^ 32 ∧ out.report.verdict = .pass) ∧
      ∃ out, run ⟨.epoch, .epoch⟩ "repo" "" linkedOverrides none = .ok out ∧
        out.report.verdict ≠ .warn := by
  obtain ⟨r, hr, hs, hl⟩ : ∃ r, EffectiveRegistry.load "" linkedOverrides = .ok r ∧ Rules.Sound r ∧
      Layout.LaidOut linkedMachine.view "repo" r := by
    refine ⟨_, rfl, Rules.findings_eq_nil_iff.mp (by decide +kernel), ?_⟩
    exact ⟨by decide +kernel, by decide +kernel, by decide +kernel⟩
  obtain ⟨probed, out, hout, hwarn, -⟩ := run_passes_iff hr ⟨.epoch, .epoch⟩ "repo"
  obtain ⟨p, hp, hpass⟩ := probed linkedMachine.view
  have hlength : p.report.findings.length < 2 ^ 32 := by
    obtain ⟨r', hr', rfl⟩ := run_eq_ok hp
    obtain rfl := Except.ok.inj (hr.symm.trans hr')
    rw [findings_probed_eq_nil_iff.mpr ⟨hs, hl⟩]
    decide
  exact ⟨r, hr, hs, hl, ⟨p, hp, hlength, (hpass hlength).mpr ⟨hs, hl⟩⟩, out, hout, hwarn⟩

end Check

end SurfaceRegistry
