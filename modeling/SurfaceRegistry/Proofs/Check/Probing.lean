import SurfaceRegistry.Proofs.Check.Consistency
import SurfaceRegistry.Proofs.Check.Order

/-!
# What a look at the repository adds

A check that looks at the repository reports what it would report without the look, and then at most two
findings more (`Check.run_probed_adds`). The probe finds its own before the rules are applied, but the name of its
check comes after theirs, so the sort moves what it finds to the end and leaves the rest as it was. More findings
never make a verdict better (`Report.Consistent.grade_le`).
-/

namespace SurfaceRegistry

/-! ### Verdicts -/

/-- How bad a verdict is. -/
def Verdict.grade : Verdict → Nat
  | pass => 0
  | warn => 1
  | fail => 2

theorem Verdict.grade_le_fail (v : Verdict) : v.grade ≤ Verdict.fail.grade := by
  cases v <;> decide

/-- A report with all findings of another one has no better verdict. -/
theorem Report.Consistent.grade_le {p p' : Report} {failOn : FailOn} (h : p.Consistent failOn)
    (h' : p'.Consistent failOn) (hsub : ∀ f ∈ p.findings, f ∈ p'.findings) :
    p.verdict.grade ≤ p'.verdict.grade := by
  have hmono {s : Severity} : (∃ f ∈ p.findings, f.severity = s) → ∃ f ∈ p'.findings, f.severity = s :=
    fun ⟨f, hf, hs⟩ => ⟨f, hsub f hf, hs⟩
  cases hv' : p'.verdict with
  | pass =>
    obtain ⟨hnoError, hnoWarning⟩ := h'.pass_iff.mp hv'
    have hv : p.verdict = .pass :=
      h.pass_iff.mpr ⟨fun he => hnoError (hmono he), fun hw => hnoWarning (hmono hw)⟩
    rw [hv]
  | warn =>
    obtain ⟨-, hnoError, hfailOn⟩ := h'.warn_iff.mp hv'
    cases hv : p.verdict with
    | pass => decide
    | warn => exact Nat.le_refl _
    | fail =>
      rcases h.fail_iff.mp hv with he | ⟨-, hfailOn'⟩
      · exact absurd (hmono he) hnoError
      · rw [hfailOn] at hfailOn'
        cases hfailOn'
  | fail => exact p.verdict.grade_le_fail

/-! ### Findings -/

theorem Layout.length_findings_le (o : Outcome) : o.findings.length ≤ 2 := by
  rw [Outcome.findings, List.length_append]
  cases o.apiSurface <;> cases o.nightly <;> simp

/-- What the rules find comes before what the probe finds. -/
theorem Check.key_lt {f g : Finding} (hf : Rules.IsFinding f) (hg : Layout.IsFinding g) :
    f.key < g.key := by
  apply Finding.key_lt_of_checkId
  rw [hg.checkId_eq]
  rcases hf.checkId_cases with hf | hf
  · rw [hf]
    decide
  · rw [hf]
    decide

namespace Check

/-- What a look at the repository finds. -/
def seen (root : String) (v : Layout.View) (r : EffectiveRegistry) : List Finding :=
  (Layout.probe v root (Layout.places r (Rules.evaluate r))).findings

/-- The findings of a look at the repository come behind those of a check without one. -/
theorem findings_probed (times times' : CheckTimes) (root : String) (v : Layout.View) (r : EffectiveRegistry) :
    (ofRegistry times' root (some v) r).report.findings =
      (ofRegistry times root none r).report.findings ++ Finding.sort (seen root v r) := by
  rw [findings_eq_sort_found, findings_eq_sort_found]
  refine Finding.sort_append fun f hf g hg => ?_
  exact key_lt (Rules.isFinding_of_mem hf) (Layout.isFinding_of_mem hg)

/-- A report says the same of the values as another one does of them alone, and adds to this what a look at the
repository finds. -/
structure AddsLayout (p p' : Report) : Prop where
  /-- At most two findings come behind the others, all about the layout of the repository. -/
  findings : ∃ added, p'.findings = p.findings ++ added ∧ added.length ≤ 2 ∧
    ∀ f ∈ added, f.checkId = CheckId.repoLayout.text
  /-- Both are about the same values. -/
  values : p'.data =
    { p.data with nightlySources := p'.data.nightlySources, layoutProbed := true }
  /-- Without a look at the repository no sources are counted. -/
  unseen : p.data.nightlySources = none ∧ p.data.layoutProbed = false
  /-- The verdict is no better, as long as the findings can be counted. -/
  verdict : p'.findings.length < 2 ^ 32 → p.verdict.grade ≤ p'.verdict.grade

theorem addsLayout (times times' : CheckTimes) (root : String) (v : Layout.View) (r : EffectiveRegistry) :
    AddsLayout (ofRegistry times root none r).report (ofRegistry times' root (some v) r).report where
  findings := by
    refine ⟨_, findings_probed times times' root v r, ?_, fun f hf => ?_⟩
    · rw [Finding.sort, List.length_mergeSort]
      exact Layout.length_findings_le _
    · rw [Finding.sort, List.mem_mergeSort] at hf
      exact (Layout.isFinding_of_mem hf).checkId_eq
  values := rfl
  unseen := ⟨rfl, rfl⟩
  verdict hl := by
    have hfindings := findings_probed times times' root v r
    have hl' : (ofRegistry times root none r).report.findings.length < 2 ^ 32 := by
      rw [hfindings, List.length_append] at hl
      omega
    have h : (ofRegistry times root none r).report.Consistent r.failOn := Report.consistent_of_tally hl' rfl rfl
    have h' : (ofRegistry times' root (some v) r).report.Consistent r.failOn := Report.consistent_of_tally hl rfl rfl
    refine h.grade_le h' fun f hf => ?_
    rw [hfindings]
    exact List.mem_append_left _ hf

/-- A check with a look at the repository and one without it fail alike, and where they end, the first reports
what the second does and adds to it what it sees. -/
theorem run_probed_adds (times times' : CheckTimes) (root text : String) (o : Overrides) (v : Layout.View) :
    (∀ e, run times' root text o (some v) = .error e ↔ run times root text o none = .error e) ∧
    ∀ out, run times root text o none = .ok out →
      ∃ out', run times' root text o (some v) = .ok out' ∧ out'.registry = out.registry ∧
        AddsLayout out.report out'.report := by
  refine ⟨fun e => ?_, fun out hout => ?_⟩
  · rw [run_eq_error_iff, run_eq_error_iff]
  · obtain ⟨r, hr, rfl⟩ := run_eq_ok hout
    exact ⟨_, run_of_load hr times' root (some v), rfl, addsLayout times times' root v r⟩

/-- Two findings about an empty repository come behind seven about repeated names and texts that are none. -/
theorem run_probed_adds_of_repeating :
    ∃ out out' added, run ⟨.epoch, .epoch⟩ "repo" repeatingText {} none = .ok out ∧
      run ⟨.epoch, .epoch⟩ "repo" repeatingText {} (some Layout.emptyView) = .ok out' ∧
      out.report.findings.length = 7 ∧ out'.report.findings = out.report.findings ++ added ∧
      added.length = 2 ∧ out'.report.data.ignoredTypes = out.report.data.ignoredTypes ∧
      out.report.verdict.grade ≤ out'.report.verdict.grade := by
  obtain ⟨r, hr, hlength, hlength'⟩ : ∃ r, EffectiveRegistry.load repeatingText {} = .ok r ∧
      (found "repo" none r).length = 7 ∧ (found "repo" (some Layout.emptyView) r).length = 9 := by
    rw [EffectiveRegistry.load, load_repeatingText]
    exact ⟨_, rfl, by decide +kernel, by decide +kernel⟩
  have hlow : (ofRegistry ⟨.epoch, .epoch⟩ "repo" none r).report.findings.length = 7 := by
    rw [findings_eq_sort_found, Finding.sort, List.length_mergeSort, hlength]
  have hall : (ofRegistry ⟨.epoch, .epoch⟩ "repo" (some Layout.emptyView) r).report.findings.length = 9 := by
    rw [findings_eq_sort_found, Finding.sort, List.length_mergeSort, hlength']
  obtain ⟨out', hout', -, hadds⟩ :=
    (run_probed_adds ⟨.epoch, .epoch⟩ ⟨.epoch, .epoch⟩ "repo" repeatingText {} Layout.emptyView).2 _
      (run_of_load hr ⟨.epoch, .epoch⟩ "repo" none)
  obtain rfl := Except.ok.inj ((run_of_load hr _ _ _).symm.trans hout')
  obtain ⟨added, hadded, -, -⟩ := hadds.findings
  have htwo : added.length = 2 := by
    rw [hadded, List.length_append, hlow] at hall
    omega
  refine ⟨_, _, added, run_of_load hr _ _ _, hout', hlow, hadded, htwo, rfl, hadds.verdict ?_⟩
  rw [hall]
  decide

end Check

end SurfaceRegistry
