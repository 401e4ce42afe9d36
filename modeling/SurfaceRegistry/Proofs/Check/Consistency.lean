import SurfaceRegistry.Proofs.Check.Verdict
import SurfaceRegistry.Proofs.EffectiveRegistry

/-!
# Reports agree with themselves

The counts of a report are the numbers of its findings of each severity, and its verdict is what these
findings and the severity to fail on call for (`Report.Consistent`). Nothing but the verdict depends on that
severity: neither the other values of the registry in force (`EffectiveRegistry.load_eq_of_sameButFailOn`) nor
what the rules and the probe make of them (`Check.report_failOn`).
-/

namespace SurfaceRegistry

/-! ### Counts and verdicts -/

namespace VerdictCounts

theorem toNat_countOf {s : Severity} {fs : List Finding} (hl : fs.length < 2 ^ 32) :
    (countOf s fs).toNat = fs.countP fun f => f.severity = s :=
  UInt32.toNat_ofNat_of_lt' (Nat.lt_of_le_of_lt List.countP_le_length hl)

/-- Every finding has one severity. -/
theorem countP_add_countP_add_countP (fs : List Finding) :
    (fs.countP fun f => f.severity = .info) + (fs.countP fun f => f.severity = .warning) +
      (fs.countP fun f => f.severity = .error) = fs.length := by
  induction fs with
  | nil => rfl
  | cons f r ih =>
    rw [List.countP_cons, List.countP_cons, List.countP_cons, List.length_cons]
    cases f.severity <;> simp <;> omega

/-- The count of a list that is not too long is not zero exactly if a finding is counted. -/
theorem countOf_ne_zero_iff {s : Severity} {fs : List Finding} (hl : fs.length < 2 ^ 32) :
    countOf s fs ≠ 0 ↔ ∃ f ∈ fs, f.severity = s := by
  rw [ne_eq, countOf_eq_zero_iff hl]
  push Not
  rfl

end VerdictCounts

namespace Verdict

variable {c : VerdictCounts} {failOn : FailOn}

theorem ofCounts_eq_fail_iff :
    ofCounts c failOn = .fail ↔ c.error ≠ 0 ∨ c.warn ≠ 0 ∧ failOn = .warning := by
  unfold ofCounts
  simp only [UInt32.pos_iff_ne_zero]
  split
  · simp [*]
  split
  · cases failOn <;> simp [*]
  · simp [*]

theorem ofCounts_eq_warn_iff :
    ofCounts c failOn = .warn ↔ c.error = 0 ∧ c.warn ≠ 0 ∧ failOn = .error := by
  unfold ofCounts
  simp only [UInt32.pos_iff_ne_zero]
  split
  · simp [*]
  split
  · cases failOn <;> simp_all
  · simp_all

/-- A check that fails on warnings fails where one that does not has anything to object to. -/
theorem ofCounts_warning_eq_fail_iff : ofCounts c .warning = .fail ↔ ofCounts c .error ≠ .pass := by
  rw [ofCounts_eq_fail_iff, ne_eq (ofCounts c .error), ofCounts_eq_pass_iff]
  tauto

theorem exitCode_eq (v : Verdict) : v.exitCode = if v = .fail then 2 else 0 := by
  cases v <;> rfl

end Verdict

/-- A report whose counts, verdict and exit code follow from its findings and the severity to fail on. -/
structure Report.Consistent (p : Report) (failOn : FailOn) : Prop where
  /-- The remarks are counted. -/
  info : p.counts.info.toNat = p.findings.countP fun f => f.severity = .info
  /-- So are the warnings. -/
  warn : p.counts.warn.toNat = p.findings.countP fun f => f.severity = .warning
  /-- So are the errors. -/
  error : p.counts.error.toNat = p.findings.countP fun f => f.severity = .error
  /-- Nothing else is found. -/
  total : p.counts.info.toNat + p.counts.warn.toNat + p.counts.error.toNat = p.findings.length
  /-- An error fails the check, and a warning does if it is asked to. -/
  fail_iff : p.verdict = .fail ↔ (∃ f ∈ p.findings, f.severity = .error) ∨
    (∃ f ∈ p.findings, f.severity = .warning) ∧ failOn = .warning
  /-- Otherwise a warning is told. -/
  warn_iff : p.verdict = .warn ↔ (∃ f ∈ p.findings, f.severity = .warning) ∧
    (¬ ∃ f ∈ p.findings, f.severity = .error) ∧ failOn = .error
  /-- A check with neither passes. -/
  pass_iff : p.verdict = .pass ↔ (¬ ∃ f ∈ p.findings, f.severity = .error) ∧
    ¬ ∃ f ∈ p.findings, f.severity = .warning
  /-- The exit code tells whether the check fails. -/
  exitCode_eq : p.verdict.exitCode = if p.verdict = .fail then 2 else 0

theorem Report.consistent_of_tally {p : Report} {failOn : FailOn} (hl : p.findings.length < 2 ^ 32)
    (hcounts : p.counts = .tally p.findings) (hverdict : p.verdict = .ofCounts p.counts failOn) :
    p.Consistent failOn := by
  have herror := VerdictCounts.countOf_ne_zero_iff (s := .error) hl
  have hwarning := VerdictCounts.countOf_ne_zero_iff (s := .warning) hl
  have hinfo : p.counts.info = VerdictCounts.countOf .info p.findings := congrArg VerdictCounts.info hcounts
  have hwarn : p.counts.warn = VerdictCounts.countOf .warning p.findings := congrArg VerdictCounts.warn hcounts
  have herr : p.counts.error = VerdictCounts.countOf .error p.findings := congrArg VerdictCounts.error hcounts
  exact
    { info := by rw [hinfo, VerdictCounts.toNat_countOf hl]
      warn := by rw [hwarn, VerdictCounts.toNat_countOf hl]
      error := by rw [herr, VerdictCounts.toNat_countOf hl]
      total := by
        rw [hinfo, hwarn, herr, VerdictCounts.toNat_countOf hl, VerdictCounts.toNat_countOf hl,
          VerdictCounts.toNat_countOf hl, VerdictCounts.countP_add_countP_add_countP]
      fail_iff := by rw [hverdict, Verdict.ofCounts_eq_fail_iff, hwarn, herr, herror, hwarning]
      warn_iff := by
        rw [hverdict, Verdict.ofCounts_eq_warn_iff, hwarn, herr, ← herror, hwarning, not_not]
        tauto
      pass_iff := by
        rw [hverdict, Verdict.ofCounts_eq_pass_iff, hwarn, herr, ← herror, ← hwarning, not_not, not_not]
      exitCode_eq := p.verdict.exitCode_eq }

/-! ### What a check fails on -/

/-- Texts and overrides that state the same about everything but what a check fails on. -/
structure SameButFailOn (text text' : String) (o o' : Overrides) : Prop where
  /-- The configurations differ in that alone. -/
  config : ∃ c stated, Config.load text = .ok c ∧ Config.load text' = .ok { c with failOn := stated }
  /-- So do the overrides. -/
  overrides : ∃ stated, o' = { o with failOn := stated }

namespace EffectiveRegistry

theorem load_eq_ok_iff {text : String} {o : Overrides} {r : EffectiveRegistry} :
    load text o = .ok r ↔ ∃ c, Config.load text = .ok c ∧ resolve c o = .ok r := by
  unfold load ofConfig
  cases Config.load text with
  | error e => exact iff_of_false (fun h => by cases h) (fun ⟨_, h, _⟩ => by cases h)
  | ok c =>
    have hbind : (Except.ok c >>= fun c => failWithin [.resolveConfig] .resolve (resolve c o)) =
        failWithin [.resolveConfig] .resolve (resolve c o) := rfl
    rw [hbind]
    simp only [Except.ok.injEq, exists_eq_left']
    cases resolve c o <;> simp [failWithin]

/-- The registries in force differ in what a check fails on alone, too. -/
theorem load_eq_of_sameButFailOn {text text' : String} {o o' : Overrides} {r r' : EffectiveRegistry}
    (h : SameButFailOn text text' o o') (hr : load text o = .ok r) (hr' : load text' o' = .ok r') :
    r' = { r with failOn := r'.failOn } := by
  obtain ⟨⟨c, stated, hc, hc'⟩, stated', rfl⟩ := h
  obtain ⟨d, hd, hr⟩ := load_eq_ok_iff.mp hr
  obtain ⟨d', hd', hr'⟩ := load_eq_ok_iff.mp hr'
  obtain rfl := Except.ok.inj (hc.symm.trans hd)
  obtain rfl := Except.ok.inj (hc'.symm.trans hd')
  obtain ⟨f, -, rfl⟩ := resolve_eq_ok_iff.mp hr
  obtain ⟨f', -, rfl⟩ := resolve_eq_ok_iff.mp hr'
  rfl

end EffectiveRegistry

namespace Check

/-- Of all that a report says, only the verdict depends on what the check fails on. -/
theorem report_failOn (times times' : CheckTimes) (root : String) (view : Option Layout.View)
    (r : EffectiveRegistry) (f : FailOn) :
    (ofRegistry times' root view { r with failOn := f }).report =
      { (ofRegistry times root view r).report with
        startedAt := times'.started
        finishedAt := times'.finished
        verdict := .ofCounts (ofRegistry times root view r).report.counts f } :=
  rfl

/-- The report of a check agrees with itself. A check of the same that fails on warnings, too, has the same
report up to its times and its verdict, and it fails where the first one does not pass. -/
theorem run_consistent {text : String} {o : Overrides} {r : EffectiveRegistry}
    (h : EffectiveRegistry.load text o = .ok r) (times : CheckTimes) (root : String)
    (view : Option Layout.View) :
    ∃ out, run times root text o view = .ok out ∧
      (out.report.findings.length < 2 ^ 32 → out.report.Consistent r.failOn) ∧
      ∀ text' o' r' times', SameButFailOn text text' o o' → EffectiveRegistry.load text' o' = .ok r' →
        r.failOn = .error → r'.failOn = .warning →
        ∃ strict, run times' root text' o' view = .ok strict ∧
          strict.report =
            { out.report with
              startedAt := times'.started
              finishedAt := times'.finished
              verdict := strict.report.verdict } ∧
          (strict.report.verdict = .fail ↔ out.report.verdict ≠ .pass) := by
  refine ⟨_, run_of_load h times root view, fun hl => Report.consistent_of_tally hl rfl rfl, ?_⟩
  intro text' o' r' times' hsame hr' herror hwarning
  refine ⟨_, run_of_load hr' times' root view, ?_⟩
  have hregistry := EffectiveRegistry.load_eq_of_sameButFailOn hsame h hr'
  have hreport := report_failOn times times' root view r r'.failOn
  rw [← hregistry] at hreport
  have hlenient : (ofRegistry times root view r).report.verdict =
      .ofCounts (ofRegistry times root view r).report.counts .error := by
    rw [← herror]
    rfl
  rw [hreport, hwarning, hlenient]
  exact ⟨rfl, Verdict.ofCounts_warning_eq_fail_iff⟩

/-- A configuration that fails on warnings. -/
theorem load_failOnWarning :
    Config.load "fail_on = \"warning\"\n" = .ok { failOn := some "warning" } := by
  rw [Config.load, if_neg (by decide +kernel)]
  cbv

theorem run_consistent_of_missing :
    ∃ out strict, run ⟨.epoch, .epoch⟩ "repo" "" {} (some Layout.emptyView) = .ok out ∧
      out.report.findings.length = 2 ∧ out.report.Consistent .error ∧ out.report.verdict ≠ .pass ∧
      run ⟨.epoch, .epoch⟩ "repo" "fail_on = \"warning\"\n" {} (some Layout.emptyView) = .ok strict ∧
      strict.report.findings = out.report.findings ∧ strict.report.verdict = .fail := by
  obtain ⟨r, hr, herror, hlength, hmem⟩ : ∃ r, EffectiveRegistry.load "" {} = .ok r ∧ r.failOn = .error ∧
      ((ofRegistry ⟨.epoch, .epoch⟩ "repo" (some Layout.emptyView) r).report.findings.length = 2) ∧
      ∃ f ∈ (Layout.probe Layout.emptyView "repo" (Layout.places r (Rules.evaluate r))).findings,
        f.severity = .warning :=
    ⟨_, rfl, rfl, (List.mergeSort_perm _ _).length_eq.trans (by decide +kernel), by decide +kernel⟩
  obtain ⟨r', hr', hwarning⟩ : ∃ r', EffectiveRegistry.load "fail_on = \"warning\"\n" {} = .ok r' ∧
      r'.failOn = .warning := by
    rw [EffectiveRegistry.load, load_failOnWarning]
    exact ⟨_, rfl, rfl⟩
  have hsame : SameButFailOn "" "fail_on = \"warning\"\n" {} {} :=
    ⟨⟨{}, some "warning", rfl, load_failOnWarning⟩, none, rfl⟩
  obtain ⟨out, hout, hconsistent, hstrict⟩ :=
    run_consistent hr ⟨.epoch, .epoch⟩ "repo" (some Layout.emptyView)
  obtain ⟨strict, hrun, hreport, hfail⟩ :=
    hstrict _ _ _ ⟨.epoch, .epoch⟩ hsame hr' herror hwarning
  obtain rfl := Except.ok.inj ((run_of_load hr _ _ _).symm.trans hout)
  have hconsistent := hconsistent (by rw [hlength]; decide)
  have hpass : (ofRegistry ⟨.epoch, .epoch⟩ "repo" (some Layout.emptyView) r).report.verdict ≠ .pass := by
    intro h
    obtain ⟨f, hf, hs⟩ := hmem
    exact (hconsistent.pass_iff.mp h).2 ⟨f, mem_findings.mpr (.inl hf), hs⟩
  refine ⟨_, strict, hout, hlength, herror ▸ hconsistent, hpass, hrun, ?_, hfail.mpr hpass⟩
  rw [hreport]

end Check

end SurfaceRegistry
