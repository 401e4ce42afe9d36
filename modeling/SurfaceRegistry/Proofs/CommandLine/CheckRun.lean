import SurfaceRegistry.Proofs.Check.Consistency
import SurfaceRegistry.Proofs.CommandLine.Steps
import SurfaceRegistry.Proofs.Report.RoundTrip

/-!
# The report and the exit code of a check

A check leaves a report in a file and an exit code, and those who read one of them do not look at the
other. Both agree (`CommandLine.run_check_agrees`): a check that comes to a verdict leaves its own report,
and one that cannot be carried out leaves the report of its failure. The latter replaces what the check
has written before, since a file that is there can be written again.
-/

namespace SurfaceRegistry

open Disk (Machine Place)
open Disk.Machine (run_bind run_pure)

/-! ### Reports and exit codes -/

/-- A finding that a check could not be carried out. -/
structure Finding.IsRuntimeError (f : Finding) : Prop where
  severity : f.severity = .error
  checkId : f.checkId = CheckId.toolRuntime.text
  code : f.code = FindingCode.runtimeError.text

/-- An exit code agrees with a report. -/
structure Report.Agrees (r : Report) (exitCode : Nat) : Prop where
  /-- It is 0 for a check that passes, with warnings or without. -/
  passes : exitCode = 0 ↔ r.verdict = .pass ∨ r.verdict = .warn
  /-- It is 2 for a check that fails over what it finds. -/
  fails : exitCode = 2 ↔ r.verdict = .fail ∧ ∀ f ∈ r.findings, f.checkId ≠ CheckId.toolRuntime.text
  /-- It is 1 for a check that could not be carried out. -/
  broken : exitCode = 1 ↔ ∃ f, r.findings = [f] ∧ f.IsRuntimeError

theorem Verdict.exitCode_ne_one (v : Verdict) : v.exitCode ≠ 1 := by
  rw [exitCode_eq]
  split <;> decide

theorem CheckId.text_injective : Function.Injective text := by
  intro a b
  cases a <;> cases b <;> decide

theorem Rules.IsFinding.checkId_ne {f : Finding} (h : IsFinding f) :
    f.checkId ≠ CheckId.toolRuntime.text := by
  rcases h.checkId_cases with h | h
  · rw [h]
    exact CheckId.text_injective.ne (by decide)
  · rw [h]
    exact CheckId.text_injective.ne (by decide)

theorem Layout.IsFinding.checkId_ne {f : Finding} (h : IsFinding f) :
    f.checkId ≠ CheckId.toolRuntime.text := by
  rw [h.checkId_eq]
  exact CheckId.text_injective.ne (by decide)

/-- The exit code for the verdict of a check agrees with its report. -/
theorem Report.agrees_of_run {times : CheckTimes} {root text : String} {o : Overrides}
    {view : Option Layout.View} {out : Check.Output} (h : Check.run times root text o view = .ok out) :
    out.report.Agrees out.report.verdict.exitCode := by
  obtain ⟨r, -, rfl⟩ := Check.run_eq_ok h
  have hids : ∀ f ∈ (Check.ofRegistry times root view r).report.findings,
      f.checkId ≠ CheckId.toolRuntime.text := fun f hf =>
    (Check.isFinding_of_mem hf).elim Rules.IsFinding.checkId_ne Layout.IsFinding.checkId_ne
  have hnone : ¬∃ f, (Check.ofRegistry times root view r).report.findings = [f] ∧ f.IsRuntimeError := by
    rintro ⟨f, hf, hruntime⟩
    exact hids f (hf ▸ List.mem_singleton_self f) hruntime.checkId
  generalize (Check.ofRegistry times root view r).report = report at hids hnone
  rw [Verdict.exitCode_eq]
  cases hv : report.verdict with
  | pass => exact ⟨by simp [hv], by simp [hv], by simp [hnone]⟩
  | warn => exact ⟨by simp [hv], by simp [hv], by simp [hnone]⟩
  | fail => exact ⟨by simp [hv], by simpa [hv] using hids, by simp [hnone]⟩

theorem Report.agrees_runtimeError (now : Timestamp) (message : String) :
    (runtimeError now message).Agrees 1 where
  passes := by simp [runtimeError]
  fails := by simp [runtimeError, runtimeErrorFinding]
  broken := iff_of_true rfl ⟨_, rfl, rfl, rfl, rfl⟩

namespace CommandLine

/-! ### Carrying out a check -/

section Check

variable {m m₁ m₂ : Machine} {i : Invocation} {reportOut path : String} {probe : Bool}
  {markdownOut : Option String} {out : Check.Output} {f : Failure}

theorem comes_checkAndWrite_of_root (h : m.kind? (rootOn m i) ≠ some .directory) :
    Comes (checkAndWrite i reportOut probe markdownOut) m (.error ⟨[], .rootMissing (rootOn m i)⟩) m := by
  refine (comes_rootOf m i).bind ((comes_kind m _).bind ?_)
  simp only
  rw [if_pos h]
  exact (comes_throw _ m).bind_error _

/-- In a directory, a check is carried out and its report written. -/
theorem comes_checkAndWrite_of_directory (hroot : m.kind? (rootOn m i) = some .directory)
    {r : Except Failure Verdict}
    (hrest : Comes (do
        let output ← checkIn (rootOn m i) i probe
        within .writeReport (orFail (Files.writeText reportOut output.report.serialize))
        match markdownOut with
        | none => pure ()
        | some path => within .writeMarkdown (orFail (Files.writeText path output.report.markdown))
        pure output.report.verdict) m r m₁) :
    Comes (checkAndWrite i reportOut probe markdownOut) m r m₁ := by
  refine (comes_rootOf m i).bind ((comes_kind m _).bind ?_)
  simp only
  rw [if_neg (not_not.mpr hroot)]
  exact hrest

theorem comes_checkAndWrite_of_check (hroot : m.kind? (rootOn m i) = some .directory)
    (h : checkOn m i probe = .error f) :
    Comes (checkAndWrite i reportOut probe markdownOut) m (.error f) m :=
  comes_checkAndWrite_of_directory hroot ((h ▸ comes_checkIn m i probe).bind_error _)

theorem comes_checkAndWrite_of_out (hroot : m.kind? (rootOn m i) = some .directory)
    (hout : checkOn m i probe = .ok out) {r : Except Failure Verdict}
    (hrest : Comes (do
        within .writeReport (orFail (Files.writeText reportOut out.report.serialize))
        match markdownOut with
        | none => pure ()
        | some path => within .writeMarkdown (orFail (Files.writeText path out.report.markdown))
        pure out.report.verdict) m r m₁) :
    Comes (checkAndWrite i reportOut probe markdownOut) m r m₁ :=
  comes_checkAndWrite_of_directory hroot ((hout ▸ comes_checkIn m i probe).bind hrest)

/-- What writing a report, and its Markdown if there is a file for it, comes to. -/
inductive Writes (report : Report) (reportOut : String) (markdownOut : Option String) (m : Machine) :
    Except Failure Verdict → Machine → Prop where
  /-- The report cannot be written. -/
  | nothing {f : Failure} {m₁ : Machine}
      (hreport : (Files.writeText reportOut report.serialize : StateM Machine _) m = (.error f, m₁)) :
      Writes report reportOut markdownOut m (.error (f.within .writeReport)) m₁
  /-- The report is written, and there is no file for the Markdown. -/
  | report {m₁ : Machine}
      (hreport : (Files.writeText reportOut report.serialize : StateM Machine _) m = (.ok (), m₁))
      (hnone : markdownOut = none) : Writes report reportOut markdownOut m (.ok report.verdict) m₁
  /-- The report is written, but its Markdown cannot be. -/
  | reportOnly {path : String} {f : Failure} {m₁ m₂ : Machine}
      (hreport : (Files.writeText reportOut report.serialize : StateM Machine _) m = (.ok (), m₁))
      (hpath : markdownOut = some path)
      (hmarkdown : (Files.writeText path report.markdown : StateM Machine _) m₁ = (.error f, m₂)) :
      Writes report reportOut markdownOut m (.error (f.within .writeMarkdown)) m₂
  /-- Both are written. -/
  | both {path : String} {m₁ m₂ : Machine}
      (hreport : (Files.writeText reportOut report.serialize : StateM Machine _) m = (.ok (), m₁))
      (hpath : markdownOut = some path)
      (hmarkdown : (Files.writeText path report.markdown : StateM Machine _) m₁ = (.ok (), m₂)) :
      Writes report reportOut markdownOut m (.ok report.verdict) m₂

/-- A check of a registry comes to what writing its report comes to. -/
theorem exists_writes (hroot : m.kind? (rootOn m i) = some .directory) (hout : checkOn m i probe = .ok out)
    (reportOut : String) (markdownOut : Option String) :
    ∃ r m₁, Writes out.report reportOut markdownOut m r m₁ ∧
      Comes (checkAndWrite i reportOut probe markdownOut) m r m₁ := by
  cases hreport : (Files.writeText reportOut out.report.serialize : StateM Machine _) m with
  | mk answer m₁ =>
    have hstep := (comes_orFail hreport).within .writeReport
    cases answer with
    | error f => exact ⟨_, _, .nothing hreport, comes_checkAndWrite_of_out hroot hout (hstep.bind_error _)⟩
    | ok _ =>
      cases markdownOut with
      | none =>
        exact ⟨_, _, .report hreport rfl, comes_checkAndWrite_of_out hroot hout (hstep.bind (comes_pure _ m₁))⟩
      | some path =>
        cases hmarkdown : (Files.writeText path out.report.markdown : StateM Machine _) m₁ with
        | mk answer m₂ =>
          have hlast := (comes_orFail hmarkdown).within .writeMarkdown
          cases answer with
          | error f =>
            exact ⟨_, _, .reportOnly hreport rfl hmarkdown,
              comes_checkAndWrite_of_out hroot hout (hstep.bind (hlast.bind_error _))⟩
          | ok _ =>
            exact ⟨_, _, .both hreport rfl hmarkdown,
              comes_checkAndWrite_of_out hroot hout (hstep.bind (hlast.bind (comes_pure _ m₂)))⟩

theorem exitCode_of_ok {o : Outcome} {v : Verdict}
    (h : Comes (checkAndWrite i reportOut probe markdownOut) m (.ok v) m₁)
    (hrun : (runCheck i reportOut probe markdownOut : StateM Machine _) m = (o, m₂)) :
    o.exitCode = v.exitCode ∧ m₂ = m₁ := by
  obtain ⟨log, h⟩ := h []
  rw [runCheck, run_bind, h] at hrun
  cases hrun
  exact ⟨rfl, rfl⟩

theorem run_now (m : Machine) : (MonadHost.now : StateM Machine _) m = (m.clock, m) := rfl

theorem run_writeErrorReport
    (h : (Files.writeText reportOut (Report.runtimeError m.clock f.message).serialize :
      StateM Machine _) m = (.ok (), m₁)) :
    (writeErrorReport reportOut f : StateM Machine _) m = ([], m₁) := by
  rw [writeErrorReport, run_bind, run_now, run_bind, h]
  rfl

theorem exitCode_of_error {o : Outcome} {m₃ : Machine}
    (h : Comes (checkAndWrite i reportOut probe markdownOut) m (.error f) m₁)
    (hreport : (Files.writeText reportOut (Report.runtimeError m₁.clock f.message).serialize :
      StateM Machine _) m₁ = (.ok (), m₂))
    (hrun : (runCheck i reportOut probe markdownOut : StateM Machine _) m = (o, m₃)) :
    o.exitCode = 1 ∧ m₃ = m₂ := by
  obtain ⟨log, h⟩ := h []
  rw [runCheck, run_bind, h] at hrun
  simp only at hrun
  rw [run_bind, run_writeErrorReport hreport] at hrun
  cases hrun
  exact ⟨rfl, rfl⟩

/-! ### What a check leaves -/

/-- The file at a path holds a report that agrees with an exit code. -/
def LeavesReport (m : Machine) (path : String) (exitCode : Nat) : Prop :=
  ∃ text r, (Files.readText path : StateM Machine _) m = (.ok text, m) ∧ Report.parse text = .ok r ∧
    r.Agrees exitCode

theorem leavesReport {p : Place} {r : Report} {exitCode : Nat}
    (h : m.Holds path p r.serialize.toUTF8) (hs : r.Storable) (ha : r.Agrees exitCode) :
    LeavesReport m path exitCode :=
  ⟨r.serialize, r, h.readText, Report.parse_serialize_of_storable hs, ha⟩

/-- A check that fails leaves the report of its failure, where a report can be written then. -/
theorem leavesReport_of_error {o : Outcome} {m₃ : Machine} (hm : m₁.HasCwd)
    (hwritable : m₁.CanWrite reportOut)
    (h : Comes (checkAndWrite i reportOut probe markdownOut) m (.error f) m₁)
    (hrun : (runCheck i reportOut probe markdownOut : StateM Machine _) m = (o, m₃)) :
    LeavesReport m₃ reportOut o.exitCode ∧ o.exitCode = 1 := by
  obtain ⟨m₂, p, hreport, hholds, -⟩ :=
    hwritable.writes hm (Report.runtimeError m₁.clock f.message).serialize
  obtain ⟨hcode, rfl⟩ := exitCode_of_error h hreport hrun
  refine ⟨?_, hcode⟩
  rw [hcode]
  exact leavesReport hholds (Report.storable_runtimeError _ _) (Report.agrees_runtimeError _ _)

theorem exists_run_of_checkOn (h : checkOn m i probe = .ok out) :
    ∃ times root text view, Check.run times root text i.overrides view = .ok out := by
  obtain ⟨text, -, hrun⟩ := exists_of_bind_eq_ok h
  exact ⟨_, _, text, _, hrun⟩

/-- A check that comes to a verdict leaves its own report, where nothing else is written in its place. -/
theorem leavesReport_of_ok {o : Outcome} {p : Place} (hout : checkOn m i probe = .ok out)
    (h : Comes (checkAndWrite i reportOut probe markdownOut) m (.ok out.report.verdict) m₁)
    (hrun : (runCheck i reportOut probe markdownOut : StateM Machine _) m = (o, m₂))
    (hholds : m₂.Holds reportOut p out.report.serialize.toUTF8) :
    LeavesReport m₂ reportOut o.exitCode ∧ o.exitCode ≠ 1 := by
  obtain ⟨times, root, text, view, hcheck⟩ := exists_run_of_checkOn hout
  rw [(exitCode_of_ok h hrun).1]
  exact ⟨leavesReport hholds (Report.storable_of_run hcheck) (Report.agrees_of_run hcheck),
    Verdict.exitCode_ne_one _⟩

/-- What keeps a check from a verdict. -/
inductive Obstructed (m : Machine) (i : Invocation) (reportOut : String) (probe : Bool)
    (markdownOut : Option String) : Prop where
  /-- The root of the repository is not a directory. -/
  | root (hroot : m.kind? (rootOn m i) ≠ some .directory)
  /-- The configuration cannot be read. -/
  | config {f : Failure} (htext : configOn m i = .error f)
  /-- There is no registry in force under the configuration. -/
  | registry {text : String} {f : Failure} (htext : configOn m i = .ok text)
      (hload : EffectiveRegistry.load text i.overrides = .error f)
  /-- The report is written, but its Markdown cannot be. -/
  | markdown {out : Check.Output} {m₁ : Machine} {path : String} {f : Failure}
      (hout : checkOn m i probe = .ok out)
      (hreport : (Files.writeText reportOut out.report.serialize : StateM Machine _) m = (.ok (), m₁))
      (hpath : markdownOut = some path)
      (hmarkdown : ((Files.writeText path out.report.markdown : StateM Machine _) m₁).1 = .error f)

theorem obstructed_of_checkOn (h : checkOn m i probe = .error f) :
    Obstructed m i reportOut probe markdownOut := by
  cases htext : configOn m i with
  | error e => exact .config htext
  | ok text =>
    rw [checkOn_of_ok htext] at h
    cases hload : EffectiveRegistry.load text i.overrides with
    | error e => exact .registry htext hload
    | ok r =>
      rw [hload] at h
      cases h

theorem not_obstructed (hroot : m.kind? (rootOn m i) = some .directory) (hout : checkOn m i probe = .ok out)
    (hreport : (Files.writeText reportOut out.report.serialize : StateM Machine _) m = (.ok (), m₁))
    (hmarkdown : ∀ path, markdownOut = some path →
      ((Files.writeText path out.report.markdown : StateM Machine _) m₁).1 = .ok ()) :
    ¬Obstructed m i reportOut probe markdownOut := by
  intro h
  cases h with
  | root h => exact h hroot
  | config htext =>
    rw [checkOn_of_error htext] at hout
    cases hout
  | registry htext hload =>
    rw [checkOn_of_ok htext, hload] at hout
    cases hout
  | markdown hout' hreport' hpath h =>
    rw [hout] at hout'
    cases hout'
    rw [hreport] at hreport'
    cases hreport'
    rw [hmarkdown _ hpath] at h
    cases h

/-- What a check leaves that has written its report: this report, or that of a failure to write the
Markdown. -/
theorem leavesReport_of_report {o : Outcome} {p : Place} (hroot : m.kind? (rootOn m i) = some .directory)
    (hout : checkOn m i probe = .ok out)
    (hreport : (Files.writeText reportOut out.report.serialize : StateM Machine _) m = (.ok (), m₁))
    (hholds : m₁.Holds reportOut p out.report.serialize.toUTF8) (hm₁ : m₁.HasCwd)
    (hrun : (runCheck i reportOut probe markdownOut : StateM Machine _) m = (o, m₂))
    (hdistinct : ∀ path, markdownOut = some path → ¬m₂.SamePlace path reportOut) :
    LeavesReport m₂ reportOut o.exitCode ∧
      (o.exitCode = 1 ↔ Obstructed m i reportOut probe markdownOut) := by
  obtain ⟨r, m₃, hwrites, hcomes⟩ := exists_writes hroot hout reportOut markdownOut
  cases hwrites with
  | nothing h =>
    rw [hreport] at h
    cases h
  | report h hnone =>
    cases hreport.symm.trans h
    obtain ⟨-, rfl⟩ := exitCode_of_ok hcomes hrun
    obtain ⟨hleaves, hcode⟩ := leavesReport_of_ok hout hcomes hrun hholds
    exact ⟨hleaves, iff_of_false hcode (not_obstructed hroot hout hreport (by simp [hnone]))⟩
  | reportOnly h hpath hmarkdown =>
    cases hreport.symm.trans h
    -- The report is there by now, and that of the failure takes its place.
    have hspares := Machine.spares_of_writeText_error hm₁ hmarkdown p
    obtain ⟨hleaves, hcode⟩ := leavesReport_of_error (hspares.hasCwd hm₁)
      (hspares.holds hholds).canWrite hcomes hrun
    exact ⟨hleaves, iff_of_true hcode (.markdown hout hreport hpath (by rw [hmarkdown]))⟩
  | both h hpath hmarkdown =>
    cases hreport.symm.trans h
    obtain ⟨-, rfl⟩ := exitCode_of_ok hcomes hrun
    obtain ⟨hleaves, hcode⟩ := leavesReport_of_ok hout hcomes hrun
      (hholds.of_writeText hm₁ hmarkdown (hdistinct _ hpath))
    refine ⟨hleaves, iff_of_false hcode (not_obstructed hroot hout hreport fun path' hpath' => ?_)⟩
    cases hpath.symm.trans hpath'
    rw [hmarkdown]

/-- A check leaves a report that agrees with its exit code, which is 1 only if something keeps it from a
verdict. -/
theorem leavesReport_of_runCheck (hm : m.HasCwd) (hwritable : m.CanWrite reportOut) {o : Outcome}
    (hrun : (runCheck i reportOut probe markdownOut : StateM Machine _) m = (o, m₂))
    (hdistinct : ∀ path, markdownOut = some path → ¬m₂.SamePlace path reportOut) :
    LeavesReport m₂ reportOut o.exitCode ∧
      (o.exitCode = 1 ↔ Obstructed m i reportOut probe markdownOut) := by
  by_cases hroot : m.kind? (rootOn m i) = some .directory
  · cases hout : checkOn m i probe with
    | error f =>
      obtain ⟨hleaves, hcode⟩ := leavesReport_of_error hm hwritable
        (comes_checkAndWrite_of_check hroot hout) hrun
      exact ⟨hleaves, iff_of_true hcode (obstructed_of_checkOn hout)⟩
    | ok out =>
      obtain ⟨m₁, p, hreport, hholds, hm₁⟩ := hwritable.writes hm out.report.serialize
      exact leavesReport_of_report hroot hout hreport hholds hm₁ hrun hdistinct
  · obtain ⟨hleaves, hcode⟩ := leavesReport_of_error hm hwritable (comes_checkAndWrite_of_root hroot) hrun
    exact ⟨hleaves, iff_of_true hcode (.root hroot)⟩

end Check

/-- The report that a check leaves is one, and agrees with the exit code, wherever the report can be written
and the Markdown, if there is any, goes to another file. The exit code is 1 exactly if something keeps the
check from a verdict. -/
theorem run_check_agrees {words : List String} {i : Invocation} {reportOut : String} {probe : Bool}
    {failOn markdownOut : Option String} {m m' : Machine} {o : Outcome} (hwords : parse words = .ok i)
    (hcommand : i.command = .check reportOut probe failOn markdownOut) (hm : m.HasCwd)
    (hwritable : m.CanWrite reportOut) (hrun : (run words : StateM Machine Outcome) m = (o, m'))
    (hdistinct : ∀ path, markdownOut = some path → ¬m'.SamePlace path reportOut) :
    (∃ text r, (Files.readText reportOut : StateM Machine _) m' = (.ok text, m') ∧
      Report.parse text = .ok r ∧ r.Agrees o.exitCode) ∧
    (o.exitCode = 1 ↔ Obstructed m i reportOut probe markdownOut) := by
  rw [run, hwords] at hrun
  simp only at hrun
  rw [run_bind, runCommand, hcommand] at hrun
  cases hcheck : (runCheck i reportOut probe markdownOut : StateM Machine _) m with
  | mk o₁ m₁ =>
    simp only [hcheck] at hrun
    cases hrun
    have hagrees := leavesReport_of_runCheck hm hwritable hcheck hdistinct
    exact hagrees

/-- A check whose Markdown is to be written to `docs`. -/
def docsWords : List String :=
  ["check", "--no-probe", "--report-out", "r.json", "--write-markdown", "--markdown-out", "docs"]

/-- What these words ask for. -/
def docsInvocation : Invocation where
  repoRoot := "."
  config := "surfacereg.toml"
  overrides := {}
  logLevel := .warn
  command := .check "r.json" false none (some "docs")

/-- A machine on which `docs` is a directory. -/
def docsMachine : Machine where
  root := .directory [("docs", .directory [])]
  cwd := []
  clock := .epoch

/-- The report of a check is replaced when its Markdown cannot be written over a directory. -/
theorem run_check_agrees_of_docs :
    parse docsWords = .ok docsInvocation ∧ docsMachine.HasCwd ∧ docsMachine.CanWrite "r.json" ∧
      ∃ o m', (run docsWords : StateM Machine Outcome) docsMachine = (o, m') ∧
        ¬m'.SamePlace "docs" "r.json" ∧ o.exitCode = 1 ∧
        Obstructed docsMachine docsInvocation "r.json" false (some "docs") ∧
        ∃ text r f, (Files.readText "r.json" : StateM Machine _) m' = (.ok text, m') ∧
          Report.parse text = .ok r ∧ r.findings = [f] ∧ f.IsRuntimeError := by
  have hcwd : docsMachine.HasCwd := ⟨_, rfl⟩
  have hwritable : docsMachine.CanWrite "r.json" := rfl
  cases hrun : (run docsWords : StateM Machine Outcome) docsMachine with
  | mk o m' =>
    have hcode : o.exitCode = 1 := (congrArg (·.1.exitCode) hrun).symm
    have hdocs : m'.target "docs" = .ok (.present ["docs"] false) :=
      (congrArg (·.2.target "docs") hrun).symm
    have hreport : m'.target "r.json" = .ok (.present ["r.json"] false) :=
      (congrArg (·.2.target "r.json") hrun).symm
    have hdistinct : ¬m'.SamePlace "docs" "r.json" := by
      rintro ⟨p, v, v', hp, hp'⟩
      rw [hdocs] at hp
      cases hp
      simp [hreport] at hp'
    obtain ⟨⟨text, r, hread, hparse, hagrees⟩, hobstructed⟩ :=
      run_check_agrees rfl rfl hcwd hwritable hrun fun path hpath => Option.some.inj hpath ▸ hdistinct
    obtain ⟨f, hf, hruntime⟩ := hagrees.broken.mp hcode
    exact ⟨rfl, hcwd, hwritable, o, m', rfl, hdistinct, hcode, hobstructed.mp hcode, text, r, f, hread,
      hparse, hf, hruntime⟩

end CommandLine

end SurfaceRegistry
