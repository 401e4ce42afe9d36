import SurfaceRegistry.Proofs.Check.Failures
import SurfaceRegistry.Proofs.CommandLine.CheckRun
import SurfaceRegistry.Proofs.CommandLine.Settings
import SurfaceRegistry.Proofs.Lookup
import SurfaceRegistry.Proofs.Show

/-!
# One registry for all commands

The commands that show the registry, look up a type name in it and check it find it in steps of their own. If the same
values are stated for the options of all commands, it is the same registry (`registryOn_congr`, `checkOn_eq`), so that
what is shown, what is looked up and what the report of the check records agree, and if there is none all of them fail
over the same thing (`CommandLine.commands_share_registry`).
-/

namespace SurfaceRegistry

open Disk (Machine)
open Disk.Machine (run_bind)

/-! ### What is shown -/

/-- The first member of an object with a key. -/
def Json.Tree.member? (t : Tree) (key : String) : Option Tree :=
  match t with
  | object members _ => members.lookup (some key)
  | _ => none

/-- A shown document has the values that a report records. -/
structure Json.Document.Shows (document : Document) (d : ReportData) : Prop where
  /-- Nothing follows the object. -/
  ended : document.ended = true
  apiSurfacePath :
    (document.root.member? "api_surface_path").bind (·.member? "value") = some (.string (some d.apiSurfacePath))
  nightlyTestsDirectoryPath :
    (document.root.member? "nightly_tests_directory_path").bind (·.member? "value") =
      some (.string (some d.nightlyTestsDirectoryPath))
  nightlyTestsPackage :
    (document.root.member? "nightly_tests_package").bind (·.member? "value") =
      some (.string (some d.nightlyTestsPackage))
  ignoredTypes :
    document.root.member? "ignored_types" = some (.array (d.ignoredTypes.map fun t => .string (some t)) true)

namespace EffectiveRegistry

/-- A registry that is shown as JSON has the values that a report of it records. -/
theorem shows_shownAs (r : EffectiveRegistry) (layout : Option Layout.Outcome) :
    (Json.Document.read (r.shownAs .json).toList).Shows (r.reportData layout) := by
  rw [shownAs, Json.Document.read_pretty (floatFree_toJson r)]
  exact ⟨rfl, rfl, rfl, rfl, congrArg (fun ts => some (Json.Tree.array ts true)) (Json.trees_strings _)⟩

end EffectiveRegistry

namespace CommandLine

/-! ### The registry in force on a machine -/

/-- The registry in force on a machine. -/
def registryOn (m : Machine) (i : Invocation) : Except Failure EffectiveRegistry := do
  let text ← configOn m i
  EffectiveRegistry.load text i.overrides

section

variable {words : List String} {m : Machine} {i j : Invocation} {o : Outcome}

theorem registryOn_of_ok {text : String} (h : configOn m i = .ok text) :
    registryOn m i = EffectiveRegistry.load text i.overrides := by
  rw [registryOn, h]
  rfl

/-- The registry depends on what is stated for the options of all commands, and on what the check fails on. -/
theorem registryOn_congr {stated : OptionSpec → Option String} (hi : GoesBy i stated) (hj : GoesBy j stated)
    (hfailOn : i.overrides.failOn = j.overrides.failOn) (m : Machine) : registryOn m i = registryOn m j := by
  have hoverrides : i.overrides = j.overrides := by
    calc i.overrides
        = ⟨stated apiSurfacePath, stated nightlyTestsDir, stated nightlyTestsPackage, i.overrides.failOn⟩ := by
          rw [← hi.apiSurfacePath, ← hi.nightlyTestsDirectoryPath, ← hi.nightlyTestsPackage]
      _ = j.overrides := by
          rw [hfailOn, ← hj.apiSurfacePath, ← hj.nightlyTestsDirectoryPath, ← hj.nightlyTestsPackage]
  rw [registryOn, registryOn, configOn, configOn, rootOn, rootOn, hi.repoRoot, hj.repoRoot, hi.config, hj.config,
    hoverrides]

/-- Finding the registry leaves the machine as it is. -/
theorem comes_resolveRegistry (m : Machine) (i : Invocation) : Comes (resolveRegistry i) m (registryOn m i) m :=
  (comes_rootOf m i).bind ((comes_readConfig m i).andThen fun text => comes_registryOf text i.overrides m)

/-- A check is one of the registry in force. -/
theorem checkOn_eq (m : Machine) (i : Invocation) (probe : Bool) :
    checkOn m i probe = (registryOn m i).map
      (Check.ofRegistry ⟨m.clock, m.clock⟩ (rootOn m i) (if probe then some m.view else none)) := by
  rw [registryOn]
  cases htext : configOn m i with
  | error f => exact checkOn_of_error htext probe
  | ok text => exact checkOn_of_ok htext probe

/-! ### Showing and looking up -/

/-- A run that fails, and what is said about it. -/
structure Outcome.FailsWith (o : Outcome) (c : Complaint) : Prop where
  exitCode : o.exitCode = 1
  complaint : o.complaint = some c

theorem Outcome.FailsWith.keepLog {c : Complaint} (h : o.FailsWith c) (threshold : LogLevel) :
    (o.keepLog threshold).FailsWith c := ⟨h.exitCode, h.complaint⟩

theorem run_of_parse (h : parse words = .ok i) (m : Machine) :
    (run words : StateM Machine Outcome) m =
      (((runCommand i : StateM Machine Outcome) m).1.keepLog i.logLevel,
        ((runCommand i : StateM Machine Outcome) m).2) := by
  rw [run, h]
  rfl

theorem comes_runShow (m : Machine) (i : Invocation) :
    Comes (runShow i "json") m ((registryOn m i).map fun r => (0, r.shownAs .json)) m := by
  have hformat : Comes (ofResult (failWithin [] .format (ShowFormat.parse "json"))) m (.ok .json) m :=
    comes_pure _ m
  exact hformat.bind ((comes_resolveRegistry m i).andThen_map fun r => comes_pure _ m)

/-- The registry in force is shown, or the run fails for want of one. -/
theorem run_show (hwords : parse words = .ok i) (hcommand : i.command = .showRegistry "json") (m : Machine) :
    ∃ log, (run words : StateM Machine Outcome) m = (match registryOn m i with
      | .ok r => { exitCode := 0, stdout := r.shownAs .json, log }
      | .error f => { exitCode := 1, log, complaint := some (.failed f) }, m) := by
  obtain ⟨log, hlog⟩ := comes_runShow m i []
  refine ⟨log.filter fun e => i.logLevel.keptUpTo e.level, ?_⟩
  rw [run_of_parse hwords, runCommand, hcommand]
  simp only
  rw [outcomeOf, run_bind, hlog]
  cases registryOn m i <;> rfl

/-- A name is looked up in the registry in force, or the run fails for want of one. -/
theorem run_ignored {name : String} (hwords : parse words = .ok i) (hcommand : i.command = .ignored name)
    (m : Machine) :
    ∃ log, (run words : StateM Machine Outcome) m = (match registryOn m i with
      | .ok r => lookupOutcome log (Lookup.find r name)
      | .error f => { exitCode := 1, log, complaint := some (.failed f) }, m) := by
  obtain ⟨log, hlog⟩ := comes_resolveRegistry m i []
  refine ⟨log.filter fun e => i.logLevel.keptUpTo e.level, ?_⟩
  rw [run_of_parse hwords, runCommand, hcommand]
  simp only
  rw [runIgnored, run_bind, hlog]
  cases registryOn m i with
  | error f => rfl
  | ok r =>
    show ((lookupOutcome log (Lookup.find r name)).keepLog i.logLevel, m) =
      (lookupOutcome (log.filter fun e => i.logLevel.keptUpTo e.level) (Lookup.find r name), m)
    cases Lookup.find r name <;> rfl

/-- Whether a type name is ignored is told by the exit code. -/
theorem exitCode_lookupOutcome {r : EffectiveRegistry} {name : String} {t : TypeName}
    (ht : TypeName.parse name = .ok t) (log : List LogEntry) :
    (lookupOutcome log (Lookup.find r name)).exitCode = if name ∈ r.ignoredTypes then 0 else 3 := by
  rw [Lookup.find_of_ok ht]
  split <;> rfl

end

/-! ### Checking -/

section

variable {words : List String} {m m₁ : Machine} {k : Invocation} {reportOut : String} {probe : Bool}
  {failOn markdownOut : Option String} {f : Failure} {out : Check.Output}

theorem run_check {o : Outcome} {m' : Machine} (hwords : parse words = .ok k)
    (hcommand : k.command = .check reportOut probe failOn markdownOut)
    (hrun : (runCheck k reportOut probe markdownOut : StateM Machine Outcome) m = (o, m')) :
    (run words : StateM Machine Outcome) m = (o.keepLog k.logLevel, m') := by
  rw [run_of_parse hwords, runCommand, hcommand]
  simp only [hrun]

/-- How a check that has a report ends: with the verdict of the report, which is in its file unless the Markdown is
written in the same place, or because one of the two cannot be written. -/
inductive EndsWith (report : Report) (reportOut : String) (markdownOut : Option String) (m : Machine) (o : Outcome)
    (m' : Machine) : Prop where
  /-- The report is written. -/
  | verdict (hcode : o.exitCode = report.verdict.exitCode)
      (hfile : m.HasCwd → (∀ path, markdownOut = some path → ¬m'.SamePlace path reportOut) →
        ∃ text, (Files.readText reportOut : StateM Machine _) m' = (.ok text, m') ∧ Report.parse text = .ok report)
  /-- The report or its Markdown cannot be written. -/
  | unwritten (f : Failure)
      (hfails : o.FailsWith (.checkFailed (f.within .writeReport)) ∨
        o.FailsWith (.checkFailed (f.within .writeMarkdown)))

theorem EndsWith.keepLog {report : Report} {o : Outcome} {m' : Machine}
    (h : EndsWith report reportOut markdownOut m o m') (threshold : LogLevel) :
    EndsWith report reportOut markdownOut m (o.keepLog threshold) m' := by
  cases h with
  | verdict hcode hfile => exact .verdict hcode hfile
  | unwritten f hfails => exact .unwritten f (hfails.imp (·.keepLog threshold) (·.keepLog threshold))

theorem runCheck_of_error {o : Outcome} {m₂ : Machine}
    (h : Comes (checkAndWrite k reportOut probe markdownOut) m (.error f) m₁)
    (hrun : (runCheck k reportOut probe markdownOut : StateM Machine Outcome) m = (o, m₂)) :
    o.FailsWith (.checkFailed f) := by
  obtain ⟨log, h⟩ := h []
  rw [runCheck, run_bind, h] at hrun
  cases hrun
  exact ⟨rfl, rfl⟩

theorem parse_serialize_of_checkOn (hout : checkOn m k probe = .ok out) :
    Report.parse out.report.serialize = .ok out.report := by
  obtain ⟨times, root, text, view, hrun⟩ := exists_run_of_checkOn hout
  exact Report.parse_serialize_of_storable (Report.storable_of_run hrun)

/-- A check of a registry ends with its report. -/
theorem endsWith_of_runCheck {o : Outcome} {m' : Machine} (hroot : m.kind? (rootOn m k) = some .directory)
    (hout : checkOn m k probe = .ok out)
    (hrun : (runCheck k reportOut probe markdownOut : StateM Machine Outcome) m = (o, m')) :
    EndsWith out.report reportOut markdownOut m o m' := by
  have hparse := parse_serialize_of_checkOn hout
  obtain ⟨r, m₁, hwrites, hcomes⟩ := exists_writes hroot hout reportOut markdownOut
  cases hwrites with
  | nothing hreport => exact .unwritten _ (.inl (runCheck_of_error hcomes hrun))
  | report hreport hnone =>
    obtain ⟨hcode, rfl⟩ := exitCode_of_ok hcomes hrun
    refine .verdict hcode fun hm _ => ?_
    obtain ⟨p, hholds, -⟩ := Machine.holds_of_writeText hm hreport
    exact ⟨_, hholds.readText, hparse⟩
  | reportOnly hreport hpath hmarkdown => exact .unwritten _ (.inr (runCheck_of_error hcomes hrun))
  | both hreport hpath hmarkdown =>
    obtain ⟨hcode, rfl⟩ := exitCode_of_ok hcomes hrun
    refine .verdict hcode fun hm hdistinct => ?_
    obtain ⟨p, hholds, hextends, -⟩ := Machine.holds_of_writeText hm hreport
    have hstays := hholds.of_writeText (hextends.hasCwd hm) hmarkdown (hdistinct _ hpath)
    exact ⟨_, hstays.readText, hparse⟩

end

/-! ### The three commands -/

section

variable {shown asked checked : List String} {i j k c : Invocation} {name reportOut : String} {probe : Bool}
  {markdownOut : Option String} {m : Machine}

/-- Runs that show the registry, look up a name in it and check it agree on a machine. Either all three fail over the
same thing, or the values that are shown are those that the report of the check records, and a type name is looked up in
the list that this report has. -/
def RunsAgree (shown asked checked : List String) (k : Invocation) (name reportOut : String) (probe : Bool)
    (markdownOut : Option String) (m : Machine) : Prop :=
  ∃ o₁ o₂ o₃ m', (run shown : StateM Machine Outcome) m = (o₁, m) ∧
    (run asked : StateM Machine Outcome) m = (o₂, m) ∧
    (run checked : StateM Machine Outcome) m = (o₃, m') ∧
    ((∃ f, checkOn m k probe = .error f ∧ o₁.FailsWith (.failed f) ∧ o₂.FailsWith (.failed f) ∧
        o₃.FailsWith (.checkFailed f)) ∨
      ∃ out, checkOn m k probe = .ok out ∧ EndsWith out.report reportOut markdownOut m o₃ m' ∧
        o₁.exitCode = 0 ∧ (Json.Document.read o₁.stdout.toList).Shows out.report.data ∧
        ∀ t, TypeName.parse name = .ok t →
          o₂.exitCode = if name ∈ out.report.data.ignoredTypes then 0 else 3)

/-- Runs agree if they go by the same values. -/
theorem runsAgree_of_goesBy {stated : OptionSpec → Option String} (hshown : parse shown = .ok i)
    (hshow : i.command = .showRegistry "json") (hi : GoesBy i stated) (hasked : parse asked = .ok j)
    (hignored : j.command = .ignored name) (hj : GoesBy j stated) (hchecked : parse checked = .ok k)
    (hcheck : k.command = .check reportOut probe none markdownOut) (hk : GoesBy k stated)
    (hroot : m.kind? (rootOn m k) = some .directory) :
    RunsAgree shown asked checked k name reportOut probe markdownOut m := by
  have hfail : k.overrides.failOn = none := by rw [failOn_of_parse hchecked, hcheck]
  have hri : registryOn m i = registryOn m k :=
    registryOn_congr hi hk (by rw [failOn_of_parse hshown, hshow, hfail]) m
  have hrj : registryOn m j = registryOn m k :=
    registryOn_congr hj hk (by rw [failOn_of_parse hasked, hignored, hfail]) m
  obtain ⟨log₁, ho₁⟩ := run_show hshown hshow m
  obtain ⟨log₂, ho₂⟩ := run_ignored hasked hignored m
  rw [hri] at ho₁
  rw [hrj] at ho₂
  cases hrun : (runCheck k reportOut probe markdownOut : StateM Machine Outcome) m with
  | mk o m' =>
    refine ⟨_, _, _, _, ho₁, ho₂, run_check hchecked hcheck hrun, ?_⟩
    have hout := checkOn_eq m k probe
    cases hr : registryOn m k with
    | error f =>
      rw [hr] at hout
      have hfails := runCheck_of_error (comes_checkAndWrite_of_check hroot hout) hrun
      exact .inl ⟨f, hout, ⟨rfl, rfl⟩, ⟨rfl, rfl⟩, hfails.keepLog _⟩
    | ok r =>
      rw [hr] at hout
      exact .inr ⟨_, hout, (endsWith_of_runCheck hroot hout hrun).keepLog _, rfl, r.shows_shownAs _,
        fun t ht => exitCode_lookupOutcome ht log₂⟩

/-- A name that does not look like an option is an operand. -/
theorem exists_parse_ignored (hname : looksLikeOption name = false) :
    ∃ j, parse ["ignored", name] = .ok j ∧ j.command = .ignored name ∧ ∀ o, given ["ignored", name] o = none := by
  have hsides : Sides ["ignored", name] ((commandNamed? "ignored").get rfl) {} { operands := [name] } :=
    ⟨rfl, [name], [], rfl, readWords_operand rfl hname rfl []⟩
  exact ⟨_, parse_eq_ok_iff.mpr ⟨_, _, _, _, hsides, rfl, rfl, rfl, rfl⟩, rfl, fun o => hsides.given_eq o⟩

end

/-- The commands that show the registry, look up a name in it and check it go by the same registry whenever the same
values are stated for the options of all commands, wherever they stand, and nothing is stated on what the check fails
on. Whichever of these values words state in front of the names of the commands, these are the ones that all three go
by. -/
theorem commands_share_registry :
    (∀ {shown asked checked : List String} {i j k : Invocation} {name reportOut : String} {probe : Bool}
      {markdownOut : Option String} {m : Machine},
      parse shown = .ok i → i.command = .showRegistry "json" →
      parse asked = .ok j → j.command = .ignored name →
      parse checked = .ok k → k.command = .check reportOut probe none markdownOut →
      (∀ o ∈ sharedOptions, given shown o = given checked o ∧ given asked o = given checked o) →
      m.kind? (rootOn m k) = some .directory →
      RunsAgree shown asked checked k name reportOut probe markdownOut m) ∧
    ∀ {settings : List (String × String)} {front own : List String} {c : Invocation} {name reportOut : String}
      {probe : Bool} {markdownOut : Option String},
      States settings front → (settings.map Prod.fst).Nodup → looksLikeOption name = false →
      parse ("check" :: own) = .ok c → c.command = .check reportOut probe none markdownOut →
      (∀ o ∈ sharedOptions, given ("check" :: own) o = none) →
      ∃ k, parse (front ++ "check" :: own) = .ok k ∧ k.command = c.command ∧
        GoesBy k (fun o => settings.lookup o.long) ∧
        ∀ m, m.kind? (rootOn m k) = some .directory →
          RunsAgree (front ++ ["show", "--format", "json"]) (front ++ ["ignored", name]) (front ++ "check" :: own) k
            name reportOut probe markdownOut m := by
  constructor
  · intro shown asked checked i j k name reportOut probe markdownOut m hshown hshow hasked hignored hchecked hcheck
      hsame hroot
    exact runsAgree_of_goesBy hshown hshow (goesBy_congr (goesBy_of_parse hshown) fun o ho => (hsame o ho).1) hasked
      hignored (goesBy_congr (goesBy_of_parse hasked) fun o ho => (hsame o ho).2) hchecked hcheck
      (goesBy_of_parse hchecked) hroot
  · intro settings front own c name reportOut probe markdownOut hfront hnodup hname hown hcheck hnone
    obtain ⟨j₀, hj₀, hignored, hasked⟩ := exists_parse_ignored hname
    have hi₀ : parse ["show", "--format", "json"] = .ok _ := rfl
    obtain ⟨i, hi, hshow, hshown⟩ := exists_parse_of_states hfront hnodup rfl hi₀
    obtain ⟨j, hj, hignored', hasked'⟩ := exists_parse_of_states hfront hnodup rfl hj₀
    obtain ⟨k, hk, hcheck', hchecked⟩ := exists_parse_of_states hfront hnodup rfl hown
    have hnone₀ : ∀ o ∈ sharedOptions, given ["show", "--format", "json"] o = none := by
      simp only [sharedOptions, List.forall_mem_cons]
      exact ⟨rfl, rfl, rfl, rfl, rfl, List.forall_mem_nil _⟩
    have hgoes {i : Invocation} {words own : List String} (hi : parse words = .ok i)
        (hstated : ∀ o, given words o = (given own o <|> settings.lookup o.long))
        (hnone : ∀ o ∈ sharedOptions, given own o = none) : GoesBy i fun o => settings.lookup o.long := by
      refine goesBy_congr (goesBy_of_parse hi) fun o ho => ?_
      rw [hstated, hnone o ho]
      rfl
    exact ⟨k, hk, hcheck', hgoes hk hchecked hnone, fun m hroot =>
      runsAgree_of_goesBy hi hshow (hgoes hi hshown hnone₀) hj (hignored'.trans hignored)
        (hgoes hj hasked' fun o _ => hasked o) hk (hcheck'.trans hcheck) (hgoes hk hchecked hnone) hroot⟩

/-- Values for a configuration file and an override, one of them in a word of its own. -/
def listingFront : List String :=
  ["--config", "other.toml", "--api-surface-path=docs/api.txt"]

/-- What these words state. -/
def listingSettings : List (String × String) :=
  [("config", "other.toml"), ("api-surface-path", "docs/api.txt")]

theorem states_listing : States listingSettings listingFront :=
  .apart (o := config) (by simp [sharedOptions]) rfl
    (.joined (o := apiSurfacePath) (by simp [sharedOptions]) .nil)

/-- A machine with a configuration that has one more type name ignored, beside the default one, which has a fault. -/
def listingMachine : Machine where
  root := .directory
    [("surfacereg.toml", .file "fail_on = 'never'".toUTF8), ("other.toml", .file "ignored_types = ['a.B']".toUTF8)]
  cwd := []
  clock := .epoch

/-- The words after these values for a check that leaves a report. -/
def listingOwn : List String := ["--no-probe", "--report-out", "r.json"]

/-- The check of this machine. -/
def listingCheck : Invocation where
  repoRoot := "."
  config := "other.toml"
  overrides := { apiSurfacePath := some "docs/api.txt" }
  logLevel := .warn
  command := .check "r.json" false none none

theorem config_listing : configOn listingMachine listingCheck = .ok "ignored_types = ['a.B']" := by
  have hread : listingMachine.read (Text.Path.join (rootOn listingMachine listingCheck) listingCheck.config) =
      .ok "ignored_types = ['a.B']".toUTF8 := rfl
  rw [configOn, Machine.readText_of_read hread]
  rfl

theorem registry_listing :
    ∃ r, registryOn listingMachine listingCheck = .ok r ∧ "a.B" ∈ r.ignoredTypes ∧
      r.apiSurfacePath.value = "docs/api.txt" := by
  have hblank : Text.isBlank "ignored_types = ['a.B']" = false := by
    cbv
  have hparse : Config.parse "ignored_types = ['a.B']" = .ok { ignoredTypes := ["a.B"] } := by
    cbv
  obtain ⟨r, hr, hpath⟩ : ∃ r, EffectiveRegistry.resolve { ignoredTypes := ["a.B"] } listingCheck.overrides = .ok r ∧
      r.apiSurfacePath.value = "docs/api.txt" := ⟨_, rfl, rfl⟩
  refine ⟨r, ?_, (EffectiveRegistry.mem_ignoredTypes_iff hr).mpr (.inl (List.mem_singleton_self _)), hpath⟩
  rw [registryOn_of_ok config_listing]
  exact EffectiveRegistry.load_eq_ok_iff.mpr ⟨_, Config.load_eq_ok_iff.mpr (.read hblank hparse), hr⟩

/-- The type name of the other configuration is shown, found and recorded, and so is the path that overrides the one of
the configuration. -/
theorem commands_share_registry_of_listing :
    RunsAgree ["show", "--format", "json", "--config=other.toml", "--api-surface-path", "docs/api.txt"]
      ["--api-surface-path=docs/api.txt", "ignored", "--config", "other.toml", "a.B"]
      (listingFront ++ "check" :: listingOwn) listingCheck "a.B" "r.json" false none listingMachine ∧
    ∃ o₁ o₂ o₃ m' report text,
      (run (listingFront ++ ["show", "--format", "json"]) : StateM Machine Outcome) listingMachine =
        (o₁, listingMachine) ∧
      (run (listingFront ++ ["ignored", "a.B"]) : StateM Machine Outcome) listingMachine = (o₂, listingMachine) ∧
      (run (listingFront ++ "check" :: listingOwn) : StateM Machine Outcome) listingMachine = (o₃, m') ∧
      (Files.readText "r.json" : StateM Machine _) m' = (.ok text, m') ∧ Report.parse text = .ok report ∧
      o₁.exitCode = 0 ∧ (Json.Document.read o₁.stdout.toList).Shows report.data ∧ o₂.exitCode = 0 ∧
      "a.B" ∈ report.data.ignoredTypes ∧ report.data.apiSurfacePath = "docs/api.txt" := by
  have hcheck : parse (listingFront ++ "check" :: listingOwn) = .ok listingCheck := rfl
  have hroot : listingMachine.kind? (rootOn listingMachine listingCheck) = some .directory := rfl
  have hcwd : listingMachine.HasCwd := ⟨_, rfl⟩
  have hwritable : listingMachine.CanWrite "r.json" := rfl
  obtain ⟨t, ht⟩ : ∃ t, TypeName.parse "a.B" = .ok t := ⟨_, rfl⟩
  obtain ⟨r, hr, hmem, hpath⟩ := registry_listing
  have hregistry := checkOn_eq listingMachine listingCheck false
  rw [hr] at hregistry
  constructor
  · refine commands_share_registry.1 rfl rfl rfl rfl hcheck rfl ?_ hroot
    simp only [sharedOptions, List.forall_mem_cons]
    exact ⟨⟨rfl, rfl⟩, ⟨rfl, rfl⟩, ⟨rfl, rfl⟩, ⟨rfl, rfl⟩, ⟨rfl, rfl⟩, List.forall_mem_nil _⟩
  · have hnone : ∀ o ∈ sharedOptions, given ("check" :: listingOwn) o = none := by
      simp only [sharedOptions, List.forall_mem_cons]
      exact ⟨rfl, rfl, rfl, rfl, rfl, List.forall_mem_nil _⟩
    have hname : looksLikeOption "a.B" = false := rfl
    have hown : parse ("check" :: listingOwn) =
        .ok { listingCheck with config := "surfacereg.toml", overrides := {} } := rfl
    have hcommand : listingCheck.command = .check "r.json" false none none := rfl
    obtain ⟨k, hk, -, -, hagree⟩ := commands_share_registry.2 states_listing (by decide) hname hown hcommand hnone
    obtain rfl : listingCheck = k := Except.ok.inj (hcheck.symm.trans hk)
    obtain ⟨o₁, o₂, o₃, m', ho₁, ho₂, ho₃, ⟨f, hf, -⟩ | ⟨out, hout, hends, hshown, hshows, hlookup⟩⟩ :=
      hagree listingMachine hroot
    · rw [hregistry] at hf
      cases hf
    · obtain ⟨hlisted, hsurface⟩ : "a.B" ∈ out.report.data.ignoredTypes ∧
          out.report.data.apiSurfacePath = "docs/api.txt" := by
        rw [hregistry] at hout
        cases hout
        exact ⟨hmem, hpath⟩
      have hcode : o₃.exitCode ≠ 1 := by
        cases hrun : (runCheck listingCheck "r.json" false none : StateM Machine Outcome) listingMachine with
        | mk o m₁ =>
          obtain ⟨m₂, p, hreport, -⟩ := hwritable.writes hcwd out.report.serialize
          have hclear : ¬Obstructed listingMachine listingCheck "r.json" false none :=
            not_obstructed hroot hout hreport (by simp)
          have hverdict := (leavesReport_of_runCheck hcwd hwritable hrun (by simp)).2
          cases ho₃.symm.trans (run_check hcheck rfl hrun)
          exact fun h => hclear (hverdict.mp h)
      cases hends with
      | verdict _ hfile =>
        obtain ⟨text, hread, hparse⟩ := hfile hcwd (by simp)
        exact ⟨o₁, o₂, o₃, m', out.report, text, ho₁, ho₂, ho₃, hread, hparse, hshown, hshows,
          (hlookup t ht).trans (if_pos hlisted), hlisted, hsurface⟩
      | unwritten f hfails => exact absurd (hfails.elim (·.exitCode) (·.exitCode)) hcode

end CommandLine

end SurfaceRegistry
