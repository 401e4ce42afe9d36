import SurfaceRegistry.Proofs.CommandLine.SameRegistry
import SurfaceRegistry.Proofs.Disk.Changes

/-!
# What a run writes

A command line names the files that its run may write (`outputs`): the report of a check and its Markdown, if that is
asked for, or the Markdown of a stored report. They are the values that its words state for the options of these files,
or the defaults of these (`outputs_of_parse`). Whatever happens, the run edits the machine for these alone
(`editsFor_run`). All other commands name none (`outputs_eq_nil`), so they leave the machine as it is.
-/

namespace SurfaceRegistry.CommandLine

open Disk (Machine)
open Disk.Machine (Changes Edits EditsFor editsFor_of_look editsFor_pure editsFor_writeText run_bind)

/-- The files that a command may write. -/
def Command.outputs : Command → List String
  | .check reportOut _ _ markdownOut => reportOut :: markdownOut.toList
  | .md _ output => output.toList
  | .showRegistry _ | .ignored _ | .annotations _ _ | .schema => []

/-- The files that the run of a command line may write. -/
def outputs (words : List String) : List String :=
  match parse words with
  | .ok i => i.command.outputs
  | .error _ => []

/-! ### Outputs and words -/

/-- The files that words state as outputs. -/
def statedOutputs (words : List String) : List String :=
  match commandName? words with
  | some "check" =>
    (given words reportOut).getD "artifacts/surfacereg/report.json" ::
      if (given words writeMarkdown).isSome then
        [(given words markdownOut).getD "artifacts/surfacereg/comment.md"]
      else []
  | some "md" => (given words output).toList
  | _ => []

section

variable {words : List String} {i : Invocation} {o : OptionSpec} {spec : CommandSpec} {before after : Matches}
  {path : String}

/-- What a command line may write is what its words state. -/
theorem outputs_of_parse (h : parse words = .ok i) : outputs words = statedOutputs words := by
  rw [outputs, h]
  obtain ⟨spec, before, after, command, hsides, hcommand, -, -, rfl⟩ := parse_eq_ok_iff.mp h
  have hspec := hsides.mem_commands
  rw [statedOutputs, hsides.commandName?_eq]
  show command.outputs = _
  simp only [commands, List.mem_cons, List.not_mem_nil, or_false] at hspec
  rcases hspec with rfl | rfl | rfl | rfl | rfl | rfl
  · cases hcommand
    rfl
  · rw [hsides.given_own (o := reportOut) (by simp), hsides.given_own (o := writeMarkdown) (by simp),
      hsides.given_own (o := markdownOut) (by simp), ← Matches.has_eq_isSome_value?]
    cases hcommand
    cases after.has writeMarkdown <;> rfl
  · cases hoperands : after.operands with
    | nil => simp [commandOf, hoperands] at hcommand
    | cons name r =>
      simp only [commandOf, hoperands] at hcommand
      cases hcommand
      rfl
  · rw [hsides.given_own (o := output) (by simp)]
    cases hcommand
    rfl
  · cases hcommand
    rfl
  · cases hcommand
    rfl

example : outputs ["-q", "md", "-oc.md"] = ["c.md"] := rfl

/-- Only a check, and the Markdown of a stored report that is wanted in a file, have outputs. -/
theorem outputs_eq_nil (hcheck : commandName? words ≠ some "check")
    (hmd : commandName? words = some "md" → given words output = none) : outputs words = [] := by
  cases hwords : parse words with
  | error stop => rw [outputs, hwords]
  | ok i =>
    rw [outputs_of_parse hwords, statedOutputs]
    split
    · rename_i hname
      exact absurd hname hcheck
    · rename_i hname
      rw [hmd hname]
      rfl
    · rfl

/-- The value of an option with a default is this, or the words give it. -/
theorem Sides.default_or_gives (h : Sides words spec before after) (ho : o ∈ spec.options ++ globalOptions)
    {value : String} (hdefault : o.default = some value) :
    o.default = some ((given words o).getD value) ∨ Gives words o ((given words o).getD value) := by
  cases hgiven : given words o with
  | none => exact .inl hdefault
  | some v => exact .inr (h.gives ho hgiven)

/-- The words give a command line its outputs, unless they are defaults. -/
theorem gives_of_mem_outputs (hpath : path ∈ outputs words) :
    ∃ o ∈ [reportOut, markdownOut, output], o.default = some path ∨ Gives words o path := by
  cases hwords : parse words with
  | error stop => simp [outputs, hwords] at hpath
  | ok i =>
    rw [outputs_of_parse hwords] at hpath
    obtain ⟨spec, before, after, command, hsides, -, -, -, -⟩ := parse_eq_ok_iff.mp hwords
    have hspec := hsides.mem_commands
    rw [statedOutputs, hsides.commandName?_eq] at hpath
    simp only [commands, List.mem_cons, List.not_mem_nil, or_false] at hspec
    rcases hspec with rfl | rfl | rfl | rfl | rfl | rfl
    · cases hpath
    · rcases List.mem_cons.mp hpath with rfl | hpath
      · exact ⟨reportOut, by simp, hsides.default_or_gives (by simp) rfl⟩
      · split at hpath
        · obtain rfl := List.mem_singleton.mp hpath
          exact ⟨markdownOut, by simp, hsides.default_or_gives (by simp) rfl⟩
        · cases hpath
    · cases hpath
    · exact ⟨output, by simp, .inr (hsides.gives (by simp) (Option.mem_toList.mp hpath))⟩
    · cases hpath
    · cases hpath

/-- A check with a file for its Markdown has the flag for it. -/
theorem has_of_commandOf {report : String} {probe : Bool} {failOn : Option String}
    (hknown : commandNamed? spec.name = some spec)
    (h : commandOf spec after = .ok (.check report probe failOn (some path))) :
    writeMarkdown ∈ spec.options ∧ after.has writeMarkdown = true := by
  unfold commandOf at h
  split at h
  · cases h
  · rename_i hname
    rw [hname] at hknown
    cases hknown
    cases hhas : after.has writeMarkdown with
    | true => exact ⟨by simp, rfl⟩
    | false =>
      rw [hhas] at h
      cases h
  · split at h <;> cases h
  · cases h
  · cases h
  · cases h

/-- A check writes Markdown only if one of the words asks for it. -/
theorem word_of_parse {report : String} {probe : Bool} {failOn : Option String} (h : parse words = .ok i)
    (hcommand : i.command = .check report probe failOn (some path)) : "--write-markdown" ∈ words := by
  obtain ⟨spec, before, after, command, hsides, hof, -, -, rfl⟩ := parse_eq_ok_iff.mp h
  obtain rfl : command = _ := hcommand
  obtain ⟨hmem, hhas⟩ := has_of_commandOf hsides.known hof
  rw [Matches.has_eq_isSome_value?, ← hsides.given_own hmem] at hhas
  obtain ⟨value, hvalue⟩ := Option.isSome_iff_exists.mp hhas
  exact (hsides.gives (List.mem_append_left _ hmem) hvalue).mem_of_flag rfl rfl

end

variable {m m' m₁ : Machine} {i : Invocation}

/-! ### Checks -/

section Check

variable {reportOut : String} {probe : Bool} {markdownOut : Option String} {report : Report}
  {r : Except Failure Verdict} {o : Outcome}

/-- Writing a report edits for its files alone, whether or not it succeeds. -/
theorem Writes.edits (h : Writes report reportOut markdownOut m r m₁) :
    Edits (reportOut :: markdownOut.toList) m m₁ := by
  have hfirst (text : String) : EditsFor (reportOut :: markdownOut.toList) (Files.writeText reportOut text) :=
    editsFor_writeText List.mem_cons_self text
  have hsecond {path : String} (hpath : markdownOut = some path) (text : String) :
      EditsFor (reportOut :: markdownOut.toList) (Files.writeText path text) :=
    editsFor_writeText (.tail _ (Option.mem_toList.mpr hpath)) text
  cases h with
  | nothing hreport => exact (hfirst _).edits hreport
  | report hreport hnone => exact (hfirst _).edits hreport
  | reportOnly hreport hpath hmarkdown => exact ((hfirst _).edits hreport).trans ((hsecond hpath _).edits hmarkdown)
  | both hreport hpath hmarkdown => exact ((hfirst _).edits hreport).trans ((hsecond hpath _).edits hmarkdown)

/-- Up to the verdict or a failure, a check edits for its files alone. -/
theorem exists_edits_checkAndWrite (m : Machine) (i : Invocation) (reportOut : String) (probe : Bool)
    (markdownOut : Option String) :
    ∃ r m₁, Comes (checkAndWrite i reportOut probe markdownOut) m r m₁ ∧
      Edits (reportOut :: markdownOut.toList) m m₁ := by
  by_cases hroot : m.kind? (rootOn m i) = some .directory
  · cases hout : checkOn m i probe with
    | error f => exact ⟨_, m, comes_checkAndWrite_of_check hroot hout, .refl⟩
    | ok out =>
      obtain ⟨r, m₁, hwrites, hcomes⟩ := exists_writes hroot hout reportOut markdownOut
      exact ⟨r, m₁, hcomes, hwrites.edits⟩
  · exact ⟨_, m, comes_checkAndWrite_of_root hroot, .refl⟩

theorem editsFor_writeErrorReport (reportOut : String) (f : Failure) (markdownOut : Option String) :
    EditsFor (reportOut :: markdownOut.toList) (writeErrorReport reportOut f) := by
  rw [writeErrorReport]
  refine (editsFor_of_look (fun _ => rfl) _).bind fun now => ?_
  refine (editsFor_writeText List.mem_cons_self _).bind fun answer => ?_
  split
  · exact editsFor_pure _ _
  · exact editsFor_pure _ _

/-- So does the report of a failure. -/
theorem editsFor_runCheck (i : Invocation) (reportOut : String) (probe : Bool) (markdownOut : Option String) :
    EditsFor (reportOut :: markdownOut.toList) (runCheck i reportOut probe markdownOut) := by
  intro m
  obtain ⟨r, m₁, hcomes, hedits⟩ := exists_edits_checkAndWrite m i reportOut probe markdownOut
  obtain ⟨log, hlog⟩ := hcomes []
  rw [runCheck, run_bind, hlog]
  cases r with
  | ok verdict => exact hedits
  | error f => exact hedits.trans (editsFor_writeErrorReport reportOut f markdownOut m₁)

end Check

/-! ### Other commands -/

/-- The stored report in a file on a machine. -/
def storedReport (m : Machine) (path : String) : Except Failure Report :=
  match ((Files.readText path : StateM Machine _) m).1 with
  | .ok text => Report.load text
  | .error e => .error ⟨[.readReport path], e⟩

theorem comes_readReport (m : Machine) (path : String) :
    Comes (readReport path) m (storedReport m path) m := by
  refine (comes_onHost (run_readText path m)).bind ?_
  rw [storedReport]
  cases ((Files.readText path : StateM Machine _) m).1 with
  | ok text => exact comes_ofResult _ m
  | error e => exact comes_throw _ m

/-- A command that prints something leaves the machine that its steps leave. -/
theorem outcomeOf_of_comes {x : Steps (StateM Machine) Success} {r : Except Failure Success}
    (h : Comes x m r m₁) : ((outcomeOf x : StateM Machine Outcome) m).2 = m₁ := by
  obtain ⟨log, hlog⟩ := h []
  rw [outcomeOf, run_bind, hlog]
  cases r <;> rfl

theorem edits_outcomeOf {x : Steps (StateM Machine) Success} {r : Except Failure Success} {paths : List String}
    (h : Comes x m r m₁) (hedits : Edits paths m m₁) :
    Edits paths m ((outcomeOf x : StateM Machine Outcome) m).2 := by
  rw [outcomeOf_of_comes h]
  exact hedits

theorem runIgnored_leaves (i : Invocation) (name : String) (m : Machine) :
    ((runIgnored i name : StateM Machine Outcome) m).2 = m := by
  obtain ⟨log, hlog⟩ := comes_resolveRegistry m i []
  rw [runIgnored, run_bind, hlog]
  cases registryOn m i <;> rfl

theorem comes_runShow_format (m : Machine) (i : Invocation) (format : String) :
    Comes (runShow i format) m (do
      let format ← failWithin [] .format (ShowFormat.parse format)
      (registryOn m i).map fun r => (0, r.shownAs format)) m :=
  (comes_ofResult _ m).andThen fun _ => (comes_resolveRegistry m i).andThen_map fun _ => comes_pure _ m

theorem comes_runAnnotations (m : Machine) (report : String) (max : Nat) :
    Comes (runAnnotations report max) m
      ((storedReport m report).map fun r => (0, String.join ((r.annotations max).map (· ++ "\n")))) m :=
  (comes_readReport m report).andThen_map fun _ => comes_pure _ m

/-- Without a stored report there is nothing to write. -/
theorem comes_runMd_of_error {report : String} {f : Failure} (h : storedReport m report = .error f)
    (output : Option String) : Comes (runMd report output) m (.error f) m :=
  (h ▸ comes_readReport m report).bind_error _

theorem exists_edits_runMd (m : Machine) (report : String) (output : Option String) :
    ∃ r m₁, Comes (runMd report output) m r m₁ ∧ Edits output.toList m m₁ := by
  cases hstored : storedReport m report with
  | error f => exact ⟨_, m, comes_runMd_of_error hstored output, .refl⟩
  | ok r =>
    have hread : Comes (readReport report) m (.ok r) m := hstored ▸ comes_readReport m report
    cases output with
    | none => exact ⟨_, m, hread.bind (comes_pure _ m), .refl⟩
    | some path =>
      cases hwrite : (Files.writeText path r.markdown : StateM Machine _) m with
      | mk answer m₁ =>
        have hedits : Edits [path] m m₁ := (editsFor_writeText List.mem_cons_self r.markdown).edits hwrite
        have hstep := (comes_orFail hwrite).within .writeMarkdownOutput
        cases answer with
        | error f => exact ⟨_, m₁, hread.bind (hstep.bind_error _), hedits⟩
        | ok _ => exact ⟨_, m₁, hread.bind (hstep.bind (comes_pure _ m₁)), hedits⟩

/-! ### All commands -/

/-- A command edits for the files that it may write. -/
theorem editsFor_runCommand (i : Invocation) : EditsFor i.command.outputs (runCommand i) := by
  intro m
  rw [runCommand]
  cases i.command with
  | showRegistry format => exact edits_outcomeOf (comes_runShow_format m i format) .refl
  | check reportOut probe failOn markdownOut => exact editsFor_runCheck i reportOut probe markdownOut m
  | ignored name => exact editsFor_of_look (runIgnored_leaves i name) _ m
  | md report output =>
    obtain ⟨r, m₁, hcomes, hedits⟩ := exists_edits_runMd m report output
    exact edits_outcomeOf hcomes hedits
  | annotations report max => exact edits_outcomeOf (comes_runAnnotations m report max) .refl
  | schema => exact .refl

/-- So does the run of a command line. -/
theorem editsFor_run (words : List String) : EditsFor (outputs words) (run words) := by
  intro m
  rw [outputs]
  cases hwords : parse words with
  | error stop =>
    rw [run, hwords]
    exact .refl
  | ok i =>
    rw [run_of_parse hwords]
    exact editsFor_runCommand i m

/-- The machine that a run leaves differs from the one that it finds in what was written for the sake of its outputs
alone: all nodes are in their places, no file has another content but one to which an output leads, and nothing is new
but such files and directories on the way to them. The Markdown of a check is an output only if a word asks for it.
Without outputs nothing is changed; only a check and the Markdown of a stored report that is wanted in a file have any.
Nothing is changed either for the Markdown of a stored report that cannot be read. The outputs of a command line are
those that its words state; the words give each of them as the value of the option for it, unless it is the default. -/
theorem run_changes {words : List String} {m m' : Machine} {o : Outcome}
    (hrun : (run words : StateM Machine Outcome) m = (o, m')) :
    (m.HasCwd → Changes (outputs words) m m') ∧
    (∀ i reportOut probe failOn path, parse words = .ok i →
      i.command = .check reportOut probe failOn (some path) → "--write-markdown" ∈ words) ∧
    (outputs words = [] → m' = m) ∧
    (commandName? words ≠ some "check" → (commandName? words = some "md" → given words output = none) → m' = m) ∧
    (∀ i report output f, parse words = .ok i → i.command = .md report output →
      storedReport m report = .error f → m' = m) ∧
    (∀ i, parse words = .ok i → outputs words = statedOutputs words) ∧
    ∀ path ∈ outputs words, ∃ o ∈ [reportOut, markdownOut, output], o.default = some path ∨ Gives words o path := by
  have hedits : Edits (outputs words) m m' := (editsFor_run words).edits hrun
  have hsame (hnone : outputs words = []) : m' = m := by
    rw [hnone] at hedits
    exact hedits.eq_of_nil
  refine ⟨hedits.changes, fun i reportOut probe failOn path => word_of_parse, hsame,
    fun hcheck hmd => hsame (outputs_eq_nil hcheck hmd), fun i report output f hwords hcommand hstored => ?_,
    fun i => outputs_of_parse, fun path => gives_of_mem_outputs⟩
  rw [run_of_parse hwords, runCommand, hcommand] at hrun
  exact (congrArg Prod.snd hrun).symm.trans (outcomeOf_of_comes (comes_runMd_of_error hstored output))

/-- A check whose Markdown cannot be written over a directory makes nothing but the file for its report, and neither
the schema nor the Markdown of a directory changes the machine. -/
theorem run_changes_of_docs :
    (∃ o m', (run docsWords : StateM Machine Outcome) docsMachine = (o, m') ∧
      Changes ["r.json", "docs"] docsMachine m' ∧ "--write-markdown" ∈ docsWords) ∧
    ((run ["schema"] : StateM Machine Outcome) docsMachine).2 = docsMachine ∧
    ((run ["md", "--report", "docs", "--output", "new/comment.md"] : StateM Machine Outcome) docsMachine).2 =
      docsMachine := by
  have hpair (words : List String) : (run words : StateM Machine Outcome) docsMachine =
      (((run words : StateM Machine Outcome) docsMachine).1, ((run words : StateM Machine Outcome) docsMachine).2) :=
    rfl
  have houtputs : outputs docsWords = ["r.json", "docs"] := rfl
  obtain ⟨hchanges, hword, -⟩ := run_changes (hpair docsWords)
  obtain ⟨-, -, -, hschema, -⟩ := run_changes (hpair ["schema"])
  obtain ⟨-, -, -, -, hmd, -⟩ := run_changes (hpair ["md", "--report", "docs", "--output", "new/comment.md"])
  refine ⟨⟨_, _, hpair docsWords, ?_, hword docsInvocation "r.json" false none "docs" rfl rfl⟩, hschema (by decide) (by decide), ?_⟩
  · rw [← houtputs]
    exact hchanges ⟨_, rfl⟩
  · exact hmd _ "docs" (some "new/comment.md") _ rfl rfl rfl

end SurfaceRegistry.CommandLine
