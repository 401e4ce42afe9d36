import SurfaceRegistry.Proofs.Text.Lines
import SurfaceRegistry.Report.Markdown

/-!
# What a report shows as Markdown

The Markdown text of a report is written line by line: some lines about the report, and then for each finding the line
of its list item with the line of its help below, if there is one (`Report.hasLines_markdown`). A line of the first kind
is told from one of the second by how it begins, whatever is written on it. If no check and no code holds a backtick,
the parts of an item are found again between the first ones; so two reports with the same text show the same
(`Report.markdown_shows_findings`).
-/

namespace SurfaceRegistry

theorem Severity.heading_injective : Function.Injective heading := by
  intro a b
  cases a <;> cases b <;> decide

theorem Verdict.heading_injective : Function.Injective heading := by
  intro a b
  cases a <;> cases b <;> decide

/-! ### Lines of a finding -/

namespace Finding

/-- What is shown of a finding. -/
def shown (f : Finding) : Severity × String × String × String × Option String :=
  (f.severity, f.checkId, f.code, f.message, f.help)

/-- Each text of a finding that is shown stays on its line, and the names of the check and the code between their
backticks. -/
structure Listable (f : Finding) : Prop where
  checkId : '\x60' ∉ f.checkId.toList ∧ '\n' ∉ f.checkId.toList
  code : '\x60' ∉ f.code.toList ∧ '\n' ∉ f.code.toList
  message : '\n' ∉ f.message.toList
  help : ∀ help ∈ f.help, '\n' ∉ help.toList

/-- The line of the list item. -/
def itemLine (f : Finding) : String :=
  "- [" ++ f.severity.heading ++ "] `" ++ f.checkId ++ "` / `" ++ f.code ++ "`: " ++ f.message

/-- The line of a help. -/
def helpLine (help : String) : String :=
  "  - help: " ++ help

/-- The lines of a finding: its item, and the help below if there is one. -/
def markdownLines (f : Finding) : List String :=
  f.itemLine :: f.help.toList.map helpLine

/-- Whether a line begins like a list item of a finding. -/
def isItemLine (line : String) : Bool :=
  "- [".toList.isPrefixOf line.toList

/-- Whether a line begins like the help of a finding. -/
def isHelpLine (line : String) : Bool :=
  "  - help: ".toList.isPrefixOf line.toList

variable {f g : Finding}

theorem notMem_heading (s : Severity) : ']' ∉ s.heading.toList ∧ '\n' ∉ s.heading.toList := by
  cases s <;> decide

theorem notMem_itemLine (h : f.Listable) : '\n' ∉ f.itemLine.toList := by
  unfold itemLine
  simp only [String.toList_append, List.mem_append, not_or]
  exact ⟨⟨⟨⟨⟨⟨⟨by decide, (notMem_heading f.severity).2⟩, by decide⟩, h.checkId.2⟩, by decide⟩, h.code.2⟩, by decide⟩,
    h.message⟩

theorem notMem_helpLine {help : String} (h : '\n' ∉ help.toList) : '\n' ∉ (helpLine help).toList := by
  rw [helpLine, String.toList_append, List.mem_append, not_or]
  exact ⟨by decide, h⟩

theorem hasLines_helpItem (h : f.Listable) : Text.HasLines f.helpItem (f.help.toList.map helpLine) := by
  rw [helpItem]
  cases hhelp : f.help with
  | none => exact .nil
  | some help => exact .line (notMem_helpLine (h.help help hhelp))

theorem hasLines_markdownItem (h : f.Listable) : Text.HasLines f.markdownItem f.markdownLines :=
  (Text.HasLines.line (notMem_itemLine h)).append (hasLines_helpItem h)

/-- The bracket and the backticks divide an item into its parts. -/
theorem toList_itemLine (f : Finding) :
    f.itemLine.toList = "- [".toList ++ (f.severity.heading.toList ++ ']' :: (" `".toList ++ (f.checkId.toList ++
      '\x60' :: (" / `".toList ++ (f.code.toList ++ '\x60' :: (": ".toList ++ f.message.toList)))))) := by
  unfold itemLine
  simp

theorem eq_of_itemLine (hf : f.Listable) (hg : g.Listable) (h : f.itemLine = g.itemLine) :
    f.severity = g.severity ∧ f.checkId = g.checkId ∧ f.code = g.code ∧ f.message = g.message := by
  have hchars := congrArg String.toList h
  rw [toList_itemLine, toList_itemLine, List.append_cancel_left_eq] at hchars
  obtain ⟨hseverity, hchars⟩ := Text.append_cons_inj (notMem_heading _).1 (notMem_heading _).1 hchars
  obtain ⟨hcheck, hchars⟩ := Text.append_cons_inj hf.checkId.1 hg.checkId.1 (List.append_cancel_left hchars)
  obtain ⟨hcode, hchars⟩ := Text.append_cons_inj hf.code.1 hg.code.1 (List.append_cancel_left hchars)
  have hmessage := List.append_cancel_left hchars
  rw [String.toList_inj] at hseverity hcheck hcode hmessage
  exact ⟨Severity.heading_injective hseverity, hcheck, hcode, hmessage⟩

theorem helpLine_injective : Function.Injective helpLine := by
  intro a b h
  simpa [helpLine, ← String.toList_inj] using h

/-! ### Items and helps -/

@[simp] theorem isItemLine_itemLine (f : Finding) : isItemLine f.itemLine = true := by
  simp [isItemLine, toList_itemLine]

@[simp] theorem isHelpLine_itemLine (f : Finding) : isHelpLine f.itemLine = false := by
  rw [isHelpLine, toList_itemLine]
  rfl

@[simp] theorem isItemLine_helpLine (help : String) : isItemLine (helpLine help) = false := by
  rw [isItemLine, helpLine, String.toList_append]
  rfl

@[simp] theorem isHelpLine_helpLine (help : String) : isHelpLine (helpLine help) = true := by
  simp [isHelpLine, helpLine]

theorem itemLine_ne_helpLine (f : Finding) (help : String) : f.itemLine ≠ helpLine help := by
  intro h
  have hitem := f.isItemLine_itemLine
  rw [h, isItemLine_helpLine] at hitem
  cases hitem

/-- No help stands in front of the first item. -/
theorem head?_markdownLines_ne (fs : List Finding) (help : String) :
    (fs.flatMap markdownLines).head? ≠ some (helpLine help) := by
  cases fs with
  | nil => simp
  | cons f fs => exact fun h => f.itemLine_ne_helpLine help (Option.some.inj h)

/-- The lines of findings tell what is shown of them, one finding after another. -/
theorem map_shown_eq {fs gs : List Finding} (hfs : ∀ f ∈ fs, f.Listable) (hgs : ∀ g ∈ gs, g.Listable)
    (h : fs.flatMap markdownLines = gs.flatMap markdownLines) : fs.map shown = gs.map shown := by
  induction fs generalizing gs with
  | nil =>
    cases gs with
    | nil => rfl
    | cons g gs => cases h
  | cons f fs ih =>
    cases gs with
    | nil => cases h
    | cons g gs =>
      obtain ⟨hf, hfs⟩ := List.forall_mem_cons.mp hfs
      obtain ⟨hg, hgs⟩ := List.forall_mem_cons.mp hgs
      obtain ⟨hitem, hrest⟩ := List.cons.inj h
      obtain ⟨hseverity, hcheck, hcode, hmessage⟩ := eq_of_itemLine hf hg hitem
      obtain ⟨hhelp, hrest⟩ :=
        Text.optionalLine_inj helpLine_injective (head?_markdownLines_ne fs) (head?_markdownLines_ne gs) hrest
      rw [List.map_cons, List.map_cons, ih hfs hgs hrest, shown, hseverity, hcheck, hcode, hmessage, hhelp]
      rfl

end Finding

/-! ### Lines of a report -/

namespace Report

/-- The line of the verdict. -/
def verdictLine (v : Verdict) : String :=
  "- Verdict: **" ++ v.heading ++ "**"

/-- The line of the counts. -/
def countsLine (counts : VerdictCounts) : String :=
  "- Findings: " ++ toString counts.error.toNat ++ " error / " ++ toString counts.warn.toNat ++ " warn / " ++
    toString counts.info.toNat ++ " info"

/-- The line of the number of sources. -/
def sourcesLine (n : UInt32) : String :=
  "- Nightly sources: " ++ toString n.toNat

/-- The lines in front of the findings, or in place of them if there are none. -/
def findingsHead (findings : List Finding) : List String :=
  if findings.isEmpty then ["No findings."] else ["## Findings", ""]

/-- The lines up to the first finding. -/
def headLines (r : Report) : List String :=
  "# Surfacereg report" :: "" :: verdictLine r.verdict :: countsLine r.counts ::
    (r.data.nightlySources.toList.map sourcesLine ++ "" :: findingsHead r.findings)

/-- Each finding can be listed. -/
def Listable (r : Report) : Prop :=
  ∀ f ∈ r.findings, f.Listable

variable {r r' : Report}

theorem notMem_countsLine (counts : VerdictCounts) : '\n' ∉ (countsLine counts).toList := by
  have hnumber := Text.notMem_decimals (c := '\n') (by decide)
  unfold countsLine
  simp only [String.toList_append, List.mem_append, not_or]
  exact ⟨⟨⟨⟨⟨⟨by decide, hnumber _⟩, by decide⟩, hnumber _⟩, by decide⟩, hnumber _⟩, by decide⟩

theorem notMem_sourcesLine (n : UInt32) : '\n' ∉ (sourcesLine n).toList := by
  unfold sourcesLine
  rw [String.toList_append, List.mem_append, not_or]
  exact ⟨by decide, Text.notMem_decimals (by decide) _⟩

theorem hasLines_sourcesItem (r : Report) :
    Text.HasLines r.sourcesItem (r.data.nightlySources.toList.map sourcesLine) := by
  rw [sourcesItem]
  cases r.data.nightlySources with
  | none => exact .nil
  | some n => exact .line (notMem_sourcesLine n)

theorem hasLines_markdownFindings (h : r.Listable) :
    Text.HasLines r.markdownFindings (findingsHead r.findings ++ r.findings.flatMap Finding.markdownLines) := by
  rw [markdownFindings, findingsHead]
  cases hempty : r.findings.isEmpty with
  | true =>
    rw [List.isEmpty_iff.mp hempty]
    exact ⟨rfl, by decide⟩
  | false =>
    have hhead : Text.HasLines "## Findings\n\n" ["## Findings", ""] := ⟨rfl, by decide⟩
    exact hhead.append (.join fun f hf => Finding.hasLines_markdownItem (h f hf))

theorem hasLines_markdownHead (r : Report) :
    Text.HasLines r.markdownHead (["# Surfacereg report", ""] ++ ([verdictLine r.verdict] ++ ([countsLine r.counts] ++
      (r.data.nightlySources.toList.map sourcesLine ++ [""])))) := by
  have htitle : Text.HasLines "# Surfacereg report\n\n" ["# Surfacereg report", ""] := ⟨rfl, by decide⟩
  have hverdict : '\n' ∉ (verdictLine r.verdict).toList := by cases r.verdict <;> decide
  have hcounts := notMem_countsLine r.counts
  have hempty : Text.HasLines "\n" [""] := ⟨rfl, by decide⟩
  have htext : r.markdownHead = "# Surfacereg report\n\n" ++ ((verdictLine r.verdict ++ "\n") ++
      ((countsLine r.counts ++ "\n") ++ (r.sourcesItem ++ "\n"))) := by
    have htitle : "# Surfacereg report\n\n- Verdict: **" = "# Surfacereg report\n\n" ++ "- Verdict: **" := rfl
    have hverdict : "**\n- Findings: " = "**" ++ ("\n" ++ "- Findings: ") := rfl
    have hcounts : " info\n" = " info" ++ "\n" := rfl
    unfold markdownHead verdictLine countsLine
    rw [htitle, hverdict, hcounts]
    simp only [String.append_assoc]
  rw [htext]
  exact htitle.append (.append (.line hverdict) (.append (.line hcounts) ((hasLines_sourcesItem r).append hempty)))

theorem hasLines_markdown (h : r.Listable) :
    Text.HasLines r.markdown (r.headLines ++ r.findings.flatMap Finding.markdownLines) := by
  have hlines := (hasLines_markdownHead r).append (hasLines_markdownFindings h)
  rw [markdown, headLines]
  simpa using hlines

/-! ### Reading the lines -/

theorem verdictLine_injective : Function.Injective verdictLine := by
  intro v w h
  unfold verdictLine at h
  rw [← String.toList_inj] at h
  simp only [String.toList_append, List.append_cancel_right_eq, List.append_cancel_left_eq, String.toList_inj] at h
  exact Verdict.heading_injective h

theorem eq_of_decimals {m n : UInt32} (h : (toString m.toNat).toList = (toString n.toNat).toList) : m = n :=
  UInt32.toNat_inj.mp (Nat.repr_injective (String.toList_inj.mp h))

/-- A space stands behind each number. -/
theorem toList_countsLine (counts : VerdictCounts) :
    (countsLine counts).toList = "- Findings: ".toList ++ ((toString counts.error.toNat).toList ++
      ' ' :: ("error / ".toList ++ ((toString counts.warn.toNat).toList ++ ' ' :: ("warn / ".toList ++
        ((toString counts.info.toNat).toList ++ ' ' :: "info".toList))))) := by
  have herror : " error / ".toList = ' ' :: "error / ".toList := rfl
  have hwarn : " warn / ".toList = ' ' :: "warn / ".toList := rfl
  have hinfo : " info".toList = ' ' :: "info".toList := rfl
  unfold countsLine
  simp only [String.toList_append, herror, hwarn, hinfo, List.append_assoc, List.cons_append]

theorem countsLine_injective : Function.Injective countsLine := by
  intro a b h
  have hnumber := Text.notMem_decimals (c := ' ') (by decide)
  have hchars := congrArg String.toList h
  rw [toList_countsLine, toList_countsLine, List.append_cancel_left_eq] at hchars
  obtain ⟨herror, hchars⟩ := Text.append_cons_inj (hnumber _) (hnumber _) hchars
  obtain ⟨hwarn, hchars⟩ := Text.append_cons_inj (hnumber _) (hnumber _) (List.append_cancel_left hchars)
  obtain ⟨hinfo, -⟩ := Text.append_cons_inj (hnumber _) (hnumber _) (List.append_cancel_left hchars)
  cases a
  cases b
  rw [VerdictCounts.mk.injEq]
  exact ⟨eq_of_decimals hinfo, eq_of_decimals hwarn, eq_of_decimals herror⟩

theorem sourcesLine_injective : Function.Injective sourcesLine := by
  intro m n h
  unfold sourcesLine at h
  rw [← String.toList_inj, String.toList_append, String.toList_append, List.append_cancel_left_eq] at h
  exact eq_of_decimals h

theorem sourcesLine_ne_empty (n : UInt32) : sourcesLine n ≠ "" := by
  intro h
  unfold sourcesLine at h
  rw [← String.toList_inj, String.toList_append] at h
  exact absurd (List.append_eq_nil_iff.mp h).1 (by decide)

theorem eq_of_findingsHead {fs gs : List Finding}
    (h : findingsHead fs ++ fs.flatMap Finding.markdownLines = findingsHead gs ++ gs.flatMap Finding.markdownLines) :
    fs.flatMap Finding.markdownLines = gs.flatMap Finding.markdownLines := by
  have hne : "No findings." ≠ "## Findings" := by decide
  unfold findingsHead at h
  cases fs with
  | nil =>
    cases gs with
    | nil => rfl
    | cons g gs => exact absurd (List.cons.inj h).1 hne
  | cons f fs =>
    cases gs with
    | nil => exact absurd (List.cons.inj h).1.symm hne
    | cons g gs => exact (List.cons.inj (List.cons.inj h).2).2

/-- All that two reports have in common when they have the same Markdown text. -/
structure SameShown (r r' : Report) : Prop where
  verdict : r.verdict = r'.verdict
  counts : r.counts = r'.counts
  nightlySources : r.data.nightlySources = r'.data.nightlySources
  findings : r.findings.map Finding.shown = r'.findings.map Finding.shown

theorem sameShown_of_markdown (hr : r.Listable) (hr' : r'.Listable) (h : r.markdown = r'.markdown) :
    r.SameShown r' := by
  have hlines := hasLines_markdown hr
  rw [h] at hlines
  have hsame := hlines.unique (hasLines_markdown hr')
  simp only [headLines, List.cons_append, List.append_assoc, List.cons.injEq, true_and] at hsame
  obtain ⟨hverdict, hcounts, hrest⟩ := hsame
  have hempty : ∀ (rest : List String) (n : UInt32), ("" :: rest).head? ≠ some (sourcesLine n) :=
    fun _ n h => sourcesLine_ne_empty n (Option.some.inj h).symm
  obtain ⟨hsources, hrest⟩ := Text.optionalLine_inj sourcesLine_injective (hempty _) (hempty _) hrest
  exact ⟨verdictLine_injective hverdict, countsLine_injective hcounts, hsources,
    Finding.map_shown_eq hr hr' (eq_of_findingsHead (List.cons.inj hrest).2)⟩

/-! ### Items in the text -/

/-- No line in front of the findings begins like one of theirs. -/
theorem of_mem_headLines {line : String} (h : line ∈ r.headLines) :
    Finding.isItemLine line = false ∧ Finding.isHelpLine line = false := by
  simp only [headLines, List.mem_cons, List.mem_append, List.mem_map, Option.mem_toList] at h
  rcases h with rfl | rfl | rfl | rfl | ⟨n, -, rfl⟩ | rfl | h
  · decide
  · decide
  · cases r.verdict <;> decide
  · rw [Finding.isItemLine, Finding.isHelpLine, toList_countsLine]
    exact ⟨rfl, rfl⟩
  · unfold Finding.isItemLine Finding.isHelpLine sourcesLine
    rw [String.toList_append]
    exact ⟨rfl, rfl⟩
  · decide
  · unfold findingsHead at h
    split at h
    · obtain rfl := List.mem_singleton.mp h
      decide
    · rcases List.mem_pair.mp h with rfl | rfl <;> decide

/-- Lines that list findings and nothing else of this kind. -/
structure ListsFindings (lines : List String) (findings : List Finding) : Prop where
  /-- There is one list item for each finding, in their order. -/
  items : lines.filter Finding.isItemLine = findings.map Finding.itemLine
  /-- There is one help for each finding that has one. -/
  helps : lines.filter Finding.isHelpLine = findings.flatMap fun f => f.help.toList.map Finding.helpLine
  /-- The items are the last lines, each with the help of its finding right behind it. -/
  ends : ∃ head, lines = head ++ findings.flatMap fun f => f.itemLine :: f.help.toList.map Finding.helpLine

@[simp] theorem filter_itemLines (f : Finding) : f.markdownLines.filter Finding.isItemLine = [f.itemLine] := by
  have hhelps : (f.help.toList.map Finding.helpLine).filter Finding.isItemLine = [] := by
    cases f.help <;> simp
  rw [Finding.markdownLines, List.filter_cons_of_pos f.isItemLine_itemLine, hhelps]

@[simp] theorem filter_helpLines (f : Finding) :
    f.markdownLines.filter Finding.isHelpLine = f.help.toList.map Finding.helpLine := by
  rw [Finding.markdownLines, List.filter_cons_of_neg (by simp)]
  cases f.help <;> simp

/-- What is looked for and not found in the head is found in the lines of the findings. -/
theorem filter_lines {p : String → Bool} (h : ∀ line ∈ r.headLines, p line = false) :
    (r.headLines ++ r.findings.flatMap Finding.markdownLines).filter p =
      r.findings.flatMap fun f => f.markdownLines.filter p := by
  have hhead : r.headLines.filter p = [] := List.filter_eq_nil_iff.mpr fun line hline => by simp [h line hline]
  rw [List.filter_append, hhead, List.nil_append, List.filter_flatMap]

theorem listsFindings_lines (r : Report) :
    ListsFindings (r.headLines ++ r.findings.flatMap Finding.markdownLines) r.findings where
  items := by
    rw [filter_lines fun line hline => (of_mem_headLines hline).1, List.map_eq_flatMap]
    simp only [filter_itemLines]
  helps := by
    rw [filter_lines fun line hline => (of_mem_headLines hline).2]
    simp only [filter_helpLines]
  ends := ⟨r.headLines, rfl⟩

/-- Two reports with the same Markdown text have the same verdict, counts and number of sources, and what is shown of
their findings is the same, one after another, if the names of checks and codes hold no backtick and no text that is
shown holds a line feed. Then the text has one list item for each finding, in their order, and right behind it the help
if there is one. -/
theorem markdown_shows_findings :
    (∀ r r' : Report, r.Listable → r'.Listable → r.markdown = r'.markdown → r.SameShown r') ∧
    ∀ r : Report, r.Listable → ∃ lines, Text.HasLines r.markdown lines ∧ ListsFindings lines r.findings := by
  refine ⟨fun r r' => sameShown_of_markdown, fun r h => ?_⟩
  exact ⟨_, hasLines_markdown h, r.listsFindings_lines⟩

/-- A report with texts that look like parts of what is shown, and a help for one of its findings. -/
def lookalikeReport : Report :=
  { runtimeError .epoch "" with
    findings := [
      { severity := .warning
        checkId := "a: b"
        code := "c] d"
        message := "\x60e\x60: - [ERROR] \x60f\x60"
        help := some "  - help: g" },
      { severity := .error, checkId := "", code := "", message := "  - help: h" }] }

/-- The same findings about something, in a report of another version. -/
def otherReport : Report :=
  { lookalikeReport with
    schema := ""
    findings := lookalikeReport.findings.map fun f => { f with subject := some "i", path := some ⟨"j"⟩ } }

theorem markdown_shows_findings_of_lookalike :
    lookalikeReport.Listable ∧ otherReport.Listable ∧ lookalikeReport.markdown = otherReport.markdown ∧
      lookalikeReport.SameShown otherReport ∧
      ∃ lines, Text.HasLines lookalikeReport.markdown lines ∧
        (lines.filter Finding.isItemLine).length = 2 ∧ lines.filter Finding.isHelpLine = ["  - help:   - help: g"] := by
  have hlookalike : lookalikeReport.Listable := by
    refine List.forall_mem_cons.mpr ⟨?_, List.forall_mem_singleton.mpr ?_⟩
    · exact ⟨by decide, by decide, by decide, by decide⟩
    · exact ⟨by decide, by decide, by decide, by decide⟩
  have hother : otherReport.Listable := by
    intro g hg
    obtain ⟨f, hf, rfl⟩ := List.mem_map.mp hg
    obtain ⟨hcheck, hcode, hmessage, hhelp⟩ := hlookalike f hf
    exact ⟨hcheck, hcode, hmessage, hhelp⟩
  obtain ⟨hsame, hlists⟩ := markdown_shows_findings
  obtain ⟨lines, hlines, hlist⟩ := hlists lookalikeReport hlookalike
  refine ⟨hlookalike, hother, rfl, hsame _ _ hlookalike hother rfl, lines, hlines, ?_, ?_⟩
  · rw [hlist.items]
    rfl
  · rw [hlist.helps]
    rfl

end Report

end SurfaceRegistry
