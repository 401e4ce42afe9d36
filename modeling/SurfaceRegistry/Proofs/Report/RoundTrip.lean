import SurfaceRegistry.Proofs.Check.Findings
import SurfaceRegistry.Proofs.Json.Decoding
import SurfaceRegistry.Proofs.Timestamp
import SurfaceRegistry.Report.Encode

/-!
# Reading a report that was written

The text of a report is read back as the report: its texts, numbers and timestamps, the fields that were
left out, and the particulars of its findings. The tree of the text is that of the value that was printed
(`Json.Document.read_pretty`); each structure is an object with its fields in their order, so that it is
decoded by setting them one after another (`Json.Model.decode_slots`).

Particulars must be in normal form: a number beyond 64 bits would be read as another kind of number, and
the members of an object come in the order of their keys. What a check finds is always so.
-/

namespace SurfaceRegistry

open Json (Decoded Slots Tree maxNesting)

/-! ### Enumerations and single values -/

@[simp] theorem decodeSeverity_label (s : Severity) (depth : Nat) :
    Severity.decode depth (.string (some s.label)) = .ok s := by
  cases s <;> rfl

@[simp] theorem decodeVerdict_label (v : Verdict) (depth : Nat) :
    Verdict.decode depth (.string (some v.label)) = .ok v := by
  cases v <;> rfl

@[simp] theorem decodeTimestamp_text (t : Timestamp) (depth : Nat) :
    Timestamp.decode depth (.string (some t.text)) = .ok t := by
  rw [Timestamp.decode, Timestamp.text, String.toList_ofList, Timestamp.parse?_chars]

@[simp] theorem decodeCount_countJson (n : UInt32) (depth : Nat) :
    Json.decodeCount depth (countJson n).tree = .ok n := by
  have hn := n.toNat_lt
  rw [countJson, Json.tree, Json.decodeCount, Json.value?_ofInt ⟨by omega, by omega⟩]
  simp only [UInt32.size]
  rw [if_pos ⟨by omega, by omega⟩]
  simp

/-! ### Structures -/

/-- The fields of counts as they are written. -/
def VerdictCounts.slots (c : VerdictCounts) : Slots VerdictCounts :=
  VerdictCounts.model.fields.zip
    [some (countJson c.info).tree, some (countJson c.warn).tree, some (countJson c.error).tree]

theorem decodeCounts_toJson (c : VerdictCounts) {depth : Nat} (hd : depth < maxNesting) :
    VerdictCounts.model.decode depth c.toJson.tree = .ok c := by
  have ht : c.toJson.tree = .object c.slots.members true := rfl
  rw [ht, Json.Model.decode_slots rfl (by decide) (by simp [VerdictCounts.slots, VerdictCounts.model]) hd]
  simp only [VerdictCounts.slots, VerdictCounts.model, List.zip_cons_cons, Slots.set, Json.Field.of,
    decodeCount_countJson]
  rfl

/-- The fields of a program's name as they are written. -/
def ToolMeta.slots (t : ToolMeta) : Slots ToolMeta :=
  ToolMeta.model.fields.zip [some (.string (some t.name)), some (.string (some t.version))]

theorem decodeTool_toJson (t : ToolMeta) {depth : Nat} (hd : depth < maxNesting) :
    ToolMeta.model.decode depth t.toJson.tree = .ok t := by
  have ht : t.toJson.tree = .object t.slots.members true := rfl
  rw [ht, Json.Model.decode_slots rfl (by decide) (by simp [ToolMeta.slots, ToolMeta.model]) hd]
  rfl

/-- The fields of the values of a report as they are written. -/
def ReportData.slots (d : ReportData) : Slots ReportData :=
  ReportData.model.fields.zip
    [some (.string (some d.apiSurfacePath)), some (.string (some d.nightlyTestsDirectoryPath)),
     some (.string (some d.nightlyTestsPackage)), some (Json.array (d.ignoredTypes.map .string)).tree,
     d.nightlySources.map fun n => (countJson n).tree, some (.bool d.layoutProbed)]

theorem ReportData.tree_toJson (d : ReportData) : d.toJson.tree = .object d.slots.members true := by
  obtain ⟨surface, directory, package, types, sources, probed⟩ := d
  cases sources <;> rfl

theorem decodeData_toJson (d : ReportData) {depth : Nat} (hd : depth + 1 < maxNesting) :
    ReportData.model.decode depth d.toJson.tree = .ok d := by
  have hlist : Json.decodeList Json.decodeText (depth + 1)
      (Json.array (d.ignoredTypes.map .string)).tree = .ok d.ignoredTypes :=
    Json.decodeList_tree hd fun s _ => rfl
  have hcount (n : UInt32) : Json.decodeOptional Json.decodeCount (depth + 1) (countJson n).tree =
      .ok (some n) :=
    Json.decodeOptional_of_ok (by simp [countJson, Json.tree]) (decodeCount_countJson n _)
  rw [d.tree_toJson, Json.Model.decode_slots rfl (by decide)
    (by simp [ReportData.slots, ReportData.model, Json.Field.of]) (by omega)]
  obtain ⟨surface, directory, package, types, sources, probed⟩ := d
  simp only at hlist
  cases sources <;>
  · simp only [ReportData.slots, ReportData.model, List.zip_cons_cons, Slots.set, Json.Field.of,
      Option.map_some, Option.map_none, hlist, hcount, Json.decodeText, Json.decodeBool]
    rfl

/-! ### Findings -/

/-- Particulars that are written: all but `null`. -/
def dataTree : Json → Option Tree
  | .null => none
  | v => some v.tree

/-- The fields of a finding as they are written. -/
def Finding.slots (f : Finding) : Slots Finding :=
  Finding.model.fields.zip
    [some (.string (some f.severity.label)), some (.string (some f.checkId)),
     some (.string (some f.code)), some (.string (some f.message)),
     f.subject.map fun s => .string (some s), f.path.map fun p => .string (some p.text),
     f.help.map fun s => .string (some s), dataTree f.data]

theorem Finding.tree_toJson (f : Finding) : f.toJson.tree = .object f.slots.members true := by
  obtain ⟨severity, checkId, code, message, subject, path, help, data⟩ := f
  cases subject <;> cases path <;> cases help <;> cases data <;> rfl

theorem dataTree_cases (v : Json) : v = .null ∨ dataTree v = some v.tree := by
  cases v <;> simp [dataTree]

theorem decodeFinding_toJson (f : Finding) {depth : Nat} (hd : depth < maxNesting)
    (hc : f.data.IsCanonical) (hdepth : depth + 1 + f.data.depth ≤ maxNesting) :
    Finding.model.decode depth f.toJson.tree = .ok f := by
  have hdata := hc.decodesBack (depth + 1) hdepth
  rw [f.tree_toJson, Json.Model.decode_slots rfl (by decide)
    (by simp [Finding.slots, Finding.model, Json.Field.of]) hd]
  obtain ⟨severity, checkId, code, message, subject, path, help, data⟩ := f
  simp only at hdata
  simp only [Finding.slots, Finding.model, List.zip_cons_cons, Slots.set, Json.Field.of,
    decodeSeverity_label, Json.decodeText]
  rcases dataTree_cases data with rfl | ht
  · cases subject <;> cases path <;> cases help <;> rfl
  · rw [ht]
    cases subject <;> cases path <;> cases help <;>
    · simp only [Option.map_some, Option.map_none, Slots.set, hdata]
      rfl

/-! ### Reports -/

/-- A finding that can be read back: its particulars are in normal form, and so many arrays and objects
of them lie inside one another as a reader allows beside the three around them. -/
structure Finding.Storable (f : Finding) : Prop where
  canonical : f.data.IsCanonical
  depth : f.data.depth ≤ 124

/-- A report that can be read back. -/
structure Report.Storable (r : Report) : Prop where
  schema : r.schema = Report.schemaName
  findings : ∀ f ∈ r.findings, f.Storable

namespace Report

/-- The fields of a report as they are written. -/
def slots (r : Report) : Slots Report :=
  Report.model.fields.zip
    [some (.string (some r.schema)), some r.tool.toJson.tree, some (.string (some r.startedAt.text)),
     some (.string (some r.finishedAt.text)), some (.string (some r.verdict.label)),
     some r.counts.toJson.tree, some (Json.array (r.findings.map Finding.toJson)).tree,
     some r.data.toJson.tree]

theorem decode_toJson {r : Report} (h : r.Storable) : Report.model.decode 0 r.toJson.tree = .ok r := by
  have ht : r.toJson.tree = .object r.slots.members true := rfl
  have htool : ToolMeta.model.decode 1 r.tool.toJson.tree = .ok r.tool :=
    decodeTool_toJson r.tool (by decide)
  have hcounts : VerdictCounts.model.decode 1 r.counts.toJson.tree = .ok r.counts :=
    decodeCounts_toJson r.counts (by decide)
  have hdata : ReportData.model.decode 1 r.data.toJson.tree = .ok r.data :=
    decodeData_toJson r.data (by decide)
  have hfindings : Json.decodeList Finding.model.decode 1
      (Json.array (r.findings.map Finding.toJson)).tree = .ok r.findings := by
    refine Json.decodeList_tree (by decide) fun f hf => ?_
    have hdepth := (h.findings f hf).depth
    exact decodeFinding_toJson f (by decide) (h.findings f hf).canonical (by unfold maxNesting; omega)
  rw [ht, Json.Model.decode_slots rfl (by decide) (by simp [slots, model, Json.Field.of]) (by decide)]
  simp only [slots, model, List.zip_cons_cons, Slots.set, Json.Field.of, decodeTimestamp_text,
    decodeVerdict_label, Json.decodeText, htool, hcounts, hdata, hfindings]
  rfl

theorem floatFree_optionalMember {α : Type} {toJson : α → Json} (h : ∀ a, (toJson a).FloatFree)
    (key : String) (value : Option α) : ∀ m ∈ optionalMember key toJson value, m.2.FloatFree := by
  cases value with
  | none => simp [optionalMember]
  | some a => simpa [optionalMember] using h a

theorem floatFree_dataMember {v : Json} (h : v.FloatFree) : ∀ m ∈ dataMember v, m.2.FloatFree := by
  cases v <;> simp [dataMember, h]

theorem floatFree_strings (texts : List String) : (Json.array (texts.map .string)).FloatFree := by
  refine .array fun v hv => ?_
  obtain ⟨s, -, rfl⟩ := List.mem_map.mp hv
  exact .string s

theorem floatFree_finding {f : Finding} (h : f.data.FloatFree) : f.toJson.FloatFree := by
  have htext {α : Type} (g : α → String) (a : α) : (Json.string (g a)).FloatFree := .string (g a)
  refine .object ?_
  simp only [List.forall_mem_append]
  refine ⟨⟨⟨⟨?_, ?_⟩, ?_⟩, ?_⟩, floatFree_dataMember h⟩
  · simp [Json.FloatFree.string]
  · exact floatFree_optionalMember (htext id) _ _
  · exact floatFree_optionalMember (htext RepoPath.text) _ _
  · exact floatFree_optionalMember (htext id) _ _

theorem floatFree_data (d : ReportData) : d.toJson.FloatFree := by
  refine .object ?_
  simp only [List.forall_mem_append]
  refine ⟨⟨?_, floatFree_optionalMember (fun n => .integer _) _ _⟩, ?_⟩
  · simp [Json.FloatFree.string, floatFree_strings]
  · simp [Json.FloatFree.bool]

theorem floatFree_toJson {r : Report} (h : r.Storable) : r.toJson.FloatFree := by
  have htool : r.tool.toJson.FloatFree := .object (by simp [Json.FloatFree.string])
  have hcounts : r.counts.toJson.FloatFree := .object (by simp [countJson, Json.FloatFree.integer])
  have hfindings : (Json.array (r.findings.map Finding.toJson)).FloatFree := by
    refine .array fun v hv => ?_
    obtain ⟨f, hf, rfl⟩ := List.mem_map.mp hv
    exact floatFree_finding (h.findings f hf).canonical.floatFree
  exact .object (by simp [Json.FloatFree.string, htool, hcounts, hfindings, floatFree_data])

theorem parse_serialize_of_storable {r : Report} (h : r.Storable) : parse r.serialize = .ok r := by
  rw [parse, Json.decodeDocument, serialize, Json.Document.read_pretty (floatFree_toJson h)]
  simp only [decode_toJson h]
  show (if r.schema = schemaName then _ else _) = _
  rw [if_pos h.schema]

/-! ### The reports that the program makes -/

theorem storable_of_null {f : Finding} (h : f.data = .null) : f.Storable := by
  constructor <;> rw [h]
  · exact .null
  · simp [Json.depth]

theorem storable_of_value {f : Finding} {value : String} (h : f.data = Rules.valueData value) :
    f.Storable := by
  constructor <;> rw [h, Rules.valueData]
  · exact .object (by simp) (by simp [Json.IsCanonical.string])
  · simp [Json.depth, Json.membersDepth]

theorem storable_duplicateIgnoredType (index first : Nat) (value : String) :
    (Rules.duplicateIgnoredType index first value).Storable := by
  have hi := (UInt64.ofNat first).toNat_lt
  have hc : (Rules.indexJson first).IsCanonical := .integer ⟨by omega, by omega⟩
  constructor <;> rw [Rules.duplicateIgnoredType]
  · exact .object (by simp; decide) (by simp [hc, Json.IsCanonical.string])
  · simp [Rules.indexJson, Json.depth, Json.membersDepth]

theorem storable_nightlyDirMissing (path : RepoPath) (kind : Option NodeKind) :
    (Layout.nightlyDirMissing path kind).Storable := by
  constructor <;> rw [Layout.nightlyDirMissing, Layout.finding]
  · exact .object (by simp) (by simp [Json.IsCanonical.bool])
  · simp [Json.depth, Json.membersDepth]

theorem storable_of_rules {f : Finding} (h : Rules.IsFinding f) : f.Storable := by
  cases h with
  | emptyValue _ => exact storable_of_null rfl
  | absolutePath _ value => exact storable_of_value rfl
  | parentEscape _ value => exact storable_of_value rfl
  | invalidPackage value _ => exact storable_of_value rfl
  | invalidTypeName _ value _ => exact storable_of_value rfl
  | duplicateIgnoredType index first value => exact storable_duplicateIgnoredType index first value

theorem storable_of_layout {f : Finding} (h : Layout.IsFinding f) : f.Storable := by
  cases h with
  | apiSurfaceNotFile _ => exact storable_of_null rfl
  | apiSurfaceMissing _ => exact storable_of_null rfl
  | nightlyDirMissing path kind => exact storable_nightlyDirMissing path kind
  | nightlyPackageMissing _ => exact storable_of_null rfl

theorem storable_of_run {times : CheckTimes} {root text : String} {o : Overrides}
    {view : Option Layout.View} {out : Check.Output} (h : Check.run times root text o view = .ok out) :
    out.report.Storable := by
  obtain ⟨r, -, rfl⟩ := Check.run_eq_ok h
  refine ⟨rfl, fun f hf => ?_⟩
  rcases Check.isFinding_of_mem hf with hf | hf
  · exact storable_of_rules hf
  · exact storable_of_layout hf

theorem storable_runtimeError (now : Timestamp) (message : String) :
    (runtimeError now message).Storable := by
  refine ⟨rfl, fun f hf => ?_⟩
  obtain rfl := List.mem_singleton.mp hf
  exact storable_of_null rfl

/-- A report is read back from its text: one of the supported version whose findings have particulars in
normal form, at most 124 arrays and objects deep, and so every report that the program makes. -/
theorem parse_serialize :
    (∀ r : Report, r.schema = schemaName →
      (∀ f ∈ r.findings, f.data.IsCanonical ∧ f.data.depth ≤ 124) → parse r.serialize = .ok r) ∧
    (∀ (times : CheckTimes) (root text : String) (o : Overrides) (view : Option Layout.View)
      (out : Check.Output), Check.run times root text o view = .ok out →
      parse out.report.serialize = .ok out.report) ∧
    (∀ (now : Timestamp) (message : String),
      parse (runtimeError now message).serialize = .ok (runtimeError now message)) := by
  refine ⟨fun r hs hf => ?_, fun times root text o view out h => ?_, fun now message => ?_⟩
  · exact parse_serialize_of_storable ⟨hs, fun f h => ⟨(hf f h).1, (hf f h).2⟩⟩
  · exact parse_serialize_of_storable (storable_of_run h)
  · exact parse_serialize_of_storable (storable_runtimeError now message)

/-- A finding with texts that need escapes and with nested particulars, and a check of an empty value. -/
theorem parse_serialize_instances :
    (let f : Finding :=
      { severity := .info, checkId := "a", code := "b", message := "\"\n\\é\x01", subject := some ""
        help := some "c", data := .object [("k", .array [.integer (-1), .null]), ("l", .object [])] }
     let r : Report := { runtimeError .epoch "" with findings := [f] }
     r.schema = schemaName ∧ (∀ g ∈ r.findings, g.data.IsCanonical ∧ g.data.depth ≤ 124) ∧
       parse r.serialize = .ok r) ∧
    (∃ out, Check.run ⟨.epoch, .epoch⟩ "/" "" { apiSurfacePath := some "" } none = .ok out ∧
      parse out.report.serialize = .ok out.report) := by
  have hc : (Json.object [("k", .array [.integer (-1), .null]), ("l", .object [])]).IsCanonical := by
    refine .object (by simp; decide) ?_
    simp only [List.forall_mem_cons, List.not_mem_nil, false_imp_iff, implies_true, and_true]
    refine ⟨.array ?_, .object .nil (by simp)⟩
    simp only [List.forall_mem_cons, List.not_mem_nil, false_imp_iff, implies_true, and_true]
    exact ⟨.integer (by unfold Json.Fits64; decide), .null⟩
  refine ⟨⟨rfl, ?_, parse_serialize.1 _ rfl ?_⟩, _, rfl,
    parse_serialize.2.1 ⟨.epoch, .epoch⟩ "/" "" { apiSurfacePath := some "" } none _ rfl⟩
  all_goals
    intro g hg
    obtain rfl := List.mem_singleton.mp hg
    exact ⟨hc, by simp [Json.depth, Json.itemsDepth, Json.membersDepth]⟩

end Report

end SurfaceRegistry
