import SurfaceRegistry.Proofs.Json.Rearranging
import SurfaceRegistry.Proofs.Report.NormalForm

/-!
# Reports from other versions

A report is read alike from a text whose objects have their members in another order and among members that
are no fields (`Report.parse_rearranged`), so that a report of a later version with more members is read by an
earlier one. The members are added to the tree of the text, and the text may be any spelling of the tree. The
name of such a member must be a text: half of a surrogate pair is none (`Report.parse_unpairedName`).
-/

namespace SurfaceRegistry

open Json (ItemsRelated Tree)

/-! ### Fields in any order -/

theorem ToolMeta.fields_commute : ToolMeta.model.fields.Pairwise Json.Field.Commute := by
  simp only [ToolMeta.model, List.pairwise_cons, List.forall_mem_cons, List.not_mem_nil, false_imp_iff,
    implies_true, List.Pairwise.nil, and_true]
  all_goals
    refine Json.Field.commute_of ?_ _ _ _ _
    exact fun _ _ _ => rfl

theorem VerdictCounts.fields_commute : VerdictCounts.model.fields.Pairwise Json.Field.Commute := by
  simp only [VerdictCounts.model, List.pairwise_cons, List.forall_mem_cons, List.not_mem_nil, false_imp_iff,
    implies_true, List.Pairwise.nil, and_true]
  and_intros
  all_goals
    refine Json.Field.commute_of ?_ _ _ _ _
    exact fun _ _ _ => rfl

theorem ReportData.fields_commute : ReportData.model.fields.Pairwise Json.Field.Commute := by
  simp only [ReportData.model, List.pairwise_cons, List.forall_mem_cons, List.not_mem_nil, false_imp_iff,
    implies_true, List.Pairwise.nil, and_true]
  and_intros
  all_goals
    refine Json.Field.commute_of ?_ _ _ _ _
    exact fun _ _ _ => rfl

theorem Finding.fields_commute : Finding.model.fields.Pairwise Json.Field.Commute := by
  simp only [Finding.model, List.pairwise_cons, List.forall_mem_cons, List.not_mem_nil, false_imp_iff,
    implies_true, List.Pairwise.nil, and_true]
  and_intros
  all_goals
    refine Json.Field.commute_of ?_ _ _ _ _
    exact fun _ _ _ => rfl

theorem Report.fields_commute : Report.model.fields.Pairwise Json.Field.Commute := by
  simp only [Report.model, List.pairwise_cons, List.forall_mem_cons, List.not_mem_nil, false_imp_iff,
    implies_true, List.Pairwise.nil, and_true]
  and_intros
  all_goals
    refine Json.Field.commute_of ?_ _ _ _ _
    exact fun _ _ _ => rfl

/-! ### Rearranged reports -/

namespace Report

/-- How the value of a member may differ, by the name of the member: the structures in a report may be
rearranged themselves, and so may those in the list of findings. -/
def PartRelated (name : String) : Tree → Tree → Prop :=
  if name = "tool" then ToolMeta.model.Rearranged fun _ => Eq
  else if name = "counts" then VerdictCounts.model.Rearranged fun _ => Eq
  else if name = "data" then ReportData.model.Rearranged fun _ => Eq
  else if name = "findings" then ItemsRelated (Finding.model.Rearranged fun _ => Eq)
  else Eq

/-- The same report but for the order of the members of its objects and for members that are no fields. -/
def Rearranged : Tree → Tree → Prop := model.Rearranged PartRelated

theorem respects_decode : Json.Respects model.decode 0 Rearranged := by
  have heq {β : Type} (name : String) (presence : Json.Presence) (d : Json.Decoder β)
      (set : β → Report → Report) :
      (Json.Field.of name presence d set).Respects 1 Eq := Json.Field.respects_eq _ 1
  refine Json.Model.respects_decode fields_commute ?_
  simp only [model, List.forall_mem_cons]
  refine ⟨heq _ _ _ _, ?tool, heq _ _ _ _, heq _ _ _ _, heq _ _ _ _, ?counts, ?findings, ?data,
    List.forall_mem_nil _⟩
  case tool =>
    exact Json.Field.respects_of (Json.Model.respects_decode_eq ToolMeta.fields_commute 1) _ _ _
  case counts =>
    exact Json.Field.respects_of (Json.Model.respects_decode_eq VerdictCounts.fields_commute 1) _ _ _
  case data =>
    exact Json.Field.respects_of (Json.Model.respects_decode_eq ReportData.fields_commute 1) _ _ _
  case findings =>
    have hfinding := Json.Model.respects_decode_eq Finding.fields_commute 2
    exact Json.Field.respects_of (Json.respects_decodeList hfinding) _ _ _

/-- A text that is read as a report has a tree, and every spelling of this tree with the members of its objects
in another order and among others that are no fields is read as the same report. -/
theorem parse_rearranged (text : String) (r : Report) (h : parse text = .ok r) :
    (∃ t, Json.Spells t text.toList) ∧
      ∀ t t' text', Json.Spells t text.toList → Rearranged t t' → Json.Spells t' text'.toList →
        parse text' = .ok r := by
  obtain ⟨hr, hend, hs⟩ := parse_eq_ok_iff.mp h
  have hread : Json.Document.read text.toList = ⟨(Json.Document.read text.toList).root, true⟩ := by
    rw [← hend]
  have hspells := Json.Document.read_eq_iff_spells.mp hread
  refine ⟨⟨_, hspells⟩, fun t t' text' ht hR ht' => ?_⟩
  rw [← hspells.unique ht] at hR
  have hread' := Json.Document.read_eq_iff_spells.mpr ht'
  rw [parse_eq_ok_iff, hread']
  exact ⟨respects_decode ht'.isWhole hR hr, rfl, hs⟩

theorem partRelated_refl (name : String) (t : Tree) : PartRelated name t t := by
  unfold PartRelated
  split_ifs
  · exact .same t
  · exact .same t
  · exact .same t
  · exact .same t
  · rfl

/-- A report of this version. -/
def earlier : Report := runtimeError .epoch "no root"

/-- The program as a later version might write it. -/
def laterTool : Json :=
  .object [("vendor", .array []), ("version", .string "0.1.0"), ("name", .string "surfacereg")]

/-- The finding as a later version might write it. -/
def laterFinding : Json :=
  .object
    [("counts", .null), ("message", .string "no root"), ("code", .string "runtime_error"),
     ("check_id", .string "tool.runtime"), ("severity", .string "error")]

/-- The report as a later version might write it: in another order, and with a member that looks like a
report. -/
def later : Json :=
  .object
    [("previous", earlier.toJson), ("data", earlier.data.toJson), ("findings", .array [laterFinding]),
     ("counts", earlier.counts.toJson), ("verdict", .string "fail"),
     ("finished_at", .string earlier.finishedAt.text), ("started_at", .string earlier.startedAt.text),
     ("tool", laterTool), ("schema", .string schemaName)]

theorem floatFree_later (h : earlier.Storable) : later.FloatFree := by
  have hcounts : earlier.counts.toJson.FloatFree :=
    .object (by simp [countJson, Json.FloatFree.integer])
  have htool : laterTool.FloatFree := by
    refine .object ?_
    simp only [List.forall_mem_cons]
    exact ⟨.array (List.forall_mem_nil _), .string _, .string _, List.forall_mem_nil _⟩
  have hfinding : laterFinding.FloatFree := by
    refine .object ?_
    simp only [List.forall_mem_cons]
    exact ⟨.null, .string _, .string _, .string _, .string _, List.forall_mem_nil _⟩
  refine .object ?_
  simp only [List.forall_mem_cons]
  exact ⟨floatFree_toJson h, floatFree_data _, .array (by simpa using hfinding), hcounts, .string _,
    .string _, .string _, htool, .string _, List.forall_mem_nil _⟩

/-- The members come in the opposite order, after one that is no field. -/
theorem rearranged_later : Rearranged earlier.toJson.tree later.tree := by
  have hsame {R : String → Tree → Tree → Prop} (hR : ∀ k t, R k t t) (p : Option String × Tree) :
      Json.MemberRelated R p p := ⟨rfl, fun k _ => hR k p.2⟩
  have hmember (k : String) {t u : Tree} (h : PartRelated k t u) :
      Json.MemberRelated PartRelated (some k, t) (some k, u) :=
    ⟨rfl, by rintro _ ⟨⟩; exact h⟩
  have heq := hsame (R := fun _ => Eq) fun _ _ => rfl
  have hpart := hsame partRelated_refl
  have htool := Json.Model.Rearranged.reversed (m := ToolMeta.model)
    (.cons (heq (some "name", .string (some "surfacereg"))) <|
      .cons (heq (some "version", .string (some "0.1.0"))) .nil)
    (k := "vendor") (by decide) (.array [] true)
  have hfinding := Json.Model.Rearranged.reversed (m := Finding.model)
    (.cons (heq (some "severity", .string (some "error"))) <|
      .cons (heq (some "check_id", .string (some "tool.runtime"))) <|
      .cons (heq (some "code", .string (some "runtime_error"))) <|
      .cons (heq (some "message", .string (some "no root"))) .nil)
    (k := "counts") (by decide) .null
  have hfindings : PartRelated "findings" (Json.array [(runtimeErrorFinding "no root").toJson]).tree
      (Json.array [laterFinding]).tree := .array (.cons hfinding .nil)
  exact Json.Model.Rearranged.reversed (m := model)
    (.cons (hpart (some "schema", .string (some schemaName))) <|
      .cons (hmember "tool" htool) <|
      .cons (hpart (some "started_at", .string (some earlier.startedAt.text))) <|
      .cons (hpart (some "finished_at", .string (some earlier.finishedAt.text))) <|
      .cons (hpart (some "verdict", .string (some "fail"))) <|
      .cons (hpart (some "counts", earlier.counts.toJson.tree)) <|
      .cons (hmember "findings" hfindings) <|
      .cons (hpart (some "data", earlier.data.toJson.tree)) .nil)
    (k := "previous") (by decide) earlier.toJson.tree

theorem parse_rearranged_of_later :
    parse earlier.serialize = .ok earlier ∧
      Json.Spells earlier.toJson.tree earlier.serialize.toList ∧ Rearranged earlier.toJson.tree later.tree ∧
      Json.Spells later.tree (later.pretty ++ "\n").toList ∧ parse (later.pretty ++ "\n") = .ok earlier := by
  have hstorable : earlier.Storable := storable_runtimeError .epoch "no root"
  have hread := parse_serialize_of_storable hstorable
  have hspells := (floatFree_toJson hstorable).spells_pretty
  have hlater := (floatFree_later hstorable).spells_pretty
  exact ⟨hread, hspells, rearranged_later, hlater,
    (parse_rearranged earlier.serialize earlier hread).2 _ _ _ hspells rearranged_later hlater⟩

/-- A member whose name is half of a surrogate pair cannot be passed over. -/
theorem parse_unpairedName {r : Report} (h : r.toJson.FloatFree) :
    parse ("\x7b\"\\ud800\":0," ++ String.ofList r.toJson.pretty.toList.tail) = .error (.json .malformed) := by
  let name : List Char := ['"', '\\', 'u', 'd', '8', '0', '0', '"']
  have hkey : Json.Tree.SpellsText none name :=
    .parts (.cons (.unit (a := 'd') (b := '8') (c := '0') (d := '0') rfl rfl rfl rfl) .nil)
  have hzero : Json.Spells (.number ⟨false, ['0'], [], none⟩) ['0'] :=
    .number (.parts ⟨by simp, by simp⟩ (by simp) .none .none)
  obtain ⟨rest, hrest, hspells⟩ := Json.exists_spells_member_pretty h hkey hzero
  have hpretty : r.toJson.pretty.toList = '\x7b' :: rest := hrest
  have hfront : "\x7b\"\\ud800\":0,".toList = '\x7b' :: (name ++ [':', '0', ',']) := rfl
  have htext : ("\x7b\"\\ud800\":0," ++ String.ofList r.toJson.pretty.toList.tail).toList =
      '\x7b' :: (name ++ ':' :: (['0'] ++ ',' :: rest)) := by
    rw [String.toList_append, hpretty, hfront, List.tail_cons, String.toList_ofList]
    rfl
  rw [parse, Json.decodeDocument, htext, Json.Document.read_eq_iff_spells.mpr hspells]
  rfl

/-- The text of a report is read, but not with a member in front whose name is half of a surrogate pair. -/
theorem parse_unpairedName_of_earlier :
    let text := earlier.toJson.pretty
    text.toList.head? = some '\x7b' ∧ parse text = .ok earlier ∧
      ∀ r, parse ("\x7b\"\\ud800\":0," ++ String.ofList text.toList.tail) ≠ .ok r := by
  have hstorable : earlier.Storable := storable_runtimeError .epoch "no root"
  have hfree := floatFree_toJson hstorable
  have hspells : Json.Spells earlier.toJson.tree earlier.toJson.pretty.toList := by
    rw [Json.pretty, String.toList_ofList]
    exact hfree.printsSpelling 0
  refine ⟨?_, ?_, fun r => ?_⟩
  · rw [Json.pretty, String.toList_ofList]
    rfl
  · rw [parse_eq_ok_iff, Json.Document.read_eq_iff_spells.mpr hspells]
    exact ⟨decode_toJson hstorable, rfl, rfl⟩
  · rw [parse_unpairedName hfree]
    intro h
    cases h

end Report

end SurfaceRegistry
