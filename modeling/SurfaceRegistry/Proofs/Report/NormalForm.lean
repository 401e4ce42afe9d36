import SurfaceRegistry.Proofs.Json.Canonical
import SurfaceRegistry.Proofs.Report.RoundTrip

/-!
# Saving a report that was read

A report that is read from any text is saved in a form that is read back as the same report and saved as the
same text (`Report.parse_resaved`). A text may spell a report in many ways: structures as arrays, members
in any order and among others, texts with any escapes, timestamps with any digits of the second, a leap
second. What is read is always a report that can be stored (`Report.storable_of_parse`), as the
particulars of its findings are in normal form and lie inside three arrays and objects.
-/

namespace SurfaceRegistry

open Json (Readable maxNesting)

theorem Finding.readable_data_of_decode {depth : Nat} {t : Json.Tree} {f : Finding}
    (hd : depth < maxNesting) (h : Finding.model.decode depth t = .ok f) : Readable (depth + 1) f.data := by
  have hother {β : Type} {d : Json.Decoder β} {set : β → Finding → Finding}
      (hset : ∀ v f, (set v f).data = f.data) (name : String) (presence : Json.Presence) :
      (Json.Field.of name presence d set).Keeps (depth + 1) fun f => Readable (depth + 1) f.data :=
    Json.Field.keeps_of_eq (P := Readable (depth + 1)) hset name presence
  have hblank : Readable (depth + 1) .null := ⟨fun _ => .null, hd⟩
  refine Json.Model.decode_keeps (P := fun f => Readable (depth + 1) f.data) ?_ hblank h
  simp only [Finding.model, List.forall_mem_cons]
  refine ⟨hother ?_ _ _, hother ?_ _ _, hother ?_ _ _, hother ?_ _ _, hother ?_ _ _, hother ?_ _ _,
    hother ?_ _ _, Json.Field.keeps_of (fun t v a hv _ => ?_) _ _, List.forall_mem_nil _⟩
  case refine_8 => exact Json.readable_of_decodeAny t hd hv
  all_goals exact fun _ _ => rfl

namespace Report

theorem readable_data_of_decode {t : Json.Tree} {r : Report} (h : model.decode 0 t = .ok r) :
    ∀ f ∈ r.findings, Readable 3 f.data := by
  let AllReadable (fs : List Finding) : Prop := ∀ f ∈ fs, Readable 3 f.data
  have hother {β : Type} {d : Json.Decoder β} {set : β → Report → Report}
      (hset : ∀ v r, (set v r).findings = r.findings) (name : String) (presence : Json.Presence) :
      (Json.Field.of name presence d set).Keeps 1 fun r => AllReadable r.findings :=
    Json.Field.keeps_of_eq (P := AllReadable) hset name presence
  have hblank : AllReadable [] := by simp [AllReadable]
  refine Json.Model.decode_keeps (P := fun r => AllReadable r.findings) ?_ hblank h
  simp only [model, List.forall_mem_cons]
  refine ⟨hother ?_ _ _, hother ?_ _ _, hother ?_ _ _, hother ?_ _ _, hother ?_ _ _, hother ?_ _ _,
    Json.Field.keeps_of (fun t v _ hv _ => ?_) _ _, hother ?_ _ _, List.forall_mem_nil _⟩
  -- The findings lie in an array in the object of the report.
  case refine_7 =>
    exact Json.forall_mem_of_decodeList (fun _ _ => Finding.readable_data_of_decode (by decide)) hv
  all_goals exact fun _ _ => rfl

/-- A text that is read holds a report of the supported version and nothing after it. -/
theorem parse_eq_ok_iff {text : String} {r : Report} :
    parse text = .ok r ↔
      model.decode 0 (Json.Document.read text.toList).root = .ok r ∧
        (Json.Document.read text.toList).ended = true ∧ r.schema = schemaName := by
  rw [parse, Json.decodeDocument]
  cases hr : model.decode 0 (Json.Document.read text.toList).root with
  | error e => simp [bind, Except.bind]
  | ok a =>
    cases he : (Json.Document.read text.toList).ended with
    | false => simp [bind, Except.bind]
    | true =>
      simp only [bind, Except.bind, if_true, Except.ok.injEq, true_and]
      constructor
      · intro h
        split at h
        · rename_i hs
          cases h
          exact ⟨rfl, hs⟩
        · cases h
      · rintro ⟨rfl, hs⟩
        rw [if_pos hs]

theorem storable_of_parse {text : String} {r : Report} (h : parse text = .ok r)
    (hf : ∀ f ∈ r.findings, f.data.FloatFree) : r.Storable := by
  obtain ⟨hr, -, hs⟩ := parse_eq_ok_iff.mp h
  refine ⟨hs, fun f hmem => ?_⟩
  have hdata := readable_data_of_decode hr f hmem
  have hdepth := hdata.depth_le
  exact ⟨hdata.canonical (hf f hmem), by unfold maxNesting at hdepth; omega⟩

/-- A report that is read from any text, and has no numbers but integers in the particulars of its findings,
is read back as it is from the text that it is saved as, and is saved as this text again. -/
theorem parse_resaved (text : String) (r : Report) (h : parse text = .ok r)
    (hf : ∀ f ∈ r.findings, f.data.FloatFree) :
    parse r.serialize = .ok r ∧ (parse r.serialize).map serialize = .ok r.serialize := by
  have hback := parse_serialize_of_storable (storable_of_parse h hf)
  refine ⟨hback, ?_⟩
  rw [hback]
  rfl

/-- Structures as arrays, a verdict as an object, a leap second of a clock behind universal time, more
digits of a second than count, an escape that is not needed, and particulars with a key twice. -/
def looseText : String :=
  "[\"surfacereg.report.v1\",[\"t\",\"\"],\"2016-12-31 15:59:60-08:00\"," ++
  "\"2017-01-01t00:00:00.1234567899z\",\x7b\"pass\":null\x7d,[1,0,0]," ++
  "[[\"info\",\"a\",\"b\",\"\\u0063\",null,\"p\",null,\x7b\"z\":1,\"a\":[-2,\x7b\x7d],\"z\":null\x7d]]," ++
  "[\"\",\"\",\"\",[],null,false]]"

open Json.Tree in
/-- The structure of this text. -/
def looseTree : Json.Tree :=
  let integer (digit : Char) : Json.Tree := number ⟨false, [digit], [], none⟩
  let minusTwo : Json.Tree := number ⟨true, ['2'], [], none⟩
  let particulars : Json.Tree :=
    object
      [(some "z", integer '1'), (some "a", array [minusTwo, object [] true] true), (some "z", null)] true
  array
    [string (some schemaName), array [string (some "t"), string (some "")] true,
     string (some "2016-12-31 15:59:60-08:00"), string (some "2017-01-01t00:00:00.1234567899z"),
     object [(some "pass", null)] true, array [integer '1', integer '0', integer '0'] true,
     array
      [array
        [string (some "info"), string (some "a"), string (some "b"), string (some "c"), null,
         string (some "p"), null, particulars] true] true,
     array [string (some ""), string (some ""), string (some ""), array [] true, null, .bool false] true]
    true

/-- The report in this text. -/
def looseReport : Report where
  schema := schemaName
  tool := ⟨"t", ""⟩
  startedAt :=
    ⟨⟨2016, 12, 31, by decide, by decide, by decide⟩,
      ⟨⟨15, by decide⟩, ⟨59, by decide⟩, ⟨59, by decide⟩, ⟨999999999, by decide⟩⟩, ⟨-480, by decide⟩⟩
  finishedAt :=
    { date := { Timestamp.epoch.date with year := 2017, year_lt := by decide, day_bounds := by decide }
      time := { Timestamp.epoch.time with nanosecond := ⟨123456789, by decide⟩ }
      offset := .zero }
  verdict := .pass
  counts := ⟨1, 0, 0⟩
  findings :=
    [{ severity := .info, checkId := "a", code := "b", message := "c", path := some ⟨"p"⟩
       data := .object [("a", .array [.integer (-2), .object []]), ("z", .null)] }]
  data := {}

set_option maxRecDepth 10000 in
theorem read_looseText : Json.Document.read looseText.toList = ⟨looseTree, true⟩ := by
  cbv

theorem parse_looseText : parse looseText = .ok looseReport := by
  rw [parse, Json.decodeDocument, read_looseText]
  rfl

theorem parse_resaved_of_loose :
    parse looseText = .ok looseReport ∧ (∀ f ∈ looseReport.findings, f.data.FloatFree) ∧
      parse looseReport.serialize = .ok looseReport ∧
      (parse looseReport.serialize).map serialize = .ok looseReport.serialize := by
  have hf : ∀ f ∈ looseReport.findings, f.data.FloatFree := by
    intro f hf
    obtain rfl := List.mem_singleton.mp hf
    refine .object ?_
    simp only [List.forall_mem_cons]
    refine ⟨.array ?_, .null, List.forall_mem_nil _⟩
    simp only [List.forall_mem_cons]
    exact ⟨.integer _, .object (List.forall_mem_nil _), List.forall_mem_nil _⟩
  exact ⟨parse_looseText, hf, parse_resaved looseText looseReport parse_looseText hf⟩

end Report

end SurfaceRegistry
