import SurfaceRegistry.Proofs.Report.RoundTrip
import SurfaceRegistry.Proofs.Text.Lines
import SurfaceRegistry.Show

/-!
# What is shown of a registry

As JSON a registry is an object with its values, their layers, the ignored types and the choice on what a check fails
(`EffectiveRegistry.spells_shownAs`). As a document has one tree at most, and a tree one list of members, the text tells
the registry. As lines of text it has one line for each value and for each ignored type, if none of these holds a line
feed (`EffectiveRegistry.hasLines_shownAs`). The layer of a value is behind the last opening parenthesis of its line,
whatever the value itself looks like, so these lines tell all that they are made of
(`EffectiveRegistry.shownAs_loses_nothing`).
-/

namespace SurfaceRegistry

theorem Json.trees_strings (texts : List String) :
    trees (texts.map .string) = texts.map fun t => .string (some t) := by
  induction texts with
  | nil => rfl
  | cons t r ih => exact congrArg (_ :: ·) ih

theorem ValueSource.label_injective : Function.Injective label := by
  intro a b
  cases a <;> cases b <;> decide

theorem FailOn.label_injective : Function.Injective label := by
  intro a b
  cases a <;> cases b <;> decide

namespace EffectiveRegistry

variable {r r' : EffectiveRegistry} {v v' : SourcedValue}

/-! ### As JSON -/

theorem floatFree_sourcedValue (v : SourcedValue) : v.toJson.FloatFree := by
  refine .object fun e he => ?_
  rcases List.mem_pair.mp he with rfl | rfl
  · exact .string _
  · exact .string _

theorem floatFree_toJson (r : EffectiveRegistry) : r.toJson.FloatFree := by
  refine .object fun e he => ?_
  simp only [List.mem_cons, List.not_mem_nil, or_false] at he
  rcases he with rfl | rfl | rfl | rfl | rfl | rfl
  · exact floatFree_sourcedValue _
  · exact floatFree_sourcedValue _
  · exact floatFree_sourcedValue _
  · exact Report.floatFree_strings _
  · exact .string _
  · exact .string _

/-- The object that is shown for a value. -/
def shownValue (v : SourcedValue) : Json.Tree :=
  .object [(some "value", .string (some v.value)), (some "source", .string (some v.source.label))] true

/-- The members of the object that is shown for a registry. -/
def shownMembers (r : EffectiveRegistry) : List (Option String × Json.Tree) :=
  [(some "api_surface_path", shownValue r.apiSurfacePath),
   (some "nightly_tests_directory_path", shownValue r.nightlyTestsDirectoryPath),
   (some "nightly_tests_package", shownValue r.nightlyTestsPackage),
   (some "ignored_types", .array (r.ignoredTypes.map fun name => .string (some name)) true),
   (some "ignored_types_source", .string (some r.ignoredTypesSource.label)),
   (some "fail_on", .string (some r.failOn.label))]

theorem tree_toJson (r : EffectiveRegistry) : r.toJson.tree = .object r.shownMembers true := by
  have hnames := Json.trees_strings r.ignoredTypes
  simp only [toJson, Json.tree, Json.memberTrees, hnames]
  rfl

/-- A registry is shown as one object. -/
theorem spells_shownAs (r : EffectiveRegistry) :
    Json.Spells (.object r.shownMembers true) (r.shownAs .json).toList := by
  rw [← tree_toJson]
  exact (floatFree_toJson r).spells_pretty

theorem shownValue_injective : Function.Injective shownValue := by
  intro v v' h
  simp only [shownValue, Json.Tree.object.injEq, List.cons.injEq, Prod.mk.injEq, Json.Tree.string.injEq,
    Option.some.injEq, true_and, and_true] at h
  obtain ⟨hvalue, hsource⟩ := h
  cases v
  cases v'
  simp only [SourcedValue.mk.injEq]
  exact ⟨hvalue, ValueSource.label_injective hsource⟩

/-- The members of the object tell the registry. -/
theorem shownMembers_injective : Function.Injective shownMembers := by
  intro r r' h
  simp only [shownMembers, List.cons.injEq, Prod.mk.injEq, Json.Tree.array.injEq, Json.Tree.string.injEq,
    Option.some.injEq, true_and, and_true] at h
  obtain ⟨hsurface, hdirectory, hpackage, hnames, hsource, hfailOn⟩ := h
  have hinj : Function.Injective fun name : String => Json.Tree.string (some name) := by
    intro a b hab
    simpa using hab
  cases r
  cases r'
  simp only [EffectiveRegistry.mk.injEq]
  exact ⟨shownValue_injective hsurface, shownValue_injective hdirectory, shownValue_injective hpackage,
    hinj.list_map hnames, ValueSource.label_injective hsource, FailOn.label_injective hfailOn⟩

/-- A registry that is shown as JSON can be told from any other one. -/
theorem eq_of_shownAs_json (h : r.shownAs .json = r'.shownAs .json) : r = r' := by
  have hspells := r.spells_shownAs
  rw [h] at hspells
  have htree := hspells.unique r'.spells_shownAs
  exact shownMembers_injective (Json.Tree.object.inj htree).1

/-! ### As lines -/

/-- No text of a registry holds a line feed. -/
structure OnOneLine (r : EffectiveRegistry) : Prop where
  apiSurfacePath : '\n' ∉ r.apiSurfacePath.value.toList
  nightlyTestsDirectoryPath : '\n' ∉ r.nightlyTestsDirectoryPath.value.toList
  nightlyTestsPackage : '\n' ∉ r.nightlyTestsPackage.value.toList
  ignoredTypes : ∀ name ∈ r.ignoredTypes, '\n' ∉ name.toList

/-- The line of a value. -/
def shownLine (key : String) (v : SourcedValue) : String :=
  key ++ ": " ++ v.value ++ " (" ++ v.source.label ++ ")"

/-- The line in front of the ignored types. -/
def entriesLine (count : Nat) (source : ValueSource) : String :=
  "ignored_types: (" ++ toString count ++ " entries, " ++ source.label ++ ")"

/-- The lines of a registry. -/
def shownLines (r : EffectiveRegistry) : List String :=
  [shownLine "api_surface_path" r.apiSurfacePath,
   shownLine "nightly_tests_directory_path" r.nightlyTestsDirectoryPath,
   shownLine "nightly_tests_package" r.nightlyTestsPackage,
   entriesLine r.ignoredTypes.length r.ignoredTypesSource] ++
  r.ignoredTypes.map ("  - " ++ ·)

theorem length_shownLines (r : EffectiveRegistry) : r.shownLines.length = 4 + r.ignoredTypes.length := by
  simp [shownLines]
  omega

theorem notMem_label (s : ValueSource) : '\n' ∉ s.label.toList ∧ '(' ∉ s.label.toList := by
  cases s <;> decide

theorem notMem_shownLine {key : String} (hkey : '\n' ∉ key.toList) (hv : '\n' ∉ v.value.toList) :
    '\n' ∉ (shownLine key v).toList := by
  simp only [shownLine, String.toList_append, List.mem_append, not_or]
  exact ⟨⟨⟨⟨⟨hkey, by decide⟩, hv⟩, by decide⟩, (notMem_label v.source).1⟩, by decide⟩

theorem notMem_entriesLine (count : Nat) (source : ValueSource) : '\n' ∉ (entriesLine count source).toList := by
  unfold entriesLine
  simp only [String.toList_append, List.mem_append, not_or]
  exact ⟨⟨⟨⟨by decide, Text.notMem_decimals (by decide) count⟩, by decide⟩, (notMem_label source).1⟩, by decide⟩

theorem hasLines_valueLine (key : String) (hkey : '\n' ∉ key.toList) (hv : '\n' ∉ v.value.toList) :
    Text.HasLines (valueLine key v) [shownLine key v] := by
  have hend : ")\n" = ")" ++ "\n" := rfl
  rw [valueLine, hend, ← String.append_assoc]
  exact .line (notMem_shownLine hkey hv)

theorem hasLines_ignoredTypeLines (h : r.OnOneLine) :
    Text.HasLines (String.join (r.ignoredTypes.map ignoredTypeLine)) (r.ignoredTypes.map ("  - " ++ ·)) := by
  rw [List.map_eq_flatMap (f := ("  - " ++ ·))]
  refine .join fun name hname => .line ?_
  rw [String.toList_append, List.mem_append, not_or]
  exact ⟨by decide, h.ignoredTypes name hname⟩

theorem hasLines_shownAs (h : r.OnOneLine) : Text.HasLines (r.shownAs .text) r.shownLines := by
  have hvalues := ((hasLines_valueLine "api_surface_path" (by decide) h.apiSurfacePath).append
    (hasLines_valueLine "nightly_tests_directory_path" (by decide) h.nightlyTestsDirectoryPath)).append
    (hasLines_valueLine "nightly_tests_package" (by decide) h.nightlyTestsPackage)
  have hentries := Text.HasLines.line (notMem_entriesLine r.ignoredTypes.length r.ignoredTypesSource)
  have htext : r.shownAs .text = valueLine "api_surface_path" r.apiSurfacePath ++
      valueLine "nightly_tests_directory_path" r.nightlyTestsDirectoryPath ++
      valueLine "nightly_tests_package" r.nightlyTestsPackage ++
      (entriesLine r.ignoredTypes.length r.ignoredTypesSource ++ "\n") ++
      String.join (r.ignoredTypes.map ignoredTypeLine) := by
    have hend : ")" ++ "\n" = ")\n" := rfl
    unfold shownAs textLines entriesLine
    simp only [String.append_assoc, hend]
  rw [htext]
  exact (hvalues.append hentries).append (hasLines_ignoredTypeLines h)

/-- Nothing behind the last opening parenthesis of a line is of the value. -/
theorem splitLast_shownLine (key : String) (v : SourcedValue) :
    Text.splitLast '(' (shownLine key v).toList =
      some (key.toList ++ ": ".toList ++ v.value.toList ++ [' '], v.source.label.toList ++ [')']) := by
  have hlabel : '(' ∉ v.source.label.toList ++ [')'] := by simp [(notMem_label v.source).2]
  have hopen : " (".toList = [' ', '('] := rfl
  have hclose : ")".toList = [')'] := rfl
  rw [← Text.splitLast_append hlabel]
  simp only [shownLine, String.toList_append, hopen, hclose, List.append_assoc, List.cons_append, List.nil_append]

theorem shownLine_injective (key : String) : Function.Injective (shownLine key) := by
  intro v v' h
  have hsplit := splitLast_shownLine key v
  rw [h, splitLast_shownLine, Option.some.injEq, Prod.mk.injEq, List.append_cancel_right_eq, List.append_cancel_left_eq,
    List.append_cancel_right_eq, String.toList_inj, String.toList_inj] at hsplit
  cases v
  cases v'
  simp only [SourcedValue.mk.injEq]
  exact ⟨hsplit.1.symm, ValueSource.label_injective hsplit.2.symm⟩

theorem entriesLine_injective (count : Nat) : Function.Injective (entriesLine count) := by
  intro s s' h
  unfold entriesLine at h
  rw [← String.toList_inj] at h
  simp only [String.toList_append, List.append_cancel_right_eq, List.append_cancel_left_eq, String.toList_inj] at h
  exact ValueSource.label_injective h

/-- All that two registries have in common when the same lines are shown for them. -/
structure SameButFailOn (r r' : EffectiveRegistry) : Prop where
  apiSurfacePath : r.apiSurfacePath = r'.apiSurfacePath
  nightlyTestsDirectoryPath : r.nightlyTestsDirectoryPath = r'.nightlyTestsDirectoryPath
  nightlyTestsPackage : r.nightlyTestsPackage = r'.nightlyTestsPackage
  ignoredTypes : r.ignoredTypes = r'.ignoredTypes
  ignoredTypesSource : r.ignoredTypesSource = r'.ignoredTypesSource

theorem sameButFailOn_of_shownLines (h : r.shownLines = r'.shownLines) : r.SameButFailOn r' := by
  have hlength := congrArg List.length h
  rw [length_shownLines, length_shownLines] at hlength
  have hcount : r'.ignoredTypes.length = r.ignoredTypes.length := by omega
  have hitem : Function.Injective fun name : String => "  - " ++ name := by
    intro a b hab
    simpa [← String.toList_inj] using hab
  simp only [shownLines, hcount, List.cons_append, List.nil_append, List.cons.injEq] at h
  obtain ⟨hsurface, hdirectory, hpackage, hsource, hnames⟩ := h
  exact ⟨shownLine_injective _ hsurface, shownLine_injective _ hdirectory, shownLine_injective _ hpackage,
    hitem.list_map hnames, entriesLine_injective _ hsource⟩

/-- As JSON a registry is shown as one object with its fields for members, and no other registry is shown by the same
text. If no text of it holds a line feed, it is shown as four lines and one for each ignored type, and other such
registries that are shown by the same lines differ in nothing but in what a check fails on. -/
theorem shownAs_loses_nothing :
    (∀ r : EffectiveRegistry, Json.Spells (.object r.shownMembers true) (r.shownAs .json).toList) ∧
    (∀ r r' : EffectiveRegistry, r.shownAs .json = r'.shownAs .json → r = r') ∧
    (∀ r r' : EffectiveRegistry, r.OnOneLine → r'.OnOneLine → r.shownAs .text = r'.shownAs .text →
      r.SameButFailOn r') ∧
    ∀ r : EffectiveRegistry, r.OnOneLine → ∃ lines : List String,
      Text.HasLines (r.shownAs .text) lines ∧ lines.length = 4 + r.ignoredTypes.length := by
  refine ⟨spells_shownAs, fun r r' => eq_of_shownAs_json, fun r r' h h' htext => ?_, fun r h => ?_⟩
  · have hlines := hasLines_shownAs h
    rw [htext] at hlines
    exact sameButFailOn_of_shownLines (hlines.unique (hasLines_shownAs h'))
  · exact ⟨_, hasLines_shownAs h, r.length_shownLines⟩

/-- A configuration with values that look like parts of what is shown. -/
def lookalikeConfig : Config where
  apiSurfacePath := some "a (builtin)"
  nightlyTestsDirectoryPath := some "b: \"c\\"
  ignoredTypes := ["x)", "  - x", "x)"]
  replaceIgnoredTypes := true

/-- To fail on errors is the choice if none is stated, and warnings are another one, which only the object tells. -/
theorem shownAs_loses_nothing_of_lookalike :
    ∃ r s t, resolve lookalikeConfig {} = .ok r ∧ resolve lookalikeConfig { failOn := some "error" } = .ok s ∧
      resolve lookalikeConfig { failOn := some "warn" } = .ok t ∧ r.shownAs .json = s.shownAs .json ∧ r = s ∧
      r.OnOneLine ∧ t.OnOneLine ∧ r.shownAs .text = t.shownAs .text ∧ r.SameButFailOn t ∧
      r.shownAs .json ≠ t.shownAs .json ∧
      ∃ lines : List String, Text.HasLines (r.shownAs .text) lines ∧ lines.length = 7 := by
  obtain ⟨r, s, t, hr, hs, ht, hjson, htext, hrfails, htfails, hcount, hline, hline'⟩ :
      ∃ r s t, resolve lookalikeConfig {} = .ok r ∧ resolve lookalikeConfig { failOn := some "error" } = .ok s ∧
        resolve lookalikeConfig { failOn := some "warn" } = .ok t ∧ r.shownAs .json = s.shownAs .json ∧
        r.shownAs .text = t.shownAs .text ∧ r.failOn = .error ∧ t.failOn = .warning ∧ r.ignoredTypes.length = 3 ∧
        r.OnOneLine ∧ t.OnOneLine := by
    refine ⟨_, _, _, rfl, rfl, rfl, rfl, rfl, rfl, rfl, rfl, ?_, ?_⟩
    · exact ⟨by decide, by decide, by decide, by decide⟩
    · exact ⟨by decide, by decide, by decide, by decide⟩
  obtain ⟨-, htell, hagree, hcountLines⟩ := shownAs_loses_nothing
  obtain ⟨lines, hlines, hlength⟩ := hcountLines r hline
  refine ⟨r, s, t, hr, hs, ht, hjson, htell r s hjson, hline, hline', htext, hagree r t hline hline' htext, ?_, lines,
    hlines, by rw [hlength, hcount]⟩
  intro heq
  rw [htell r t heq, htfails] at hrfails
  cases hrfails

end EffectiveRegistry

end SurfaceRegistry
