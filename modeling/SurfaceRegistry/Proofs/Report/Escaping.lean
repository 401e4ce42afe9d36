import SurfaceRegistry.Proofs.Report.Annotations

/-!
# Messages and their encodings

Encoding a message is one to one: the encodings are just the texts of one line in which every percent sign begins one of
three codes (`Annotation.exists_encodeMessage_iff`), and decoding such a text and encoding it again changes nothing. So
a code that stands in a message is told from what it stands for, and annotations beside one file are alike only if their
messages are (`Annotation.annotations_reversible`).
-/

namespace SurfaceRegistry.Annotation

/-! ### Codes -/

/-- What is written for a percent sign and for the two characters that end a line. -/
def codes : List (List Char) :=
  [['%', '2', '5'], ['%', '0', 'D'], ['%', '0', 'A']]

/-- A text in which every percent sign begins a code. -/
def WellCoded (t : List Char) : Prop :=
  ∀ before after, t = before ++ '%' :: after → ∃ code ∈ codes, code <+: '%' :: after

theorem wellCoded_nil : WellCoded [] := by
  intro before after h
  simp at h

theorem wellCoded_cons_iff {c : Char} {t : List Char} :
    WellCoded (c :: t) ↔ (c = '%' → ∃ code ∈ codes, code <+: c :: t) ∧ WellCoded t := by
  constructor
  · intro h
    refine ⟨?_, fun before after ht => h (c :: before) after (by rw [ht, List.cons_append])⟩
    rintro rfl
    exact h [] t rfl
  · rintro ⟨hc, ht⟩ before after h
    cases before with
    | nil =>
      obtain ⟨rfl, rfl⟩ := List.cons.inj h
      exact hc rfl
    | cons d before => exact ht before after (List.cons.inj h).2

theorem wellCoded_cons_of_ne {c : Char} (hc : c ≠ '%') {t : List Char} : WellCoded (c :: t) ↔ WellCoded t := by
  rw [wellCoded_cons_iff, and_iff_right]
  exact fun h => absurd h hc

/-- Only the percent sign of a code begins one. -/
theorem wellCoded_append_of_mem {code : List Char} (h : code ∈ codes) (t : List Char) :
    WellCoded (code ++ t) ↔ WellCoded t := by
  have hcode : ∃ a b, code = ['%', a, b] ∧ a ≠ '%' ∧ b ≠ '%' := by
    simp only [codes, List.mem_cons, List.not_mem_nil, or_false] at h
    rcases h with rfl | rfl | rfl
    · exact ⟨_, _, rfl, by decide, by decide⟩
    · exact ⟨_, _, rfl, by decide, by decide⟩
    · exact ⟨_, _, rfl, by decide, by decide⟩
  obtain ⟨a, b, rfl, ha, hb⟩ := hcode
  simp only [List.cons_append, List.nil_append]
  rw [wellCoded_cons_iff, wellCoded_cons_of_ne ha, wellCoded_cons_of_ne hb, and_iff_right]
  exact fun _ => ⟨_, h, t, rfl⟩

/-! ### Encodings -/

/-- What is written for a character is a code, or the character if that needs none. -/
theorem encodedChar_cases (c : Char) : encodedChar c ∈ codes ∨ encodedChar c = [c] ∧ c ≠ '%' := by
  unfold encodedChar
  split_ifs with h
  · exact .inl (by decide)
  · exact .inl (by decide)
  · exact .inl (by decide)
  · exact .inr ⟨rfl, h⟩

theorem encodedChar_eq_self {c : Char} (h1 : c ≠ '%') (h2 : c ≠ '\r') (h3 : c ≠ '\n') : encodedChar c = [c] := by
  rw [encodedChar, if_neg h1, if_neg h2, if_neg h3]

theorem wellCoded_encodedChar_append (c : Char) (t : List Char) : WellCoded (encodedChar c ++ t) ↔ WellCoded t := by
  rcases encodedChar_cases c with h | ⟨h, hc⟩
  · exact wellCoded_append_of_mem h t
  · rw [h, List.singleton_append, wellCoded_cons_of_ne hc]

theorem encodeMessage_cons (c : Char) (s : List Char) : encodeMessage (c :: s) = encodedChar c ++ encodeMessage s := by
  rw [encodeMessage_eq_flatMap, encodeMessage_eq_flatMap, List.flatMap_cons]

theorem wellCoded_encodeMessage (s : List Char) : WellCoded (encodeMessage s) := by
  induction s with
  | nil => exact wellCoded_nil
  | cons c s ih =>
    rw [encodeMessage_cons, wellCoded_encodedChar_append]
    exact ih

theorem encodeMessage_injective : Function.Injective encodeMessage :=
  Function.LeftInverse.injective decodeMessage_encodeMessage

theorem encodeMessage_cons_decodeMessage {c : Char} {r : List Char}
    (ih : IsOneLine r → WellCoded r → encodeMessage (decodeMessage r) = r)
    (hline : IsOneLine (encodedChar c ++ r)) (hcoded : WellCoded (encodedChar c ++ r)) :
    encodeMessage (c :: decodeMessage r) = encodedChar c ++ r := by
  rw [encodeMessage_cons, ih (isOneLine_append.mp hline).2 ((wellCoded_encodedChar_append c r).mp hcoded)]

/-- Encoding undoes decoding, too. The cases are those of decoding: a code, or a character that begins none. -/
theorem encodeMessage_decodeMessage {t : List Char} (hline : IsOneLine t) (hcoded : WellCoded t) :
    encodeMessage (decodeMessage t) = t := by
  fun_induction decodeMessage t with
  | case1 r ih => exact encodeMessage_cons_decodeMessage (c := '%') ih hline hcoded
  | case2 r ih => exact encodeMessage_cons_decodeMessage (c := '\r') ih hline hcoded
  | case3 r ih => exact encodeMessage_cons_decodeMessage (c := '\n') ih hline hcoded
  | case4 c r h25 h0D h0A ih =>
    have hpercent : c ≠ '%' := by
      rintro rfl
      obtain ⟨code, hmem, s, hs⟩ := (wellCoded_cons_iff.mp hcoded).1 rfl
      simp only [codes, List.mem_cons, List.not_mem_nil, or_false] at hmem
      rcases hmem with rfl | rfl | rfl
      · exact h25 s rfl (List.cons.inj hs).2.symm
      · exact h0D s rfl (List.cons.inj hs).2.symm
      · exact h0A s rfl (List.cons.inj hs).2.symm
    have hself : encodedChar c = [c] := by
      refine encodedChar_eq_self hpercent ?_ ?_
      · rintro rfl
        exact hline.2 List.mem_cons_self
      · rintro rfl
        exact hline.1 List.mem_cons_self
    have hencoded := encodeMessage_cons_decodeMessage (c := c) ih (by rwa [hself]) (by rwa [hself])
    rwa [hself] at hencoded
  | case5 => rfl

/-- The texts that messages are encoded as. -/
theorem exists_encodeMessage_iff {t : List Char} :
    (∃ s, encodeMessage s = t) ↔ IsOneLine t ∧ WellCoded t := by
  constructor
  · rintro ⟨s, rfl⟩
    exact ⟨isOneLine_encodeMessage s, wellCoded_encodeMessage s⟩
  · rintro ⟨hline, hcoded⟩
    exact ⟨decodeMessage t, encodeMessage_decodeMessage hline hcoded⟩

/-! ### Annotations -/

theorem ofFinding_eq_iff {f g : Finding} (hseverity : f.severity = g.severity) (hpath : f.path = g.path) :
    ofFinding f = ofFinding g ↔ messageOf f = messageOf g := by
  have hhead : headOf f = headOf g := by
    rw [headOf, headOf, fileOf, fileOf, hseverity, hpath]
  rw [← String.toList_inj, toList_ofFinding, toList_ofFinding, hhead]
  simp only [List.cons.injEq, true_and, List.append_cancel_left_eq, encodeMessage_injective.eq_iff, String.toList_inj]

/-- A report has an annotation for each of its first findings, up to the limit, and in their order. The message of each
is encoded as one line in which every percent sign begins a code, and is got back by decoding the codes from left to
right. So different messages have different encodings, and different annotations beside one file. -/
theorem annotations_reversible (r : Report) (max : Nat) :
    (r.annotations max).length = min max r.findings.length ∧
    (∀ i f, i < max → r.findings[i]? = some f → ∃ a, (r.annotations max)[i]? = some a ∧
      a.toList = ':' :: ':' :: (headOf f ++ ':' :: ':' :: encodeMessage (messageOf f).toList)) ∧
    (∀ s, IsOneLine (encodeMessage s) ∧ WellCoded (encodeMessage s) ∧ decodeMessage (encodeMessage s) = s) ∧
    (∀ s t, encodeMessage s = encodeMessage t → s = t) ∧
    (∀ t, (∃ s, encodeMessage s = t) ↔ IsOneLine t ∧ WellCoded t) ∧
    ∀ f g : Finding, f.severity = g.severity → f.path = g.path →
      (ofFinding f = ofFinding g ↔ messageOf f = messageOf g) := by
  refine ⟨?_, ?_, fun s => ?_, fun s t h => encodeMessage_injective h, fun t => exists_encodeMessage_iff,
    fun f g => ofFinding_eq_iff⟩
  · rw [Report.annotations, List.length_map, List.length_take]
  · intro i f hi hf
    refine ⟨ofFinding f, ?_, toList_ofFinding f⟩
    rw [Report.annotations, List.getElem?_map, List.getElem?_take_of_lt hi, hf, Option.map_some]
  · exact ⟨isOneLine_encodeMessage s, wellCoded_encodeMessage s, decodeMessage_encodeMessage s⟩

/-- A report in which one message spells a code, and the next one has the line break that it stands for. -/
def spelledReport : Report :=
  { Report.runtimeError .epoch "" with
    findings := ["100%0A", "100\n", "rest"].map Report.runtimeErrorFinding }

/-- The third finding is beyond the limit. -/
theorem annotations_reversible_of_spelled :
    (spelledReport.annotations 2).length = 2 ∧
      (∃ a, (spelledReport.annotations 2)[0]? = some a ∧
        a.toList = "::error::[tool.runtime:runtime_error] 100%250A".toList) ∧
      (∃ a, (spelledReport.annotations 2)[1]? = some a ∧
        a.toList = "::error::[tool.runtime:runtime_error] 100%0A".toList) ∧
      decodeMessage (encodeMessage "100%0A".toList) = "100%0A".toList ∧
      ofFinding (Report.runtimeErrorFinding "100%0A") ≠ ofFinding (Report.runtimeErrorFinding "100\n") := by
  obtain ⟨hlength, hmade, hdecoded, -, -, halike⟩ := annotations_reversible spelledReport 2
  refine ⟨hlength, ?_, ?_, (hdecoded _).2.2, ?_⟩
  · obtain ⟨a, ha, htext⟩ := hmade 0 (Report.runtimeErrorFinding "100%0A") (by decide) rfl
    exact ⟨a, ha, htext.trans (by decide +kernel)⟩
  · obtain ⟨a, ha, htext⟩ := hmade 1 (Report.runtimeErrorFinding "100\n") (by decide) rfl
    exact ⟨a, ha, htext.trans (by decide +kernel)⟩
  · intro h
    have hmessage : messageOf (Report.runtimeErrorFinding "100%0A") = messageOf (Report.runtimeErrorFinding "100\n") :=
      (halike (Report.runtimeErrorFinding "100%0A") (Report.runtimeErrorFinding "100\n") rfl rfl).mp h
    revert hmessage
    decide +kernel

end SurfaceRegistry.Annotation
