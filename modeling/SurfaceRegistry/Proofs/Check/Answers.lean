import SurfaceRegistry.Proofs.Check.Order
import SurfaceRegistry.Proofs.Check.Verdict
import SurfaceRegistry.Proofs.Lookup

/-!
# What is found and what is answered

A lookup and the rules read an ignored type each in its own way: the lookup to see whether the text is listed, the rules
on their way through the list. Of the findings, those that an entry is no type name are just what the rules say of this
entry (`Rules.nameFindingsAt_findings`), though other entries may be the same text. So a listed entry is invalid for
both or for neither, and in the second case the lookup finds it (`Lookup.find_agrees_with_rules`).
-/

namespace SurfaceRegistry

namespace Rules

variable {i : Nat} {fs gs : List Finding} {name : String}

/-- The findings that the ignored type at an index is no type name. -/
def nameFindingsAt (i : Nat) (fs : List Finding) : List Finding :=
  fs.filter fun f => f.code = FindingCode.invalidTypeName.text ∧ f.subject = some (ignoredTypeSubject i)

theorem nameFindingsAt_append : nameFindingsAt i (fs ++ gs) = nameFindingsAt i fs ++ nameFindingsAt i gs :=
  List.filter_append fs gs

theorem nameFindingsAt_eq_nil_of_subject (h : ∀ f ∈ fs, f.subject ≠ some (ignoredTypeSubject i)) :
    nameFindingsAt i fs = [] := by
  apply List.filter_eq_nil_iff.mpr
  intro f hf habout
  rw [decide_eq_true_iff] at habout
  exact h f hf habout.2

theorem nameFindingsAt_toList {s : Subject} {o : Option Finding} (h : ∀ f, o = some f → f.subject = some s.text) :
    nameFindingsAt i o.toList = [] := by
  apply nameFindingsAt_eq_nil_of_subject
  intro f hf
  rw [h f (Option.mem_toList.mp hf)]
  intro heq
  exact s.text_ne_ignoredTypeSubject i (Option.some.inj heq)

/-! ### Entry by entry -/

theorem nameFindingsAt_checkTypeName (i : Nat) (name : String) :
    nameFindingsAt i (checkTypeName i name) = checkTypeName i name := by
  unfold checkTypeName
  cases TypeName.parse name with
  | ok t => rfl
  | error e => simp [nameFindingsAt, invalidTypeName]

theorem nameFindingsAt_checkTypeName_of_ne {j : Nat} (h : i ≠ j) (name : String) :
    nameFindingsAt i (checkTypeName j name) = [] := by
  apply nameFindingsAt_eq_nil_of_subject
  intro f hf
  unfold checkTypeName at hf
  split at hf
  · cases hf
  · rw [List.mem_singleton.mp hf]
    intro hi
    exact h (ignoredTypeSubject_injective (Option.some.inj hi)).symm

theorem nameFindingsAt_checkRepetition (i : Nat) (earlier : List String) (name : String) :
    nameFindingsAt i (checkRepetition earlier name) = [] := by
  apply List.filter_eq_nil_iff.mpr
  intro f hf habout
  rw [decide_eq_true_iff, (isAbout_of_mem_checkRepetition (r := []) hf).2] at habout
  exact invalid_code_ne_duplicate habout.1.symm

theorem nameFindingsAt_later {earlier types : List String} (h : i < earlier.length) :
    nameFindingsAt i (checkIgnoredTypes earlier types) = [] := by
  apply nameFindingsAt_eq_nil_of_subject
  intro f hf hi
  obtain ⟨j, hj, habout⟩ := exists_isAbout_of_mem hf
  rw [habout.subject] at hi
  have hij := ignoredTypeSubject_injective (Option.some.inj hi)
  omega

/-- Whatever is said about the entries before and after it, that an entry is no type name is said once or not at all. -/
theorem nameFindingsAt_checkIgnoredTypes (earlier : List String) {types : List String} {k : Nat}
    (h : types[k]? = some name) :
    nameFindingsAt (earlier.length + k) (checkIgnoredTypes earlier types) =
      checkTypeName (earlier.length + k) name := by
  induction types generalizing earlier k with
  | nil => cases h
  | cons value r ih =>
    rw [checkIgnoredTypes, nameFindingsAt_append, nameFindingsAt_append, nameFindingsAt_checkRepetition,
      List.append_nil]
    cases k with
    | zero =>
      obtain rfl : value = name := Option.some.inj h
      rw [Nat.add_zero, nameFindingsAt_checkTypeName, nameFindingsAt_later (by simp), List.append_nil]
    | succ k =>
      have hrest := ih (earlier ++ [value]) h
      rw [List.length_append, List.length_singleton, Nat.add_assoc, Nat.add_comm 1 k] at hrest
      rw [nameFindingsAt_checkTypeName_of_ne (by omega), List.nil_append, hrest]

/-- No other rule says that an entry is no type name. -/
theorem nameFindingsAt_findings {r : EffectiveRegistry} (h : r.ignoredTypes[i]? = some name) :
    nameFindingsAt i (evaluate r).findings = checkTypeName i name := by
  have hsurface : nameFindingsAt i (evaluate r).apiSurface.toList = [] :=
    nameFindingsAt_toList fun _ => subject_of_checkPath
  have hdirectory : nameFindingsAt i (evaluate r).nightlyDirectory.toList = [] :=
    nameFindingsAt_toList fun _ => subject_of_checkPath
  have hpackage : nameFindingsAt i (evaluate r).package.toList = [] :=
    nameFindingsAt_toList fun _ => subject_of_checkPackage
  have htypes := nameFindingsAt_checkIgnoredTypes [] h
  rw [List.length_nil, Nat.zero_add] at htypes
  rw [Outcome.findings, nameFindingsAt_append, nameFindingsAt_append, nameFindingsAt_append, hsurface, hdirectory,
    hpackage]
  exact htypes

end Rules

namespace Lookup

open Rules

variable {r : EffectiveRegistry} {s : String}

/-- At each index a lookup and the rules find the same error, or neither finds one and the entry is ignored. -/
theorem answer_cases {i : Nat} (h : r.ignoredTypes[i]? = some s) :
    (∃ e, find r s = .invalid e ∧ nameFindingsAt i (evaluate r).findings = [invalidTypeName i s e]) ∨
      ∃ t, find r s = .ignored t ∧ t.text = s ∧ nameFindingsAt i (evaluate r).findings = [] := by
  rw [nameFindingsAt_findings h, checkTypeName]
  cases hs : TypeName.parse s with
  | error e => exact .inl ⟨e, find_of_error hs, rfl⟩
  | ok t => exact .inr ⟨t, find_eq_ignored_iff.mpr ⟨hs, List.mem_of_getElem? h⟩, TypeName.text_of_parse hs, rfl⟩

/-- The rules find that an entry is no type name exactly if a lookup of the entry says so, and then they find it once
and for the same reason. Every other entry is found by a lookup, so that no entry is answered not to be ignored; and
if there are no findings at all, each entry is ignored. -/
theorem find_agrees_with_rules (r : EffectiveRegistry) :
    (∀ (i : Nat) (name : String), r.ignoredTypes[i]? = some name →
      (nameFindingsAt i (evaluate r).findings ≠ [] ↔ ∃ e, find r name = .invalid e) ∧
      (∀ e, find r name = .invalid e →
        ∃ f, nameFindingsAt i (evaluate r).findings = [f] ∧ f.message = e.message) ∧
      ((¬∃ e, find r name = .invalid e) → ∃ t, find r name = .ignored t ∧ t.text = name)) ∧
    (∀ name ∈ r.ignoredTypes, ∀ t, find r name ≠ .notIgnored t) ∧
    ((evaluate r).findings = [] → ∀ name ∈ r.ignoredTypes, ∃ t, find r name = .ignored t) := by
  refine ⟨fun i name hi => ?_, fun name hmem t => ?_, fun hnone name hmem => ?_⟩
  · rcases answer_cases hi with ⟨e, hfind, hfound⟩ | ⟨t, hfind, htext, hfound⟩
    · refine ⟨iff_of_true (by simp [hfound]) ⟨e, hfind⟩, ?_, fun hvalid => absurd ⟨e, hfind⟩ hvalid⟩
      intro e' he'
      rw [hfind] at he'
      cases he'
      exact ⟨_, hfound, rfl⟩
    · have hvalid (e : TypeNameError) : find r name ≠ .invalid e := by simp [hfind]
      exact ⟨iff_of_false (not_not_intro hfound) (not_exists.mpr hvalid), fun e he => absurd he (hvalid e),
        fun _ => ⟨t, hfind, htext⟩⟩
  · obtain ⟨i, hi⟩ := List.getElem?_of_mem hmem
    rcases answer_cases hi with ⟨e, hfind, -⟩ | ⟨u, hfind, -⟩
    · simp [hfind]
    · simp [hfind]
  · obtain ⟨i, hi⟩ := List.getElem?_of_mem hmem
    rcases answer_cases hi with ⟨e, -, hfound⟩ | ⟨t, hfind, -⟩
    · rw [hnone] at hfound
      cases hfound
    · exact ⟨t, hfind⟩

/-- A list with a text that is no type name at two indices and a name between them, and the built-in list, in which
there is nothing to find. -/
theorem find_agrees_with_rules_of_repeating :
    (∃ r, EffectiveRegistry.resolve
        { ignoredTypes := ["b", "x.Y$Z", "b"], replaceIgnoredTypes := true } {} = .ok r ∧
      (∃ f, nameFindingsAt 2 (evaluate r).findings = [f] ∧ f.message = "type name 'b' has no package") ∧
      (∃ t, find r "x.Y$Z" = .ignored t ∧ t.text = "x.Y$Z") ∧ ∀ t, find r "b" ≠ .notIgnored t) ∧
    ∃ r, EffectiveRegistry.resolve {} {} = .ok r ∧ (evaluate r).findings = [] ∧
      ∃ t, find r "com.datadog.android.rum.model.ErrorEvent$Dd" = .ignored t := by
  constructor
  · obtain ⟨r, hr, htypes⟩ : ∃ r, EffectiveRegistry.resolve
        { ignoredTypes := ["b", "x.Y$Z", "b"], replaceIgnoredTypes := true } {} = .ok r ∧
        r.ignoredTypes = ["b", "x.Y$Z", "b"] := ⟨_, rfl, rfl⟩
    obtain ⟨heach, hlisted, -⟩ := find_agrees_with_rules r
    refine ⟨r, hr, ?_, ?_, hlisted "b" (by simp [htypes])⟩
    · obtain ⟨f, hf, hmessage⟩ := (heach 2 "b" (by rw [htypes]; rfl)).2.1 (.missingPackage "b") (find_of_error rfl)
      exact ⟨f, hf, hmessage.trans (by decide +kernel)⟩
    · refine (heach 1 "x.Y$Z" (by rw [htypes]; rfl)).2.2 ?_
      rintro ⟨e, he⟩
      rw [find_eq_invalid_iff] at he
      cases he
  · obtain ⟨r, hr, hnone, hmem⟩ : ∃ r, EffectiveRegistry.resolve {} {} = .ok r ∧ (evaluate r).findings.isEmpty = true ∧
        "com.datadog.android.rum.model.ErrorEvent$Dd" ∈ r.ignoredTypes := ⟨_, rfl, by decide +kernel, by decide +kernel⟩
    have hnone := List.isEmpty_iff.mp hnone
    exact ⟨r, hr, hnone, (find_agrees_with_rules r).2.2 hnone _ hmem⟩

end Lookup

end SurfaceRegistry
