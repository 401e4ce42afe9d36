import Mathlib
import SurfaceRegistry.Proofs.Check.Findings
import SurfaceRegistry.Proofs.Finding

/-!
# The order of a report

The findings of a report are those that the check found (`Check.found`), in their order: no other list is
sorted in the same way (`Check.run_findings_sorted`). Ignored types that are the same text have findings with
the same check, code and message, and these the sort leaves as they were. The rules go through the types from
the first to the last, so findings of this kind are in the order of the types.
-/

namespace SurfaceRegistry

namespace Rules

/-! ### Subjects -/

theorem ignoredTypeSubject_injective : Function.Injective ignoredTypeSubject := by
  intro i j h
  have h := congrArg String.toList h
  simp only [ignoredTypeSubject, String.toList_append, List.append_cancel_left_eq,
    List.append_cancel_right_eq, String.toList_inj] at h
  exact Nat.repr_injective h

theorem Subject.text_ne_ignoredTypeSubject (s : Subject) (i : Nat) : s.text ≠ ignoredTypeSubject i := by
  intro h
  have hi : (ignoredTypeSubject i).toList.head? = some 'i' := by
    rw [ignoredTypeSubject, String.toList_append, String.toList_append]
    rfl
  rw [← h] at hi
  cases s <;> exact absurd hi (by decide)

theorem subject_of_checkPath {s : Subject} {value : String} {f : Finding}
    (h : checkPath s value = some f) : f.subject = some s.text := by
  rcases checkPath_cases h with rfl | rfl | rfl <;> rfl

theorem subject_of_checkPackage {value : String} {f : Finding} (h : checkPackage value = some f) :
    f.subject = some Subject.nightlyTestsPackage.text := by
  rcases checkPackage_cases h with rfl | ⟨e, -, rfl⟩ <;> rfl

/-! ### Findings about ignored types -/

theorem invalid_code_ne_duplicate :
    FindingCode.invalidTypeName.text ≠ FindingCode.duplicateIgnoredType.text := by
  decide

theorem IsAbout.subject {types : List String} {i : Nat} {f : Finding} (h : IsAbout types i f) :
    f.subject = some (ignoredTypeSubject i) := by
  cases h <;> rfl

/-- Two findings of one kind about ignored types come in the order of the types. -/
def InTypeOrder (f g : Finding) : Prop :=
  f.code = g.code → ∀ i j, f.subject = some (ignoredTypeSubject i) →
    g.subject = some (ignoredTypeSubject j) → i < j

theorem inTypeOrder_of_lt {types types' : List String} {i j : Nat} {f g : Finding}
    (hf : IsAbout types i f) (hg : IsAbout types' j g) (h : i < j) : InTypeOrder f g := by
  intro _ i' j' hi hj
  obtain rfl := ignoredTypeSubject_injective (Option.some.inj (hf.subject.symm.trans hi))
  obtain rfl := ignoredTypeSubject_injective (Option.some.inj (hg.subject.symm.trans hj))
  exact h

theorem inTypeOrder_of_code_ne {f g : Finding} (h : f.code ≠ g.code) : InTypeOrder f g :=
  fun hcode => absurd hcode h

theorem pairwise_checkIgnoredTypes (earlier types : List String) :
    (checkIgnoredTypes earlier types).Pairwise InTypeOrder := by
  induction types generalizing earlier with
  | nil => exact .nil
  | cons value r ih =>
    rw [checkIgnoredTypes]
    refine List.pairwise_append.mpr ⟨List.pairwise_append.mpr ⟨?_, ?_, ?_⟩, ih _, ?_⟩
    · unfold checkTypeName
      split <;> simp
    · unfold checkRepetition
      split <;> simp
    · intro f hf g hg
      refine inTypeOrder_of_code_ne ?_
      rw [(isAbout_of_mem_checkTypeName (r := r) hf).2, (isAbout_of_mem_checkRepetition (r := r) hg).2]
      exact invalid_code_ne_duplicate
    · intro f hf g hg
      obtain ⟨j, hj, hg⟩ := exists_isAbout_of_mem hg
      rw [List.length_append] at hj
      have hf : IsAbout (earlier ++ value :: r) earlier.length f := by
        rcases List.mem_append.mp hf with hf | hf
        · exact (isAbout_of_mem_checkTypeName hf).1
        · exact (isAbout_of_mem_checkRepetition hf).1
      exact inTypeOrder_of_lt hf hg hj

/-- Findings of one kind about types that are the same text have the same place in the order. -/
theorem IsAbout.key_eq {types : List String} {i j : Nat} {name : String} {f g : Finding}
    (hf : IsAbout types i f) (hg : IsAbout types j g) (hi : types[i]? = some name)
    (hj : types[j]? = some name) (hcode : f.code = g.code) : f.key = g.key := by
  cases hf with
  | invalid hi' he =>
    cases hg with
    | invalid hj' he' =>
      obtain rfl := Option.some.inj (hi'.symm.trans hi)
      obtain rfl := Option.some.inj (hj'.symm.trans hj)
      obtain rfl := Except.error.inj (he.symm.trans he')
      rfl
    | duplicate first hj' => exact absurd hcode invalid_code_ne_duplicate
  | duplicate first hi' =>
    cases hg with
    | invalid hj' he' => exact absurd hcode.symm invalid_code_ne_duplicate
    | duplicate first' hj' =>
      obtain rfl := Option.some.inj (hi'.symm.trans hi)
      obtain rfl := Option.some.inj (hj'.symm.trans hj)
      rfl

end Rules

theorem Layout.IsFinding.exists_subject {f : Finding} (h : IsFinding f) :
    ∃ s : Rules.Subject, f.subject = some s.text := by
  cases h <;> exact ⟨_, rfl⟩

namespace Check

open Rules

/-- What a check finds, in the order in which it does: in the repository, if it looks at it, and then in
the values. -/
def found (root : String) (view : Option Layout.View) (r : EffectiveRegistry) : List Finding :=
  (view.elim [] fun v => (Layout.probe v root (Layout.places r (evaluate r))).findings) ++
    (evaluate r).findings

/-- The part of this that is not about ignored types. -/
def foundAboutPlaces (root : String) (view : Option Layout.View) (r : EffectiveRegistry) : List Finding :=
  (view.elim [] fun v => (Layout.probe v root (Layout.places r (evaluate r))).findings) ++
    ((evaluate r).apiSurface.toList ++ (evaluate r).nightlyDirectory.toList ++
      (evaluate r).package.toList)

variable {times : CheckTimes} {root : String} {view : Option Layout.View} {r : EffectiveRegistry}

theorem findings_eq_sort_found :
    (ofRegistry times root view r).report.findings = Finding.sort (found root view r) := by
  cases view <;> rfl

theorem found_eq_append :
    found root view r = foundAboutPlaces root view r ++ checkIgnoredTypes [] r.ignoredTypes := by
  simp only [found, foundAboutPlaces, Outcome.findings, List.append_assoc]
  rfl

theorem exists_subject_of_mem {f : Finding} (h : f ∈ foundAboutPlaces root view r) :
    ∃ s : Subject, f.subject = some s.text := by
  simp only [foundAboutPlaces, evaluate, List.mem_append, Option.mem_toList] at h
  rcases h with h | (h | h) | h
  · cases view with
    | none => simp at h
    | some v => exact (Layout.isFinding_of_mem h).exists_subject
  · exact ⟨_, subject_of_checkPath h⟩
  · exact ⟨_, subject_of_checkPath h⟩
  · exact ⟨_, subject_of_checkPackage h⟩

theorem subject_ne_of_mem {f : Finding} (h : f ∈ foundAboutPlaces root view r) (i : Nat) :
    f.subject ≠ some (ignoredTypeSubject i) := by
  obtain ⟨s, hs⟩ := exists_subject_of_mem h
  rw [hs]
  exact fun heq => s.text_ne_ignoredTypeSubject i (Option.some.inj heq)

theorem pairwise_found : (found root view r).Pairwise InTypeOrder := by
  have hplaces {f g : Finding} (h : f ∈ foundAboutPlaces root view r) : InTypeOrder f g :=
    fun _ i _ hi _ => absurd hi (subject_ne_of_mem h i)
  rw [found_eq_append]
  refine List.pairwise_append.mpr ⟨?_, pairwise_checkIgnoredTypes [] _, fun f hf _ _ => hplaces hf⟩
  exact List.pairwise_of_forall_mem_list fun f hf _ _ => hplaces hf

theorem isAbout_of_subject {f : Finding} {i : Nat} (h : f ∈ found root view r)
    (hi : f.subject = some (ignoredTypeSubject i)) : IsAbout r.ignoredTypes i f := by
  rw [found_eq_append, List.mem_append] at h
  rcases h with h | h
  · exact absurd hi (subject_ne_of_mem h i)
  · obtain ⟨j, -, hf⟩ := exists_isAbout_of_mem h
    obtain rfl := ignoredTypeSubject_injective (Option.some.inj (hf.subject.symm.trans hi))
    exact hf

/-- The findings of a report are those that the check found, in their order and otherwise as they were, and
there is only one such list. Findings of one kind about ignored types that are the same text are in the order
of these types. -/
theorem run_findings_sorted {text : String} {o : Overrides} {out : Output}
    (h : run times root text o view = .ok out) :
    EffectiveRegistry.load text o = .ok out.registry ∧
    Finding.IsStableSort (found root view out.registry) out.report.findings ∧
    (∀ fs, Finding.IsStableSort (found root view out.registry) fs → fs = out.report.findings) ∧
    out.report.findings.Pairwise fun f g => f.code = g.code → ∀ i j name,
      out.registry.ignoredTypes[i]? = some name → out.registry.ignoredTypes[j]? = some name →
      f.subject = some (ignoredTypeSubject i) → g.subject = some (ignoredTypeSubject j) → i < j := by
  obtain ⟨r, hr, rfl⟩ := run_eq_ok h
  have hsort : Finding.IsStableSort (found root view r) (ofRegistry times root view r).report.findings := by
    rw [findings_eq_sort_found]
    exact Finding.isStableSort_sort _
  refine ⟨hr, hsort, fun fs hfs => hfs.unique hsort, ?_⟩
  refine (hsort.pairwise pairwise_found).imp_of_mem ?_
  intro f g hf hg horder hcode i j name hi hj hfi hgj
  have hfabout := isAbout_of_subject (hsort.perm.mem_iff.mp hf) hfi
  have hgabout := isAbout_of_subject (hsort.perm.mem_iff.mp hg) hgj
  exact horder (hfabout.key_eq hgabout hi hj hcode) hcode i j hfi hgj

/-- A configuration in which type names and texts that are none are repeated. -/
def repeatingText : String :=
  "ignored_types = [\"b\", \"x.Y\", \"a\", \"b\", \"x.Y\", \"b\"]\nreplace_ignored_types = true\n"

theorem load_repeatingText :
    Config.load repeatingText =
      .ok { ignoredTypes := ["b", "x.Y", "a", "b", "x.Y", "b"], replaceIgnoredTypes := true } := by
  rw [Config.load, if_neg (by decide +kernel)]
  cbv

theorem run_findings_sorted_of_repeating :
    ∃ out, run ⟨.epoch, .epoch⟩ "repo" repeatingText {} (some Layout.emptyView) = .ok out ∧
      out.registry.ignoredTypes = ["b", "x.Y", "a", "b", "x.Y", "b"] ∧
      Finding.IsStableSort (found "repo" (some Layout.emptyView) out.registry) out.report.findings ∧
      out.report.findings.length = 9 ∧
      out.report.findings.Pairwise fun f g => f.code = g.code →
        f.subject = some (ignoredTypeSubject 3) → g.subject ≠ some (ignoredTypeSubject 0) := by
  obtain ⟨r, hr, htypes, hlength⟩ : ∃ r, EffectiveRegistry.load repeatingText {} = .ok r ∧
      r.ignoredTypes = ["b", "x.Y", "a", "b", "x.Y", "b"] ∧
      (found "repo" (some Layout.emptyView) r).length = 9 := by
    rw [EffectiveRegistry.load, load_repeatingText]
    exact ⟨_, rfl, rfl, by decide +kernel⟩
  have hrun : run ⟨.epoch, .epoch⟩ "repo" repeatingText {} (some Layout.emptyView) =
      .ok (ofRegistry ⟨.epoch, .epoch⟩ "repo" (some Layout.emptyView) r) := run_of_load hr _ _ _
  obtain ⟨-, hsort, -, horder⟩ := run_findings_sorted hrun
  refine ⟨_, hrun, htypes, hsort, hsort.perm.length_eq.trans hlength, horder.imp ?_⟩
  intro f g h hcode hf hg
  have h3 : r.ignoredTypes[3]? = some "b" := by rw [htypes]; rfl
  have h0 : r.ignoredTypes[0]? = some "b" := by rw [htypes]; rfl
  exact absurd (h hcode 3 0 "b" h3 h0 hf hg) (by decide)

end Check

end SurfaceRegistry
