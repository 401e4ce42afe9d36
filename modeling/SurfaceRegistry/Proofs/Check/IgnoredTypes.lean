import Mathlib.Data.Finset.Card
import SurfaceRegistry.Proofs.Check.Order
import SurfaceRegistry.Proofs.EffectiveRegistry

/-!
# Findings about ignored types

The rules go through the ignored types once and have the types before the current one at hand. What they find is
therefore told type by type (`Rules.exists_found`): why the text is no type name, if it is none, and where it stands
first, if it does so earlier. Each type is either new or found to be listed again, which counts the second kind
(`Rules.countCode_add_card`). In a list without repetitions there is none of it, so a configuration that adds to the
built-in names never leads to such a finding.
-/

namespace SurfaceRegistry

/-- The first member of an object with a key. -/
def Json.member? (v : Json) (key : String) : Option Json :=
  match v with
  | .object members => members.lookup key
  | _ => none

namespace Rules

/-! ### Type by type -/

/-- A finding of one kind about the ignored type at an index. -/
structure IsTypeFinding (code : FindingCode) (i : Nat) (name : String) (f : Finding) : Prop where
  severity : f.severity = .error
  checkId : f.checkId = CheckId.registryValues.text
  code : f.code = code.text
  subject : f.subject = some (ignoredTypeSubject i)
  /-- The type is told as it is written. -/
  value : f.data.member? "value" = some (.string name)

/-- What is found about a text as a type name. -/
inductive NameFindings (i : Nat) (name : String) : List Finding → Prop where
  /-- It is one. -/
  | valid {t : TypeName} (ht : TypeName.parse name = .ok t) : NameFindings i name []
  /-- It is none, and the finding says why. -/
  | invalid {e : TypeNameError} {f : Finding} (he : TypeName.parse name = .error e)
      (hf : IsTypeFinding .invalidTypeName i name f) (hmessage : f.message = e.message) : NameFindings i name [f]

/-- What is found about the type at an index in view of those before it. -/
inductive RepetitionFindings (types : List String) (i : Nat) (name : String) : List Finding → Prop where
  /-- None of them is the same text. -/
  | first (hnew : ∀ j < i, types[j]? ≠ some name) : RepetitionFindings types i name []
  /-- The same text stands at an earlier index, first of all at `j`. -/
  | again {j : Nat} {f : Finding} (hlt : j < i) (hj : types[j]? = some name)
      (hleast : ∀ k < j, types[k]? ≠ some name) (hf : IsTypeFinding .duplicateIgnoredType i name f)
      (hfirst : j < UInt64.size → f.data.member? "first_index" = some (.integer j)) :
      RepetitionFindings types i name [f]

theorem nameFindings_checkTypeName (i : Nat) (name : String) : NameFindings i name (checkTypeName i name) := by
  unfold checkTypeName
  cases h : TypeName.parse name with
  | ok t => exact .valid h
  | error e => exact .invalid h ⟨rfl, rfl, rfl, rfl, rfl⟩ rfl

theorem indexJson_of_lt {i : Nat} (h : i < UInt64.size) : indexJson i = .integer i := by
  rw [indexJson, UInt64.toNat_ofNat_of_lt' h]

theorem repetitionFindings_checkRepetition (earlier : List String) (name : String) (r : List String) :
    RepetitionFindings (earlier ++ name :: r) earlier.length name (checkRepetition earlier name) := by
  have hbefore {j : Nat} (hj : j < earlier.length) : (earlier ++ name :: r)[j]? = earlier[j]? :=
    List.getElem?_append_left hj
  unfold checkRepetition
  cases h : earlier.idxOf? name with
  | none =>
    refine .first fun j hj heq => List.idxOf?_eq_none_iff.mp h ?_
    rw [hbefore hj] at heq
    exact List.mem_of_getElem? heq
  | some j =>
    obtain ⟨hlt, hj, hleast⟩ := List.idxOf?_eq_some_iff.mp h
    refine .again hlt ?_ (fun k hk heq => hleast k hk ?_) ⟨rfl, rfl, rfl, rfl, rfl⟩ fun hsize => ?_
    · rw [hbefore hlt, List.getElem?_eq_getElem hlt, hj]
    · rw [hbefore (hk.trans hlt)] at heq
      exact (List.getElem?_eq_some_iff.mp heq).2
    · rw [← indexJson_of_lt hsize]
      rfl

/-- The findings about types that follow others are those about each of them, one after the other. -/
theorem exists_found (earlier types : List String) :
    ∃ found : List (List Finding), found.length = types.length ∧
      checkIgnoredTypes earlier types = found.flatten ∧
      ∀ i name, types[i]? = some name → ∃ fs gs, found[i]? = some (fs ++ gs) ∧
        NameFindings (earlier.length + i) name fs ∧
        RepetitionFindings (earlier ++ types) (earlier.length + i) name gs := by
  -- What is earlier grows along the list, and the whole stays the same.
  induction types generalizing earlier with
  | nil => exact ⟨[], rfl, rfl, fun i name h => by simp at h⟩
  | cons value r ih =>
    obtain ⟨found, hlength, hfound, heach⟩ := ih (earlier ++ [value])
    refine ⟨(checkTypeName earlier.length value ++ checkRepetition earlier value) :: found,
      congrArg Nat.succ hlength, by rw [checkIgnoredTypes, hfound, List.flatten_cons], fun i name h => ?_⟩
    cases i with
    | zero =>
      obtain rfl := Option.some.inj h
      exact ⟨_, _, rfl, nameFindings_checkTypeName _ _, repetitionFindings_checkRepetition earlier _ r⟩
    | succ i =>
      obtain ⟨fs, gs, hi, hname, hrepetition⟩ := heach i name h
      rw [List.length_append, List.length_singleton, Nat.add_right_comm] at hname hrepetition
      rw [List.append_assoc] at hrepetition
      exact ⟨fs, gs, hi, hname, hrepetition⟩

/-! ### How many are listed again -/

/-- The number of findings of a kind. -/
def countCode (code : FindingCode) (fs : List Finding) : Nat :=
  fs.countP fun f => f.code = code.text

theorem countCode_append (code : FindingCode) (fs gs : List Finding) :
    countCode code (fs ++ gs) = countCode code fs + countCode code gs :=
  List.countP_append

theorem countCode_checkTypeName (i : Nat) (name : String) :
    countCode .duplicateIgnoredType (checkTypeName i name) = 0 := by
  unfold checkTypeName
  split
  · rfl
  · rfl

/-- A type is found to be listed again exactly if it is among those before it. -/
theorem countCode_checkRepetition (earlier : List String) (name : String) :
    countCode .duplicateIgnoredType (checkRepetition earlier name) = if name ∈ earlier then 1 else 0 := by
  unfold checkRepetition
  cases h : earlier.idxOf? name with
  | none =>
    rw [if_neg (List.idxOf?_eq_none_iff.mp h)]
    rfl
  | some j =>
    obtain ⟨hlt, rfl, -⟩ := List.idxOf?_eq_some_iff.mp h
    rw [if_pos (List.getElem_mem hlt)]
    rfl

/-- Each type is new or found to be listed again. -/
theorem countCode_add_card (earlier types : List String) :
    countCode .duplicateIgnoredType (checkIgnoredTypes earlier types) + (earlier ++ types).toFinset.card =
      types.length + earlier.toFinset.card := by
  induction types generalizing earlier with
  | nil => simp [checkIgnoredTypes, countCode]
  | cons name r ih =>
    have hrest := ih (earlier ++ [name])
    have hcard : (earlier ++ [name]).toFinset.card + (if name ∈ earlier then 1 else 0) =
        earlier.toFinset.card + 1 := by
      rw [List.toFinset_append, Finset.union_comm]
      split
      · simp [*]
      · simp [*]
    rw [List.append_assoc, List.singleton_append] at hrest
    rw [checkIgnoredTypes, countCode_append, countCode_append, countCode_checkTypeName, countCode_checkRepetition,
      List.length_cons]
    omega

theorem countCode_eq_zero_of_nodup {types : List String} (h : types.Nodup) :
    countCode .duplicateIgnoredType (checkIgnoredTypes [] types) = 0 := by
  have hcount := countCode_add_card [] types
  rw [List.nil_append, List.toFinset_card_of_nodup h] at hcount
  simpa using hcount

/-- Nothing but a type is found to be listed again. -/
theorem IsFinding.exists_subject_of_duplicate {f : Finding} (h : IsFinding f)
    (hcode : f.code = FindingCode.duplicateIgnoredType.text) : ∃ i, f.subject = some (ignoredTypeSubject i) := by
  cases h with
  | emptyValue s => cases Finding.code_unique .emptyValue rfl hcode
  | absolutePath s value => cases Finding.code_unique .absolutePath rfl hcode
  | parentEscape s value => cases Finding.code_unique .parentEscape rfl hcode
  | invalidPackage value e => cases Finding.code_unique .invalidPackage rfl hcode
  | invalidTypeName i value e => exact ⟨i, rfl⟩
  | duplicateIgnoredType i first value => exact ⟨i, rfl⟩

end Rules

namespace Check

open Rules

/-- A check does not find a type listed again in a list without repetitions. -/
theorem code_ne_duplicate_of_nodup {times : CheckTimes} {root : String} {view : Option Layout.View}
    {r : EffectiveRegistry} (hr : r.ignoredTypes.Nodup) :
    ∀ f ∈ (ofRegistry times root view r).report.findings, f.code ≠ FindingCode.duplicateIgnoredType.text := by
  intro f hf hcode
  have hkind := isFinding_of_mem hf
  rw [findings_eq_sort_found, Finding.sort, List.mem_mergeSort, found_eq_append, List.mem_append] at hf
  rcases hf with hf | hf
  · rcases hkind with hrule | hlayout
    · obtain ⟨i, hi⟩ := hrule.exists_subject_of_duplicate hcode
      exact subject_ne_of_mem hf i hi
    · exact hlayout.code_ne (by decide) hcode
  · refine List.countP_eq_zero.mp (countCode_eq_zero_of_nodup hr) f hf ?_
    exact decide_eq_true hcode

/-- The rules say of each ignored type, in the order of the list, why it is no type name, if it is none, and where
the same text stands first, if it does so earlier; they say nothing else. So as many types are found to be listed
again as the list is longer than it has different entries, and in names that are added to the built-in ones none
is. -/
theorem ignoredTypes_found :
    (∀ types : List String, ∃ found : List (List Finding), found.length = types.length ∧
      checkIgnoredTypes [] types = found.flatten ∧
      ∀ i name, types[i]? = some name → ∃ fs gs, found[i]? = some (fs ++ gs) ∧
        NameFindings i name fs ∧ RepetitionFindings types i name gs) ∧
    (∀ types : List String,
      countCode .duplicateIgnoredType (checkIgnoredTypes [] types) = types.length - types.toFinset.card) ∧
    ∀ c o r, EffectiveRegistry.resolve c o = .ok r → c.replaceIgnoredTypes = false →
      ∀ times root view, ∀ f ∈ (ofRegistry times root view r).report.findings,
        f.code ≠ FindingCode.duplicateIgnoredType.text := by
  refine ⟨fun types => ?_, fun types => ?_, fun c o r hr hc times root view => code_ne_duplicate_of_nodup ?_⟩
  · simpa using exists_found [] types
  · have hcount := countCode_add_card [] types
    rw [List.nil_append, List.toFinset_nil, Finset.card_empty, Nat.add_zero] at hcount
    exact Nat.eq_sub_of_add_eq hcount
  · rw [EffectiveRegistry.ignoredTypes_of_resolve hr, EffectiveRegistry.mergeIgnoredTypes, hc]
    exact nodup_addMissing (by decide)

/-- Of five types three are listed again, two of them the same text that is no type name. -/
theorem ignoredTypes_found_of_repeating :
    (∃ found : List (List Finding), checkIgnoredTypes [] ["b", "x.Y", "b", "x.Y", "b"] = found.flatten ∧
      ∃ fs gs, found[4]? = some (fs ++ gs) ∧ NameFindings 4 "b" fs ∧
        RepetitionFindings ["b", "x.Y", "b", "x.Y", "b"] 4 "b" gs) ∧
    countCode .duplicateIgnoredType (checkIgnoredTypes [] ["b", "x.Y", "b", "x.Y", "b"]) = 3 ∧
    ∃ r, EffectiveRegistry.resolve EffectiveRegistry.repeatingConfig EffectiveRegistry.hidingOverrides = .ok r ∧
      ∀ f ∈ (ofRegistry ⟨.epoch, .epoch⟩ "repo" (some Layout.emptyView) r).report.findings,
        f.code ≠ FindingCode.duplicateIgnoredType.text := by
  obtain ⟨heach, hcount, hmerged⟩ := ignoredTypes_found
  refine ⟨?_, (hcount _).trans (by decide), _, rfl, ?_⟩
  · obtain ⟨found, -, hflatten, hfound⟩ := heach ["b", "x.Y", "b", "x.Y", "b"]
    exact ⟨found, hflatten, hfound 4 "b" rfl⟩
  · exact hmerged EffectiveRegistry.repeatingConfig EffectiveRegistry.hidingOverrides _ rfl rfl _ "repo" _

end Check

end SurfaceRegistry
