import Mathlib.Data.List.Infix
import Mathlib.Data.List.Perm.Basic
import SurfaceRegistry.EffectiveRegistry

/-!
# How three layers make up the registry in force

The registry in force is the one that the layers describe (`EffectiveRegistry.InForce`), and there is one
unless the text that says what a check fails on says nothing (`EffectiveRegistry.resolve_layered`). Each
single value is that of the highest layer that states one. The ignored types are those of the configuration
alone, or the built-in ones followed by those of the configuration that are new.

Names are added to a list that grows with them. The invariant is therefore about the list that the addition
starts from: behind it stand the names that it does not hold, each once, in the order in which they come
first (`FirstOccurrences`). There is only one such list (`FirstOccurrences.unique`).
-/

namespace SurfaceRegistry

/-! ### Single values -/

/-- The value that holds under three layers, and the layer that states it. -/
inductive SourcedValue.Prevails (builtin : String) :
    Option String → Option String → SourcedValue → Prop where
  /-- What the caller states hides the rest. -/
  | override (config : Option String) (v : String) : Prevails builtin config (some v) ⟨v, .override⟩
  /-- What the configuration states hides the built-in value. -/
  | config (v : String) : Prevails builtin (some v) none ⟨v, .config⟩
  /-- The built-in value remains where nothing is stated. -/
  | builtin : Prevails builtin none none ⟨builtin, .builtin⟩

theorem SourcedValue.prevails_iff {builtin : String} {config override : Option String}
    {v : SourcedValue} : Prevails builtin config override v ↔ v = pick builtin config override := by
  constructor
  · rintro (_ | _ | _)
    · rfl
    · rfl
    · rfl
  · rintro rfl
    cases override with
    | some w => exact .override config w
    | none =>
      cases config with
      | some w => exact .config w
      | none => exact .builtin

/-! ### Names that are added to a list -/

/-- The names in `given` that are not known, each once, in the order in which they come first. -/
structure FirstOccurrences (known given added : List String) : Prop where
  /-- They are the names that are not known. -/
  mem_iff : ∀ name, name ∈ added ↔ name ∈ given ∧ name ∉ known
  /-- Of two of them, the one that comes first in `given` stands first. -/
  ordered : added.Pairwise fun m n => given.idxOf m < given.idxOf n

namespace FirstOccurrences

variable {known given added : List String} {name : String}

theorem nodup (h : FirstOccurrences known given added) : added.Nodup := by
  refine h.ordered.imp ?_
  rintro m _ hlt rfl
  exact Nat.lt_irrefl _ hlt

/-- A name in front of all others moves each of them by one place. -/
theorem pairwise_cons_given (h : added.Pairwise fun m n => given.idxOf m < given.idxOf n)
    (hne : ∀ m ∈ added, m ≠ name) :
    added.Pairwise fun m n => (name :: given).idxOf m < (name :: given).idxOf n := by
  refine h.imp_of_mem fun hm hn hlt => ?_
  rw [List.idxOf_cons_ne given (hne _ hm).symm, List.idxOf_cons_ne given (hne _ hn).symm]
  exact Nat.succ_lt_succ hlt

theorem nil (known : List String) : FirstOccurrences known [] [] where
  mem_iff := by simp
  ordered := List.Pairwise.nil

theorem cons_known (h : FirstOccurrences known given added) (hname : name ∈ known) :
    FirstOccurrences known (name :: given) added where
  mem_iff n := by
    rw [h.mem_iff, List.mem_cons]
    constructor
    · rintro ⟨hg, hk⟩
      exact ⟨.inr hg, hk⟩
    · rintro ⟨rfl | hg, hk⟩
      · exact absurd hname hk
      · exact ⟨hg, hk⟩
  ordered := pairwise_cons_given h.ordered fun m hm heq =>
    ((h.mem_iff m).mp hm).2 (heq ▸ hname)

theorem cons_new (h : FirstOccurrences (known ++ [name]) given added) (hname : name ∉ known) :
    FirstOccurrences known (name :: given) (name :: added) where
  mem_iff n := by
    rw [List.mem_cons, List.mem_cons, h.mem_iff, List.mem_append, List.mem_singleton]
    by_cases hn : n = name
    · subst hn
      simp [hname]
    · simp [hn]
  ordered := by
    have hne : ∀ m ∈ added, m ≠ name := by
      rintro m hm rfl
      exact ((h.mem_iff m).mp hm).2 (List.mem_append_right known (List.mem_singleton_self m))
    refine List.pairwise_cons.mpr ⟨fun n hn => ?_, pairwise_cons_given h.ordered hne⟩
    rw [List.idxOf_cons_self, List.idxOf_cons_ne given (hne n hn).symm]
    exact Nat.succ_pos _

/-- The conditions leave no choice. -/
theorem unique {added' : List String} (h : FirstOccurrences known given added)
    (h' : FirstOccurrences known given added') : added = added' := by
  have hperm : added.Perm added' := by
    rw [List.perm_ext_iff_of_nodup h.nodup h'.nodup]
    intro name
    rw [h.mem_iff, h'.mem_iff]
  exact hperm.eq_of_pairwise (fun _ _ _ _ hlt hgt => absurd hgt (Nat.lt_asymm hlt)) h.ordered h'.ordered

end FirstOccurrences

/-- What adding leaves behind the names that were known. -/
theorem exists_addMissing (known given : List String) :
    ∃ added, addMissing known given = known ++ added ∧ FirstOccurrences known given added := by
  -- The list grows along the recursion, so the induction is over all lists of known names.
  induction given generalizing known with
  | nil => exact ⟨[], (List.append_nil known).symm, .nil known⟩
  | cons name r ih =>
    by_cases hname : name ∈ known
    · obtain ⟨added, hadd, h⟩ := ih known
      refine ⟨added, ?_, h.cons_known hname⟩
      rw [addMissing, if_pos (List.contains_iff_mem.mpr hname), hadd]
    · obtain ⟨added, hadd, h⟩ := ih (known ++ [name])
      refine ⟨name :: added, ?_, h.cons_new hname⟩
      rw [addMissing, if_neg (fun hc => hname (List.contains_iff_mem.mp hc)), hadd, List.append_assoc]
      rfl

theorem addMissing_eq_iff {known given merged : List String} :
    addMissing known given = merged ↔
      ∃ added, merged = known ++ added ∧ FirstOccurrences known given added := by
  obtain ⟨added, hadd, h⟩ := exists_addMissing known given
  constructor
  · rintro rfl
    exact ⟨added, hadd, h⟩
  · rintro ⟨added', rfl, h'⟩
    rw [hadd, h.unique h']

@[simp] theorem mem_addMissing {known given : List String} {name : String} :
    name ∈ addMissing known given ↔ name ∈ known ∨ name ∈ given := by
  obtain ⟨added, hadd, h⟩ := exists_addMissing known given
  rw [hadd, List.mem_append, h.mem_iff]
  tauto

theorem nodup_addMissing {known given : List String} (hknown : known.Nodup) :
    (addMissing known given).Nodup := by
  obtain ⟨added, hadd, h⟩ := exists_addMissing known given
  rw [hadd, List.nodup_append]
  refine ⟨hknown, h.nodup, ?_⟩
  rintro name hk _ ha rfl
  exact ((h.mem_iff name).mp ha).2 hk

theorem prefix_addMissing (known given : List String) : known <+: addMissing known given := by
  obtain ⟨added, hadd, -⟩ := exists_addMissing known given
  exact ⟨added, hadd.symm⟩

/-! ### What a check fails on -/

namespace FailOn

/-- The texts that name a choice. -/
def names : List String :=
  ["error", "warning", "warn"]

theorem parse?_eq_none_iff {name : String} : parse? name = none ↔ name ∉ names := by
  unfold parse? names
  by_cases he : name = "error"
  · simp [he]
  by_cases hw : name = "warning" ∨ name = "warn"
  · rcases hw with rfl | rfl <;> simp
  · simp [he, hw]

theorem parse?_eq_warning_iff {name : String} :
    parse? name = some .warning ↔ name = "warning" ∨ name = "warn" := by
  unfold parse?
  by_cases he : name = "error"
  · simp [he]
  · by_cases hw : name = "warning" ∨ name = "warn" <;> simp [he, hw]

end FailOn

namespace EffectiveRegistry

/-- The text that says what a check fails on. That of the caller hides that of the configuration. -/
def StatesFailOn (c : Config) (o : Overrides) (name : String) : Prop :=
  o.failOn = some name ∨ o.failOn = none ∧ c.failOn = some name

variable {c : Config} {o : Overrides} {r : EffectiveRegistry}

theorem statesFailOn_iff {name : String} :
    StatesFailOn c o name ↔ (o.failOn <|> c.failOn) = some name := by
  unfold StatesFailOn
  cases o.failOn with
  | some n => simp
  | none => simp

theorem chooseFailOn_eq_ok_iff {stated : Option String} {f : FailOn} :
    chooseFailOn stated = .ok f ↔
      (∀ name, stated = some name → name ∈ FailOn.names) ∧
        (f = .warning ↔ stated = some "warning" ∨ stated = some "warn") := by
  cases stated with
  | none => cases f <;> simp [chooseFailOn]
  | some name =>
    simp only [chooseFailOn, Option.some.injEq, forall_eq', ← FailOn.parse?_eq_warning_iff]
    cases hp : FailOn.parse? name with
    | none =>
      have hn : name ∉ FailOn.names := FailOn.parse?_eq_none_iff.mp hp
      simp [hn]
    | some g =>
      have hn : name ∈ FailOn.names := by
        by_contra hn
        rw [FailOn.parse?_eq_none_iff.mpr hn] at hp
        cases hp
      cases f <;> cases g <;> simp [hn]

theorem chooseFailOn_eq_error_iff {stated : Option String} {e : ResolveError} :
    chooseFailOn stated = .error e ↔
      ∃ name, stated = some name ∧ name ∉ FailOn.names ∧ e = .unknownFailOn name := by
  cases stated with
  | none => simp [chooseFailOn]
  | some name =>
    simp only [chooseFailOn, Option.some.injEq, exists_eq_left', ← FailOn.parse?_eq_none_iff]
    cases FailOn.parse? name with
    | none => simp [eq_comm]
    | some g => simp

/-! ### The registry in force -/

/-- The registry in force, once it is known what a check fails on. -/
def layered (c : Config) (o : Overrides) (failOn : FailOn) : EffectiveRegistry where
  apiSurfacePath := .pick Registry.builtin.apiSurfacePath c.apiSurfacePath o.apiSurfacePath
  nightlyTestsDirectoryPath :=
    .pick Registry.builtin.nightlyTestsDirectoryPath c.nightlyTestsDirectoryPath
      o.nightlyTestsDirectoryPath
  nightlyTestsPackage :=
    .pick Registry.builtin.nightlyTestsPackage c.nightlyTestsPackage o.nightlyTestsPackage
  ignoredTypes := mergeIgnoredTypes c
  ignoredTypesSource := ignoredTypesLayer c
  failOn := failOn

theorem resolve_eq_map (c : Config) (o : Overrides) :
    resolve c o = (chooseFailOn (o.failOn <|> c.failOn)).map (layered c o) := by
  rw [resolve]
  cases chooseFailOn (o.failOn <|> c.failOn) <;> rfl

theorem resolve_eq_ok_iff :
    resolve c o = .ok r ↔ ∃ f, chooseFailOn (o.failOn <|> c.failOn) = .ok f ∧ r = layered c o f := by
  rw [resolve_eq_map]
  cases chooseFailOn (o.failOn <|> c.failOn) <;> simp [Except.map, eq_comm]

theorem resolve_eq_error_iff {e : ResolveError} :
    resolve c o = .error e ↔ chooseFailOn (o.failOn <|> c.failOn) = .error e := by
  rw [resolve_eq_map]
  cases chooseFailOn (o.failOn <|> c.failOn) <;> simp [Except.map]

theorem ignoredTypes_of_resolve (h : resolve c o = .ok r) : r.ignoredTypes = mergeIgnoredTypes c := by
  obtain ⟨f, -, rfl⟩ := resolve_eq_ok_iff.mp h
  rfl

/-- The registry that the layers describe. -/
structure InForce (c : Config) (o : Overrides) (r : EffectiveRegistry) : Prop where
  /-- The listing of the API surface is that of the highest layer. -/
  apiSurfacePath : SourcedValue.Prevails Registry.builtin.apiSurfacePath c.apiSurfacePath
    o.apiSurfacePath r.apiSurfacePath
  /-- So is the source root of the nightly tests. -/
  nightlyTestsDirectoryPath : SourcedValue.Prevails Registry.builtin.nightlyTestsDirectoryPath
    c.nightlyTestsDirectoryPath o.nightlyTestsDirectoryPath r.nightlyTestsDirectoryPath
  /-- So is their package. -/
  nightlyTestsPackage : SourcedValue.Prevails Registry.builtin.nightlyTestsPackage
    c.nightlyTestsPackage o.nightlyTestsPackage r.nightlyTestsPackage
  /-- A configuration that replaces the ignored types does so to the letter. -/
  replaced : c.replaceIgnoredTypes = true → r.ignoredTypes = c.ignoredTypes
  /-- Any other adds what is new behind the built-in ones. -/
  merged : c.replaceIgnoredTypes = false → ∃ added,
    r.ignoredTypes = Registry.builtin.ignoredTypes ++ added ∧
      FirstOccurrences Registry.builtin.ignoredTypes c.ignoredTypes added
  /-- The configuration has a part in the ignored types unless it neither lists nor replaces any. -/
  source : r.ignoredTypesSource =
    if c.replaceIgnoredTypes = false ∧ c.ignoredTypes = [] then .builtin else .config
  /-- What a check fails on is stated by a text that names a choice, if it is stated at all. -/
  named : ∀ name, StatesFailOn c o name → name ∈ FailOn.names
  /-- A check fails on warnings if that is stated. -/
  failOn : r.failOn = .warning ↔ StatesFailOn c o "warning" ∨ StatesFailOn c o "warn"

theorem ignoredTypesLayer_eq (c : Config) :
    ignoredTypesLayer c =
      if c.replaceIgnoredTypes = false ∧ c.ignoredTypes = [] then .builtin else .config := by
  rw [ignoredTypesLayer]
  cases c.replaceIgnoredTypes <;> cases c.ignoredTypes <;> rfl

theorem mergeIgnoredTypes_eq_iff {types : List String} :
    types = mergeIgnoredTypes c ↔
      (c.replaceIgnoredTypes = true → types = c.ignoredTypes) ∧
        (c.replaceIgnoredTypes = false → ∃ added, types = Registry.builtin.ignoredTypes ++ added ∧
          FirstOccurrences Registry.builtin.ignoredTypes c.ignoredTypes added) := by
  rw [mergeIgnoredTypes]
  cases c.replaceIgnoredTypes with
  | true => simp
  | false => simp [← addMissing_eq_iff, eq_comm]

theorem inForce_layered {f : FailOn} (h : chooseFailOn (o.failOn <|> c.failOn) = .ok f) :
    InForce c o (layered c o f) := by
  obtain ⟨hnamed, hf⟩ := chooseFailOn_eq_ok_iff.mp h
  obtain ⟨hreplaced, hmerged⟩ := mergeIgnoredTypes_eq_iff.mp (rfl : (layered c o f).ignoredTypes = _)
  simp only [← statesFailOn_iff] at hnamed hf
  exact
    { apiSurfacePath := SourcedValue.prevails_iff.mpr rfl
      nightlyTestsDirectoryPath := SourcedValue.prevails_iff.mpr rfl
      nightlyTestsPackage := SourcedValue.prevails_iff.mpr rfl
      replaced := hreplaced
      merged := hmerged
      source := ignoredTypesLayer_eq c
      named := hnamed
      failOn := hf }

theorem InForce.eq_layered (h : InForce c o r) : r = layered c o r.failOn := by
  have ha := SourcedValue.prevails_iff.mp h.apiSurfacePath
  have hd := SourcedValue.prevails_iff.mp h.nightlyTestsDirectoryPath
  have hp := SourcedValue.prevails_iff.mp h.nightlyTestsPackage
  have ht : r.ignoredTypes = mergeIgnoredTypes c := mergeIgnoredTypes_eq_iff.mpr ⟨h.replaced, h.merged⟩
  have hs : r.ignoredTypesSource = ignoredTypesLayer c := h.source.trans (ignoredTypesLayer_eq c).symm
  rw [layered, ← ha, ← hd, ← hp, ← ht, ← hs]

theorem InForce.chooseFailOn_eq (h : InForce c o r) :
    chooseFailOn (o.failOn <|> c.failOn) = .ok r.failOn := by
  rw [chooseFailOn_eq_ok_iff]
  simp only [← statesFailOn_iff]
  exact ⟨h.named, h.failOn⟩

/-- Resolving finds the registry that the layers describe, and no other. -/
theorem resolve_eq_ok_iff_inForce : resolve c o = .ok r ↔ InForce c o r := by
  rw [resolve_eq_ok_iff]
  constructor
  · rintro ⟨f, hf, rfl⟩
    exact inForce_layered hf
  · intro h
    exact ⟨r.failOn, h.chooseFailOn_eq, h.eq_layered⟩

/-- The names to ignore under a configuration, whether it replaces the built-in ones or adds to them. -/
theorem mem_mergeIgnoredTypes {name : String} :
    name ∈ mergeIgnoredTypes c ↔
      name ∈ c.ignoredTypes ∨ c.replaceIgnoredTypes = false ∧ name ∈ Registry.builtin.ignoredTypes := by
  rw [mergeIgnoredTypes]
  cases c.replaceIgnoredTypes with
  | true => simp
  | false => simp [or_comm]

/-- The registry in force is the one that the layers describe, if what a check fails on is named by one of
three texts or left open. Ignored types that are added come behind the built-in ones, none is listed twice,
and the names of both lists are there. What the caller fails on hides what the configuration says. -/
theorem resolve_layered :
    (∀ c o r, resolve c o = .ok r ↔ InForce c o r) ∧
    (∀ c o e, resolve c o = .error e ↔
      ∃ name, StatesFailOn c o name ∧ name ∉ FailOn.names ∧ e = .unknownFailOn name) ∧
    (∀ c o r, resolve c o = .ok r → c.replaceIgnoredTypes = false →
      Registry.builtin.ignoredTypes <+: r.ignoredTypes ∧ r.ignoredTypes.Nodup ∧
        ∀ name, name ∈ r.ignoredTypes ↔
          name ∈ Registry.builtin.ignoredTypes ∨ name ∈ c.ignoredTypes) ∧
    ∀ c o name stated, o.failOn = some name → resolve { c with failOn := stated } o = resolve c o := by
  refine ⟨fun c o r => resolve_eq_ok_iff_inForce, fun c o e => ?_, fun c o r h hc => ?_,
    fun c o name stated h => ?_⟩
  · simp only [resolve_eq_error_iff, chooseFailOn_eq_error_iff, statesFailOn_iff]
  · have hmerge : r.ignoredTypes = addMissing Registry.builtin.ignoredTypes c.ignoredTypes := by
      rw [ignoredTypes_of_resolve h, mergeIgnoredTypes, hc]
      rfl
    rw [hmerge]
    exact ⟨prefix_addMissing _ _, nodup_addMissing (by decide), fun name => mem_addMissing⟩
  · rw [resolve_eq_map, resolve_eq_map, h]
    rfl

/-- A configuration with repeated and built-in names, and with a choice that is none. -/
def repeatingConfig : Config where
  apiSurfacePath := some "listing"
  nightlyTestsPackage := some "com/x"
  ignoredTypes := ["x.Y", "com.datadog.android.rum.model.ActionEvent$Dd", "x.Y", "x.A", "x.Y"]
  failOn := some "sometimes"

/-- What is stated on top of it. -/
def hidingOverrides : Overrides where
  apiSurfacePath := some ""
  failOn := some "warn"

theorem resolve_layered_of_repeating :
    ∃ r, resolve repeatingConfig hidingOverrides = .ok r ∧ InForce repeatingConfig hidingOverrides r ∧
      r.ignoredTypes = Registry.builtin.ignoredTypes ++ ["x.Y", "x.A"] ∧ r.ignoredTypes.Nodup ∧
      resolve { repeatingConfig with failOn := none } hidingOverrides = .ok r ∧
      resolve repeatingConfig {} = .error (.unknownFailOn "sometimes") := by
  have hr : resolve repeatingConfig hidingOverrides = .ok (layered repeatingConfig hidingOverrides .warning) := rfl
  refine ⟨_, hr, (resolve_layered.1 _ _ _).mp hr, by decide, (resolve_layered.2.2.1 _ _ _ hr rfl).2.1, ?_, ?_⟩
  · rw [resolve_layered.2.2.2 repeatingConfig hidingOverrides "warn" none rfl, hr]
  · exact (resolve_layered.2.1 _ _ _).mpr ⟨"sometimes", .inr ⟨rfl, rfl⟩, by decide, rfl⟩

end EffectiveRegistry

end SurfaceRegistry
