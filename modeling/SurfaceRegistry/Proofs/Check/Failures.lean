import Mathlib
import SurfaceRegistry.Proofs.Check.Findings
import SurfaceRegistry.Proofs.EffectiveRegistry

/-!
# Why a check fails

A check fails for two reasons only (`Check.FailsOver`): its text is not blank and cannot be read as a configuration,
or the text that says what it fails on names no choice. Neither depends on the repository, on the look at it, or on
any value that is registered: what is wrong with those becomes a finding (`Check.run_fails_iff`).
-/

namespace SurfaceRegistry

/-! ### Steps that fail -/

section FailWithin

variable {ε α : Type} {contexts : List FailureContext} {cause : ε → FailureCause} {x : Except ε α}

theorem failWithin_eq_ok_iff {a : α} : failWithin contexts cause x = .ok a ↔ x = .ok a := by
  cases x <;> simp [failWithin]

theorem failWithin_eq_error_iff {f : Failure} :
    failWithin contexts cause x = .error f ↔ ∃ e, x = .error e ∧ f = ⟨contexts, cause e⟩ := by
  cases x <;> simp [failWithin, eq_comm]

end FailWithin

/-- A failure in one step begins with that step, in words. -/
theorem Failure.message_singleton (context : FailureContext) (cause : FailureCause) :
    (Failure.mk [context] cause).message = context.message ++ ": " ++ cause.message :=
  rfl

/-! ### Configurations -/

namespace Config

variable {text : String} {c : Config} {f : Failure}

/-- The configuration of a text: the empty one if the text is blank, else the one that is read from it. -/
inductive IsConfigOf (text : String) : Config → Prop where
  /-- A blank text states nothing. -/
  | blank (hblank : Text.isBlank text = true) : IsConfigOf text {}
  /-- Any other text is read. -/
  | read {c : Config} (hblank : Text.isBlank text = false) (hc : parse text = .ok c) : IsConfigOf text c

theorem load_eq_ok_iff : load text = .ok c ↔ IsConfigOf text c := by
  rw [load]
  constructor
  · intro h
    split at h
    · rename_i hblank
      cases h
      exact .blank hblank
    · rename_i hblank
      exact .read (Bool.eq_false_iff.mpr hblank) (failWithin_eq_ok_iff.mp h)
  · rintro (hblank | ⟨hblank, hc⟩)
    · rw [if_pos hblank]
    · rw [if_neg (by simp [hblank]), hc]
      rfl

theorem load_eq_error_iff :
    load text = .error f ↔
      Text.isBlank text = false ∧ ∃ e, parse text = .error e ∧ f = ⟨[.parseConfig], .config e⟩ := by
  rw [load]
  split
  · rename_i hblank
    simp [hblank]
  · rename_i hblank
    rw [failWithin_eq_error_iff]
    simp [hblank]

end Config

namespace EffectiveRegistry

variable {text : String} {o : Overrides} {f : Failure}

theorem ofConfig_eq_error_iff {c : Config} :
    ofConfig c o = .error f ↔
      ∃ name, StatesFailOn c o name ∧ name ∉ FailOn.names ∧
        f = ⟨[.resolveConfig], .resolve (.unknownFailOn name)⟩ := by
  rw [ofConfig, failWithin_eq_error_iff]
  constructor
  · rintro ⟨e, he, rfl⟩
    obtain ⟨name, hname, hno, rfl⟩ := chooseFailOn_eq_error_iff.mp (resolve_eq_error_iff.mp he)
    exact ⟨name, statesFailOn_iff.mpr hname, hno, rfl⟩
  · rintro ⟨name, hname, hno, rfl⟩
    refine ⟨_, resolve_eq_error_iff.mpr (chooseFailOn_eq_error_iff.mpr ⟨name, ?_, hno, rfl⟩), rfl⟩
    exact statesFailOn_iff.mp hname

theorem load_eq_error_iff :
    load text o = .error f ↔
      Config.load text = .error f ∨ ∃ c, Config.load text = .ok c ∧ ofConfig c o = .error f := by
  rw [load]
  cases Config.load text with
  | error e =>
    constructor
    · intro h
      cases h
      exact .inl rfl
    · rintro (h | ⟨c, hc, -⟩)
      · cases h
        rfl
      · cases hc
  | ok c =>
    constructor
    · intro h
      exact .inr ⟨c, rfl, h⟩
    · rintro (h | ⟨d, hd, h⟩)
      · cases h
      · cases hd
        exact h

end EffectiveRegistry

/-! ### Checks -/

namespace Check

/-- The failures of a check, by what they are over. -/
inductive FailsOver (text : String) (o : Overrides) : Failure → Prop where
  /-- The text says something that is no configuration. -/
  | config {e : Config.ReadError} (hblank : Text.isBlank text = false) (he : Config.parse text = .error e) :
      FailsOver text o ⟨[.parseConfig], .config e⟩
  /-- What the check is to fail on, as the caller or else the configuration says, is no choice. -/
  | failOn {c : Config} {name : String} (hc : Config.IsConfigOf text c)
      (hname : EffectiveRegistry.StatesFailOn c o name) (hno : name ∉ FailOn.names) :
      FailsOver text o ⟨[.resolveConfig], .resolve (.unknownFailOn name)⟩

variable {text : String} {o o' : Overrides} {f : Failure}

theorem load_eq_error_iff_failsOver : EffectiveRegistry.load text o = .error f ↔ FailsOver text o f := by
  rw [EffectiveRegistry.load_eq_error_iff, Config.load_eq_error_iff]
  constructor
  · rintro (⟨hblank, e, he, rfl⟩ | ⟨c, hc, h⟩)
    · exact .config hblank he
    · obtain ⟨name, hname, hno, rfl⟩ := EffectiveRegistry.ofConfig_eq_error_iff.mp h
      exact .failOn (Config.load_eq_ok_iff.mp hc) hname hno
  · rintro (⟨hblank, he⟩ | ⟨hc, hname, hno⟩)
    · exact .inl ⟨hblank, _, he, rfl⟩
    · exact .inr ⟨_, Config.load_eq_ok_iff.mpr hc,
        EffectiveRegistry.ofConfig_eq_error_iff.mpr ⟨_, hname, hno, rfl⟩⟩

theorem FailsOver.of_failOn_eq (hf : FailsOver text o f) (h : o'.failOn = o.failOn) : FailsOver text o' f := by
  cases hf with
  | config hblank he => exact .config hblank he
  | failOn hc hname hno =>
    refine .failOn hc ?_ hno
    rwa [EffectiveRegistry.StatesFailOn, h]

/-- Of what a caller states, only the text for what the check fails on has a part in this. -/
theorem failsOver_congr (h : o'.failOn = o.failOn) : FailsOver text o' f ↔ FailsOver text o f :=
  ⟨fun hf => hf.of_failOn_eq h.symm, fun hf => hf.of_failOn_eq h⟩

/-- Under a configuration with which a choice is named, or none is, nothing fails. -/
theorem not_failsOver {c : Config} (hc : Config.IsConfigOf text c)
    (hnamed : ∀ name, EffectiveRegistry.StatesFailOn c o name → name ∈ FailOn.names) :
    ¬FailsOver text o f := by
  intro h
  have hload := Config.load_eq_ok_iff.mpr hc
  cases h with
  | config hblank he =>
    rw [Config.load_eq_error_iff.mpr ⟨hblank, _, he, rfl⟩] at hload
    cases hload
  | failOn hc' hname hno =>
    rw [Config.load_eq_ok_iff.mpr hc'] at hload
    cases hload
    exact hno (hnamed _ hname)

/-- What a failure says begins with the step that failed. -/
theorem FailsOver.message (h : FailsOver text o f) :
    (∃ e, f.cause = .config e ∧ f.message = "parse config: " ++ e.message) ∨
      ∃ e, f.cause = .resolve e ∧ f.message = "resolve config: " ++ e.message := by
  cases h with
  | config hblank he => exact .inl ⟨_, rfl, Failure.message_singleton _ _⟩
  | failOn hc hname hno => exact .inr ⟨_, rfl, Failure.message_singleton _ _⟩

theorem run_eq_error_iff_failsOver {times : CheckTimes} {root : String} {view : Option Layout.View} :
    run times root text o view = .error f ↔ FailsOver text o f :=
  run_eq_error_iff.trans load_eq_error_iff_failsOver

/-- A check fails exactly over a text that says something other than a configuration, or else over what it is to
fail on; its failure tells which. Under a configuration with which a choice is named, or none is, it ends whatever
the registered values are, and whether and how it fails depends on nothing but the text and what the caller has it
fail on. -/
theorem run_fails_iff :
    (∀ times root text o view f, run times root text o view = .error f ↔ FailsOver text o f) ∧
    (∀ text o f, FailsOver text o f →
      (∃ e, f.cause = .config e ∧ f.message = "parse config: " ++ e.message) ∨
        ∃ e, f.cause = .resolve e ∧ f.message = "resolve config: " ++ e.message) ∧
    (∀ text c o, Config.IsConfigOf text c →
      (∀ name, EffectiveRegistry.StatesFailOn c o name → name ∈ FailOn.names) →
      ∀ times root view, ∃ out, run times root text o view = .ok out) ∧
    ∀ times times' root root' text o o' view view' f, o'.failOn = o.failOn →
      (run times' root' text o' view' = .error f ↔ run times root text o view = .error f) := by
  refine ⟨fun times root text o view f => run_eq_error_iff_failsOver, fun text o f h => h.message,
    fun text c o hc hnamed times root view => ?_, fun times times' root root' text o o' view view' f h => ?_⟩
  · cases hrun : run times root text o view with
    | ok out => exact ⟨out, rfl⟩
    | error f => exact absurd (run_eq_error_iff_failsOver.mp hrun) (not_failsOver hc hnamed)
  · rw [run_eq_error_iff_failsOver, run_eq_error_iff_failsOver]
    exact failsOver_congr h

/-- A configuration that fails on nothing known, with values that are no better. -/
def neverText : String :=
  "api_surface_path = \"\"\nfail_on = \"never\"\nignored_types = [\"$\"]\n"

/-- What it says. -/
def neverConfig : Config where
  apiSurfacePath := some ""
  ignoredTypes := ["$"]
  failOn := some "never"

theorem isConfigOf_neverText : Config.IsConfigOf neverText neverConfig :=
  .read (by decide +kernel) (by cbv)

theorem run_fails_iff_of_never :
    (∃ f, run ⟨.epoch, .epoch⟩ "repo" "fail_on = 1" {} none = .error f ∧
      ∃ e, f.cause = .config e ∧ f.message = "parse config: " ++ e.message) ∧
    (∃ f, run ⟨.epoch, .epoch⟩ "repo" neverText {} (some Layout.emptyView) = .error f ∧
      run ⟨.epoch, .epoch⟩ "" neverText { apiSurfacePath := some "a" } none = .error f) ∧
    ∃ out, run ⟨.epoch, .epoch⟩ "repo" neverText { failOn := some "warn" } (some Layout.emptyView) =
      .ok out := by
  obtain ⟨hfails, hmessage, hends, hsame⟩ := run_fails_iff
  have hinteger : FailsOver "fail_on = 1" {}
      ⟨[.parseConfig], .config (.mismatch (.invalidType (.integer 1) "a string"))⟩ :=
    .config (by decide +kernel) (by cbv)
  have hnever : FailsOver neverText {} ⟨[.resolveConfig], .resolve (.unknownFailOn "never")⟩ :=
    .failOn isConfigOf_neverText (.inr ⟨rfl, rfl⟩) (by decide)
  refine ⟨⟨_, (hfails _ _ _ _ _ _).mpr hinteger, ?_⟩, ⟨_, (hfails _ _ _ _ _ _).mpr hnever, ?_⟩, ?_⟩
  · rcases hmessage _ _ _ hinteger with h | ⟨e, he, -⟩
    · exact h
    · cases he
  · exact (hsame ⟨.epoch, .epoch⟩ ⟨.epoch, .epoch⟩ "repo" "" neverText {} { apiSurfacePath := some "a" }
      (some Layout.emptyView) none _ rfl).mpr ((hfails _ _ _ _ _ _).mpr hnever)
  · refine hends _ _ _ isConfigOf_neverText (fun name hname => ?_) _ _ _
    rcases hname with hname | ⟨hname, -⟩
    · cases hname
      decide
    · cases hname

end Check

end SurfaceRegistry
