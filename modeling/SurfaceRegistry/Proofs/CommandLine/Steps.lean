import SurfaceRegistry.CommandLine.Run
import SurfaceRegistry.Proofs.Check.Confinement
import SurfaceRegistry.Proofs.Disk.Writing

/-!
# The steps of a command on a machine

What steps come to on a machine, and the machine that they leave (`Comes`). All steps of a check before its report is
written only look at the machine, and the check is the one with the view of that machine (`comes_checkIn`).
-/

namespace SurfaceRegistry

open Disk (Machine)
open Disk.Machine (run_bind run_pure run_read)

namespace Layout

/-! ### Looking around -/

theorem run_mapM {α β : Type} (g : α → β) {f : α → StateM Machine β} {m : Machine} {l : List α}
    (h : ∀ a ∈ l, f a m = (g a, m)) : (l.mapM f : StateM Machine (List β)) m = (l.map g, m) := by
  induction l with
  | nil => rfl
  | cons a r ih =>
    obtain ⟨ha, hr⟩ := List.forall_mem_cons.mp h
    simp only [List.mapM_cons, run_bind, run_pure, ha, ih hr, List.map_cons]

/-- What is noted of the keys of a list is found under each of them. -/
theorem lookup_map {α β : Type} (key : α → String) (value : String → β) {l : List α} {a : α} (ha : a ∈ l) :
    (l.map fun a => (key a, value (key a))).lookup (key a) = some (value (key a)) := by
  induction l with
  | nil => cases ha
  | cons b r ih =>
    rw [List.map_cons, List.lookup_cons]
    split
    · rename_i h
      rw [beq_iff_eq.mp h]
    · rename_i h
      refine ih ((List.mem_cons.mp ha).resolve_left ?_)
      rintro rfl
      simp at h

theorem kotlinSources_of_kind {m : Machine} {path : String} (h : m.kind? path ≠ some .directory) :
    m.kotlinSources path = 0 := by
  unfold Machine.kotlinSources
  split
  · rename_i place entries hn
    rw [Machine.kind?, hn] at h
    exact absurd rfl h
  · rfl

/-- A look around leaves the machine as it is, and shows what is there. -/
theorem run_survey (root : String) (p : Places) (m : Machine) :
    ∃ v, (survey root p : StateM Machine View) m = (v, m) ∧ probe v root p = probe m.view root p := by
  have hseen (path : RepoPath) (hp : path ∈ p.all) := lookup_map (placeAt root) m.kind? hp
  have hcounts (path : RepoPath) (hp : path ∈ p.package.toList) :=
    lookup_map (placeAt root) m.kotlinSources hp
  rw [survey, run_bind, run_mapM (fun path => (placeAt root path, m.kind? (placeAt root path))) ?_, run_bind,
    run_mapM (fun path => (placeAt root path, m.kotlinSources (placeAt root path))) ?_]
  · refine ⟨_, rfl, probe_eq_of_seen (fun path hp => ?_) fun path hp => ?_⟩
    · exact congrArg Option.join (hseen path hp)
    · exact congrArg (Option.getD · 0) (hcounts path (Option.mem_toList.mpr hp))
  · intro path hp
    have hall := hseen path (Places.mem_all.mpr (.inr (.inr (Option.mem_toList.mp hp))))
    simp only
    split
    · rfl
    · rename_i hne
      have hkind : m.kind? (placeAt root path) ≠ some .directory := fun h => hne (hall.trans (by rw [h]))
      rw [kotlinSources_of_kind hkind]
      rfl
  · intro path _
    rfl

end Layout

namespace CommandLine

/-! ### Steps -/

section Steps

variable {α β : Type} {m m₁ m₂ : Machine}

/-- Steps come to a result, and leave a machine, whatever the log is. -/
def Comes (x : Steps (StateM Machine) α) (m : Machine) (r : Except Failure α) (m' : Machine) : Prop :=
  ∀ log, ∃ log', x.run.run log m = ((r, log'), m')

theorem comes_pure (a : α) (m : Machine) : Comes (pure a) m (.ok a) m := fun log => ⟨log, rfl⟩

theorem comes_throw (f : Failure) (m : Machine) : Comes (throw f : Steps (StateM Machine) α) m (.error f) m :=
  fun log => ⟨log, rfl⟩

theorem comes_tell (entries : List LogEntry) (m : Machine) : Comes (tell entries) m (.ok ()) m :=
  fun log => ⟨log ++ entries, rfl⟩

theorem comes_onHost {x : StateM Machine α} {a : α} (h : x m = (a, m₁)) :
    Comes (onHost x) m (.ok a) m₁ := by
  intro log
  refine ⟨log, ?_⟩
  show ((Except.ok (x m).1, log), (x m).2) = _
  rw [h]

theorem comes_ofResult (r : Except Failure α) (m : Machine) : Comes (ofResult r) m r m := by
  cases r with
  | ok a => exact comes_pure a m
  | error f => exact comes_throw f m

theorem Comes.bind {x : Steps (StateM Machine) α} {f : α → Steps (StateM Machine) β} {a : α}
    {r : Except Failure β} (hx : Comes x m (.ok a) m₁) (hf : Comes (f a) m₁ r m₂) :
    Comes (x >>= f) m r m₂ := by
  intro log
  obtain ⟨log₁, hx⟩ := hx log
  obtain ⟨log₂, hf⟩ := hf log₁
  refine ⟨log₂, ?_⟩
  rw [ExceptT.run_bind, StateT.run_bind, run_bind, hx]
  exact hf

theorem Comes.bind_error {x : Steps (StateM Machine) α} {f : Failure} (hx : Comes x m (.error f) m₁)
    (g : α → Steps (StateM Machine) β) : Comes (x >>= g) m (.error f) m₁ := by
  intro log
  obtain ⟨log₁, hx⟩ := hx log
  refine ⟨log₁, ?_⟩
  rw [ExceptT.run_bind, StateT.run_bind, run_bind, hx]
  rfl

/-- A step that only looks at the machine may have any result. -/
theorem Comes.andThen {x : Steps (StateM Machine) α} {g : α → Steps (StateM Machine) β} {r : Except Failure α}
    {s : α → Except Failure β} (hx : Comes x m r m₁) (hg : ∀ a, Comes (g a) m₁ (s a) m₁) :
    Comes (x >>= g) m (r >>= s) m₁ := by
  cases r with
  | error f => exact hx.bind_error g
  | ok a => exact hx.bind (hg a)

theorem Comes.andThen_map {x : Steps (StateM Machine) α} {g : α → Steps (StateM Machine) β} {r : Except Failure α}
    {s : α → β} (hx : Comes x m r m₁) (hg : ∀ a, Comes (g a) m₁ (.ok (s a)) m₁) : Comes (x >>= g) m (r.map s) m₁ :=
  hx.andThen hg

theorem comes_orFail {x : StateM Machine (Except Failure α)} {r : Except Failure α} (h : x m = (r, m₁)) :
    Comes (orFail x) m r m₁ :=
  (comes_onHost h).bind (comes_ofResult r m₁)

theorem Comes.within {x : Steps (StateM Machine) α} {r : Except Failure α} (h : Comes x m r m₁)
    (context : FailureContext) : Comes (within context x) m (r.mapError (Failure.within context)) m₁ := by
  intro log
  obtain ⟨log₁, h⟩ := h log
  refine ⟨log₁, ?_⟩
  rw [CommandLine.within, ExceptT.run_tryCatch, StateT.run_bind, run_bind, h]
  cases r with
  | ok a => rfl
  | error f => rfl

end Steps

/-! ### Looking -/

/-- The root of the repository on a machine. -/
def rootOn (m : Machine) (i : Invocation) : String := (m.canonical? i.repoRoot).getD i.repoRoot

/-- The text of a configuration file, from what a look at it comes to. It may be missing. -/
def configFrom (path : String) : Except FailureCause String → Except Failure String
  | .ok text => .ok text
  | .error (.os .notFound) => .ok ""
  | .error e => .error ⟨[.readConfig path], e⟩

/-- The text of the configuration file on a machine. -/
def configOn (m : Machine) (i : Invocation) : Except Failure String :=
  let path := Text.Path.join (rootOn m i) i.config
  configFrom path ((Files.readText path : StateM Machine _) m).1

/-- A check on a machine. -/
def checkOn (m : Machine) (i : Invocation) (probe : Bool) : Except Failure Check.Output := do
  let text ← configOn m i
  Check.run ⟨m.clock, m.clock⟩ (rootOn m i) text i.overrides (if probe then some m.view else none)

theorem run_readText (path : String) (m : Machine) :
    (Files.readText path : StateM Machine _) m = (((Files.readText path : StateM Machine _) m).1, m) := by
  rw [Files.readText, run_bind, run_read]
  cases m.read path with
  | error e => rfl
  | ok content =>
    simp only
    cases String.fromUTF8? content with
    | none => rfl
    | some text => rfl

theorem comes_rootOf (m : Machine) (i : Invocation) : Comes (rootOf i) m (.ok (rootOn m i)) m :=
  (comes_onHost rfl).bind (comes_pure _ m)

theorem comes_readConfig (m : Machine) (i : Invocation) :
    Comes (readConfig (rootOn m i) i) m (configOn m i) m := by
  refine (comes_onHost (run_readText _ m)).bind ?_
  rw [configOn]
  generalize ((Files.readText _ : StateM Machine _) m).1 = found
  split
  · exact (comes_tell _ m).bind (comes_pure _ m)
  · exact (comes_tell _ m).bind (comes_pure _ m)
  · rename_i e hne
    rw [configFrom]
    · exact comes_throw _ m
    · exact hne

theorem comes_kind (m : Machine) (path : String) :
    Comes (onHost (MonadHost.kind? path)) m (.ok (m.kind? path)) m := comes_onHost rfl

theorem comes_now (m : Machine) : Comes (onHost MonadHost.now) m (.ok m.clock) m := comes_onHost rfl

theorem checkOn_of_error {m : Machine} {i : Invocation} {f : Failure} (h : configOn m i = .error f)
    (probe : Bool) : checkOn m i probe = .error f := by
  rw [checkOn, h]
  rfl

theorem checkOn_of_ok {m : Machine} {i : Invocation} {text : String} (h : configOn m i = .ok text)
    (probe : Bool) : checkOn m i probe = (EffectiveRegistry.load text i.overrides).map
      (Check.ofRegistry ⟨m.clock, m.clock⟩ (rootOn m i) (if probe then some m.view else none)) := by
  rw [checkOn, h]
  rfl

theorem comes_registryOf (text : String) (o : Overrides) (m : Machine) :
    Comes (registryOf text o) m (EffectiveRegistry.load text o) m :=
  (comes_tell _ m).bind (comes_ofResult _ m)

/-- A check of a registry leaves the machine as it is, and is the one with the view of the machine. -/
theorem comes_checkRegistry (m : Machine) (root : String) (probe : Bool) (r : EffectiveRegistry) :
    Comes (do
        let view ← if probe then some <$> lookAt root r else pure none
        let finished ← onHost MonadHost.now
        let output := Check.ofRegistry ⟨m.clock, finished⟩ root view r
        tell output.log
        pure output) m
      (.ok (Check.ofRegistry ⟨m.clock, m.clock⟩ root (if probe then some m.view else none) r)) m := by
  cases probe with
  | false => exact (comes_pure none m).bind ((comes_now m).bind ((comes_tell _ m).bind (comes_pure _ m)))
  | true =>
    obtain ⟨v, hv, hprobe⟩ := Layout.run_survey root (Layout.places r (Rules.evaluate r)) m
    have hlook : Comes (some <$> lookAt root r) m (.ok (some v)) m := (comes_onHost hv).bind (comes_pure _ m)
    have hview : Check.ofRegistry ⟨m.clock, m.clock⟩ root (some v) r =
        Check.ofRegistry ⟨m.clock, m.clock⟩ root (some m.view) r := by
      simp only [Check.ofRegistry, Option.map_some, hprobe]
    simp only [if_true]
    rw [← hview]
    exact hlook.bind ((comes_now m).bind ((comes_tell _ m).bind (comes_pure _ m)))

/-- A check leaves the machine as it is. -/
theorem comes_checkIn (m : Machine) (i : Invocation) (probe : Bool) :
    Comes (checkIn (rootOn m i) i probe) m (checkOn m i probe) m := by
  refine (comes_readConfig m i).andThen fun text => (comes_now m).bind ?_
  exact (comes_registryOf text i.overrides m).andThen_map fun r => comes_checkRegistry m (rootOn m i) probe r

end CommandLine

end SurfaceRegistry
