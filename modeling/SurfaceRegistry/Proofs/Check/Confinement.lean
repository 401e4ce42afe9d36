import SurfaceRegistry.Proofs.Check.Verdict
import SurfaceRegistry.Proofs.Disk.Walk

/-!
# The probe stays in the repository

The places that a probe looks at are confined (`Layout.confined_of_mem_places`): the rules were applied to
the same normal form of a path that is looked at, and a sound package adds identifiers to a confined
directory. A probe looks at no other place (`Layout.probe_congr`). So its outcome is the same on machines
that have the same tree without links below the root of the repository, however they differ elsewhere and
wherever this tree is.
-/

namespace SurfaceRegistry.Layout

/-! ### Places -/

/-- The places that are looked at. -/
def Places.all (p : Places) : List RepoPath :=
  [p.apiSurface, p.nightlyDirectory, p.package].reduceOption

@[simp] theorem Places.mem_all {p : Places} {path : RepoPath} :
    path ∈ p.all ↔ p.apiSurface = some path ∨ p.nightlyDirectory = some path ∨ p.package = some path := by
  rw [all, List.reduceOption_mem_iff]
  simp [eq_comm]

theorem soundPath_eq_some_iff {finding : Option Finding} {path p : RepoPath} :
    soundPath finding path = some p ↔ finding = none ∧ path = p := by
  unfold soundPath
  cases finding with
  | none => simp
  | some f => simp

/-- A path without a finding is confined. -/
theorem confined_of_soundPath {value : String} (h : Rules.SoundPath value) :
    (RepoPath.ofText value).Confined :=
  ⟨h.relative, h.confined⟩

theorem confined_of_checkPath {subject : Rules.Subject} {value : String} {p : RepoPath}
    (h : soundPath (Rules.checkPath subject value) (.ofText value) = some p) : p.Confined := by
  obtain ⟨hf, rfl⟩ := soundPath_eq_some_iff.mp h
  exact confined_of_soundPath (Rules.checkPath_eq_none_iff.mp hf)

/-- Only confined places are looked at. -/
theorem confined_of_mem_places {r : EffectiveRegistry} {p : RepoPath}
    (h : p ∈ (places r (Rules.evaluate r)).all) : p.Confined := by
  rcases Places.mem_all.mp h with h | h | h
  · exact confined_of_checkPath h
  · exact confined_of_checkPath h
  · obtain ⟨d, hd, hp⟩ := Option.bind_eq_some_iff.mp h
    obtain ⟨hf, rfl⟩ := soundPath_eq_some_iff.mp hd
    obtain ⟨hk, rfl⟩ := soundPath_eq_some_iff.mp hp
    obtain ⟨package, hpackage⟩ := Rules.soundPackage_iff.mp (Rules.checkPackage_eq_none_iff.mp hk)
    rw [← PackagePath.parse_eq_ok_iff.mp hpackage]
    exact RepoPath.confined_join (confined_of_soundPath (Rules.checkPath_eq_none_iff.mp hf)) package

/-! ### Looking at places -/

/-- A probe looks at its places only, and counts the sources of the package only. -/
theorem probe_eq_of_seen {v₁ v₂ : View} {root : String} {p : Places}
    (hkind : ∀ path ∈ p.all, v₁.kind (placeAt root path) = v₂.kind (placeAt root path))
    (hsources : ∀ path, p.package = some path →
      v₁.sources (placeAt root path) = v₂.sources (placeAt root path)) :
    probe v₁ root p = probe v₂ root p := by
  obtain ⟨a, d, k⟩ := p
  simp only [Places.mem_all] at hkind
  have ha : probeApiSurface v₁ root a = probeApiSurface v₂ root a := by
    cases a with
    | none => rfl
    | some path => rw [probeApiSurface, probeApiSurface, hkind path (.inl rfl)]
  have hk : probePackage v₁ root k = probePackage v₂ root k := by
    cases k with
    | none => rfl
    | some path => simp only [probePackage, hkind path (.inr (.inr rfl)), hsources path rfl]
  have hd : probeNightly v₁ root ⟨a, d, k⟩ = probeNightly v₂ root ⟨a, d, k⟩ := by
    cases d with
    | none => rfl
    | some path => simp only [probeNightly, hkind path (.inr (.inl rfl)), hk]
  rw [probe, probe, ha, hd]

theorem probe_congr {v₁ v₂ : View} {root : String} {p : Places}
    (h : ∀ path ∈ p.all, v₁.kind (placeAt root path) = v₂.kind (placeAt root path) ∧
      v₁.sources (placeAt root path) = v₂.sources (placeAt root path)) :
    probe v₁ root p = probe v₂ root p :=
  probe_eq_of_seen (fun path hp => (h path hp).1) fun path hp =>
    (h path (Places.mem_all.mpr (.inr (.inr hp)))).2

/-- At a confined path below a root, machines show the same if they have the same tree without links
there. -/
theorem view_placeAt {m₁ m₂ : Disk.Machine} {root : String} {p : RepoPath} (hp : p.Confined)
    (h : m₁.directoryAt? root = m₂.directoryAt? root)
    (hl : ∀ n ∈ m₁.directoryAt? root, n.LinkFree) :
    m₁.view.kind (placeAt root p) = m₂.view.kind (placeAt root p) ∧
      m₁.view.sources (placeAt root p) = m₂.view.sources (placeAt root p) := by
  have hs := (RepoPath.isAbsoluteChars_eq_false_iff.mp hp.relative).1
  have hfound : m₁.found? (placeAt root p) = m₂.found? (placeAt root p) := by
    rw [placeAt, m₁.found?_join root hs hp.inside hl, h, m₂.found?_join root hs hp.inside (h ▸ hl)]
  rw [Disk.Machine.view, Disk.Machine.view]
  simp only [Disk.Machine.kind?_eq, Disk.Machine.kotlinSources_eq, hfound, and_self]

/-- The places that a probe looks at, and no others, are relative and do not climb above the root of the
repository. So the outcome depends only on the tree there, if there are no links in it. -/
theorem probe_confined (r : EffectiveRegistry) :
    (∀ p ∈ (places r (Rules.evaluate r)).all, p.isAbsolute = false ∧
      ∀ before, before <+: Text.splitAt '/' p.text.toList →
        before.count ['.', '.'] ≤ before.countP RepoPath.descends) ∧
    (∀ (root : String) (v₁ v₂ : View),
      (∀ p ∈ (places r (Rules.evaluate r)).all,
        v₁.kind (placeAt root p) = v₂.kind (placeAt root p) ∧
          v₁.sources (placeAt root p) = v₂.sources (placeAt root p)) →
      probe v₁ root (places r (Rules.evaluate r)) = probe v₂ root (places r (Rules.evaluate r))) ∧
    ∀ (root : String) (m₁ m₂ : Disk.Machine), m₁.directoryAt? root = m₂.directoryAt? root →
      (∀ n ∈ m₁.directoryAt? root, n.LinkFree) →
      probe m₁.view root (places r (Rules.evaluate r)) =
        probe m₂.view root (places r (Rules.evaluate r)) := by
  refine ⟨fun p hp => ?_, fun root v₁ v₂ h => probe_congr h, fun root m₁ m₂ h hl => ?_⟩
  · obtain ⟨hrel, hin⟩ := confined_of_mem_places hp
    refine ⟨hrel, fun before hb => ?_⟩
    have hcount := RepoPath.climbsFrom_eq_false_iff.mp hin before hb
    rwa [Nat.zero_add] at hcount
  · exact probe_congr fun p hp => view_placeAt (confined_of_mem_places hp) h hl

/-- A repository with a listing and an empty package. -/
def plainRepository : Disk.Node :=
  .directory
    [("api.txt", .file .empty),
     ("tests", .directory [("com", .directory [("x", .directory [("A.kt", .file .empty)])])])]

theorem linkFree_plainRepository : plainRepository.LinkFree := by
  have hpackage : (Disk.Node.directory [("A.kt", .file .empty)]).LinkFree :=
    Disk.Node.linkFree_directory (List.forall_mem_singleton.mpr (Disk.Node.linkFree_file _))
  have hparent : (Disk.Node.directory [("x", .directory [("A.kt", .file .empty)])]).LinkFree :=
    Disk.Node.linkFree_directory (List.forall_mem_singleton.mpr hpackage)
  refine Disk.Node.linkFree_directory (List.forall_mem_cons.mpr ⟨Disk.Node.linkFree_file _, ?_⟩)
  refine List.forall_mem_singleton.mpr (Disk.Node.linkFree_directory ?_)
  exact List.forall_mem_singleton.mpr hparent

/-- A machine with this repository in the directory that paths start from. -/
def nearMachine : Disk.Machine where
  root := .directory [("repo", plainRepository)]
  cwd := []
  clock := .epoch
  tidy := by simp [plainRepository]

/-- A machine with this repository at the end of a link, among other files. -/
def farMachine : Disk.Machine where
  root := .directory
    [("home", .directory [("repo", .link "/srv/git"), ("api.txt", .directory [])]),
     ("srv", .directory [("tests", .file .empty), ("git", plainRepository)])]
  cwd := ["home"]
  clock := .epoch
  tidy := by simp [plainRepository]

/-- Values with redundant parts in their paths. -/
def plainOverrides : Overrides where
  apiSurfacePath := some ".\\tests/../api.txt"
  nightlyTestsDirectoryPath := some "./tests//."
  nightlyTestsPackage := some "com/x"

theorem probe_confined_of_plain :
    ∃ r, EffectiveRegistry.resolve {} plainOverrides = .ok r ∧
      nearMachine.directoryAt? "repo" = farMachine.directoryAt? "repo" ∧
      (∀ n ∈ nearMachine.directoryAt? "repo", n.LinkFree) ∧
      probe nearMachine.view "repo" (places r (Rules.evaluate r)) =
        probe farMachine.view "repo" (places r (Rules.evaluate r)) := by
  have hsame : nearMachine.directoryAt? "repo" = farMachine.directoryAt? "repo" := by rfl
  have hfree : ∀ n ∈ nearMachine.directoryAt? "repo", n.LinkFree := by
    intro n hn
    obtain rfl : plainRepository = n := Option.some.inj hn
    exact linkFree_plainRepository
  exact ⟨_, rfl, hsame, hfree, (probe_confined _).2.2 "repo" nearMachine farMachine hsame hfree⟩

end SurfaceRegistry.Layout
