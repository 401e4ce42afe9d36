import SurfaceRegistry.Proofs.Check.Confinement
import SurfaceRegistry.Proofs.Disk.Above
import SurfaceRegistry.Proofs.Disk.Sources

/-!
# The count of sources is exact

A report tells how many Kotlin sources there are in the directory of the package of the nightly tests whenever the path
of the package leads to a directory (`Check.run_counts_sources`). The probe looks for the directory of the tests before
that of the package; it is there if the package is (`Layout.nightlyDirectory_of_package`). The number is that of the
files which are below the directory that the path leads to and have the name of a source.
-/

namespace SurfaceRegistry

/-! ### The path of the package -/

namespace Text.Path

theorem utf8ByteSize_mono {s t : String} (h : s.toList <+: t.toList) : s.utf8ByteSize ≤ t.utf8ByteSize := by
  obtain ⟨r, hr⟩ := h
  have ht : t = s ++ String.ofList r := by
    rw [← String.toList_inj, String.toList_append, String.toList_ofList, hr]
  rw [ht, String.utf8ByteSize_append]
  omega

theorem join_eq (root : String) {s : String} (hs : s.toList.head? ≠ some '/') :
    join root s = if root.toList = [] then s else if root.toList.getLast? = some '/' then root ++ s
      else root ++ "/" ++ s := by
  rw [← String.toList_inj, join, String.toList_ofList, joinChars_eq _ hs]
  split
  · rfl
  split
  · rw [String.toList_append]
  · simp [String.toList_append]

/-- Behind the same path the shorter one of two makes the shorter path. -/
theorem utf8ByteSize_join_le (root : String) {s t : String} (hs : s.toList.head? ≠ some '/')
    (ht : t.toList.head? ≠ some '/') (h : s.utf8ByteSize ≤ t.utf8ByteSize) :
    (join root s).utf8ByteSize ≤ (join root t).utf8ByteSize := by
  rw [join_eq root hs, join_eq root ht]
  split
  · exact h
  split
  · rw [String.utf8ByteSize_append, String.utf8ByteSize_append]
    omega
  · rw [String.utf8ByteSize_append, String.utf8ByteSize_append (t := t)]
    omega

end Text.Path

namespace RepoPath

open Text.Path

/-- A package stands behind a path in normal form, unless this is a single point, which is lost. -/
theorem join_package_cases (value : String) (p : PackagePath) :
    (ofText value).text = "." ∧ ((ofText value).join p.text).text = p.text ∨
      (ofText value).text ≠ "." ∧
        ((ofText value).join p.text).text.toList = joinChars (ofText value).text.toList p.text.toList := by
  have htext : (ofText value).text.toList = normalChars value.toList := String.toList_ofList
  have hdot : (ofText value).text = "." ↔ normalChars value.toList = ['.'] := by
    rw [← String.toList_inj, htext]
    rfl
  have hbare : ∀ r, normalChars value.toList ≠ '.' :: '/' :: r := stripDotSlash_ne _
  have hjoin := text_join_package value p
  rw [stripDotSlash_joinChars hbare (packageChars_head_ne Identifier.slash_notMem p)
    (packageChars_head_ne Identifier.point_notMem p)] at hjoin
  by_cases h : normalChars value.toList = ['.']
  · rw [if_pos h] at hjoin
    exact .inl ⟨hdot.mpr h, String.toList_inj.mp hjoin⟩
  · rw [if_neg h] at hjoin
    exact .inr ⟨mt hdot.mp h, by rw [hjoin, htext]⟩

/-- The names of a package come behind those of the path, unless the path is a single point. -/
theorem pathNames_join_package (value : String) (p : PackagePath) :
    Disk.pathNames (ofText value).text = ["."] ∧
        Disk.pathNames ((ofText value).join p.text).text = Disk.pathNames p.text ∨
      Disk.pathNames ((ofText value).join p.text).text =
        Disk.pathNames (ofText value).text ++ Disk.pathNames p.text := by
  rcases join_package_cases value p with ⟨hdot, hjoin⟩ | ⟨-, hjoin⟩
  · rw [hdot, hjoin]
    exact .inl ⟨rfl, rfl⟩
  · right
    rw [Disk.pathNames_eq, hjoin, steps_joinChars _ (packageChars_head_ne Identifier.slash_notMem p), List.map_append,
      ← Disk.pathNames_eq, ← Disk.pathNames_eq]

/-- A path does not get shorter by a package behind it. -/
theorem utf8ByteSize_le_join_package (value : String) (p : PackagePath) :
    (ofText value).text.utf8ByteSize ≤ ((ofText value).join p.text).text.utf8ByteSize := by
  rcases join_package_cases value p with ⟨hdot, hjoin⟩ | ⟨-, hjoin⟩
  · rw [hdot, hjoin]
    show 1 ≤ p.text.utf8ByteSize
    rw [Nat.one_le_iff_ne_zero, Ne, String.utf8ByteSize_eq_zero_iff]
    intro hempty
    exact p.text_toList_ne_nil (by rw [hempty]; rfl)
  · apply utf8ByteSize_mono
    rw [hjoin, joinChars_eq _ (packageChars_head_ne Identifier.slash_notMem p)]
    split
    · rename_i hnil
      rw [hnil]
      exact List.nil_prefix
    split
    · exact List.prefix_append _ _
    · exact List.prefix_append _ _

/-- The first name of a package leads down. -/
theorem exists_pathNames_package (p : PackagePath) :
    ∃ name more, Disk.pathNames p.text = name :: more ∧ descends name.toList = true := by
  obtain ⟨name, more, hnames⟩ := List.exists_cons_of_ne_nil
    (Disk.pathNames_ne_nil p.text_toList_ne_nil (packageChars_head_ne Identifier.slash_notMem p))
  refine ⟨name, more, hnames, descends_of_packageChars (p := p) ?_⟩
  rw [← Disk.map_toList_pathNames, hnames]
  exact List.mem_cons_self

end RepoPath

namespace Layout

open Rules Text.Path

variable {m : Disk.Machine} {root value : String}

/-- If there is a directory for a package, there is one for the tests. The empty text names none, though it may be the
path of the tests, in the repository with the empty path. -/
theorem nightlyDirectory_of_package {p : PackagePath} (hd : SoundPath value)
    (hne : placeAt root (.ofText value) ≠ "")
    (h : m.kind? (placeAt root ((RepoPath.ofText value).join p.text)) = some .directory) :
    m.kind? (placeAt root (.ofText value)) = some .directory := by
  have hconfined := confined_of_soundPath hd
  have hs := (RepoPath.isAbsoluteChars_eq_false_iff.mp hconfined.relative).1
  have ht := (RepoPath.isAbsoluteChars_eq_false_iff.mp (RepoPath.confined_join hconfined p).relative).1
  have hstart : Disk.startsAtRoot (placeAt root (.ofText value)) =
      Disk.startsAtRoot (placeAt root ((RepoPath.ofText value).join p.text)) := by
    rw [placeAt, placeAt, Disk.Machine.startsAtRoot_join root hs, Disk.Machine.startsAtRoot_join root ht]
  have hsize := utf8ByteSize_join_le root hs ht (RepoPath.utf8ByteSize_le_join_package value p)
  have habove := Disk.Machine.pathNames_join root hs
  have hbelow := Disk.Machine.pathNames_join root ht
  obtain ⟨name, more, hnames, hname⟩ := RepoPath.exists_pathNames_package p
  rcases RepoPath.pathNames_join_package value p with ⟨hdot, hjoin⟩ | hjoin
  · rw [hdot] at habove
    rw [hjoin, hnames] at hbelow
    exact Disk.Machine.kind?_above h hbelow (.inr habove) hname hstart (by simpa using hne) hsize
  · rw [hjoin, hnames, ← List.append_assoc] at hbelow
    exact Disk.Machine.kind?_above h hbelow (.inl habove) hname hstart (by simpa using hne) hsize

/-- The path of the directory of the nightly tests on the machine. -/
def testsAt (root : String) (r : EffectiveRegistry) : String :=
  placeAt root (.ofText r.nightlyTestsDirectoryPath.value)

/-- The path of the directory of their package on the machine. -/
def packageAt (root : String) (r : EffectiveRegistry) : String :=
  placeAt root ((RepoPath.ofText r.nightlyTestsDirectoryPath.value).join r.nightlyTestsPackage.value)

/-- A probe counts the sources in the directory of the package if there is one. -/
theorem probe_sources_of_package {r : EffectiveRegistry} (hd : SoundPath r.nightlyTestsDirectoryPath.value)
    (hp : SoundPackage r.nightlyTestsPackage.value) (hne : testsAt root r ≠ "")
    (h : m.kind? (packageAt root r) = some .directory) :
    (probe m.view root (places r (evaluate r))).sources.map Prod.fst =
      some (UInt32.ofNat (m.kotlinSources (packageAt root r))) := by
  rw [packageAt] at h
  have hdirectory : m.kind? (testsAt root r) = some .directory := by
    obtain ⟨p, hparse⟩ := soundPackage_iff.mp hp
    rw [← PackagePath.parse_eq_ok_iff.mp hparse] at h
    exact nightlyDirectory_of_package hd hne h
  rw [testsAt] at hdirectory
  have hpath : checkPath .nightlyTestsDirectoryPath r.nightlyTestsDirectoryPath.value = none :=
    checkPath_eq_none_iff.mpr hd
  have hpackage : checkPackage r.nightlyTestsPackage.value = none := checkPackage_eq_none_iff.mpr hp
  simp [probe, probeNightly, probePackage, places, soundPath, evaluate, Disk.Machine.view, packageAt, hpath, hpackage,
    hdirectory, h]

end Layout

namespace Check

/-- A check that looks at the repository counts exactly the sources in the directory that the path of the package leads
to: the files below it with the names of sources, with nothing but directories on the way to them. A directory on the
way whose path is too long cannot be opened, and what is below it does not count; if there are none, all sources do.
Only a repository with the empty path may have its tests at the empty path, and the count wraps at `2 ^ 32`. -/
theorem run_counts_sources {text root : String} {o : Overrides} {r : EffectiveRegistry} {m : Disk.Machine}
    (hr : EffectiveRegistry.load text o = .ok r) (times : CheckTimes)
    (hd : Rules.SoundPath r.nightlyTestsDirectoryPath.value) (hp : Rules.SoundPackage r.nightlyTestsPackage.value)
    (hne : Layout.testsAt root r ≠ "") {place : Disk.Place} {entries : List (String × Disk.Node)}
    (hnode : m.node? (Layout.packageAt root r) = .ok (place, .directory entries))
    (hfew : (Disk.Node.directory entries).sourcePlaces.encard < 2 ^ 32) :
    ∃ out count, run times root text o (some m.view) = .ok out ∧ out.report.data.nightlySources = some count ∧
      ((Disk.Node.directory entries).reachedSources (Layout.packageAt root r)).encard = count.toNat ∧
      ((Disk.Node.directory entries).Readable (Layout.packageAt root r) →
        (Disk.Node.directory entries).sourcePlaces.encard = count.toNat) ∧
      ∀ source ∈ (Disk.Node.directory entries).sourcePlaces, ∀ above next rest, source = above ++ next :: rest →
        ∃ es, (Disk.Node.directory entries).at? above = some (.directory es) := by
  have hkind : m.kind? (Layout.packageAt root r) = some .directory := by
    rw [Disk.Machine.kind?, hnode]
  have hcount := Disk.Machine.encard_reachedSources_of_node? hnode
  have hreached : ((Disk.Node.directory entries).reachedSources (Layout.packageAt root r)).encard =
      (UInt32.ofNat (m.kotlinSources (Layout.packageAt root r))).toNat := by
    have hfewer := (Disk.Node.encard_reachedSources_le (Layout.packageAt root r) _).trans_lt hfew
    rw [hcount] at hfewer ⊢
    rw [UInt32.toNat_ofNat_of_lt']
    exact_mod_cast hfewer
  refine ⟨_, _, run_of_load hr times root _, Layout.probe_sources_of_package hd hp hne hkind, hreached, ?_, ?_⟩
  · intro hreadable
    rwa [hreadable.reachedSources_eq] at hreached
  · intro source hsource above next rest hsplit
    exact Disk.Node.directory_of_mem_sourcePlaces hsource hsplit

/-- A package behind a link: three names of sources among others, one of them further down, and links that lead to
sources and around in a circle. -/
def crowdedPackage : List (String × Disk.Node) :=
  [("A.kt", .file .empty), (".kt", .file .empty), ("..kt", .file .empty), ("A.java", .file .empty),
   ("more.kt", .directory [("B.kt", .file .empty), ("back.kt", .link "..")]), ("C.kt", .link "A.kt")]

/-- A machine with a repository in which the package is this link. -/
def crowdedMachine : Disk.Machine where
  root := .directory
    [("repo", .directory [("tests", .directory [("com", .directory [("x", .link "/srv")])])]),
     ("srv", .directory crowdedPackage)]
  cwd := []
  clock := .epoch
  tidy := by simp [crowdedPackage]

theorem readable_crowdedPackage : (Disk.Node.directory crowdedPackage).Readable "repo/tests//./com/x" := by
  have hmore : (Disk.Node.directory [("B.kt", .file .empty), ("back.kt", .link "..")]).Readable
      "repo/tests//./com/x/more.kt" :=
    .cons (.cons (Disk.Node.readable_directory_nil (by decide)) (Disk.Node.readable_link _ _))
      (Disk.Node.readable_file _ _)
  have hlink : (Disk.Node.directory [("C.kt", .link "A.kt")]).Readable "repo/tests//./com/x" :=
    .cons (Disk.Node.readable_directory_nil (by decide)) (Disk.Node.readable_link _ _)
  have hfile (name : String) : (Disk.Node.file .empty).Readable (Text.Path.join "repo/tests//./com/x" name) :=
    Disk.Node.readable_file _ _
  exact .cons (.cons (.cons (.cons (.cons hlink hmore) (hfile _)) (hfile _)) (hfile _)) (hfile _)

theorem run_counts_sources_of_linked :
    ∃ r out, EffectiveRegistry.load "" Layout.plainOverrides = .ok r ∧
      crowdedMachine.node? (Layout.packageAt "repo" r) = .ok (["srv"], .directory crowdedPackage) ∧
      run ⟨.epoch, .epoch⟩ "repo" "" Layout.plainOverrides (some crowdedMachine.view) = .ok out ∧
      out.report.data.nightlySources = some 3 := by
  obtain ⟨r, hr, hd, hp, hne, hnode, hpackage⟩ : ∃ r, EffectiveRegistry.load "" Layout.plainOverrides = .ok r ∧
      Rules.SoundPath r.nightlyTestsDirectoryPath.value ∧ Rules.SoundPackage r.nightlyTestsPackage.value ∧
      Layout.testsAt "repo" r ≠ "" ∧
      crowdedMachine.node? (Layout.packageAt "repo" r) = .ok (["srv"], .directory crowdedPackage) ∧
      Layout.packageAt "repo" r = "repo/tests//./com/x" := by
    refine ⟨_, rfl, ?_, ?_, ?_, ?_, ?_⟩
    · exact Rules.checkPath_eq_none_iff.mp (show Rules.checkPath .nightlyTestsDirectoryPath _ = none by decide +kernel)
    · exact Rules.checkPackage_eq_none_iff.mp (by decide +kernel)
    · decide +kernel
    · rfl
    · decide +kernel
  have hreadable : (Disk.Node.directory crowdedPackage).Readable (Layout.packageAt "repo" r) :=
    hpackage ▸ readable_crowdedPackage
  have hthree : (Disk.Node.directory crowdedPackage).sourcePlaces.encard = 3 := by
    rw [← hreadable.reachedSources_eq, Disk.Machine.encard_reachedSources_of_node? hnode, hpackage]
    rfl
  obtain ⟨out, count, hout, hcount, -, hencard, -⟩ := run_counts_sources hr ⟨.epoch, .epoch⟩ hd hp hne hnode
    (by rw [hthree]; decide)
  refine ⟨r, out, hr, hnode, hout, ?_⟩
  have hencard := hencard hreadable
  rw [hthree] at hencard
  rw [hcount, ← UInt32.toNat_inj.mp (show (3 : UInt32).toNat = count.toNat by exact_mod_cast hencard)]

end Check

end SurfaceRegistry
