import SurfaceRegistry.Files
import SurfaceRegistry.Proofs.Disk.Growth

/-!
# Writing files on a machine

A file that is written can be read, and can be written again (`Machine.Holds`). Writing leaves every other
file as it is, and so do the directories that are made for it, whether or not it succeeds
(`Machine.Spares`).
-/

namespace SurfaceRegistry.Disk

/-! ### Following a path -/

theorem follow_eq_ok_iff {root : Node} {here : Place} {followLast w : Bool} {path : String}
    {t : Target} : follow root here followLast w path = .ok t ↔
      (path.isEmpty = false ∧ path.utf8ByteSize ≤ maxPathSize) ∧
        walk root followLast maxLinks (if startsAtRoot path then [] else here) (pathNames path) w = .ok t := by
  unfold follow
  cases hempty : path.isEmpty with
  | true => simp
  | false =>
    simp only [Bool.false_eq_true, if_false, true_and]
    split
    · rename_i h
      simp [Nat.not_le.mpr h]
    · rename_i h
      simp [Nat.not_lt.mp h]

namespace Machine

variable {m m' : Machine} {path : String} {p : Place}

/-- The directory that relative paths start from is there. -/
def HasCwd (m : Machine) : Prop := ∃ entries, m.root.at? m.cwd = some (.directory entries)

theorem HasCwd.top (h : m.HasCwd) : ∃ entries, m.root.at? [] = some (.directory entries) := by
  obtain ⟨entries, h⟩ := h
  cases hc : m.cwd with
  | nil => exact ⟨entries, hc ▸ h⟩
  | cons name rest =>
    rw [hc, ← List.nil_append (name :: rest)] at h
    exact Node.exists_directory_of_at?_append h

theorem HasCwd.start (h : m.HasCwd) (path : String) :
    ∃ entries, m.root.at? (if startsAtRoot path then [] else m.cwd) = some (.directory entries) := by
  split
  · exact h.top
  · exact h

/-- A change that leaves all nodes in their places. -/
structure Extends (m m' : Machine) : Prop where
  cwd : m'.cwd = m.cwd
  grows : m.root.Grows m'.root

/-- A change that also leaves the file at one place as it is. -/
structure Spares (p : Place) (m m' : Machine) : Prop extends Extends m m' where
  file : ∀ content, m.root.at? p = some (.file content) → m'.root.at? p = some (.file content)

theorem Spares.refl (p : Place) (m : Machine) : Spares p m m := ⟨⟨rfl, .refl _⟩, fun _ => id⟩

theorem Extends.trans {m'' : Machine} (h : Extends m m') (h' : Extends m' m'') : Extends m m'' :=
  ⟨h'.cwd.trans h.cwd, h.grows.trans h'.grows⟩

theorem Spares.trans {m'' : Machine} (h : Spares p m m') (h' : Spares p m' m'') :
    Spares p m m'' :=
  ⟨h.toExtends.trans h'.toExtends, fun content hc => h'.file content (h.file content hc)⟩

theorem Extends.hasCwd (h : m.Extends m') (hm : m.HasCwd) : m'.HasCwd := by
  obtain ⟨entries, hm⟩ := hm
  rw [HasCwd, h.cwd]
  exact h.grows.directory hm

/-- A path goes on leading to the same place. -/
theorem Extends.target (h : m.Extends m') {q : Place} {v : Bool} (ht : m.target path = .ok (.present q v)) :
    m'.target path = .ok (.present q v) := by
  rw [Machine.target, follow_eq_ok_iff] at ht ⊢
  rw [h.cwd]
  exact ⟨ht.1, walk_present_of_grows h.grows _ _ _ _ ht.2⟩

theorem kind?_eq_directory_iff :
    m.kind? path = some .directory ↔
      ∃ q v entries, m.target path = .ok (.present q v) ∧ m.root.at? q = some (.directory entries) := by
  rw [kind?_eq, found?_eq]
  constructor
  · intro h
    obtain ⟨n, hn, hkind⟩ := Option.map_eq_some_iff.mp h
    cases n with
    | directory entries =>
      obtain ⟨q, v, ht, hq⟩ := nodeAt_eq_directory_iff.mp hn
      exact ⟨q, v, entries, ht, hq⟩
    | file content => cases hkind
    | link target => cases hkind
  · rintro ⟨q, v, entries, ht, hq⟩
    rw [nodeAt_eq_directory_iff.mpr ⟨q, v, ht, hq⟩]
    rfl

theorem Extends.directory (h : m.Extends m') (hk : m.kind? path = some .directory) :
    m'.kind? path = some .directory := by
  obtain ⟨q, v, entries, ht, hq⟩ := kind?_eq_directory_iff.mp hk
  obtain ⟨entries', hq'⟩ := h.grows.directory hq
  exact kind?_eq_directory_iff.mpr ⟨q, v, entries', h.target ht, hq'⟩

/-! ### New directories -/

theorem makeDirectory_of_directory (hk : m.kind? path = some .directory) :
    m.makeDirectory path = .error .alreadyExists := by
  obtain ⟨q, v, entries, ht, -⟩ := kind?_eq_directory_iff.mp hk
  rw [Machine.target, follow_eq_ok_iff] at ht
  obtain ⟨q', v', hw, -⟩ := exists_walk_present _ _ _ _ ht.2 false false
  rw [makeDirectory, addNew, follow_eq_ok_iff.mpr ⟨ht.1, hw⟩]

/-- A new directory is put in one that is there, at a place to which the path leads then. -/
theorem exists_of_makeDirectory (hm : m.HasCwd) (h : m.makeDirectory path = .ok m') :
    ∃ p v, m.root.InDirectory p ∧ m.root.at? p = none ∧ m' = m.put p (.directory []) ∧
      m'.root.at? p = some (.directory []) ∧ m'.target path = .ok (.present p v) := by
  unfold makeDirectory addNew at h
  split at h
  · cases h
  · cases h
  · rename_i d last v hf
    cases h
    obtain ⟨hpath, hw⟩ := follow_eq_ok_iff.mp hf
    obtain ⟨top, htop⟩ := hm.top
    obtain ⟨⟨entries, hd⟩, hnone⟩ := directory_of_walk_absent htop _ _ _ _ (hm.start path) hw
    have hnew : (Node.put (.directory []) (d ++ [last]) m.root).at? (d ++ [last]) = some (.directory []) :=
      Node.at?_put_new hd last
    obtain ⟨v', hw', -⟩ := walk_present_of_absent (Node.grows_put_new hnone (.directory [])) hnew (by simp) _ _ _ _ hw
      (endsWithSlash path)
    exact ⟨_, v', ⟨d, last, entries, rfl, hd⟩, hnone, rfl, hnew, follow_eq_ok_iff.mpr ⟨hpath, hw'⟩⟩

theorem of_makeDirectory (hm : m.HasCwd) (h : m.makeDirectory path = .ok m') :
    (∀ p, Spares p m m') ∧ m'.kind? path = some .directory := by
  obtain ⟨place, v, -, hnone, rfl, hnew, htarget⟩ := exists_of_makeDirectory hm h
  refine ⟨fun p => ⟨⟨rfl, Node.grows_put_new hnone _⟩, fun content hc => ?_⟩,
    kind?_eq_directory_iff.mpr ⟨place, v, [], htarget, hnew⟩⟩
  have hne : p ≠ place := by
    rintro rfl
    rw [hnone] at hc
    cases hc
  exact Node.HasRoom.at?_put_file (.inl hnone) hc hne _

/-- The outcome of making a directory with all that it needs. -/
structure MakesDirectory (path : String) (m : Machine) (r : Except OsError Unit × Machine) : Prop where
  spares : ∀ p, Spares p m r.2
  directory : path.isEmpty = false → r.1 = .ok () → r.2.kind? path = some .directory

theorem MakesDirectory.of_error (path : String) (m : Machine) (e : OsError) :
    MakesDirectory path m (.error e, m) where
  spares p := .refl p m
  directory _ h := by cases h

theorem run_bind {σ α β : Type} (x : StateM σ α) (f : α → StateM σ β) (s : σ) :
    (x >>= f) s = f (x s).1 (x s).2 := rfl

theorem run_pure {σ α : Type} (a : α) (s : σ) : (pure a : StateM σ α) s = (a, s) := rfl

theorem run_makeDirectory (m : Machine) (path : String) :
    (MonadHost.makeDirectory path : StateM Machine _) m =
      match m.makeDirectory path with
      | .ok m' => (.ok (), m')
      | .error e => (.error e, m) := rfl

theorem run_write (m : Machine) (path : String) (content : ByteArray) :
    (MonadHost.write path content : StateM Machine _) m =
      match m.write path content with
      | .ok m' => (.ok (), m')
      | .error e => (.error e, m) := rfl

theorem run_acceptDirectory (path : String) (answer : Except OsError Unit) (m : Machine) :
    (Files.acceptDirectory path answer : StateM Machine _) m =
      (if m.kind? path = some .directory then .ok () else answer, m) := by
  cases answer with
  | ok _ =>
    rw [ite_self]
    rfl
  | error e =>
    rw [Files.acceptDirectory, run_bind]
    show (if m.kind? path = some .directory then _ else _ : StateM Machine _) m = _
    split <;> rfl

/-- A refusal is accepted if the directory is there. -/
theorem makesDirectory_accept_error (path : String) (e : OsError) (m : Machine) :
    MakesDirectory path m ((Files.acceptDirectory path (.error e) : StateM Machine _) m) := by
  rw [run_acceptDirectory]
  refine ⟨fun p => .refl p m, fun _ h => ?_⟩
  by_contra hne
  rw [if_neg hne] at h
  cases h

/-- An attempt to make a directory that may be there. -/
theorem makesDirectory_accept (hm : m.HasCwd) (path : String) :
    MakesDirectory path m
      ((do Files.acceptDirectory path (← MonadHost.makeDirectory path) : StateM Machine _) m) := by
  rw [run_bind, run_makeDirectory]
  cases h : m.makeDirectory path with
  | error e => exact makesDirectory_accept_error path e m
  | ok m' =>
    obtain ⟨hspares, hkind⟩ := of_makeDirectory hm h
    exact ⟨hspares, fun _ _ => hkind⟩

theorem makesDirectory_upTo (hm : m.HasCwd) (fuel : Nat) (path : String) :
    MakesDirectory path m ((Files.makeDirectoriesUpTo fuel path : StateM Machine _) m) := by
  induction fuel generalizing path m with
  | zero => exact .of_error path m _
  | succ fuel ih =>
    rw [Files.makeDirectoriesUpTo]
    cases hpath : path.isEmpty with
    | true => exact ⟨fun p => .refl p m, fun h => by simp [hpath] at h⟩
    | false =>
      simp only [Bool.false_eq_true, if_false]
      rw [run_bind, run_makeDirectory]
      cases h : m.makeDirectory path with
      | ok m' =>
        obtain ⟨hspares, hkind⟩ := of_makeDirectory hm h
        exact ⟨hspares, fun _ _ => hkind⟩
      | error e =>
        cases e with
        | notFound =>
          simp only
          cases hparent : Text.Path.parent? path with
          | none => exact .of_error path m _
          | some parent =>
            have hp := ih hm parent
            simp only
            rw [run_bind]
            cases hr : (Files.makeDirectoriesUpTo fuel parent : StateM Machine _) m with
            | mk answer m' =>
              rw [hr] at hp
              cases answer with
              | error e => exact ⟨hp.spares, fun _ h => by cases h⟩
              | ok _ =>
                have hlast := makesDirectory_accept ((hp.spares []).hasCwd hm) path
                exact ⟨fun p => (hp.spares p).trans (hlast.spares p), hlast.directory⟩
        | _ => exact makesDirectory_accept_error path _ m

/-- A directory that is there is made again without a change. -/
theorem makeDirectories_of_directory (hk : m.kind? path = some .directory) :
    (Files.makeDirectories path : StateM Machine _) m = (.ok (), m) := by
  rw [Files.makeDirectories, Files.makeDirectoriesUpTo]
  split
  · rfl
  · rw [run_bind, run_makeDirectory, makeDirectory_of_directory hk]
    exact (run_acceptDirectory path _ m).trans (by rw [if_pos hk])

/-! ### Writing -/

/-- The directory for a file is there, if the path of the file has one. -/
def HasParent (m : Machine) (path : String) : Prop :=
  ∀ parent, Text.Path.parent? path = some parent → parent.isEmpty = false →
    m.kind? parent = some .directory

/-- A path leads to a file with a content, and its directory is there. -/
structure Holds (m : Machine) (path : String) (p : Place) (content : ByteArray) : Prop where
  target : m.target path = .ok (.present p false)
  file : m.root.at? p = some (.file content)
  parent : m.HasParent path

theorem Extends.hasParent (h : m.Extends m') (hm : m.HasParent path) : m'.HasParent path :=
  fun parent hp hne => h.directory (hm parent hp hne)

theorem Spares.holds {content : ByteArray} (h : Spares p m m') (hm : m.Holds path p content) :
    m'.Holds path p content :=
  ⟨h.target hm.target, h.file content hm.file, h.hasParent hm.parent⟩

theorem Holds.read {content : ByteArray} (h : m.Holds path p content) : m.read path = .ok content := by
  simp only [Machine.read, node?, h.target, h.file, Bool.false_eq_true, if_false]

theorem makeParents_spec (hm : m.HasCwd) {answer : Except Failure Unit}
    (h : (Files.makeParents path : StateM Machine _) m = (answer, m')) :
    (∀ p, Spares p m m') ∧ (answer = .ok () → m'.HasParent path) := by
  rw [Files.makeParents] at h
  cases hparent : Text.Path.parent? path with
  | none =>
    rw [hparent] at h
    cases h
    exact ⟨fun p => .refl p m, fun _ parent hp => by simp [hparent] at hp⟩
  | some parent =>
    have hhas (hk : parent.isEmpty = false → m'.kind? parent = some .directory) :
        m'.HasParent path := by
      intro q hq hne
      rw [hparent] at hq
      cases hq
      exact hk hne
    rw [hparent] at h
    simp only at h
    split at h
    · rename_i hempty
      cases h
      exact ⟨fun p => .refl p m, fun _ => hhas fun hne => by simp [hempty] at hne⟩
    · have hmakes := makesDirectory_upTo hm (parent.length + 1) parent
      rw [run_bind, run_pure] at h
      obtain ⟨hanswer, rfl⟩ := Prod.mk.inj h
      refine ⟨hmakes.spares, fun hok => hhas fun hne => hmakes.directory hne ?_⟩
      rw [hok] at hanswer
      unfold failWithin at hanswer
      split at hanswer
      · assumption
      · cases hanswer

/-- The directory for a file is made again without a change. -/
theorem HasParent.makeParents (h : m.HasParent path) :
    (Files.makeParents path : StateM Machine _) m = (.ok (), m) := by
  rw [Files.makeParents]
  cases hparent : Text.Path.parent? path with
  | none => rfl
  | some parent =>
    simp only
    split
    · rfl
    · rename_i hne
      rw [run_bind, makeDirectories_of_directory (h parent hparent (by simpa using hne))]
      rfl

/-- Whatever is written to a path is put at one place, to which the path leads then. -/
structure WritesTo (m : Machine) (path : String) (p : Place) : Prop where
  room : m.root.HasRoom p
  write : ∀ content, m.write path content = .ok (m.put p (.file content))
  file : ∀ content, (m.put p (.file content)).root.at? p = some (.file content)
  target : ∀ content, (m.put p (.file content)).target path = .ok (.present p false)

theorem WritesTo.extends (h : m.WritesTo path p) (content : ByteArray) :
    m.Extends (m.put p (.file content)) :=
  ⟨rfl, h.room.grows_put_file content⟩

theorem WritesTo.spares (h : m.WritesTo path p) {q : Place} (hq : q ≠ p) (content : ByteArray) :
    Spares q m (m.put p (.file content)) :=
  ⟨h.extends content, fun _ hc => h.room.at?_put_file hc hq _⟩

theorem writesTo_of_present {content : ByteArray} (ht : m.target path = .ok (.present p false))
    (hp : m.root.at? p = some (.file content)) : m.WritesTo path p := by
  have hroom : m.root.HasRoom p := .inr ⟨content, hp⟩
  refine ⟨hroom, fun new => ?_, fun new => Node.at?_put_of_some hp, fun new => ?_⟩
  · simp only [Machine.write, ht, hp, Bool.false_eq_true, if_false]
  · rw [Machine.target, follow_eq_ok_iff] at ht ⊢
    exact ⟨ht.1, walk_present_of_grows (hroom.grows_put_file new) _ _ _ _ ht.2⟩

/-- Room for what a path leads to is in a directory. -/
theorem directory_of_target_absent (hm : m.HasCwd) {d : Place} {last : String} {v : Bool}
    (ht : m.target path = .ok (.absent d last v)) :
    (∃ entries, m.root.at? d = some (.directory entries)) ∧ m.root.at? (d ++ [last]) = none := by
  rw [Machine.target, follow_eq_ok_iff] at ht
  obtain ⟨top, htop⟩ := hm.top
  exact directory_of_walk_absent htop _ _ _ _ (hm.start path) ht.2

theorem writesTo_of_absent (hm : m.HasCwd) {d : Place} {last : String}
    (ht : m.target path = .ok (.absent d last false)) : m.WritesTo path (d ++ [last]) := by
  obtain ⟨⟨entries, hd⟩, hnone⟩ := directory_of_target_absent hm ht
  have htarget := ht
  rw [Machine.target, follow_eq_ok_iff] at ht
  obtain ⟨hpath, hw⟩ := ht
  have hroom : m.root.HasRoom (d ++ [last]) := .inl hnone
  refine ⟨hroom, fun new => ?_, fun new => Node.at?_put_new hd last, fun new => ?_⟩
  · simp only [Machine.write, htarget, Bool.false_eq_true, if_false]
  · obtain ⟨v, hw', hv⟩ := walk_present_of_absent (hroom.grows_put_file new)
      (Node.at?_put_new hd last) (by simp) _ _ _ _ hw (endsWithSlash path)
    rw [hv rfl] at hw'
    exact follow_eq_ok_iff.mpr ⟨hpath, hw'⟩

/-- A file is in a directory. -/
theorem HasCwd.inDirectory (hm : m.HasCwd) {content : ByteArray} (hp : m.root.at? p = some (.file content)) :
    m.root.InDirectory p := by
  rcases List.eq_nil_or_concat p with rfl | ⟨d, last, rfl⟩
  · obtain ⟨top, htop⟩ := hm.top
    rw [htop] at hp
    cases hp
  · rw [List.concat_eq_append] at hp ⊢
    obtain ⟨entries, hd⟩ := Node.exists_directory_of_at?_append hp
    exact ⟨d, last, entries, rfl, hd⟩

theorem exists_writesTo (hm : m.HasCwd) {content : ByteArray} (h : m.write path content = .ok m') :
    ∃ p, m.WritesTo path p ∧ m.root.InDirectory p ∧ m' = m.put p (.file content) := by
  unfold Machine.write at h
  split at h
  · cases h
  · rename_i d last v ht
    cases v with
    | true => cases h
    | false =>
      cases h
      obtain ⟨⟨entries, hd⟩, -⟩ := directory_of_target_absent hm ht
      exact ⟨d ++ [last], writesTo_of_absent hm ht, ⟨d, last, entries, rfl, hd⟩, rfl⟩
  · rename_i p v ht
    split at h
    · rename_i old hp
      cases v with
      | true => cases h
      | false =>
        cases h
        exact ⟨p, writesTo_of_present ht hp, hm.inDirectory hp, rfl⟩
    · cases h

theorem Holds.writesTo {content : ByteArray} (h : m.Holds path p content) : m.WritesTo path p :=
  writesTo_of_present h.target h.file

theorem WritesTo.holds (h : m.WritesTo path p) (hparent : m.HasParent path) (content : ByteArray) :
    (m.put p (.file content)).Holds path p content :=
  ⟨h.target content, h.file content, (h.extends content).hasParent hparent⟩

theorem run_writeText (path text : String) (m : Machine) :
    (Files.writeText path text : StateM Machine _) m =
      match (Files.makeParents path : StateM Machine _) m with
      | (.error f, m') => (.error f, m')
      | (.ok _, m') =>
        match m'.write path text.toUTF8 with
        | .ok m'' => (.ok (), m'')
        | .error e => (.error ⟨[.writeText path], .os e⟩, m') := by
  rw [Files.writeText, run_bind]
  cases hr : (Files.makeParents path : StateM Machine _) m with
  | mk answer m' =>
    cases answer with
    | error f => rfl
    | ok _ =>
      simp only
      rw [run_bind, run_write]
      cases m'.write path text.toUTF8 <;> rfl

/-- A text that is written is put at the place that the path leads to once the directory for it is
there. -/
theorem exists_of_writeText_ok (hm : m.HasCwd) {text : String}
    (h : (Files.writeText path text : StateM Machine _) m = (.ok (), m')) :
    ∃ m₁ p, (Files.makeParents path : StateM Machine _) m = (.ok (), m₁) ∧ (∀ q, Spares q m m₁) ∧
      m₁.HasParent path ∧ m₁.WritesTo path p ∧ m' = m₁.put p (.file text.toUTF8) := by
  rw [run_writeText] at h
  cases hr : (Files.makeParents path : StateM Machine _) m with
  | mk answer m₁ =>
    obtain ⟨hspares, hparent⟩ := makeParents_spec hm hr
    rw [hr] at h
    cases answer with
    | error f => cases h
    | ok _ =>
      simp only at h
      split at h
      · rename_i hw
        cases h
        obtain ⟨p, hto, -, rfl⟩ := exists_writesTo ((hspares []).hasCwd hm) hw
        exact ⟨m₁, p, rfl, hspares, hparent rfl, hto, rfl⟩
      · cases h

/-- What is written is there, and every other file stays as it is. -/
theorem holds_of_writeText (hm : m.HasCwd) {text : String}
    (h : (Files.writeText path text : StateM Machine _) m = (.ok (), m')) :
    ∃ p, m'.Holds path p text.toUTF8 ∧ Extends m m' ∧ ∀ q, q ≠ p → Spares q m m' := by
  obtain ⟨m₁, p, -, hspares, hparent, hto, rfl⟩ := exists_of_writeText_ok hm h
  exact ⟨p, hto.holds hparent _, (hspares p).toExtends.trans (hto.extends _),
    fun q hq => (hspares q).trans (hto.spares hq _)⟩

/-- Where a text can be written, so can any other. -/
theorem writeText_ok_of_ok (hm : m.HasCwd) {text : String}
    (h : ((Files.writeText path text : StateM Machine _) m).1 = .ok ()) (text' : String) :
    ∃ m', (Files.writeText path text' : StateM Machine _) m = (.ok (), m') := by
  obtain ⟨m₁, p, hparents, -, -, hto, -⟩ := exists_of_writeText_ok hm (Prod.ext h rfl)
  refine ⟨m₁.put p (.file text'.toUTF8), ?_⟩
  rw [run_writeText, hparents]
  simp only [hto.write]

theorem spares_of_writeText_error (hm : m.HasCwd) {text : String} {f : Failure}
    (h : (Files.writeText path text : StateM Machine _) m = (.error f, m')) (p : Place) :
    Spares p m m' := by
  rw [run_writeText] at h
  cases hr : (Files.makeParents path : StateM Machine _) m with
  | mk answer m₁ =>
    obtain ⟨hspares, -⟩ := makeParents_spec hm hr
    rw [hr] at h
    cases answer with
    | error f =>
      cases h
      exact hspares p
    | ok _ =>
      simp only at h
      split at h
      · cases h
      · cases h
        exact hspares p

/-- A text can be written to a file. -/
def CanWrite (m : Machine) (path : String) : Prop :=
  ((Files.writeText path "" : StateM Machine _) m).1 = .ok ()

theorem CanWrite.writes (h : m.CanWrite path) (hm : m.HasCwd) (text : String) :
    ∃ m' p, (Files.writeText path text : StateM Machine _) m = (.ok (), m') ∧
      m'.Holds path p text.toUTF8 ∧ m'.HasCwd := by
  obtain ⟨m', hw⟩ := writeText_ok_of_ok hm h text
  obtain ⟨p, hholds, hextends, -⟩ := holds_of_writeText hm hw
  exact ⟨m', p, hw, hholds, hextends.hasCwd hm⟩

/-- A file that is there can be written again. -/
theorem Holds.canWrite {content : ByteArray} (h : m.Holds path p content) : m.CanWrite path := by
  rw [CanWrite, run_writeText, h.parent.makeParents]
  simp only [h.writesTo.write]

/-- Two paths lead to the same place. -/
def SamePlace (m : Machine) (path path' : String) : Prop :=
  ∃ q v v', m.target path = .ok (.present q v) ∧ m.target path' = .ok (.present q v')

/-- A file stays what it is when another is written. -/
theorem Holds.of_writeText {content : ByteArray} {path' text : String} (h : m.Holds path p content)
    (hm : m.HasCwd) (hw : (Files.writeText path' text : StateM Machine _) m = (.ok (), m'))
    (hne : ¬m'.SamePlace path' path) : m'.Holds path p content := by
  obtain ⟨q, hq, hextends, hspares⟩ := holds_of_writeText hm hw
  refine (hspares p ?_).holds h
  rintro rfl
  exact hne ⟨p, false, false, hq.target, hextends.target h.target⟩

/-! ### Reading -/

theorem fromUTF8?_toUTF8 (text : String) : String.fromUTF8? text.toUTF8 = some text := by
  rw [String.fromUTF8?]
  exact dif_pos text.isValidUTF8

theorem run_read (m : Machine) (path : String) :
    (MonadHost.read path : StateM Machine _) m = (m.read path, m) := rfl

theorem readText_of_read {text : String} (h : m.read path = .ok text.toUTF8) :
    (Files.readText path : StateM Machine _) m = (.ok text, m) := by
  rw [Files.readText, run_bind, run_read, h]
  simp only [fromUTF8?_toUTF8]
  rfl

theorem Holds.readText {text : String} (h : m.Holds path p text.toUTF8) :
    (Files.readText path : StateM Machine _) m = (.ok text, m) :=
  readText_of_read h.read

end Machine

end SurfaceRegistry.Disk
