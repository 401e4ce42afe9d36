import Mathlib.Logic.Relation
import SurfaceRegistry.Proofs.Disk.Writing

/-!
# What writing files changes

All that the program ever does to a machine is to make directories on the way along a path and to write files
(`Machine.Edit`). So it is enough to know which paths it does this for. What one edit does to the tree of files is told
by `Machine.Changes`; it grows by what the paths lead to in the end, and otherwise stays as it was, for one edit and
therefore for any number of them (`Machine.Edits.changes`).
-/

namespace SurfaceRegistry

/-- The directories on the way along a path: the one that holds what the path names, and those above it. -/
inductive Text.Path.Ancestor (path : String) : String → Prop where
  /-- The directory that holds what the path names. -/
  | parent {q : String} (h : parent? path = some q) : Ancestor path q
  /-- The directory that holds one of them. -/
  | up {q r : String} (hq : Ancestor path q) (h : parent? q = some r) : Ancestor path r

namespace Disk.Machine

open Text.Path (Ancestor)

/-! ### Edits -/

/-- A change of a machine for the sake of files at some paths. -/
inductive Edit (paths : List String) (m m' : Machine) : Prop where
  /-- A directory is made on the way along one of them. -/
  | makeDirectory {path q : String} (hpath : path ∈ paths) (hq : Ancestor path q) (h : m.makeDirectory q = .ok m')
  /-- A file is written at one of them. -/
  | write {path : String} {content : ByteArray} (hpath : path ∈ paths) (h : m.write path content = .ok m')

/-- One such change after another. -/
def Edits (paths : List String) : Machine → Machine → Prop :=
  Relation.ReflTransGen (Edit paths)

variable {paths : List String} {m m' m'' : Machine}

/-- For no paths nothing is changed. -/
theorem Edits.eq_of_nil (h : Edits [] m m') : m' = m := by
  induction h with
  | refl => rfl
  | tail _ hlast _ => cases hlast <;> exact absurd ‹_› List.not_mem_nil

/-! ### Programs that edit -/

section Programs

variable {α β : Type} {x : StateM Machine α} {f : α → StateM Machine β}

/-- A program changes a machine by edits for some paths only. -/
def EditsFor (paths : List String) (x : StateM Machine α) : Prop :=
  ∀ m, Edits paths m (x m).2

theorem EditsFor.edits {a : α} (hx : EditsFor paths x) (h : x m = (a, m')) : Edits paths m m' := by
  have hedits := hx m
  rwa [h] at hedits

theorem editsFor_of_look (h : ∀ m, (x m).2 = m) (paths : List String) : EditsFor paths x := by
  intro m
  rw [h]
  exact .refl

theorem editsFor_pure (a : α) (paths : List String) : EditsFor paths (pure a) :=
  editsFor_of_look (fun _ => rfl) paths

theorem EditsFor.bind (hx : EditsFor paths x) (hf : ∀ a, EditsFor paths (f a)) : EditsFor paths (x >>= f) := by
  intro m
  rw [run_bind]
  exact (hx m).trans (hf _ _)

variable {path q : String}

theorem editsFor_makeDirectory (hpath : path ∈ paths) (hq : Ancestor path q) :
    EditsFor paths (MonadHost.makeDirectory q) := by
  intro m
  rw [run_makeDirectory]
  cases h : m.makeDirectory q with
  | error e => exact .refl
  | ok m' => exact .single (.makeDirectory hpath hq h)

theorem editsFor_write (hpath : path ∈ paths) (content : ByteArray) :
    EditsFor paths (MonadHost.write path content) := by
  intro m
  rw [run_write]
  cases h : m.write path content with
  | error e => exact .refl
  | ok m' => exact .single (.write hpath h)

theorem editsFor_acceptDirectory (q : String) (answer : Except OsError Unit) (paths : List String) :
    EditsFor paths (Files.acceptDirectory q answer) :=
  editsFor_of_look (fun m => by rw [run_acceptDirectory]) paths

/-- All directories that are made for a directory are above it, so they are above what it is above. -/
theorem editsFor_makeDirectoriesUpTo (hpath : path ∈ paths) (fuel : Nat) (hq : Ancestor path q) :
    EditsFor paths (Files.makeDirectoriesUpTo fuel q) := by
  induction fuel generalizing q with
  | zero => exact editsFor_pure _ paths
  | succ fuel ih =>
    rw [Files.makeDirectoriesUpTo]
    split
    · exact editsFor_pure _ paths
    · refine (editsFor_makeDirectory hpath hq).bind fun answer => ?_
      split
      · split
        · exact editsFor_pure _ paths
        · rename_i parent hparent
          refine (ih (hq.up hparent)).bind fun answer => ?_
          split
          · exact editsFor_pure _ paths
          · exact (editsFor_makeDirectory hpath hq).bind fun answer => editsFor_acceptDirectory q answer paths
      · exact editsFor_acceptDirectory q _ paths

theorem editsFor_makeParents (hpath : path ∈ paths) : EditsFor paths (Files.makeParents path) := by
  rw [Files.makeParents]
  split
  · exact editsFor_pure _ paths
  · rename_i parent hparent
    split
    · exact editsFor_pure _ paths
    · exact (editsFor_makeDirectoriesUpTo hpath _ (.parent hparent)).bind fun _ => editsFor_pure _ paths

theorem editsFor_writeText (hpath : path ∈ paths) (text : String) : EditsFor paths (Files.writeText path text) := by
  rw [Files.writeText]
  refine (editsFor_makeParents hpath).bind fun answer => ?_
  split
  · exact editsFor_pure _ paths
  · exact (editsFor_write hpath _).bind fun _ => editsFor_pure _ paths

end Programs

/-! ### What edits come to -/

/-- A path leads to a node at a place. -/
def LeadsTo (m : Machine) (path : String) (p : Place) : Prop :=
  ∃ v, m.target path = .ok (.present p v)

/-- What may be new at a place for the sake of files at some paths. -/
inductive MadeFor (paths : List String) (m : Machine) (p : Place) : Node.Shape → Prop where
  /-- A file, to which one of them leads. -/
  | file {path : String} (hpath : path ∈ paths) (hp : m.LeadsTo path p) : MadeFor paths m p .file
  /-- A directory on the way along one of them. -/
  | directory {path q : String} (hpath : path ∈ paths) (hq : Ancestor path q) (hp : m.LeadsTo q p) :
    MadeFor paths m p .directory

/-- All nodes stay in their places, and nothing changes but for the sake of files at some paths. -/
structure Changes (paths : List String) (m m' : Machine) : Prop extends Extends m m' where
  /-- A file keeps its content unless one of them leads to it. -/
  file : ∀ p content, m.root.at? p = some (.file content) → (∀ path ∈ paths, ¬m'.LeadsTo path p) →
    m'.root.at? p = some (.file content)
  /-- What is new is such a file, or a directory on the way to one. -/
  made : ∀ p n, m.root.at? p = none → m'.root.at? p = some n → MadeFor paths m' p n.shape

theorem Extends.leadsTo (h : m.Extends m') {path : String} {p : Place} (hp : m.LeadsTo path p) : m'.LeadsTo path p := by
  obtain ⟨v, hv⟩ := hp
  exact ⟨v, h.target hv⟩

theorem MadeFor.of_extends {p : Place} {shape : Node.Shape} (h : MadeFor paths m p shape) (hm : m.Extends m') :
    MadeFor paths m' p shape := by
  cases h with
  | file hpath hp => exact .file hpath (hm.leadsTo hp)
  | directory hpath hq hp => exact .directory hpath hq (hm.leadsTo hp)

theorem Changes.refl (paths : List String) (m : Machine) : Changes paths m m where
  cwd := rfl
  grows := .refl _
  file _ _ h _ := h
  made p n hnone hn := by
    rw [hnone] at hn
    cases hn

theorem Changes.trans (h : Changes paths m m') (h' : Changes paths m' m'') : Changes paths m m'' where
  toExtends := h.toExtends.trans h'.toExtends
  file p content hp hpaths := by
    refine h'.file p content (h.file p content hp fun path hpath hlead => ?_) hpaths
    exact hpaths path hpath (h'.toExtends.leadsTo hlead)
  made p n hnone hn := by
    cases hp : m'.root.at? p with
    | none => exact h'.made p n hp hn
    | some n' =>
      obtain ⟨n'', hn'', hshape⟩ := h'.grows p n' hp
      obtain rfl := Option.some.inj (hn''.symm.trans hn)
      rw [hshape]
      exact (h.made p n' hnone hp).of_extends h'.toExtends

/-- What one edit changes. -/
theorem Edit.changes (h : Edit paths m m') (hm : m.HasCwd) : Changes paths m m' := by
  cases h with
  | makeDirectory hpath hq h =>
    obtain ⟨place, v, hin, hnone, rfl, -, htarget⟩ := exists_of_makeDirectory hm h
    refine ⟨⟨rfl, Node.grows_put_new hnone _⟩, fun p content hp _ => ?_, fun p n hp hn => ?_⟩
    · refine Node.HasRoom.at?_put_file (.inl hnone) hp ?_ _
      rintro rfl
      rw [hnone] at hp
      cases hp
    · obtain ⟨rfl, rfl⟩ := hin.eq_of_new (fun _ => rfl) hp hn
      exact .directory hpath hq ⟨v, htarget⟩
  | @write path content hpath h =>
    obtain ⟨place, hto, hin, rfl⟩ := exists_writesTo hm h
    have hleads : (m.put place (.file content)).LeadsTo path place := ⟨false, hto.target content⟩
    refine ⟨hto.extends _, fun p old hp hpaths => ?_, fun p n hp hn => ?_⟩
    · refine hto.room.at?_put_file hp ?_ _
      rintro rfl
      exact hpaths _ hpath hleads
    · obtain ⟨rfl, rfl⟩ := hin.eq_of_new (fun _ => rfl) hp hn
      exact .file hpath hleads

/-- What edits change, one after another. -/
theorem Edits.changes (h : Edits paths m m') (hm : m.HasCwd) : Changes paths m m' := by
  induction h with
  | refl => exact .refl paths m
  | tail _ hlast ih => exact ih.trans (hlast.changes (ih.toExtends.hasCwd hm))

end Disk.Machine

end SurfaceRegistry
