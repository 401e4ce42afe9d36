import SurfaceRegistry.Host

/-!
# A tree of files

Files, directories and links as a value. A place is the names on the way from the root down to a node;
no names lead to the root itself. In a tidy tree no directory has two entries of one name, and what is put
in a tidy tree leaves it tidy (`Node.tidy_put`).
-/

namespace SurfaceRegistry.Disk

/-- What stands at a place. -/
inductive Node where
  /-- A regular file. -/
  | file (content : ByteArray)
  /-- A directory with its entries. -/
  | directory (entries : List (String × Node))
  /-- A link to what a path leads to. -/
  | link (target : String)

instance : Inhabited Node := ⟨.directory []⟩

/-- The names from the root down to a node. -/
abbrev Place := List String

namespace Node

/-- The entry of a directory with a name. -/
def entry? (name : String) : Node → Option Node
  | directory entries => entries.lookup name
  | file _ | link _ => none

/-- The node at a place below this one. Links are not followed. -/
def at? : Place → Node → Option Node
  | [], n => some n
  | name :: rest, n => (n.entry? name).bind (at? rest)

/-- Entries with a change of the one with a name, which may be missing. -/
def changeEntry (name : String) (f : Option Node → Node) : List (String × Node) → List (String × Node)
  | [] => [(name, f none)]
  | (k, n) :: r => if k = name then (k, f (some n)) :: r else (k, n) :: changeEntry name f r

/-- A tree with a node put at a place, in directories that are made as they are needed. Nothing is put
below a file or a link. -/
def put (new : Node) : Place → Node → Node
  | [], _ => new
  | name :: rest, directory entries =>
    directory (changeEntry name (fun old => put new rest (old.getD (directory []))) entries)
  | _ :: _, file content => file content
  | _ :: _, link target => link target

/-! ### Tidy trees -/

mutual

/-- No directory of a tree has two entries of one name. -/
def Tidy : Node → Prop
  | file _ => True
  | directory entries => TidyEntries entries
  | link _ => True

/-- Entries have different names, and what is below them is tidy. -/
def TidyEntries : List (String × Node) → Prop
  | [] => True
  | (name, n) :: r => name ∉ r.map Prod.fst ∧ n.Tidy ∧ TidyEntries r

end

variable {name : String} {n : Node} {entries : List (String × Node)}

@[simp] theorem tidy_file (content : ByteArray) : (file content).Tidy := by
  rw [Tidy]
  trivial

@[simp] theorem tidy_link (target : String) : (link target).Tidy := by
  rw [Tidy]
  trivial

@[simp] theorem tidy_directory_iff : (directory entries).Tidy ↔ TidyEntries entries := by
  rw [Tidy]

@[simp] theorem tidyEntries_nil : TidyEntries [] := by
  rw [TidyEntries]
  trivial

@[simp] theorem tidyEntries_cons_iff :
    TidyEntries ((name, n) :: entries) ↔ name ∉ entries.map Prod.fst ∧ n.Tidy ∧ TidyEntries entries := by
  rw [TidyEntries]

theorem mem_keys_changeEntry {f : Option Node → Node} {k : String} :
    k ∈ (changeEntry name f entries).map Prod.fst ↔ k ∈ entries.map Prod.fst ∨ k = name := by
  induction entries with
  | nil => simp [changeEntry]
  | cons e entries ih =>
    obtain ⟨k', n⟩ := e
    rw [changeEntry]
    split
    · rename_i hk
      subst hk
      simp only [List.map_cons, List.mem_cons]
      exact ⟨.inl, fun h => h.elim id .inl⟩
    · rw [List.map_cons, List.mem_cons, ih, List.map_cons, List.mem_cons, or_assoc]

theorem tidyEntries_changeEntry {f : Option Node → Node} (h : TidyEntries entries)
    (hf : ∀ old, (∀ n ∈ old, n.Tidy) → (f old).Tidy) : TidyEntries (changeEntry name f entries) := by
  induction entries with
  | nil => simpa [changeEntry] using hf none
  | cons e entries ih =>
    obtain ⟨k, n⟩ := e
    obtain ⟨hk, hn, hentries⟩ := tidyEntries_cons_iff.mp h
    rw [changeEntry]
    split
    · exact tidyEntries_cons_iff.mpr ⟨hk, hf (some n) (by simpa using hn), hentries⟩
    · rename_i hne
      refine tidyEntries_cons_iff.mpr ⟨?_, hn, ih hentries⟩
      rw [mem_keys_changeEntry, not_or]
      exact ⟨hk, hne⟩

/-- What is put in a tree leaves it tidy. -/
@[simp] theorem tidy_put {root new : Node} (h : root.Tidy) (hnew : new.Tidy) (place : Place) :
    (put new place root).Tidy := by
  induction place generalizing root with
  | nil => exact hnew
  | cons k rest ih =>
    cases root with
    | file content => exact h
    | link target => exact h
    | directory entries =>
      rw [put, tidy_directory_iff]
      refine tidyEntries_changeEntry (tidy_directory_iff.mp h) fun old hold => ih ?_
      cases old with
      | none => simp
      | some n => exact hold n rfl

end Node

end SurfaceRegistry.Disk
