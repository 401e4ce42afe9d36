import Mathlib.Data.Set.Card
import SurfaceRegistry.Proofs.Disk.Writing

/-!
# Counting sources

The number of Kotlin sources in a directory is the size of the set of their places, which are those of the files below
it whose names are those of sources (`Node.encard_reachedSources`). A place tells the directories on the way to it, and
these are none that links lead to; so each source is counted once, and none is that only a link leads to. Only
directories whose paths are short enough can be opened; if all of them are, the sources that are reached are all there
are (`Node.Readable.reachedSources_eq`).
-/

namespace SurfaceRegistry.Disk

/-! ### Names -/

/-- A name of a Kotlin source: it ends in `.kt`, and is not just that. -/
def IsSourceName (name : String) : Prop :=
  ".kt".toList <:+ name.toList ∧ name ≠ ".kt"

theorem isKotlinSource_iff {name : String} : isKotlinSource name = true ↔ IsSourceName name := by
  have hreverse : name = ".kt" ↔ name.toList.reverse = ['t', 'k', '.'] := by
    rw [← String.toList_inj, List.reverse_eq_iff]
    rfl
  rw [IsSourceName, Ne, hreverse, ← List.reverse_prefix, isKotlinSource]
  show _ ↔ ['t', 'k', '.'] <+: name.toList.reverse ∧ _
  generalize name.toList.reverse = s
  split
  · simp
  · rename_i hs
    refine iff_of_false (by decide) ?_
    rintro ⟨⟨r, rfl⟩, hne⟩
    cases r with
    | nil => exact hne rfl
    | cons c r => exact hs c r rfl

namespace Node

variable {name : String} {n : Node} {entries : List (String × Node)}

/-! ### Entries -/

@[simp] theorem at?_cons_self (rest : Place) : (directory ((name, n) :: entries)).at? (name :: rest) = n.at? rest := by
  simp [at?, entry?, List.lookup]

theorem at?_cons_of_ne {k : String} (h : k ≠ name) (rest : Place) :
    (directory ((name, n) :: entries)).at? (k :: rest) = (directory entries).at? (k :: rest) := by
  have hk : (k == name) = false := by simpa using h
  simp [at?, entry?, List.lookup, hk]

/-- What is below a directory is below an entry. -/
theorem mem_keys_of_at? {k : String} {rest : Place} {e : Node}
    (h : (directory entries).at? (k :: rest) = some e) : k ∈ entries.map Prod.fst := by
  obtain ⟨d, hd, -⟩ := Option.bind_eq_some_iff.mp h
  obtain ⟨before, after, he, -⟩ := List.lookup_eq_some_iff.mp hd
  simp [he]

theorem TidyEntries.of_lookup (h : TidyEntries entries) (hn : entries.lookup name = some n) : n.Tidy := by
  induction entries with
  | nil => cases hn
  | cons e entries ih =>
    obtain ⟨k, n'⟩ := e
    obtain ⟨-, htidy, hentries⟩ := tidyEntries_cons_iff.mp h
    rw [List.lookup_cons] at hn
    split at hn
    · cases hn
      exact htidy
    · exact ih hentries hn

/-- What is below a node of a tidy tree is tidy. -/
theorem Tidy.at? {place : Place} {e : Node} (h : n.Tidy) (he : n.at? place = some e) : e.Tidy := by
  induction place generalizing n with
  | nil =>
    cases he
    exact h
  | cons k rest ih =>
    obtain ⟨d, hd, hrest⟩ := Option.bind_eq_some_iff.mp he
    cases n with
    | directory entries => exact ih ((tidy_directory_iff.mp h).of_lookup hd) hrest
    | file content => cases hd
    | link target => cases hd

/-! ### Places of sources -/

/-- The places of the Kotlin sources below a node: of the files with the names of sources. -/
def sourcePlaces (n : Node) : Set Place :=
  {place | ∃ content last, n.at? place = some (.file content) ∧ place.getLast? = some last ∧ IsSourceName last}

/-- The same for a node with a name, which may be a source itself. -/
def sourcePlacesFrom (name : String) (n : Node) : Set Place :=
  {place | ∃ content last, n.at? place = some (.file content) ∧ (name :: place).getLast? = some last ∧
    IsSourceName last}

theorem mem_sourcePlaces_cons {rest : Place} :
    name :: rest ∈ (directory ((name, n) :: entries)).sourcePlaces ↔ rest ∈ n.sourcePlacesFrom name := by
  simp only [sourcePlaces, sourcePlacesFrom, Set.mem_ofPred_eq, at?_cons_self]

theorem notMem_sourcePlaces_nil : [] ∉ (directory entries).sourcePlaces := by
  rintro ⟨content, last, h, -⟩
  cases h

theorem sourcePlacesFrom_directory (name : String) :
    (directory entries).sourcePlacesFrom name = (directory entries).sourcePlaces := by
  ext place
  cases place with
  | nil =>
    refine iff_of_false ?_ notMem_sourcePlaces_nil
    rintro ⟨content, last, h, -⟩
    cases h
  | cons k rest => simp only [sourcePlaces, sourcePlacesFrom, Set.mem_ofPred_eq, List.getLast?_cons_cons]

theorem sourcePlacesFrom_link (name target : String) : (link target).sourcePlacesFrom name = ∅ := by
  ext place
  refine iff_of_false ?_ (Set.notMem_empty place)
  rintro ⟨content, last, h, -⟩
  cases place <;> cases h

theorem sourcePlacesFrom_file (name : String) (content : ByteArray) :
    (file content).sourcePlacesFrom name = {place | place = [] ∧ IsSourceName name} := by
  ext place
  cases place with
  | nil => simp [sourcePlacesFrom, at?]
  | cons k rest =>
    refine iff_of_false ?_ (by simp)
    rintro ⟨c, last, h, -⟩
    cases h

theorem sourcePlaces_directory_nil : (directory []).sourcePlaces = ∅ := by
  ext place
  refine iff_of_false ?_ (Set.notMem_empty place)
  rintro ⟨content, last, h, -⟩
  cases place <;> cases h

/-- The sources in a directory are below its first entry or in the directory of the others. -/
theorem sourcePlaces_directory_cons (h : name ∉ entries.map Prod.fst) :
    (directory ((name, n) :: entries)).sourcePlaces =
      List.cons name '' n.sourcePlacesFrom name ∪ (directory entries).sourcePlaces := by
  ext place
  cases place with
  | nil => simp [notMem_sourcePlaces_nil]
  | cons k rest =>
    by_cases hk : k = name
    · subst hk
      have hother : k :: rest ∉ (directory entries).sourcePlaces := by
        rintro ⟨content, last, hat, -⟩
        exact h (mem_keys_of_at? hat)
      simp [mem_sourcePlaces_cons, hother]
    · simp [sourcePlaces, at?_cons_of_ne hk, Ne.symm hk]

theorem disjoint_sourcePlaces (h : name ∉ entries.map Prod.fst) (places : Set Place) :
    Disjoint (List.cons name '' places) (directory entries).sourcePlaces := by
  rw [Set.disjoint_left]
  rintro place ⟨rest, -, rfl⟩ ⟨content, last, hat, -⟩
  exact h (mem_keys_of_at? hat)

/-- All that is above a source is a directory. -/
theorem directory_of_mem_sourcePlaces {place above : Place} {next : String} {rest : Place}
    (h : place ∈ n.sourcePlaces) (hplace : place = above ++ next :: rest) :
    ∃ entries, n.at? above = some (.directory entries) := by
  obtain ⟨content, last, hat, -⟩ := h
  rw [hplace] at hat
  exact exists_directory_of_at?_append hat

/-! ### Sources that are reached -/

/-- The path of a place below the directory with a path. -/
def pathTo (path : String) (place : Place) : String :=
  place.foldl Text.Path.join path

/-- The directories on the way to a place below the directory with a path have paths that are short enough. -/
def Reached (path : String) (place : Place) : Prop :=
  ∀ above next rest, place = above ++ next :: rest → (pathTo path above).utf8ByteSize ≤ maxPathSize

/-- All directories of a tree have paths that are short enough. -/
def Readable (path : String) (n : Node) : Prop :=
  ∀ place entries, n.at? place = some (.directory entries) → (pathTo path place).utf8ByteSize ≤ maxPathSize

/-- The places of the Kotlin sources that are reached below the node with a path. -/
def reachedSources (path : String) (n : Node) : Set Place :=
  n.sourcePlaces ∩ {place | Reached path place}

/-- The same for a node with a name in the directory with a path. -/
def reachedFrom (path name : String) (n : Node) : Set Place :=
  n.sourcePlacesFrom name ∩ {place | Reached (Text.Path.join path name) place}

variable {path : String}

theorem encard_reachedSources_le (path : String) (n : Node) :
    (n.reachedSources path).encard ≤ n.sourcePlaces.encard :=
  Set.encard_le_encard Set.inter_subset_left

@[simp] theorem reached_nil (path : String) : Reached path [] := by
  intro above next rest h
  cases above <;> cases h

theorem reached_cons_iff {rest : Place} (hpath : path.utf8ByteSize ≤ maxPathSize) :
    Reached path (name :: rest) ↔ Reached (Text.Path.join path name) rest := by
  constructor
  · rintro h above next more rfl
    exact h (name :: above) next more rfl
  · intro h above next more hrest
    cases above with
    | nil => exact hpath
    | cons k above =>
      obtain ⟨rfl, rfl⟩ := List.cons.inj hrest
      exact h above next more rfl

theorem readable_file (path : String) (content : ByteArray) : (file content).Readable path := by
  intro place entries h
  cases place <;> cases h

theorem readable_link (path target : String) : (link target).Readable path := by
  intro place entries h
  cases place <;> cases h

theorem readable_directory_nil (hpath : path.utf8ByteSize ≤ maxPathSize) : (directory []).Readable path := by
  intro place entries h
  cases place with
  | nil => exact hpath
  | cons k rest => cases h

/-- One more entry in a directory that can be read. -/
theorem Readable.cons (h : (directory entries).Readable path) (hn : n.Readable (Text.Path.join path name)) :
    (directory ((name, n) :: entries)).Readable path := by
  intro place es hes
  cases place with
  | nil => exact h [] entries rfl
  | cons k rest =>
    by_cases hk : k = name
    · subst hk
      rw [at?_cons_self] at hes
      exact hn rest es hes
    · rw [at?_cons_of_ne hk] at hes
      exact h (k :: rest) es hes

/-- Nothing is reached below a directory whose path is too long. -/
theorem reachedFrom_directory_of_lt (h : maxPathSize < (Text.Path.join path name).utf8ByteSize) :
    (directory entries).reachedFrom path name = ∅ := by
  ext place
  refine iff_of_false ?_ (Set.notMem_empty place)
  rintro ⟨hsource, hreached⟩
  rw [sourcePlacesFrom_directory] at hsource
  cases place with
  | nil => exact notMem_sourcePlaces_nil hsource
  | cons k rest => exact Nat.not_le.mpr h (hreached [] k rest rfl)

theorem reachedSources_directory_cons (hpath : path.utf8ByteSize ≤ maxPathSize) (h : name ∉ entries.map Prod.fst) :
    (directory ((name, n) :: entries)).reachedSources path =
      List.cons name '' n.reachedFrom path name ∪ (directory entries).reachedSources path := by
  have hbelow : Set.preimage (List.cons name) {place | Reached path place} =
      {rest | Reached (Text.Path.join path name) rest} := Set.ext fun rest => reached_cons_iff hpath
  rw [reachedSources, sourcePlaces_directory_cons h, Set.union_inter_distrib_right, reachedFrom, ← hbelow,
    Set.image_inter_preimage, reachedSources]

mutual

/-- A node with a name is counted with all that is reached below it. -/
theorem encard_reachedFrom (path name : String) :
    (n : Node) → n.Tidy → (n.reachedFrom path name).encard = n.kotlinSources path name
  | file content, _ => by
    rw [reachedFrom, sourcePlacesFrom_file, kotlinSources]
    by_cases h : isKotlinSource name = true
    · simp [h, isKotlinSource_iff.mp h]
    · simp [h, mt isKotlinSource_iff.mpr h]
  | directory entries, h => by
    rw [kotlinSources]
    split
    · rename_i hlong
      rw [reachedFrom_directory_of_lt hlong, Set.encard_empty, Nat.cast_zero]
    · rename_i hshort
      rw [reachedFrom, sourcePlacesFrom_directory]
      exact encard_reachedSources (Nat.not_lt.mp hshort) entries (tidy_directory_iff.mp h)
  | link target, _ => by simp [reachedFrom, sourcePlacesFrom_link, kotlinSources]

/-- The number of sources that are found in a directory is the number of the places that are reached. -/
theorem encard_reachedSources {path : String} (hpath : path.utf8ByteSize ≤ maxPathSize) :
    (entries : List (String × Node)) → TidyEntries entries →
      ((directory entries).reachedSources path).encard = kotlinSourcesIn path entries
  | [], _ => by simp [reachedSources, sourcePlaces_directory_nil, kotlinSourcesIn]
  | (name, n) :: entries, h => by
    obtain ⟨hname, hn, hentries⟩ := tidyEntries_cons_iff.mp h
    have hdisjoint : Disjoint (List.cons name '' n.reachedFrom path name) ((directory entries).reachedSources path) :=
      (disjoint_sourcePlaces hname _).mono_right Set.inter_subset_left
    rw [reachedSources_directory_cons hpath hname, Set.encard_union_eq hdisjoint, List.cons_injective.encard_image,
      encard_reachedFrom path name n hn, encard_reachedSources hpath entries hentries, kotlinSourcesIn, Nat.cast_add]

end

/-- All sources of a tree are reached if all its directories can be opened. -/
theorem Readable.reachedSources_eq (h : n.Readable path) : n.reachedSources path = n.sourcePlaces := by
  refine Set.inter_eq_left.mpr fun place hplace above next rest hsplit => ?_
  obtain ⟨entries, hat⟩ := directory_of_mem_sourcePlaces hplace hsplit
  exact h above entries hat

end Node

/-! ### Machines -/

namespace Machine

variable {m : Machine}

theorem at?_of_node? {path : String} {place : Place} {n : Node} (h : m.node? path = .ok (place, n)) :
    m.root.at? place = some n := by
  unfold node? at h
  split at h
  · cases h
  · cases h
  · split at h
    · rename_i hat
      cases h
      exact hat
    · rename_i hat
      split at h
      · cases h
      · cases h
        exact hat
    · cases h

/-- A path that leads to a node is not too long. -/
theorem size_of_node? {path : String} {place : Place} {n : Node} (h : m.node? path = .ok (place, n)) :
    path.utf8ByteSize ≤ maxPathSize := by
  cases ht : m.target path with
  | error e => simp [node?, ht] at h
  | ok t => exact (follow_eq_ok_iff.mp ht).1.2

/-- The sources in a directory that a path leads to are counted exactly, as far as they are reached. -/
theorem encard_reachedSources_of_node? {path : String} {place : Place} {entries : List (String × Node)}
    (h : m.node? path = .ok (place, .directory entries)) :
    ((Node.directory entries).reachedSources path).encard = m.kotlinSources path := by
  have htidy : Node.TidyEntries entries := Node.tidy_directory_iff.mp (m.tidy.at? (at?_of_node? h))
  rw [Node.encard_reachedSources (size_of_node? h) entries htidy, kotlinSources, h]

end Machine

end SurfaceRegistry.Disk
