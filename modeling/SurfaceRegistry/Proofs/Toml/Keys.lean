import Mathlib.Data.List.Nodup
import SurfaceRegistry.Toml.Document

/-!
# Every key once

A document that is read has no key twice in its table (`nodup_keys_of_parse?`). All that is done to a table while
the document is read goes through `changeEntry`, and this either changes what a key leads to or puts a new key
behind the others (`keys_changeEntry`).
-/

namespace SurfaceRegistry.Toml

/-- The keys of a table. -/
def keys {α : Type} (entries : List (String × α)) : List String :=
  entries.map Prod.fst

variable {α : Type} {name : String}

/-! ### Looking up -/

/-- In a table without repeated keys, looking up a key finds its only entry. -/
theorem lookup_eq_some_iff_mem {entries : List (String × α)} (hn : (keys entries).Nodup) {a : α} :
    entries.lookup name = some a ↔ (name, a) ∈ entries := by
  induction entries with
  | nil => simp
  | cons e r ih =>
    obtain ⟨key, b⟩ := e
    obtain ⟨hkey, hr⟩ := List.nodup_cons.mp hn
    by_cases hname : name = key
    · subst hname
      have hnot : (name, a) ∉ r := fun h =>
        hkey (List.mem_map.mpr ⟨(name, a), h, rfl⟩)
      simp [hnot, eq_comm]
    · have hne : (name == key) = false := by simpa using hname
      simp [List.lookup_cons, hne, ih hr, hname]

theorem lookup_eq_none_iff_notMem_keys {entries : List (String × α)} :
    entries.lookup name = none ↔ name ∉ keys entries := by
  simp only [List.lookup_eq_none_iff, keys, List.mem_map, not_exists, not_and, bne_iff_ne]
  exact ⟨fun h e he heq => h e he heq.symm, fun h e he heq => h e he heq.symm⟩

theorem lookup_perm {entries entries' : List (String × α)} (hn : (keys entries).Nodup)
    (h : entries.Perm entries') (name : String) : entries.lookup name = entries'.lookup name := by
  apply Option.ext
  intro a
  rw [lookup_eq_some_iff_mem hn, lookup_eq_some_iff_mem ((h.map Prod.fst).nodup hn), h.mem_iff]

/-! ### Changes -/

/-- A change of one entry leaves the keys as they are, or adds a new one at the end. -/
theorem keys_changeEntry {f : Option Node → Option Node} {es es' : Entries}
    (h : changeEntry name f es = some es') :
    keys es' = keys es ∨ name ∉ keys es ∧ keys es' = keys es ++ [name] := by
  induction es generalizing es' with
  | nil =>
    obtain ⟨n, -, rfl⟩ := Option.map_eq_some_iff.mp h
    exact .inr ⟨List.not_mem_nil, rfl⟩
  | cons e r ih =>
    obtain ⟨k, n⟩ := e
    rw [changeEntry] at h
    split at h
    · obtain ⟨m, -, rfl⟩ := Option.map_eq_some_iff.mp h
      exact .inl rfl
    · rename_i hk
      obtain ⟨r', hr', rfl⟩ := Option.map_eq_some_iff.mp h
      rcases ih hr' with hsame | ⟨hnew, hadded⟩
      · exact .inl (congrArg (k :: ·) hsame)
      · refine .inr ⟨?_, congrArg (k :: ·) hadded⟩
        exact List.not_mem_cons_of_ne_of_not_mem (Ne.symm hk) hnew

/-- A change after which no key is there twice if none was before. -/
def KeepsKeysApart (change : Change) : Prop :=
  ∀ es es', change es = some es' → (keys es).Nodup → (keys es').Nodup

theorem keepsKeysApart_changeEntry (name : String) (f : Option Node → Option Node) :
    KeepsKeysApart (changeEntry name f) := by
  intro es es' h hn
  rcases keys_changeEntry h with hsame | ⟨hnew, hadded⟩
  · rwa [hsame]
  · rw [hadded, List.nodup_append]
    refine ⟨hn, List.nodup_singleton name, ?_⟩
    rintro k hk _ hname rfl
    exact hnew (List.mem_singleton.mp hname ▸ hk)

theorem keepsKeysApart_addDotted (path : List String) (name : String) (v : Value) :
    KeepsKeysApart (addDotted path name v) := by
  cases path with
  | nil => exact keepsKeysApart_changeEntry _ _
  | cons word path => exact keepsKeysApart_changeEntry _ _

theorem keepsKeysApart_changeAt {f : Change} (hf : KeepsKeysApart f) (path : List String) :
    KeepsKeysApart (changeAt f path) := by
  cases path with
  | nil => exact hf
  | cons word path => exact keepsKeysApart_changeEntry _ _

theorem keepsKeysApart_addAll (content : List (Key × Value)) : KeepsKeysApart (addAll content) := by
  induction content with
  | nil =>
    intro es es' h hn
    cases h
    exact hn
  | cons e r ih =>
    intro es es' h hn
    obtain ⟨es₁, hes₁, h⟩ := Option.bind_eq_some_iff.mp h
    exact ih es₁ es' h (keepsKeysApart_addDotted _ _ _ es es₁ hes₁ hn)

/-! ### Documents -/

/-- Whatever stands below a header is added with all keys apart. -/
theorem keepsKeysApart_of_mem_sections {lines : List Line} {s : Section} (h : s ∈ (sections lines).2) :
    KeepsKeysApart (s.change s.content) := by
  induction lines with
  | nil => cases h
  | cons line r ih =>
    cases line with
    | entry k v => exact ih h
    | tableHeader k =>
      rcases List.mem_cons.mp h with rfl | h
      · exact keepsKeysApart_changeAt (keepsKeysApart_changeEntry _ _) _
      · exact ih h
    | elementHeader k =>
      rcases List.mem_cons.mp h with rfl | h
      · exact keepsKeysApart_changeAt (keepsKeysApart_changeEntry _ _) _
      · exact ih h

theorem keepsKeysApart_addSections {more : List Section}
    (h : ∀ s ∈ more, KeepsKeysApart (s.change s.content)) : KeepsKeysApart (addSections more) := by
  induction more with
  | nil =>
    intro es es' hes' hn
    cases hes'
    exact hn
  | cons s r ih =>
    obtain ⟨hs, hr⟩ := List.forall_mem_cons.mp h
    intro es es' hes' hn
    obtain ⟨es₁, hes₁, hes'⟩ := Option.bind_eq_some_iff.mp hes'
    exact ih hr es₁ es' hes' (hs es es₁ hes₁ hn)

theorem keys_toTable (es : Entries) : keys (toTable es) = keys es := by
  induction es with
  | nil => rfl
  | cons e r ih => exact congrArg (e.1 :: ·) ih

theorem nodup_keys_of_tableOfLines {lines : List Line} {t : Table} (h : tableOfLines lines = some t) :
    (keys t).Nodup := by
  obtain ⟨es₁, hes₁, h⟩ := Option.bind_eq_some_iff.mp h
  obtain ⟨es₂, hes₂, h⟩ := Option.bind_eq_some_iff.mp h
  cases h
  rw [keys_toTable]
  refine keepsKeysApart_addSections (fun s hs => keepsKeysApart_of_mem_sections hs) es₁ es₂ hes₂ ?_
  exact keepsKeysApart_addAll _ [] es₁ hes₁ List.nodup_nil

/-- No key is in the table of a document twice. -/
theorem nodup_keys_of_parse? {document : String} {t : Table} (h : parse? document = some t) :
    (keys t).Nodup := by
  obtain ⟨lines, -, h⟩ := Option.bind_eq_some_iff.mp h
  exact nodup_keys_of_tableOfLines h

end SurfaceRegistry.Toml
