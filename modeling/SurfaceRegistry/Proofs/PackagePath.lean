import SurfaceRegistry.PackagePath
import SurfaceRegistry.Failure
import SurfaceRegistry.Proofs.Text.Split

/-!
# Reading identifiers and packages

No separator is part of an identifier, so that segments are read one by one: they are the identifiers
that spell them (`Identifier.readAll_eq_ok_iff`). A text is read as the package with this text
(`PackagePath.parse_eq_ok_iff`).
-/

namespace SurfaceRegistry

/-! ### Identifiers -/

theorem isIdentifier_iff {s : List Char} :
    isIdentifier s = true ↔
      ∃ c r, s = c :: r ∧ (Text.isAlphabetic c = true ∨ c = '_') ∧
        ∀ d ∈ r, Text.isAlphanumeric d = true ∨ d = '_' := by
  cases s with
  | nil => simp [isIdentifier]
  | cons c r => simp [isIdentifier]

namespace Identifier

theorem chars_ne_nil (i : Identifier) : i.chars ≠ [] := by
  obtain ⟨c, r, hi, -⟩ := isIdentifier_iff.mp i.valid
  rw [hi]
  exact List.cons_ne_nil c r

theorem isAlphanumeric_of_mem {i : Identifier} {c : Char} (h : c ∈ i.chars) :
    Text.isAlphanumeric c = true ∨ c = '_' := by
  obtain ⟨d, r, hi, hd, hr⟩ := isIdentifier_iff.mp i.valid
  rw [hi] at h
  rcases List.mem_cons.mp h with rfl | h
  · rw [Text.isAlphanumeric, Bool.or_eq_true]
    exact hd.imp_left .inl
  · exact hr c h

/-- A character that is neither alphanumeric nor an underscore is in no identifier. -/
theorem notMem_chars {c : Char} (h : Text.isAlphanumeric c = false) (hc : c ≠ '_') (i : Identifier) :
    c ∉ i.chars := by
  intro hi
  rcases isAlphanumeric_of_mem hi with h' | h'
  · rw [h] at h'
    cases h'
  · exact hc h'

theorem slash_notMem (i : Identifier) : '/' ∉ i.chars :=
  notMem_chars (by decide +kernel) (by decide) i

theorem point_notMem (i : Identifier) : '.' ∉ i.chars :=
  notMem_chars (by decide +kernel) (by decide) i

theorem dollar_notMem (i : Identifier) : '$' ∉ i.chars :=
  notMem_chars (by decide +kernel) (by decide) i

/-- What no identifier holds is in none of the segments that identifiers spell. -/
theorem notMem_of_mem_map {c : Char} (hc : ∀ i : Identifier, c ∉ i.chars) {is : List Identifier} :
    ∀ s ∈ is.map chars, c ∉ s := by
  intro s hs
  obtain ⟨i, -, rfl⟩ := List.mem_map.mp hs
  exact hc i

/-! ### Segments -/

@[simp] theorem read_chars (position : Nat) (i : Identifier) : read position i.chars = .ok i :=
  dif_pos i.valid

theorem read_eq_ok_iff {position : Nat} {s : List Char} {i : Identifier} :
    read position s = .ok i ↔ s = i.chars := by
  constructor
  · intro h
    unfold read at h
    split at h
    · cases h
      rfl
    · split at h <;> cases h
  · rintro rfl
    exact read_chars position i

@[simp] theorem readAll_chars (position : Nat) (is : List Identifier) :
    readAll position (is.map chars) = .ok is := by
  induction is generalizing position with
  | nil => rfl
  | cons i is ih =>
    rw [List.map_cons, readAll, read_chars, ih]
    rfl

theorem readAll_eq_ok_iff {position : Nat} {ss : List (List Char)} {is : List Identifier} :
    readAll position ss = .ok is ↔ ss = is.map chars := by
  constructor
  · intro h
    induction ss generalizing position is with
    | nil =>
      cases h
      rfl
    | cons s ss ih =>
      obtain ⟨i, hi, h⟩ := exists_of_bind_eq_ok h
      obtain ⟨js, hjs, h⟩ := exists_of_bind_eq_ok h
      cases h
      rw [List.map_cons, read_eq_ok_iff.mp hi, ih hjs]
  · rintro rfl
    exact readAll_chars position is

end Identifier

/-! ### Packages -/

namespace PackagePath

theorem readPieces_eq_ok_iff {s : List Char} {p : PackagePath} :
    readPieces s = .ok p ↔ Text.splitAt '/' s = p.segments.map Identifier.chars := by
  constructor
  · intro h
    obtain ⟨first, hf, h⟩ := exists_of_bind_eq_ok h
    obtain ⟨more, hm, h⟩ := exists_of_bind_eq_ok h
    cases h
    rw [Text.splitAt, Identifier.read_eq_ok_iff.mp hf, Identifier.readAll_eq_ok_iff.mp hm]
    rfl
  · intro h
    obtain ⟨segments, hne⟩ := p
    cases segments with
    | nil => exact absurd rfl hne
    | cons first more =>
      unfold readPieces
      simp only [Text.pieces_of_splitAt h, Identifier.read_chars]
      rw [Identifier.readAll_chars]
      rfl

theorem text_toList (p : PackagePath) :
    p.text.toList = Text.joinWith '/' (p.segments.map Identifier.chars) :=
  String.toList_ofList

theorem text_toList_ne_nil (p : PackagePath) : p.text.toList ≠ [] := by
  obtain ⟨segments, hne⟩ := p
  cases segments with
  | nil => exact absurd rfl hne
  | cons first more =>
    rw [text_toList, List.map_cons, Text.joinWith_cons_eq_flatMap]
    exact List.append_ne_nil_of_left_ne_nil first.chars_ne_nil _

/-- A text is read as the package with this text. -/
theorem parse_eq_ok_iff {s : String} {p : PackagePath} : parse s = .ok p ↔ p.text = s := by
  have hsplit : Text.splitAt '/' s.toList = p.segments.map Identifier.chars ↔ p.text = s := by
    rw [Text.eq_splitAt_iff (fun h => p.segments_ne_nil (List.map_eq_nil_iff.mp h))
      (Identifier.notMem_of_mem_map Identifier.slash_notMem), ← text_toList, String.toList_inj, eq_comm]
  rw [← hsplit, ← readPieces_eq_ok_iff, parse]
  by_cases hs : s.toList = []
  · rw [hs, if_pos List.isEmpty_nil]
    refine iff_of_false (fun h => by cases h) (fun h => ?_)
    exact p.text_toList_ne_nil ((hsplit.mp (hs ▸ readPieces_eq_ok_iff.mp h)) ▸ hs)
  · rw [if_neg (by simpa using hs)]
    cases readPieces s.toList with
    | error e => exact iff_of_false (fun h => by cases h) (fun h => by cases h)
    | ok q => exact ⟨fun h => by cases h; rfl, fun h => by cases h; rfl⟩

end PackagePath

end SurfaceRegistry
