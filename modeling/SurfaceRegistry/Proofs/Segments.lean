import SurfaceRegistry.Proofs.PackagePath

/-!
# The first fault of a name

Segments are read from the left, and the first one that is no identifier is what is wrong with all of them
(`Identifier.readAll_eq_error_iff`): nothing is said if it is empty but where it stands, and else it is told. Whatever
is right or wrong behind it has no part in this.
-/

namespace SurfaceRegistry

/-! ### The first fault -/

/-- The first of some segments that is no identifier, with its index. -/
structure FirstFault (segments : List (List Char)) (i : Nat) (s : List Char) : Prop where
  /-- The segment is at the index. -/
  getElem?_eq : segments[i]? = some s
  /-- It is no identifier. -/
  invalid : isIdentifier s = false
  /-- All segments before it are identifiers. -/
  valid_before : ∀ t ∈ segments.take i, isIdentifier t = true

namespace FirstFault

variable {segments : List (List Char)} {s t : List Char} {i : Nat}

theorem not_nil : ¬FirstFault [] i s := by
  intro h
  have hi := h.getElem?_eq
  simp at hi

theorem cons_of_valid (ht : isIdentifier t = true) :
    FirstFault (t :: segments) i s ↔ ∃ j, i = j + 1 ∧ FirstFault segments j s := by
  constructor
  · intro h
    cases i with
    | zero =>
      obtain rfl : t = s := Option.some.inj h.getElem?_eq
      exact absurd (ht.symm.trans h.invalid) (by decide)
    | succ j =>
      refine ⟨j, rfl, h.getElem?_eq, h.invalid, fun u hu => h.valid_before u ?_⟩
      rw [List.take_succ_cons]
      exact List.mem_cons_of_mem t hu
  · rintro ⟨j, rfl, h⟩
    refine ⟨h.getElem?_eq, h.invalid, ?_⟩
    rw [List.take_succ_cons]
    exact List.forall_mem_cons.mpr ⟨ht, h.valid_before⟩

theorem cons_of_invalid (ht : isIdentifier t = false) : FirstFault (t :: segments) i s ↔ i = 0 ∧ s = t := by
  constructor
  · intro h
    cases i with
    | zero => exact ⟨rfl, (Option.some.inj h.getElem?_eq).symm⟩
    | succ j =>
      have hvalid := h.valid_before t (by simp)
      exact absurd (hvalid.symm.trans ht) (by decide)
  · rintro ⟨rfl, rfl⟩
    exact ⟨rfl, ht, by simp⟩

theorem not_of_valid (h : ∀ t ∈ segments, isIdentifier t = true) : ¬FirstFault segments i s := by
  intro hfault
  have hs := h s (List.mem_of_getElem? hfault.getElem?_eq)
  exact absurd (hs.symm.trans hfault.invalid) (by decide)

theorem le {j : Nat} (h : FirstFault segments i s) (h' : FirstFault segments j t) : j ≤ i := by
  by_contra hlt
  have hs : s ∈ segments.take j :=
    List.mem_of_getElem? (i := i) (by rw [List.getElem?_take_of_lt (by omega), h.getElem?_eq])
  exact absurd ((h'.valid_before s hs).symm.trans h.invalid) (by decide)

/-- There is at most one first fault. -/
theorem iff_eq (h : FirstFault segments i s) {j : Nat} : FirstFault segments j t ↔ j = i ∧ t = s := by
  constructor
  · intro h'
    obtain rfl := Nat.le_antisymm (h.le h') (h'.le h)
    exact ⟨rfl, Option.some.inj (h'.getElem?_eq.symm.trans h.getElem?_eq)⟩
  · rintro ⟨rfl, rfl⟩
    exact h

end FirstFault

/-! ### Reading segments -/

/-- The fault of a segment at a position that is no identifier. -/
def SegmentFault.of (position : Nat) (s : List Char) : SegmentFault :=
  if s.isEmpty then .empty position else .invalid (String.ofList s)

theorem SegmentFault.of_eq_empty_iff {position q : Nat} {s : List Char} :
    of position s = .empty q ↔ position = q ∧ s = [] := by
  unfold of
  by_cases h : s = []
  · simp [h]
  · simp [h]

theorem SegmentFault.of_eq_invalid_iff {position : Nat} {s : List Char} {g : String} :
    of position s = .invalid g ↔ g ≠ "" ∧ s = g.toList := by
  have hg : g = "" ↔ g.toList = [] := by simp
  unfold of
  by_cases h : s = []
  · rw [h]
    refine iff_of_false (by simp) ?_
    rintro ⟨hne, hs⟩
    exact hne (hg.mpr hs.symm)
  · have hofList : String.ofList s = g ↔ s = g.toList := by
      rw [← String.toList_inj, String.toList_ofList]
    simp only [List.isEmpty_iff, if_neg h, SegmentFault.invalid.injEq, hofList]
    refine ⟨fun hs => ⟨fun hempty => h ?_, hs⟩, And.right⟩
    rw [hs, hg.mp hempty]

namespace Identifier

variable {position : Nat} {e : SegmentFault}

theorem read_eq_error_iff {s : List Char} :
    read position s = .error e ↔ isIdentifier s = false ∧ .of position s = e := by
  unfold read
  by_cases h : isIdentifier s = true
  · simp [h]
  · rw [dif_neg h, SegmentFault.of]
    split
    · simp [h]
    · simp [h]

/-- Segments have the fault of the first of them that is no identifier. -/
theorem readAll_eq_error_iff {segments : List (List Char)} :
    readAll position segments = .error e ↔ ∃ i s, FirstFault segments i s ∧ .of (position + i) s = e := by
  induction segments generalizing position with
  | nil =>
    refine iff_of_false (fun h => by cases h) ?_
    rintro ⟨i, s, h, -⟩
    exact FirstFault.not_nil h
  | cons t segments ih =>
    rw [readAll]
    by_cases ht : isIdentifier t = true
    · have hread : read position t = .ok ⟨t, ht⟩ := dif_pos ht
      have hrest : (do let i ← read position t; let is ← readAll (position + 1) segments; pure (i :: is)) =
          .error e ↔ readAll (position + 1) segments = .error e := by
        rw [hread]
        cases readAll (position + 1) segments with
        | ok is => exact iff_of_false (fun h => by cases h) (fun h => by cases h)
        | error e' => exact ⟨fun h => by cases h; rfl, fun h => by cases h; rfl⟩
      rw [hrest, ih]
      constructor
      · rintro ⟨i, s, h, he⟩
        refine ⟨i + 1, s, (FirstFault.cons_of_valid ht).mpr ⟨i, rfl, h⟩, ?_⟩
        rwa [Nat.add_comm i 1, ← Nat.add_assoc]
      · rintro ⟨i, s, h, he⟩
        obtain ⟨j, rfl, hj⟩ := (FirstFault.cons_of_valid ht).mp h
        refine ⟨j, s, hj, ?_⟩
        rwa [Nat.add_assoc, Nat.add_comm 1 j]
    · rw [Bool.not_eq_true] at ht
      obtain ⟨e', he'⟩ : ∃ e', read position t = .error e' := ⟨_, read_eq_error_iff.mpr ⟨ht, rfl⟩⟩
      have hof : SegmentFault.of position t = e' := (read_eq_error_iff.mp he').2
      rw [he']
      constructor
      · intro h
        cases h
        exact ⟨0, t, (FirstFault.cons_of_invalid ht).mpr ⟨rfl, rfl⟩, hof⟩
      · rintro ⟨i, s, h, he⟩
        obtain ⟨rfl, rfl⟩ := (FirstFault.cons_of_invalid ht).mp h
        rw [Nat.add_zero, hof] at he
        rw [he]
        rfl

/-- Segments are read if all of them are identifiers. -/
theorem exists_readAll_iff {segments : List (List Char)} :
    (∃ is, readAll position segments = .ok is) ↔ ∀ s ∈ segments, isIdentifier s = true := by
  constructor
  · rintro ⟨is, h⟩ s hs
    rw [readAll_eq_ok_iff.mp h] at hs
    obtain ⟨i, -, rfl⟩ := List.mem_map.mp hs
    exact i.valid
  · intro h
    cases hread : readAll position segments with
    | ok is => exact ⟨is, rfl⟩
    | error e =>
      obtain ⟨i, s, hfault, -⟩ := readAll_eq_error_iff.mp hread
      exact absurd hfault (FirstFault.not_of_valid h)

/-- Segments and more segments are read one after the other. -/
theorem readAll_append (position : Nat) (a b : List (List Char)) :
    readAll position (a ++ b) =
      (do let is ← readAll position a; let js ← readAll (position + a.length) b; pure (is ++ js)) := by
  induction a generalizing position with
  | nil =>
    rw [List.nil_append, readAll, List.length_nil, Nat.add_zero]
    cases readAll position b with
    | ok js => rfl
    | error e => rfl
  | cons s a ih =>
    rw [List.cons_append, readAll, readAll, ih, List.length_cons, Nat.add_assoc, Nat.add_comm 1 a.length]
    cases read position s with
    | error e => rfl
    | ok i =>
      cases readAll (position + 1) a with
      | error e => rfl
      | ok is =>
        cases readAll (position + (a.length + 1)) b with
        | error e => rfl
        | ok js => rfl

end Identifier

end SurfaceRegistry
