import SurfaceRegistry.Proofs.Segments
import SurfaceRegistry.TypeName

/-!
# What is wrong with a name

A text with a point has segments: those of the package, which is all before the last point, and those of the types after
it. They are numbered through, and though they are separated by points in one part and by dollar signs in the other,
reading the two parts is reading one list of segments (`TypeName.readAll_segments`). So the text is a type name if all
of them are identifiers, and otherwise the error is about the first that is none (`TypeName.parse_first_fault`).
-/

namespace SurfaceRegistry.TypeName

variable {s : String} {package types : List Char}

/-! ### Segments -/

/-- The segments of a text: those before its last point, with points between them, and those after it, with dollar signs
between them. -/
def HasSegments (s : String) (segments : List (List Char)) : Prop :=
  ∃ package types, s.toList = package ++ '.' :: types ∧ '.' ∉ types ∧
    segments = Text.splitAt '.' package ++ Text.splitAt '$' types

/-- Every text with a point has segments, and only one list of them. -/
theorem existsUnique_hasSegments (h : '.' ∈ s.toList) : ∃! segments, HasSegments s segments := by
  cases hsplit : Text.splitLast '.' s.toList with
  | none => exact absurd h (Text.splitLast_eq_none_iff.mp hsplit)
  | some parts =>
    obtain ⟨package, types⟩ := parts
    obtain ⟨hs, htypes⟩ := Text.splitLast_eq_some_iff.mp hsplit
    refine ⟨_, ⟨package, types, hs, htypes, rfl⟩, ?_⟩
    rintro segments ⟨package', types', hs', htypes', rfl⟩
    have hsame := (Text.splitLast_eq_some_iff.mpr ⟨hs', htypes'⟩).symm.trans hsplit
    obtain ⟨rfl, rfl⟩ := Prod.mk.inj (Option.some.inj hsame)
    rfl

/-- All identifiers of a name, from the left. -/
def identifiers (t : TypeName) : List Identifier :=
  t.packageSegments ++ t.outer :: t.nested

/-- Reading a package and types is reading one list of segments. -/
theorem readAll_segments (package types : List Char) :
    Identifier.readAll 0 (Text.splitAt '.' package ++ Text.splitAt '$' types) =
      (readParts package types).map identifiers := by
  rcases hp : Text.pieces '.' package with ⟨p, ps⟩
  rcases ht : Text.pieces '$' types with ⟨t, ts⟩
  unfold readParts
  simp only [Text.splitAt, hp, ht, Identifier.readAll_append, Identifier.readAll, List.length_cons, Nat.zero_add]
  cases Identifier.read 0 p with
  | error e => rfl
  | ok first =>
    cases Identifier.readAll 1 ps with
    | error e => rfl
    | ok more =>
      cases Identifier.read (ps.length + 1) t with
      | error e => rfl
      | ok outer =>
        cases Identifier.readAll (ps.length + 2) ts with
        | error e => rfl
        | ok nested => rfl

/-! ### Errors -/

theorem parse_of_empty : parse "" = .error .empty := rfl

theorem parse_of_notMem (hne : s ≠ "") (h : '.' ∉ s.toList) : parse s = .error (.missingPackage s) := by
  rw [parse, if_neg (by simpa using hne), Text.splitLast_eq_none_iff.mpr h]

theorem parse_of_parts (hs : s.toList = package ++ '.' :: types) (h : '.' ∉ types) :
    parse s = (readParts package types).mapError (TypeNameError.ofSegment s) := by
  have hne : s.toList.isEmpty = false := by simp [hs]
  rw [parse, hne, Text.splitLast_eq_some_iff.mpr ⟨hs, h⟩]
  rfl

theorem ofSegment_ne_empty {fault : SegmentFault} : TypeNameError.ofSegment s fault ≠ .empty := by
  cases fault <;> simp [TypeNameError.ofSegment]

theorem ofSegment_ne_missingPackage {fault : SegmentFault} {name : String} :
    TypeNameError.ofSegment s fault ≠ .missingPackage name := by
  cases fault <;> simp [TypeNameError.ofSegment]

theorem ofSegment_eq_emptySegment_iff {fault : SegmentFault} {name : String} {i : Nat} :
    TypeNameError.ofSegment s fault = .emptySegment name i ↔ name = s ∧ fault = .empty i := by
  cases fault <;> simp [TypeNameError.ofSegment, eq_comm]

theorem ofSegment_eq_invalidSegment_iff {fault : SegmentFault} {name g : String} :
    TypeNameError.ofSegment s fault = .invalidSegment name g ↔ name = s ∧ fault = .invalid g := by
  cases fault <;> simp [TypeNameError.ofSegment, eq_comm]

/-- How a text with segments is read. -/
theorem parse_cases {segments : List (List Char)} (h : HasSegments s segments) :
    (∃ t, parse s = .ok t ∧ ∀ g ∈ segments, isIdentifier g = true) ∨
      ∃ i g, FirstFault segments i g ∧ parse s = .error (.ofSegment s (.of i g)) := by
  obtain ⟨package, types, hs, htypes, rfl⟩ := h
  rw [parse_of_parts hs htypes]
  have hread := readAll_segments package types
  cases hparts : readParts package types with
  | ok t =>
    rw [hparts] at hread
    exact .inl ⟨t, rfl, Identifier.exists_readAll_iff.mp ⟨_, hread⟩⟩
  | error e =>
    rw [hparts] at hread
    obtain ⟨i, g, hfault, rfl⟩ := Identifier.readAll_eq_error_iff.mp hread
    rw [Nat.zero_add]
    exact .inr ⟨i, g, hfault, rfl⟩

/-- With a point in a text, all its errors are about segments. -/
theorem parse_of_mem (h : '.' ∈ s.toList) :
    (∃ t, parse s = .ok t) ∨ ∃ fault, parse s = .error (.ofSegment s fault) := by
  obtain ⟨segments, hsegments, -⟩ := existsUnique_hasSegments h
  rcases parse_cases hsegments with ⟨t, ht, -⟩ | ⟨i, g, -, he⟩
  · exact .inl ⟨t, ht⟩
  · exact .inr ⟨_, he⟩

theorem parse_eq_empty_iff : parse s = .error .empty ↔ s = "" := by
  constructor
  · intro h
    by_contra hne
    by_cases hpoint : '.' ∈ s.toList
    · rcases parse_of_mem hpoint with ⟨t, ht⟩ | ⟨fault, he⟩
      · rw [ht] at h
        cases h
      · rw [he] at h
        exact ofSegment_ne_empty (Except.error.inj h)
    · rw [parse_of_notMem hne hpoint] at h
      cases h
  · rintro rfl
    exact parse_of_empty

theorem parse_eq_missingPackage_iff {name : String} :
    parse s = .error (.missingPackage name) ↔ name = s ∧ s ≠ "" ∧ '.' ∉ s.toList := by
  constructor
  · intro h
    have hne : s ≠ "" := by
      rintro rfl
      rw [parse_of_empty] at h
      cases h
    by_cases hpoint : '.' ∈ s.toList
    · rcases parse_of_mem hpoint with ⟨t, ht⟩ | ⟨fault, he⟩
      · rw [ht] at h
        cases h
      · rw [he] at h
        exact absurd (Except.error.inj h) ofSegment_ne_missingPackage
    · rw [parse_of_notMem hne hpoint] at h
      cases h
      exact ⟨rfl, hne, hpoint⟩
  · rintro ⟨rfl, hne, hpoint⟩
    exact parse_of_notMem hne hpoint

section Segments

variable {segments : List (List Char)} {name : String}

theorem exists_parse_iff (h : HasSegments s segments) :
    (∃ t, parse s = .ok t) ↔ ∀ g ∈ segments, isIdentifier g = true := by
  rcases parse_cases h with ⟨t, ht, hvalid⟩ | ⟨i, g, hfault, he⟩
  · exact iff_of_true ⟨t, ht⟩ hvalid
  · rw [he]
    refine iff_of_false ?_ fun hvalid => FirstFault.not_of_valid hvalid hfault
    rintro ⟨t, ht⟩
    cases ht

theorem parse_eq_emptySegment_iff (h : HasSegments s segments) {i : Nat} :
    parse s = .error (.emptySegment name i) ↔ name = s ∧ FirstFault segments i [] := by
  rcases parse_cases h with ⟨t, ht, hvalid⟩ | ⟨j, g, hfault, he⟩
  · rw [ht]
    exact iff_of_false (fun h => by cases h) fun h => FirstFault.not_of_valid hvalid h.2
  · rw [he, Except.error.injEq, ofSegment_eq_emptySegment_iff, SegmentFault.of_eq_empty_iff, hfault.iff_eq,
      eq_comm (a := j), eq_comm (a := g)]

theorem parse_eq_invalidSegment_iff (h : HasSegments s segments) {g : String} :
    parse s = .error (.invalidSegment name g) ↔ name = s ∧ g ≠ "" ∧ ∃ i, FirstFault segments i g.toList := by
  rcases parse_cases h with ⟨t, ht, hvalid⟩ | ⟨j, k, hfault, he⟩
  · rw [ht]
    refine iff_of_false (fun h => by cases h) ?_
    rintro ⟨-, -, i, h⟩
    exact FirstFault.not_of_valid hvalid h
  · rw [he, Except.error.injEq, ofSegment_eq_invalidSegment_iff, SegmentFault.of_eq_invalid_iff]
    simp [hfault.iff_eq, eq_comm]

end Segments

/-- A text that is no type name has one error. It is empty, or it has no point, or it has segments of which at least one
is no identifier; then the error is about the first of these, and tells where it stands if it is empty. All errors but
the first tell the text. -/
theorem parse_first_fault (s : String) :
    (parse s = .error .empty ↔ s = "") ∧
    (∀ name, parse s = .error (.missingPackage name) ↔ name = s ∧ s ≠ "" ∧ '.' ∉ s.toList) ∧
    ('.' ∈ s.toList → ∃! segments, HasSegments s segments) ∧
    ∀ segments, HasSegments s segments →
      ((∃ t, parse s = .ok t) ↔ ∀ g ∈ segments, isIdentifier g = true) ∧
      (∀ name i, parse s = .error (.emptySegment name i) ↔ name = s ∧ FirstFault segments i []) ∧
      ∀ name g, parse s = .error (.invalidSegment name g) ↔
        name = s ∧ g ≠ "" ∧ ∃ i, FirstFault segments i g.toList :=
  ⟨parse_eq_empty_iff, fun _ => parse_eq_missingPackage_iff, existsUnique_hasSegments, fun _ h =>
    ⟨exists_parse_iff h, fun _ _ => parse_eq_emptySegment_iff h, fun _ _ => parse_eq_invalidSegment_iff h⟩⟩

/-- A dollar sign is no separator before the last point, and what is behind the first fault is not told. -/
theorem parse_first_fault_of_several :
    HasSegments "com$x..y$$" ["com$x".toList, [], "y".toList, [], []] ∧
      parse "com$x..y$$" = .error (.invalidSegment "com$x..y$$" "com$x") ∧
      HasSegments "com.x$$1$y z" ["com".toList, "x".toList, [], "1".toList, "y z".toList] ∧
      parse "com.x$$1$y z" = .error (.emptySegment "com.x$$1$y z" 2) := by
  have hfirst : HasSegments "com$x..y$$" ["com$x".toList, [], "y".toList, [], []] :=
    ⟨"com$x.".toList, "y$$".toList, by decide +kernel, by decide +kernel, by decide +kernel⟩
  have hsecond : HasSegments "com.x$$1$y z" ["com".toList, "x".toList, [], "1".toList, "y z".toList] :=
    ⟨"com".toList, "x$$1$y z".toList, by decide +kernel, by decide +kernel, by decide +kernel⟩
  refine ⟨hfirst, ?_, hsecond, ?_⟩
  · refine (((parse_first_fault _).2.2.2 _ hfirst).2.2 _ _).mpr ⟨rfl, by decide, 0, by decide +kernel, ?_, ?_⟩
    · decide +kernel
    · decide +kernel
  · refine (((parse_first_fault _).2.2.2 _ hsecond).2.1 _ _).mpr ⟨rfl, by decide +kernel, ?_, ?_⟩
    · decide +kernel
    · decide +kernel

end SurfaceRegistry.TypeName
