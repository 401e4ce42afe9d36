import SurfaceRegistry.Proofs.Segments
import SurfaceRegistry.Proofs.TypeName

/-!
# Packages with slashes and packages with points

A text is a package path if it is identifiers with slashes between them, at least one; else it is empty, or the error
is about the first piece between slashes that is no identifier (`PackagePath.parse_cases`). No identifier holds a slash
or a point, so one separator can be written for the other without a loss. The packages of type names are therefore the
package paths with points in them, and neither reader accepts a package that the other one rejects
(`PackagePath.parse_corresponds`).
-/

namespace SurfaceRegistry

namespace PackagePath

variable {s : String} {p q : PackagePath}

/-! ### Spelling -/

/-- A text that spells a package. -/
structure Spells (s : String) (package : List Identifier) : Prop where
  /-- The package has a segment. -/
  package_ne_nil : package ≠ []
  /-- A slash stands between each segment and the next. -/
  spelling : s.toList = Text.joinWith '/' (package.map Identifier.chars)

/-- What a package path tells of the package that a text spells. -/
structure Tells (p : PackagePath) (s : String) (package : List Identifier) : Prop where
  /-- Its text is the text. -/
  text_eq : p.text = s
  /-- Its segments are those of the package. -/
  segments_eq : p.segments = package
  /-- They are found again between the slashes of the text. -/
  splitAt_eq : Text.splitAt '/' s.toList = package.map Identifier.chars
  /-- The package can be written with points. -/
  dotted_eq : p.dotted = String.ofList (Text.joinWith '.' (package.map Identifier.chars))
  /-- This is the text with points for slashes. -/
  dotted_eq_replaced : p.dotted = String.ofList (Text.replaceChar '/' '.' s.toList)

theorem segments_map_ne_nil (p : PackagePath) : p.segments.map Identifier.chars ≠ [] := by
  intro h
  exact p.segments_ne_nil (List.map_eq_nil_iff.mp h)

theorem splitAt_text (p : PackagePath) : Text.splitAt '/' p.text.toList = p.segments.map Identifier.chars := by
  rw [text_toList]
  exact Text.splitAt_joinWith p.segments_map_ne_nil (Identifier.notMem_of_mem_map Identifier.slash_notMem)

theorem dotted_eq_replaceChar (p : PackagePath) :
    p.dotted = String.ofList (Text.replaceChar '/' '.' p.text.toList) := by
  rw [text_toList, Text.replaceChar_joinWith (Identifier.notMem_of_mem_map Identifier.slash_notMem)]
  rfl

/-- Points for slashes can be taken back. -/
theorem text_eq_replaceChar (p : PackagePath) :
    p.text = String.ofList (Text.replaceChar '.' '/' p.dotted.toList) := by
  have hdotted : p.dotted.toList = Text.joinWith '.' (p.segments.map Identifier.chars) := String.toList_ofList
  rw [hdotted, Text.replaceChar_joinWith (Identifier.notMem_of_mem_map Identifier.point_notMem)]
  rfl

theorem parse_text (p : PackagePath) : parse p.text = .ok p := parse_eq_ok_iff.mpr rfl

/-- A package is told by its spelling with points. -/
theorem dotted_injective : Function.Injective dotted := by
  intro p q h
  have hp := parse_text p
  rw [text_eq_replaceChar, h, ← text_eq_replaceChar, parse_text q] at hp
  exact (Except.ok.inj hp).symm

/-- A text spells the package that is read from it. -/
theorem spells_of_parse (h : parse s = .ok p) : Spells s p.segments := by
  rw [← parse_eq_ok_iff.mp h]
  exact ⟨p.segments_ne_nil, p.text_toList⟩

/-- A text that spells a package is read, and the package is told. -/
theorem Spells.exists_tells {package : List Identifier} (h : Spells s package) :
    ∃ p, parse s = .ok p ∧ p.Tells s package := by
  obtain ⟨hne, hs⟩ := h
  have htext : (⟨package, hne⟩ : PackagePath).text = s := by
    rw [← String.toList_inj, hs]
    exact text_toList _
  refine ⟨_, parse_eq_ok_iff.mpr htext, htext, rfl, ?_, rfl, ?_⟩
  · rw [← htext]
    exact splitAt_text _
  · rw [← htext]
    exact dotted_eq_replaceChar _

/-! ### Errors -/

theorem parse_of_empty : parse "" = .error .empty := rfl

theorem parse_of_ne_empty (hne : s ≠ "") :
    parse s = (readPieces s.toList).mapError (PackagePathError.ofSegment s) := by
  rw [parse, if_neg (by simpa using hne)]

/-- Reading a package is reading the pieces between slashes. -/
theorem readAll_splitAt (s : List Char) :
    Identifier.readAll 0 (Text.splitAt '/' s) = (readPieces s).map PackagePath.segments := by
  rcases hs : Text.pieces '/' s with ⟨first, more⟩
  unfold readPieces
  simp only [Text.splitAt, hs, Identifier.readAll]
  cases Identifier.read 0 first with
  | error e => rfl
  | ok i =>
    cases Identifier.readAll (0 + 1) more with
    | error e => rfl
    | ok is => rfl

/-- How a text is read. -/
theorem parse_cases (hne : s ≠ "") :
    (∃ p, parse s = .ok p ∧ ∀ g ∈ Text.splitAt '/' s.toList, isIdentifier g = true) ∨
      ∃ i g, FirstFault (Text.splitAt '/' s.toList) i g ∧ parse s = .error (.ofSegment s (.of i g)) := by
  rw [parse_of_ne_empty hne]
  have hread := readAll_splitAt s.toList
  cases hpieces : readPieces s.toList with
  | ok p =>
    rw [hpieces] at hread
    exact .inl ⟨p, rfl, Identifier.exists_readAll_iff.mp ⟨_, hread⟩⟩
  | error e =>
    rw [hpieces] at hread
    obtain ⟨i, g, hfault, rfl⟩ := Identifier.readAll_eq_error_iff.mp hread
    rw [Nat.zero_add]
    exact .inr ⟨i, g, hfault, rfl⟩

theorem ofSegment_ne_empty {fault : SegmentFault} : PackagePathError.ofSegment s fault ≠ .empty := by
  cases fault <;> simp [PackagePathError.ofSegment]

theorem ofSegment_eq_emptySegment_iff {fault : SegmentFault} {name : String} {i : Nat} :
    PackagePathError.ofSegment s fault = .emptySegment name i ↔ name = s ∧ fault = .empty i := by
  cases fault <;> simp [PackagePathError.ofSegment, eq_comm]

theorem ofSegment_eq_invalidSegment_iff {fault : SegmentFault} {name g : String} :
    PackagePathError.ofSegment s fault = .invalidSegment name g ↔ name = s ∧ fault = .invalid g := by
  cases fault <;> simp [PackagePathError.ofSegment, eq_comm]

theorem parse_eq_empty_iff : parse s = .error .empty ↔ s = "" := by
  constructor
  · intro h
    by_contra hne
    rcases parse_cases hne with ⟨p, hp, -⟩ | ⟨i, g, -, he⟩
    · rw [hp] at h
      cases h
    · rw [he] at h
      exact ofSegment_ne_empty (Except.error.inj h)
  · rintro rfl
    exact parse_of_empty

/-- The empty text has an empty segment, too, but an error of its own. -/
theorem parse_eq_emptySegment_iff {name : String} {i : Nat} :
    parse s = .error (.emptySegment name i) ↔
      name = s ∧ s ≠ "" ∧ FirstFault (Text.splitAt '/' s.toList) i [] := by
  by_cases hne : s = ""
  · rw [hne, parse_of_empty]
    refine iff_of_false (fun h => by cases h) ?_
    rintro ⟨-, h, -⟩
    exact h rfl
  rcases parse_cases hne with ⟨p, hp, hvalid⟩ | ⟨j, g, hfault, he⟩
  · rw [hp]
    refine iff_of_false (fun h => by cases h) ?_
    rintro ⟨-, -, h⟩
    exact FirstFault.not_of_valid hvalid h
  · rw [he, Except.error.injEq, ofSegment_eq_emptySegment_iff, SegmentFault.of_eq_empty_iff, hfault.iff_eq,
      eq_comm (a := j), eq_comm (a := g), and_iff_right hne]

theorem parse_eq_invalidSegment_iff {name g : String} :
    parse s = .error (.invalidSegment name g) ↔
      name = s ∧ g ≠ "" ∧ ∃ i, FirstFault (Text.splitAt '/' s.toList) i g.toList := by
  by_cases hne : s = ""
  · rw [hne, parse_of_empty]
    refine iff_of_false (fun h => by cases h) ?_
    rintro ⟨-, hg, i, h⟩
    have hnil : isIdentifier [] = false := rfl
    obtain ⟨-, hempty⟩ := (FirstFault.cons_of_invalid hnil).mp h
    exact hg (by simpa using hempty)
  rcases parse_cases hne with ⟨p, hp, hvalid⟩ | ⟨j, k, hfault, he⟩
  · rw [hp]
    refine iff_of_false (fun h => by cases h) ?_
    rintro ⟨-, -, i, h⟩
    exact FirstFault.not_of_valid hvalid h
  · rw [he, Except.error.injEq, ofSegment_eq_invalidSegment_iff, SegmentFault.of_eq_invalid_iff]
    simp [hfault.iff_eq, eq_comm]

end PackagePath

/-! ### Packages of type names -/

/-- The package of a type name as a package path. -/
def TypeName.packagePath (t : TypeName) : PackagePath :=
  ⟨t.packageSegments, t.packageSegments_ne_nil⟩

theorem TypeName.dotted_packagePath (t : TypeName) : t.packagePath.dotted = t.package := rfl

namespace PackagePath

/-- The name of a type right in a package. -/
def typeNamed (p : PackagePath) (o : Identifier) : TypeName :=
  ⟨p.segments, o, [], p.segments_ne_nil⟩

theorem text_typeNamed (p : PackagePath) (o : Identifier) : (p.typeNamed o).text = p.dotted ++ "." ++ o.text := by
  have htypes : (p.typeNamed o).typeChars = o.text.toList := String.toList_ofList.symm
  have hpackage : p.dotted.toList = (p.typeNamed o).packageChars := String.toList_ofList
  rw [← String.toList_inj, TypeName.text_toList, htypes, String.toList_append, String.toList_append, hpackage,
    List.append_assoc]
  rfl

/-- The texts of package paths are those that spell a package, and tell it. The error of a text that is none is about
the first piece between slashes that is no identifier, unless the whole text is empty. Each package path with points
is the package of the type names in it, which are no names of nested types; and the package of each type name is that
of one package path, which is its spelling with slashes. -/
theorem parse_corresponds :
    (∀ s, (∃ p, parse s = .ok p) ↔ ∃ package, Spells s package) ∧
    (∀ s package, Spells s package → ∃ p, parse s = .ok p ∧ p.Tells s package) ∧
    (∀ s, (parse s = .error .empty ↔ s = "") ∧
      (∀ name i, parse s = .error (.emptySegment name i) ↔
        name = s ∧ s ≠ "" ∧ FirstFault (Text.splitAt '/' s.toList) i []) ∧
      ∀ name g, parse s = .error (.invalidSegment name g) ↔
        name = s ∧ g ≠ "" ∧ ∃ i, FirstFault (Text.splitAt '/' s.toList) i g.toList) ∧
    (∀ s p, parse s = .ok p → ∀ o : Identifier, ∃ t, TypeName.parse (p.dotted ++ "." ++ o.text) = .ok t ∧
      t.isNested = false ∧ t.package = p.dotted ∧ t.outer = o) ∧
    (∀ s t, TypeName.parse s = .ok t →
      ∃ p, parse (String.ofList (Text.replaceChar '.' '/' t.package.toList)) = .ok p ∧ p.dotted = t.package) ∧
    Function.Injective dotted := by
  refine ⟨fun s => ⟨?_, ?_⟩, fun s package h => h.exists_tells,
    fun s => ⟨parse_eq_empty_iff, fun _ _ => parse_eq_emptySegment_iff, fun _ _ => parse_eq_invalidSegment_iff⟩,
    fun s p _ o => ?_, fun s t _ => ?_, dotted_injective⟩
  · rintro ⟨p, hp⟩
    exact ⟨_, spells_of_parse hp⟩
  · rintro ⟨package, h⟩
    obtain ⟨p, hp, -⟩ := h.exists_tells
    exact ⟨p, hp⟩
  · exact ⟨p.typeNamed o, TypeName.parse_eq_ok_iff.mpr (text_typeNamed p o), rfl, rfl, rfl⟩
  · refine ⟨t.packagePath, ?_, t.dotted_packagePath⟩
    rw [← t.dotted_packagePath, ← text_eq_replaceChar]
    exact parse_text _

/-- A package of two identifiers as a path and in a type name, and texts with several faults. -/
theorem parse_corresponds_of_several :
    let package : List Identifier := [⟨['k', 't'], by decide +kernel⟩, ⟨['λ', '2'], by decide +kernel⟩]
    let outer : Identifier := ⟨['_', 'R'], by decide +kernel⟩
    (∃ p, parse "kt/λ2" = .ok p ∧ p.Tells "kt/λ2" package ∧
      ∃ t, TypeName.parse (p.dotted ++ "." ++ outer.text) = .ok t ∧ t.isNested = false ∧ t.package = p.dotted) ∧
    (∃ p, parse (String.ofList (Text.replaceChar '.' '/' "kt.λ2".toList)) = .ok p ∧ p.dotted = "kt.λ2") ∧
    parse "kt.x//1" = .error (.invalidSegment "kt.x//1" "kt.x") ∧
    parse "/1" = .error (.emptySegment "/1" 0) := by
  intro package outer
  obtain ⟨-, htells, hfaults, hnamed, hpackage, -⟩ := parse_corresponds
  have hs : Spells "kt/λ2" package := ⟨List.cons_ne_nil _ _, by decide +kernel⟩
  obtain ⟨p, hp, hpt⟩ := htells _ _ hs
  obtain ⟨t, ht, hnested, htpackage, -⟩ := hnamed _ p hp outer
  have hdotted : p.dotted = "kt.λ2" := hpt.dotted_eq.trans (by decide +kernel)
  refine ⟨⟨p, hp, hpt, t, ht, hnested, htpackage⟩, ?_, ?_, ?_⟩
  · rw [← hdotted, ← htpackage]
    exact hpackage _ t ht
  · refine ((hfaults _).2.2 _ _).mpr ⟨rfl, by decide, 0, by decide +kernel, ?_, ?_⟩
    · decide +kernel
    · decide +kernel
  · refine ((hfaults _).2.1 _ _).mpr ⟨rfl, by decide, by decide +kernel, ?_, ?_⟩
    · decide +kernel
    · decide +kernel

end PackagePath

end SurfaceRegistry
