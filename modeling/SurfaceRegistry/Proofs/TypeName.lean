import SurfaceRegistry.TypeName
import SurfaceRegistry.Proofs.PackagePath

/-!
# Reading type names

A text is read as the type name with this text (`TypeName.parse_eq_ok_iff`). The last point of the text of
a name ends the package, since no point is in the types; the pieces between the separators are identifiers,
and these hold neither separator. So a text spells at most one name (`TypeName.spells_unique`), and the
parts of the name are found in the text again.
-/

namespace SurfaceRegistry.TypeName

variable {s : String} {t : TypeName}

/-! ### The text of a name -/

theorem packageSegments_map_ne_nil (t : TypeName) : t.packageSegments.map Identifier.chars ≠ [] :=
  fun h => t.packageSegments_ne_nil (List.map_eq_nil_iff.mp h)

/-- What no identifier holds is in none of the segments of the types. -/
theorem notMem_of_mem_types {c : Char} (hc : ∀ i : Identifier, c ∉ i.chars) (t : TypeName) :
    ∀ p ∈ t.outer.chars :: t.nested.map Identifier.chars, c ∉ p := by
  rw [← List.map_cons]
  exact Identifier.notMem_of_mem_map hc

theorem text_toList (t : TypeName) : t.text.toList = t.packageChars ++ '.' :: t.typeChars :=
  String.toList_ofList

theorem text_toList_ne_nil (t : TypeName) : t.text.toList ≠ [] := by
  rw [text_toList]
  exact List.append_ne_nil_of_right_ne_nil _ (List.cons_ne_nil _ _)

theorem point_notMem_typeChars (t : TypeName) : '.' ∉ t.typeChars := by
  intro h
  rcases Text.mem_joinWith h with h | ⟨p, hp, h⟩
  · exact absurd h (by decide)
  · exact t.notMem_of_mem_types Identifier.point_notMem p hp h

theorem dollar_notMem_packageChars (t : TypeName) : '$' ∉ t.packageChars := by
  intro h
  rcases Text.mem_joinWith h with h | ⟨p, hp, h⟩
  · exact absurd h (by decide)
  · exact Identifier.notMem_of_mem_map Identifier.dollar_notMem p hp h

theorem splitLast_text (t : TypeName) :
    Text.splitLast '.' t.text.toList = some (t.packageChars, t.typeChars) := by
  rw [text_toList]
  exact Text.splitLast_append t.point_notMem_typeChars t.packageChars

theorem splitAt_packageChars (t : TypeName) :
    Text.splitAt '.' t.packageChars = t.packageSegments.map Identifier.chars :=
  Text.splitAt_joinWith t.packageSegments_map_ne_nil
    (Identifier.notMem_of_mem_map Identifier.point_notMem)

theorem splitAt_typeChars (t : TypeName) :
    Text.splitAt '$' t.typeChars = t.outer.chars :: t.nested.map Identifier.chars :=
  Text.splitAt_joinWith (List.cons_ne_nil _ _) (t.notMem_of_mem_types Identifier.dollar_notMem)

/-! ### Reading -/

theorem readParts_of_splitAt {package types : List Char}
    (hp : Text.splitAt '.' package = t.packageSegments.map Identifier.chars)
    (ht : Text.splitAt '$' types = t.outer.chars :: t.nested.map Identifier.chars) :
    readParts package types = .ok t := by
  obtain ⟨segments, outer, nested, hne⟩ := t
  cases segments with
  | nil => exact absurd rfl hne
  | cons first more =>
    have hp : Text.pieces '.' package = (first.chars, more.map Identifier.chars) :=
      Text.pieces_of_splitAt hp
    have ht : Text.pieces '$' types = (outer.chars, nested.map Identifier.chars) :=
      Text.pieces_of_splitAt ht
    unfold readParts
    simp only [hp, ht, Identifier.read_chars, Identifier.readAll_chars]
    rfl

theorem splitAt_of_readParts {package types : List Char} (h : readParts package types = .ok t) :
    Text.splitAt '.' package = t.packageSegments.map Identifier.chars ∧
      Text.splitAt '$' types = t.outer.chars :: t.nested.map Identifier.chars := by
  obtain ⟨first, hfirst, h⟩ := exists_of_bind_eq_ok h
  obtain ⟨more, hmore, h⟩ := exists_of_bind_eq_ok h
  obtain ⟨outer, houter, h⟩ := exists_of_bind_eq_ok h
  obtain ⟨nested, hnested, h⟩ := exists_of_bind_eq_ok h
  cases h
  rw [Text.splitAt, Text.splitAt, Identifier.read_eq_ok_iff.mp hfirst,
    Identifier.readAll_eq_ok_iff.mp hmore, Identifier.read_eq_ok_iff.mp houter,
    Identifier.readAll_eq_ok_iff.mp hnested]
  exact ⟨rfl, rfl⟩

theorem parse_text (t : TypeName) : parse t.text = .ok t := by
  rw [parse, if_neg (by simpa using t.text_toList_ne_nil), t.splitLast_text]
  simp only
  rw [readParts_of_splitAt t.splitAt_packageChars t.splitAt_typeChars]
  rfl

theorem text_of_parse (h : parse s = .ok t) : t.text = s := by
  unfold parse at h
  split at h
  · cases h
  split at h
  · cases h
  rename_i package types hsplit
  obtain ⟨hs, -⟩ := Text.splitLast_eq_some_iff.mp hsplit
  cases hr : readParts package types with
  | error e =>
    rw [hr] at h
    cases h
  | ok u =>
    rw [hr] at h
    cases h
    obtain ⟨hp, ht⟩ := splitAt_of_readParts hr
    rw [← String.toList_inj, text_toList, packageChars, typeChars, ← hp, ← ht, Text.joinWith_splitAt,
      Text.joinWith_splitAt, hs]

/-- A text is read as the name with this text. -/
theorem parse_eq_ok_iff : parse s = .ok t ↔ t.text = s := by
  constructor
  · exact text_of_parse
  · rintro rfl
    exact t.parse_text

/-! ### Spelling -/

/-- A text that spells a package, a type and the types nested in it. -/
structure Spells (s : String) (package : List Identifier) (outer : Identifier)
    (nested : List Identifier) : Prop where
  /-- There is a package. -/
  package_ne_nil : package ≠ []
  /-- A point follows each of its segments, and a dollar sign precedes each nested type. -/
  spelling : s.toList = Text.joinWith '.' (package.map Identifier.chars) ++
    '.' :: (outer.chars ++ nested.flatMap fun i => '$' :: i.chars)

theorem typeChars_eq (t : TypeName) :
    t.typeChars = t.outer.chars ++ t.nested.flatMap fun i => '$' :: i.chars := by
  rw [typeChars, Text.joinWith_cons_eq_flatMap, List.flatMap_map]

/-- A text spells the parts of the name with this text. -/
theorem spells_iff {package : List Identifier} {outer : Identifier} {nested : List Identifier} :
    Spells s package outer nested ↔
      ∃ t : TypeName, t.text = s ∧ t.packageSegments = package ∧ t.outer = outer ∧ t.nested = nested := by
  constructor
  · rintro ⟨hne, hs⟩
    refine ⟨⟨package, outer, nested, hne⟩, ?_, rfl, rfl, rfl⟩
    rw [← String.toList_inj, text_toList, typeChars_eq, hs]
    rfl
  · rintro ⟨t, rfl, rfl, rfl, rfl⟩
    refine ⟨t.packageSegments_ne_nil, ?_⟩
    rw [text_toList, typeChars_eq]
    rfl

theorem text_injective : Function.Injective text := by
  intro t u h
  have ht := parse_text t
  rw [h, parse_text u] at ht
  exact (Except.ok.inj ht).symm

theorem spells_unique {package package' : List Identifier} {outer outer' : Identifier}
    {nested nested' : List Identifier} (h : Spells s package outer nested)
    (h' : Spells s package' outer' nested') : package = package' ∧ outer = outer' ∧ nested = nested' := by
  obtain ⟨t, ht, rfl, rfl, rfl⟩ := spells_iff.mp h
  obtain ⟨u, hu, rfl, rfl, rfl⟩ := spells_iff.mp h'
  obtain rfl := text_injective (ht.trans hu.symm)
  exact ⟨rfl, rfl, rfl⟩

/-! ### The parts of a name -/

theorem isNested_iff (t : TypeName) : t.isNested = true ↔ t.nested ≠ [] := by
  simp [isNested]

/-- There is a dollar sign in the text of the types only before nested ones. -/
theorem dollar_mem_typeChars_iff (t : TypeName) : '$' ∈ t.typeChars ↔ t.nested ≠ [] := by
  rw [typeChars_eq, List.mem_append, or_iff_right t.outer.dollar_notMem, List.mem_flatMap]
  constructor
  · rintro ⟨i, hi, -⟩
    exact List.ne_nil_of_mem hi
  · intro h
    obtain ⟨i, is, hi⟩ := List.exists_cons_of_ne_nil h
    exact ⟨i, by simp [hi], List.mem_cons_self⟩

/-- The spelling in source code has points between all identifiers. -/
theorem sourceForm_eq (t : TypeName) :
    t.sourceForm =
      String.ofList (Text.joinWith '.' ((t.packageSegments ++ t.outer :: t.nested).map Identifier.chars)) := by
  have htypes : Text.replaceChar '$' '.' t.typeChars = Text.joinWith '.' ((t.outer :: t.nested).map Identifier.chars) :=
    Text.replaceChar_joinWith (t.notMem_of_mem_types Identifier.dollar_notMem)
  rw [sourceForm, TypeName.chars, Text.replaceChar, List.map_append, List.map_cons, if_neg (by decide)]
  rw [← Text.replaceChar, ← Text.replaceChar, Text.replaceChar_of_notMem t.dollar_notMem_packageChars,
    htypes, List.map_append, Text.joinWith_append t.packageSegments_map_ne_nil (by simp)]
  rfl

/-- What a name tells of the parts that a text spells. -/
structure Tells (t : TypeName) (s : String) (package : List Identifier) (outer : Identifier)
    (nested : List Identifier) : Prop where
  /-- Its text is the text. -/
  text_eq : t.text = s
  /-- The package is written with points. -/
  package_eq : t.package = String.ofList (Text.joinWith '.' (package.map Identifier.chars))
  /-- The top-level type. -/
  outer_eq : t.outer = outer
  /-- The types nested in it. -/
  nested_eq : t.nested = nested
  /-- It is the name of a nested type if there are any. -/
  isNested_iff : t.isNested = true ↔ nested ≠ []
  /-- In source code all parts are written with points. -/
  sourceForm_eq :
    t.sourceForm = String.ofList (Text.joinWith '.' ((package ++ outer :: nested).map Identifier.chars))
  /-- The types are the text after the package and a point, which is the last one; they are found again
  between dollar signs. -/
  types_eq : ∃ types, s.toList = t.package.toList ++ '.' :: types ∧ '.' ∉ types ∧
    Text.splitAt '$' types = outer.chars :: nested.map Identifier.chars ∧
    ('$' ∈ types ↔ t.isNested = true)

theorem tells_of_parse (h : parse s = .ok t) : t.Tells s t.packageSegments t.outer t.nested where
  text_eq := text_of_parse h
  package_eq := rfl
  outer_eq := rfl
  nested_eq := rfl
  isNested_iff := t.isNested_iff
  sourceForm_eq := t.sourceForm_eq
  types_eq := by
    refine ⟨t.typeChars, ?_, t.point_notMem_typeChars, t.splitAt_typeChars, ?_⟩
    · rw [← text_of_parse h, text_toList, TypeName.package, String.toList_ofList]
    · rw [dollar_mem_typeChars_iff, isNested_iff]

/-- The texts of type names are those that spell a package, a type and types nested in it. They spell
these parts in one way, and the name that is read tells them. Neither separator is in an identifier. -/
theorem parse_spells :
    (∀ s, (∃ t, parse s = .ok t) ↔ ∃ package outer nested, Spells s package outer nested) ∧
    (∀ s package package' outer outer' nested nested', Spells s package outer nested →
      Spells s package' outer' nested' → package = package' ∧ outer = outer' ∧ nested = nested') ∧
    (∀ s t, parse s = .ok t →
      ∃ package outer nested, Spells s package outer nested ∧ t.Tells s package outer nested) ∧
    (∀ segment, isIdentifier segment = true ↔
      ∃ c r, segment = c :: r ∧ (Text.isAlphabetic c = true ∨ c = '_') ∧
        ∀ d ∈ r, Text.isAlphanumeric d = true ∨ d = '_') ∧
    ∀ c ∈ ['.', '$'], Text.isAlphabetic c = false ∧ Text.isAlphanumeric c = false := by
  refine ⟨fun s => ⟨?_, ?_⟩, fun s _ _ _ _ _ _ h h' => spells_unique h h', fun s t h => ?_,
    fun segment => isIdentifier_iff, List.forall_mem_cons.mpr ⟨?_, List.forall_mem_singleton.mpr ?_⟩⟩
  · rintro ⟨t, ht⟩
    exact ⟨_, _, _, spells_iff.mpr ⟨t, text_of_parse ht, rfl, rfl, rfl⟩⟩
  · rintro ⟨package, outer, nested, h⟩
    obtain ⟨t, ht, -⟩ := spells_iff.mp h
    exact ⟨t, parse_eq_ok_iff.mpr ht⟩
  · exact ⟨_, _, _, spells_iff.mpr ⟨t, text_of_parse h, rfl, rfl, rfl⟩, tells_of_parse h⟩
  · exact ⟨by decide +kernel, by decide +kernel⟩
  · exact ⟨by decide +kernel, by decide +kernel⟩

theorem parse_spells_of_nested :
    let package : List Identifier := [⟨['c', 'o', 'm'], by decide +kernel⟩, ⟨['é', '1'], by decide +kernel⟩]
    let outer : Identifier := ⟨['_', 'O'], by decide +kernel⟩
    let nested : List Identifier := [⟨['A'], by decide +kernel⟩, ⟨['ß'], by decide +kernel⟩]
    Spells "com.é1._O$A$ß" package outer nested ∧
      ∃ t, parse "com.é1._O$A$ß" = .ok t ∧ t.Tells "com.é1._O$A$ß" package outer nested := by
  intro package outer nested
  have hs : Spells "com.é1._O$A$ß" package outer nested := ⟨List.cons_ne_nil _ _, by decide +kernel⟩
  obtain ⟨t, ht⟩ := (parse_spells.1 "com.é1._O$A$ß").mpr ⟨package, outer, nested, hs⟩
  obtain ⟨package', outer', nested', hs', htells⟩ := parse_spells.2.2.1 _ t ht
  obtain ⟨rfl, rfl, rfl⟩ := parse_spells.2.1 _ _ _ _ _ _ _ hs' hs
  exact ⟨hs, t, ht, htells⟩

end SurfaceRegistry.TypeName
