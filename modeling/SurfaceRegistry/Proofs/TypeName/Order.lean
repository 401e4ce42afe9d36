import SurfaceRegistry.Proofs.Text.Order
import SurfaceRegistry.Proofs.TypeName

/-!
# Type names in order

Type names are compared by their texts and then by the size of their packages. The size is where the last point of the
text is (`TypeName.isLastPoint_iff`), so it never decides, and type names are in the order of the bytes in which their
texts are stored (`TypeName.compare_eq`). Names that are neither before nor behind one another are equal. So a list of
names has one list of the same names in order, however it is sorted (`TypeName.compare_is_byteOrder`).
-/

namespace SurfaceRegistry.TypeName

open Text (storedBytes)

variable {t u : TypeName}

/-! ### Where the package ends -/

/-- The last point of a text has this many bytes before it. -/
def IsLastPoint (s : String) (offset : Nat) : Prop :=
  ∃ before after, s.toList = before ++ '.' :: after ∧ '.' ∉ after ∧ (String.ofList before).utf8ByteSize = offset

theorem IsLastPoint.unique {s : String} {m n : Nat} (h : IsLastPoint s m) (h' : IsLastPoint s n) : m = n := by
  obtain ⟨before, after, hs, hafter, rfl⟩ := h
  obtain ⟨before', after', hs', hafter', rfl⟩ := h'
  have hsplit := Text.splitLast_append hafter before
  rw [← hs, hs', Text.splitLast_append hafter' before', Option.some.injEq, Prod.mk.injEq] at hsplit
  rw [hsplit.1]

theorem packageSize_eq (t : TypeName) : t.packageSize = t.package.utf8ByteSize := by
  rw [packageSize, Text.utf8_eq, ← String.size_toByteArray]
  rfl

/-- The package ends at the last point of the text and nowhere else. -/
theorem isLastPoint_iff {offset : Nat} : IsLastPoint t.text offset ↔ offset = t.packageSize := by
  have hpackage : IsLastPoint t.text t.packageSize :=
    ⟨t.packageChars, t.typeChars, t.text_toList, t.point_notMem_typeChars, t.packageSize_eq.symm⟩
  constructor
  · intro h
    exact h.unique hpackage
  · rintro rfl
    exact hpackage

/-! ### Comparing -/

/-- The bytes of the text decide. -/
theorem compare_eq (t u : TypeName) : t.compare u = Ord.compare (storedBytes t.text) (storedBytes u.text) := by
  rw [compare, Text.compareBytes_eq]
  cases h : Ord.compare (storedBytes t.text) (storedBytes u.text) with
  | lt => rfl
  | gt => rfl
  | eq =>
    -- Texts that are stored in the same bytes have their last points at the same place.
    have htext : t.text = u.text := Text.storedBytes_injective (Std.LawfulEqCmp.eq_of_compare h)
    have hsize : IsLastPoint u.text t.packageSize := htext ▸ isLastPoint_iff.mpr rfl
    rw [isLastPoint_iff.mp hsize, Std.compare_self]
    rfl

theorem compare_eq_eq_iff : t.compare u = .eq ↔ t.text = u.text := by
  rw [compare_eq, Std.compare_eq_iff_eq, Text.storedBytes_injective.eq_iff]

theorem le_iff : t.le u = true ↔ storedBytes t.text ≤ storedBytes u.text := by
  rw [le, compare_eq, Std.isLE_compare]

theorem le_trans (t u v : TypeName) (htu : t.le u = true) (huv : u.le v = true) : t.le v = true :=
  le_iff.mpr (Std.le_trans (le_iff.mp htu) (le_iff.mp huv))

theorem le_total (t u : TypeName) : (t.le u || u.le t) = true := by
  rw [Bool.or_eq_true, le_iff, le_iff]
  exact Std.le_total

theorem le_antisymm (htu : t.le u = true) (hut : u.le t = true) : t = u :=
  text_injective (Text.storedBytes_injective (Std.le_antisymm (le_iff.mp htu) (le_iff.mp hut)))

/-! ### Sorting -/

/-- The names of a list, none of which stands behind a greater one. -/
structure IsSorted (names sorted : List TypeName) : Prop where
  /-- None is lost and none is new. -/
  perm : sorted.Perm names
  /-- Of two names, the first comes before the second or is equal to it. -/
  ordered : sorted.Pairwise fun t u => t.le u = true

theorem isSorted_sort (names : List TypeName) : IsSorted names (sort names) where
  perm := List.mergeSort_perm names le
  ordered := List.pairwise_mergeSort le_trans le_total names

/-- The same names have one order, in whatever order they are given. -/
theorem IsSorted.unique {names names' sorted sorted' : List TypeName} (h : IsSorted names sorted)
    (h' : IsSorted names' sorted') (hperm : names.Perm names') : sorted = sorted' :=
  ((h.perm.trans hperm).trans h'.perm.symm).eq_of_pairwise (fun _ _ _ _ => le_antisymm) h.ordered h'.ordered

/-- Names that are read from texts compare as the bytes of the texts do, in lexicographic order, and only those with the
same text compare equal; where the package ends is told by the text. Sorting a list of names puts them in this order,
and any list of the same names in order is the one that sorting gives, also for another arrangement of the names. -/
theorem compare_is_byteOrder :
    (∀ s s' t u, parse s = .ok t → parse s' = .ok u →
      t.compare u = Ord.compare (storedBytes s) (storedBytes s') ∧
        (t.compare u = .lt ↔ storedBytes s < storedBytes s') ∧ (t.compare u = .eq ↔ s = s')) ∧
    (∀ s t, parse s = .ok t → ∀ offset, IsLastPoint s offset ↔ offset = t.packageSize) ∧
    (∀ names, IsSorted names (sort names)) ∧
    ∀ names names' sorted : List TypeName, names'.Perm names → IsSorted names' sorted → sorted = sort names := by
  refine ⟨fun s s' t u ht hu => ?_, fun s t ht offset => ?_, isSorted_sort, fun names names' sorted hperm h => ?_⟩
  · obtain rfl := text_of_parse ht
    obtain rfl := text_of_parse hu
    refine ⟨compare_eq t u, ?_, compare_eq_eq_iff⟩
    rw [compare_eq, Std.compare_eq_lt]
  · obtain rfl := text_of_parse ht
    exact isLastPoint_iff
  · exact h.unique (isSorted_sort names) hperm

/-- A name with a letter of three bytes. -/
def threeByteName : TypeName :=
  ⟨[⟨['ｱ'], by decide +kernel⟩], ⟨['b'], by decide +kernel⟩, [], by decide⟩

/-- A name with a letter of four bytes, the first of which is greater. -/
def fourByteName : TypeName :=
  ⟨[⟨['𐐀'], by decide +kernel⟩], ⟨['b'], by decide +kernel⟩, [], by decide⟩

theorem compare_is_byteOrder_of_wide :
    parse "ｱ.b" = .ok threeByteName ∧ parse "𐐀.b" = .ok fourByteName ∧
      threeByteName.compare fourByteName = .lt ∧ threeByteName.packageSize = 3 ∧ fourByteName.packageSize = 4 ∧
      [threeByteName, fourByteName, fourByteName].Perm [fourByteName, threeByteName, fourByteName] ∧
      sort [fourByteName, threeByteName, fourByteName] = [threeByteName, fourByteName, fourByteName] := by
  obtain ⟨hcompare, hoffset, -, hsort⟩ := compare_is_byteOrder
  have hthree : parse "ｱ.b" = .ok threeByteName := parse_eq_ok_iff.mpr (by decide +kernel)
  have hfour : parse "𐐀.b" = .ok fourByteName := parse_eq_ok_iff.mpr (by decide +kernel)
  have hlt : threeByteName.compare fourByteName = .lt := (hcompare _ _ _ _ hthree hfour).2.1.mpr (by decide +kernel)
  have hperm : [threeByteName, fourByteName, fourByteName].Perm [fourByteName, threeByteName, fourByteName] :=
    List.Perm.swap _ _ _
  refine ⟨hthree, hfour, hlt, ?_, ?_, hperm, ?_⟩
  · exact ((hoffset _ _ hthree 3).mp ⟨['ｱ'], ['b'], by decide +kernel, by decide, by decide +kernel⟩).symm
  · exact ((hoffset _ _ hfour 4).mp ⟨['𐐀'], ['b'], by decide +kernel, by decide, by decide +kernel⟩).symm
  · refine (hsort _ _ _ hperm ⟨.refl _, ?_⟩).symm
    have hle : threeByteName.le fourByteName = true := by rw [le, hlt]; rfl
    have hself : fourByteName.le fourByteName = true := le_iff.mpr (Std.le_refl _)
    simp [hle, hself]

end SurfaceRegistry.TypeName
