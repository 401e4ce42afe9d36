import SurfaceRegistry.Text.Encoding

/-!
# Bytes in order

Texts are compared by the bytes in which they are stored (`utf8_eq`). Lists over an order are in
lexicographic order, and comparing them member by member finds it: so the comparison of bytes, and that of
several texts one after another, is an order that lemmas on `≤` apply to.
-/

namespace SurfaceRegistry.Text

section

variable {α : Type} [Ord α] [LE α] [LT α] [Std.IsLinearOrder α] [Std.LawfulOrderLT α]
  [Std.LawfulOrderOrd α]

/-- Comparing lists member by member tells whether they are in lexicographic order. -/
theorem isLE_compare_iff (s t : List α) : (compare s t).isLE = true ↔ s ≤ t := by
  induction s generalizing t with
  | nil => exact iff_of_true List.isLE_compare_nil_left (List.nil_le t)
  | cons a s ih =>
    cases t with
    | nil => simp
    | cons b t =>
      rw [List.compare_cons_cons, List.cons_le_cons_iff, ← ih]
      cases h : compare a b with
      | lt => exact iff_of_true rfl (.inl (Std.compare_eq_lt.mp h))
      | eq =>
        have hle : a ≤ b := Std.isLE_compare.mp (by rw [h]; rfl)
        have hge : b ≤ a := Std.isGE_compare.mp (by rw [h]; rfl)
        obtain rfl := Std.le_antisymm hle hge
        simp [Std.lt_irrefl]
      | gt =>
        have hgt := Std.compare_eq_gt.mp h
        refine iff_of_false (by simp) ?_
        rintro (hlt | ⟨rfl, -⟩)
        · exact Std.lt_irrefl (Std.lt_trans hgt hlt)
        · exact Std.lt_irrefl hgt

instance instLawfulOrderOrdList : Std.LawfulOrderOrd (List α) where
  isLE_compare := isLE_compare_iff
  isGE_compare s t := by
    have hswap : compare t s = (compare s t).swap := Std.OrientedCmp.eq_swap
    rw [← isLE_compare_iff, hswap, Ordering.isLE_swap]

end

/-- The bytes of a text are those in which it is stored. -/
theorem utf8_eq (s : String) : utf8 s = s.toByteArray.data.toList := by
  conv => rhs; rw [← String.ofList_toList (s := s)]
  rw [String.toByteArray_ofList, List.utf8Encode, List.data_toByteArray, utf8]

/-- The bytes in which a text is stored. -/
def storedBytes (s : String) : List UInt8 :=
  s.toByteArray.data.toList

/-- Texts that are stored in the same bytes are equal. -/
theorem storedBytes_injective : Function.Injective storedBytes :=
  fun _ _ h => String.toByteArray_inj.mp (ByteArray.ext (Array.toList_inj.mp h))

theorem compareBytes_eq (s t : String) : compareBytes s t = compare (storedBytes s) (storedBytes t) := by
  rw [compareBytes, utf8_eq, utf8_eq]
  rfl

/-! ### Before or equal -/

variable {s t u : String}

theorem bytesLe_iff : bytesLe s t = true ↔ utf8 s ≤ utf8 t :=
  Std.isLE_compare

theorem bytesLe_trans (hst : bytesLe s t = true) (htu : bytesLe t u = true) : bytesLe s u = true :=
  bytesLe_iff.mpr (Std.le_trans (bytesLe_iff.mp hst) (bytesLe_iff.mp htu))

theorem bytesLe_total (s t : String) : (bytesLe s t || bytesLe t s) = true := by
  rw [Bool.or_eq_true, bytesLe_iff, bytesLe_iff]
  exact Std.le_total

theorem bytesLe_antisymm (hst : bytesLe s t = true) (hts : bytesLe t s = true) : s = t := by
  have hbytes := Std.le_antisymm (bytesLe_iff.mp hst) (bytesLe_iff.mp hts)
  rw [utf8_eq, utf8_eq] at hbytes
  exact storedBytes_injective hbytes

end SurfaceRegistry.Text
