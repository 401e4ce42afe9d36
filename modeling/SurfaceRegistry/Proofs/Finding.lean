import SurfaceRegistry.Finding
import SurfaceRegistry.Proofs.Text.Order

/-!
# Findings in order

Findings are sorted by check, code and message (`Finding.key`). Many of them may have the same key, so that
they are sorted does not say which list comes out; it is the one in which those of each key stand as they
did before (`IsStableSort.unique`).
-/

namespace SurfaceRegistry.Finding

/-- What decides on the place of a finding: its check, then its code, then its message, each by the bytes in
which it is stored. -/
def key (f : Finding) : List (List UInt8) :=
  [f.checkId, f.code, f.message].map fun s => s.toByteArray.data.toList

theorem compare_eq (f g : Finding) : f.compare g = Ord.compare f.key g.key := by
  simp only [compare, key, Text.compareBytes, Text.utf8_eq, List.map_cons, List.map_nil,
    List.compare_cons_cons, List.compare_nil_nil, Ordering.then_eq]

theorem le_iff {f g : Finding} : f.le g = true ↔ f.key ≤ g.key := by
  rw [le, compare_eq, Std.isLE_compare]

theorem le_trans (f g h : Finding) (hfg : f.le g = true) (hgh : g.le h = true) : f.le h = true :=
  le_iff.mpr (Std.le_trans (le_iff.mp hfg) (le_iff.mp hgh))

theorem le_total (f g : Finding) : (f.le g || g.le f) = true := by
  rw [Bool.or_eq_true, le_iff, le_iff]
  exact Std.le_total

/-- Findings of checks that come one after the other come in the order of the checks. -/
theorem key_lt_of_checkId {f g : Finding} (h : Text.compareBytes f.checkId g.checkId = .lt) :
    f.key < g.key := by
  rw [← Std.compare_eq_lt, ← compare_eq, compare, h]
  rfl

/-- The findings of a list in their order, those of one key as they are in the list. -/
structure IsStableSort (found sorted : List Finding) : Prop where
  /-- None is lost and none is new. -/
  perm : sorted.Perm found
  /-- They stand in the order of their keys. -/
  ordered : sorted.Pairwise fun f g => f.key ≤ g.key
  /-- Those of one key are the same list as before. -/
  stable : ∀ k, (sorted.filter fun f => f.key = k) = found.filter fun f => f.key = k

theorem isStableSort_sort (found : List Finding) : IsStableSort found (sort found) where
  perm := List.mergeSort_perm found le
  ordered := (List.pairwise_mergeSort le_trans le_total found).imp le_iff.mp
  stable k := by
    have hk : (found.filter fun f => f.key = k).Pairwise fun f g => f.le g = true := by
      refine List.pairwise_of_forall_mem_list fun f hf g hg => le_iff.mpr ?_
      rw [of_decide_eq_true (List.mem_filter.mp hf).2, of_decide_eq_true (List.mem_filter.mp hg).2]
      exact Std.le_refl k
    -- What is in order already is still there after the sort, and there is nothing more of this key.
    have hsub : (found.filter fun f => f.key = k).Sublist (sort found) :=
      List.sublist_mergeSort le_trans le_total hk List.filter_sublist
    have hsub := hsub.filter fun f => f.key = k
    rw [List.filter_filter] at hsub
    simp only [Bool.and_self] at hsub
    refine (hsub.eq_of_length ?_).symm
    exact ((List.mergeSort_perm found le).filter _).length_eq.symm

namespace IsStableSort

variable {found sorted sorted' : List Finding}

/-- What holds of findings in the order in which they were found holds of those with one key after the
sort. -/
theorem pairwise {R : Finding → Finding → Prop} (h : IsStableSort found sorted)
    (hR : found.Pairwise R) : sorted.Pairwise fun f g => f.key = g.key → R f g := by
  rw [List.pairwise_iff_forall_sublist] at hR ⊢
  intro f g hfg hkey
  refine hR ?_
  have hsub := hfg.filter fun e => e.key = g.key
  rw [h.stable, List.filter_cons_of_pos (by simpa using hkey), List.filter_cons_of_pos (by simp)] at hsub
  exact hsub.trans List.filter_sublist

/-- The first of findings in order has the least key. -/
theorem key_head_le {f g : Finding} {s : List Finding}
    (h : (f :: s).Pairwise fun f g => f.key ≤ g.key) (hg : g ∈ f :: s) : f.key ≤ g.key := by
  rcases List.mem_cons.mp hg with rfl | hg
  · exact Std.le_refl g.key
  · exact List.rel_of_pairwise_cons h hg

theorem mem_iff_of_filter_eq (f : Finding)
    (heq : ∀ k, (sorted.filter fun f => f.key = k) = sorted'.filter fun f => f.key = k) :
    f ∈ sorted ↔ f ∈ sorted' := by
  have hf := congrArg (f ∈ ·) (heq f.key)
  simpa using hf

/-- Lists in order that agree key by key are equal: both begin with the least key, and with the same
finding among those that have it. -/
theorem eq_of_filter_eq (h : sorted.Pairwise fun f g => f.key ≤ g.key)
    (h' : sorted'.Pairwise fun f g => f.key ≤ g.key)
    (heq : ∀ k, (sorted.filter fun f => f.key = k) = sorted'.filter fun f => f.key = k) :
    sorted = sorted' := by
  induction sorted generalizing sorted' with
  | nil =>
    cases sorted' with
    | nil => rfl
    | cons g s' => exact absurd ((mem_iff_of_filter_eq g heq).mpr List.mem_cons_self) List.not_mem_nil
  | cons f s ih =>
    cases sorted' with
    | nil => exact absurd ((mem_iff_of_filter_eq f heq).mp List.mem_cons_self) List.not_mem_nil
    | cons g s' =>
      have hkey : f.key = g.key := by
        have hg := (mem_iff_of_filter_eq g heq).mpr List.mem_cons_self
        have hf := (mem_iff_of_filter_eq f heq).mp List.mem_cons_self
        exact Std.le_antisymm (key_head_le h hg) (key_head_le h' hf)
      have hhead := heq g.key
      rw [List.filter_cons_of_pos (by simpa using hkey), List.filter_cons_of_pos (by simp)] at hhead
      obtain rfl := (List.cons.inj hhead).1
      refine congrArg (f :: ·) (ih h.tail h'.tail fun k => ?_)
      have hk := heq k
      by_cases hf : f.key = k
      · rw [List.filter_cons_of_pos (by simpa using hf), List.filter_cons_of_pos (by simpa using hf)] at hk
        exact (List.cons.inj hk).2
      · rwa [List.filter_cons_of_neg (by simpa using hf), List.filter_cons_of_neg (by simpa using hf)] at hk

theorem unique (h : IsStableSort found sorted) (h' : IsStableSort found sorted') : sorted = sorted' :=
  eq_of_filter_eq h.ordered h'.ordered fun k => (h.stable k).trans (h'.stable k).symm

/-- Findings that all come before others stay apart from them, wherever they were found. -/
theorem append {low low' high high' : List Finding} (hl : IsStableSort low low')
    (hh : IsStableSort high high') (h : ∀ f ∈ low, ∀ g ∈ high, f.key < g.key) :
    IsStableSort (high ++ low) (low' ++ high') where
  perm := (hl.perm.append hh.perm).trans List.perm_append_comm
  ordered := by
    refine List.pairwise_append.mpr ⟨hl.ordered, hh.ordered, fun f hf g hg => Std.le_of_lt ?_⟩
    exact h f (hl.perm.mem_iff.mp hf) g (hh.perm.mem_iff.mp hg)
  stable k := by
    rw [List.filter_append, List.filter_append, hl.stable, hh.stable]
    -- No key belongs to findings of both kinds, so one of the two lists is empty.
    by_cases hk : ∃ f ∈ low, f.key = k
    · obtain ⟨f, hf, rfl⟩ := hk
      have hnone : (high.filter fun g => g.key = f.key) = [] := by
        refine List.filter_eq_nil_iff.mpr fun g hg heq => ?_
        have hlt := h f hf g hg
        rw [of_decide_eq_true heq] at hlt
        exact Std.lt_irrefl hlt
      rw [hnone, List.append_nil, List.nil_append]
    · have hnone : (low.filter fun f => f.key = k) = [] := by
        refine List.filter_eq_nil_iff.mpr fun f hf heq => hk ⟨f, hf, ?_⟩
        exact of_decide_eq_true heq
      rw [hnone, List.append_nil, List.nil_append]

end IsStableSort

/-- Findings that all come before others are sorted apart from them. -/
theorem sort_append {low high : List Finding} (h : ∀ f ∈ low, ∀ g ∈ high, f.key < g.key) :
    sort (high ++ low) = sort low ++ sort high :=
  (isStableSort_sort _).unique ((isStableSort_sort low).append (isStableSort_sort high) h)

end SurfaceRegistry.Finding
