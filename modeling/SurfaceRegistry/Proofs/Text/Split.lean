import Mathlib
import SurfaceRegistry.Text.Split

/-!
# Splitting and joining

Splitting undoes joining when no piece holds the separator (`splitAt_joinWith`), so that a text is joined
from such pieces in one way only. The last separator is the one with none after it
(`splitLast_eq_some_iff`).
-/

namespace SurfaceRegistry.Text

variable {sep : Char}

/-! ### Pieces -/

theorem pieces_of_notMem {s : List Char} (h : sep ∉ s) : pieces sep s = (s, []) := by
  induction s with
  | nil => rfl
  | cons c s ih =>
    rw [List.mem_cons, not_or] at h
    rw [pieces, ih h.2]
    exact if_neg (Ne.symm h.1)

theorem pieces_append {p : List Char} (h : sep ∉ p) (s : List Char) :
    pieces sep (p ++ sep :: s) = (p, splitAt sep s) := by
  induction p with
  | nil =>
    rw [List.nil_append, pieces]
    exact if_pos rfl
  | cons c p ih =>
    rw [List.mem_cons, not_or] at h
    rw [List.cons_append, pieces, ih h.2]
    exact if_neg (Ne.symm h.1)

theorem splitAt_of_notMem {s : List Char} (h : sep ∉ s) : splitAt sep s = [s] := by
  rw [splitAt, pieces_of_notMem h]

theorem splitAt_append {p : List Char} (h : sep ∉ p) (s : List Char) :
    splitAt sep (p ++ sep :: s) = p :: splitAt sep s := by
  rw [splitAt, pieces_append h]

/-- What is before the first separator and what is behind it. -/
theorem append_cons_inj {p q s t : List Char} (hp : sep ∉ p) (hq : sep ∉ q) (h : p ++ sep :: s = q ++ sep :: t) :
    p = q ∧ s = t := by
  have hpieces := pieces_append hp s
  rw [h, pieces_append hq] at hpieces
  obtain rfl := congrArg Prod.fst hpieces
  exact ⟨rfl, (List.cons.inj (List.append_cancel_left h)).2⟩

theorem splitAt_cons_self (s : List Char) : splitAt sep (sep :: s) = [] :: splitAt sep s :=
  splitAt_append List.not_mem_nil s

theorem splitAt_cons_of_ne {c : Char} (h : c ≠ sep) (s : List Char) :
    splitAt sep (c :: s) = (c :: (pieces sep s).1) :: (pieces sep s).2 := by
  rw [splitAt, pieces]
  simp only [if_neg h]

/-- Splitting undoes joining. -/
theorem splitAt_joinWith {ps : List (List Char)} (hne : ps ≠ []) (h : ∀ p ∈ ps, sep ∉ p) :
    splitAt sep (joinWith sep ps) = ps := by
  induction ps with
  | nil => exact absurd rfl hne
  | cons p ps ih =>
    have hp := h p List.mem_cons_self
    by_cases hps : ps = []
    · rw [hps, joinWith, splitAt_of_notMem hp]
    · rw [joinWith_cons sep p hps, splitAt_append hp]
      rw [ih hps fun q hq => h q (List.mem_cons_of_mem p hq)]

theorem pieces_of_splitAt {s p : List Char} {ps : List (List Char)} (h : splitAt sep s = p :: ps) :
    pieces sep s = (p, ps) :=
  Prod.ext (List.cons.inj h).1 (List.cons.inj h).2

/-- Pieces without the separator are the pieces of what is joined from them. -/
theorem eq_splitAt_iff {ps : List (List Char)} {s : List Char} (hne : ps ≠ []) (h : ∀ p ∈ ps, sep ∉ p) :
    splitAt sep s = ps ↔ s = joinWith sep ps := by
  constructor
  · intro hs
    rw [← hs, joinWith_splitAt]
  · intro hs
    rw [hs, splitAt_joinWith hne h]

/-! ### Joining -/

theorem joinWith_cons_eq_flatMap (p : List Char) (ps : List (List Char)) :
    joinWith sep (p :: ps) = p ++ ps.flatMap fun q => sep :: q := by
  induction ps generalizing p with
  | nil => rw [joinWith, List.flatMap_nil, List.append_nil]
  | cons q ps ih => rw [joinWith, ih, List.flatMap_cons, List.cons_append]

theorem joinWith_append {ps qs : List (List Char)} (hp : ps ≠ []) (hq : qs ≠ []) :
    joinWith sep (ps ++ qs) = joinWith sep ps ++ sep :: joinWith sep qs := by
  induction ps with
  | nil => exact absurd rfl hp
  | cons p ps ih =>
    by_cases hps : ps = []
    · rw [hps, List.cons_append, List.nil_append, joinWith_cons sep p hq, joinWith]
    · rw [List.cons_append, joinWith_cons sep p (List.append_ne_nil_of_left_ne_nil hps qs), ih hps]
      rw [joinWith_cons sep p hps, List.append_assoc, List.cons_append]

/-- A character that joined pieces hold is the separator or in a piece. -/
theorem mem_joinWith {c : Char} {ps : List (List Char)} (h : c ∈ joinWith sep ps) :
    c = sep ∨ ∃ p ∈ ps, c ∈ p := by
  cases ps with
  | nil => exact absurd h List.not_mem_nil
  | cons p ps =>
    rw [joinWith_cons_eq_flatMap, List.mem_append, List.mem_flatMap] at h
    rcases h with h | ⟨q, hq, h⟩
    · exact .inr ⟨p, List.mem_cons_self, h⟩
    · rcases List.mem_cons.mp h with rfl | h
      · exact .inl rfl
      · exact .inr ⟨q, List.mem_cons_of_mem p hq, h⟩

/-! ### Replacing -/

theorem replaceChar_of_notMem {a b : Char} {s : List Char} (h : a ∉ s) : replaceChar a b s = s := by
  refine (List.map_congr_left fun c hc => ?_).trans (List.map_id s)
  refine if_neg ?_
  rintro rfl
  exact h hc

theorem notMem_replaceChar {a b : Char} (hab : a ≠ b) (s : List Char) : a ∉ replaceChar a b s := by
  intro h
  obtain ⟨c, -, hc⟩ := List.mem_map.mp h
  split at hc
  · exact hab hc.symm
  · rename_i hca
    exact hca hc

/-- Joining with one separator is joining with another one and writing this one instead. -/
theorem replaceChar_joinWith {b : Char} {ps : List (List Char)} (h : ∀ p ∈ ps, sep ∉ p) :
    replaceChar sep b (joinWith sep ps) = joinWith b ps := by
  induction ps with
  | nil => rfl
  | cons p ps ih =>
    have hp := replaceChar_of_notMem (b := b) (h p List.mem_cons_self)
    have hr := ih fun q hq => h q (List.mem_cons_of_mem p hq)
    by_cases hps : ps = []
    · rw [hps, joinWith, joinWith, hp]
    · rw [joinWith_cons sep p hps, joinWith_cons b p hps, ← hr]
      rw [replaceChar, List.map_append, List.map_cons, if_pos rfl]
      exact congrArg (· ++ b :: replaceChar sep b (joinWith sep ps)) hp

/-! ### The last separator -/

theorem splitLast_eq_none_iff {s : List Char} : splitLast sep s = none ↔ sep ∉ s := by
  induction s with
  | nil => simp [splitLast]
  | cons c s ih =>
    rw [splitLast, List.mem_cons, not_or, ← ih]
    cases splitLast sep s with
    | none => simp [eq_comm]
    | some r => simp

theorem splitLast_append {after : List Char} (h : sep ∉ after) (before : List Char) :
    splitLast sep (before ++ sep :: after) = some (before, after) := by
  induction before with
  | nil =>
    rw [List.nil_append, splitLast, splitLast_eq_none_iff.mpr h]
    exact if_pos rfl
  | cons c before ih => rw [List.cons_append, splitLast, ih]

/-- The text before the last separator and the text after it. -/
theorem splitLast_eq_some_iff {s before after : List Char} :
    splitLast sep s = some (before, after) ↔ s = before ++ sep :: after ∧ sep ∉ after := by
  constructor
  · intro h
    induction s generalizing before with
    | nil => cases h
    | cons c s ih =>
      rw [splitLast] at h
      split at h
      · rename_i b a hs
        obtain ⟨rfl, rfl⟩ := Prod.mk.inj (Option.some.inj h)
        obtain ⟨rfl, ha⟩ := ih hs
        exact ⟨rfl, ha⟩
      · rename_i hs
        split at h
        · rename_i hc
          obtain ⟨rfl, rfl⟩ := Prod.mk.inj (Option.some.inj h)
          exact ⟨by rw [hc, List.nil_append], splitLast_eq_none_iff.mp hs⟩
        · cases h
  · rintro ⟨rfl, ha⟩
    exact splitLast_append ha before

end SurfaceRegistry.Text
