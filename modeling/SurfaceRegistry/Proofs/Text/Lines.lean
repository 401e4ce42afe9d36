import SurfaceRegistry.Proofs.Text.Split

/-!
# Lines

A text that is written line by line has a line feed at the end of each line. If no line holds one of its own, the text
tells its lines (`Text.HasLines.unique`): they are what is between its line feeds.
-/

namespace SurfaceRegistry.Text

/-- A text that is these lines. -/
structure HasLines (text : String) (lines : List String) : Prop where
  /-- A line feed follows each of them. -/
  text_eq : text = String.join (lines.map (· ++ "\n"))
  /-- They hold no other one. -/
  whole : ∀ line ∈ lines, '\n' ∉ line.toList

/-- A number in decimals holds nothing but digits. -/
theorem notMem_decimals {c : Char} (h : c.isDigit = false) (n : Nat) : c ∉ (toString n).toList := by
  intro hc
  rw [Nat.toString_eq_repr, Nat.toList_repr] at hc
  rw [Nat.isDigit_of_mem_toDigits (by decide) (by decide) hc] at h
  cases h

/-- A line that may be left out is told by what comes next, if no such line does. -/
theorem optionalLine_inj {α : Type} {line : α → String} (hline : Function.Injective line) {a b : Option α}
    {s t : List String} (hs : ∀ x, s.head? ≠ some (line x)) (ht : ∀ x, t.head? ≠ some (line x))
    (h : a.toList.map line ++ s = b.toList.map line ++ t) : a = b ∧ s = t := by
  cases a with
  | none =>
    cases b with
    | none => exact ⟨rfl, h⟩
    | some y => exact absurd (congrArg List.head? h) (hs y)
  | some x =>
    cases b with
    | none => exact absurd (congrArg List.head? h).symm (ht x)
    | some y =>
      obtain ⟨hxy, hst⟩ := List.cons.inj h
      exact ⟨congrArg some (hline hxy), hst⟩

namespace HasLines

variable {text text' : String} {lines lines' : List String}

theorem splitAt_eq (h : HasLines text lines) : splitAt '\n' text.toList = lines.map String.toList ++ [[]] := by
  obtain ⟨rfl, hwhole⟩ := h
  induction lines with
  | nil => rfl
  | cons line lines ih =>
    obtain ⟨hline, hrest⟩ := List.forall_mem_cons.mp hwhole
    have htext : (String.join ((line :: lines).map (· ++ "\n"))).toList =
        line.toList ++ '\n' :: (String.join (lines.map (· ++ "\n"))).toList := by
      simp
    rw [htext, splitAt_append hline, ih hrest, List.map_cons, List.cons_append]

theorem nil : HasLines "" [] where
  text_eq := rfl
  whole := List.forall_mem_nil _

theorem line {line : String} (h : '\n' ∉ line.toList) : HasLines (line ++ "\n") [line] where
  text_eq := by simp
  whole := List.forall_mem_singleton.mpr h

theorem append (h : HasLines text lines) (h' : HasLines text' lines') : HasLines (text ++ text') (lines ++ lines') where
  text_eq := by rw [h.text_eq, h'.text_eq, List.map_append, String.join_append]
  whole := List.forall_mem_append.mpr ⟨h.whole, h'.whole⟩

/-- Texts that are written one after another have the lines of all of them. -/
theorem join {α : Type} {f : α → String} {g : α → List String} {xs : List α} (h : ∀ x ∈ xs, HasLines (f x) (g x)) :
    HasLines (String.join (xs.map f)) (xs.flatMap g) := by
  induction xs with
  | nil => exact .nil
  | cons x xs ih =>
    obtain ⟨hx, hxs⟩ := List.forall_mem_cons.mp h
    rw [List.map_cons, String.join_cons, List.flatMap_cons]
    exact hx.append (ih hxs)

/-- A text has its lines in one way only. -/
theorem unique (h : HasLines text lines) (h' : HasLines text lines') : lines = lines' := by
  have hsame := h.splitAt_eq.symm.trans h'.splitAt_eq
  rw [List.append_cancel_right_eq] at hsame
  have hinj : Function.Injective String.toList := fun _ _ => String.toList_inj.mp
  exact hinj.list_map hsame

end HasLines

end SurfaceRegistry.Text
