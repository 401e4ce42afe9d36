/-!
# Splitting at a separator

`pieces sep` takes a text apart at every `sep`: the first piece, and one more for each separator. There
is always a first piece, and any piece may be empty. `joinWith sep` puts pieces together again, and
undoes the splitting.
-/

namespace SurfaceRegistry.Text

/-- The piece before the first separator, and the pieces after each separator. -/
def pieces (sep : Char) : List Char → List Char × List (List Char)
  | [] => ([], [])
  | c :: r =>
    let (p, ps) := pieces sep r
    if c = sep then ([], p :: ps) else (c :: p, ps)

/-- All the pieces of a text between the separators. -/
def splitAt (sep : Char) (s : List Char) : List (List Char) :=
  (pieces sep s).1 :: (pieces sep s).2

/-- The pieces with a separator between each and the next. -/
def joinWith (sep : Char) : List (List Char) → List Char
  | [] => []
  | [p] => p
  | p :: q :: ps => p ++ sep :: joinWith sep (q :: ps)

/-- The text before the last separator and the text after it. -/
def splitLast (sep : Char) : List Char → Option (List Char × List Char)
  | [] => none
  | c :: r =>
    match splitLast sep r with
    | some (before, after) => some (c :: before, after)
    | none => if c = sep then some ([], r) else none

/-- Every `a` written as `b`. -/
def replaceChar (a b : Char) (s : List Char) : List Char :=
  s.map fun c => if c = a then b else c

theorem joinWith_cons (sep : Char) (p : List Char) {ps : List (List Char)} (h : ps ≠ []) :
    joinWith sep (p :: ps) = p ++ sep :: joinWith sep ps := by
  cases ps with
  | nil => exact absurd rfl h
  | cons q qs => rfl

/-- A character written before the first piece is written before the whole. -/
theorem joinWith_cons_cons (sep c : Char) (p : List Char) (ps : List (List Char)) :
    joinWith sep ((c :: p) :: ps) = c :: joinWith sep (p :: ps) := by
  cases ps <;> rfl

/-- Joining the pieces of a text gives the text. -/
theorem joinWith_splitAt (sep : Char) (s : List Char) : joinWith sep (splitAt sep s) = s := by
  induction s with
  | nil => rfl
  | cons c r ih =>
    simp only [splitAt, pieces] at ih ⊢
    split
    · rename_i h
      rw [joinWith_cons sep [] (by simp), ih, h, List.nil_append]
    · rw [joinWith_cons_cons, ih]

end SurfaceRegistry.Text
