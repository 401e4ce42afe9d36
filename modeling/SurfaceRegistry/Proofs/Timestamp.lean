import Mathlib
import SurfaceRegistry.Timestamp.Rfc3339

/-!
# Reading timestamps that were written

The text of a timestamp stands for this timestamp (`parse?_chars`). Numbers of a fixed width are read digit
by digit; the zeros that are left out at the end of a part of a second have no value; and an offset of zero
is written in one way only.
-/

namespace SurfaceRegistry.Timestamp

/-! ### Numbers of a fixed width -/

theorem digit?_digitChar : ∀ d < 10, digit? (Nat.digitChar d) = some d := by decide

theorem toNat_digitChar : ∀ d < 10, (Nat.digitChar d).toNat - 48 = d := by decide

theorem isDigit_digitChar : ∀ d < 10, (Nat.digitChar d).isDigit = true := by decide

/-- One more digit after a number. -/
theorem readNumber_succ {v n w d : Nat} {s r : List Char} {c : Char}
    (h : readNumber v n s = some (w, c :: r)) (hd : digit? c = some d) :
    readNumber v (n + 1) s = some (10 * w + d, r) := by
  induction n generalizing v s with
  | zero =>
    rw [readNumber] at h
    cases h
    rw [readNumber, hd]
    rfl
  | succ n ih =>
    cases s with
    | nil => simp [readNumber] at h
    | cons e s =>
      rw [readNumber] at h ⊢
      cases he : digit? e with
      | none => simp [he] at h
      | some k =>
        rw [he] at h
        exact ih h

/-- A number that fits the width is read back. -/
theorem readNumber_paddedDigits {n x : Nat} (hx : x < 10 ^ n) (r : List Char) :
    readNumber 0 n (paddedDigits n x ++ r) = some (x, r) := by
  induction n generalizing x r with
  | zero => simp at hx; simp [hx, readNumber, paddedDigits]
  | succ n ih =>
    have hq : x / 10 < 10 ^ n := by rw [Nat.pow_succ] at hx; omega
    have hm : x % 10 < 10 := Nat.mod_lt _ (by decide)
    rw [paddedDigits, List.append_assoc, List.singleton_append,
      readNumber_succ (ih hq _) (digit?_digitChar _ hm)]
    congr 2
    omega

theorem length_paddedDigits (n x : Nat) : (paddedDigits n x).length = n := by
  induction n generalizing x with
  | zero => rfl
  | succ n ih => simp [paddedDigits, ih]

theorem isDigit_of_mem_paddedDigits {n x : Nat} {c : Char} (h : c ∈ paddedDigits n x) :
    c.isDigit = true := by
  induction n generalizing x with
  | zero => simp [paddedDigits] at h
  | succ n ih =>
    rcases List.mem_append.mp h with h | h
    · exact ih h
    · obtain rfl := List.mem_singleton.mp h
      exact isDigit_digitChar _ (Nat.mod_lt _ (by decide))

theorem bind_of_eq_some {α β : Type} {x : Option α} {f : α → Option β} {a : α} {b : Option β}
    (hx : x = some a) (hf : f a = b) : (x >>= f) = b := by
  rw [hx]
  exact hf

theorem expect_cons (c : Char) (r : List Char) : expect c (c :: r) = some r := if_pos rfl

/-! ### Parts of a second -/

theorem nanosecondsOf_concat {k : Nat} {ds : List Char} (h : ds.length = k) (c : Char) :
    nanosecondsOf (k + 1) (ds ++ [c]) = 10 * nanosecondsOf k ds + (c.toNat - 48) := by
  induction ds generalizing k with
  | nil => subst h; simp [nanosecondsOf]
  | cons d ds ih =>
    subst h
    rw [List.cons_append, nanosecondsOf, List.length_cons, nanosecondsOf, ih rfl]
    simp only [Nat.pow_eq]
    ring

theorem nanosecondsOf_paddedDigits {n x : Nat} (hx : x < 10 ^ n) :
    nanosecondsOf n (paddedDigits n x) = x := by
  induction n generalizing x with
  | zero => simp at hx; simp [hx, nanosecondsOf, paddedDigits]
  | succ n ih =>
    have hq : x / 10 < 10 ^ n := by rw [Nat.pow_succ] at hx; omega
    have hm : x % 10 < 10 := Nat.mod_lt _ (by decide)
    rw [paddedDigits, nanosecondsOf_concat (length_paddedDigits n _), ih hq, toNat_digitChar _ hm]
    omega

/-- Zeros at the end of a part of a second say nothing. -/
theorem nanosecondsOf_dropTrailingZeros (k : Nat) (ds : List Char) :
    nanosecondsOf k (dropTrailingZeros ds) = nanosecondsOf k ds := by
  induction ds generalizing k with
  | nil => rfl
  | cons c ds ih =>
    cases k with
    | zero =>
      have hz (l : List Char) : nanosecondsOf 0 l = 0 := by cases l <;> rfl
      rw [hz, hz]
    | succ k =>
      have hk := ih k
      rw [dropTrailingZeros]
      cases hd : dropTrailingZeros ds with
      | nil =>
        rw [hd] at hk
        have hz : nanosecondsOf k [] = 0 := by cases k <;> rfl
        rw [hz] at hk
        simp only
        split
        · rename_i hc
          subst hc
          simp [nanosecondsOf, ← hk]
        · simp [nanosecondsOf, ← hk, hz]
      | cons d s =>
        rw [hd] at hk
        simp [nanosecondsOf, ← hk]

theorem mem_of_mem_dropTrailingZeros {c : Char} {ds : List Char} (h : c ∈ dropTrailingZeros ds) :
    c ∈ ds := by
  induction ds with
  | nil => exact h
  | cons d ds ih =>
    rw [dropTrailingZeros] at h
    cases hd : dropTrailingZeros ds with
    | nil =>
      rw [hd] at h
      split at h <;> simp_all
    | cons e s =>
      rw [hd] at h ih
      rcases List.mem_cons.mp h with rfl | h
      · exact List.mem_cons_self
      · exact List.mem_cons_of_mem d (ih h)

/-- The rest of a timestamp after its seconds: an offset. -/
theorem offsetChars_head (o : UtcOffset) :
    ∃ c s, offsetChars o = c :: s ∧ c.isDigit = false ∧ c ≠ '.' := by
  rw [offsetChars]
  split
  · exact ⟨_, _, rfl, by decide, by decide⟩
  · refine ⟨_, _, rfl, ?_, ?_⟩ <;> split <;> decide

theorem readFraction_fractionChars {ns : Nat} (hns : ns < 10 ^ 9) (o : UtcOffset) :
    readFraction (fractionChars ns ++ offsetChars o) = some (ns, offsetChars o) := by
  obtain ⟨c, s, hs, hc, hdot⟩ := offsetChars_head o
  rw [fractionChars]
  split
  · rename_i h
    rw [List.nil_append, hs, h, readFraction]
    intro r hr
    exact hdot (List.cons.inj hr).1
  · rename_i h
    have hdigits : ∀ d ∈ dropTrailingZeros (paddedDigits 9 ns), d.isDigit = true := fun d hd =>
      isDigit_of_mem_paddedDigits (mem_of_mem_dropTrailingZeros hd)
    have hvalue : nanosecondsOf 9 (dropTrailingZeros (paddedDigits 9 ns)) = ns := by
      rw [nanosecondsOf_dropTrailingZeros, nanosecondsOf_paddedDigits hns]
    have hne : dropTrailingZeros (paddedDigits 9 ns) ≠ [] := by
      intro hnil
      rw [hnil] at hvalue
      exact h hvalue.symm
    have ht : (dropTrailingZeros (paddedDigits 9 ns) ++ offsetChars o).takeWhile Char.isDigit =
        dropTrailingZeros (paddedDigits 9 ns) := by
      rw [List.takeWhile_append_of_pos hdigits, hs, List.takeWhile_cons_of_neg (by simp [hc]),
        List.append_nil]
    have hr : (dropTrailingZeros (paddedDigits 9 ns) ++ offsetChars o).dropWhile Char.isDigit =
        offsetChars o := by
      rw [List.dropWhile_append_of_pos hdigits, hs, List.dropWhile_cons_of_neg (by simp [hc])]
    rw [List.cons_append, readFraction]
    simp [ht, hr, hne, hvalue]

/-! ### Offsets -/

theorem readSignedOffset_chars (o : UtcOffset) (negative : Bool)
    (ho : o.minutes = if negative then -(o.minutes.natAbs : Int) else o.minutes.natAbs) :
    readSignedOffset negative
      (paddedDigits 2 (o.minutes.natAbs / 60) ++ ':' :: paddedDigits 2 (o.minutes.natAbs % 60)) =
      some o := by
  have hlt := o.minutes_lt
  have hm := readNumber_paddedDigits (n := 2) (x := o.minutes.natAbs % 60) (by omega) []
  rw [List.append_nil] at hm
  have htotal : ((o.minutes.natAbs / 60 : Nat) : Int) * 60 + (o.minutes.natAbs % 60 : Nat) =
      o.minutes.natAbs := by omega
  rw [readSignedOffset]
  refine bind_of_eq_some (readNumber_paddedDigits (by omega) _) ?_
  refine bind_of_eq_some (expect_cons ':' _) ?_
  refine bind_of_eq_some hm ?_
  simp only [htotal, ← ho]
  rw [if_neg (by simp; omega), dif_pos hlt]

theorem readOffset_offsetChars (o : UtcOffset) : readOffset (offsetChars o) = some o := by
  rw [offsetChars]
  split
  · rename_i h
    obtain ⟨minutes, hlt⟩ := o
    simp only at h
    subst h
    rfl
  · split
    · rename_i h
      rw [List.cons_append, readOffset]
      exact readSignedOffset_chars o true (by rw [if_pos rfl]; omega)
    · rename_i h
      rw [List.cons_append, readOffset]
      exact readSignedOffset_chars o false (by rw [if_neg Bool.false_ne_true]; omega)

/-! ### Timestamps -/

theorem date_ofNumbers? (d : Date) : Date.ofNumbers? d.year d.month d.day = some d := by
  rw [Date.ofNumbers?, dif_pos d.year_lt, dif_pos d.month_bounds, dif_pos d.day_bounds]

theorem timeOfDay?_eq (t : TimeOfDay) : timeOfDay? t.hour t.minute t.second t.nanosecond = some t := by
  rw [timeOfDay?, dif_pos ⟨t.hour.isLt, t.minute.isLt, t.second.isLt, t.nanosecond.isLt⟩]

/-- A written timestamp is read back. -/
theorem parse?_chars (t : Timestamp) : parse? t.chars = some t := by
  obtain ⟨date, time, offset⟩ := t
  have hyear := date.year_lt
  have hmonth := date.month_bounds
  have hday := date.day_bounds
  have hlast : daysInMonth date.year date.month ≤ 31 := by
    unfold daysInMonth
    split <;> split <;> omega
  have hsecond := time.second.isLt
  rw [chars, parse?]
  simp only [List.append_assoc, List.cons_append]
  refine bind_of_eq_some (readNumber_paddedDigits (by omega) _) ?_
  refine bind_of_eq_some (expect_cons '-' _) ?_
  refine bind_of_eq_some (readNumber_paddedDigits (by omega) _) ?_
  refine bind_of_eq_some (expect_cons '-' _) ?_
  refine bind_of_eq_some (readNumber_paddedDigits (by omega) _) ?_
  refine bind_of_eq_some (date_ofNumbers? date) ?_
  refine bind_of_eq_some rfl ?_
  refine bind_of_eq_some (readNumber_paddedDigits (by omega) _) ?_
  refine bind_of_eq_some (expect_cons ':' _) ?_
  refine bind_of_eq_some (readNumber_paddedDigits (by omega) _) ?_
  refine bind_of_eq_some (expect_cons ':' _) ?_
  refine bind_of_eq_some (readNumber_paddedDigits (by omega) _) ?_
  refine bind_of_eq_some (readFraction_fractionChars time.nanosecond.isLt offset) ?_
  refine bind_of_eq_some (readOffset_offsetChars offset) ?_
  simp only
  rw [if_neg (by omega)]
  exact bind_of_eq_some (timeOfDay?_eq time) rfl

end SurfaceRegistry.Timestamp
