import Mathlib
import SurfaceRegistry.Json.Numeral

/-!
# The grammar of numbers

What a number may look like is said without a reader (`Numeral.Spells`), and the reader is shown to read
exactly this: every spelling is read as its number, where what follows cannot go on it (`Spells.scan`), and
what is read as a number is a spelling of it (`Numeral.spells_of_scan`). The condition on what follows is
carried from right to left: after the power of ten no part of a number may follow, before it no digit and no
point, before the decimal places no digit.
-/

namespace SurfaceRegistry.Json

/-- Where a text goes on, it does so with no character of a class. -/
def GoesOnWithout (p : Char → Bool) (s : List Char) : Prop :=
  ∀ c ∈ s.head?, p c = false

theorem span_of_goesOnWithout {p : Char → Bool} {ds r : List Char} (hd : ∀ c ∈ ds, p c = true)
    (hr : GoesOnWithout p r) : (ds ++ r).takeWhile p = ds ∧ (ds ++ r).dropWhile p = r := by
  rw [List.takeWhile_append_of_pos hd, List.dropWhile_append_of_pos hd]
  cases r with
  | nil => simp
  | cons c r => simp [hr c rfl]

namespace Numeral

/-- Digits, at least one. -/
structure AreDigits (ds : List Char) : Prop where
  ne_nil : ds ≠ []
  isDigit : ∀ c ∈ ds, c.isDigit = true

/-- The spelling of decimal places, which may be missing. -/
inductive SpellsFraction : List Char → List Char → Prop where
  | none : SpellsFraction [] []
  | point {ds : List Char} : AreDigits ds → SpellsFraction ds ('.' :: ds)

/-- The spelling of the sign of a power of ten. -/
inductive SpellsSign : Bool → List Char → Prop where
  | none : SpellsSign false []
  | plus : SpellsSign false ['+']
  | minus : SpellsSign true ['-']

/-- The spelling of a power of ten, which may be missing. -/
inductive SpellsExponent : Option (Bool × List Char) → List Char → Prop where
  | none : SpellsExponent none []
  | power {e : Char} {negative : Bool} {sign ds : List Char} :
      e = 'e' ∨ e = 'E' → SpellsSign negative sign → AreDigits ds →
        SpellsExponent (some (negative, ds)) (e :: (sign ++ ds))

/-- The spelling of a number: a minus or none, digits with no zero in front of others, and possibly decimal
places and a power of ten. -/
inductive Spells : Numeral → List Char → Prop where
  | parts {negative : Bool} {whole fraction : List Char} {exponent : Option (Bool × List Char)}
      {places power : List Char} :
      AreDigits whole → (∀ ds, whole = '0' :: ds → ds = []) → SpellsFraction fraction places →
        SpellsExponent exponent power →
        Spells ⟨negative, whole, fraction, exponent⟩
          ((if negative then ['-'] else []) ++ (whole ++ (places ++ power)))

/-- Whether a character can go on a number. -/
def continues (c : Char) : Bool :=
  c.isDigit || c == '.' || c == 'e' || c == 'E'

variable {r : List Char}

theorem SpellsExponent.goesOnWithout {exponent : Option (Bool × List Char)} {power : List Char}
    (h : SpellsExponent exponent power) (hr : GoesOnWithout continues r) :
    GoesOnWithout (fun c => c.isDigit || c == '.') (power ++ r) := by
  cases h with
  | none =>
    intro c hc
    have := hr c hc
    simp only [continues, Bool.or_eq_false_iff] at this ⊢
    exact this.1.1
  | power he _ _ =>
    intro c hc
    obtain rfl : _ = c := Option.some.inj hc
    rcases he with rfl | rfl <;> decide

theorem SpellsFraction.goesOnWithout {fraction places s : List Char} (h : SpellsFraction fraction places)
    (hs : GoesOnWithout (fun c => c.isDigit || c == '.') s) : GoesOnWithout Char.isDigit (places ++ s) := by
  cases h with
  | none =>
    intro c hc
    have := hs c hc
    simp only [Bool.or_eq_false_iff] at this
    exact this.1
  | point _ =>
    intro c hc
    obtain rfl : _ = c := Option.some.inj hc
    decide

theorem scanWhole_of_digits {whole s : List Char} (h : AreDigits whole)
    (hzero : ∀ ds, whole = '0' :: ds → ds = []) (hs : GoesOnWithout Char.isDigit s) :
    scanWhole (whole ++ s) = some (whole, s) := by
  obtain ⟨ht, hd⟩ := span_of_goesOnWithout h.isDigit hs
  rw [scanWhole, ht, hd]
  split
  · exact absurd rfl h.ne_nil
  · exact absurd (hzero _ rfl) (by simp)
  · rfl

theorem scanFraction_of_spells {fraction places s : List Char} (h : SpellsFraction fraction places)
    (hs : GoesOnWithout (fun c => c.isDigit || c == '.') s) :
    scanFraction (places ++ s) = some (fraction, s) := by
  cases h with
  | none =>
    rw [List.nil_append]
    cases s with
    | nil => rfl
    | cons c s =>
      have hc := hs c rfl
      rw [scanFraction]
      rintro _ h
      obtain ⟨rfl, -⟩ := List.cons.inj h
      exact absurd hc (by decide)
  | point h =>
    have hd : GoesOnWithout Char.isDigit s := fun c hc => (Bool.or_eq_false_iff.mp (hs c hc)).1
    obtain ⟨ht, hr⟩ := span_of_goesOnWithout h.isDigit hd
    rw [List.cons_append, scanFraction]
    simp [ht, hr, h.ne_nil]

theorem scanExponentSign_of_spells {negative : Bool} {sign ds : List Char} (h : SpellsSign negative sign)
    (hd : AreDigits ds) : scanExponentSign (sign ++ (ds ++ r)) = (negative, ds ++ r) := by
  cases h with
  | none =>
    cases ds with
    | nil => exact absurd rfl hd.ne_nil
    | cons c ds =>
      have hc := hd.isDigit c List.mem_cons_self
      rw [List.nil_append, List.cons_append, scanExponentSign]
      · rintro _ h
        obtain ⟨rfl, -⟩ := List.cons.inj h
        exact absurd hc (by decide)
      · rintro _ h
        obtain ⟨rfl, -⟩ := List.cons.inj h
        exact absurd hc (by decide)
  | plus => rfl
  | minus => rfl

theorem scanExponent_of_spells {exponent : Option (Bool × List Char)} {power : List Char}
    (h : SpellsExponent exponent power) (hr : GoesOnWithout continues r) :
    scanExponent (power ++ r) = some (exponent, r) := by
  cases h with
  | none =>
    rw [List.nil_append]
    cases r with
    | nil => rfl
    | cons c r =>
      have hc := hr c rfl
      rw [scanExponent]
      · rintro _ h
        obtain ⟨rfl, -⟩ := List.cons.inj h
        exact absurd hc (by decide)
      · rintro _ h
        obtain ⟨rfl, -⟩ := List.cons.inj h
        exact absurd hc (by decide)
  | @power e negative sign ds he hsign hd =>
    have hdigit : GoesOnWithout Char.isDigit r := fun c hc => by
      have := hr c hc
      simp only [continues, Bool.or_eq_false_iff] at this
      exact this.1.1.1
    obtain ⟨ht, hdrop⟩ := span_of_goesOnWithout hd.isDigit hdigit
    have hdigits : scanExponentDigits (sign ++ (ds ++ r)) = some (some (negative, ds), r) := by
      rw [scanExponentDigits, scanExponentSign_of_spells hsign hd]
      simp [ht, hdrop, hd.ne_nil]
    rw [List.cons_append, List.append_assoc]
    rcases he with rfl | rfl
    · exact hdigits
    · exact hdigits

/-- A number is read from its spelling, if what follows cannot go on it. -/
theorem Spells.scan {n : Numeral} {s : List Char} (h : n.Spells s) (hr : GoesOnWithout continues r) :
    Numeral.scan (s ++ r) = some (n, r) := by
  obtain ⟨hwhole, hzero, hfraction, hexponent⟩ := h
  rename_i negative whole fraction exponent places power
  have hpower := hexponent.goesOnWithout hr
  have hunsigned : scanUnsigned negative (whole ++ (places ++ (power ++ r))) =
      some (⟨negative, whole, fraction, exponent⟩, r) := by
    rw [scanUnsigned, scanWhole_of_digits hwhole hzero (hfraction.goesOnWithout hpower)]
    simp [scanFraction_of_spells hfraction hpower, scanExponent_of_spells hexponent hr]
  cases negative with
  | true => simpa [Numeral.scan] using hunsigned
  | false =>
    rw [if_neg Bool.false_ne_true, List.nil_append, List.append_assoc, List.append_assoc, Numeral.scan,
      hunsigned]
    cases whole with
    | nil => exact absurd rfl hwhole.ne_nil
    | cons _ ds =>
      rintro _ hc
      obtain ⟨rfl, -⟩ := List.cons.inj hc
      exact absurd (hwhole.isDigit '-' List.mem_cons_self) (by decide)

/-! ### What is read -/

theorem areDigits_takeWhile {s : List Char} (h : s.takeWhile Char.isDigit ≠ []) :
    AreDigits (s.takeWhile Char.isDigit) :=
  ⟨h, fun _ hc => List.mem_takeWhile_imp hc⟩

theorem of_scanWhole {s whole t : List Char} (h : scanWhole s = some (whole, t)) :
    s = whole ++ t ∧ AreDigits whole ∧ ∀ ds, whole = '0' :: ds → ds = [] := by
  unfold scanWhole at h
  split at h
  · cases h
  · cases h
  · rename_i hnil hzero
    cases h
    refine ⟨List.takeWhile_append_dropWhile.symm, areDigits_takeWhile hnil, fun ds hds => ?_⟩
    cases ds with
    | nil => rfl
    | cons d ds => exact absurd hds (hzero d ds)

theorem of_scanFraction {s fraction t : List Char} (h : scanFraction s = some (fraction, t)) :
    ∃ places, s = places ++ t ∧ SpellsFraction fraction places := by
  unfold scanFraction at h
  split at h
  · simp only at h
    split at h
    · cases h
    · rename_i hne
      cases h
      refine ⟨_, ?_, .point (areDigits_takeWhile (by simpa using hne))⟩
      rw [List.cons_append, List.takeWhile_append_dropWhile]
  · cases h
    exact ⟨[], rfl, .none⟩

theorem of_scanExponentSign (s : List Char) :
    ∃ sign, s = sign ++ (scanExponentSign s).2 ∧ SpellsSign (scanExponentSign s).1 sign := by
  unfold scanExponentSign
  split
  · exact ⟨['+'], rfl, .plus⟩
  · exact ⟨['-'], rfl, .minus⟩
  · exact ⟨[], rfl, .none⟩

theorem of_scanExponent {s t : List Char} {exponent : Option (Bool × List Char)}
    (h : scanExponent s = some (exponent, t)) :
    ∃ power, s = power ++ t ∧ SpellsExponent exponent power := by
  have hdigits (e : Char) (he : e = 'e' ∨ e = 'E') (r : List Char)
      (h : scanExponentDigits r = some (exponent, t)) :
      ∃ power, e :: r = power ++ t ∧ SpellsExponent exponent power := by
    obtain ⟨sign, hr, hsign⟩ := of_scanExponentSign r
    unfold scanExponentDigits at h
    simp only at h
    split at h
    · cases h
    · rename_i hne
      cases h
      refine ⟨_, ?_, .power he hsign (areDigits_takeWhile (by simpa using hne))⟩
      rw [List.cons_append, List.append_assoc, List.takeWhile_append_dropWhile, ← hr]
  unfold scanExponent at h
  split at h
  · exact hdigits 'e' (.inl rfl) _ h
  · exact hdigits 'E' (.inr rfl) _ h
  · cases h
    exact ⟨[], rfl, .none⟩

theorem of_scanUnsigned {negative : Bool} {s : List Char} {n : Numeral}
    (h : scanUnsigned negative s = some (n, r)) :
    ∃ p, s = p ++ r ∧ n.Spells ((if negative then ['-'] else []) ++ p) := by
  unfold scanUnsigned at h
  obtain ⟨⟨whole, s1⟩, hw, h⟩ := Option.bind_eq_some_iff.mp h
  obtain ⟨⟨fraction, s2⟩, hf, h⟩ := Option.bind_eq_some_iff.mp h
  obtain ⟨⟨exponent, s3⟩, he, h⟩ := Option.bind_eq_some_iff.mp h
  cases h
  obtain ⟨rfl, hwhole, hzero⟩ := of_scanWhole hw
  obtain ⟨places, rfl, hfraction⟩ := of_scanFraction hf
  obtain ⟨power, rfl, hexponent⟩ := of_scanExponent he
  exact ⟨whole ++ (places ++ power), by simp, .parts hwhole hzero hfraction hexponent⟩

/-- What is read as a number is a spelling of it. -/
theorem spells_of_scan {s : List Char} {n : Numeral} (h : Numeral.scan s = some (n, r)) :
    ∃ p, s = p ++ r ∧ n.Spells p := by
  unfold Numeral.scan at h
  split at h
  · obtain ⟨p, rfl, hp⟩ := of_scanUnsigned h
    exact ⟨'-' :: p, rfl, hp⟩
  · obtain ⟨p, rfl, hp⟩ := of_scanUnsigned h
    exact ⟨p, rfl, hp⟩

end Numeral

end SurfaceRegistry.Json
