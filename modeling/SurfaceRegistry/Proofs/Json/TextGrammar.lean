import Mathlib
import SurfaceRegistry.Json.Tree

/-!
# The grammar of texts

A text is a row of parts between quotation marks: characters as they are, characters by an escape of one
letter, and UTF-16 code units by their number. What the parts make up is said without a reader
(`charsOf`): a code unit that is the first half of a surrogate pair waits for the second half, and without it
there is no text. The reader is shown to read exactly this (`SpellsText.read`, `spellsText_of_readText`); both
directions rest on what it does at one part (`SpellsPart.readChars`).
-/

namespace SurfaceRegistry.Json.Tree

/-- A part of a text. -/
inductive TextPart where
  /-- A character. -/
  | char (c : Char)
  /-- A code unit that is given by its number. -/
  | unit (u : Nat)

/-- The spelling of a part of a text. -/
inductive SpellsPart : TextPart → List Char → Prop where
  | plain {c : Char} : c ≠ '"' → c ≠ '\\' → 0x20 ≤ c.toNat → SpellsPart (.char c) [c]
  | short {c e : Char} : shortEscape? c = some e → SpellsPart (.char e) ['\\', c]
  | unit {a b c d : Char} {w x y z : Nat} :
      Text.hexValue? a = some w → Text.hexValue? b = some x → Text.hexValue? c = some y →
        Text.hexValue? d = some z →
        SpellsPart (.unit (16 * (16 * (16 * w + x) + y) + z)) ['\\', 'u', a, b, c, d]

/-- The first half of a surrogate pair that a part leaves unfinished, where `high` is one just before it. -/
def unfinishedAfter (high : Option Nat) : TextPart → Option Nat
  | .char _ => none
  | .unit u => if high.isNone && isHighSurrogate u then some u else none

/-- The characters of a part and of what follows it, where `high` is the first half of a surrogate pair just
before the part. -/
def prepend (high : Option Nat) (p : TextPart) (cs : Option (List Char)) : Option (List Char) :=
  match high, p with
  | none, .char c => cs.map (c :: ·)
  | none, .unit u =>
    if isHighSurrogate u then cs else if isLowSurrogate u then none else cs.map (Char.ofNat u :: ·)
  | some h, .unit u => if isLowSurrogate u then cs.map (Char.ofNat (pairCode h u) :: ·) else none
  | some _, .char _ => none

/-- The characters that the parts of a text make up, unless one is half of a surrogate pair. -/
def charsOf : Option Nat → List TextPart → Option (List Char)
  | high, [] => if high.isSome then none else some []
  | high, p :: ps => prepend high p (charsOf (unfinishedAfter high p) ps)

/-- The spelling of a text. -/
inductive SpellsText : Option String → List Char → Prop where
  | parts {ps : List TextPart} {ss : List (List Char)} :
      List.Forall₂ SpellsPart ps ss →
        SpellsText ((charsOf none ps).map String.ofList) ('"' :: (ss.flatten ++ ['"']))

/-! ### What is read at one part -/

theorem readChars_unit {a b c d : Char} {w x y : Nat} (ha : Text.hexValue? a = some w)
    (hb : Text.hexValue? b = some x) (hc : Text.hexValue? c = some y) (high : Option Nat) (r : List Char) :
    readChars .plain high ('\\' :: 'u' :: a :: b :: c :: d :: r) =
      readChars (.hex 1 (16 * (16 * w + x) + y)) high (d :: r) := by
  rw [readChars, if_neg (by decide), if_pos rfl, readChars, if_pos rfl]
  simp only [readChars, ha, hb, hc]
  simp

theorem consAfter_eq (high : Option Nat) (c : Char) (t : Option TextAndRest) :
    consAfter high c t = t.map fun t => (prepend high (.char c) t.1, t.2) := by
  cases high <;> rfl

/-- A part is read off, and what follows it decides the rest. -/
theorem SpellsPart.readChars {p : TextPart} {s : List Char} (h : SpellsPart p s) (high : Option Nat)
    (r : List Char) :
    Tree.readChars .plain high (s ++ r) =
      (Tree.readChars .plain (unfinishedAfter high p) r).map fun t => (prepend high p t.1, t.2) := by
  cases h with
  | plain hq hb hc =>
    rw [List.singleton_append, Tree.readChars, if_neg hq, if_neg hb, if_neg (by omega), consAfter_eq]
    rfl
  | @short c e he =>
    have hu : c ≠ 'u' := by
      rintro rfl
      cases he
    rw [List.cons_append, List.singleton_append, Tree.readChars, if_neg (by decide), if_pos rfl,
      Tree.readChars, if_neg hu, he, ← consAfter_eq]
    rfl
  | unit ha hb hc hd =>
    simp only [List.cons_append, List.nil_append]
    rw [readChars_unit ha hb hc, Tree.readChars, hd]
    simp only [ne_eq, not_true_eq_false, if_false]
    cases high with
    | none =>
      simp only [unfinishedAfter, prepend, Option.isNone_none, Bool.true_and]
      split_ifs <;> simp [consChar, spoil]
    | some h =>
      simp only [unfinishedAfter, prepend, Option.isNone_some, Bool.false_and, Bool.false_eq_true, if_false]
      split_ifs <;> rfl

/-! ### Every spelling is read -/

theorem readChars_of_spells {ps : List TextPart} {ss : List (List Char)}
    (h : List.Forall₂ SpellsPart ps ss) (high : Option Nat) (r : List Char) :
    readChars .plain high (ss.flatten ++ '"' :: r) = some (charsOf high ps, r) := by
  induction h generalizing high with
  | nil => rfl
  | cons hp _ ih =>
    rw [List.flatten_cons, List.append_assoc, hp.readChars, ih]
    rfl

/-- A spelling is read as its text, whatever follows. -/
theorem SpellsText.read {v : Option String} {s : List Char} (h : SpellsText v s) :
    ∃ q, s = '"' :: q ∧ ∀ r, readText (q ++ r) = some (v, r) := by
  obtain ⟨h⟩ := h
  refine ⟨_, rfl, fun r => ?_⟩
  rw [readText, List.append_assoc, List.singleton_append, readChars_of_spells h]
  rfl

/-! ### What is read is a spelling -/

/-- What is read after a backslash and the letter for a code unit begins with four digits. -/
theorem digits_of_readChars {high : Option Nat} {s : List Char} {t : TextAndRest}
    (h : readChars (.hex 4 0) high s = some t) :
    ∃ a b c d w x y z r, s = a :: b :: c :: d :: r ∧ Text.hexValue? a = some w ∧
      Text.hexValue? b = some x ∧ Text.hexValue? c = some y ∧ Text.hexValue? d = some z := by
  have hdigit {left value : Nat} {s : List Char} (h : readChars (.hex left value) high s = some t) :
      ∃ c d r, s = c :: r ∧ Text.hexValue? c = some d ∧
        (left ≠ 1 → readChars (.hex (left - 1) (16 * value + d)) high r = some t) := by
    cases s with
    | nil => cases h
    | cons c r =>
      rw [readChars] at h
      split at h
      · cases h
      · rename_i d hd
        refine ⟨c, d, r, rfl, hd, fun hleft => ?_⟩
        simpa only [if_pos hleft] using h
  obtain ⟨a, w, s, rfl, ha, h⟩ := hdigit h
  obtain ⟨b, x, s, rfl, hb, h⟩ := hdigit (h (by decide))
  obtain ⟨c, y, s, rfl, hc, h⟩ := hdigit (h (by decide))
  obtain ⟨d, z, r, rfl, hd, -⟩ := hdigit (h (by decide))
  exact ⟨a, b, c, d, w, x, y, z, r, rfl, ha, hb, hc, hd⟩

/-- What is read of a text is its end, or begins with a part. -/
theorem end_or_part_of_readChars {high : Option Nat} {s : List Char} {t : TextAndRest}
    (h : readChars .plain high s = some t) :
    (∃ r, s = '"' :: r) ∨ ∃ p q r, SpellsPart p q ∧ q ≠ [] ∧ s = q ++ r := by
  cases s with
  | nil => cases h
  | cons c s =>
    by_cases hq : c = '"'
    · exact .inl ⟨s, by rw [hq]⟩
    refine .inr ?_
    rw [readChars, if_neg hq] at h
    split_ifs at h with hb hc
    · subst hb
      cases s with
      | nil => cases h
      | cons e s =>
        rw [readChars] at h
        split_ifs at h with hu
        · subst hu
          obtain ⟨a, b, c, d, w, x, y, z, r, rfl, ha, hb, hc, hd⟩ := digits_of_readChars h
          exact ⟨_, _, r, .unit ha hb hc hd, by simp, rfl⟩
        · split at h
          · cases h
          · rename_i he
            exact ⟨_, _, s, .short he, by simp, rfl⟩
    · exact ⟨_, _, s, .plain hq hb (by omega), by simp, rfl⟩

theorem spells_of_readChars {high : Option Nat} {s r : List Char} {cs : Option (List Char)}
    (h : readChars .plain high s = some (cs, r)) :
    ∃ ps ss, List.Forall₂ SpellsPart ps ss ∧ s = ss.flatten ++ '"' :: r ∧ cs = charsOf high ps := by
  induction hn : s.length using Nat.strongRecOn generalizing s high cs with
  | ind n ih =>
    obtain ⟨q, rfl⟩ | ⟨p, q, rest, hp, hne, rfl⟩ := end_or_part_of_readChars h
    · rw [readChars, if_pos rfl] at h
      cases h
      exact ⟨[], [], .nil, rfl, rfl⟩
    · rw [hp.readChars] at h
      obtain ⟨⟨cs', r'⟩, h', heq⟩ := Option.map_eq_some_iff.mp h
      cases heq
      have hlength : rest.length < n := by
        have := List.length_pos_of_ne_nil hne
        rw [← hn, List.length_append]
        omega
      obtain ⟨ps, ss, hps, rfl, rfl⟩ := ih _ hlength h' rfl
      exact ⟨p :: ps, q :: ss, .cons hp hps, by simp, rfl⟩

/-- What is read as a text is a spelling of it. -/
theorem spellsText_of_readText {s r : List Char} {v : Option String} (h : readText s = some (v, r)) :
    ∃ q, '"' :: s = q ++ r ∧ SpellsText v q := by
  obtain ⟨⟨cs, r'⟩, h', heq⟩ := Option.map_eq_some_iff.mp h
  cases heq
  obtain ⟨ps, ss, hps, rfl, rfl⟩ := spells_of_readChars h'
  exact ⟨_, by simp, .parts hps⟩

end SurfaceRegistry.Json.Tree
