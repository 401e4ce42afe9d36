import Mathlib.Data.List.Basic
import SurfaceRegistry.Check

/-!
# Blank configurations

A blank text states nothing, whether or not it is a document. As a document it is read just when all that it holds is
spaces, tabs and ends of lines (`Toml.IsBlankLines`): white space is more than that, and the first character that a
document does not go over begins a line that is none. So loading a blank text without a look at it differs from reading
it in the other blank texts, which are no documents (`Config.parse_of_blank`).
-/

namespace SurfaceRegistry

/-! ### White space in documents -/

namespace Toml

open Text (isWhiteSpace)

variable {c : Char} {s : List Char}

/-- A document goes over a space, a tab, a line feed, and a carriage return with a line feed behind it. -/
def GoesOver (c : Char) (s : List Char) : Prop :=
  c = ' ' ∨ c = '\t' ∨ c = '\n' ∨ c = '\r' ∧ s.head? = some '\n'

/-- A text of spaces, tabs and ends of lines. -/
structure IsBlankLines (s : List Char) : Prop where
  /-- It holds no other characters than these four. -/
  chars : ∀ c ∈ s, c ∈ [' ', '\t', '\n', '\r']
  /-- A line feed stands behind each carriage return. -/
  returns : ∀ before after, s = before ++ '\r' :: after → after.head? = some '\n'

@[simp] theorem isBlankLines_nil : IsBlankLines [] where
  chars := List.forall_mem_nil _
  returns before after h := absurd h.symm (List.append_ne_nil_of_right_ne_nil before (List.cons_ne_nil _ after))

@[simp] theorem isBlankLines_cons_iff : IsBlankLines (c :: s) ↔ GoesOver c s ∧ IsBlankLines s := by
  constructor
  · rintro ⟨hchars, hreturns⟩
    obtain ⟨hc, hs⟩ := List.forall_mem_cons.mp hchars
    refine ⟨?_, hs, fun before after h => hreturns (c :: before) after (congrArg (c :: ·) h)⟩
    simp only [List.mem_cons, List.not_mem_nil, or_false] at hc
    rcases hc with rfl | rfl | rfl | rfl
    · exact .inl rfl
    · exact .inr (.inl rfl)
    · exact .inr (.inr (.inl rfl))
    · exact .inr (.inr (.inr ⟨rfl, hreturns [] s rfl⟩))
  · rintro ⟨hc, hs⟩
    refine ⟨List.forall_mem_cons.mpr ⟨?_, hs.chars⟩, fun before after h => ?_⟩
    · rcases hc with rfl | rfl | rfl | ⟨rfl, -⟩ <;> decide
    · cases before with
      | nil =>
        obtain ⟨rfl, rfl⟩ := List.cons.inj h
        simpa [GoesOver] using hc
      | cons d before => exact hs.returns before after (List.cons.inj h).2

/-! ### Lines -/

theorem skipLines_of_goesOver (h : GoesOver c s) : skipLines (c :: s) = skipLines s := by
  rcases h with rfl | rfl | rfl | ⟨rfl, h⟩
  · simp [skipLines, skipLinesIn, isSpace]
  · simp [skipLines, skipLinesIn, isSpace]
  · simp [skipLines, skipLinesIn]
  · obtain ⟨r, rfl⟩ := List.head?_eq_some_iff.mp h
    simp [skipLines, skipLinesIn]

/-- What a document does not go over begins a line, if it is no comment. -/
theorem skipLines_of_not_goesOver (h : ¬GoesOver c s) (hc : c ≠ '#') : skipLines (c :: s) = some (c :: s) := by
  simp only [GoesOver, not_or, not_and] at h
  obtain ⟨hspace, htab, hfeed, hreturn⟩ := h
  have hhead : ∀ r, c = '\r' → s ≠ '\n' :: r := by
    rintro r hcr rfl
    exact hreturn hcr rfl
  rw [skipLines, skipLinesIn]
  · simp [isSpace, hspace, htab, hc]
  · exact hfeed
  · exact fun r hcr hs => hhead r hcr hs

theorem toNat_of_isWhiteSpace (h : isWhiteSpace c = true) : c.toNat ≤ 13 ∨ c.toNat = 32 ∨ 128 ≤ c.toNat := by
  obtain ⟨range, hrange, hle, hge⟩ := Text.inRanges_eq_true_iff.mp h
  simp only [Text.whiteSpaceRanges, List.mem_cons, List.not_mem_nil, or_false] at hrange
  rcases hrange with rfl | rfl | rfl | rfl | rfl | rfl | rfl | rfl | rfl | rfl <;> simp only at hle hge <;> omega

theorem toNat_of_isBareKeyChar (h : isBareKeyChar c = true) : 45 ≤ c.toNat ∧ c.toNat ≤ 122 := by
  have hval : c.toNat = c.val.toNat := rfl
  unfold isBareKeyChar Char.isAlphanum Char.isAlpha Char.isUpper Char.isLower at h
  simp only [Bool.or_eq_true, Bool.and_eq_true, decide_eq_true_eq, beq_iff_eq, Char.isDigit_iff_toNat, ge_iff_le,
    UInt32.le_iff_toNat_le, Char.reduceVal, UInt32.reduceToNat, Char.reduceToNat] at h
  rcases h with (h | rfl) | rfl
  · omega
  · decide
  · decide

/-- No line begins with white space: neither a header nor a key does. -/
theorem readLine_of_isWhiteSpace (h : isWhiteSpace c = true) : readLine (c :: s) = none := by
  have hrange := toNat_of_isWhiteSpace h
  have hne : ∀ d : Char, 32 < d.toNat → d.toNat < 128 → c ≠ d := by
    rintro d hlow hhigh rfl
    omega
  have hbare : isBareKeyChar c = false := by
    rw [Bool.eq_false_iff]
    intro hbare
    have := toNat_of_isBareKeyChar hbare
    omega
  have hword : readWord (c :: s) = none := by
    rw [readWord]
    · simp [hbare]
    · exact fun r hr => hne '"' (by decide) (by decide) (List.cons.inj hr).1
    · exact fun r hr => hne '\'' (by decide) (by decide) (List.cons.inj hr).1
  have hbracket := hne '[' (by decide) (by decide)
  simp [readLine, hbracket, readKey, readWords, hword]

/-- A document goes over blank lines, and what it does not go over in a blank text begins a line. -/
theorem skipLines_blank (h : ∀ c ∈ s, isWhiteSpace c = true) :
    skipLines s = some [] ∧ IsBlankLines s ∨
      (∃ c r, skipLines s = some (c :: r) ∧ isWhiteSpace c = true) ∧ ¬IsBlankLines s := by
  induction s with
  | nil => exact .inl ⟨rfl, isBlankLines_nil⟩
  | cons c s ih =>
    obtain ⟨hc, hs⟩ := List.forall_mem_cons.mp h
    rw [isBlankLines_cons_iff]
    by_cases hover : GoesOver c s
    · rw [skipLines_of_goesOver hover]
      simpa [hover] using ih hs
    · have hhash : c ≠ '#' := by
        rintro rfl
        exact absurd hc (by decide)
      exact .inr ⟨⟨c, s, skipLines_of_not_goesOver hover hhash, hc⟩, fun h => hover h.1⟩

theorem dropByteOrderMark_blank (h : ∀ c ∈ s, isWhiteSpace c = true) : dropByteOrderMark s = s := by
  rw [dropByteOrderMark]
  rintro r rfl
  exact absurd (h _ List.mem_cons_self) (by decide)

theorem parse?_of_isBlankLines {text : String} (hblank : ∀ c ∈ text.toList, isWhiteSpace c = true)
    (h : IsBlankLines text.toList) : parse? text = some [] := by
  rcases skipLines_blank hblank with ⟨hskip, -⟩ | ⟨-, hnot⟩
  · simp only [parse?, dropByteOrderMark_blank hblank, readLines, hskip]
    rfl
  · exact absurd h hnot

theorem parse?_of_not_isBlankLines {text : String} (hblank : ∀ c ∈ text.toList, isWhiteSpace c = true)
    (h : ¬IsBlankLines text.toList) : parse? text = none := by
  rcases skipLines_blank hblank with ⟨-, hlines⟩ | ⟨⟨c, r, hskip, hc⟩, -⟩
  · exact absurd hlines h
  · simp [parse?, dropByteOrderMark_blank hblank, readLines, hskip, readLine_of_isWhiteSpace hc]

end Toml

/-! ### Configurations -/

namespace Config

open Toml (IsBlankLines)

variable {text : String}

theorem parse_of_isBlankLines (hblank : Text.isBlank text = true) (h : IsBlankLines text.toList) :
    parse text = .ok {} := by
  rw [parse, Toml.parse?_of_isBlankLines (List.all_eq_true.mp hblank) h]
  simp only [ofTable, sortedEntries, List.mergeSort_nil]
  rfl

theorem parse_of_not_isBlankLines (hblank : Text.isBlank text = true) (h : ¬IsBlankLines text.toList) :
    parse text = .error .notToml := by
  rw [parse, Toml.parse?_of_not_isBlankLines (List.all_eq_true.mp hblank) h]

theorem load_of_isBlank (hblank : Text.isBlank text = true) : load text = .ok {} := by
  rw [load, if_pos hblank]

/-- A blank text is read as the configuration that states nothing just when it is made of spaces, tabs and ends of
lines; any other one is no document. So it makes a difference that a blank text is not read in just these others: there
reading fails, and loading does not. -/
theorem parse_of_blank :
    ∀ text, Text.isBlank text = true →
      (parse text = .ok {} ↔ IsBlankLines text.toList) ∧
      (parse text = .error .notToml ↔ ¬IsBlankLines text.toList) ∧
      (load text = failWithin [.parseConfig] .config (parse text) ↔ IsBlankLines text.toList) := by
  intro text hblank
  rw [load_of_isBlank hblank]
  by_cases h : IsBlankLines text.toList
  · rw [parse_of_isBlankLines hblank h]
    simp [h, failWithin]
  · rw [parse_of_not_isBlankLines hblank h]
    simp [h, failWithin]

theorem parse_of_blank_lines :
    (Text.isBlank "\t \r\n\n" = true ∧ parse "\t \r\n\n" = .ok {}) ∧
      Text.isBlank "\n \r \n" = true ∧ parse "\n \r \n" = .error .notToml := by
  have hlines : IsBlankLines "\t \r\n\n".toList := by
    simp [Toml.GoesOver]
  have hreturn : ¬IsBlankLines "\n \r \n".toList := fun h =>
    absurd (h.returns ['\n', ' '] [' ', '\n'] rfl) (by decide)
  have hblank : Text.isBlank "\t \r\n\n" = true := by decide
  have hblank' : Text.isBlank "\n \r \n" = true := by decide
  exact ⟨⟨hblank, (parse_of_blank _ hblank).1.mpr hlines⟩, hblank', (parse_of_blank _ hblank').2.1.mpr hreturn⟩

/-- A form feed is blank, but it is no document: to read it fails where to load it does not. -/
theorem parse_blank_fails_of_formFeed :
    Text.isBlank "\x0c" = true ∧ parse "\x0c" = .error .notToml ∧ load "\x0c" = .ok {} := by
  have hblank : Text.isBlank "\x0c" = true := by decide
  have hfeed : ¬IsBlankLines "\x0c".toList := fun h => absurd (h.chars '\x0c' List.mem_cons_self) (by decide)
  exact ⟨hblank, parse_of_not_isBlankLines hblank hfeed, load_of_isBlank hblank⟩

end Config

end SurfaceRegistry
