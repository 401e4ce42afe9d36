import SurfaceRegistry.Json.Printer
import SurfaceRegistry.Proofs.Json.Grammar

/-!
# Reading printed values

The indented text of a value is a spelling of the tree of the value, and so it is read as this tree
(`Document.read_pretty`): each character of a text is printed as a part of a text, an integer with its
digits, and the ends of lines and the indentation are white space around items and members.

Numbers that are not integers are left out: they are read with less precision than they are printed.
-/

namespace SurfaceRegistry.Json

open SurfaceRegistry.Json.Tree

/-! ### Texts -/

theorem hexValue?_mod (d : Nat) : Text.hexValue? (Text.hexDigit (d % 16)) = some (d % 16) :=
  Text.hexValue?_hexDigit _ (Nat.mod_lt _ (by decide))

/-- A character is printed as one part of a text. -/
theorem exists_spellsPart_escapedChar (c : Char) :
    ∃ p, SpellsPart p (escapedChar c) ∧
      ∀ ps, charsOf none (p :: ps) = (charsOf none ps).map (c :: ·) := by
  unfold escapedChar
  split
  case h_8 hq hb _ _ _ _ _ =>
    split
    · rename_i hc
      refine ⟨_, .unit (hexValue?_mod _) (hexValue?_mod _) (hexValue?_mod _) (hexValue?_mod _),
        fun ps => ?_⟩
      have hu : 16 * (16 * (16 * (c.toNat / 16 / 16 / 16 % 16) + c.toNat / 16 / 16 % 16) +
          c.toNat / 16 % 16) + c.toNat % 16 = c.toNat := by omega
      have hhigh : isHighSurrogate c.toNat = false := by simp [isHighSurrogate]; omega
      have hlow : isLowSurrogate c.toNat = false := by simp [isLowSurrogate]; omega
      rw [hu]
      simp [charsOf, prepend, unfinishedAfter, hhigh, hlow, Char.ofNat_toNat]
    · exact ⟨.char c, .plain hq hb (by omega), fun ps => rfl⟩
  all_goals exact ⟨_, .short rfl, fun ps => rfl⟩

/-- A text is printed as a spelling of it. -/
theorem spellsText_stringChars (s : String) : SpellsText (some s) (stringChars s.toList) := by
  have hparts (cs : List Char) :
      ∃ ps, List.Forall₂ SpellsPart ps (cs.map escapedChar) ∧ charsOf none ps = some cs := by
    induction cs with
    | nil => exact ⟨[], .nil, rfl⟩
    | cons c cs ih =>
      obtain ⟨p, hp, hchars⟩ := exists_spellsPart_escapedChar c
      obtain ⟨ps, hps, hrest⟩ := ih
      exact ⟨p :: ps, .cons hp hps, by rw [hchars, hrest]; rfl⟩
  obtain ⟨ps, hps, hchars⟩ := hparts s.toList
  have h := SpellsText.parts hps
  rw [hchars, Option.map_some, String.ofList_toList] at h
  exact h

/-! ### Integers -/

/-- The spelling of an integer. -/
def Numeral.ofInt (n : Int) : Numeral :=
  ⟨n < 0, Nat.toDigits 10 n.natAbs, [], none⟩

theorem integerChars_eq (n : Int) :
    integerChars n = (if n < 0 then ['-'] else []) ++ Nat.toDigits 10 n.natAbs := by
  cases n with
  | ofNat n => simp [integerChars]
  | negSucc n => simp [integerChars, Int.negSucc_lt_zero]

theorem digit_of_toDigits {n : Nat} {c : Char} (h : c ∈ Nat.toDigits 10 n) : c.isDigit = true :=
  Nat.isDigit_of_mem_toDigits (by decide) (by decide) h

/-- Only zero is spelled with a zero in front. -/
theorem toDigits_zero_cons {n : Nat} {r : List Char} (h : Nat.toDigits 10 n = '0' :: r) : r = [] := by
  induction n using Nat.strongRecOn generalizing r with
  | ind n ih =>
    rw [Nat.toDigits_eq_if (by decide)] at h
    split at h
    · exact (List.cons.inj h).2.symm
    · rename_i hn
      cases hq : Nat.toDigits 10 (n / 10) with
      | nil => exact absurd hq Nat.toDigits_ne_nil
      | cons c s =>
        rw [hq, List.cons_append] at h
        obtain ⟨rfl, -⟩ := List.cons.inj h
        have hs := ih (n / 10) (by omega) hq
        subst hs
        have hv := Nat.ofDigitChars_ten_toDigits (n := n / 10)
        rw [hq] at hv
        simp [Nat.ofDigitChars] at hv
        omega

/-- An integer is printed as a spelling of it. -/
theorem spells_integerChars (n : Int) : (Numeral.ofInt n).Spells (integerChars n) := by
  have hdigits : Numeral.AreDigits (Nat.toDigits 10 n.natAbs) :=
    ⟨Nat.toDigits_ne_nil, fun _ => digit_of_toDigits⟩
  have h (negative : Bool) := @Numeral.Spells.parts negative _ _ _ _ _ hdigits (fun _ => toDigits_zero_cons)
    .none .none
  rw [integerChars_eq, Numeral.ofInt]
  simpa using h (n < 0)

@[simp] theorem digitsValue_toDigits (n : Nat) : Numeral.digitsValue (Nat.toDigits 10 n) = n := by
  have h := Nat.ofDigitChars_ten_toDigits (n := n)
  rwa [Nat.ofDigitChars_eq_foldl] at h

/-- An integer of 64 bits, with or without a sign. -/
def Fits64 (n : Int) : Prop := -2 ^ 63 ≤ n ∧ n < 2 ^ 64

theorem value?_ofInt {n : Int} (h : Fits64 n) : (Numeral.ofInt n).value? = some (.integer n) := by
  obtain ⟨h1, h2⟩ := h
  have hi : (Numeral.ofInt n).toInteger? = some n := by
    rw [Numeral.toInteger?, Numeral.ofInt]
    simp only [Numeral.isWhole, digitsValue_toDigits, List.isEmpty_nil, Option.isNone_none,
      Bool.and_self, Bool.not_true, Bool.false_eq_true, if_false, decide_eq_true_eq, UInt64.size]
    split
    · rw [if_pos (by omega)]
      exact congrArg some (by omega)
    · rw [if_pos (by omega)]
      exact congrArg some (by omega)
  rw [Numeral.value?, hi]

/-! ### Values -/

mutual

/-- The tree of a printed value. -/
def tree : Json → Tree
  | null => .null
  | bool b => .bool b
  | integer n => .number (.ofInt n)
  | float _ => .broken
  | string s => .string (some s)
  | array vs => .array (trees vs) true
  | object ms => .object (memberTrees ms) true

/-- The trees of printed items. -/
def trees : List Json → List Tree
  | [] => []
  | v :: vs => v.tree :: trees vs

/-- The trees of printed members. -/
def memberTrees : List (String × Json) → List (Option String × Tree)
  | [] => []
  | (k, v) :: ms => (some k, v.tree) :: memberTrees ms

end

/-- A value without numbers other than integers. -/
inductive FloatFree : Json → Prop where
  | null : FloatFree .null
  | bool (b : Bool) : FloatFree (.bool b)
  | integer (n : Int) : FloatFree (.integer n)
  | string (s : String) : FloatFree (.string s)
  | array {vs : List Json} : (∀ v ∈ vs, FloatFree v) → FloatFree (.array vs)
  | object {ms : List (String × Json)} : (∀ m ∈ ms, FloatFree m.2) → FloatFree (.object ms)

theorem areSpaces_newline (d : Nat) : AreSpaces (newline d) := by
  intro c hc
  rcases List.mem_cons.mp hc with rfl | hc
  · rfl
  · rw [List.eq_of_mem_replicate hc]
    rfl

/-- The text of a value is a spelling of its tree at every indentation. -/
def PrintsSpelling (v : Json) : Prop := ∀ d, Spells v.tree (prettyAt d v)

/-- Printed items are spelled between their commas; the white space before the closing bracket belongs to the
last of them. -/
theorem exists_items_pretty {v : Json} {vs : List Json} (h : ∀ u ∈ v :: vs, PrintsSpelling u) (d : Nat)
    {w : List Char} (hw : AreSpaces w) :
    ∃ items : List (Tree × List Char), items ≠ [] ∧ (∀ i ∈ items, Spells i.1 i.2) ∧
      items.map Prod.fst = trees (v :: vs) ∧
      Text.joinWith ',' (items.map Prod.snd) = newline d ++ (prettyAt d v ++ (prettyItems d vs ++ w)) := by
  have hv := (h v List.mem_cons_self d).after (areSpaces_newline d)
  induction vs generalizing v with
  | nil =>
    refine ⟨[(v.tree, (newline d ++ prettyAt d v) ++ w)], by simp, by simpa using hv.before hw, rfl, ?_⟩
    simp [Text.joinWith, prettyItems]
  | cons u us ih =>
    have hus : ∀ x ∈ u :: us, PrintsSpelling x := fun x hx => h x (List.mem_cons_of_mem v hx)
    have hu := (hus u List.mem_cons_self d).after (areSpaces_newline d)
    obtain ⟨items, hne, hall, htrees, htext⟩ := ih hus hu
    refine ⟨(v.tree, newline d ++ prettyAt d v) :: items, by simp,
      List.forall_mem_cons.mpr ⟨hv, hall⟩, ?_, ?_⟩
    · rw [List.map_cons, htrees]
      rfl
    · rw [List.map_cons, Text.joinWith_cons _ _ (by simpa using hne), htext]
      simp [prettyItems]

/-- A printed member, with white space before the key and after the value. -/
def printedMember (before : List Char) (d : Nat) (m : String × Json) (after : List Char) : SpelledMember where
  before := before
  keyText := stringChars m.1.toList
  after := []
  valueText := ' ' :: (prettyAt d m.2 ++ after)
  key := some m.1
  value := m.2.tree

theorem spells_printedMember {before after : List Char} (hb : AreSpaces before) (ha : AreSpaces after)
    {m : String × Json} (h : PrintsSpelling m.2) (d : Nat) :
    (printedMember before d m after).SpellsKey ∧
      Spells (printedMember before d m after).value (printedMember before d m after).valueText :=
  have hspace : AreSpaces [' '] := by simp [AreSpaces, isSpace]
  ⟨⟨hb, spellsText_stringChars m.1, areSpaces_nil⟩, .padded hspace (h d) ha⟩

theorem exists_members_pretty {m : String × Json} {ms : List (String × Json)}
    (h : ∀ u ∈ m :: ms, PrintsSpelling u.2) (d : Nat) {w : List Char} (hw : AreSpaces w) :
    ∃ members : List SpelledMember, members ≠ [] ∧ (∀ m ∈ members, m.SpellsKey) ∧
      (∀ m ∈ members, Spells m.value m.valueText) ∧
      members.map SpelledMember.member = memberTrees (m :: ms) ∧
      Text.joinWith ',' (members.map SpelledMember.text) =
        newline d ++ (stringChars m.1.toList ++
          ([':', ' '] ++ (prettyAt d m.2 ++ (prettyMembers d ms ++ w)))) := by
  have hm := h m List.mem_cons_self
  induction ms generalizing m with
  | nil =>
    obtain ⟨hkey, hvalue⟩ := spells_printedMember (areSpaces_newline d) hw hm d
    refine ⟨[printedMember (newline d) d m w], by simp, by simpa using hkey, by simpa using hvalue, rfl, ?_⟩
    simp [Text.joinWith, prettyMembers, SpelledMember.text, printedMember]
  | cons u us ih =>
    have hus : ∀ x ∈ u :: us, PrintsSpelling x.2 := fun x hx => h x (List.mem_cons_of_mem m hx)
    obtain ⟨members, hne, hkeys, hall, htrees, htext⟩ := ih hus (hus u List.mem_cons_self)
    obtain ⟨hkey, hvalue⟩ := spells_printedMember (areSpaces_newline d) areSpaces_nil hm d
    refine ⟨printedMember (newline d) d m [] :: members, by simp, List.forall_mem_cons.mpr ⟨hkey, hkeys⟩,
      List.forall_mem_cons.mpr ⟨hvalue, hall⟩, ?_, ?_⟩
    · rw [List.map_cons, htrees]
      rfl
    · rw [List.map_cons, Text.joinWith_cons _ _ (by simpa using hne), htext]
      simp [prettyMembers, SpelledMember.text, printedMember]

/-- The text of a value without other numbers than integers is a spelling of its tree. -/
theorem FloatFree.printsSpelling {v : Json} (h : FloatFree v) : PrintsSpelling v := by
  induction h with
  | null =>
    intro d
    rw [prettyAt]
    exact .null
  | bool b =>
    intro d
    cases b <;> rw [prettyAt]
    · exact .boolFalse
    · exact .boolTrue
  | integer n =>
    intro d
    rw [prettyAt]
    exact .number (spells_integerChars n)
  | string s =>
    intro d
    rw [prettyAt]
    exact .string (spellsText_stringChars s)
  | @array vs _ ih =>
    intro d
    cases vs with
    | nil =>
      rw [prettyAt]
      exact .emptyArray areSpaces_nil
    | cons v vs =>
      obtain ⟨items, hne, hall, htrees, htext⟩ := exists_items_pretty ih (d + 1) (areSpaces_newline d)
      have h := Spells.array hne hall
      rw [htrees, htext] at h
      rw [prettyAt]
      simpa [tree] using h
  | @object ms _ ih =>
    intro d
    cases ms with
    | nil =>
      rw [prettyAt]
      exact .emptyObject areSpaces_nil
    | cons m ms =>
      obtain ⟨members, hne, hkeys, hall, htrees, htext⟩ :=
        exists_members_pretty ih (d + 1) (areSpaces_newline d)
      have h := Spells.object hne hkeys hall
      rw [htrees, htext] at h
      obtain ⟨k, v⟩ := m
      rw [prettyAt]
      simpa [tree] using h

/-- One more member may be written in front of the members of a printed object. -/
theorem exists_spells_member_pretty {m : String × Json} {ms : List (String × Json)}
    (h : (Json.object (m :: ms)).FloatFree) {key : Option String} {keyText : List Char}
    (hkey : SpellsText key keyText) {t : Tree} {s : List Char} (ht : Spells t s) :
    ∃ rest, (Json.object (m :: ms)).pretty.toList = '\x7b' :: rest ∧
      Spells (.object ((key, t) :: memberTrees (m :: ms)) true)
        ('\x7b' :: (keyText ++ ':' :: (s ++ ',' :: rest))) := by
  cases h with
  | object h =>
    have hprints : ∀ u ∈ m :: ms, PrintsSpelling u.2 := fun u hu => (h u hu).printsSpelling
    obtain ⟨members, hne, hkeys, hall, htrees, htext⟩ :=
      exists_members_pretty hprints 1 (areSpaces_newline 0)
    have hspells := @Spells.object (⟨[], keyText, [], s, key, t⟩ :: members) (by simp)
      (List.forall_mem_cons.mpr ⟨⟨areSpaces_nil, hkey, areSpaces_nil⟩, hkeys⟩)
      (List.forall_mem_cons.mpr ⟨ht, hall⟩)
    refine ⟨Text.joinWith ',' (members.map SpelledMember.text) ++ ['\x7d'], ?_, ?_⟩
    · obtain ⟨k, v⟩ := m
      rw [pretty, String.toList_ofList, prettyAt, htext]
      simp
    · rw [List.map_cons, htrees, List.map_cons, Text.joinWith_cons _ _ (by simpa using hne)] at hspells
      simpa [SpelledMember.text, SpelledMember.member] using hspells

/-- A printed document is a spelling of the tree of its value. -/
theorem FloatFree.spells_pretty {v : Json} (h : FloatFree v) : Spells v.tree (v.pretty ++ "\n").toList := by
  rw [pretty, String.toList_append, String.toList_ofList]
  have hend : AreSpaces ['\n'] := by simp [AreSpaces, isSpace]
  exact (h.printsSpelling 0).before hend

theorem Document.read_pretty {v : Json} (h : FloatFree v) :
    Document.read (v.pretty ++ "\n").toList = ⟨v.tree, true⟩ :=
  Document.read_eq_iff_spells.mpr h.spells_pretty

end SurfaceRegistry.Json
