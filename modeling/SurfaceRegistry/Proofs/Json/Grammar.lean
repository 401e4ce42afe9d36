import SurfaceRegistry.Proofs.Json.NumeralGrammar
import SurfaceRegistry.Proofs.Json.TextGrammar
import SurfaceRegistry.Text.Split

/-!
# The grammar of documents

What a document may look like is said without a reader (`Spells`), and the reader is shown to read exactly
this (`Document.read_eq_iff_spells`): a document is read to its end, as a tree, if and only if it is a spelling
of this tree. So a document has one tree at most (`Spells.unique`).
-/

namespace SurfaceRegistry.Json

open SurfaceRegistry.Json.Tree

/-- White space between the parts of a document. -/
def AreSpaces (s : List Char) : Prop := ∀ c ∈ s, isSpace c = true

/-- A member of an object with the parts of its spelling. -/
structure SpelledMember where
  /-- The white space before the key. -/
  before : List Char
  /-- The text of the key. -/
  keyText : List Char
  /-- The white space after the key. -/
  after : List Char
  /-- The text of the value, with the white space around it. -/
  valueText : List Char
  /-- The key. -/
  key : Option String
  /-- The value. -/
  value : Tree

/-- The text of a member. -/
def SpelledMember.text (m : SpelledMember) : List Char :=
  m.before ++ (m.keyText ++ (m.after ++ ':' :: m.valueText))

/-- The member itself. -/
def SpelledMember.member (m : SpelledMember) : Option String × Tree := (m.key, m.value)

/-- The spelling of the key of a member. -/
structure SpelledMember.SpellsKey (m : SpelledMember) : Prop where
  before : AreSpaces m.before
  key : SpellsText m.key m.keyText
  after : AreSpaces m.after

/-- The spelling of a tree, with white space around it. -/
inductive Spells : Tree → List Char → Prop where
  | padded {t : Tree} {before s after : List Char} :
      AreSpaces before → Spells t s → AreSpaces after → Spells t (before ++ (s ++ after))
  | null : Spells .null ['n', 'u', 'l', 'l']
  | boolTrue : Spells (.bool true) ['t', 'r', 'u', 'e']
  | boolFalse : Spells (.bool false) ['f', 'a', 'l', 's', 'e']
  | number {n : Numeral} {s : List Char} : n.Spells s → Spells (.number n) s
  | string {v : Option String} {s : List Char} : SpellsText v s → Spells (.string v) s
  | emptyArray {s : List Char} : AreSpaces s → Spells (.array [] true) ('[' :: (s ++ [']']))
  | array {items : List (Tree × List Char)} : items ≠ [] → (∀ i ∈ items, Spells i.1 i.2) →
      Spells (.array (items.map Prod.fst) true)
        ('[' :: (Text.joinWith ',' (items.map Prod.snd) ++ [']']))
  | emptyObject {s : List Char} : AreSpaces s → Spells (.object [] true) ('\x7b' :: (s ++ ['\x7d']))
  | object {members : List SpelledMember} : members ≠ [] → (∀ m ∈ members, m.SpellsKey) →
      (∀ m ∈ members, Spells m.value m.valueText) →
      Spells (.object (members.map SpelledMember.member) true)
        ('\x7b' :: (Text.joinWith ',' (members.map SpelledMember.text) ++ ['\x7d']))

/-! ### White space -/

theorem skipSpaces_append {s : List Char} (hs : AreSpaces s) (r : List Char) :
    skipSpaces (s ++ r) = skipSpaces r :=
  List.dropWhile_append_of_pos hs

theorem skipSpaces_cons {c : Char} (hc : isSpace c = false) (s : List Char) :
    skipSpaces (c :: s) = c :: s := by
  rw [skipSpaces, List.dropWhile_cons_of_neg (by simp [hc])]

/-- A text is white space and what is left when this is skipped. -/
theorem exists_spaces_append (s : List Char) : ∃ w, AreSpaces w ∧ s = w ++ skipSpaces s :=
  ⟨s.takeWhile isSpace, fun _ hc => List.mem_takeWhile_imp hc, List.takeWhile_append_dropWhile.symm⟩

theorem areSpaces_of_skipSpaces {s : List Char} (h : skipSpaces s = []) : AreSpaces s := by
  obtain ⟨w, hw, hs⟩ := exists_spaces_append s
  rw [h, List.append_nil] at hs
  exact hs ▸ hw

theorem not_continues_of_isSpace {c : Char} (h : isSpace c = true) : Numeral.continues c = false := by
  simp only [isSpace, Bool.or_eq_true, beq_iff_eq] at h
  rcases h with ((rfl | rfl) | rfl) | rfl <;> decide

theorem goesOnWithout_spaces {w r : List Char} (hw : AreSpaces w)
    (hr : GoesOnWithout Numeral.continues r) : GoesOnWithout Numeral.continues (w ++ r) := by
  cases w with
  | nil => exact hr
  | cons c w =>
    rintro _ ⟨⟩
    exact not_continues_of_isSpace (hw c List.mem_cons_self)

/-- White space before a value says nothing. -/
theorem read_spaces (fuel : Nat) {w : List Char} (hw : AreSpaces w) (s : List Char) :
    Tree.read fuel (w ++ s) = Tree.read fuel s := by
  cases fuel with
  | zero => rw [Tree.read, Tree.read]
  | succ fuel => rw [Tree.read, Tree.read, skipSpaces_append hw]

/-! ### Every spelling is read -/

/-- What a number begins with. -/
def BeginsNumber (c : Char) : Prop := c = '-' ∨ c.isDigit = true

/-- A number begins with no character that is neither a digit nor a minus. -/
theorem BeginsNumber.ne {c d : Char} (hc : BeginsNumber c) (hd : d.isDigit = false) (hm : d ≠ '-') :
    c ≠ d := by
  rintro rfl
  rcases hc with hc | hc
  · exact hm hc
  · rw [hd] at hc
    exact absurd hc (by decide)

theorem BeginsNumber.isSpace {c : Char} (hc : BeginsNumber c) : isSpace c = false := by
  simp [Tree.isSpace, hc.ne (d := ' ') rfl (by decide), hc.ne (d := '\n') rfl (by decide),
    hc.ne (d := '\t') rfl (by decide), hc.ne (d := '\r') rfl (by decide)]

theorem Numeral.Spells.head {n : Numeral} {s : List Char} (h : n.Spells s) :
    ∃ c q, s = c :: q ∧ BeginsNumber c := by
  obtain ⟨hwhole, _, _, _⟩ := h
  rename_i negative whole _ _ _ _ _ _ _
  cases negative with
  | true => exact ⟨'-', _, rfl, .inl rfl⟩
  | false =>
    cases whole with
    | nil => exact absurd rfl hwhole.ne_nil
    | cons c ds => exact ⟨c, _, rfl, .inr (hwhole.isDigit c List.mem_cons_self)⟩

/-- A number is read where no other value begins. -/
theorem read_number {fuel : Nat} {c : Char} {s r : List Char} {n : Numeral} (hc : BeginsNumber c)
    (hn : Numeral.scan (c :: s) = some (n, r)) :
    Tree.read (fuel + 1) (c :: s) = (.number n, some r) := by
  have h1 := hc.ne (d := 'n') rfl (by decide)
  have h2 := hc.ne (d := 't') rfl (by decide)
  have h3 := hc.ne (d := 'f') rfl (by decide)
  have h4 := hc.ne (d := '"') rfl (by decide)
  have h5 := hc.ne (d := '[') rfl (by decide)
  have h6 := hc.ne (d := '\x7b') rfl (by decide)
  rw [Tree.read, skipSpaces_cons hc.isSpace]
  split <;> simp_all

/-- What a value begins with after white space is not the end of an array. -/
theorem Spells.head {t : Tree} {s : List Char} (h : Spells t s) :
    ∃ c q, (∀ r, skipSpaces (s ++ r) = c :: (q ++ r)) ∧ c ≠ ']' := by
  have hcons {c : Char} (hc : isSpace c = false) (hne : c ≠ ']') (q : List Char) :
      ∃ d p, (∀ r, skipSpaces (c :: q ++ r) = d :: (p ++ r)) ∧ d ≠ ']' :=
    ⟨c, q, fun r => skipSpaces_cons hc (q ++ r), hne⟩
  induction h with
  | @padded t before s after hbefore _ _ ih =>
    obtain ⟨c, q, hq, hne⟩ := ih
    refine ⟨c, q ++ after, fun r => ?_, hne⟩
    rw [List.append_assoc, skipSpaces_append hbefore, List.append_assoc, hq, List.append_assoc]
  | number h =>
    obtain ⟨c, q, rfl, hc⟩ := h.head
    exact hcons hc.isSpace (hc.ne rfl (by decide)) q
  | string h =>
    obtain ⟨q, rfl, -⟩ := h.read
    exact hcons rfl (by decide) q
  | _ => exact hcons rfl (by decide) _

theorem joinWith_eq_append (p : List Char) (ps : List (List Char)) :
    ∃ rest, Text.joinWith ',' (p :: ps) = p ++ rest := by
  cases ps with
  | nil => exact ⟨[], (List.append_nil p).symm⟩
  | cons q ps => exact ⟨_, rfl⟩

theorem head_of_items {items : List (Tree × List Char)} (hne : items ≠ [])
    (h : ∀ i ∈ items, Spells i.1 i.2) (r : List Char) :
    ∃ c q, skipSpaces (Text.joinWith ',' (items.map Prod.snd) ++ r) = c :: q ∧ c ≠ ']' := by
  cases items with
  | nil => exact absurd rfl hne
  | cons i items =>
    obtain ⟨c, q, hq, hc⟩ := (h i List.mem_cons_self).head
    obtain ⟨rest, hrest⟩ := joinWith_eq_append i.2 (items.map Prod.snd)
    exact ⟨c, _, by rw [List.map_cons, hrest, List.append_assoc, hq], hc⟩

theorem SpelledMember.SpellsKey.head {m : SpelledMember} (h : m.SpellsKey) (r : List Char) :
    ∃ q, skipSpaces (m.text ++ r) = '"' :: q := by
  obtain ⟨k, hk, -⟩ := h.key.read
  rw [SpelledMember.text, List.append_assoc, skipSpaces_append h.before, hk]
  exact ⟨_, skipSpaces_cons rfl _⟩

theorem head_of_members {members : List SpelledMember} (hne : members ≠ [])
    (h : ∀ m ∈ members, m.SpellsKey) (r : List Char) :
    ∃ q, skipSpaces (Text.joinWith ',' (members.map SpelledMember.text) ++ r) = '"' :: q := by
  cases members with
  | nil => exact absurd rfl hne
  | cons m members =>
    obtain ⟨rest, hrest⟩ := joinWith_eq_append m.text (members.map SpelledMember.text)
    rw [List.map_cons, hrest, List.append_assoc]
    exact (h m List.mem_cons_self).head _

/-- A text is read as a tree, up to white space, whatever follows that cannot go on a number. -/
def ReadsAs (s : List Char) (t : Tree) : Prop :=
  ∀ fuel r, 2 * s.length ≤ fuel → GoesOnWithout Numeral.continues r →
    ∃ r', Tree.read fuel (s ++ r) = (t, some r') ∧ skipSpaces r' = skipSpaces r

theorem goesOnWithout_cons {c : Char} (hc : Numeral.continues c = false) (r : List Char) :
    GoesOnWithout Numeral.continues (c :: r) := by
  rintro _ ⟨⟩
  exact hc

/-- An item and what follows it in an array. -/
theorem read_item {s : List Char} {t : Tree} (h : ReadsAs s t) {fuel : Nat} (hf : 2 * s.length ≤ fuel)
    {c : Char} (hc : c = ',' ∨ c = ']' ∨ c = '\x7d') (r : List Char) :
    ∃ r', Tree.read fuel (s ++ c :: r) = (t, some r') ∧ skipSpaces r' = c :: r := by
  have hgoes : GoesOnWithout Numeral.continues (c :: r) := by
    rcases hc with rfl | rfl | rfl <;> exact goesOnWithout_cons rfl r
  have hspace : isSpace c = false := by rcases hc with rfl | rfl | rfl <;> rfl
  obtain ⟨r', hr, hskip⟩ := h fuel (c :: r) hf hgoes
  exact ⟨r', hr, hskip.trans (skipSpaces_cons hspace r)⟩

theorem readItems_of_readsAs {items : List (Tree × List Char)} (hne : items ≠ [])
    (h : ∀ i ∈ items, ReadsAs i.2 i.1) {fuel : Nat} (r : List Char)
    (hf : 2 * (Text.joinWith ',' (items.map Prod.snd)).length < fuel) :
    readItems fuel (Text.joinWith ',' (items.map Prod.snd) ++ ']' :: r) =
      (items.map Prod.fst, some r) := by
  induction items generalizing fuel with
  | nil => exact absurd rfl hne
  | cons i items ih =>
    obtain ⟨fuel, rfl⟩ := Nat.exists_eq_add_of_lt (Nat.zero_lt_of_lt hf)
    obtain ⟨t, s⟩ := i
    have hi : ReadsAs s t := h (t, s) List.mem_cons_self
    by_cases hitems : items = []
    · subst hitems
      have hlength : 2 * s.length ≤ 0 + fuel := Nat.lt_succ_iff.mp hf
      obtain ⟨r', hr, hskip⟩ := read_item hi hlength (.inr (.inl rfl)) r
      rw [List.map_singleton, Text.joinWith, readItems, hr]
      simp only [Option.map_some, hskip, List.map_singleton]
    · have htexts : items.map Prod.snd ≠ [] := by simpa using hitems
      rw [List.map_cons, Text.joinWith_cons _ _ htexts] at hf ⊢
      simp only [List.length_append, List.length_cons] at hf
      have hlength : 2 * s.length ≤ 0 + fuel := by omega
      have hlengths : 2 * (Text.joinWith ',' (items.map Prod.snd)).length < 0 + fuel := by omega
      obtain ⟨r', hr, hskip⟩ := read_item hi hlength (.inl rfl)
        (Text.joinWith ',' (items.map Prod.snd) ++ ']' :: r)
      have hrest := ih hitems (fun i hi => h i (List.mem_cons_of_mem _ hi)) hlengths
      rw [List.append_assoc, List.cons_append, readItems, hr]
      simp only [Option.map_some, hskip, hrest, List.map_cons]

/-- After a member an object ends or goes on with the next one. -/
theorem readMembers_member {m : SpelledMember} (h : m.SpellsKey) {fuel : Nat} {r r' : List Char}
    (hr : Tree.read fuel (m.valueText ++ r) = (m.value, some r')) (before : List (Option String × Tree)) :
    (∀ q, skipSpaces r' = '\x7d' :: q →
      readMembers (fuel + 1) before (m.text ++ r) = (.object (m.member :: before).reverse true, some q)) ∧
    ∀ q, skipSpaces r' = ',' :: q →
      readMembers (fuel + 1) before (m.text ++ r) = readMembers fuel (m.member :: before) q := by
  obtain ⟨k, hk, hread⟩ := h.key.read
  have htext : skipSpaces (m.text ++ r) = '"' :: (k ++ (m.after ++ ':' :: (m.valueText ++ r))) := by
    rw [SpelledMember.text, List.append_assoc, skipSpaces_append h.before, hk]
    simp [skipSpaces_cons (c := '"') rfl]
  have hcolon : skipSpaces (m.after ++ ':' :: (m.valueText ++ r)) = ':' :: (m.valueText ++ r) := by
    rw [skipSpaces_append h.after, skipSpaces_cons rfl]
  constructor
  · intro q hq
    rw [readMembers, htext]
    simp only [hread, hcolon, hr, Option.map_some, hq]
    rfl
  · intro q hq
    rw [readMembers, htext]
    simp only [hread, hcolon, hr, Option.map_some, hq]
    rfl

theorem readMembers_of_readsAs {members : List SpelledMember} (hne : members ≠ [])
    (hkeys : ∀ m ∈ members, m.SpellsKey) (h : ∀ m ∈ members, ReadsAs m.valueText m.value) {fuel : Nat}
    (before : List (Option String × Tree)) (r : List Char)
    (hf : 2 * (Text.joinWith ',' (members.map SpelledMember.text)).length < fuel) :
    readMembers fuel before (Text.joinWith ',' (members.map SpelledMember.text) ++ '\x7d' :: r) =
      (.object (before.reverse ++ members.map SpelledMember.member) true, some r) := by
  induction members generalizing fuel before with
  | nil => exact absurd rfl hne
  | cons m members ih =>
    obtain ⟨fuel, rfl⟩ := Nat.exists_eq_add_of_lt (Nat.zero_lt_of_lt hf)
    have hm : ReadsAs m.valueText m.value := h m List.mem_cons_self
    have hkey := hkeys m List.mem_cons_self
    have hvalue : 2 * m.valueText.length ≤ 2 * m.text.length := by
      simp [SpelledMember.text]
      omega
    by_cases hmembers : members = []
    · subst hmembers
      have hlength : 2 * m.text.length ≤ 0 + fuel := Nat.lt_succ_iff.mp hf
      obtain ⟨r', hr, hskip⟩ := read_item hm (hvalue.trans hlength) (.inr (.inr rfl)) r
      rw [List.map_singleton, Text.joinWith, (readMembers_member hkey hr before).1 r hskip,
        List.reverse_cons]
      rfl
    · have htexts : members.map SpelledMember.text ≠ [] := by simpa using hmembers
      rw [List.map_cons, Text.joinWith_cons _ _ htexts] at hf ⊢
      simp only [List.length_append, List.length_cons] at hf
      have hlength : 2 * m.valueText.length ≤ 0 + fuel := by omega
      have hlengths : 2 * (Text.joinWith ',' (members.map SpelledMember.text)).length < 0 + fuel := by omega
      obtain ⟨r', hr, hskip⟩ := read_item hm hlength (.inl rfl)
        (Text.joinWith ',' (members.map SpelledMember.text) ++ '\x7d' :: r)
      have hrest := ih hmembers (fun m hm => hkeys m (List.mem_cons_of_mem _ hm))
        (fun m hm => h m (List.mem_cons_of_mem _ hm)) (m.member :: before) hlengths
      rw [List.append_assoc, List.cons_append, (readMembers_member hkey hr before).2 _ hskip, hrest,
        List.reverse_cons, List.append_assoc]
      rfl

/-- A value is read with one step of the budget at its first character. -/
theorem readsAs_cons {c : Char} {q : List Char} {t : Tree}
    (h : ∀ fuel r, 2 * q.length < fuel → GoesOnWithout Numeral.continues r →
      Tree.read (fuel + 1) (c :: (q ++ r)) = (t, some r)) : ReadsAs (c :: q) t := by
  intro fuel r hf hr
  rw [List.length_cons] at hf
  cases fuel with
  | zero => omega
  | succ fuel => exact ⟨r, h fuel r (by omega) hr, rfl⟩

/-- Every spelling of a tree is read as this tree. -/
theorem Spells.readsAs {t : Tree} {s : List Char} (h : Spells t s) : ReadsAs s t := by
  induction h with
  | @padded t before s after hbefore _ hafter ih =>
    intro fuel r hf hr
    rw [List.length_append, List.length_append] at hf
    obtain ⟨r', hread, hskip⟩ := ih fuel (after ++ r) (by omega) (goesOnWithout_spaces hafter hr)
    refine ⟨r', ?_, hskip.trans (skipSpaces_append hafter r)⟩
    rw [List.append_assoc, read_spaces fuel hbefore, List.append_assoc, hread]
  | null =>
    refine readsAs_cons fun fuel r _ _ => ?_
    rw [Tree.read, skipSpaces_cons rfl]
    rfl
  | boolTrue =>
    refine readsAs_cons fun fuel r _ _ => ?_
    rw [Tree.read, skipSpaces_cons rfl]
    rfl
  | boolFalse =>
    refine readsAs_cons fun fuel r _ _ => ?_
    rw [Tree.read, skipSpaces_cons rfl]
    rfl
  | number h =>
    obtain ⟨c, q, rfl, hc⟩ := h.head
    exact readsAs_cons fun fuel r _ hr => read_number hc (h.scan hr)
  | string h =>
    obtain ⟨q, rfl, hread⟩ := h.read
    refine readsAs_cons fun fuel r _ _ => ?_
    rw [Tree.read, skipSpaces_cons rfl]
    simp only [hread]
  | emptyArray hs =>
    refine readsAs_cons fun fuel r _ _ => ?_
    rw [Tree.read, skipSpaces_cons rfl, List.append_assoc]
    simp only [skipSpaces_append hs, List.singleton_append, skipSpaces_cons (c := ']') rfl]
  | @array items hne hs ih =>
    refine readsAs_cons fun fuel r hf _ => ?_
    rw [List.length_append, List.length_singleton] at hf
    have hlength : 2 * (Text.joinWith ',' (items.map Prod.snd)).length < fuel := by omega
    have hread := readItems_of_readsAs hne ih r hlength
    obtain ⟨c, q, hq, hc⟩ := head_of_items hne hs (']' :: r)
    rw [Tree.read, skipSpaces_cons rfl, List.append_assoc, List.singleton_append]
    simp only [hread, hq]
    split
    · rename_i h
      exact absurd (List.cons.inj h).1 hc
    · rfl
  | emptyObject hs =>
    refine readsAs_cons fun fuel r _ _ => ?_
    rw [Tree.read, skipSpaces_cons rfl, List.append_assoc]
    simp only [skipSpaces_append hs, List.singleton_append, skipSpaces_cons (c := '\x7d') rfl]
  | @object members hne hkeys hs ih =>
    refine readsAs_cons fun fuel r hf _ => ?_
    rw [List.length_append, List.length_singleton] at hf
    have hlength : 2 * (Text.joinWith ',' (members.map SpelledMember.text)).length < fuel := by omega
    have hread := readMembers_of_readsAs hne hkeys ih [] r hlength
    obtain ⟨q, hq⟩ := head_of_members hne hkeys ('\x7d' :: r)
    rw [Tree.read, skipSpaces_cons rfl, List.append_assoc, List.singleton_append]
    simp only [hread, hq, List.reverse_nil, List.nil_append]
    rfl

/-! ### What is read is a spelling -/

/-- What the readers of values, items and members with a budget give is a spelling. -/
structure ReadsSpellings (fuel : Nat) : Prop where
  value {s r : List Char} {t : Tree} : Tree.read fuel s = (t, some r) → ∃ p, s = p ++ r ∧ Spells t p
  items {s r : List Char} {ts : List Tree} : readItems fuel s = (ts, some r) →
    ∃ items : List (Tree × List Char), items ≠ [] ∧ (∀ i ∈ items, Spells i.1 i.2) ∧
      ts = items.map Prod.fst ∧ s = Text.joinWith ',' (items.map Prod.snd) ++ ']' :: r
  members {before : List (Option String × Tree)} {s r : List Char} {t : Tree} :
    readMembers fuel before s = (t, some r) →
    ∃ members : List SpelledMember, members ≠ [] ∧ (∀ m ∈ members, m.SpellsKey) ∧
      (∀ m ∈ members, Spells m.value m.valueText) ∧
      t = .object (before.reverse ++ members.map SpelledMember.member) true ∧
      s = Text.joinWith ',' (members.map SpelledMember.text) ++ '\x7d' :: r

theorem readsSpellings_zero : ReadsSpellings 0 where
  value h := by
    rw [Tree.read] at h
    cases h
  items h := by
    rw [readItems] at h
    cases h
  members h := by
    rw [readMembers] at h
    cases h

theorem areSpaces_nil : AreSpaces [] := List.forall_mem_nil _

theorem Spells.after {t : Tree} {w p : List Char} (h : Spells t p) (hw : AreSpaces w) : Spells t (w ++ p) := by
  simpa using Spells.padded hw h areSpaces_nil

theorem Spells.before {t : Tree} {w p : List Char} (h : Spells t p) (hw : AreSpaces w) : Spells t (p ++ w) :=
  Spells.padded areSpaces_nil h hw

theorem read_succ_spells {fuel : Nat} (ih : ReadsSpellings fuel) {s r : List Char} {t : Tree}
    (h : Tree.read (fuel + 1) s = (t, some r)) : ∃ p, s = p ++ r ∧ Spells t p := by
  obtain ⟨w, hw, hs⟩ := exists_spaces_append s
  -- it is enough to find a spelling after the white space
  suffices hp : ∃ p, skipSpaces s = p ++ r ∧ Spells t p by
    obtain ⟨p, hskip, hp⟩ := hp
    exact ⟨w ++ p, by rw [List.append_assoc, ← hskip, ← hs], hp.after hw⟩
  rw [Tree.read] at h
  split at h
  · rename_i hskip
    cases h
    exact ⟨_, hskip, .null⟩
  · rename_i hskip
    cases h
    exact ⟨_, hskip, .boolTrue⟩
  · rename_i hskip
    cases h
    exact ⟨_, hskip, .boolFalse⟩
  · rename_i q hskip
    split at h
    · cases h
    · rename_i hread
      cases h
      obtain ⟨p, hp, hspells⟩ := spellsText_of_readText hread
      exact ⟨p, hskip.trans hp, .string hspells⟩
  · rename_i q hskip
    obtain ⟨v, hv, hq⟩ := exists_spaces_append q
    split at h
    · rename_i hclose
      cases h
      exact ⟨_, by rw [hskip, hq, hclose, List.cons_append, List.append_assoc, List.singleton_append],
        .emptyArray hv⟩
    · cases hread : readItems fuel q
      rw [hread] at h
      cases h
      obtain ⟨items, hne, hall, rfl, rfl⟩ := ih.items hread
      exact ⟨_, by rw [hskip, List.cons_append, List.append_assoc, List.singleton_append],
        .array hne hall⟩
  · rename_i q hskip
    obtain ⟨v, hv, hq⟩ := exists_spaces_append q
    split at h
    · rename_i hclose
      cases h
      exact ⟨_, by rw [hskip, hq, hclose, List.cons_append, List.append_assoc, List.singleton_append],
        .emptyObject hv⟩
    · obtain ⟨members, hne, hkeys, hall, rfl, rfl⟩ := ih.members h
      exact ⟨_, by rw [hskip, List.cons_append, List.append_assoc, List.singleton_append],
        .object hne hkeys hall⟩
  · split at h
    · cases h
    · rename_i hscan
      cases h
      obtain ⟨p, hp, hspells⟩ := Numeral.spells_of_scan hscan
      exact ⟨p, hp, .number hspells⟩

/-- A value, and the character that follows it after white space. -/
theorem spells_before_of_read {fuel : Nat} (ih : ReadsSpellings fuel) {s q r : List Char} {t : Tree} {c : Char}
    (hread : Tree.read fuel s = (t, some q)) (hq : skipSpaces q = c :: r) :
    ∃ p, s = p ++ c :: r ∧ Spells t p := by
  obtain ⟨p, rfl, hp⟩ := ih.value hread
  obtain ⟨w, hw, hqw⟩ := exists_spaces_append q
  rw [hq] at hqw
  have hpw := hp.before hw
  exact ⟨p ++ w, by rw [hqw, List.append_assoc], hpw⟩

theorem readItems_succ_spells {fuel : Nat} (ih : ReadsSpellings fuel) {s r : List Char} {ts : List Tree}
    (h : readItems (fuel + 1) s = (ts, some r)) :
    ∃ items : List (Tree × List Char), items ≠ [] ∧ (∀ i ∈ items, Spells i.1 i.2) ∧
      ts = items.map Prod.fst ∧ s = Text.joinWith ',' (items.map Prod.snd) ++ ']' :: r := by
  rw [readItems] at h
  cases hread : Tree.read fuel s with
  | mk t rest =>
    simp only [hread] at h
    split at h
    · rename_i hnext
      cases h
      obtain ⟨q, rfl, hq⟩ := Option.map_eq_some_iff.mp hnext
      obtain ⟨p, rfl, hp⟩ := spells_before_of_read ih hread hq
      exact ⟨[(t, p)], by simp, by simpa using hp, rfl, rfl⟩
    · rename_i q' hnext
      obtain ⟨q, rfl, hq⟩ := Option.map_eq_some_iff.mp hnext
      obtain ⟨p, rfl, hp⟩ := spells_before_of_read ih hread hq
      cases hitems : readItems fuel q'
      rw [hitems] at h
      cases h
      obtain ⟨items, hne, hall, rfl, rfl⟩ := ih.items hitems
      refine ⟨(t, p) :: items, by simp, List.forall_mem_cons.mpr ⟨hp, hall⟩, rfl, ?_⟩
      rw [List.map_cons, Text.joinWith_cons _ _ (by simpa using hne), List.append_assoc, List.cons_append]
    · cases h

theorem readMembers_succ_spells {fuel : Nat} (ih : ReadsSpellings fuel)
    {before : List (Option String × Tree)} {s r : List Char} {t : Tree}
    (h : readMembers (fuel + 1) before s = (t, some r)) :
    ∃ members : List SpelledMember, members ≠ [] ∧ (∀ m ∈ members, m.SpellsKey) ∧
      (∀ m ∈ members, Spells m.value m.valueText) ∧
      t = .object (before.reverse ++ members.map SpelledMember.member) true ∧
      s = Text.joinWith ',' (members.map SpelledMember.text) ++ '\x7d' :: r := by
  obtain ⟨w, hw, hs⟩ := exists_spaces_append s
  rw [readMembers] at h
  split at h
  · rename_i q hquote
    split at h
    · cases h
    · rename_i key q1 hkey
      obtain ⟨k, hk, hkspells⟩ := spellsText_of_readText hkey
      obtain ⟨v, hv, hq1⟩ := exists_spaces_append q1
      split at h
      · rename_i q2 hcolon
        cases hread : Tree.read fuel q2 with
        | mk value rest =>
          simp only [hread] at h
          -- the member is the same whether or not another one follows
          have hmember {c : Char} {r' : List Char} (hnext : rest.map skipSpaces = some (c :: r')) :
              ∃ m : SpelledMember, m.SpellsKey ∧ Spells m.value m.valueText ∧ m.member = (key, value) ∧
                s = m.text ++ c :: r' := by
            obtain ⟨q3, rfl, hq3⟩ := Option.map_eq_some_iff.mp hnext
            obtain ⟨p, rfl, hp⟩ := spells_before_of_read ih hread hq3
            refine ⟨⟨w, k, v, p, key, value⟩, ⟨hw, hkspells, hv⟩, hp, rfl, ?_⟩
            rw [SpelledMember.text, hs, hquote, hk, hq1, hcolon]
            simp
          split at h
          · rename_i hnext
            cases h
            obtain ⟨m, hm, hvalue, heq, rfl⟩ := hmember hnext
            refine ⟨[m], by simp, by simpa using hm, by simpa using hvalue, ?_, rfl⟩
            rw [List.map_singleton, heq, List.reverse_cons]
          · rename_i hnext
            obtain ⟨m, hm, hvalue, heq, rfl⟩ := hmember hnext
            obtain ⟨members, hne, hkeys, hall, rfl, rfl⟩ := ih.members h
            refine ⟨m :: members, by simp, List.forall_mem_cons.mpr ⟨hm, hkeys⟩,
              List.forall_mem_cons.mpr ⟨hvalue, hall⟩, ?_, ?_⟩
            · rw [List.map_cons, heq, List.reverse_cons, List.append_assoc, List.singleton_append]
            · rw [List.map_cons, Text.joinWith_cons _ _ (by simpa using hne), List.append_assoc,
                List.cons_append]
          · cases h
      · cases h
  · cases h

theorem readsSpellings (fuel : Nat) : ReadsSpellings fuel := by
  induction fuel with
  | zero => exact readsSpellings_zero
  | succ fuel ih =>
    exact ⟨read_succ_spells ih, readItems_succ_spells ih, readMembers_succ_spells ih⟩

/-! ### Documents -/

/-- A document is read to its end as a tree if and only if it is a spelling of this tree. -/
theorem Document.read_eq_iff_spells {s : List Char} {t : Tree} :
    Document.read s = ⟨t, true⟩ ↔ Spells t s := by
  constructor
  · intro h
    rw [Document.read] at h
    split at h
    · cases h
    · rename_i root r hread
      obtain ⟨rfl, hend⟩ := Document.mk.inj h
      obtain ⟨p, hs, hp⟩ := (readsSpellings _).value hread
      have hr := areSpaces_of_skipSpaces (List.isEmpty_iff.mp hend)
      rw [hs]
      exact hp.before hr
  · intro h
    obtain ⟨r, hread, hr⟩ := h.readsAs (2 * s.length + 2) [] (by omega) nofun
    rw [List.append_nil] at hread
    rw [Document.read, hread]
    simp only [hr]
    rfl

/-- A document is a spelling of one tree at most. -/
theorem Spells.unique {t t' : Tree} {s : List Char} (h : Spells t s) (h' : Spells t' s) : t = t' :=
  congrArg Document.root
    ((Document.read_eq_iff_spells.mpr h).symm.trans (Document.read_eq_iff_spells.mpr h'))

/-! ### Whole trees -/

theorem allWhole_eq_true_iff {ts : List Tree} : allWhole ts = true ↔ ∀ t ∈ ts, t.isWhole = true := by
  induction ts with
  | nil => simp [allWhole]
  | cons t ts ih => simp [allWhole, ih]

theorem allMembersWhole_eq_true_iff {ms : List (Option String × Tree)} :
    allMembersWhole ms = true ↔ ∀ m ∈ ms, m.2.isWhole = true := by
  induction ms with
  | nil => simp [allMembersWhole]
  | cons m ms ih =>
    obtain ⟨k, t⟩ := m
    simp [allMembersWhole, ih]

/-- A tree that is spelled has no place where the document breaks. -/
theorem Spells.isWhole {t : Tree} {s : List Char} (h : Spells t s) : t.isWhole = true := by
  induction h with
  | padded _ _ _ ih => exact ih
  | array _ _ ih =>
    rw [Tree.isWhole, Bool.true_and, allWhole_eq_true_iff]
    intro t ht
    obtain ⟨i, hi, rfl⟩ := List.mem_map.mp ht
    exact ih i hi
  | object _ _ _ ih =>
    rw [Tree.isWhole, Bool.true_and, allMembersWhole_eq_true_iff]
    intro m hm
    obtain ⟨i, hi, rfl⟩ := List.mem_map.mp hm
    exact ih i hi
  | _ => rfl

end SurfaceRegistry.Json
