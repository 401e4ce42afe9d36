import SurfaceRegistry.Check.Rules
import SurfaceRegistry.Proofs.RepoPath
import SurfaceRegistry.Text.Encoding

/-!
# Normal forms of paths

The normal form of a path is what is behind all the `./` in front of it once its backslashes are slashes
(`RepoPath.stripDotSlash_eq_iff`). Everything about normal forms follows from this: a path in normal form is its own,
paths that differ in separators or in a number of `./` in front share one, and no segment is lost but single points
(`RepoPath.ofText_normalizes`).

What is behind a `./` may start at a root or after a drive letter, though the path with the `./` does not. The normal
form of such a path is absolute, and the rules report the path, which is relative, as an absolute one
(`RepoPath.ofText_absolute_of_hidden_root`).
-/

namespace SurfaceRegistry.RepoPath

open Text Text.Path

/-! ### What is in front -/

/-- The text of a path with slashes for backslashes. -/
def slashed (s : List Char) : List Char :=
  replaceChar '\\' '/' s

/-- A number of `./`, one after another. -/
def dotSlashes (n : Nat) : List Char :=
  (List.replicate n ['.', '/']).flatten

theorem dotSlashes_succ_append (n : Nat) (s : List Char) :
    dotSlashes (n + 1) ++ s = '.' :: '/' :: (dotSlashes n ++ s) := by
  simp [dotSlashes, List.replicate_succ]

theorem stripDotSlash_dotSlashes_append (n : Nat) (s : List Char) :
    stripDotSlash (dotSlashes n ++ s) = stripDotSlash s := by
  induction n with
  | zero => simp [dotSlashes]
  | succ n ih => rw [dotSlashes_succ_append, stripDotSlash, ih]

theorem exists_dotSlashes_append (s : List Char) : ∃ n, s = dotSlashes n ++ stripDotSlash s := by
  induction s using stripDotSlash.induct with
  | case1 s ih =>
    obtain ⟨n, hn⟩ := ih
    refine ⟨n + 1, ?_⟩
    rw [dotSlashes_succ_append, stripDotSlash, ← hn]
  | case2 s h => exact ⟨0, by simp [dotSlashes, stripDotSlash_eq_self h]⟩

/-- What is left of a path is what is behind all the `./`. -/
theorem stripDotSlash_eq_iff {s r : List Char} :
    stripDotSlash s = r ↔ (∃ n, s = dotSlashes n ++ r) ∧ ∀ t, r ≠ '.' :: '/' :: t := by
  constructor
  · rintro rfl
    exact ⟨exists_dotSlashes_append s, stripDotSlash_ne s⟩
  · rintro ⟨⟨n, rfl⟩, h⟩
    rw [stripDotSlash_dotSlashes_append, stripDotSlash_eq_self h]

/-! ### Separators -/

/-- One text is another one with some slashes written as backslashes. -/
def Backslashed (s t : List Char) : Prop :=
  List.Forall₂ (fun c d => d = c ∨ c = '/' ∧ d = '\\') s t

theorem Backslashed.slashed_eq {s t : List Char} (h : Backslashed s t) : slashed t = slashed s := by
  induction h with
  | nil => rfl
  | cons hcd _ ih =>
    simp only [slashed, replaceChar, List.map_cons] at ih ⊢
    rw [ih]
    rcases hcd with rfl | ⟨rfl, rfl⟩
    · rfl
    · rfl

/-- Before a path `./` may stand with either separator. -/
theorem exists_slashed_append {ps : List String} (h : ∀ p ∈ ps, p = "./" ∨ p = ".\\") (s : List Char) :
    ∃ n, slashed ((String.join ps).toList ++ s) = dotSlashes n ++ slashed s := by
  induction ps with
  | nil => exact ⟨0, by simp [dotSlashes]⟩
  | cons p ps ih =>
    obtain ⟨n, hn⟩ := ih fun q hq => h q (List.mem_cons_of_mem p hq)
    refine ⟨n + 1, ?_⟩
    have hp : slashed p.toList = ['.', '/'] := by
      rcases h p List.mem_cons_self with rfl | rfl
      · decide
      · decide
    rw [dotSlashes_succ_append, ← hn]
    simp only [slashed, replaceChar, String.join_cons, String.toList_append, List.append_assoc,
      List.map_append] at hp ⊢
    rw [hp]
    rfl

/-! ### Normal forms -/

/-- A path in normal form. -/
structure IsNormal (s : List Char) : Prop where
  /-- Its separators are slashes. -/
  slashes : '\\' ∉ s
  /-- It does not start with `./`. -/
  bare : ∀ r, s ≠ '.' :: '/' :: r

theorem isNormal_normalChars (s : List Char) : IsNormal (normalChars s) :=
  ⟨backslash_notMem_normalChars s, stripDotSlash_ne _⟩

theorem IsNormal.normalChars_eq {s : List Char} (h : IsNormal s) : normalChars s = s := by
  rw [normalChars, replaceChar_of_notMem h.slashes, stripDotSlash_eq_self h.bare]

theorem normalChars_eq_stripDotSlash (s : List Char) : normalChars s = stripDotSlash (slashed s) := rfl

theorem text_ofText (s : String) : (ofText s).text.toList = normalChars s.toList :=
  String.toList_ofList

theorem ofText_eq_iff {s t : String} : ofText s = ofText t ↔ normalChars s.toList = normalChars t.toList := by
  rw [ofText, ofText, RepoPath.mk.injEq, ← String.toList_inj, String.toList_ofList, String.toList_ofList]

/-! ### Segments -/

/-- The segments of a path that say something: those that are neither empty nor a single point. -/
def segments (s : List Char) : List (List Char) :=
  (splitAt '/' s).filter fun name => !isIdle name

theorem segments_dotSlashes_append (n : Nat) (s : List Char) : segments (dotSlashes n ++ s) = segments s := by
  induction n with
  | zero => simp [dotSlashes]
  | succ n ih =>
    have hdot : isIdle ['.'] = true := rfl
    rw [dotSlashes_succ_append, ← ih, segments, ← List.singleton_append, splitAt_append (by decide)]
    simp [segments, hdot]

theorem segments_stripDotSlash (s : List Char) : segments (stripDotSlash s) = segments s := by
  obtain ⟨n, hn⟩ := exists_dotSlashes_append s
  conv => rhs; rw [hn]
  rw [segments_dotSlashes_append]

/-- The normal form of a path is what is behind all the `./` of the path with slashes. It is in normal form, and a path
in normal form is its own. Neither the separators nor the `./` in front matter to it, and it leads where the path
leads. -/
theorem ofText_normalizes (s : String) :
    ('\\' ∉ (ofText s).text.toList ∧ ∀ r, (ofText s).text.toList ≠ '.' :: '/' :: r) ∧
    ofText (ofText s).text = ofText s ∧
    (∀ t : String, Backslashed s.toList t.toList → ofText t = ofText s) ∧
    (∀ ps : List String, (∀ p ∈ ps, p = "./" ∨ p = ".\\") → ofText (String.join ps ++ s) = ofText s) ∧
    (∃ n, slashed s.toList = dotSlashes n ++ (ofText s).text.toList) ∧
    segments (ofText s).text.toList = segments (slashed s.toList) ∧
    (ofText s).escapesRoot = escapesRoot ⟨String.ofList (slashed s.toList)⟩ := by
  have hnormal : IsNormal (ofText s).text.toList := by
    rw [text_ofText]
    exact isNormal_normalChars s.toList
  refine ⟨⟨hnormal.slashes, hnormal.bare⟩, ?_, ?_, ?_, ?_, ?_, ?_⟩
  · rw [ofText_eq_iff, hnormal.normalChars_eq, text_ofText]
  · intro t h
    rw [ofText_eq_iff, normalChars_eq_stripDotSlash, normalChars_eq_stripDotSlash, h.slashed_eq]
  · intro ps h
    obtain ⟨n, hn⟩ := exists_slashed_append h s.toList
    rw [ofText_eq_iff, String.toList_append, normalChars_eq_stripDotSlash, normalChars_eq_stripDotSlash, hn,
      stripDotSlash_dotSlashes_append]
  · rw [text_ofText]
    exact exists_dotSlashes_append (slashed s.toList)
  · rw [text_ofText, normalChars_eq_stripDotSlash, segments_stripDotSlash]
  · rw [escapesRoot, escapesRoot, text_ofText, normalChars_eq_stripDotSlash, climbsFrom_stripDotSlash,
      String.toList_ofList]

/-- Two spellings of a path, with `./` in front of one of them and separators of both kinds. -/
theorem ofText_normalizes_of_mixed :
    Backslashed "./..//a/./b".toList ".\\../\\a/.\\b".toList ∧
      (ofText (String.join [".\\", "./", ".\\"] ++ ".\\../\\a/.\\b")).text = "..//a/./b" ∧
      ofText (String.join [".\\", "./", ".\\"] ++ ".\\../\\a/.\\b") = ofText "./..//a/./b" := by
  have hseparators : Backslashed "./..//a/./b".toList ".\\../\\a/.\\b".toList := by
    unfold Backslashed
    decide +kernel
  have hfront : ofText (String.join [".\\", "./", ".\\"] ++ ".\\../\\a/.\\b") = ofText ".\\../\\a/.\\b" :=
    (ofText_normalizes _).2.2.2.1 [".\\", "./", ".\\"] (by simp)
  have hsame : ofText ".\\../\\a/.\\b" = ofText "./..//a/./b" := (ofText_normalizes _).2.2.1 _ hseparators
  refine ⟨hseparators, ?_, hfront.trans hsame⟩
  rw [hfront, hsame]
  decide +kernel

/-! ### Absolute paths -/

/-- A path that starts at a root, or has a colon as its second byte. -/
def StartsAbsolute (s : List Char) : Prop :=
  s.head? = some '/' ∨ (utf8 (String.ofList s))[1]? = some 58

theorem utf8_ofList_cons (c : Char) (s : List Char) :
    utf8 (String.ofList (c :: s)) = String.utf8EncodeChar c ++ utf8 (String.ofList s) := by
  simp only [utf8, String.toList_ofList, List.flatMap_cons]

theorem utf8EncodeChar_ascii {c : Char} (h : c.toNat < 128) : String.utf8EncodeChar c = [UInt8.ofNat c.toNat] :=
  if_pos (Nat.le_of_lt_succ h)

/-- A character beyond these has more than one byte, and none of its bytes is one of theirs. -/
theorem exists_utf8EncodeChar {c : Char} (h : 128 ≤ c.toNat) :
    ∃ a b bytes, String.utf8EncodeChar c = a :: b :: bytes ∧ 128 ≤ a.toNat ∧ 128 ≤ b.toNat := by
  have hc : ¬c.val.toNat ≤ 127 := by
    show ¬c.toNat ≤ 127
    omega
  simp only [String.utf8EncodeChar, if_neg hc]
  split
  · exact ⟨_, _, _, rfl, by simp only [UInt8.toNat_ofNat']; omega, by simp only [UInt8.toNat_ofNat']; omega⟩
  split
  · exact ⟨_, _, _, rfl, by simp only [UInt8.toNat_ofNat']; omega, by simp only [UInt8.toNat_ofNat']; omega⟩
  · exact ⟨_, _, _, rfl, by simp only [UInt8.toNat_ofNat']; omega, by simp only [UInt8.toNat_ofNat']; omega⟩

theorem head?_utf8_eq_colon_iff {s : List Char} :
    (utf8 (String.ofList s)).head? = some 58 ↔ s.head? = some ':' := by
  cases s with
  | nil => simp [utf8]
  | cons c s =>
    rw [utf8_ofList_cons]
    by_cases h : c.toNat < 128
    · rw [utf8EncodeChar_ascii h]
      simp only [List.singleton_append, List.head?_cons, Option.some.injEq]
      constructor
      · intro h58
        have hn := congrArg UInt8.toNat h58
        rw [UInt8.toNat_ofNat'] at hn
        exact Char.toNat_inj.mp (show c.toNat = 58 by simp at hn; omega)
      · rintro rfl
        rfl
    · obtain ⟨a, b, bytes, hbytes, ha, -⟩ := exists_utf8EncodeChar (Nat.le_of_not_lt h)
      rw [hbytes]
      simp only [List.cons_append, List.head?_cons, Option.some.injEq]
      refine iff_of_false ?_ ?_
      · rintro rfl
        exact absurd ha (by decide)
      · rintro rfl
        exact h (by decide)

theorem isAbsoluteChars_cons_iff {c : Char} {s : List Char} :
    isAbsoluteChars (c :: s) = true ↔ c = '/' ∨ s.head? = some ':' ∧ c.toNat < 128 := by
  by_cases hc : c = '/'
  · simp [hc, isAbsoluteChars]
  · cases s with
    | nil => simp [hc, isAbsoluteChars]
    | cons d s => by_cases hd : d = ':' <;> simp [hc, hd, isAbsoluteChars]

/-- What is told by characters is told by bytes: a colon is the second byte just behind a character of one byte. -/
theorem isAbsoluteChars_iff {s : List Char} : isAbsoluteChars s = true ↔ StartsAbsolute s := by
  cases s with
  | nil => simp [StartsAbsolute, isAbsoluteChars, utf8]
  | cons c s =>
    rw [isAbsoluteChars_cons_iff, StartsAbsolute, utf8_ofList_cons, List.head?_cons, Option.some.injEq]
    by_cases h : c.toNat < 128
    · rw [utf8EncodeChar_ascii h, List.singleton_append, List.getElem?_cons_succ, ← List.head?_eq_getElem?,
        head?_utf8_eq_colon_iff]
      simp [h]
    · obtain ⟨a, b, bytes, hbytes, -, hb⟩ := exists_utf8EncodeChar (Nat.le_of_not_lt h)
      have hcolon : b ≠ 58 := by
        rintro rfl
        exact absurd hb (by decide)
      simp [hbytes, h, hcolon]

theorem isAbsolute_ofText (s : String) :
    (ofText s).isAbsolute = isAbsoluteChars (stripDotSlash (slashed s.toList)) := by
  rw [isAbsolute, text_ofText, normalChars_eq_stripDotSlash]

theorem StartsAbsolute.bare {s : List Char} (h : StartsAbsolute s) (r : List Char) : s ≠ '.' :: '/' :: r := by
  rintro rfl
  have habsolute := isAbsoluteChars_iff.mpr h
  simp [isAbsoluteChars_cons_iff] at habsolute

/-- The normal form of a path is absolute if the path is, or what is behind all the `./` in front of it. -/
theorem isAbsolute_ofText_iff {s : String} :
    (ofText s).isAbsolute = true ↔ ∃ n r, slashed s.toList = dotSlashes n ++ r ∧ StartsAbsolute r := by
  rw [isAbsolute_ofText, isAbsoluteChars_iff]
  constructor
  · intro h
    obtain ⟨n, hn⟩ := exists_dotSlashes_append (slashed s.toList)
    exact ⟨n, _, hn, h⟩
  · rintro ⟨n, r, hs, hr⟩
    have hstrip : stripDotSlash (slashed s.toList) = r := stripDotSlash_eq_iff.mpr ⟨⟨n, hs⟩, hr.bare⟩
    rwa [hstrip]

/-- A path that is not absolute though its normal form is: `./` is in front of what is. -/
def HidesAbsolute (s : List Char) : Prop :=
  ∃ n r, s = dotSlashes (n + 1) ++ r ∧ StartsAbsolute r

theorem HidesAbsolute.not_startsAbsolute {s : List Char} (h : HidesAbsolute s) : ¬StartsAbsolute s := by
  obtain ⟨n, r, rfl, -⟩ := h
  intro hs
  exact hs.bare _ (dotSlashes_succ_append n r)

theorem isAbsolute_ofText_iff_or {s : String} :
    (ofText s).isAbsolute = true ↔ StartsAbsolute (slashed s.toList) ∨ HidesAbsolute (slashed s.toList) := by
  rw [isAbsolute_ofText_iff]
  constructor
  · rintro ⟨n, r, hs, hr⟩
    cases n with
    | zero => exact .inl (by simpa [hs, dotSlashes] using hr)
    | succ n => exact .inr ⟨n, r, hs, hr⟩
  · rintro (h | ⟨n, r, hs, hr⟩)
    · exact ⟨0, _, by simp [dotSlashes], h⟩
    · exact ⟨n + 1, r, hs, hr⟩

/-- A path is reported as an absolute one if its normal form is absolute. -/
theorem checkPath_eq_absolutePath_iff {subject : Rules.Subject} {value : String} :
    Rules.checkPath subject value = some (Rules.absolutePath subject value) ↔ (ofText value).isAbsolute = true := by
  unfold Rules.checkPath
  by_cases hempty : value.isEmpty = true
  · obtain rfl : value = "" := by simpa using hempty
    rw [if_pos hempty]
    exact iff_of_false (by simp [Rules.emptyValue, Rules.absolutePath]) (by decide)
  rw [if_neg hempty]
  by_cases h : (ofText value).isAbsolute = true
  · simp [h]
  · rw [if_neg h]
    refine iff_of_false ?_ h
    split
    · simp [Rules.parentEscape, Rules.absolutePath, FindingCode.text]
    · simp

/-- An absolute path has an absolute normal form, and is reported. The normal form tells whether a path is absolute
just if `./` is not in front of what is absolute; a path that hides it so is reported, too, though it is relative. -/
theorem ofText_keeps_absolute (s : String) :
    (StartsAbsolute (slashed s.toList) → (ofText s).isAbsolute = true) ∧
    (((ofText s).isAbsolute = true ↔ StartsAbsolute (slashed s.toList)) ↔ ¬HidesAbsolute (slashed s.toList)) ∧
    ∀ subject, Rules.checkPath subject s = some (Rules.absolutePath subject s) ↔
      StartsAbsolute (slashed s.toList) ∨ HidesAbsolute (slashed s.toList) := by
  refine ⟨fun h => isAbsolute_ofText_iff_or.mpr (.inl h), ?_, fun subject => ?_⟩
  · rw [isAbsolute_ofText_iff_or]
    constructor
    · intro h hides
      exact hides.not_startsAbsolute (h.mp (.inr hides))
    · intro h
      exact or_iff_left h
  · rw [checkPath_eq_absolutePath_iff, isAbsolute_ofText_iff_or]

theorem ofText_keeps_absolute_of_drive :
    StartsAbsolute (slashed "C:\\sdk\\apiSurface".toList) ∧ (ofText "C:\\sdk\\apiSurface").isAbsolute = true := by
  have h : StartsAbsolute (slashed "C:\\sdk\\apiSurface".toList) := .inr (by decide +kernel)
  exact ⟨h, (ofText_keeps_absolute _).1 h⟩

/-- A path that starts from the directory of the repository, with an empty segment in it. -/
theorem ofText_absolute_of_hidden_root :
    ¬StartsAbsolute (slashed ".//etc".toList) ∧ (ofText ".//etc").isAbsolute = true ∧
      Rules.checkPath .apiSurfacePath ".//etc" = some (Rules.absolutePath .apiSurfacePath ".//etc") := by
  refine ⟨?_, by decide +kernel, checkPath_eq_absolutePath_iff.mpr (by decide +kernel)⟩
  unfold StartsAbsolute
  decide +kernel

end SurfaceRegistry.RepoPath
