import SurfaceRegistry.RepoPath
import SurfaceRegistry.Proofs.PackagePath

/-!
# Paths that stay in a repository

A path does not climb above the root if every beginning of it has at most as many `..` as ordinary
segments (`RepoPath.climbsFrom_eq_false_iff`). Bringing a path to normal form changes nothing about this,
and neither does adding a package at the end: a package below a confined directory is confined
(`RepoPath.confined_join`), although the normal form is taken once more, and a directory `.` in front of
the package is lost.
-/

namespace SurfaceRegistry

/-! ### Joining -/

namespace Text.Path

/-- The names of a path that are not empty. -/
def steps (s : List Char) : List (List Char) :=
  (splitAt '/' s).filter fun n => !n.isEmpty

theorem joinChars_eq (a : List Char) {b : List Char} (hb : b.head? ≠ some '/') :
    joinChars a b = if a = [] then b else if a.getLast? = some '/' then a ++ b else a ++ '/' :: b := by
  unfold joinChars
  split
  · exact absurd rfl hb
  · split
    · rename_i h
      rw [if_pos (List.getLast?_eq_none_iff.mp h)]
    · rename_i h
      rw [if_neg (by rintro rfl; cases h), if_pos h]
    · rename_i c hc h
      rw [if_neg (by rintro rfl; cases h), if_neg]
      intro h'
      rw [h] at h'
      exact hc (Option.some.inj h')

theorem splitAt_append_sep (sep : Char) (a b : List Char) :
    splitAt sep (a ++ sep :: b) = splitAt sep a ++ splitAt sep b := by
  induction a with
  | nil => exact splitAt_cons_self b
  | cons c a ih =>
    by_cases hc : c = sep
    · rw [hc, List.cons_append, splitAt_cons_self, splitAt_cons_self, ih, List.cons_append]
    · rw [List.cons_append, splitAt_cons_of_ne hc, splitAt_cons_of_ne hc]
      obtain ⟨h1, h2⟩ := List.cons.inj ih
      rw [h1, h2]
      rfl

theorem steps_append_slash (a b : List Char) : steps (a ++ '/' :: b) = steps a ++ steps b := by
  rw [steps, splitAt_append_sep, List.filter_append, steps, steps]

/-- What is told of a path piece by piece is told of a path after another one as of both. -/
theorem append_joinChars {α : Type} (tell : List Char → List α) (hnil : tell [] = [])
    (hslash : ∀ a b, tell (a ++ '/' :: b) = tell a ++ tell b) (a : List Char) {b : List Char}
    (hb : b.head? ≠ some '/') : tell (joinChars a b) = tell a ++ tell b := by
  rw [joinChars_eq a hb]
  by_cases ha : a = []
  · rw [if_pos ha, ha, hnil, List.nil_append]
  rw [if_neg ha]
  split
  · -- The slash at the end of `a` separates the two, and behind it there is no piece of `a`.
    rename_i hlast
    obtain ⟨s, rfl⟩ := List.getLast?_eq_some_iff.mp hlast
    rw [List.append_assoc, List.singleton_append, hslash, hslash, hnil, List.append_nil]
  · exact hslash a b

/-- A path after another one has the names of both. -/
theorem steps_joinChars (a : List Char) {b : List Char} (hb : b.head? ≠ some '/') :
    steps (joinChars a b) = steps a ++ steps b :=
  append_joinChars steps rfl steps_append_slash a hb

end Text.Path

namespace RepoPath

open Text Text.Path

/-! ### Climbing -/

/-- Whether a segment leads into a directory. -/
def descends (s : List Char) : Bool :=
  s ≠ [] ∧ s ≠ ['.'] ∧ s ≠ ['.', '.']

theorem segment_cases (s : List Char) :
    (s = [] ∨ s = ['.']) ∨ s = ['.', '.'] ∨ descends s = true := by
  by_cases h1 : s = [] ∨ s = ['.']
  · exact .inl h1
  · rw [not_or] at h1
    by_cases h2 : s = ['.', '.']
    · exact .inr (.inl h2)
    · exact .inr (.inr (by simp [descends, h1, h2]))

theorem climbsFrom_idle (d : Nat) {s : List Char} (h : s = [] ∨ s = ['.']) (r : List (List Char)) :
    climbsFrom d (s :: r) = climbsFrom d r :=
  if_pos h

theorem climbsFrom_zero_up (r : List (List Char)) : climbsFrom 0 (['.', '.'] :: r) = true := rfl

theorem climbsFrom_succ_up (d : Nat) (r : List (List Char)) :
    climbsFrom (d + 1) (['.', '.'] :: r) = climbsFrom d r := rfl

theorem climbsFrom_descends (d : Nat) {s : List Char} (h : descends s = true) (r : List (List Char)) :
    climbsFrom d (s :: r) = climbsFrom (d + 1) r := by
  simp only [descends, decide_eq_true_eq] at h
  exact (if_neg (by simp [h])).trans (if_neg h.2.2)

/-- A path stays at or below its start, `d` levels below the root, if no beginning of it has more `..`
than ordinary segments and these levels. -/
theorem climbsFrom_eq_false_iff {d : Nat} {segments : List (List Char)} :
    climbsFrom d segments = false ↔
      ∀ before, before <+: segments → before.count ['.', '.'] ≤ d + before.countP descends := by
  induction segments generalizing d with
  | nil =>
    refine iff_of_true rfl fun before h => ?_
    rw [List.prefix_nil.mp h]
    exact Nat.zero_le _
  | cons s r ih =>
    have hcons (P : List (List Char) → Prop) :
        (∀ before, before <+: s :: r → P before) ↔ P [] ∧ ∀ before, before <+: r → P (s :: before) := by
      constructor
      · intro h
        exact ⟨h [] List.nil_prefix, fun before hb => h (s :: before) (List.cons_prefix_cons.mpr ⟨rfl, hb⟩)⟩
      · rintro ⟨h0, h⟩ before hb
        cases before with
        | nil => exact h0
        | cons t before =>
          obtain ⟨rfl, hr⟩ := List.cons_prefix_cons.mp hb
          exact h before hr
    rw [hcons]
    rcases segment_cases s with h | rfl | h
    · rw [climbsFrom_idle d h, ih]
      rcases h with rfl | rfl <;> simp [descends]
    · cases d with
      | zero =>
        refine iff_of_false (by simp [climbsFrom_zero_up]) fun h => ?_
        exact absurd (h.2 [] List.nil_prefix) (by decide)
      | succ d =>
        rw [climbsFrom_succ_up, ih]
        have hup : descends ['.', '.'] = false := rfl
        simp only [List.count_cons_self, List.countP_cons, hup]
        refine ⟨fun h => ⟨Nat.zero_le _, fun before hb => ?_⟩, fun h before hb => ?_⟩
        · have := h before hb
          simp only [Bool.false_eq_true, if_false]
          omega
        · have := h.2 before hb
          simp only [Bool.false_eq_true, if_false] at this
          omega
    · rw [climbsFrom_descends d h, ih]
      have hne : s ≠ ['.', '.'] := by
        rintro rfl
        cases h
      simp only [List.count_cons_of_ne hne, List.countP_cons_of_pos h]
      refine ⟨fun h => ⟨Nat.zero_le _, fun before hb => ?_⟩, fun h before hb => ?_⟩
      · have := h before hb
        omega
      · have := h.2 before hb
        omega

theorem climbsFrom_cons_congr {a b : List (List Char)} (h : ∀ d, climbsFrom d a = climbsFrom d b)
    (d : Nat) (s : List Char) : climbsFrom d (s :: a) = climbsFrom d (s :: b) := by
  rcases segment_cases s with hs | rfl | hs
  · rw [climbsFrom_idle d hs, climbsFrom_idle d hs, h]
  · cases d with
    | zero => rfl
    | succ d => rw [climbsFrom_succ_up, climbsFrom_succ_up, h]
  · rw [climbsFrom_descends d hs, climbsFrom_descends d hs, h]

/-- Segments that say nothing may be left out. -/
theorem climbsFrom_filter {keep : List Char → Bool} (h : ∀ s, keep s = false → s = [] ∨ s = ['.']) (d : Nat)
    (segments : List (List Char)) : climbsFrom d (segments.filter keep) = climbsFrom d segments := by
  induction segments generalizing d with
  | nil => rfl
  | cons s r ih =>
    by_cases hs : keep s = true
    · rw [List.filter_cons_of_pos hs]
      exact climbsFrom_cons_congr ih d s
    · rw [List.filter_cons_of_neg hs, climbsFrom_idle d (h s (by simpa using hs)), ih]

theorem climbsFrom_steps (d : Nat) (s : List Char) :
    climbsFrom d (steps s) = climbsFrom d (splitAt '/' s) := by
  rw [steps, climbsFrom_filter]
  intro t ht
  exact .inl (by simpa using ht)

/-- Ordinary segments at the end lead no higher. -/
theorem climbsFrom_append {b : List (List Char)} (hb : ∀ s ∈ b, descends s = true) (d : Nat)
    (a : List (List Char)) : climbsFrom d (a ++ b) = climbsFrom d a := by
  induction a generalizing d with
  | nil =>
    rw [List.nil_append]
    induction b generalizing d with
    | nil => rfl
    | cons s b ih =>
      rw [climbsFrom_descends d (hb s List.mem_cons_self)]
      exact ih (fun t ht => hb t (List.mem_cons_of_mem s ht)) (d + 1)
  | cons t a ih => exact climbsFrom_cons_congr ih d t

/-! ### Normal forms -/

theorem stripDotSlash_eq_self {s : List Char} (h : ∀ r, s ≠ '.' :: '/' :: r) : stripDotSlash s = s := by
  unfold stripDotSlash
  split
  · exact absurd rfl (h _)
  · rfl

theorem stripDotSlash_ne (s r : List Char) : stripDotSlash s ≠ '.' :: '/' :: r := by
  induction s using stripDotSlash.induct with
  | case1 s ih => exact ih
  | case2 s h =>
    rw [stripDotSlash_eq_self h]
    exact h r

theorem climbsFrom_stripDotSlash (d : Nat) (s : List Char) :
    climbsFrom d (splitAt '/' (stripDotSlash s)) = climbsFrom d (splitAt '/' s) := by
  induction s using stripDotSlash.induct with
  | case1 s ih =>
    rw [stripDotSlash, ih, ← List.singleton_append, splitAt_append (by decide),
      climbsFrom_idle d (.inr rfl)]
  | case2 s h => rw [stripDotSlash_eq_self h]

theorem mem_of_mem_stripDotSlash {c : Char} {s : List Char} (h : c ∈ stripDotSlash s) : c ∈ s := by
  induction s using stripDotSlash.induct with
  | case1 s ih => exact List.mem_cons_of_mem _ (List.mem_cons_of_mem _ (ih h))
  | case2 s hs => rwa [stripDotSlash_eq_self hs] at h

theorem backslash_notMem_normalChars (s : List Char) : '\\' ∉ normalChars s :=
  fun h => notMem_replaceChar (by decide) s (mem_of_mem_stripDotSlash h)

/-! ### Absolute paths -/

theorem isAbsoluteChars_eq_false_iff {s : List Char} :
    isAbsoluteChars s = false ↔ s.head? ≠ some '/' ∧ ∀ c r, s = c :: ':' :: r → 128 ≤ c.toNat := by
  unfold isAbsoluteChars
  split
  · exact iff_of_false (by decide) fun h => h.1 rfl
  · rename_i c r hc
    rw [decide_eq_false_iff_not, Nat.not_lt]
    constructor
    · intro h
      refine ⟨fun hs => hc (Option.some.inj hs), fun d t hd => ?_⟩
      obtain ⟨rfl, -⟩ := List.cons.inj hd
      exact h
    · intro h
      exact h.2 c r rfl
  · rename_i h1 h2
    refine iff_of_true rfl ⟨fun hs => ?_, fun c r hr => absurd hr (h2 c r)⟩
    obtain ⟨r, hr⟩ := List.head?_eq_some_iff.mp hs
    exact h1 r hr

theorem isAbsoluteChars_of_notMem {s : List Char} (hc : ':' ∉ s) (hs : s.head? ≠ some '/') :
    isAbsoluteChars s = false := by
  refine isAbsoluteChars_eq_false_iff.mpr ⟨hs, ?_⟩
  rintro c r rfl
  exact absurd (List.mem_cons_of_mem c List.mem_cons_self) hc

/-- What follows a relative path does not make it absolute, unless it completes a drive. -/
theorem isAbsoluteChars_append {a b : List Char} (ha : a ≠ []) (h : isAbsoluteChars a = false)
    (hb : b.head? ≠ some ':') : isAbsoluteChars (a ++ b) = false := by
  obtain ⟨hs, hd⟩ := isAbsoluteChars_eq_false_iff.mp h
  obtain ⟨c, a, rfl⟩ := List.exists_cons_of_ne_nil ha
  refine isAbsoluteChars_eq_false_iff.mpr ⟨hs, fun d r hr => ?_⟩
  obtain ⟨rfl, ht⟩ := List.cons.inj hr
  cases a with
  | nil =>
    have ht : b = ':' :: r := ht
    exact absurd (by rw [ht]; rfl) hb
  | cons e a =>
    obtain ⟨he, -⟩ := List.cons.inj ht
    exact hd c a (by rw [he])

/-! ### Paths below a directory -/

/-- A path that does not leave the directory that it starts from. -/
structure Confined (p : RepoPath) : Prop where
  /-- It starts from there. -/
  relative : p.isAbsolute = false
  /-- It does not climb above. -/
  inside : p.escapesRoot = false

/-- The text of a package starts as an identifier does, and its names are identifiers. -/
theorem packageChars_head (p : PackagePath) :
    ∃ (i : Identifier) (c : Char) (r : List Char), c ∈ i.chars ∧ p.text.toList = c :: r := by
  obtain ⟨segments, hne⟩ := p
  cases segments with
  | nil => exact absurd rfl hne
  | cons i is =>
    obtain ⟨c, r, hi⟩ := List.exists_cons_of_ne_nil i.chars_ne_nil
    refine ⟨i, c, r ++ (is.map Identifier.chars).flatMap (fun q => '/' :: q), ?_, ?_⟩
    · rw [hi]
      exact List.mem_cons_self
    · rw [PackagePath.text_toList, List.map_cons, joinWith_cons_eq_flatMap, hi, List.cons_append]

theorem packageChars_notMem {c : Char} (hc : ∀ i : Identifier, c ∉ i.chars) (hs : c ≠ '/')
    (p : PackagePath) : c ∉ p.text.toList := by
  rw [PackagePath.text_toList]
  intro h
  rcases mem_joinWith h with h | ⟨s, hm, h⟩
  · exact hs h
  · exact Identifier.notMem_of_mem_map hc s hm h

theorem packageChars_head_ne {c : Char} (hc : ∀ i : Identifier, c ∉ i.chars) (p : PackagePath) :
    p.text.toList.head? ≠ some c := by
  obtain ⟨i, d, r, hd, hp⟩ := packageChars_head p
  rw [hp]
  intro h
  obtain rfl := Option.some.inj h
  exact hc i hd

theorem descends_of_packageChars {p : PackagePath} {s : List Char} (h : s ∈ steps p.text.toList) :
    descends s = true := by
  rw [steps, List.mem_filter, PackagePath.text_toList,
    splitAt_joinWith (fun h => p.segments_ne_nil (List.map_eq_nil_iff.mp h))
      (Identifier.notMem_of_mem_map Identifier.slash_notMem)] at h
  obtain ⟨i, -, rfl⟩ := List.mem_map.mp h.1
  have hp := i.point_notMem
  simp only [descends, decide_eq_true_eq]
  refine ⟨i.chars_ne_nil, ?_, ?_⟩
  · intro hi
    rw [hi] at hp
    exact hp List.mem_cons_self
  · intro hi
    rw [hi] at hp
    exact hp List.mem_cons_self

/-- When the normal form of a path after one in normal form is taken again, a leading point of the first one may be
lost, and nothing else. -/
theorem stripDotSlash_joinChars {a b : List Char} (hn : ∀ r, a ≠ '.' :: '/' :: r) (hs : b.head? ≠ some '/')
    (hp : b.head? ≠ some '.') : stripDotSlash (joinChars a b) = if a = ['.'] then b else joinChars a b := by
  by_cases hdot : a = ['.']
  · subst hdot
    have hself : stripDotSlash b = b := by
      refine stripDotSlash_eq_self ?_
      rintro r rfl
      exact hp rfl
    rw [if_pos rfl, joinChars_eq _ hs, if_neg (by decide), if_neg (by decide), List.singleton_append, stripDotSlash,
      hself]
  · rw [if_neg hdot]
    refine stripDotSlash_eq_self ?_
    intro r hr
    rw [joinChars_eq a hs] at hr
    cases a with
    | nil =>
      rw [if_pos rfl] at hr
      exact hp (by rw [hr]; rfl)
    | cons c a =>
      obtain ⟨t, ht⟩ : ∃ t, c :: (a ++ t) = '.' :: '/' :: r := by
        rw [if_neg (List.cons_ne_nil c a)] at hr
        split at hr
        · exact ⟨b, hr⟩
        · exact ⟨'/' :: b, hr⟩
      obtain ⟨rfl, hrest⟩ := List.cons.inj ht
      cases a with
      | nil => exact hdot rfl
      | cons d a =>
        obtain ⟨rfl, -⟩ := List.cons.inj hrest
        exact hn a rfl

/-- A relative path after one in normal form is relative when its normal form is taken again. -/
theorem isAbsoluteChars_stripDotSlash {a b : List Char} (ha : isAbsoluteChars a = false)
    (hn : ∀ r, a ≠ '.' :: '/' :: r) (hb : isAbsoluteChars b = false) (hp : b.head? ≠ some '.')
    (hc : b.head? ≠ some ':') : isAbsoluteChars (stripDotSlash (joinChars a b)) = false := by
  have hs : b.head? ≠ some '/' := (isAbsoluteChars_eq_false_iff.mp hb).1
  rw [stripDotSlash_joinChars hn hs hp]
  split
  · exact hb
  · rw [joinChars_eq a hs]
    split
    · exact hb
    · rename_i hnil
      split
      · exact isAbsoluteChars_append hnil ha hc
      · exact isAbsoluteChars_append hnil ha (by simp)

/-- Only the text in front can be lost when a package is written behind a path. -/
theorem text_join_package (value : String) (p : PackagePath) :
    ((ofText value).join p.text).text.toList = stripDotSlash (joinChars (normalChars value.toList) p.text.toList) := by
  have hback : '\\' ∉ p.text.toList :=
    packageChars_notMem (Identifier.notMem_chars (by decide +kernel) (by decide)) (by decide) p
  have hbase := backslash_notMem_normalChars value.toList
  simp only [join, ofText, Text.Path.join, String.toList_ofList]
  rw [normalChars, replaceChar_of_notMem]
  rw [joinChars_eq _ (packageChars_head_ne Identifier.slash_notMem p)]
  split
  · exact hback
  · split <;> simp [hback, hbase]

/-- The package below a confined directory is confined. -/
theorem confined_join {value : String} (hd : (ofText value).Confined) (p : PackagePath) :
    ((ofText value).join p.text).Confined := by
  have hslash : p.text.toList.head? ≠ some '/' := packageChars_head_ne Identifier.slash_notMem p
  have hcolon : ':' ∉ p.text.toList :=
    packageChars_notMem (Identifier.notMem_chars (by decide +kernel) (by decide)) (by decide) p
  obtain ⟨hrel, hin⟩ := hd
  simp only [isAbsolute, escapesRoot, ofText, String.toList_ofList] at hrel hin
  constructor
  · rw [isAbsolute, text_join_package]
    refine isAbsoluteChars_stripDotSlash hrel (stripDotSlash_ne _)
      (isAbsoluteChars_of_notMem hcolon hslash) (packageChars_head_ne Identifier.point_notMem p) ?_
    exact fun h => hcolon (List.mem_of_mem_head? h)
  · rw [escapesRoot, text_join_package, climbsFrom_stripDotSlash, ← climbsFrom_steps, steps_joinChars _ hslash,
      climbsFrom_append fun s hs => descends_of_packageChars hs, climbsFrom_steps]
    exact hin

end RepoPath

end SurfaceRegistry
