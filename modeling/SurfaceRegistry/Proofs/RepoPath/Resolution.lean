import SurfaceRegistry.Proofs.RepoPath.Joining

/-!
# Paths resolved on a stack

A path is resolved on the stack of the directories that are open: an ordinary segment opens one, and `..` closes the
one opened last. A path escapes the root just if it is to close one when none is open (`RepoPath.resolve_eq_none_iff`).
A walk along the path keeps no stack but a depth, which is the size of the stack wherever the walk has come to
(`RepoPath.climbsFrom_length`); what comes later cannot make up for a climb.

A machine keeps the depth in a counter of 32 bits. One segment keeps the counter in step with the stack as long as one
more directory fits (`RepoPath.Counts.segment`), so that a whole path does if it has fewer than `2 ^ 31` segments
(`RepoPath.Counts.walk`), and there is no overflow on the way.
-/

namespace SurfaceRegistry.RepoPath

open Text Text.Path

/-- The segments of a path as they stand between its slashes. -/
def written (p : RepoPath) : List (List Char) :=
  splitAt '/' p.text.toList

/-! ### Stacks -/

/-- The open directories after a segment. None can be closed when none is open. -/
def follow (stack : List (List Char)) : List Char → Option (List (List Char))
  | [] | ['.'] => some stack
  | ['.', '.'] => stack.tail?
  | s => some (s :: stack)

/-- The open directories after some segments. -/
def resolve (stack segments : List (List Char)) : Option (List (List Char)) :=
  segments.foldlM follow stack

variable {stack segments : List (List Char)} {s : List Char}

theorem follow_idle (stack : List (List Char)) (h : s = [] ∨ s = ['.']) : follow stack s = some stack := by
  rcases h with rfl | rfl
  · rfl
  · rfl

theorem follow_up (stack : List (List Char)) : follow stack ['.', '.'] = stack.tail? := rfl

theorem follow_descends (stack : List (List Char)) (h : descends s = true) : follow stack s = some (s :: stack) := by
  simp only [descends, decide_eq_true_eq] at h
  rw [follow]
  · exact h.1
  · exact h.2.1
  · exact h.2.2

/-- Only an empty stack cannot be popped. -/
theorem follow_eq_none_iff : follow stack s = none ↔ s = ['.', '.'] ∧ stack = [] := by
  rcases segment_cases s with h | rfl | h
  · rw [follow_idle stack h]
    refine iff_of_false (by simp) ?_
    rintro ⟨rfl, -⟩
    exact absurd h (by decide)
  · rw [follow_up]
    cases stack with
    | nil => simp
    | cons t below => simp
  · rw [follow_descends stack h]
    refine iff_of_false (by simp) ?_
    rintro ⟨rfl, -⟩
    cases h

theorem length_follow_le {after : List (List Char)} (h : follow stack s = some after) :
    after.length ≤ stack.length + 1 := by
  rcases segment_cases s with hs | rfl | hs
  · rw [follow_idle stack hs] at h
    cases h
    exact Nat.le_succ _
  · cases stack with
    | nil => cases h
    | cons t below =>
      cases h
      simp only [List.length_cons]
      omega
  · rw [follow_descends stack hs] at h
    cases h
    rfl

theorem resolve_cons (stack : List (List Char)) (s : List Char) (segments : List (List Char)) :
    resolve stack (s :: segments) = (follow stack s).bind fun after => resolve after segments :=
  List.foldlM_cons

theorem resolve_append (stack a b : List (List Char)) :
    resolve stack (a ++ b) = (resolve stack a).bind fun after => resolve after b :=
  List.foldlM_append

/-- Resolving fails where an empty stack is popped. The induction is on the last segment, since a prefix of the path
is to be told by what is open behind it. -/
theorem resolve_eq_none_iff :
    resolve stack segments = none ↔
      ∃ before, before ++ [['.', '.']] <+: segments ∧ resolve stack before = some [] := by
  induction segments using List.reverseRecOn with
  | nil =>
    refine iff_of_false (by simp [resolve]) ?_
    rintro ⟨before, hbefore, -⟩
    simpa using hbefore.length_le
  | append_singleton segments s ih =>
    have hlast : resolve stack (segments ++ [s]) = none ↔
        resolve stack segments = none ∨ s = ['.', '.'] ∧ resolve stack segments = some [] := by
      rw [resolve_append]
      cases resolve stack segments with
      | none => simp
      | some after => simp [resolve, follow_eq_none_iff]
    rw [hlast, ih]
    constructor
    · rintro (⟨before, hbefore, hempty⟩ | ⟨rfl, hempty⟩)
      · exact ⟨before, hbefore.trans (List.prefix_append _ _), hempty⟩
      · exact ⟨segments, List.prefix_rfl, hempty⟩
    · rintro ⟨before, hbefore, hempty⟩
      rcases List.prefix_concat_iff.mp hbefore with h | h
      · obtain ⟨rfl, hs⟩ := List.append_inj' h rfl
        exact .inr ⟨(List.singleton_inj.mp hs).symm, hempty⟩
      · exact .inl ⟨before, h, hempty⟩

/-! ### Depths -/

/-- The depth of a walk is the size of the stack. -/
theorem climbsFrom_length (stack segments : List (List Char)) :
    climbsFrom stack.length segments = (resolve stack segments).isNone := by
  induction segments generalizing stack with
  | nil => rfl
  | cons s segments ih =>
    rw [resolve_cons]
    rcases segment_cases s with h | rfl | h
    · rw [climbsFrom_idle _ h, follow_idle stack h, Option.bind_some, ih]
    · rw [follow_up]
      cases stack with
      | nil => rfl
      | cons t below => exact ih below
    · rw [climbsFrom_descends _ h, follow_descends stack h, Option.bind_some, ← ih, List.length_cons]

theorem climbsFrom_zero_iff : climbsFrom 0 segments = true ↔ resolve [] segments = none := by
  rw [← Option.isNone_iff_eq_none, ← climbsFrom_length, List.length_nil]

theorem escapesRoot_iff_resolve {p : RepoPath} : p.escapesRoot = true ↔ resolve [] p.written = none :=
  climbsFrom_zero_iff

/-- A walk that has come some way goes on at the depth of the stack. -/
theorem climbsFrom_append_of_resolve {before opened : List (List Char)} (h : resolve stack before = some opened)
    (after : List (List Char)) : climbsFrom stack.length (before ++ after) = climbsFrom opened.length after := by
  rw [climbsFrom_length, climbsFrom_length, resolve_append, h, Option.bind_some]

/-! ### Counters -/

/-- Why a walk that counts ends before its last segment. -/
inductive Stop where
  /-- It has left the root. -/
  | above
  /-- The depth is out of the range of the counter. -/
  | overflow
  deriving DecidableEq

/-- The counter at a number, if this is in its range. -/
def counterAt (n : Int) : Except Stop Int32 :=
  if (Int32.ofInt n).toInt = n then .ok (Int32.ofInt n) else .error .overflow

/-- The counter after a segment. -/
def count (depth : Int32) : List Char → Except Stop Int32
  | [] | ['.'] => .ok depth
  | ['.', '.'] => do
    let d ← counterAt (depth.toInt - 1)
    if d.toInt < 0 then .error .above else .ok d
  | _ => counterAt (depth.toInt + 1)

/-- The counter after some segments. -/
def counted (depth : Int32) (segments : List (List Char)) : Except Stop Int32 :=
  segments.foldlM count depth

/-- The counter is in step with the stack: it is at its size, and has stopped where an empty stack is popped. -/
inductive Counts : Except Stop Int32 → Option (List (List Char)) → Prop where
  /-- The stack has this size. -/
  | inside {depth : Int32} {stack : List (List Char)} : depth.toInt = stack.length → Counts (.ok depth) (some stack)
  /-- The root is left. -/
  | above : Counts (.error .above) none

theorem Counts.eq_none_iff {c : Except Stop Int32} {o : Option (List (List Char))} (h : Counts c o) :
    o = none ↔ c = .error .above := by
  cases h with
  | inside _ => exact iff_of_false (by simp) (by simp)
  | above => exact iff_of_true rfl rfl

theorem Counts.ne_overflow {c : Except Stop Int32} {o : Option (List (List Char))} (h : Counts c o) :
    c ≠ .error .overflow := by
  cases h with
  | inside _ => simp
  | above => simp

theorem exists_counterAt {n : Int} (hlow : -2 ^ 31 ≤ n) (hhigh : n < 2 ^ 31) :
    ∃ d, counterAt n = .ok d ∧ d.toInt = n := by
  have hexact : (Int32.ofInt n).toInt = n := by
    rw [Int32.toInt_ofInt]
    exact Int.bmod_eq_of_le (by simp only [Int32.size]; omega) (by simp only [Int32.size]; omega)
  exact ⟨Int32.ofInt n, if_pos hexact, hexact⟩

theorem count_idle (depth : Int32) (h : s = [] ∨ s = ['.']) : count depth s = .ok depth := by
  rcases h with rfl | rfl
  · rfl
  · rfl

theorem count_descends (depth : Int32) (h : descends s = true) : count depth s = counterAt (depth.toInt + 1) := by
  simp only [descends, decide_eq_true_eq] at h
  rw [count]
  · exact h.1
  · exact h.2.1
  · exact h.2.2

/-- One segment keeps the counter in step if one more directory fits. -/
theorem Counts.segment {depth : Int32} (h : depth.toInt = stack.length) (hroom : stack.length + 1 < 2 ^ 31)
    (s : List Char) : Counts (count depth s) (follow stack s) := by
  rcases segment_cases s with hs | rfl | hs
  · rw [count_idle depth hs, follow_idle stack hs]
    exact .inside h
  · obtain ⟨d, hd, hdown⟩ := exists_counterAt (n := depth.toInt - 1) (by omega) (by omega)
    have hcount : count depth ['.', '.'] = if d.toInt < 0 then .error .above else .ok d := by
      rw [count, hd]
      rfl
    rw [hcount, follow_up]
    cases stack with
    | nil =>
      rw [List.length_nil] at h
      rw [if_pos (by omega)]
      exact .above
    | cons t below =>
      rw [List.length_cons] at h
      rw [if_neg (by omega)]
      exact .inside (by omega)
  · obtain ⟨d, hd, hup⟩ := exists_counterAt (n := depth.toInt + 1) (by omega) (by omega)
    rw [count_descends depth hs, follow_descends stack hs, hd]
    exact .inside (by rw [hup, h, List.length_cons, Nat.cast_succ])

theorem counted_append (depth : Int32) (a b : List (List Char)) :
    counted depth (a ++ b) = (counted depth a).bind fun d => counted d b :=
  List.foldlM_append

/-- The counter stays in step along all segments if as many directories fit. -/
theorem Counts.walk {depth : Int32} (h : depth.toInt = stack.length)
    (hroom : stack.length + segments.length < 2 ^ 31) : Counts (counted depth segments) (resolve stack segments) := by
  induction segments generalizing depth stack with
  | nil => exact .inside h
  | cons s segments ih =>
    rw [List.length_cons] at hroom
    have hstep : Counts (count depth s) (follow stack s) := .segment h (by omega) s
    rw [resolve_cons, counted, List.foldlM_cons]
    generalize hc : count depth s = c at hstep ⊢
    generalize ho : follow stack s = o at hstep ⊢
    cases hstep with
    | inside hsize =>
      have hle := length_follow_le ho
      exact ih hsize (by omega)
    | above => exact .above

/-! ### Longer paths -/

theorem toList_append_slash (a b : String) : (a ++ "/" ++ b).toList = a.toList ++ '/' :: b.toList := by
  simp [String.toList_append]

theorem written_append (p : RepoPath) (more : String) :
    written ⟨p.text ++ "/" ++ more⟩ = p.written ++ splitAt '/' more.toList := by
  rw [written, toList_append_slash, splitAt_append_sep, written]

/-- What follows does not bring a path back that has left the root. -/
theorem resolve_append_eq_none (h : resolve stack segments = none) (after : List (List Char)) :
    resolve stack (segments ++ after) = none := by
  rw [resolve_append, h, Option.bind_none]

theorem escapesRoot_append {p : RepoPath} (h : p.escapesRoot = true) (more : String) :
    escapesRoot ⟨p.text ++ "/" ++ more⟩ = true := by
  rw [escapesRoot_iff_resolve] at h ⊢
  rw [written_append]
  exact resolve_append_eq_none h _

theorem escapesRoot_ofText_append {p : RepoPath} (hp : IsNormal p.text.toList) (h : p.escapesRoot = true)
    (more : String) : (ofText (p.text ++ "/" ++ more)).escapesRoot = true := by
  rw [escapesRoot_iff_resolve, written] at h
  rw [escapesRoot, text_ofText, normalChars_eq_stripDotSlash, climbsFrom_stripDotSlash, toList_append_slash,
    slashed_append_slash, slashed_of_isNormal hp, splitAt_append_sep, climbsFrom_zero_iff]
  exact resolve_append_eq_none h _

/-- A path escapes the root just if some beginning of it has more `..` than ordinary segments, which is just where
resolving it pops an empty stack. A walk along it is always at the depth of the stack, in a counter of 32 bits, too, as
this does not overflow. Whatever is written behind a path that escapes, it does not come back. -/
theorem escapesRoot_resolves (p : RepoPath) (h : p.written.length < 2 ^ 31) :
    (p.escapesRoot = true ↔
      ∃ before, before <+: p.written ∧ before.countP descends < before.count ['.', '.']) ∧
    (p.escapesRoot = true ↔ ∃ before, before ++ [['.', '.']] <+: p.written ∧ resolve [] before = some []) ∧
    (∀ before stack, before <+: p.written → resolve [] before = some stack →
      ∀ after, climbsFrom 0 (before ++ after) = climbsFrom stack.length after) ∧
    (∀ before, before <+: p.written →
      Counts (counted 0 before) (resolve [] before) ∧ counted 0 before ≠ .error .overflow) ∧
    (p.escapesRoot = true ↔ counted 0 p.written = .error .above) ∧
    ∀ more, p.escapesRoot = true →
      escapesRoot ⟨p.text ++ "/" ++ more⟩ = true ∧
      counted 0 (written ⟨p.text ++ "/" ++ more⟩) = .error .above ∧
      (IsNormal p.text.toList → (ofText (p.text ++ "/" ++ more)).escapesRoot = true) := by
  have hcounts : ∀ before, before <+: p.written → Counts (counted 0 before) (resolve [] before) := by
    intro before hbefore
    have hle := hbefore.length_le
    exact .walk rfl (by simp only [List.length_nil]; omega)
  have hcounter : p.escapesRoot = true ↔ counted 0 p.written = .error .above := by
    rw [escapesRoot_iff_resolve, (hcounts p.written List.prefix_rfl).eq_none_iff]
  refine ⟨?_, ?_, ?_, fun before h => ⟨hcounts before h, (hcounts before h).ne_overflow⟩, hcounter, ?_⟩
  · rw [← Bool.not_eq_false, escapesRoot, climbsFrom_eq_false_iff]
    simp [written]
  · rw [escapesRoot_iff_resolve, resolve_eq_none_iff]
  · intro before stack _ hstack after
    exact climbsFrom_append_of_resolve hstack after
  · intro more hout
    refine ⟨escapesRoot_append hout more, ?_, fun hnormal => escapesRoot_ofText_append hnormal hout more⟩
    rw [written_append, counted_append, hcounter.mp hout]
    rfl

/-- One path is back below the root behind the segment that has left it, and one has never left it. -/
theorem escapesRoot_resolves_of_return :
    (written ⟨"a/../../b/c"⟩).length < 2 ^ 31 ∧ (written ⟨"a/.././/b/c"⟩).length < 2 ^ 31 ∧
      resolve [] ["a".toList, "..".toList] = some [] ∧
      escapesRoot ⟨"a/../../b/c"⟩ = true ∧ counted 0 (written ⟨"a/../../b/c"⟩) = .error .above ∧
      (∀ more, escapesRoot ⟨"a/../../b/c" ++ "/" ++ more⟩ = true) ∧
      escapesRoot ⟨"a/.././/b/c"⟩ = false ∧
      Counts (counted 0 (written ⟨"a/.././/b/c"⟩)) (some ["c".toList, "b".toList]) := by
  have hout : (written ⟨"a/../../b/c"⟩).length < 2 ^ 31 := by decide +kernel
  have hin : (written ⟨"a/.././/b/c"⟩).length < 2 ^ 31 := by decide +kernel
  have hempty : resolve [] ["a".toList, "..".toList] = some [] := by decide +kernel
  have hfull : resolve [] (written ⟨"a/.././/b/c"⟩) = some ["c".toList, "b".toList] := by decide +kernel
  obtain ⟨-, hpops, -, -, hcounter, hlonger⟩ := escapesRoot_resolves ⟨"a/../../b/c"⟩ hout
  obtain ⟨-, -, hdepth, hcounts, -, -⟩ := escapesRoot_resolves ⟨"a/.././/b/c"⟩ hin
  have hescapes : escapesRoot ⟨"a/../../b/c"⟩ = true := hpops.mpr ⟨_, by decide +kernel, hempty⟩
  refine ⟨hout, hin, hempty, hescapes, hcounter.mp hescapes, fun more => (hlonger more hescapes).1, ?_, ?_⟩
  · have hend := hdepth _ _ List.prefix_rfl hfull []
    rw [List.append_nil] at hend
    exact hend
  · rw [← hfull]
    exact (hcounts _ List.prefix_rfl).1

end SurfaceRegistry.RepoPath
