import Mathlib
import SurfaceRegistry.Proofs.Check.Findings
import SurfaceRegistry.Report.Annotations

/-!
# Reading annotations

An annotation is one line from which the severity, the file and the message of its finding can be read back
just when the path of the finding, if it has one, has no line break and no two colons side by side, the one
after it counted (`readable_iff`). The message may be any text: its percent signs and
line breaks are encoded, and no replacement touches what another one has written
(`encodeMessage_eq_flatMap`), so that decoding from left to right gives it back. The path is
written as it is; a check of a path with a line break makes an annotation of two lines
(`broken_of_path`).
-/

namespace SurfaceRegistry.Annotation

/-! ### Messages -/

/-- A character of a message, encoded if it is a percent sign or a line break. -/
def encodedChar (c : Char) : List Char :=
  if c = '%' then ['%', '2', '5']
  else if c = '\r' then ['%', '0', 'D']
  else if c = '\n' then ['%', '0', 'A']
  else [c]

/-- A message with the three encoded characters decoded, from left to right. -/
def decodeMessage : List Char → List Char
  | '%' :: '2' :: '5' :: r => '%' :: decodeMessage r
  | '%' :: '0' :: 'D' :: r => '\r' :: decodeMessage r
  | '%' :: '0' :: 'A' :: r => '\n' :: decodeMessage r
  | c :: r => c :: decodeMessage r
  | [] => []

/-- No replacement touches what another one has written. -/
theorem encodeMessage_eq_flatMap (s : List Char) : encodeMessage s = s.flatMap encodedChar := by
  simp only [encodeMessage, replaceAll, List.flatMap_assoc]
  refine congrArg (fun f => s.flatMap f) (funext fun c => ?_)
  unfold encodedChar
  by_cases h1 : c = '%'
  · subst h1
    rfl
  by_cases h2 : c = '\r'
  · subst h2
    rfl
  simp [h1, h2]

theorem decodeMessage_cons_of_ne {c : Char} (hc : c ≠ '%') (r : List Char) :
    decodeMessage (c :: r) = c :: decodeMessage r := by
  rw [decodeMessage] <;> simp [hc]

theorem decodeMessage_encodedChar (c : Char) (r : List Char) :
    decodeMessage (encodedChar c ++ r) = c :: decodeMessage r := by
  unfold encodedChar
  split
  · rename_i h
    rw [h]
    rfl
  split
  · rename_i h
    rw [h]
    rfl
  split
  · rename_i h
    rw [h]
    rfl
  · rename_i h _ _
    exact decodeMessage_cons_of_ne h r

theorem decodeMessage_encodeMessage (s : List Char) : decodeMessage (encodeMessage s) = s := by
  rw [encodeMessage_eq_flatMap]
  induction s with
  | nil => rfl
  | cons c s ih => rw [List.flatMap_cons, decodeMessage_encodedChar, ih]

/-- A text without the end of a line. -/
def IsOneLine (s : List Char) : Prop := '\n' ∉ s ∧ '\r' ∉ s

theorem isOneLine_append {s t : List Char} : IsOneLine (s ++ t) ↔ IsOneLine s ∧ IsOneLine t := by
  simp only [IsOneLine, List.mem_append, not_or]
  tauto

theorem isOneLine_colons {s : List Char} : IsOneLine (':' :: ':' :: s) ↔ IsOneLine s := by
  simp [IsOneLine]

theorem isOneLine_encodedChar (c : Char) : IsOneLine (encodedChar c) := by
  unfold encodedChar IsOneLine
  split_ifs with h1 h2 h3
  · decide
  · decide
  · decide
  · simp [Ne.symm h2, Ne.symm h3]

theorem isOneLine_encodeMessage (s : List Char) : IsOneLine (encodeMessage s) := by
  rw [encodeMessage_eq_flatMap]
  induction s with
  | nil => exact ⟨List.not_mem_nil, List.not_mem_nil⟩
  | cons c s ih => exact isOneLine_append.mpr ⟨isOneLine_encodedChar c, ih⟩

/-! ### Reading annotations -/

/-- What stands before and after the first mark, two colons side by side. -/
def splitAtMark : List Char → Option (List Char × List Char)
  | ':' :: ':' :: r => some ([], r)
  | c :: r => (splitAtMark r).map fun p => (c :: p.1, p.2)
  | [] => none

theorem mark_isPrefix_iff {c : Char} {s : List Char} :
    [':', ':'] <+: c :: s ↔ c = ':' ∧ s.head? = some ':' := by
  cases s with
  | nil => simp
  | cons d s => simp [eq_comm]

/-- A text with no mark, also not one of its last colon and a colon after it. -/
def FreeOfMark (head : List Char) : Prop :=
  ¬[':', ':'] <:+: head ++ [':']

theorem freeOfMark_cons_iff {c : Char} {head : List Char} (r : List Char) :
    FreeOfMark (c :: head) ↔ ¬[':', ':'] <+: c :: (head ++ ':' :: r) ∧ FreeOfMark head := by
  have hhead : (head ++ [':']).head? = (head ++ ':' :: r).head? := by cases head <;> rfl
  rw [FreeOfMark, List.cons_append, List.infix_cons_iff, not_or, mark_isPrefix_iff,
    mark_isPrefix_iff, hhead]
  rfl

theorem splitAtMark_cons {c : Char} {r : List Char} (h : ¬[':', ':'] <+: c :: r) :
    splitAtMark (c :: r) = (splitAtMark r).map fun p => (c :: p.1, p.2) := by
  rw [splitAtMark]
  rintro s rfl rfl
  exact h ⟨s, rfl⟩

theorem splitAtMark_eq_some_iff {s head r : List Char} :
    splitAtMark s = some (head, r) ↔ s = head ++ ':' :: ':' :: r ∧ FreeOfMark head := by
  constructor
  · intro h
    fun_induction splitAtMark s generalizing head with
    | case1 s =>
      cases h
      exact ⟨rfl, by unfold FreeOfMark; decide⟩
    | case2 c s hc ih =>
      obtain ⟨⟨head, r'⟩, hr, hp⟩ := Option.map_eq_some_iff.mp h
      cases hp
      obtain ⟨rfl, hn⟩ := ih hr
      refine ⟨rfl, (freeOfMark_cons_iff (':' :: r')).mpr ⟨?_, hn⟩⟩
      rintro ⟨s, hs⟩
      obtain ⟨hcolon, hrest⟩ := List.cons.inj hs.symm
      exact hc s hcolon hrest
    | case3 => cases h
  · rintro ⟨rfl, h⟩
    induction head with
    | nil => rfl
    | cons c head ih =>
      obtain ⟨hc, hn⟩ := (freeOfMark_cons_iff (':' :: r)).mp h
      rw [List.cons_append, splitAtMark_cons hc, ih hn]
      rfl

/-- What can be read from an annotation. -/
structure Content where
  /-- How grave the finding is. -/
  severity : Severity
  /-- The file beside which it is shown, if there is one. -/
  file : Option (List Char)
  /-- The message. -/
  message : List Char
  deriving DecidableEq

/-- The severity of a level. -/
def severityOf? (level : List Char) : Option Severity :=
  Severity.all.find? fun s => s.annotationLevel.toList = level

/-- The file that is named after the level, if one is. -/
def fileProperty? : List Char → Option (List Char)
  | ' ' :: 'f' :: 'i' :: 'l' :: 'e' :: '=' :: path => some path
  | _ => none

/-- The level and the file of the head of a command. -/
def readHead (head : List Char) : Option (Severity × Option (List Char)) :=
  (severityOf? (head.takeWhile (· ≠ ' '))).map fun s => (s, fileProperty? (head.dropWhile (· ≠ ' ')))

/-- The content of an annotation: its head ends at the first mark after the one that it begins with, and
its message is the rest, decoded. -/
def read? : List Char → Option Content
  | ':' :: ':' :: r =>
    (splitAtMark r).bind fun (head, message) =>
      (readHead head).map fun (severity, file) => ⟨severity, file, decodeMessage message⟩
  | _ => none

/-- The head of the annotation for a finding. -/
def headOf (f : Finding) : List Char :=
  f.severity.annotationLevel.toList ++ (fileOf f).toList

/-- What the annotation for a finding is to say. -/
def contentOf (f : Finding) : Content where
  severity := f.severity
  file := f.path.map fun p => p.text.toList
  message := (messageOf f).toList

theorem toList_ofFinding (f : Finding) :
    (ofFinding f).toList = ':' :: ':' :: (headOf f ++ ':' :: ':' :: encodeMessage (messageOf f).toList) := by
  simp [ofFinding, headOf, String.toList_append]

theorem toList_fileOf (f : Finding) :
    (fileOf f).toList = f.path.elim [] fun p => " file=".toList ++ p.text.toList := by
  unfold fileOf
  cases f.path <;> simp [String.toList_append]

@[simp] theorem severityOf?_level (s : Severity) : severityOf? s.annotationLevel.toList = some s := by
  cases s <;> decide +kernel

theorem severityOf?_eq_some {level : List Char} {s : Severity} (h : severityOf? level = some s) :
    level = s.annotationLevel.toList :=
  (of_decide_eq_true (List.find?_some (p := fun s : Severity => decide (s.annotationLevel.toList = level)) h)).symm

theorem notMem_level (s : Severity) :
    (∀ c ∈ s.annotationLevel.toList, c ≠ ' ') ∧ ':' ∉ s.annotationLevel.toList ∧
      IsOneLine s.annotationLevel.toList := by
  cases s <;> simp [Severity.annotationLevel, IsOneLine]

theorem readHead_headOf (f : Finding) :
    readHead (headOf f) = some (f.severity, f.path.map fun p => p.text.toList) := by
  have hlevel : ∀ c ∈ f.severity.annotationLevel.toList, decide (c ≠ ' ') = true := fun c hc =>
    decide_eq_true ((notMem_level f.severity).1 c hc)
  rw [readHead, headOf, toList_fileOf, List.takeWhile_append_of_pos hlevel,
    List.dropWhile_append_of_pos hlevel]
  cases f.path with
  | none => simp [fileProperty?]
  | some p => simp [fileProperty?]

theorem eq_of_readHead {head path : List Char} {s : Severity} (h : readHead head = some (s, some path)) :
    head = s.annotationLevel.toList ++ (" file=".toList ++ path) := by
  obtain ⟨s', hs, hp⟩ := Option.map_eq_some_iff.mp h
  obtain ⟨rfl, hfile⟩ := Prod.mk.inj hp
  have hfile : head.dropWhile (· ≠ ' ') = " file=".toList ++ path := by
    unfold fileProperty? at hfile
    split at hfile
    · rename_i hr
      rw [hr, Option.some.inj hfile]
      rfl
    · cases hfile
  rw [← List.takeWhile_append_dropWhile (p := (· ≠ ' ')) (l := head), severityOf?_eq_some hs, hfile]

theorem freeOfMark_append {s : List Char} (h : ':' ∉ s) (t : List Char) :
    FreeOfMark (s ++ t) ↔ FreeOfMark t := by
  induction s with
  | nil => rfl
  | cons c s ih =>
    obtain ⟨hc, hs⟩ := not_or.mp (mt List.mem_cons.mpr h)
    rw [List.cons_append, freeOfMark_cons_iff [], ih hs, mark_isPrefix_iff]
    simp [Ne.symm hc]

theorem freeOfMark_headOf_iff (f : Finding) :
    FreeOfMark (headOf f) ↔ ∀ p ∈ f.path, FreeOfMark p.text.toList := by
  rw [headOf, freeOfMark_append (notMem_level f.severity).2.1, toList_fileOf]
  cases f.path with
  | none =>
    simp only [Option.elim_none, Option.mem_def, reduceCtorEq, false_imp_iff, implies_true, iff_true]
    unfold FreeOfMark
    decide
  | some p =>
    rw [Option.elim_some, freeOfMark_append (by decide)]
    simp

theorem read?_ofFinding_iff (f : Finding) :
    read? (ofFinding f).toList = some (contentOf f) ↔ ∀ p ∈ f.path, FreeOfMark p.text.toList := by
  rw [toList_ofFinding, read?]
  constructor
  · intro h p hp
    obtain ⟨⟨head, message⟩, hsplit, h⟩ := Option.bind_eq_some_iff.mp h
    obtain ⟨⟨s, file⟩, hhead, h⟩ := Option.map_eq_some_iff.mp h
    obtain ⟨rfl, rfl, -⟩ := Content.mk.inj h
    have hends := (splitAtMark_eq_some_iff.mp hsplit).2
    have hpath : f.path = some p := hp
    rw [hpath, Option.map_some] at hhead
    rw [eq_of_readHead hhead, freeOfMark_append (notMem_level f.severity).2.1,
      freeOfMark_append (by decide)] at hends
    exact hends
  · intro h
    rw [splitAtMark_eq_some_iff.mpr ⟨rfl, (freeOfMark_headOf_iff f).mpr h⟩]
    simp [readHead_headOf, decodeMessage_encodeMessage, contentOf]

theorem isOneLine_ofFinding_iff (f : Finding) :
    IsOneLine (ofFinding f).toList ↔ ∀ p ∈ f.path, IsOneLine p.text.toList := by
  have hword : IsOneLine " file=".toList := by unfold IsOneLine; decide
  rw [toList_ofFinding, isOneLine_colons, headOf, toList_fileOf]
  simp only [isOneLine_append, isOneLine_colons, isOneLine_encodeMessage, (notMem_level f.severity).2.2]
  cases f.path with
  | none => simp [IsOneLine]
  | some p =>
    rw [Option.elim_some, isOneLine_append]
    simp only [hword, true_and, and_true, Option.mem_some, forall_eq']

/-- A path that can stand in an annotation as it is. -/
structure Nameable (path : List Char) : Prop where
  oneLine : IsOneLine path
  freeOfMark : FreeOfMark path

/-- Each annotation of a report is made from one finding, in their order. It is one line that gives back the
severity, the path and the message of this finding just when the path can stand in it. -/
theorem readable_iff (r : Report) (max : Nat) :
    List.Forall₂
      (fun f a =>
        IsOneLine a.toList ∧ read? a.toList = some (contentOf f) ↔ ∀ p ∈ f.path, Nameable p.text.toList)
      (r.findings.take max) (r.annotations max) := by
  rw [Report.annotations, List.forall₂_map_right_iff, List.forall₂_same]
  intro f _
  rw [isOneLine_ofFinding_iff, read?_ofFinding_iff]
  exact ⟨fun h p hp => ⟨h.1 p hp, h.2 p hp⟩, fun h => ⟨fun p hp => (h p hp).1, fun p hp => (h p hp).2⟩⟩

/-- An annotation for a path with a line break and two colons. -/
def brokenText : String :=
  "::error file=/a\nb::c::[registry.paths:absolute_path] api_surface_path is absolute: /a%0Ab::c"

/-- The path of a value that is stated may have a line break and two colons. The annotation for it has a
line break, and its head ends inside the path. -/
theorem broken_of_path :
    ∃ out, Check.run ⟨.epoch, .epoch⟩ "" "" { apiSurfacePath := some "/a\nb::c" } none = .ok out ∧
      (out.report.findings.map Finding.path = [some ⟨"/a\nb::c"⟩] ∧
        out.report.annotations 1 = [brokenText]) ∧
      '\n' ∈ brokenText.toList ∧
      read? brokenText.toList =
        some ⟨.error, some "/a\nb".toList,
          "c::[registry.paths:absolute_path] api_surface_path is absolute: /a\nb::c".toList⟩ :=
  ⟨_, Check.run_of_load rfl _ _ _, by decide +kernel, by decide +kernel, by decide +kernel⟩

end SurfaceRegistry.Annotation
