import SurfaceRegistry.Proofs.CommandLine.Reading
import SurfaceRegistry.Proofs.Toml.Keys

/-!
# Values that a command line states

Every command goes by the values that its words state for the options of all commands, and by the defaults of those that
are left out (`goesBy_of_parse`). Words that state such values may stand before the name of any command: they are
read in full, and change nothing else (`exists_parse_of_states`).
-/

namespace SurfaceRegistry.CommandLine

variable {m : Matches} {o : OptionSpec} {words front own : List String} {i : Invocation}

/-- The options of all commands that have values. -/
def sharedOptions : List OptionSpec :=
  [repoRoot, config, apiSurfacePath, nightlyTestsDir, nightlyTestsPackage]

/-! ### What a command goes by -/

/-- What a command goes by is what is stated for the options of all commands. -/
structure GoesBy (i : Invocation) (stated : OptionSpec → Option String) : Prop where
  repoRoot : i.repoRoot = (stated repoRoot).getD "."
  config : i.config = (stated config).getD "surfacereg.toml"
  apiSurfacePath : i.overrides.apiSurfacePath = stated apiSurfacePath
  nightlyTestsDirectoryPath : i.overrides.nightlyTestsDirectoryPath = stated nightlyTestsDir
  nightlyTestsPackage : i.overrides.nightlyTestsPackage = stated nightlyTestsPackage

/-- Every command goes by what its words state. -/
theorem goesBy_of_parse (h : parse words = .ok i) : GoesBy i (given words) := by
  obtain ⟨spec, before, after, command, hsides, -, -, -, rfl⟩ := parse_eq_ok_iff.mp h
  constructor <;> rw [hsides.given_eq] <;> rfl

theorem goesBy_congr {stated stated' : OptionSpec → Option String} (h : GoesBy i stated)
    (hsame : ∀ o ∈ sharedOptions, stated o = stated' o) : GoesBy i stated' where
  repoRoot := hsame repoRoot (by simp [sharedOptions]) ▸ h.repoRoot
  config := hsame config (by simp [sharedOptions]) ▸ h.config
  apiSurfacePath := hsame apiSurfacePath (by simp [sharedOptions]) ▸ h.apiSurfacePath
  nightlyTestsDirectoryPath := hsame nightlyTestsDir (by simp [sharedOptions]) ▸ h.nightlyTestsDirectoryPath
  nightlyTestsPackage := hsame nightlyTestsPackage (by simp [sharedOptions]) ▸ h.nightlyTestsPackage

/-- Only a check can state what it fails on. -/
theorem failOn_of_parse (h : parse words = .ok i) :
    i.overrides.failOn = match i.command with
      | .check _ _ failOn _ => failOn
      | _ => none := by
  obtain ⟨spec, before, after, command, -, -, -, -, rfl⟩ := parse_eq_ok_iff.mp h
  rfl

/-! ### Words that state values -/

/-- Words that state values for options of all commands, each in one word with the name of the option or in the word
after it. -/
inductive States : List (String × String) → List String → Prop where
  /-- No words state no values. -/
  | nil : States [] []
  /-- A name and its value are one word. -/
  | joined {o : OptionSpec} {value : String} {settings : List (String × String)} {words : List String}
    (ho : o ∈ sharedOptions) (h : States settings words) :
    States ((o.long, value) :: settings) (("--" ++ o.long ++ "=" ++ value) :: words)
  /-- The value is a word of its own, which does not look like an option. -/
  | apart {o : OptionSpec} {value : String} {settings : List (String × String)} {words : List String}
    (ho : o ∈ sharedOptions) (hvalue : looksLikeOption value = false) (h : States settings words) :
    States ((o.long, value) :: settings) (("--" ++ o.long) :: value :: words)

/-- An option that is found by its name before the name of a command, and may have any value. -/
structure OptionSpec.Stated (o : OptionSpec) : Prop where
  name : '=' ∉ o.long.toList
  nonempty : o.long.toList ≠ []
  takesValue : o.takesValue = true
  accepts : ∀ value, o.accepts value = true
  find : (Level.program.options.find? fun o' => o'.long == o.long) = some o

theorem stated_of_mem (ho : o ∈ sharedOptions) : o.Stated := by
  simp only [sharedOptions, List.mem_cons, List.not_mem_nil, or_false] at ho
  rcases ho with rfl | rfl | rfl | rfl | rfl
  all_goals exact ⟨by decide, by decide, rfl, fun _ => rfl, rfl⟩

theorem readWords_long {l : Level} {word : String} {body : List Char} (hword : word.toList = '-' :: '-' :: body)
    (hbody : body ≠ []) (rest : List String) :
    readWords l (none, m) (word :: rest) = (longOption l m body).bind fun p => readWords l p rest := by
  obtain ⟨c, r, rfl⟩ := List.exists_cons_of_ne_nil hbody
  rw [readWords, hword]
  rfl

namespace OptionSpec.Stated

/-- A value in the same word is found. -/
theorem readWords_joined (ho : o.Stated) (hnew : m.has o = false) (value : String) (rest : List String) :
    readWords .program (none, m) (("--" ++ o.long ++ "=" ++ value) :: rest) =
      readWords .program (none, { m with options := (o.long, value) :: m.options }) rest := by
  have hword : ("--" ++ o.long ++ "=" ++ value).toList = '-' :: '-' :: (o.long.toList ++ '=' :: value.toList) := by
    simp
  have hadd := Matches.add_eq_ok_iff.mpr ⟨⟨hnew, ho.accepts value⟩, rfl⟩
  rw [readWords_long hword (by simp), longOption, splitEquals_append ho.name]
  simp only [String.ofList_toList, ho.find, ho.takesValue, hadd]
  rfl

/-- A value in the next word is found. -/
theorem readWords_apart (ho : o.Stated) (hnew : m.has o = false) {value : String}
    (hvalue : looksLikeOption value = false) (rest : List String) :
    readWords .program (none, m) (("--" ++ o.long) :: value :: rest) =
      readWords .program (none, { m with options := (o.long, value) :: m.options }) rest := by
  have hword : ("--" ++ o.long).toList = '-' :: '-' :: o.long.toList := by
    simp
  have hadd := Matches.add_eq_ok_iff.mpr ⟨⟨hnew, ho.accepts value⟩, rfl⟩
  rw [readWords_long hword ho.nonempty, longOption, splitEquals_of_notMem ho.name]
  simp only [String.ofList_toList, ho.find, ho.takesValue, hnew]
  show readWords .program (some o, m) (value :: rest) = _
  rw [readWords, hvalue, hadd]
  rfl

end OptionSpec.Stated

/-- Words that state values are read in full. -/
theorem readWords_states {settings : List (String × String)} (h : States settings front)
    (hnodup : ((settings ++ m.options).map Prod.fst).Nodup) (rest : List String) :
    readWords .program (none, m) (front ++ rest) =
      readWords .program (none, { m with options := settings.reverse ++ m.options }) rest := by
  -- The name of a value that has been read is among the options that are found, no longer among the settings.
  have hnext {setting : String × String} {settings : List (String × String)} {m : Matches}
      (h : ((setting :: settings ++ m.options).map Prod.fst).Nodup) :
      ((settings ++ setting :: m.options).map Prod.fst).Nodup :=
    (List.perm_middle.map Prod.fst).nodup_iff.mpr h
  have hnew {o : OptionSpec} {value : String} {settings : List (String × String)} {m : Matches}
      (h : (((o.long, value) :: settings ++ m.options).map Prod.fst).Nodup) : m.has o = false := by
    rw [Bool.eq_false_iff, Ne, Matches.has_eq_true_iff]
    intro hmem
    rw [List.cons_append, List.map_cons, List.nodup_cons, List.map_append] at h
    exact h.1 (List.mem_append_right _ hmem)
  induction h generalizing m with
  | nil => rfl
  | @joined o value settings words ho _ ih =>
    rw [List.cons_append, (stated_of_mem ho).readWords_joined (hnew hnodup), ih (hnext hnodup), List.reverse_cons,
      List.append_assoc]
    rfl
  | @apart o value settings words ho hvalue _ ih =>
    rw [List.cons_append, List.cons_append, (stated_of_mem ho).readWords_apart (hnew hnodup) hvalue,
      ih (hnext hnodup), List.reverse_cons, List.append_assoc]
    rfl

/-- A word that does not look like an option is the operand of a command. -/
theorem readWords_operand {l : Level} {word : String} (hl : (l.command.bind CommandSpec.operand).isSome = true)
    (hword : looksLikeOption word = false) (hnone : m.operands = []) (rest : List String) :
    readWords l (none, m) (word :: rest) = readWords l (none, { m with operands := [word] }) rest := by
  have hcommand : l.command.isSome = true := by
    cases hc : l.command with
    | none => simp [hc] at hl
    | some spec => rfl
  have hadd : addOperand l m word = .ok { m with operands := [word] } := by
    obtain ⟨operand, hoperand⟩ := Option.isSome_iff_exists.mp hl
    simp [addOperand, hoperand, hnone]
  rw [readWords]
  unfold looksLikeOption at hword
  split
  · rename_i h
    simp [h] at hword
  · rename_i h
    simp [h] at hword
  · rename_i h
    simp [h] at hword
  · rw [if_pos hcommand, hadd]
    rfl

/-! ### Values before the name of a command -/

variable {name : String} {settings : List (String × String)}

/-- The name of a command ends the options of the program. -/
theorem readWords_name {spec : CommandSpec} (h : commandNamed? name = some spec) (m : Matches) (own : List String) :
    readWords .program (none, m) (name :: own) = .ok (m, name :: own) := by
  obtain rfl : spec.name = name := by simpa using List.find?_some h
  have hmem := List.mem_of_find?_eq_some h
  simp only [commands, List.mem_cons, List.not_mem_nil, or_false] at hmem
  rcases hmem with rfl | rfl | rfl | rfl | rfl | rfl
  all_goals rfl

/-- What is stated before the name of a command is found there. -/
theorem sides_of_states {spec spec' : CommandSpec} {before after : Matches} (h : States settings front)
    (hnodup : (settings.map Prod.fst).Nodup) (hname : commandNamed? name = some spec')
    (hsides : Sides (name :: own) spec before after) :
    before = {} ∧ Sides (front ++ name :: own) spec { options := settings.reverse } after := by
  obtain ⟨own', left, hbefore, hafter⟩ := hsides.read
  rw [readWords_name hname] at hbefore
  cases hbefore
  refine ⟨rfl, hsides.known, own, left, ?_, hafter⟩
  rw [readWords_states h (by simpa using hnodup), readWords_name hname, List.append_nil]

theorem States.exists_option (h : States settings front) {s : String × String} (hs : s ∈ settings) :
    ∃ o ∈ sharedOptions, o.long = s.1 := by
  induction h with
  | nil => cases hs
  | joined ho _ ih =>
    rcases List.mem_cons.mp hs with rfl | hs
    · exact ⟨_, ho, rfl⟩
    · exact ih hs
  | apart ho _ _ ih =>
    rcases List.mem_cons.mp hs with rfl | hs
    · exact ⟨_, ho, rfl⟩
    · exact ih hs

/-- Values have no part in how long the log is. -/
theorem checkConflict_of_states (h : States settings front) :
    checkConflict { options := settings.reverse } = .ok () := by
  have hquiet : Matches.has { options := settings.reverse } quiet = false := by
    rw [Bool.eq_false_iff, Ne, Matches.has_eq_true_iff]
    intro hmem
    obtain ⟨s, hs, hlong⟩ := List.mem_map.mp hmem
    obtain ⟨o, ho, hname⟩ := h.exists_option (List.mem_reverse.mp hs)
    exact (by decide : ∀ o ∈ sharedOptions, o.long ≠ quiet.long) o ho (hname.trans hlong)
  rw [checkConflict, hquiet]
  rfl

/-- A command line goes on being one, and a command the same, when values are stated before its name. They count where
nothing is stated after it. -/
theorem exists_parse_of_states {spec : CommandSpec} {c : Invocation} (h : States settings front)
    (hnodup : (settings.map Prod.fst).Nodup) (hname : commandNamed? name = some spec)
    (hown : parse (name :: own) = .ok c) :
    ∃ i, parse (front ++ name :: own) = .ok i ∧ i.command = c.command ∧
      ∀ o, given (front ++ name :: own) o = (given (name :: own) o <|> settings.lookup o.long) := by
  obtain ⟨spec', before, after, command, hsides, hcommand, hafter, -, rfl⟩ := parse_eq_ok_iff.mp hown
  obtain ⟨rfl, hsides'⟩ := sides_of_states h hnodup hname hsides
  refine ⟨_, parse_eq_ok_iff.mpr ⟨_, _, _, _, hsides', hcommand, hafter, checkConflict_of_states h, rfl⟩, rfl,
    fun o => ?_⟩
  rw [hsides'.given_eq, hsides.given_eq, Matches.value?, Matches.value?, Matches.value?,
    ← Toml.lookup_perm hnodup (List.reverse_perm settings).symm]
  cases after.options.lookup o.long <;> rfl

end SurfaceRegistry.CommandLine
