import Mathlib.Data.List.Nodup
import Mathlib.Tactic.SplitIfs
import SurfaceRegistry.CommandLine.Parse
import SurfaceRegistry.Failure

/-!
# What is read from a command line

Words are read from the left, and what is read of them grows at one word after another. So each option that is found in
the end is one of its side of the command line, and the words give it its value (`readWords_added`). What the program
is asked to do is made up of what is found before the name of the command and after it (`parse_eq_ok_iff`).
-/

namespace SurfaceRegistry.CommandLine

variable {l : Level} {m m' : Matches} {p : Progress} {o : OptionSpec} {value : String}

/-! ### Matches -/

theorem Matches.add_eq_ok_iff :
    m.add o value = .ok m' ↔
      (m.has o = false ∧ o.accepts value = true) ∧ m' = { m with options := (o.long, value) :: m.options } := by
  unfold Matches.add
  cases m.has o <;> cases o.accepts value <;> simp [eq_comm]

theorem Matches.has_eq_true_iff : m.has o = true ↔ o.long ∈ m.options.map Prod.fst := by
  simp [Matches.has]

theorem Matches.has_eq_isSome_value? (m : Matches) (o : OptionSpec) : m.has o = (m.value? o).isSome := by
  rw [Matches.has, Matches.value?]
  induction m.options with
  | nil => rfl
  | cons e r ih =>
    obtain ⟨k, v⟩ := e
    rw [List.any_cons, List.lookup_cons, ih, BEq.comm]
    cases o.long == k <;> rfl

theorem Matches.mem_options_of_value? (h : m.value? o = some value) : (o.long, value) ∈ m.options := by
  obtain ⟨before, after, hoptions, -⟩ := List.lookup_eq_some_iff.mp h
  rw [hoptions]
  simp

theorem addOperand_options {word : String} (h : addOperand l m word = .ok m') : m'.options = m.options := by
  unfold addOperand at h
  split at h
  · split at h
    · cases h
      rfl
    · cases h
  · cases h

theorem addOperands_options {words : List String} (h : addOperands l m words = .ok m') : m'.options = m.options := by
  induction words generalizing m with
  | nil =>
    cases h
    rfl
  | cons word r ih =>
    obtain ⟨m₁, h₁, h⟩ := exists_of_bind_eq_ok h
    exact (ih h).trans (addOperand_options h₁)

/-! ### One word -/

theorem splitEquals_of_notMem {name : List Char} (h : '=' ∉ name) : splitEquals name = (name, none) := by
  induction name with
  | nil => rfl
  | cons c r ih =>
    rw [List.mem_cons, not_or] at h
    rw [splitEquals, if_neg (Ne.symm h.1), ih h.2]

theorem splitEquals_append {name : List Char} (h : '=' ∉ name) (v : List Char) :
    splitEquals (name ++ '=' :: v) = (name, some v) := by
  induction name with
  | nil => rfl
  | cons c r ih =>
    rw [List.mem_cons, not_or] at h
    rw [List.cons_append, splitEquals, if_neg (Ne.symm h.1), ih h.2]

/-- A name and what follows it make up what was split. -/
theorem eq_of_splitEquals {body name : List Char} {v : Option (List Char)} (h : splitEquals body = (name, v)) :
    body = name ++ v.elim [] (List.cons '=') := by
  induction body generalizing name with
  | nil =>
    cases h
    rfl
  | cons c r ih =>
    rw [splitEquals] at h
    split at h
    · rename_i hc
      cases h
      rw [hc]
      rfl
    · cases hr : splitEquals r with
      | mk tail rest =>
        rw [hr] at h
        cases h
        rw [ih hr]
        rfl

/-- A word gives an option a value. -/
inductive GivenIn (o : OptionSpec) (value word : String) : Prop where
  /-- The word is its name and the value. -/
  | long (htakes : o.takesValue = true) (hword : word = "--" ++ o.long ++ "=" ++ value)
  /-- The word is its name, and it takes no value. -/
  | flag (htakes : o.takesValue = false) (hvalue : value = "") (hword : word = "--" ++ o.long)
  /-- The word has its letter, and the value behind it. -/
  | letter {c : Char} {before : List Char} (htakes : o.takesValue = true) (hshort : o.short = some c)
    (hword : word.toList = '-' :: before ++ c :: value.toList ∨
      word.toList = '-' :: before ++ c :: '=' :: value.toList)
  /-- The word has its letter, and it takes no value. -/
  | letterFlag {c : Char} {before after : List Char} (htakes : o.takesValue = false) (hvalue : value = "")
    (hshort : o.short = some c) (hword : word.toList = '-' :: before ++ c :: after)

/-- A word names an option, whose value is to follow. -/
inductive Names (o : OptionSpec) (word : String) : Prop where
  /-- By its name. -/
  | long (hword : word = "--" ++ o.long)
  /-- By its letter. -/
  | letter {c : Char} {before : List Char} (hshort : o.short = some c) (hword : word.toList = '-' :: before ++ [c])

/-- Words give an option a value: one word does, or one names the option and the next is the value. -/
inductive Gives (words : List String) (o : OptionSpec) (value : String) : Prop where
  /-- One word does. -/
  | one {word : String} (hmem : word ∈ words) (h : GivenIn o value word)
  /-- Two words do. -/
  | two {name : String} (htakes : o.takesValue = true) (hnames : Names o name) (hwords : [name, value] <:+: words)

theorem Gives.cons {words : List String} (h : Gives words o value) (word : String) : Gives (word :: words) o value := by
  cases h with
  | one hmem h => exact .one (.tail word hmem) h
  | two htakes hnames hwords => exact .two htakes hnames (List.infix_cons hwords)

theorem Gives.mono {words words' : List String} (h : Gives words o value) (hwords : words <:+: words') :
    Gives words' o value := by
  cases h with
  | one hmem h => exact .one (hwords.subset hmem) h
  | two htakes hnames h => exact .two htakes hnames (h.trans hwords)

/-- A flag without a letter is set by its name. -/
theorem Gives.mem_of_flag {words : List String} (h : Gives words o value) (htakes : o.takesValue = false)
    (hshort : o.short = none) : "--" ++ o.long ∈ words := by
  cases h with
  | one hmem h =>
    cases h with
    | long h => simp [htakes] at h
    | flag _ _ hword => exact hword ▸ hmem
    | letter h => simp [htakes] at h
    | letterFlag _ _ h => simp [hshort] at h
  | two h => simp [htakes] at h

/-- What a word does: it names the option that waits for a value after it, and gives the options that are new after it
their values. -/
structure StepAt (l : Level) (word : String) (m : Matches) (p : Progress) : Prop where
  pending : ∀ o, p.1 = some o → o ∈ l.options ∧ o.takesValue = true ∧ Names o word
  added : ∀ e ∈ p.2.options, e ∈ m.options ∨ ∃ o ∈ l.options, e.1 = o.long ∧ GivenIn o e.2 word

theorem StepAt.of_named (hmem : o ∈ l.options) (htakes : o.takesValue = true) {word : String} (h : Names o word) :
    StepAt l word m (some o, m) where
  pending o' ho' := by
    cases ho'
    exact ⟨hmem, htakes, h⟩
  added _ he := .inl he

theorem StepAt.of_add (hmem : o ∈ l.options) (hadd : m.add o value = .ok m') {word : String}
    (h : GivenIn o value word) : StepAt l word m (none, m') where
  pending o' ho' := by cases ho'
  added e he := by
    rw [(Matches.add_eq_ok_iff.mp hadd).2] at he
    rcases List.mem_cons.mp he with rfl | he
    · exact .inr ⟨o, hmem, rfl, h⟩
    · exact .inl he

theorem stepAt_longOption {word : String} {body : List Char} (hword : word.toList = '-' :: '-' :: body)
    (h : longOption l m body = .ok p) : StepAt l word m p := by
  cases hs : splitEquals body with
  | mk name v =>
    simp only [longOption, hs] at h
    cases hfind : l.options.find? fun o => o.long == String.ofList name with
    | none =>
      rw [hfind] at h
      simp only at h
      split_ifs at h
    | some o =>
      rw [hfind] at h
      have hmem := List.mem_of_find?_eq_some hfind
      have hname : name = o.long.toList := by
        rw [show o.long = String.ofList name by simpa using List.find?_some hfind, String.toList_ofList]
      have hbody := eq_of_splitEquals hs
      have hlong (value : String) (hv : v = some value.toList) : word = "--" ++ o.long ++ "=" ++ value := by
        rw [← String.toList_inj, hword, hbody, hv, hname]
        simp
      have hbare (hv : v = none) : word = "--" ++ o.long := by
        rw [← String.toList_inj, hword, hbody, hv, hname]
        simp
      simp only at h
      split at h
      · rename_i htakes
        split at h
        · cases h
        · cases h
          exact .of_named hmem htakes (.long (hbare rfl))
      · rename_i v htakes
        obtain ⟨m₁, h₁, rfl⟩ := exists_of_map_eq_ok h
        exact .of_add hmem h₁ (.long htakes (hlong _ (by rw [String.toList_ofList])))
      · rename_i htakes
        obtain ⟨m₁, h₁, rfl⟩ := exists_of_map_eq_ok h
        exact .of_add hmem h₁ (.flag htakes rfl (hbare rfl))
      · cases h

theorem stepAt_shortOptions {word : String} (before : List Char) {letters : List Char}
    (hword : word.toList = '-' :: before ++ letters) (h : shortOptions l m letters = .ok p) : StepAt l word m p := by
  induction letters generalizing m before with
  | nil =>
    cases h
    exact ⟨nofun, fun e he => .inl he⟩
  | cons c r ih =>
    rw [shortOptions] at h
    cases hfind : l.options.find? fun o => o.short == some c with
    | none =>
      rw [hfind] at h
      simp only at h
      split_ifs at h
    | some o =>
      rw [hfind] at h
      have hmem := List.mem_of_find?_eq_some hfind
      have hshort : o.short = some c := by simpa using List.find?_some hfind
      simp only at h
      split at h
      · rename_i htakes
        split at h
        · split at h
          · cases h
          · cases h
            exact .of_named hmem htakes (.letter hshort hword)
        · obtain ⟨m₁, h₁, rfl⟩ := exists_of_map_eq_ok h
          exact .of_add hmem h₁ (.letter htakes hshort (.inr (by rwa [String.toList_ofList])))
        · obtain ⟨m₁, h₁, rfl⟩ := exists_of_map_eq_ok h
          exact .of_add hmem h₁ (.letter htakes hshort (.inl (by rwa [String.toList_ofList])))
      · rename_i htakes
        obtain ⟨m₁, h₁, h⟩ := exists_of_bind_eq_ok h
        have hfirst : StepAt l word m (none, m₁) :=
          .of_add hmem h₁ (.letterFlag (by simpa using htakes) rfl hshort hword)
        have hword' : word.toList = '-' :: (before ++ [c]) ++ r := by simpa using hword
        have hrest := ih (before ++ [c]) hword' h
        refine ⟨hrest.pending, fun e he => ?_⟩
        exact (hrest.added e he).elim (hfirst.added e) .inr

/-! ### All words -/

/-- Where an option that is found comes from: it was found before the words, or the words give it its value. An option
that waits for its value gets the first word. -/
def ComesFrom (l : Level) (p : Progress) (words : List String) (e : String × String) : Prop :=
  e ∈ p.2.options ∨ ∃ o ∈ l.options, e.1 = o.long ∧ (Gives words o e.2 ∨ p.1 = some o ∧ words.head? = some e.2)

/-- Options that come from the words after one word come from this word and the others. -/
theorem ComesFrom.of_stepAt {word : String} {words : List String} {e : String × String} (hstep : StepAt l word m p)
    (h : ComesFrom l p words e) : ComesFrom l (none, m) (word :: words) e := by
  rcases h with he | ⟨o, hmem, hlong, hgives | ⟨hp, hhead⟩⟩
  · exact (hstep.added e he).imp_right fun ⟨o, hmem, hlong, hgiven⟩ =>
      ⟨o, hmem, hlong, .inl (.one List.mem_cons_self hgiven)⟩
  · exact .inr ⟨o, hmem, hlong, .inl (hgives.cons word)⟩
  · obtain ⟨-, htakes, hnames⟩ := hstep.pending o hp
    obtain ⟨r, rfl⟩ := List.head?_eq_some_iff.mp hhead
    exact .inr ⟨o, hmem, hlong, .inl (.two htakes hnames (List.prefix_append [word, e.2] r).isInfix)⟩

/-- Words that give no option a value may go before others. -/
theorem ComesFrom.cons {word : String} {words : List String} {e : String × String}
    (hoptions : m'.options = m.options) (h : ComesFrom l (none, m') words e) :
    ComesFrom l (none, m) (word :: words) e := by
  rcases h with he | ⟨o, hmem, hlong, hgives | ⟨hp, -⟩⟩
  · exact .inl (hoptions ▸ he)
  · exact .inr ⟨o, hmem, hlong, .inl (hgives.cons word)⟩
  · cases hp

/-- All options that are found in the end come from somewhere, and the words that are left end the words. -/
theorem comesFrom_readWords {words left : List String} (h : readWords l p words = .ok (m', left))
    (hpending : ∀ o, p.1 = some o → o ∈ l.options) :
    (∀ e ∈ m'.options, ComesFrom l p words e) ∧ left <:+ words := by
  induction words generalizing p with
  | nil =>
    obtain ⟨pending, m⟩ := p
    cases pending with
    | none =>
      cases h
      exact ⟨fun e he => .inl he, List.suffix_refl _⟩
    | some o => cases h
  | cons word r ih =>
    obtain ⟨pending, m⟩ := p
    cases pending with
    | some o =>
      rw [readWords] at h
      split at h
      · cases h
      · obtain ⟨m₁, h₁, h⟩ := exists_of_bind_eq_ok h
        obtain ⟨hcomes, hleft⟩ := ih h (by simp)
        refine ⟨fun e he => ?_, hleft.trans (List.suffix_cons word r)⟩
        rcases hcomes e he with he | ⟨o', hmem, hlong, hgives | ⟨hp, -⟩⟩
        · rw [(Matches.add_eq_ok_iff.mp h₁).2] at he
          rcases List.mem_cons.mp he with rfl | he
          · exact .inr ⟨o, hpending o rfl, rfl, .inr ⟨rfl, rfl⟩⟩
          · exact .inl he
        · exact .inr ⟨o', hmem, hlong, .inl (hgives.cons word)⟩
        · cases hp
    | none =>
      rw [readWords] at h
      split at h
      · obtain ⟨m₁, h₁, h⟩ := exists_of_map_eq_ok h
        cases h
        exact ⟨fun e he => .inl (addOperands_options h₁ ▸ he), List.nil_suffix⟩
      · rename_i body hword
        obtain ⟨p₁, h₁, h⟩ := exists_of_bind_eq_ok h
        have hstep := stepAt_longOption hword h₁
        obtain ⟨hcomes, hleft⟩ := ih h fun o ho => (hstep.pending o ho).1
        exact ⟨fun e he => (hcomes e he).of_stepAt hstep, hleft.trans (List.suffix_cons word r)⟩
      · rename_i hword
        obtain ⟨p₁, h₁, h⟩ := exists_of_bind_eq_ok h
        have hstep := stepAt_shortOptions [] hword h₁
        obtain ⟨hcomes, hleft⟩ := ih h fun o ho => (hstep.pending o ho).1
        exact ⟨fun e he => (hcomes e he).of_stepAt hstep, hleft.trans (List.suffix_cons word r)⟩
      · split at h
        · obtain ⟨m₁, h₁, h⟩ := exists_of_bind_eq_ok h
          obtain ⟨hcomes, hleft⟩ := ih h (by simp)
          exact ⟨fun e he => (hcomes e he).cons (addOperand_options h₁), hleft.trans (List.suffix_cons word r)⟩
        · cases h
          exact ⟨fun e he => .inl he, List.suffix_refl _⟩

/-- An option that is found is one of its side, and the words give it its value. -/
theorem readWords_added {words left : List String} (h : readWords l (none, {}) words = .ok (m', left))
    (hvalue : m'.value? o = some value) : ∃ o' ∈ l.options, o'.long = o.long ∧ Gives words o' value := by
  have hmem := Matches.mem_options_of_value? hvalue
  rcases (comesFrom_readWords h (by simp)).1 _ hmem with he | ⟨o', hmem, hlong, hgives | ⟨hp, -⟩⟩
  · cases he
  · exact ⟨o', hmem, hlong.symm, hgives⟩
  · cases hp

/-! ### Command lines -/

/-- The two sides of a command line, before the name of a command and after it. -/
structure Sides (words : List String) (spec : CommandSpec) (before after : Matches) : Prop where
  /-- The name of the command is known. -/
  known : commandNamed? spec.name = some spec
  /-- What is read up to this name, and after it. -/
  read : ∃ own left, readWords .program (none, {}) words = .ok (before, spec.name :: own) ∧
    readWords (.ofCommand spec) (none, {}) own = .ok (after, left)

/-- What the program is asked to do is made up of what is found on the two sides. -/
theorem parse_eq_ok_iff {words : List String} {i : Invocation} :
    parse words = .ok i ↔
      ∃ spec before after command, Sides words spec before after ∧ commandOf spec after = .ok command ∧
        checkConflict after = .ok () ∧ checkConflict before = .ok () ∧ i = invocationOf before after command := by
  constructor
  · intro h
    obtain ⟨⟨before, rest⟩, hbefore, h⟩ := exists_of_bind_eq_ok h
    cases rest with
    | nil => cases h
    | cons name own =>
      simp only at h
      split at h
      · cases h
      · split at h
        · cases h
        · rename_i spec hspec
          obtain ⟨⟨after, left⟩, hafter, h⟩ := exists_of_bind_eq_ok h
          obtain ⟨command, hcommand, h⟩ := exists_of_bind_eq_ok h
          obtain ⟨⟨⟩, hconflict, h⟩ := exists_of_bind_eq_ok h
          obtain ⟨⟨⟩, hconflict', h⟩ := exists_of_bind_eq_ok h
          cases h
          obtain rfl : spec.name = name := by simpa using List.find?_some hspec
          exact ⟨spec, before, after, command, ⟨hspec, own, left, hbefore, hafter⟩, hcommand, hconflict, hconflict',
            rfl⟩
  · rintro ⟨spec, before, after, command, ⟨hspec, own, left, hbefore, hafter⟩, hcommand, hconflict, hconflict', rfl⟩
    have hhelp : spec.name ≠ "help" := by
      intro h
      rw [h] at hspec
      cases hspec
    rw [parse, hbefore]
    show (if spec.name = "help" then _ else _) = _
    rw [if_neg hhelp, hspec]
    show (readWords (.ofCommand spec) (none, {}) own >>= _) = _
    rw [hafter]
    show (commandOf spec after >>= _) = _
    rw [hcommand]
    show (checkConflict after >>= _) = _
    rw [hconflict]
    show (checkConflict before >>= _) = _
    rw [hconflict']
    rfl

/-- No two options that may stand after the name of a command have one name. -/
theorem nodup_options : ∀ c ∈ commands, ((c.options ++ globalOptions).map OptionSpec.long).Nodup := by
  decide

theorem Sides.mem_commands {words : List String} {spec : CommandSpec} {before after : Matches}
    (h : Sides words spec before after) : spec ∈ commands := List.mem_of_find?_eq_some h.known

/-- The name of the command of a command line. -/
def commandName? (words : List String) : Option String :=
  match readWords .program (none, {}) words with
  | .ok (_, name :: _) => some name
  | _ => none

/-- The value that a command line has for an option: the one after the name of the command, or else the one before
it. -/
def given (words : List String) (o : OptionSpec) : Option String :=
  match readWords .program (none, {}) words with
  | .ok (before, name :: own) =>
    match (commandNamed? name).map fun spec => readWords (.ofCommand spec) (none, {}) own with
    | some (.ok (after, _)) => after.value? o <|> before.value? o
    | _ => none
  | _ => none

section

variable {words : List String} {spec : CommandSpec} {before after : Matches}

theorem Sides.commandName?_eq (h : Sides words spec before after) : commandName? words = some spec.name := by
  obtain ⟨own, left, hbefore, -⟩ := h.read
  rw [commandName?, hbefore]

theorem Sides.given_eq (h : Sides words spec before after) (o : OptionSpec) :
    given words o = (after.value? o <|> before.value? o) := by
  obtain ⟨own, left, hbefore, hafter⟩ := h.read
  simp only [given, hbefore, h.known, Option.map_some, hafter]

/-- An option of a command has the value that is found after its name. -/
theorem Sides.given_own (h : Sides words spec before after) (ho : o ∈ spec.options) :
    given words o = after.value? o := by
  have hbefore : before.value? o = none := by
    obtain ⟨own, left, hbefore, -⟩ := h.read
    rw [Option.eq_none_iff_forall_ne_some]
    intro value hvalue
    obtain ⟨o', hmem, hlong, -⟩ := readWords_added hbefore hvalue
    have hnodup := nodup_options spec h.mem_commands
    rw [List.map_append, List.nodup_append] at hnodup
    exact hnodup.2.2 o.long (List.mem_map_of_mem ho) o'.long (List.mem_map_of_mem hmem) hlong.symm
  rw [h.given_eq, hbefore]
  cases after.value? o <;> rfl

/-- The words give the value that a command line has for an option. -/
theorem Sides.gives (h : Sides words spec before after) (ho : o ∈ spec.options ++ globalOptions)
    (hvalue : given words o = some value) : Gives words o value := by
  have hunique {o' : OptionSpec} (hmem : o' ∈ spec.options ++ globalOptions) (hlong : o'.long = o.long) : o' = o :=
    List.inj_on_of_nodup_map (nodup_options spec h.mem_commands) hmem ho hlong
  obtain ⟨own, left, hbefore, hafter⟩ := h.read
  rw [h.given_eq] at hvalue
  cases ha : after.value? o with
  | some v =>
    rw [ha] at hvalue
    cases hvalue
    obtain ⟨o', hmem, hlong, hgives⟩ := readWords_added hafter ha
    have hown : own <:+ words := (List.suffix_cons spec.name own).trans (comesFrom_readWords hbefore (by simp)).2
    exact hunique hmem hlong ▸ hgives.mono hown.isInfix
  | none =>
    rw [ha] at hvalue
    obtain ⟨o', hmem, hlong, hgives⟩ := readWords_added hbefore hvalue
    exact hunique (List.mem_append_right _ hmem) hlong ▸ hgives

end

end SurfaceRegistry.CommandLine
