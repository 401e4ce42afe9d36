import SurfaceRegistry.CommandLine.Options
import SurfaceRegistry.Config
import SurfaceRegistry.Log

/-!
# Reading the command line

The words of a command line are read from the left: options of all commands, the name of a command, its
options and operands. A value follows its option as the next word or after an equals sign; a word with a
hyphen in front is never the value of the option before it. Options of all commands may stand on both
sides of the command, and the ones after it count. The first word that does not fit ends the reading, as
does a request for help.
-/

namespace SurfaceRegistry.CommandLine

/-- Why words are not a command line. -/
inductive UsageError where
  /-- There is no such option. -/
  | unknownOption (word : String)
  /-- There is no place for a word. -/
  | unexpectedOperand (word : String)
  /-- There is no such command. -/
  | unknownCommand (word : String)
  /-- An option needs a value. -/
  | missingValue (long : String)
  /-- An option takes no value. -/
  | unexpectedValue (long : String)
  /-- A text cannot be the value of an option. -/
  | invalidValue (long value : String)
  /-- An option is there twice. -/
  | repeatedOption (long : String)
  /-- Two options exclude each other. -/
  | conflict (first second : String)
  /-- There is no command. -/
  | missingCommand
  /-- There is no operand. -/
  | missingOperand (name : String)
  deriving DecidableEq

namespace UsageError

/-- The error in words. -/
def message : UsageError → String
  | unknownOption word => "unexpected argument '" ++ word ++ "' found"
  | unexpectedOperand word => "unexpected argument '" ++ word ++ "' found"
  | unknownCommand word => "unrecognized subcommand '" ++ word ++ "'"
  | missingValue long => "a value is required for '--" ++ long ++ "' but none was supplied"
  | unexpectedValue long => "unexpected value for '--" ++ long ++ "' found"
  | invalidValue long value => "invalid value '" ++ value ++ "' for '--" ++ long ++ "'"
  | repeatedOption long => "the argument '--" ++ long ++ "' cannot be used multiple times"
  | conflict first second =>
    "the argument '--" ++ first ++ "' cannot be used with '--" ++ second ++ "'"
  | missingCommand => "a subcommand is required but one was not provided"
  | missingOperand name => "the required argument <" ++ name ++ "> was not provided"

end UsageError

/-- What ends the reading early. -/
inductive Stop where
  /-- The words are not a command line. -/
  | usage (e : UsageError)
  /-- Help is asked for, for the program or one of its commands. -/
  | help (command : Option CommandSpec)
  /-- The version is asked for. -/
  | version

/-- What is found, unless the reading ends early. -/
abbrev Found (α : Type) := Except Stop α

/-- What can stand on one side of the name of a command. -/
structure Level where
  /-- The options. -/
  options : List OptionSpec
  /-- The command whose side it is, or none before the name of a command. -/
  command : Option CommandSpec

/-- The side before the name of a command. -/
def Level.program : Level :=
  ⟨globalOptions, none⟩

/-- The side after the name of a command. -/
def Level.ofCommand (c : CommandSpec) : Level :=
  ⟨c.options ++ globalOptions, some c⟩

/-- The options and operands found on one side. -/
structure Matches where
  /-- The names of options with their values, the last found first. -/
  options : List (String × String) := []
  /-- The operands. -/
  operands : List String := []

namespace Matches

/-- Whether an option is found. -/
def has (m : Matches) (o : OptionSpec) : Bool :=
  m.options.any fun p => p.1 == o.long

/-- The value that is found for an option. -/
def value? (m : Matches) (o : OptionSpec) : Option String :=
  m.options.lookup o.long

/-- One more option with its value. -/
def add (m : Matches) (o : OptionSpec) (value : String) : Found Matches :=
  if m.has o then .error (.usage (.repeatedOption o.long))
  else if !o.accepts value then .error (.usage (.invalidValue o.long value))
  else .ok { m with options := (o.long, value) :: m.options }

end Matches

/-! ### Words -/

/-- An option that waits for its value, if there is one, and what is found up to there. -/
abbrev Progress := Option OptionSpec × Matches

/-- Whether a word cannot be the value of the option before it. -/
def looksLikeOption (word : String) : Bool :=
  match word.toList with
  | '-' :: _ :: _ => true
  | _ => false

/-- A name and what follows an equals sign after it. -/
def splitEquals : List Char → List Char × Option (List Char)
  | [] => ([], none)
  | c :: r =>
    if c = '=' then ([], some r)
    else
      let (name, value) := splitEquals r
      (c :: name, value)

/-- The step at a word with two hyphens in front, which are left out. -/
def longOption (l : Level) (m : Matches) (body : List Char) : Found Progress :=
  let (name, value) := splitEquals body
  let name := String.ofList name
  match l.options.find? fun o => o.long == name with
  | some o =>
    match o.takesValue, value with
    | true, none => if m.has o then .error (.usage (.repeatedOption o.long)) else .ok (some o, m)
    | true, some v => (m.add o (String.ofList v)).map fun m => (none, m)
    | false, none => (m.add o "").map fun m => (none, m)
    | false, some _ => .error (.usage (.unexpectedValue o.long))
  | none =>
    if name = "help" then
      .error (if value.isSome then .usage (.unexpectedValue name) else .help l.command)
    else if name = "version" && l.command.isNone then
      .error (if value.isSome then .usage (.unexpectedValue name) else .version)
    else .error (.usage (.unknownOption ("--" ++ name)))

/-- The steps at the letters of a word with one hyphen in front, which is left out. -/
def shortOptions (l : Level) : Matches → List Char → Found Progress
  | m, [] => .ok (none, m)
  | m, c :: r =>
    match l.options.find? fun o => o.short == some c with
    | some o =>
      if o.takesValue then
        match r with
        | [] => if m.has o then .error (.usage (.repeatedOption o.long)) else .ok (some o, m)
        | '=' :: v => (m.add o (String.ofList v)).map fun m => (none, m)
        | v => (m.add o (String.ofList v)).map fun m => (none, m)
      else (m.add o "").bind fun m => shortOptions l m r
    | none =>
      if c = 'h' then .error (.help l.command)
      else if c = 'V' && l.command.isNone then .error .version
      else .error (.usage (.unknownOption (String.ofList ['-', c])))

/-- One more operand. -/
def addOperand (l : Level) (m : Matches) (word : String) : Found Matches :=
  match l.command.bind CommandSpec.operand with
  | some _ =>
    if m.operands.isEmpty then .ok { m with operands := [word] }
    else .error (.usage (.unexpectedOperand word))
  | none => .error (.usage (.unexpectedOperand word))

/-- One operand after another. -/
def addOperands (l : Level) : Matches → List String → Found Matches
  | m, [] => .ok m
  | m, word :: r => (addOperand l m word).bind fun m => addOperands l m r

/-- What is found on one side, up to a word that is no option before the name of a command: that word
and all words after it. -/
def readWords (l : Level) : Progress → List String → Found (Matches × List String)
  | (none, m), [] => .ok (m, [])
  | (some o, _), [] => .error (.usage (.missingValue o.long))
  | (some o, m), word :: r =>
    if looksLikeOption word then .error (.usage (.missingValue o.long))
    else (m.add o word).bind fun m => readWords l (none, m) r
  | (none, m), word :: r =>
    match word.toList with
    | ['-', '-'] => (addOperands l m r).map fun m => (m, [])
    | '-' :: '-' :: body => (longOption l m body).bind fun p => readWords l p r
    | '-' :: c :: cs => (shortOptions l m (c :: cs)).bind fun p => readWords l p r
    | _ =>
      if l.command.isSome then (addOperand l m word).bind fun m => readWords l (none, m) r
      else .ok (m, word :: r)

/-- Excludes that the log is asked to be longer and shorter at once. -/
def checkConflict (m : Matches) : Found Unit :=
  if m.has quiet && m.has verbose then .error (.usage (.conflict quiet.long verbose.long)) else .ok ()

/-! ### Invocations -/

/-- What the program is asked to do. -/
inductive Command where
  /-- To show the registry in force. -/
  | showRegistry (format : String)
  /-- To check it. -/
  | check (reportOut : String) (probe : Bool) (failOn : Option String) (markdownOut : Option String)
  /-- To tell whether a type name is ignored. -/
  | ignored (name : String)
  /-- To write a stored report as Markdown. -/
  | md (report : String) (output : Option String)
  /-- To write a stored report as annotations. -/
  | annotations (report : String) (max : Nat)
  /-- To show the schema of configurations. -/
  | schema

/-- A command with the options of all commands. -/
structure Invocation where
  /-- The root of the repository. -/
  repoRoot : String
  /-- The configuration file. -/
  config : String
  /-- What is stated on top of the configuration. -/
  overrides : Overrides
  /-- Which log entries are kept. -/
  logLevel : LogLevel
  /-- The command. -/
  command : Command

/-- The value of an option, or the one that it has when it is left out. -/
def valueOr (m : Matches) (o : OptionSpec) : String :=
  (m.value? o).getD (o.default.getD "")

/-- The command that a name and what is found after it make up. -/
def commandOf (spec : CommandSpec) (m : Matches) : Found Command :=
  match spec.name with
  | "show" => .ok (.showRegistry (valueOr m format))
  | "check" =>
    .ok (.check (valueOr m reportOut) (!m.has noProbe) (m.value? failOn)
      (if m.has writeMarkdown then some (valueOr m markdownOut) else none))
  | "ignored" =>
    match m.operands with
    | [] => .error (.usage (.missingOperand "TYPE_NAME"))
    | name :: _ => .ok (.ignored name)
  | "md" => .ok (.md (valueOr m report) (m.value? output))
  | "annotations" => .ok (.annotations (valueOr m report) ((parseMax? (valueOr m max)).getD 0))
  | _ => .ok .schema

/-- A command with what is found before its name and after it. The latter counts where both tell. -/
def invocationOf (before after : Matches) (command : Command) : Invocation :=
  let value? := fun o => after.value? o <|> before.value? o
  let has := fun o => after.has o || before.has o
  { repoRoot := (value? repoRoot).getD (repoRoot.default.getD "")
    config := (value? config).getD (config.default.getD "")
    overrides :=
      { apiSurfacePath := value? apiSurfacePath
        nightlyTestsDirectoryPath := value? nightlyTestsDir
        nightlyTestsPackage := value? nightlyTestsPackage
        failOn := match command with
          | .check _ _ failOn _ => failOn
          | _ => none }
    logLevel := if has quiet then .error else if has verbose then .debug else .warn
    command }

/-- The command with a name. -/
def commandNamed? (name : String) : Option CommandSpec :=
  commands.find? fun c => c.name == name

/-- The request that the words after `help` make. -/
def helpRequest : List String → Stop
  | [] => .help none
  | ["help"] => .help none
  | [name] =>
    match commandNamed? name with
    | some c => .help (some c)
    | none => .usage (.unknownCommand name)
  | name :: word :: _ =>
    if (commandNamed? name).isSome || name == "help" then .usage (.unknownCommand word)
    else .usage (.unknownCommand name)

/-- What the program is asked to do by the words of a command line. -/
def parse (words : List String) : Found Invocation := do
  let (before, rest) ← readWords .program (none, {}) words
  match rest with
  | [] => .error (.usage .missingCommand)
  | name :: words =>
    if name = "help" then .error (helpRequest words)
    else
      match commandNamed? name with
      | none => .error (.usage (.unknownCommand name))
      | some spec =>
        let (after, _) ← readWords (.ofCommand spec) (none, {}) words
        let command ← commandOf spec after
        checkConflict after
        checkConflict before
        pure (invocationOf before after command)

end SurfaceRegistry.CommandLine
