import SurfaceRegistry.CommandLine.Parse

/-!
# Help

The text that explains the program or one of its commands: what it is for, how it is called, its
operands, commands and options in columns.
-/

namespace SurfaceRegistry.CommandLine

/-- The version that the program reports. -/
def versionText : String :=
  programName ++ " " ++ ToolMeta.current.version ++ "\n"

/-- The option that asks for help. -/
def helpOption : OptionSpec where
  long := "help"
  short := some 'h'
  help := "Print help"

/-- The option that asks for the version. -/
def versionOption : OptionSpec where
  long := "version"
  short := some 'V'
  help := "Print version"

/-- The names of an option, those with a letter and those without in line. -/
def OptionSpec.names (o : OptionSpec) : String :=
  (match o.short with
    | some c => String.ofList ['-', c, ',', ' ']
    | none => "    ") ++
  "--" ++ o.long ++
  (match o.value with
    | some v => " <" ++ v ++ ">"
    | none => "")

/-- What an option is for, and the value that it has when it is left out. -/
def OptionSpec.explanation (o : OptionSpec) : String :=
  o.help ++
  (match o.default with
    | some d => " [default: " ++ d ++ "]"
    | none => "")

/-- A text with spaces after it up to a width. -/
def padRight (width : Nat) (s : String) : String :=
  s ++ String.ofList (List.replicate (width - s.length) ' ')

/-- Rows of two columns under a title. -/
def table (title : String) (rows : List (String × String)) : String :=
  let width := (rows.map fun r => r.1.length).foldl Nat.max 0
  "\n" ++ title ++ ":\n" ++
    String.join (rows.map fun r => "  " ++ padRight width r.1 ++ "  " ++ r.2 ++ "\n")

/-- Options as a table. -/
def optionTable (options : List OptionSpec) : String :=
  table "Options" (options.map fun o => (o.names, o.explanation))

/-- The help for the program. -/
def programHelp : String :=
  programAbout ++ "\n\nUsage: " ++ programName ++ " [OPTIONS] <COMMAND>\n" ++
    table "Commands"
      ((commands.map fun c => (c.name, c.about)) ++
        [("help", "Print this message or the help of the given subcommand(s)")]) ++
    optionTable (globalOptions ++ [helpOption, versionOption])

/-- The help for a command. -/
def commandHelp (c : CommandSpec) : String :=
  c.about ++ "\n\nUsage: " ++ programName ++ " " ++ c.name ++ " [OPTIONS]" ++
    (match c.operand with
      | some (name, about) => " <" ++ name ++ ">\n" ++ table "Arguments" [("<" ++ name ++ ">", about)]
      | none => "\n") ++
    optionTable (c.options ++ globalOptions ++ [helpOption])

/-- The help that is asked for. -/
def helpText : Option CommandSpec → String
  | none => programHelp
  | some c => commandHelp c

end SurfaceRegistry.CommandLine
