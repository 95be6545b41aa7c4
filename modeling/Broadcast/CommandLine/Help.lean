import Broadcast.CommandLine.Options
import Broadcast.Text.Terminal

/-!
# Help for the command line

What is printed when help is asked for, and when a command line is refused. Words that are typed as
they stand are written in bold. Unless colours are wanted, only what a terminal would show of the
help is printed.
-/

namespace Broadcast.CommandLine

/-- How the program is called, behind its name. -/
def callingPattern : String := "[OPTIONS]"

/-- The name of the program. -/
def programName : String := "bc-dev"

/-- How the program is called. -/
def usageLine : String := s!"Usage: {programName} {callingPattern}"

/-- A text in bold. -/
def bold (text : String) : String := s!"\x1b[1m{text}\x1b[0m"

/-- A text in bold and underlined. -/
def heading (text : String) : String := s!"\x1b[1m\x1b[4m{text}\x1b[0m"

/-- The space in front of the explanation of an option. -/
def explanationIndent : String := "          "

/-- The name of an option in capitals, as it stands for its value. -/
def OptionName.placeholder (name : OptionName) : String :=
  String.ofList (name.label.toList.map fun c => if c = '-' then '_' else c.toUpper)

/-- What is said about an option: what it is for, its variable with the value that it has, and its
default. -/
def OptionName.explanation (env : Environment) (name : OptionName) : String :=
  let source := match name.envName? with
    | some v => s!" [env: {v}=" ++ (env v).getD "" ++ "]"
    | none => ""
  let standard := match name.default? with
    | some "" => " [default: \"\"]"
    | some d => s!" [default: {d}]"
    | none => ""
  name.purpose ++ source ++ standard

/-- The lines of help on an option. Each line of the explanation is indented. -/
def OptionName.help (env : Environment) (name : OptionName) : List String :=
  let value := if name.isFlag then "" else s!" <{name.placeholder}>"
  let label := bold s!"--{name.label}"
  s!"      {label}{value}" ::
    ((name.explanation env).splitOn "\n").map (explanationIndent ++ ·)

/-- All of the help, with bold words. -/
def styledHelp (env : Environment) : String :=
  String.join ((["Run a broadcast against in-memory recipients and a simulated provider", "",
    heading "Usage:" ++ " " ++ bold programName ++ " " ++ callingPattern, "",
    heading "Options:"] ++ OptionName.all.flatMap (OptionName.help env) ++
    ["  " ++ bold "-h" ++ ", " ++ bold "--help", explanationIndent ++ "Print help"]).map
      (· ++ "\n"))

/-- Colours are wanted even where no terminal shows them. -/
def wantsColours (env : Environment) : Bool :=
  (env "NO_COLOR").getD "" = "" && (env "CLICOLOR_FORCE").getD "" ≠ ""

/-- The variables that say whether colours are wanted. -/
def colourNames : List String := ["NO_COLOR", "CLICOLOR_FORCE"]

/-- All of the help, as it is printed. -/
def help (env : Environment) : String :=
  let text := styledHelp env
  if wantsColours env then text else String.ofList (Text.Terminal.shown .ground text.toList)

/-- What is said of a command line that is refused. -/
def refusalText : String :=
  s!"error: the command line is not understood\n\n{usageLine}\n\n" ++
  "For more information, try '--help'.\n"

end Broadcast.CommandLine
