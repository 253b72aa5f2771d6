import RevisedSimplex.Decimal.Notation
/-!
The commands of the command line, their options, and their help.

The program takes one of three commands, `solve`, `parse` and `check`, each with one file and
its own options; `help` prints help. An option has a long name, may have a one-letter short
name, may take a value of a kind (a path, a number or any text) with a placeholder, may have a
default, and may exclude other options. The help of a command lists its file and options in
aligned columns, each option with its default.

Main definitions: `Flag`, `Command`, `Verb`, `Command.helpText`, `topHelp`.
-/

namespace RevisedSimplex.Cli

def programName : String := "revsimplex"

/-- What the value of an option must be. -/
inductive ValueKind where
  /-- a path: any text but the empty one -/
  | path
  /-- a decimal number -/
  | number
  /-- any text -/
  | text
  deriving DecidableEq, Repr

/-- An option of a command. -/
structure Flag where
  long : String
  short : Option Char
  /-- the placeholder of the option's value, for an option that takes one -/
  value : Option String
  kind : ValueKind
  help : String
  /-- the value used when the option is not given, as the help shows it -/
  default : Option String
  /-- the long names of the options this one excludes -/
  excludes : List String
  deriving DecidableEq, Repr

def Flag.takesValue (f : Flag) : Bool := f.value.isSome

def Flag.text (f : Flag) : String :=
  "--" ++ f.long ++ match f.value with
    | some v => " <" ++ v ++ ">"
    | none => ""

def helpFlag : Flag := ⟨"help", some 'h', none, .text, "Print help", none, []⟩

/-- A command of the program. -/
structure Command where
  name : String
  about : String
  /-- the options, in the order the help lists them, without `--help` -/
  flags : List Flag
  /-- what the file argument is -/
  fileHelp : String

def Command.allFlags (c : Command) : List Flag := c.flags ++ [helpFlag]

def defaultTolerance : Float := 1e-12

def solveCommand : Command where
  name := "solve"
  about := "Solve an input file and print the result"
  flags := [
    ⟨"log", none, some "LOG", .path, "Log file (defaults to <name>_output.log next to the input)",
      none, []⟩,
    ⟨"no-log", none, none, .text, "Do not write a log file", none, ["log"]⟩,
    ⟨"verbose", some 'v', none, .text, "Also log per-row ratio test details", none, []⟩,
    ⟨"tolerance", none, some "TOLERANCE", .number, "Reduced cost tolerance for entering columns",
      some (Decimal.plain.render defaultTolerance), []⟩,
    ⟨"format", some 'f', some "FORMAT", .text, "Output format (pretty, json)", some "pretty", []⟩,
    ⟨"compare", some 'c', none, .text, "Cross-check the result against the reference tableau solver",
      none, []⟩,
    ⟨"detail", some 'd', none, .text, "Print the solution vector and reduced costs", none, []⟩]
  fileHelp :=
    "Input file; `.txt` is appended when the name has no extension and does not exist"

def parseCommand : Command where
  name := "parse"
  about := "Parse an input file and output its assignments"
  flags := [⟨"format", some 'f', some "FORMAT", .text, "Output format (json, pretty)", some "pretty", []⟩]
  fileHelp := "The file to parse"

def checkCommand : Command where
  name := "check"
  about := "Check an input file for errors"
  flags := []
  fileHelp := "The file to check"

/-- The commands of the program. -/
inductive Verb where
  | solve
  | parse
  | check
  deriving DecidableEq, Repr

def Verb.command : Verb → Command
  | .solve => solveCommand
  | .parse => parseCommand
  | .check => checkCommand

def Verb.all : List Verb := [.solve, .parse, .check]

def Verb.ofName? (name : String) : Option Verb := Verb.all.find? (·.command.name = name)

def helpAbout : String := "Print this message or the help of the given subcommand(s)"

def commandNames : List String := Verb.all.map (·.command.name) ++ ["help"]

/-! ## Help texts -/

def padRight (width : Nat) (s : String) : String :=
  s ++ String.ofList (List.replicate (width - s.length) ' ')

def table (rows : List (String × String)) : String :=
  let width := rows.foldl (fun w r => max w r.1.length) 0
  String.join (rows.map fun (name, text) => "  " ++ padRight width name ++ "  " ++ text ++ "\n")

def Flag.spec (f : Flag) : String :=
  (match f.short with
    | some c => "-" ++ c.toString ++ ", "
    | none => "    ") ++ f.text

def Flag.description (f : Flag) : String :=
  f.help ++ match f.default with
    | some d => " [default: " ++ d ++ "]"
    | none => ""

def Command.usage (c : Command) : String :=
  programName ++ " " ++ c.name ++ (if c.flags.isEmpty then "" else " [OPTIONS]") ++ " <FILE>"

def Command.helpText (c : Command) : String :=
  c.about ++ "\n\nUsage: " ++ c.usage ++ "\n\nArguments:\n" ++ table [("<FILE>", c.fileHelp)] ++
    "\nOptions:\n" ++ table (c.allFlags.map fun f => (f.spec, f.description))

def topUsage : String := programName ++ " <COMMAND>"

def topHelp : String :=
  "Revised simplex solver for standard-form linear programs\n\nUsage: " ++ topUsage ++
    "\n\nCommands:\n" ++
    table (Verb.all.map (fun v => (v.command.name, v.command.about)) ++ [("help", helpAbout)]) ++
    "\nOptions:\n" ++ table [(helpFlag.spec, helpFlag.description)]

def helpUsage : String := programName ++ " help [COMMAND]..."

def helpHelp : String :=
  helpAbout ++ "\n\nUsage: " ++ helpUsage ++ "\n\nArguments:\n" ++
    table [("[COMMAND]...", "Print help for the subcommand(s)")]

end RevisedSimplex.Cli
