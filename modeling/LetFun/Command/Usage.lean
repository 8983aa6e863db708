import LetFun.Command
import LetFun.Text.Quoted
/-!
# Usage

The texts that explain the command line, and the messages about command lines without a meaning.
-/

namespace LetFun

def programName : String := "letparse"

def usage : Option Command → String
  | none =>
    "usage: letparse [-h] COMMAND ...\n"
  | some .tokens =>
    "usage: letparse tokens [-h] [--strict] [--config CONFIG] file\n"
  | some .parse =>
    "usage: letparse parse [-h] [--strict] [--config CONFIG] [--indent INDENT]\n" ++
    "                      [--compact] [--output OUTPUT]\n" ++
    "                      file\n"

def description : Option Command → String
  | none =>
    "LetParse: scanner and parser for let/function declarations\n" ++
    "\n" ++
    "positional arguments:\n" ++
    "  COMMAND\n" ++
    "    tokens    Print the token stream of a source file\n" ++
    "    parse     Print the syntax tree of a source file as JSON\n" ++
    "\n" ++
    "options:\n" ++
    "  -h, --help  show this help message and exit\n"
  | some .tokens =>
    "Scan a source file and print one token per line.\n" ++
    "\n" ++
    "positional arguments:\n" ++
    "  file             Source file to read\n" ++
    "\n" ++
    "options:\n" ++
    "  -h, --help       show this help message and exit\n" ++
    "  --strict         Fail on characters the scanner does not recognize\n" ++
    "  --config CONFIG  Path to a config file (default: .letparse.yaml next to\n" ++
    "                   FILE)\n"
  | some .parse =>
    "Parse a source file and emit the syntax tree as a JSON artifact.\n" ++
    "\n" ++
    "positional arguments:\n" ++
    "  file                  Source file to read\n" ++
    "\n" ++
    "options:\n" ++
    "  -h, --help            show this help message and exit\n" ++
    "  --strict              Fail on characters the scanner does not recognize\n" ++
    "  --config CONFIG       Path to a config file (default: .letparse.yaml next to\n" ++
    "                        FILE)\n" ++
    "  --indent INDENT       JSON indentation width (default: from config,\n" ++
    "                        otherwise 2)\n" ++
    "  --compact             Emit compact JSON without indentation\n" ++
    "  --output OUTPUT, -o OUTPUT\n" ++
    "                        Write the artifact to this path instead of standard\n" ++
    "                        output\n"

def helpText (topic : Option Command) : String :=
  usage topic ++ "\n" ++ description topic

inductive UsageProblem where
  | unknownCommand (name : String)
  | ambiguous (given : String) (candidates : List String)
  | ignoredValue (s : Switch) (value : String)
  | noValue (s : Switch)
  | notInteger (text : String)
  | negative (value : Int)
  | noFile
  | unrecognized (arguments : List String)
deriving DecidableEq, Repr

def aboutArgument (name text : String) : String :=
  "argument " ++ name ++ ": " ++ text

def Switch.title (s : Switch) : String :=
  "/".intercalate s.spellings

def UsageProblem.message : UsageProblem → String
  | .unknownCommand name =>
    let choices := ", ".intercalate (Command.all.map fun c => quote c.name)
    aboutArgument "COMMAND" ("invalid choice: " ++ quote name ++ s!" (choose from {choices})")
  | .ambiguous given candidates =>
    s!"ambiguous option: {given} could match " ++ ", ".intercalate candidates
  | .ignoredValue s value => aboutArgument s.title ("ignored explicit argument " ++ quote value)
  | .noValue s => aboutArgument s.title "expected one argument"
  | .notInteger text => aboutArgument Switch.indent.title ("invalid integer: " ++ quote text)
  | .negative value => aboutArgument Switch.indent.title s!"must be non-negative, got {value}"
  | .noFile => "the following arguments are required: file"
  | .unrecognized arguments => "unrecognized arguments: " ++ " ".intercalate arguments

/-- A command line without a meaning, read up to a command or as the arguments of one. -/
structure UsageError where
  command : Option Command
  problem : UsageProblem
deriving DecidableEq, Repr

def UsageError.text (e : UsageError) : String :=
  let title := " ".intercalate (programName :: e.command.toList.map Command.name)
  usage e.command ++ s!"{title}: error: {e.problem.message}\n"

end LetFun
