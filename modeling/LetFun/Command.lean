/-!
# Commands

What users can ask for on the command line: the commands, the switches that they take, and what a
command line with them means.
-/

namespace LetFun

inductive Command where
  | tokens
  | parse
deriving DecidableEq, Repr

namespace Command

def all : List Command := [.tokens, .parse]

def name : Command → String
  | .tokens => "tokens"
  | .parse => "parse"

def ofName? (word : String) : Option Command :=
  all.find? (·.name = word)

theorem ofName?_name (c : Command) : ofName? c.name = some c := by
  cases c <;> decide

end Command

inductive Switch where
  | help
  | strict
  | config
  | indent
  | compact
  | output
deriving DecidableEq, Repr

namespace Switch

def spellings : Switch → List String
  | .help => ["-h", "--help"]
  | .strict => ["--strict"]
  | .config => ["--config"]
  | .indent => ["--indent"]
  | .compact => ["--compact"]
  | .output => ["--output", "-o"]

def takesValue : Switch → Bool
  | .config | .indent | .output => true
  | .help | .strict | .compact => false

def available : Option Command → List Switch
  | none => [.help]
  | some .tokens => [.help, .strict, .config]
  | some .parse => [.help, .strict, .config, .indent, .compact, .output]

end Switch

structure Options where
  strict : Bool := false
  config : Option String := none
  indent : Option Nat := none
  compact : Bool := false
  output : Option String := none
deriving DecidableEq, Repr

/-- What a command line asks for: help on a command or on all of them, or to run a command. -/
inductive Request where
  | help (topic : Option Command)
  | run (command : Command) (file : String) (options : Options)
deriving DecidableEq, Repr

end LetFun
