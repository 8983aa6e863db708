import LetFun.Artifact.Store
import LetFun.Command.Arguments
import LetFun.Config.Load
import LetFun.Source
/-!
# Running commands

What the program does for a command line. It checks in this order: that the file is there, that its
settings are in order, that it can be read, its characters, its syntax, and last the output.
-/

namespace LetFun.Command

/-! ## Outcomes -/

/-- What ends the program without an exit code: a problem that it has no message for. -/
inductive Failure where
  | file (error : FileError)
  | config (error : Config.LoadError)
  | program (error : Artifact.WriteError)
deriving DecidableEq, Repr

def Failure.message : Failure → String
  | .file e => e.message
  | .config e => e.message.printed
  | .program e => e.message

inductive Ending where
  | exit (code : Nat)
  | failure (cause : Failure)
deriving DecidableEq, Repr

structure Outcome where
  output : String := ""
  errors : String := ""
  ending : Ending
deriving DecidableEq, Repr

namespace Outcome

def succeed (output : String) : Outcome :=
  ⟨output, "", .exit 0⟩

def refuse (message : String) : Outcome :=
  ⟨"", "Error: " ++ message ++ "\n", .exit 1⟩

def fail (cause : Failure) : Outcome :=
  ⟨"", "", .failure cause⟩

end Outcome

variable {m : Type → Type} [Monad m] [FileAccess m]

/-! ## Inputs -/

def ofConfigError (e : Config.LoadError) : Outcome :=
  if e.isConfigError then .refuse e.message.printed else .fail (.config e)

def loadConfig [CallStack] (file : Path) (named : Option String) : ExceptT Outcome m Config := do
  let path? ← match named with
    | some s => pure (some (Path.ofString s))
    | none => (do
        let place ← FileAccess.absolute file
        Config.find place.parent : ExceptT FileError m _).adapt fun e => .fail (.file e)
  match path? with
  | some path => (Config.load path : ExceptT Config.LoadError m _).adapt ofConfigError
  | none => return {}

def decodeSource (file : Path) (bytes : List UInt8) : Except Outcome String :=
  (Utf8.decodeLines bytes).mapError fun e => .refuse s!"cannot read '{file.text}': {e.message}"

/-- The text of a source file and the settings for it. The command line can only add strictness. -/
def loadSource [CallStack] (file : Path) (o : Options) : ExceptT Outcome m (String × Config) := do
  let found ← (FileAccess.leadsTo .file file : ExceptT FileError m _).adapt fun e => .fail (.file e)
  if !found then throw (.refuse s!"file '{file.text}' does not exist.")
  let config ← loadConfig file o.config
  let bytes ← (FileAccess.readBytes file : ExceptT FileError m _).adapt fun e =>
    .refuse s!"cannot read '{file.text}': {e.message}"
  let source ← ExceptT.mk (pure (decodeSource file bytes))
  return (source, { config with strict := o.strict || config.strict })

/-! ## Commands -/

def scanSource (source : String) (strict : Bool) : Except Outcome (List Token) :=
  (tokenize source strict).mapError fun e => .refuse e.message

def tokenLine (t : Token) : String :=
  let shown := (t.value.map quote).getD "None"
  s!"{t.type.name} {shown} [{t.start}, {t.stop})\n"

def printTokens (source : String) (config : Config) : Except Outcome Outcome := do
  let tokens ← scanSource source config.strict
  return .succeed (String.join (tokens.map tokenLine))

def parseSource [CallStack] (source : String) (config : Config) : Except Outcome Program :=
  (LetFun.parseSource source config.strict).mapError fun e => .refuse e.message

/-- The width for an artifact: none if it shall be compact, or else the one that is set on the
command line, or else the one of the settings. -/
def indentFor (o : Options) (config : Config) : Option Nat :=
  if o.compact then none else o.indent <|> config.indent

def ofWriteError : Artifact.WriteError → Outcome
  | .widthTooLarge => .fail (.program .widthTooLarge)
  | e => .refuse e.message

def ofStoreError (path : Path) : Artifact.StoreError → Outcome
  | .text e => ofWriteError e
  | .file .nulInPath => .refuse FileError.nulInPath.message
  | .file e => .refuse s!"cannot write '{path.text}': {e.message}"

def emit [CallStack] (p : Program) (o : Options) (config : Config) : ExceptT Outcome m Outcome := do
  let indent := (indentFor o config).map Int.ofNat
  match o.output with
  | none =>
    let text ← ExceptT.mk (pure ((Artifact.serialize p indent).mapError ofWriteError))
    return .succeed (text ++ "\n")
  | some name =>
    let path := Path.ofString name
    (Artifact.store p path indent : ExceptT _ m _).adapt (ofStoreError path)
    return .succeed s!"Wrote {p.body.length} declaration(s) to '{path.text}'.\n"

def execute [CallStack] (command : Command) (file : Path) (o : Options) :
    ExceptT Outcome m Outcome := do
  let (source, config) ← loadSource file o
  match command with
  | .tokens => ExceptT.mk (pure (printTokens source config))
  | .parse =>
    let p ← ExceptT.mk (pure (parseSource source config))
    emit p o config

def runRequest [CallStack] : Request → m Outcome
  | .help topic => pure (.succeed (helpText topic))
  | .run command file o => do
    match ← (execute command (Path.ofString file) o).run with
    | .ok outcome => return outcome
    | .error outcome => return outcome

/-- What the program does for a command line. -/
def run [CallStack] (arguments : List String) : m Outcome :=
  match request arguments with
  | .ok r => runRequest r
  | .error e => pure ⟨"", e.text, .exit 2⟩

end LetFun.Command
