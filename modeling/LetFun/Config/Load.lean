import LetFun.Config
import LetFun.FileTree.Access
import LetFun.Text.Utf8
/-!
# Loading settings

Settings are loaded from YAML files. Messages about a file's contents name the file by the path that
it was loaded from.
-/

namespace LetFun.Config

inductive LoadError where
  | notFound (path : Path)
  | unreadable (error : FileError)
  | malformed (path : Path)
  | settings (path : Path) (problem : Problem)
  | nulInPath
  | encoding (error : Utf8.DecodeError)
  | value (fault : Yaml.Fault)
deriving DecidableEq, Repr

namespace LoadError

/-- Whether an error is one about the settings, which users are told about. The others are those of
the layers below: bytes that are no text, and scalars that have no value. -/
def isConfigError : LoadError → Bool
  | .notFound _ | .unreadable _ | .malformed _ => true
  | .settings _ problem => problem ≠ .unnamableField
  | .nulInPath | .encoding _ | .value _ => false

def message : LoadError → Text
  | .notFound path => s!"Config file not found: {path.text}"
  | .unreadable error => s!"Cannot read config file: {error.message}"
  | .malformed path => s!"Invalid YAML in {path.text}"
  | .settings path problem =>
    if problem = .unnamableField then problem.message
    else s!"{path.text}: " ++ problem.message
  | .nulInPath => FileError.nulInPath.message
  | .encoding error => error.message
  | .value fault => fault.message

def ofFileError (path : Path) : FileError → LoadError
  | .nulInPath => .nulInPath
  | .at _ .notFound => .notFound path
  | error => .unreadable error

def ofFault (path : Path) : Yaml.Fault → LoadError
  | .malformed => .malformed path
  | fault => .value fault

end LoadError

def ofBytes [CallStack] (path : Path) (bytes : List UInt8) : Except LoadError Config := do
  let text ← (Utf8.decodeLines bytes).mapError .encoding
  let contents ← (Yaml.load text).mapError (.ofFault path)
  (ofContents contents).mapError (.settings path)

variable {m : Type → Type} [Monad m] [FileAccess m]

def load [CallStack] (path : Path) : ExceptT LoadError m Config := do
  let bytes ← (FileAccess.readBytes path : ExceptT FileError m _).adapt (.ofFileError path)
  ExceptT.mk (pure (ofBytes path bytes))

def find (directory : Path) : ExceptT FileError m (Option Path) := do
  let path := directory.child fileName
  return if ← FileAccess.leadsTo .file path then some path else none

end LetFun.Config
