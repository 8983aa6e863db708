import LetFun.Artifact
import LetFun.FileTree.Access
import LetFun.Text.Utf8
/-!
# Artifacts in files

Writing programs to artifact files and reading them back. The directories on the way to an artifact
are made first; the file is touched only when its whole text is there.
-/

namespace LetFun.Artifact

variable {m : Type → Type} [Monad m] [FileAccess m]

inductive StoreError where
  | file (error : FileError)
  | text (error : WriteError)
deriving DecidableEq, Repr

inductive LoadError where
  | file (error : FileError)
  | encoding (error : Utf8.DecodeError)
  | artifact (error : ReadError)

/-- Stores a program in the file that a path leads to, once the directories on the way to
it exist. -/
def store [CallStack] (p : Program) (path : Path) (indent : Option Int) :
    ExceptT StoreError m Unit := do
  (FileAccess.makeDirectories path.parent : ExceptT FileError m _).adapt .file
  -- The text is complete before the file is touched.
  match serialize p indent with
  | .error e => throw (.text e)
  | .ok text => (FileAccess.writeBytes path (Utf8.encode text) : ExceptT FileError m _).adapt .file

def ofBytes [CallStack] (bytes : List UInt8) : Except LoadError Program := do
  let text ← (Utf8.decodeLines bytes).mapError .encoding
  (deserialize text).mapError .artifact

def load [CallStack] (path : Path) : ExceptT LoadError m Program := do
  let bytes ← (FileAccess.readBytes path : ExceptT FileError m _).adapt .file
  ExceptT.mk (pure (ofBytes bytes))

end LetFun.Artifact
