import LetFun.FileTree
/-!
# Access to files

What a monad has to offer for programs that read and write files, and what such programs make of it.
A file tree as state offers it, and so does the machine that a program runs on.
-/

namespace LetFun

inductive EntryKind where
  | file
  | directory
  | other
deriving DecidableEq, Repr

def Entry.kind : Entry → EntryKind
  | .file _ => .file
  | .directory => .directory

/-- The operations on files that a monad offers. -/
class FileAccess (m : Type → Type) where
  /-- What a path leads to. -/
  kind : Path → ExceptT FileError m EntryKind
  /-- The bytes of the file that a path leads to. -/
  readBytes : Path → ExceptT FileError m (List UInt8)
  /-- Replaces the bytes of the file that a path leads to, or makes it. -/
  writeBytes : Path → List UInt8 → ExceptT FileError m Unit
  /-- Makes a directory where nothing is yet. -/
  makeDirectory : Path → ExceptT FileError m Unit
  /-- The path from the root to what a path leads to. -/
  absolute : Path → ExceptT FileError m Path

namespace FileAccess

/-! ## Trees -/

def query {α : Type} (f : FileTree → Except FileError α) : ExceptT FileError (StateM FileTree) α :=
  fun t => (f t, t)

def update (f : FileTree → Except FileError FileTree) : ExceptT FileError (StateM FileTree) Unit :=
  fun t => match f t with
    | .ok t' => (.ok (), t')
    | .error e => (.error e, t)

instance : FileAccess (StateM FileTree) where
  kind p := query fun t => (t.find p).map fun (_, e) => e.kind
  readBytes p := query (·.readBytes p)
  writeBytes p bytes := update (·.writeBytes p bytes)
  makeDirectory p := update (·.makeDirectory p)
  absolute p := query fun t => .ok (t.absolute p)

/-! ## Kinds -/

variable {m : Type → Type} [Monad m] [FileAccess m]

/-- Whether a path leads to something of a kind. A path that leads nowhere, because something on the
way is missing or no directory, does not. -/
def leadsTo (wanted : EntryKind) (p : Path) : ExceptT FileError m Bool :=
  tryCatch (do return (← kind p) = wanted) fun
    | .nulInPath | .at _ .notFound | .at _ .notDirectory => return false
    | e => throw e

/-! ## Directories -/

/-- Makes sure that an operation which failed on a path did so because there is a directory. -/
def unlessDirectory (p : Path) (e : FileError) : ExceptT FileError m Unit := do
  if e = .nulInPath then throw e
  else if ← leadsTo .directory p then return ()
  else throw e

/-- Makes the directory that a path leads to, and those on the way to it, unless they are there. -/
def makeDirectories (p : Path) : ExceptT FileError m Unit :=
  tryCatch (makeDirectory p) fun e =>
    if e = .at p .notFound then
      if _h : p.names = [] then throw e
      else do
        makeDirectories p.parent
        -- With its parents made, a directory that is still missing is not tried again.
        tryCatch (makeDirectory p) fun e =>
          if e = .at p .notFound then throw e else unlessDirectory p e
    else unlessDirectory p e
termination_by p.names.length
decreasing_by exact Path.length_parent_lt _h

end FileAccess

end LetFun
