import LetFun.FileTree.Path
import LetFun.Text.Quoted
/-!
# File trees

Files and directories by location, a location being the names on the way from the root, and the
operations on them that programs use. An operation takes a path, which is followed name by name,
and fails for the reason that it meets first.
-/

namespace LetFun

/-! ## Errors -/

inductive FileProblem where
  | notFound
  | exists
  | notDirectory
  | isDirectory
  | nameTooLong
  | other (number : Nat) (text : String)
deriving DecidableEq, Repr

def FileProblem.number : FileProblem → Nat
  | .notFound => 2
  | .exists => 17
  | .notDirectory => 20
  | .isDirectory => 21
  | .nameTooLong => 36
  | .other number _ => number

def FileProblem.text : FileProblem → String
  | .notFound => "No such file or directory"
  | .exists => "File exists"
  | .notDirectory => "Not a directory"
  | .isDirectory => "Is a directory"
  | .nameTooLong => "File name too long"
  | .other _ text => text

/-- A failed operation on files: on a path that no file can have, or with a problem that was met on
the way to a path or at its end. -/
inductive FileError where
  | nulInPath
  | at (path : Path) (problem : FileProblem)
deriving DecidableEq, Repr

def FileError.message : FileError → String
  | .nulInPath => "embedded null byte"
  | .at path problem => s!"[Errno {problem.number}] {problem.text}: " ++ quote path.text

/-! ## Trees -/

abbrev Location := List String

inductive Entry where
  | file (bytes : List UInt8)
  | directory
deriving DecidableEq, Repr

/-- The entries at locations, and the location of the working directory. There are no symbolic
links, no permissions and no special files, so these entries decide what every operation does. -/
structure FileTree where
  entries : List (Location × Entry)
  workingDirectory : Location
deriving Repr

namespace FileTree

def ofWorkingDirectory (location : Location) : FileTree :=
  ⟨(List.range location.length).map fun n => (location.take (n + 1), .directory), location⟩

def get? (t : FileTree) (location : Location) : Option Entry :=
  if location = [] then some .directory else t.entries.lookup location

def put (t : FileTree) (location : Location) (e : Entry) : FileTree :=
  { t with entries := (location, e) :: t.entries.filter (·.1 ≠ location) }

def erase (t : FileTree) (location : Location) : FileTree :=
  { t with entries := t.entries.filter (·.1 ≠ location) }

-- Looking up in a list without a key finds the other keys as before.
theorem lookup_filter_ne {l m : Location} (h : m ≠ l) (es : List (Location × Entry)) :
    (es.filter fun e => !decide (e.1 = l)).lookup m = es.lookup m := by
  induction es with
  | nil => rfl
  | cons e es ih =>
    obtain ⟨k, v⟩ := e
    by_cases hk : k = l
    · have hm : (m == l) = false := by simpa using h
      simpa [List.lookup_cons, hk, hm] using ih
    · simp [List.lookup_cons, hk, ih]

/-- An entry stands where it was put, and all others where they were. -/
theorem get?_put {t : FileTree} {location l : Location} {e : Entry} (h : location ≠ []) :
    (t.put location e).get? l = if l = location then some e else t.get? l := by
  by_cases hl : l = location
  · subst hl
    simp [get?, put, h]
  · have hb : (l == location) = false := by simpa using hl
    simp [get?, put, hl, List.lookup_cons, hb, lookup_filter_ne hl]

/-! ## Following paths -/

/-- Whether a name or path is too long to be one, its UTF-8 bytes counted. -/
def tooLong (limit : Nat) (s : String) : Bool :=
  limit < s.utf8ByteSize

def step (t : FileTree) (directory : Location) (name : String) : Except FileProblem Location :=
  match t.get? directory with
  | none => .error .notFound
  | some (.file _) => .error .notDirectory
  | some .directory =>
    if name = ".." then .ok directory.dropLast
    else if tooLong 255 name then .error .nameTooLong
    else .ok (directory ++ [name])

/-- Follows names through directories, where each but the last has to exist. -/
def follow (t : FileTree) (directory : Location) : List String → Except FileProblem Location
  | [] => .ok directory
  | name :: names => do t.follow (← t.step directory name) names

/-- The location that a path leads to, which may be one where nothing is. -/
def locate (t : FileTree) (p : Path) : Except FileError Location :=
  if p.hasNul then .error .nulInPath
  else if tooLong 4095 p.text then .error (.at p .nameTooLong)
  else
    let start := if p.slashes = 0 then t.workingDirectory else []
    (t.follow start p.names).mapError (.at p)

def find (t : FileTree) (p : Path) : Except FileError (Location × Entry) := do
  let location ← t.locate p
  match t.get? location with
  | some e => return (location, e)
  | none => .error (.at p .notFound)

/-! ## Operations -/

def readBytes (t : FileTree) (p : Path) : Except FileError (List UInt8) := do
  match ← t.find p with
  | (_, .file bytes) => return bytes
  | (_, .directory) => .error (.at p .isDirectory)

/-- The tree after writing bytes to the file that a path leads to, which is made if nothing is
there. -/
def writeBytes (t : FileTree) (p : Path) (bytes : List UInt8) : Except FileError FileTree := do
  let location ← t.locate p
  match t.get? location with
  | some .directory => .error (.at p .isDirectory)
  | _ => return t.put location (.file bytes)

def makeDirectory (t : FileTree) (p : Path) : Except FileError FileTree := do
  let location ← t.locate p
  match t.get? location with
  | some _ => .error (.at p .exists)
  | none => return t.put location .directory

def remove (t : FileTree) (p : Path) : Except FileError FileTree := do
  match ← t.find p with
  | (location, .file _) => return t.erase location
  | (_, .directory) => .error (.at p .isDirectory)

def absolute (t : FileTree) (p : Path) : Path :=
  (p.under ⟨1, t.workingDirectory⟩).collapse

end FileTree

end LetFun
