/-!
# Paths

A path is a list of names after a root, if it has one. Reading a path drops empty names and the name
`.`, so that every path has one text; the name `..` is kept.
-/

namespace LetFun

/-- A path: how many slashes its root has, none for a relative path, and its names. -/
structure Path where
  slashes : Nat
  names : List String
deriving DecidableEq, Repr

namespace Path

def parts : List Char → List (List Char)
  | [] => [[]]
  | c :: cs =>
    if c = '/' then [] :: parts cs
    else match parts cs with
      | part :: later => (c :: part) :: later
      | [] => [[c]]

/-- The number of slashes that the root of a text has. Two are a root of their own, and more than
two are one. -/
def rootSlashes (cs : List Char) : Nat :=
  let count := (cs.takeWhile (· = '/')).length
  if count ≤ 2 then count else 1

def isName (name : String) : Bool :=
  name ≠ "" && name ≠ "."

def ofString (s : String) : Path :=
  ⟨rootSlashes s.toList, ((parts s.toList).map String.ofList).filter isName⟩

/-- The text of a path. The path without a root and without names is `.`. -/
def text (p : Path) : String :=
  if p.slashes = 0 ∧ p.names = [] then "."
  else String.ofList (List.replicate p.slashes '/') ++ "/".intercalate p.names

def parent (p : Path) : Path :=
  { p with names := p.names.dropLast }

def child (p : Path) (name : String) : Path :=
  { p with names := p.names ++ [name] }

/-- The path with every `..` and the name before it taken away. -/
def collapse (p : Path) : Path :=
  let step := fun (names : List String) name =>
    if name = ".." then names.dropLast else names ++ [name]
  { p with names := p.names.foldl step [] }

/-- The path seen from a directory: itself if it has a root, and the one that starts there
if not. -/
def under (p directory : Path) : Path :=
  if p.slashes = 0 then { directory with names := directory.names ++ p.names } else p

def hasNul (p : Path) : Bool :=
  p.names.any fun name => name.toList.contains '\x00'

@[simp] theorem parent_child (p : Path) (name : String) : (p.child name).parent = p := by
  simp [parent, child]

theorem length_parent_lt {p : Path} (h : p.names ≠ []) :
    p.parent.names.length < p.names.length := by
  have := List.length_pos_iff.mpr h
  simp only [parent, List.length_dropLast]
  omega

end Path

end LetFun
