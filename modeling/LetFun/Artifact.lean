import LetFun.CallStack
import LetFun.Json.Display
import LetFun.Json.Read
import LetFun.Json.Write
import LetFun.Tree.Document
import LetFun.Tree.Schema
/-!
# Artifacts

A program is stored as a JSON object of two members: the version of the format and the tree.
-/

namespace LetFun.Artifact

def version : String := "1"

def suffix : String := ".ast.json"

/-! ## Writing -/

inductive WriteError where
  | circular
  | widthTooLarge
  | json (error : Json.WriteError)
deriving DecidableEq, Repr

def WriteError.message : WriteError → String
  | .circular => "Circular reference detected (depth exceeded)"
  | .widthTooLarge => "cannot fit 'int' into an index-sized integer"
  | .json .tooDeep => "Program is nested too deeply to serialize"
  | .json .tooManyDigits => tooLongToShowMessage

/-- The layout of an indentation width: none is compact, a negative one breaks lines without
indenting them, and one that is no signed 64-bit number is refused. -/
def layoutOf : Option Int → Except WriteError Json.Layout
  | none => .ok .compact
  | some n =>
    if -0x8000000000000000 ≤ n ∧ n < 0x8000000000000000 then .ok (.indented n.toNat)
    else .error .widthTooLarge

def document (p : Program) : Json :=
  .object (members [("v", .ofString version), ("program", p.toJson)])

/-- The text that stores a program, compact or indented by a width. The program is turned into a
value before the width is looked at, and the value is written after that. -/
def serialize [CallStack] (p : Program) (indent : Option Int) : Except WriteError String :=
  if CallStack.dumped < p.depth then .error .circular
  else do
    let layout ← layoutOf indent
    ((document p).check CallStack.written).mapError .json
    return (document p).render layout

/-! ## Reading -/

inductive ReadError where
  | json (text : List Char) (error : Json.ReadError)
  | notObject
  | version (found : Json)
  | invalid (node : InvalidNode)

/-- The program that a text stores. A version other than the one of this format is refused before
the program is looked at; members with other names have no meaning. -/
def deserialize [CallStack] (text : String) : Except ReadError Program :=
  match Json.read CallStack.read text.toList with
  | .error e => .error (.json text.toList e)
  | .ok (.object ms) =>
    let found := (Json.get? "v" ms).getD .null
    match found with
    | .string t =>
      if t = Text.ofString version then
        match Program.ofJson ((Json.get? "program" ms).getD .null) with
        | .ok p => .ok p
        | .error faults => .error (.invalid ⟨.program, faults⟩)
      else .error (.version found)
    | _ => .error (.version found)
  | .ok _ => .error .notObject

def notObjectMessage : String :=
  "Artifact must be a JSON object"

def versionMessage (found : Json) : String :=
  "Unsupported artifact format version: " ++ found.display

end LetFun.Artifact
