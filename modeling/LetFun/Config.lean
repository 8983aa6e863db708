import LetFun.Yaml.Construction
/-!
# Settings

The settings of the program and how a YAML mapping gives them. A setting that the mapping does not
mention keeps its default. Of several faults the first one counts: unknown fields, then the strict
mode, then the indentation.
-/

namespace LetFun

/-- The settings: whether characters that belong to no token are an error, and the width by which
artifacts are indented, none for compact ones. -/
structure Config where
  strict : Bool := false
  indent : Option Nat := some 2
deriving DecidableEq, Repr, Inhabited

namespace Config

def fileName : String := ".letparse.yaml"

def strictField : String := "strict-characters"

def indentField : String := "indent"

/-- What is wrong with settings. A number that is no field may have too many digits to be named. -/
inductive Problem where
  | notMapping
  | unknownFields (names : List Text)
  | unnamableField
  | strictNotBoolean
  | indentNotNatural
deriving DecidableEq, Repr

def commaSeparated : List Text → Text
  | [] => []
  | [name] => name
  | name :: names => name ++ ", " ++ commaSeparated names

def Problem.message : Problem → Text
  | .notMapping => "config must be a YAML mapping"
  | .unknownFields names => "unknown field(s): " ++ commaSeparated names
  | .unnamableField => tooLongToShowMessage
  | .strictNotBoolean => s!"'{strictField}' must be a boolean"
  | .indentNotNatural => s!"'{indentField}' must be a non-negative integer or null"

open Yaml (Scalar Value Contents)

def isField : Scalar → Bool
  | .text name => name = (strictField : Text) || name = (indentField : Text)
  | _ => false

def field? (name : String) (entries : List (Scalar × Value)) : Option Value :=
  (entries.find? fun (key, _) => key.same (.text name)).map (·.2)

/-- The names of the keys that are no fields, in the order of their code points. -/
def unknownFields (entries : List (Scalar × Value)) : List Text :=
  ((entries.map (·.1)).filter (!isField ·) |>.map Scalar.display).mergeSort (· ≤ ·)

def strictOf : Option Value → Except Problem Bool
  | none => .ok false
  | some (.scalar (.bool b)) => .ok b
  | some _ => .error .strictNotBoolean

/-- The indentation that a value asks for. A truth value is no number. -/
def indentOf : Option Value → Except Problem (Option Nat)
  | none => .ok (some 2)
  | some (.scalar .null) => .ok none
  | some (.scalar (.integer i)) => if 0 ≤ i then .ok (some i.toNat) else .error .indentNotNatural
  | some _ => .error .indentNotNatural

def ofEntries (entries : List (Scalar × Value)) : Except Problem Config := do
  if entries.any fun (key, _) => !key.isShowable then .error .unnamableField
  else if unknownFields entries ≠ [] then .error (.unknownFields (unknownFields entries))
  else return ⟨← strictOf (field? strictField entries), ← indentOf (field? indentField entries)⟩

/-- The settings that a YAML stream gives; nothing at all gives the defaults. -/
def ofContents : Contents → Except Problem Config
  | .value (.scalar .null) => .ok {}
  | .value _ => .error .notMapping
  | .mapping entries => ofEntries entries

end Config

end LetFun
