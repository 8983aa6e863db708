import LetFun.Number.Binary
import LetFun.Number.FloatText
import LetFun.Text.Quoted
import LetFun.Yaml.Timestamp
/-!
# Scalar values

The values of scalars, when two of them are the same as keys of a mapping, and how they are shown.
-/

namespace LetFun.Yaml

/-- The value of a scalar. There are many NaN: that of the word `.nan`, and one for each other node
that has such a value, known by its number. -/
inductive Scalar where
  | null
  | bool (b : Bool)
  | integer (i : Int)
  | float (x : Float)
  | nan (node : Option Nat)
  | text (t : Text)
  | bytes (bs : List UInt8)
  | timestamp (t : Timestamp)

namespace Scalar

def ofFloat (node : Nat) (x : Float) : Scalar :=
  if x.isNaN then .nan (some node) else .float x

def toInt? : Scalar → Option Int
  | .bool b => some (if b then 1 else 0)
  | .integer i => some i
  | .float x => (Binary.ofFloat? x).bind Binary.toInt?
  | _ => none

/-- Whether two scalars are the same key. Numbers are compared by value, and each NaN is the same as
itself only. -/
def same (s t : Scalar) : Bool :=
  match s.toInt?, t.toInt? with
  | some i, some j => i = j
  | none, none =>
    match s, t with
    | .null, .null => true
    | .float x, .float y => x == y
    | .nan m, .nan n => m = n
    | .text a, .text b => a = b
    | .bytes a, .bytes b => a = b
    | .timestamp a, .timestamp b => a.same b
    | _, _ => false
  | _, _ => false

def quotedByte (mark : Char) (b : UInt8) : List Char :=
  let c := Char.ofNat b.toNat
  if c = mark ∨ c = '\\' then ['\\', c]
  else if c = '\n' then ['\\', 'n']
  else if c = '\r' then ['\\', 'r']
  else if c = '\t' then ['\\', 't']
  else if ' ' ≤ c ∧ c ≤ '~' then [c]
  else '\\' :: 'x' :: Hex.digits 2 b.toNat

def quotedBytes (bs : List UInt8) : String :=
  let mark := Text.quoteMark (bs.map fun b => .scalar (Char.ofNat b.toNat))
  String.ofList ('b' :: mark :: bs.flatMap (quotedByte mark) ++ [mark])

def isShowable : Scalar → Bool
  | .integer i => LetFun.isShowable i
  | _ => true

def display : Scalar → Text
  | .null => "None"
  | .bool true => "True"
  | .bool false => "False"
  | .integer i => toString i
  | .float x => floatText x
  | .nan _ => "nan"
  | .text t => t
  | .bytes bs => quotedBytes bs
  | .timestamp t => t.text

end Scalar

end LetFun.Yaml
