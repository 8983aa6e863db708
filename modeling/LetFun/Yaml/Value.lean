import LetFun.Number.FloatRead
import LetFun.Text.Base64
import LetFun.Text.LowerCase
import LetFun.Yaml.Scalar
import LetFun.Yaml.Tag
/-!
# Values of scalars

The value of a text under each tag of a scalar, or why it has none.
-/

namespace LetFun.Yaml

def integerFault (base : Nat) (text : Text) : IntegerFault → Fault
  | .malformed => .notInteger base text
  | .tooManyDigits count => .tooManyDigits count

def integerIn (base : Nat) (text : Text) : Except Fault Int :=
  (readInteger base text.chars).mapError (integerFault base text)

def dropUnderscores (text : Text) : Text :=
  text.filter (· ≠ .scalar '_')

def splitSign : Text → Bool × Text
  | .scalar '+' :: rest => (false, rest)
  | .scalar '-' :: rest => (true, rest)
  | text => (false, text)

def colonParts : Text → List Text
  | [] => [[]]
  | p :: text =>
    if p = .scalar ':' then [] :: colonParts text
    else match colonParts text with
      | part :: parts => (p :: part) :: parts
      | [] => [[p]]

def integerOf (text : Text) : Except Fault Int := do
  let digits := dropUnderscores text
  if digits.isEmpty then .error .emptyNumber
  else
    let (negative, unsigned) := splitSign digits
    let magnitude ← match unsigned with
      | [.scalar '0'] => pure 0
      | .scalar '0' :: .scalar 'b' :: digits => integerIn 2 digits
      | .scalar '0' :: .scalar 'x' :: digits => integerIn 16 digits
      | [] => .error .emptyNumber
      | p :: _ =>
        if p = .scalar '0' then integerIn 8 unsigned
        else if unsigned.contains (.scalar ':') then do
          let parts ← (colonParts unsigned).mapM (integerIn 10)
          pure (parts.foldl (fun total part => total * 60 + part) 0)
        else integerIn 10 unsigned
    return if negative then -magnitude else magnitude

def floatIn (text : Text) : Except Fault Float :=
  match readFloat text.chars with
  | some x => .ok x
  | none => .error (.notFloat text)

/-- The sum of parts of sixty, the last of them first. The unit of a part is a natural number, which
has to be one of double precision. -/
def sumOfSixties (unit : Nat) (total : Float) : List Float → Except Fault Float
  | [] => .ok total
  | part :: parts =>
    if 1 <<< 1024 ≤ unit then .error .numberTooLarge
    else sumOfSixties (unit * 60) (total + part * (Decimal.mk false unit 0).toFloat) parts

def floatOf (node : Nat) (text : Text) : Except Fault Scalar := do
  let digits := (dropUnderscores text).lower
  if digits.isEmpty then .error .emptyNumber
  else
    let (negative, unsigned) := splitSign digits
    let signed := fun x : Float => Scalar.ofFloat node (if negative then -x else x)
    if unsigned = ".inf" then return signed (1.0 / 0.0)
    else if unsigned = ".nan" then return .nan none
    else if unsigned.contains (.scalar ':') then do
      -- The last of the parts counts once.
      let parts ← (colonParts unsigned).mapM floatIn
      return signed (← sumOfSixties 1 0 parts.reverse)
    else return signed (← floatIn unsigned)

def boolOf (text : Text) : Except Fault Bool :=
  match Tag.boolWords.find? fun w => text.lower = w.1 with
  | some w => .ok w.2
  | none => .error (.notBoolean text.lower)

def bytesOf (text : Text) : Except Fault (List UInt8) :=
  if text.chars.all (·.toNat < 0x80) then
    match Base64.decode text.chars with
    | some bytes => .ok bytes
    | none => .error .malformed
  else .error .malformed

/-- The value of a text under a tag, at the node with a given number. No text has a value under the
tags of collections or under a tag that is not known. -/
def scalarOf (node : Nat) (tag : Tag) (text : Text) : Except Fault Scalar :=
  match tag with
  | .null => .ok .null
  | .bool => (boolOf text).map .bool
  | .int => (integerOf text).map .integer
  | .float => floatOf node text
  | .binary => (bytesOf text).map .bytes
  | .timestamp => (Timestamp.ofText (Tag.dropFinalBreak text.chars)).map .timestamp
  | .str => .ok (.text text)
  | _ => .error .malformed

end LetFun.Yaml
