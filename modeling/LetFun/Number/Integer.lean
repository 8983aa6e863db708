import LetFun.Number.Decimal
import LetFun.Number.Hex
import LetFun.Text.WhiteSpace
import LetFun.Text.DecimalDigit
/-!
# Integers in text

Two readings of a text as an integer. `readInteger` takes digits of any script in a given base;
`readWhole` takes ASCII digits and a fraction of zeros. In both there may be white space around the
text, a sign may come first, and a single underscore may stand between two digits.
-/

namespace LetFun

/-- The most decimal digits that the text of an integer may have. -/
def digitLimit : Nat := 4300

inductive IntegerFault where
  | malformed
  | tooManyDigits (count : Nat)
deriving DecidableEq, Repr

def tooManyDigitsMessage (count : Nat) : String :=
  s!"Exceeds the limit ({digitLimit} digits) for integer string conversion: value has {count} " ++
    "digits; use sys.set_int_max_str_digits() to increase the limit"

def isShowable (i : Int) : Bool :=
  i.natAbs < Nat.pow 10 digitLimit

def tooLongToShowMessage : String :=
  s!"Exceeds the limit ({digitLimit} digits) for integer string conversion; use " ++
    "sys.set_int_max_str_digits() to increase the limit"

/-- The digits among digits with underscores, where each underscore stands between two digits;
`afterDigit` tells whether a digit comes before. -/
def dropUnderscores (afterDigit : Bool) : List Char → Option (List Char)
  | [] => if afterDigit then some [] else none
  | c :: cs =>
    if c = '_' then
      if afterDigit then dropUnderscores false cs else none
    else
      (dropUnderscores true cs).map (c :: ·)

def splitSign : List Char → Bool × List Char
  | '+' :: cs => (false, cs)
  | '-' :: cs => (true, cs)
  | cs => (false, cs)

def withSign (negative : Bool) (n : Nat) : Int :=
  if negative then -n else n

/-- An ASCII digit for a decimal digit of any script, a space for white space, and any other
character as it is. -/
def plainForm (c : Char) : Char :=
  match decimalDigit? c with
  | some d => Nat.digitChar d
  | none => if isWhiteSpace c then ' ' else c

/-- What follows the mark of a base (`0b`, `0o`, `0x`) and one underscore after it, or the whole
text if there is no such mark. -/
def dropBaseMark (base : Nat) (cs : List Char) : List Char :=
  match cs with
  | '0' :: mark :: rest =>
    if base = 2 ∧ (mark = 'b' ∨ mark = 'B') ∨ base = 8 ∧ (mark = 'o' ∨ mark = 'O') ∨
        base = 16 ∧ (mark = 'x' ∨ mark = 'X') then
      match rest with
      | '_' :: digits => digits
      | digits => digits
    else cs
  | _ => cs

def isDigitBelow (base : Nat) (c : Char) : Bool :=
  (Hex.value? c).any (· < base)

/-- The integer that a text spells in a base of at most sixteen. The limit on digits holds in base
ten. -/
def readInteger (base : Nat) (text : List Char) : Except IntegerFault Int :=
  let (negative, unsigned) := splitSign (trim (· = ' ') (text.map plainForm))
  let body := dropBaseMark base unsigned
  let isPart := fun c => isDigitBelow base c || c = '_'
  match dropUnderscores false (body.takeWhile isPart) with
  | none => .error .malformed
  | some digits =>
    if base = 10 ∧ digitLimit < digits.length then .error (.tooManyDigits digits.length)
    else if (body.dropWhile isPart).isEmpty then
      .ok (withSign negative (digits.foldl (fun n c => base * n + (Hex.value? c).getD 0) 0))
    else
      .error .malformed

def isZeroFraction : List Char → Bool
  | [] => true
  | '.' :: zeros => !zeros.isEmpty && zeros.all (· = '0')
  | _ => false

/-- The integer that a text spells with ASCII digits, white space around them, and perhaps a point
and zeros after them. The limit holds for the digits after leading zeros, and a minus sign counts as
one of them. -/
def readWhole (text : List Char) : Except IntegerFault Int :=
  let (negative, unsigned) := splitSign (trim isWhiteSpace text)
  let isPart := fun c => c.isDigit || c = '_'
  match dropUnderscores false (unsigned.takeWhile isPart) with
  | none => .error .malformed
  | some digits =>
    let significant := digits.dropWhile (· = '0')
    let count := significant.length + (if negative then 1 else 0)
    if digitLimit < count then .error (.tooManyDigits count)
    else if isZeroFraction (unsigned.dropWhile isPart) then
      .ok (withSign negative (ofDigits significant))
    else
      .error .malformed

end LetFun
