import LetFun.Number.Integer
import LetFun.Text.Quoted
/-!
# Faults of YAML documents

Why a text gives no value. All texts that are not YAML, and all nodes whose tag does not fit them,
are `malformed`; the other faults are those of escapes, of version numbers, of nodes that lead too
far, and of single scalars that are read under their tag.
-/

namespace LetFun.Yaml

inductive TimeField where
  | hour
  | minute
  | second
deriving DecidableEq, Repr

inductive Fault where
  | malformed
  | tooDeep
  | notInteger (base : Nat) (text : Text)
  | tooManyDigits (count : Nat)
  | notFloat (text : Text)
  | numberTooLarge
  | emptyNumber
  | notBoolean (text : Text)
  | notTimestamp
  | timestampOfMapping
  | yearOutOfRange (year : Nat)
  | monthOutOfRange
  | dayOutOfRange
  | timeOutOfRange (field : TimeField)
  | offsetTooLarge (negative : Bool) (minutes : Nat)
  | escapeTooLarge (code : Nat)
deriving DecidableEq, Repr

/-- The length of a time in days and seconds, each named only if it is not zero; days are counted so
that the seconds are not negative. -/
def durationText (negative : Bool) (minutes : Nat) : String :=
  let total : Int := withSign negative (minutes * 60)
  let days := total / 86400
  let seconds := total % 86400
  let dayPart := if days = 0 then [] else [s!"days={days}"]
  let secondPart := if seconds = 0 then [] else [s!"seconds={seconds}"]
  "datetime.timedelta(" ++ ", ".intercalate (dayPart ++ secondPart) ++ ")"

def Fault.message : Fault → String
  | .malformed => "Invalid YAML"
  | .tooDeep => "Nesting too deep"
  | .notInteger base text =>
    let shown := String.ofList (text.quoted.toList.take 200)
    s!"invalid literal for int() with base {base}: {shown}"
  | .tooManyDigits count => tooManyDigitsMessage count
  | .notFloat text => "could not convert string to float: " ++ text.quoted
  | .numberTooLarge => "int too large to convert to float"
  | .emptyNumber => "string index out of range"
  | .notBoolean text => text.quoted
  | .notTimestamp => "'NoneType' object has no attribute 'groupdict'"
  | .timestampOfMapping => "expected string or bytes-like object, got 'list'"
  | .yearOutOfRange year => s!"year {year} is out of range"
  | .monthOutOfRange => "month must be in 1..12"
  | .dayOutOfRange => "day is out of range for month"
  | .timeOutOfRange .hour => "hour must be in 0..23"
  | .timeOutOfRange .minute => "minute must be in 0..59"
  | .timeOutOfRange .second => "second must be in 0..59"
  | .offsetTooLarge negative minutes =>
    "offset must be a timedelta strictly between -timedelta(hours=24) and timedelta(hours=24), " ++
      s!"not {durationText negative minutes}."
  | .escapeTooLarge code =>
    if code < 1 <<< 31 then "chr() arg not in range(0x110000)"
    else "Python int too large to convert to C int"

end LetFun.Yaml
