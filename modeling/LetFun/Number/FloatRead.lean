import LetFun.Number.Integer
/-!
# Floating-point numbers in text

Reading a text as a number of double precision: digits with a point and an exponent, or one of the
words for infinity and NaN, with a sign before and white space around them.
-/

namespace LetFun

def splitDigits (cs : List Char) : Option (List Char × List Char) :=
  let isPart := fun c : Char => c.isDigit || c = '_'
  match cs.takeWhile isPart with
  | [] => some ([], cs)
  | part => (dropUnderscores false part).map (·, cs.dropWhile isPart)

def readExponent (cs : List Char) : Option Int :=
  match cs with
  | [] => some 0
  | mark :: rest =>
    if mark = 'e' ∨ mark = 'E' then
      let (negative, unsigned) := splitSign rest
      match splitDigits unsigned with
      | some (d :: ds, []) => some (withSign negative (ofDigits (d :: ds)))
      | _ => none
    else none

def readDigits (negative : Bool) (cs : List Char) : Option Float := do
  let (whole, afterWhole) ← splitDigits cs
  let (fraction, rest) ← match afterWhole with
    | '.' :: r => splitDigits r
    | r => some ([], r)
  if whole.isEmpty && fraction.isEmpty then none
  else return (Decimal.ofDigits negative whole fraction (← readExponent rest)).toFloat

def readFloat (text : List Char) : Option Float :=
  let (negative, unsigned) := splitSign (trim (· = ' ') (text.map plainForm))
  let signed := fun x : Float => if negative then -x else x
  match String.ofList (unsigned.map Char.toLower) with
  | "inf" | "infinity" => some (signed (1.0 / 0.0))
  | "nan" => some (0.0 / 0.0)
  | _ => readDigits negative unsigned

end LetFun
