import LetFun.Number.Shortest
/-!
# The text of floating-point numbers

A number is shown with its shortest digits. Numbers from `0.0001` up to but not including `1e16` are
written positionally with at least one digit after the point; the others have an exponent of at
least two digits.
-/

namespace LetFun

namespace Digits

def positional (d : Digits) : List Char :=
  if d.point ≤ 0 then
    '0' :: '.' :: List.replicate (-d.point).toNat '0' ++ d.digits
  else
    let n := d.point.toNat
    let whole := d.digits.take n ++ List.replicate (n - d.digits.length) '0'
    let fraction := d.digits.drop n
    whole ++ '.' :: (if fraction.isEmpty then ['0'] else fraction)

def scientific (d : Digits) : List Char :=
  let e := d.point - 1
  let exponent := Nat.toDigits 10 e.natAbs
  let fraction := d.digits.drop 1
  d.digits.take 1 ++ (if fraction.isEmpty then [] else '.' :: fraction) ++
    'e' :: (if e < 0 then '-' else '+') :: List.replicate (2 - exponent.length) '0' ++ exponent

/-- The digits as text, positional from four places after the point up to sixteen before it. -/
def layOut (d : Digits) : List Char :=
  if -4 < d.point ∧ d.point ≤ 16 then d.positional else d.scientific

end Digits

def floatText (x : Float) : String :=
  match Binary.ofFloat? x with
  | none => if x.isNaN then "nan" else if x < 0 then "-inf" else "inf"
  | some b =>
    let digits := if b.mantissa = 0 then ['0', '.', '0'] else (Digits.shortest b).layOut
    String.ofList (if b.negative then '-' :: digits else digits)

end LetFun
