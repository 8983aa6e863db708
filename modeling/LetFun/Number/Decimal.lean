/-!
# Decimals

A decimal as it is written with digits, a point and an exponent, and the number of double precision
nearest to it.
-/

namespace LetFun

/-- The value `± coefficient * 10 ^ exponent`. -/
structure Decimal where
  negative : Bool
  coefficient : Nat
  exponent : Int
deriving DecidableEq, Repr

def digitValue (c : Char) : Nat :=
  c.toNat - 48

def ofDigits (cs : List Char) : Nat :=
  cs.foldl (fun n c => 10 * n + digitValue c) 0

namespace Decimal

def ofDigits (negative : Bool) (whole fraction : List Char) (exponent : Int) : Decimal :=
  ⟨negative, LetFun.ofDigits (whole ++ fraction), exponent - fraction.length⟩

/-- The nearest number of double precision, `inf` if the decimal is too large. Every positive
decimal from `10 ^ 310` up is, and every one below `10 ^ -330` is nearest to zero. -/
def toFloat (d : Decimal) : Float :=
  let magnitude : Int := (Nat.toDigits 10 d.coefficient).length + d.exponent
  let x :=
    if d.coefficient = 0 ∨ magnitude < -330 then 0.0
    else if 310 < magnitude then 1.0 / 0.0
    else Float.ofScientific d.coefficient (d.exponent < 0) d.exponent.natAbs
  if d.negative then -x else x

end Decimal

end LetFun
